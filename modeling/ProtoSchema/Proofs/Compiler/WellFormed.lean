import Mathlib.Data.List.Nodup
import ProtoSchema.Proofs.Compiler.Session
/-! # Well-formed schemas

Whatever is done with a compiler, its files and the names under which they are found
agree, the imports of every file are linked to earlier files, and the roots are the
files that were opened.
-/

namespace ProtoSchema

/-! ## Single files -/

/-- A file is complete and its imports are linked to earlier files of the schema. -/
structure LoadedFile.WellPlaced (schema : Schema) (id : FileId) (loaded : LoadedFile) :
    Prop where
  id_eq : loaded.file.id = id
  isComplete : loaded.isComplete = true
  imports_linked : ∀ statement ∈ loaded.file.imports, ∃ target imported,
    statement.file = some target ∧ target < id ∧
      schema.files[target]? = some imported ∧ imported.file.name = statement.name
  reexports_eq : loaded.reexports.map some =
    (loaded.file.imports.filter (·.kind == .reexport)).map Import.file
  privates_eq : loaded.privates.map some =
    (loaded.file.imports.filter (·.kind != .reexport)).map Import.file

namespace LoadedFile

theorem WellPlaced.push {schema : Schema} {id : FileId} {loaded : LoadedFile}
    (placed : loaded.WellPlaced schema id) (next : LoadedFile) :
    loaded.WellPlaced (schema.push next) id where
  id_eq := placed.id_eq
  isComplete := placed.isComplete
  imports_linked statement member := by
    rcases placed.imports_linked statement member with
      ⟨target, imported, link, earlier, present, name⟩
    exact ⟨target, imported, link, earlier, Schema.getElem?_push_of_getElem? next present, name⟩
  reexports_eq := placed.reexports_eq
  privates_eq := placed.privates_eq

theorem WellPlaced.markRoot {schema : Schema} {id : FileId} {loaded : LoadedFile}
    (placed : loaded.WellPlaced schema id) (root : FileId) (mark : Bool) :
    WellPlaced (schema.markRoot root) id { loaded with isRoot := mark } where
  id_eq := placed.id_eq
  isComplete := placed.isComplete
  imports_linked statement member := by
    rcases placed.imports_linked statement member with
      ⟨target, imported, link, earlier, present, name⟩
    refine ⟨target, if root = target then { imported with isRoot := true } else imported, link,
      earlier, ?_, ?_⟩
    · rw [Schema.getElem?_markRoot, present, Option.map_some]
    · split <;> exact name
  reexports_eq := placed.reexports_eq
  privates_eq := placed.privates_eq

end LoadedFile

/-- If all numbers are there, listing them loses none. -/
theorem map_some_filterMap {α β : Type} {values : List α} {number : α → Option β}
    (present : ∀ value ∈ values, (number value).isSome) :
    (values.filterMap number).map some = values.map number := by
  induction values with
  | nil => rfl
  | cons value values induction =>
      have rest := induction fun other member => present other (List.mem_cons_of_mem value member)
      rcases Option.isSome_iff_exists.mp (present value List.mem_cons_self) with ⟨found, equal⟩
      rw [List.filterMap_cons_some equal, List.map_cons, List.map_cons, rest, equal]

/-- A file that was added after its imports. -/
theorem Rules.LinkedAs.wellPlaced {schema : Schema} {file : SourceFile} {isRoot : Bool}
    {loaded : LoadedFile} (linked : Rules.LinkedAs schema file isRoot loaded)
    (complete : loaded.isComplete = true) (indexed : schema.Indexed)
    (imported : ∀ statement ∈ file.tree.imports, (schema.fileNamed? statement.file).isSome) :
    loaded.WellPlaced (schema.push loaded) schema.files.size := by
  have links : ∀ statement ∈ loaded.file.imports,
      statement.file = schema.fileNamed? statement.name ∧ statement.file.isSome := by
    intro statement member
    rw [linked.imports_eq] at member
    rcases List.mem_map.mp member with ⟨written, inDraft, rfl⟩
    have inTree : written ∈ file.tree.imports.map Draft.importStatement := inDraft
    rcases List.mem_map.mp inTree with ⟨source, isSource, rfl⟩
    exact ⟨rfl, imported source isSource⟩
  have allLinked : ∀ condition : Import → Bool,
      ∀ statement ∈ loaded.file.imports.filter condition, statement.file.isSome := by
    intro condition statement member
    exact (links statement (List.mem_filter.mp member).1).2
  exact
    { id_eq := linked.id_eq
      isComplete := complete
      imports_linked := by
        intro statement member
        rcases links statement member with ⟨link, found⟩
        rcases Option.isSome_iff_exists.mp found with ⟨target, equal⟩
        rw [equal] at link
        rcases indexed _ _ link.symm with ⟨other, present, name⟩
        exact ⟨target, other, equal, Schema.lt_size_of_getElem? present,
          Schema.getElem?_push_of_getElem? _ present, name⟩
      reexports_eq := by
        rw [linked.reexports_eq]
        exact map_some_filterMap (allLinked _)
      privates_eq := by
        rw [linked.privates_eq]
        exact map_some_filterMap (allLinked _) }

/-! ## Schemas -/

namespace Schema

/-- The files of a schema and their names agree, and its roots are the files of which
the names are listed. -/
structure WellFormed (schema : Schema) (opened : List String) : Prop where
  fileNamed?_eq_some_iff : ∀ {name : String} {id : FileId},
    schema.fileNamed? name = some id ↔
      ∃ loaded, schema.files[id]? = some loaded ∧ loaded.file.name = name
  wellPlaced : ∀ {id : FileId} {loaded : LoadedFile}, schema.files[id]? = some loaded →
    loaded.WellPlaced schema id
  isRoot_iff : ∀ {id : FileId} {loaded : LoadedFile}, schema.files[id]? = some loaded →
    (loaded.isRoot = true ↔ loaded.file.name ∈ opened)
  opened_loaded : ∀ name ∈ opened, (schema.fileNamed? name).isSome

namespace WellFormed

variable {schema : Schema} {opened : List String}

theorem indexed (wellFormed : schema.WellFormed opened) : schema.Indexed :=
  fun _ _ => wellFormed.fileNamed?_eq_some_iff.mp

/-- No two files have the same name. -/
theorem id_eq_of_name_eq (wellFormed : schema.WellFormed opened) {left right : FileId}
    {first second : LoadedFile} (presentLeft : schema.files[left]? = some first)
    (presentRight : schema.files[right]? = some second)
    (sameName : first.file.name = second.file.name) : left = right := by
  have namedLeft := wellFormed.fileNamed?_eq_some_iff.mpr ⟨first, presentLeft, rfl⟩
  have namedRight := wellFormed.fileNamed?_eq_some_iff.mpr ⟨second, presentRight, rfl⟩
  rw [sameName, namedRight] at namedLeft
  exact (Option.some.inj namedLeft).symm

theorem nodup_fileNames (wellFormed : schema.WellFormed opened) : schema.fileNames.Nodup := by
  rw [fileNames, List.nodup_iff_injective_getElem]
  intro left right sameName
  apply Fin.ext
  simp only [List.getElem_map, Array.getElem_toList] at sameName
  exact wellFormed.id_eq_of_name_eq (Array.getElem?_eq_getElem _) (Array.getElem?_eq_getElem _)
    sameName

theorem empty : ({} : Schema).WellFormed [] where
  fileNamed?_eq_some_iff := by simp [fileNamed?]
  wellPlaced present := by simp at present
  isRoot_iff present := by simp at present
  opened_loaded _ member := by cases member

/-! ### One more file -/

theorem add {file : SourceFile} {isRoot : Bool} {loaded : LoadedFile}
    (wellFormed : schema.WellFormed opened)
    (linked : Rules.LinkedAs schema file isRoot loaded) (complete : loaded.isComplete = true)
    (fresh : schema.fileNamed? file.name = none)
    (imported : ∀ statement ∈ file.tree.imports, (schema.fileNamed? statement.file).isSome) :
    (schema.push loaded).WellFormed
      (opened ++ if isRoot then [file.name] else []) := by
  have otherName : ∀ {id : FileId} {own : LoadedFile}, schema.files[id]? = some own →
      own.file.name ≠ file.name := by
    intro id own present equal
    have named := wellFormed.fileNamed?_eq_some_iff.mpr ⟨own, present, equal⟩
    rw [fresh] at named
    cases named
  have unopened : file.name ∉ opened := by
    intro member
    have found := wellFormed.opened_loaded file.name member
    rw [fresh] at found
    cases found
  have keeps : ∀ {name : String} {id : FileId}, schema.fileNamed? name = some id →
      (schema.push loaded).fileNamed? name = some id := by
    intro name id named
    apply fileNamed?_push_of_some _ named
    rw [linked.name_eq]
    exact fresh
  have findsNew : (schema.push loaded).fileNamed? file.name =
      some schema.files.size := by
    rw [← linked.name_eq]
    exact fileNamed?_push_self schema loaded
  refine ⟨⟨wellFormed.indexed.push _ _ _, ?_⟩, ?_, ?_, ?_⟩
  · rintro ⟨own, present, rfl⟩
    rcases getElem?_push_cases present with present | ⟨rfl, rfl⟩
    · exact keeps (wellFormed.fileNamed?_eq_some_iff.mpr ⟨own, present, rfl⟩)
    · rw [linked.name_eq]
      exact findsNew
  · intro id own present
    rcases getElem?_push_cases present with present | ⟨rfl, rfl⟩
    · exact (wellFormed.wellPlaced present).push _
    · exact linked.wellPlaced complete wellFormed.indexed imported
  · intro id own present
    rcases getElem?_push_cases present with present | ⟨rfl, rfl⟩
    · rw [wellFormed.isRoot_iff present]
      cases isRoot <;> simp [otherName present]
    · rw [linked.isRoot_eq, linked.name_eq]
      cases isRoot <;> simp [unopened]
  · intro name member
    rcases List.mem_append.mp member with member | member
    · rcases Option.isSome_iff_exists.mp (wellFormed.opened_loaded name member) with ⟨id, named⟩
      rw [keeps named, Option.isSome_some]
    · have equal : name = file.name := by
        cases isRoot <;> simp_all
      rw [equal, findsNew, Option.isSome_some]

/-! ### One more root -/

theorem markRoot {name : String} {root : FileId} (wellFormed : schema.WellFormed opened)
    (named : schema.fileNamed? name = some root) :
    (schema.markRoot root).WellFormed (opened ++ [name]) := by
  have marked := wellFormed.fileNamed?_eq_some_iff.mp named
  refine ⟨⟨wellFormed.indexed.markRoot root _ _, ?_⟩, ?_, ?_, ?_⟩
  · rintro ⟨loaded, present, rfl⟩
    rcases getElem?_markRoot_cases present with ⟨original, mark, held, rfl⟩
    exact wellFormed.fileNamed?_eq_some_iff.mpr ⟨original, held, rfl⟩
  · intro id loaded present
    rcases getElem?_markRoot_cases present with ⟨original, mark, held, rfl⟩
    exact (wellFormed.wellPlaced held).markRoot root mark
  · intro id loaded present
    rw [getElem?_markRoot, Option.map_eq_some_iff] at present
    rcases present with ⟨original, present, rfl⟩
    rcases marked with ⟨target, presentRoot, rfl⟩
    by_cases equal : root = id
    · rw [equal, present] at presentRoot
      cases presentRoot
      simp [equal]
    · have different : original.file.name ≠ target.file.name := by
        intro same
        exact equal (wellFormed.id_eq_of_name_eq presentRoot present same.symm)
      rw [if_neg equal, wellFormed.isRoot_iff present]
      simp [different]
  · intro other member
    rw [fileNamed?_markRoot]
    rcases List.mem_append.mp member with member | member
    · exact wellFormed.opened_loaded other member
    · rw [List.mem_singleton.mp member, named, Option.isSome_some]

/-! ### Opened files -/

variable {rules : Rules} {resolver : Resolver}

theorem step (names : resolver.NamesFiles) {next : Schema} (wellFormed : schema.WellFormed opened)
    (step : Rules.Step rules resolver false schema next) : next.WellFormed opened := by
  cases step with
  | added adds =>
      rcases Rules.exists_of_add_eq_ok adds.added with ⟨loaded, linked, complete, rfl⟩
      have added := wellFormed.add linked complete (adds.awaits names).fresh
        (adds.awaits names).imported
      simpa using added
  | withdrawn failed fresh =>
      rw [forget_of_fresh (fresh names)]
      exact wellFormed

theorem steps (names : resolver.NamesFiles) {after : Schema}
    (wellFormed : schema.WellFormed opened) (steps : Rules.Steps rules resolver schema after) :
    after.WellFormed opened := by
  induction steps with
  | refl => exact wellFormed
  | tail _ step induction => exact induction.step names step

/-- Opening a file that was not loaded makes it a root if it succeeds. -/
theorem loadsRoot (names : resolver.NamesFiles) {file : SourceFile}
    {result : Except LoadError Unit × Schema} {middle : Schema}
    (wellFormed : schema.WellFormed opened)
    (loads : Rules.LoadsRoot rules resolver schema file result middle) :
    result.2.WellFormed (opened ++ if result.1.toBool then [file.name] else []) := by
  have before := wellFormed.steps names loads.steps
  rcases loads.outcome with ⟨error, rfl⟩ | ⟨rfl, awaits⟩
  · simpa [Except.toBool] using before
  · have ready := awaits names
    rcases Rules.commit_cases rules middle file true with
      ⟨next, added, result⟩ | ⟨error, -, result⟩
    · rcases Rules.exists_of_add_eq_ok added with ⟨loaded, linked, complete, rfl⟩
      rw [result]
      exact before.add linked complete ready.fresh ready.imported
    · rw [result, forget_of_fresh ready.fresh]
      simpa [Except.toBool] using before

theorem openFile (session : Session) (path : Path)
    (names : session.compiler.resolver.NamesFiles)
    (wellFormed : session.compiler.schema.WellFormed session.opened) :
    (session.openFile path).compiler.schema.WellFormed (session.openFile path).opened := by
  have opens := session.compiler.opens_openFile path
  rw [Session.openFile]
  generalize session.compiler.openFile path = result at opens ⊢
  cases opens with
  | refused error => simpa using wellFormed
  | reopened target named => simpa [target] using wellFormed.markRoot named
  | @loaded name included file result middle target opened loads =>
      have after := wellFormed.loadsRoot names loads
      rw [names name file opened] at after
      rcases result with ⟨outcome, schema⟩
      cases outcome <;> simpa [target, Except.toBool] using after

/-- Every session of operations on good resolvers leaves a well-formed schema. -/
theorem run {Allowed : Resolver → Prop}
    (good : ∀ resolver, Allowed resolver → resolver.NamesFiles) {resolver : Resolver}
    (allowed : Allowed resolver) {operations : List Operation}
    (respect : ∀ operation ∈ operations, operation.Respects Allowed) :
    (Session.run resolver operations).compiler.schema.WellFormed
      (Session.run resolver operations).opened := by
  refine Session.run_induction empty ?_ allowed respect
  intro session path found wellFormed
  exact wellFormed.openFile session path (good _ found)

end WellFormed

/-- Every session leaves a well-formed schema, whether its operations succeed or fail,
and no two of its files have the same name. -/
theorem wellFormed_run {resolver : Resolver} (names : resolver.NamesFiles)
    {operations : List Operation}
    (respect : ∀ operation ∈ operations, operation.Respects Resolver.NamesFiles) :
    (Session.run resolver operations).compiler.schema.WellFormed
        (Session.run resolver operations).opened ∧
      (Session.run resolver operations).compiler.schema.fileNames.Nodup := by
  have wellFormed := WellFormed.run (fun _ => id) names respect
  exact ⟨wellFormed, wellFormed.nodup_fileNames⟩

/-- A file fails because of its import, which is mended before the next attempt. -/
theorem wellFormed_run_mended :
    let broken := Resolver.ofMemory
      { sources := [("a.proto", "import \"b.proto\";"), ("b.proto", "message")] }
    let mended := Resolver.ofMemory
      { sources := [("a.proto", "import \"b.proto\";"), ("b.proto", "message B \x7b\x7d")] }
    let operations : List Operation :=
      [.openFile ⟨"a.proto"⟩, .strictNames true, .changeFiles mended,
        .openFiles [⟨"a.proto"⟩, ⟨"b.proto"⟩, ⟨"c.proto"⟩]]
    broken.NamesFiles ∧ (∀ operation ∈ operations, operation.Respects Resolver.NamesFiles) ∧
      (Session.run broken operations).compiler.schema.WellFormed
        (Session.run broken operations).opened ∧
      (Session.run broken operations).compiler.schema.fileNames.Nodup := by
  intro broken mended operations
  have names : broken.NamesFiles := Resolver.namesFiles_ofMemory _
  have respect : ∀ operation ∈ operations, operation.Respects Resolver.NamesFiles := by
    simp only [operations, List.forall_mem_cons, Operation.Respects]
    exact ⟨trivial, trivial, Resolver.namesFiles_ofMemory _, trivial, by simp⟩
  exact ⟨names, respect, wellFormed_run names respect⟩

end Schema

end ProtoSchema
