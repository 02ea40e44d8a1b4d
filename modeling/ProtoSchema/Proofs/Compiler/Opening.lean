import ProtoSchema.Proofs.Compiler.Failure
import ProtoSchema.Proofs.Compiler.Gathering
import ProtoSchema.Proofs.Compiler.PostOrder
/-! # What opening a file does

Opening a file appends the missing files that it leads to, or some of them if it fails.
Everything that was loaded before stays, apart from the mark of the opened file.
-/

namespace ProtoSchema

namespace Schema

/-! ## Earlier files -/

/-- A later schema has the files of an earlier one in their places, and they see what
they saw. -/
structure Retains (before after : Schema) : Prop where
  files : ∀ (id : FileId) loaded, before.files[id]? = some loaded →
    after.files[id]? = some loaded
  visible?_eq : ∀ id < before.files.size, after.visible? id = before.visible? id
  visibleExtensions_eq : ∀ id < before.files.size,
    after.visibleExtensions id = before.visibleExtensions id

namespace Retains

theorem refl (schema : Schema) : schema.Retains schema where
  files _ _ present := present
  visible?_eq _ _ := rfl
  visibleExtensions_eq _ _ := rfl

theorem lt_size {before after : Schema} (retains : before.Retains after) {id : FileId}
    (earlier : id < before.files.size) : id < after.files.size :=
  lt_size_of_getElem? (retains.files id _ (Array.getElem?_eq_getElem earlier))

theorem trans {before middle after : Schema} (first : before.Retains middle)
    (second : middle.Retains after) : before.Retains after where
  files id loaded present := second.files id loaded (first.files id loaded present)
  visible?_eq id earlier :=
    (second.visible?_eq id (first.lt_size earlier)).trans (first.visible?_eq id earlier)
  visibleExtensions_eq id earlier :=
    (second.visibleExtensions_eq id (first.lt_size earlier)).trans
      (first.visibleExtensions_eq id earlier)

theorem push {schema : Schema} (ordered : schema.Ordered) (loaded : LoadedFile) :
    schema.Retains (schema.push loaded) where
  files _ _ present := getElem?_push_of_getElem? loaded present
  visible?_eq id earlier := by
    funext name
    exact visible?_push_of_lt ordered loaded name id earlier
  visibleExtensions_eq id earlier := by
    funext extendee
    exact visibleExtensions_push_of_lt ordered loaded earlier extendee

theorem forget (schema : Schema) (name : String) : schema.Retains (schema.forget name) where
  files _ _ present := present
  visible?_eq id _ := by rw [visible?_forget]
  visibleExtensions_eq id _ := by rw [visibleExtensions_forget]

variable {Opened : SourceFile → Prop} {rules : Rules} {resolver : Resolver} {schema : Schema}

theorem step {next : Schema} {isRoot : Bool} (settled : schema.Settled Opened)
    (step : Rules.Step rules resolver isRoot schema next) : schema.Retains next := by
  cases step with
  | added adds =>
      rcases Rules.exists_of_add_eq_ok adds.added with ⟨loaded, -, -, rfl⟩
      exact push settled.ordered loaded
  | withdrawn _ _ => exact forget schema _

theorem steps {after : Schema} (settled : schema.Settled fun _ => True)
    (steps : Rules.Steps rules resolver schema after) : schema.Retains after := by
  induction steps with
  | refl => exact .refl schema
  | tail before step induction =>
      exact induction.trans (.step (settled.steps (fun _ _ _ => trivial) before) step)

theorem commit (settled : schema.Settled Opened) (file : SourceFile) (isRoot : Bool) :
    schema.Retains (rules.commit schema file isRoot).2 := by
  rcases Rules.commit_cases rules schema file isRoot with
    ⟨next, added, result⟩ | ⟨error, -, result⟩
  · rcases Rules.exists_of_add_eq_ok added with ⟨loaded, -, -, rfl⟩
    rw [result]
    exact push settled.ordered loaded
  · rw [result]
    exact forget schema file.name

/-- Opening a file that was not loaded leaves all others as they are. -/
theorem loadsRoot (settled : schema.Settled fun _ => True) {file : SourceFile}
    {result : Except LoadError Unit × Schema} {middle : Schema}
    (loads : Rules.LoadsRoot rules resolver schema file result middle) :
    schema.Retains result.2 := by
  have before := steps settled loads.steps
  rcases loads.outcome with ⟨error, rfl⟩ | ⟨rfl, -⟩
  · exact before
  · exact before.trans (commit (settled.steps (fun _ _ _ => trivial) loads.steps) file true)

end Retains

end Schema

namespace Compiler

/-! ## The exact effect -/

/-- The names of the files that a file imports: those of the loaded file, or else those in
its source. -/
def importsOf (compiler : Compiler) (name : String) : List String :=
  match compiler.schema.fileNamed? name with
  | some id => (compiler.schema.files[id]?.map fun loaded =>
      loaded.file.imports.map Import.name).getD []
  | none =>
      match compiler.resolver.openFile name with
      | .ok file => file.tree.imports.map Syntax.Import.file
      | .error _ => []

/-- What opening the file at a path does to the files of a compiler, if the opening has
an outcome and leaves a schema. -/
structure OpensExactly (compiler : Compiler) (path : Path) (outcome : Except LoadError Unit)
    (after : Schema) : Prop where
  /-- Files that were loaded before stay, and only the opened file may become a root. -/
  kept : ∀ (id : FileId) loaded, compiler.schema.files[id]? = some loaded →
    ∃ mark, after.files[id]? = some { loaded with isRoot := mark } ∧
      (mark = loaded.isRoot ∨ mark = true ∧ outcome = .ok () ∧
        ∃ included, compiler.target? path = some (loaded.file.name, included))
  resolve_eq : ∀ id < compiler.schema.files.size, after.resolve id = compiler.schema.resolve id
  extensions_eq : ∀ id < compiler.schema.files.size,
    after.extensions id = compiler.schema.extensions id
  /-- Files that are new are complete, have their imports, and are there because of the
  opened file, which alone is a root. -/
  appended : ∀ (id : FileId) loaded, compiler.schema.files.size ≤ id →
    after.files[id]? = some loaded →
    ∃ name included, compiler.target? path = some (name, included) ∧
      LeadsTo compiler.importsOf name loaded.file.name ∧
      (loaded.isRoot = true ↔ outcome = .ok () ∧ loaded.file.name = name) ∧
      loaded.WellPlaced after id
  /-- In case of success all missing files are appended in post-order. -/
  succeeded : outcome = .ok () → ∃ name included order,
    compiler.target? path = some (name, included) ∧
      after.fileNames = compiler.schema.fileNames ++ order ∧
      PostOrder compiler.importsOf compiler.schema.fileNames [name] order ∧ order.Nodup ∧
      (∀ other, other ∈ order ↔
        LeadsTo compiler.importsOf name other ∧ other ∉ compiler.schema.fileNames) ∧
      (name ∈ compiler.schema.fileNames → order = []) ∧
      (name ∉ compiler.schema.fileNames → order.getLast? = some name) ∧
      ∃ (id : FileId) (loaded : LoadedFile), after.files[id]? = some loaded ∧
        loaded.file.name = name ∧ loaded.isRoot = true
  /-- What fails is not there, unless it was there before. -/
  failed : ∀ name, compiler.FailsDuring path name → name ∉ compiler.schema.fileNames →
    name ∉ after.fileNames

/-! ## Imports of loaded and of missing files -/

variable {compiler : Compiler} {opened : List String}

theorem importsOf_of_loaded {name : String} {id : FileId} {loaded : LoadedFile}
    (named : compiler.schema.fileNamed? name = some id)
    (present : compiler.schema.files[id]? = some loaded) :
    compiler.importsOf name = loaded.file.imports.map Import.name := by
  simp only [importsOf, named, present, Option.map_some, Option.getD_some]

theorem importsOf_of_opened {name : String} {file : SourceFile}
    (missing : compiler.schema.fileNamed? name = none)
    (found : compiler.resolver.openFile name = .ok file) :
    compiler.importsOf name = file.tree.imports.map Syntax.Import.file := by
  simp only [importsOf, missing, found]

/-- Loaded files import loaded files only. -/
theorem importsOf_closed (wellFormed : compiler.schema.WellFormed opened) :
    ∀ name ∈ compiler.schema.fileNames, ∀ target ∈ compiler.importsOf name,
      target ∈ compiler.schema.fileNames := by
  intro name member target edge
  rcases Schema.mem_fileNames.mp member with ⟨id, loaded, present, named⟩
  have found := wellFormed.fileNamed?_eq_some_iff.mpr ⟨loaded, present, named⟩
  rw [importsOf_of_loaded found present] at edge
  rcases List.mem_map.mp edge with ⟨statement, listed, rfl⟩
  rcases (wellFormed.wellPlaced present).imports_linked statement listed with
    ⟨other, imported, -, -, presentOther, sameName⟩
  exact Schema.mem_fileNames.mpr ⟨other, imported, presentOther, sameName⟩

theorem underway (wellFormed : compiler.schema.WellFormed opened) {name : String}
    (missing : compiler.schema.fileNamed? name = none) :
    Rules.Underway compiler.resolver compiler.importsOf [name] compiler.schema where
  wellFormed := ⟨opened, wellFormed⟩
  lacks := Schema.lacks_singleton missing
  next_eq _ _ missing found := importsOf_of_opened missing found

/-! ## The three ways to end -/

/-- An order in which no file is missing has the properties of one. -/
theorem order_of_postOrder (wellFormed : compiler.schema.WellFormed opened) {after : Schema}
    {later : List String} (afterWellFormed : after.WellFormed later) {name : String}
    {order : List String} (appended : after.fileNames = compiler.schema.fileNames ++ order)
    (visits : PostOrder compiler.importsOf compiler.schema.fileNames [name] order) :
    order.Nodup ∧
      (∀ other, other ∈ order ↔
        LeadsTo compiler.importsOf name other ∧ other ∉ compiler.schema.fileNames) ∧
      (name ∈ compiler.schema.fileNames → order = []) ∧
      (name ∉ compiler.schema.fileNames → order.getLast? = some name) := by
  have distinct := afterWellFormed.nodup_fileNames
  rw [appended] at distinct
  refine ⟨(List.nodup_append'.mp distinct).2.1, fun other => ?_, visits.eq_nil_of_mem,
    visits.getLast?_of_not_mem⟩
  rw [visits.mem_iff (importsOf_closed wellFormed)]
  simp

/-- The opened file is a root in the end. -/
theorem exists_root {after : Schema} {later : List String} (wellFormed : after.WellFormed later)
    {name : String} (member : name ∈ later) :
    ∃ (id : FileId) (loaded : LoadedFile), after.files[id]? = some loaded ∧
      loaded.file.name = name ∧ loaded.isRoot = true := by
  rcases Option.isSome_iff_exists.mp (wellFormed.opened_loaded name member) with ⟨id, named⟩
  rcases wellFormed.fileNamed?_eq_some_iff.mp named with ⟨loaded, present, rfl⟩
  exact ⟨id, loaded, present, rfl, (wellFormed.isRoot_iff present).mpr member⟩

theorem OpensExactly.refused (compiler : Compiler) (path : Path) (error : LoadError) :
    compiler.OpensExactly path (.error error) compiler.schema where
  kept _ loaded present := ⟨loaded.isRoot, present, .inl rfl⟩
  resolve_eq _ _ := rfl
  extensions_eq _ _ := rfl
  appended _ _ later present :=
    absurd (Schema.lt_size_of_getElem? present) (Nat.not_lt.mpr later)
  succeeded := nofun
  failed _ _ missing := missing

theorem OpensExactly.reopened {path : Path} {name : String} {included : Bool} {root : FileId}
    (wellFormed : compiler.schema.WellFormed opened)
    (target : compiler.target? path = some (name, included))
    (named : compiler.schema.fileNamed? name = some root) :
    compiler.OpensExactly path (.ok ()) (compiler.schema.markRoot root) := by
  have afterWellFormed := wellFormed.markRoot named
  have sameSize : (compiler.schema.markRoot root).files.size = compiler.schema.files.size := by
    simp [Schema.markRoot]
  have sameNames : (compiler.schema.markRoot root).fileNames = compiler.schema.fileNames := by
    refine List.ext_getElem? fun id => ?_
    simp only [Schema.fileNames, List.getElem?_map, Array.getElem?_toList]
    exact compiler.schema.map_getElem?_markRoot root id (·.file.name) fun _ => rfl
  have known : name ∈ compiler.schema.fileNames := by
    rw [wellFormed.mem_fileNames_iff, named, Option.isSome_some]
  exact
    { kept := by
        intro id loaded present
        rw [Schema.getElem?_markRoot, present, Option.map_some]
        by_cases equal : root = id
        · rcases wellFormed.fileNamed?_eq_some_iff.mp named with ⟨marked, presentRoot, rfl⟩
          subst equal
          rw [present] at presentRoot
          cases presentRoot
          exact ⟨true, by rw [if_pos rfl], .inr ⟨rfl, rfl, included, target⟩⟩
        · exact ⟨loaded.isRoot, by rw [if_neg equal], .inl rfl⟩
      resolve_eq := fun id _ => by
        funext other
        rw [Schema.resolve, Schema.resolve, Schema.visible?_markRoot]
      extensions_eq := fun id _ => by
        funext extendee
        rw [Schema.extensions, Schema.extensions, Schema.visibleExtensions_markRoot]
      appended := fun id loaded later present => by
        have bound := Schema.lt_size_of_getElem? present
        rw [sameSize] at bound
        exact absurd bound (Nat.not_lt.mpr later)
      succeeded := fun _ => by
        have appended : (compiler.schema.markRoot root).fileNames =
            compiler.schema.fileNames ++ [] := by rw [sameNames, List.append_nil]
        have visits : PostOrder compiler.importsOf compiler.schema.fileNames [name] [] :=
          .known known (.done _)
        rcases order_of_postOrder wellFormed afterWellFormed appended visits with
          ⟨distinct, members, none, last⟩
        exact ⟨name, included, [], target, appended, visits, distinct, members, none, last,
          exists_root afterWellFormed (List.mem_append_right _ (List.mem_singleton_self name))⟩
      failed := fun other _ missing => by rwa [sameNames] }

theorem OpensExactly.loaded {path : Path} {name : String} {included : Bool} {file : SourceFile}
    {result : Except LoadError Unit × Schema} {middle : Schema}
    (names : compiler.resolver.NamesFiles) (wellFormed : compiler.schema.WellFormed opened)
    (settled : compiler.schema.Settled fun _ => True)
    (target : compiler.target? path = some (name, included))
    (found : compiler.resolver.openFile name = .ok file)
    (loads : Rules.LoadsRoot compiler.rules compiler.resolver compiler.schema file result middle)
    (missing : compiler.schema.fileNamed? name = none)
    (run : compiler.rules.loadRoot compiler.resolver compiler.schema name file = some result)
    (failed : ∀ other, compiler.FailsDuring path other →
      compiler.schema.fileNamed? other = none → result.2.fileNamed? other = none) :
    compiler.OpensExactly path result.1 result.2 := by
  have afterWellFormed := wellFormed.loadsRoot names loads
  rw [names name file found] at afterWellFormed
  have retains := Schema.Retains.loadsRoot settled loads
  rcases Rules.loadRoot_appends names run found missing (underway wellFormed missing) with
    ⟨order, appends⟩
  exact
    { kept := fun id loaded present => ⟨loaded.isRoot, retains.files id loaded present, .inl rfl⟩
      resolve_eq := fun id earlier => by
        funext other
        rw [Schema.resolve, Schema.resolve, retains.visible?_eq id earlier]
      extensions_eq := fun id earlier => by
        funext extendee
        rw [Schema.extensions, Schema.extensions, retains.visibleExtensions_eq id earlier]
      appended := fun id loaded later present => by
        have inOrder : loaded.file.name ∈ order := by
          have listed : result.2.fileNames[id]? = some loaded.file.name := by
            simp [Schema.fileNames, present]
          have length : compiler.schema.fileNames.length = compiler.schema.files.size := by
            simp [Schema.fileNames]
          rw [appends.fileNames_eq, List.getElem?_append_right (length ▸ later)] at listed
          exact List.mem_of_getElem? listed
        have unopened : loaded.file.name ∉ opened := by
          intro member
          have known := wellFormed.mem_fileNames_iff.mpr (wellFormed.opened_loaded _ member)
          have distinct := afterWellFormed.nodup_fileNames
          rw [appends.fileNames_eq] at distinct
          exact List.disjoint_of_nodup_append distinct known inOrder
        rcases appends.leadsTo _ inOrder with ⟨start, listed, leads⟩
        refine ⟨name, included, target, List.mem_singleton.mp listed ▸ leads, ?_,
          afterWellFormed.wellPlaced present⟩
        rw [afterWellFormed.isRoot_iff present]
        cases result.1 <;> simp [unopened, Except.toBool]
      succeeded := fun succeeded => by
        rcases order_of_postOrder wellFormed afterWellFormed appends.fileNames_eq
          (appends.postOrder succeeded) with ⟨distinct, members, none, last⟩
        exact ⟨name, included, order, target, appends.fileNames_eq, appends.postOrder succeeded,
          distinct, members, none, last,
          exists_root afterWellFormed (by simp [succeeded, Except.toBool])⟩
      failed := fun other fails absent => by
        rw [wellFormed.not_mem_fileNames_iff] at absent
        exact afterWellFormed.not_mem_fileNames_iff.mpr (failed other fails absent) }

/-- Opening a file has its exact effect on every compiler in good order. -/
theorem opensExactly_openFile (names : compiler.resolver.NamesFiles)
    (wellFormed : compiler.schema.WellFormed opened)
    (settled : compiler.schema.Settled fun _ => True) (path : Path) :
    compiler.OpensExactly path (compiler.openFile path).1 (compiler.openFile path).2.schema := by
  have failed := fun other (fails : compiler.FailsDuring path other) =>
    fails.fileNamed?_eq_none names
  have opens := compiler.opens_openFile path
  generalize compiler.openFile path = result at opens failed
  cases opens with
  | refused error => exact .refused compiler path error
  | reopened target named => exact .reopened wellFormed target named
  | loaded target found loads missing run =>
      exact .loaded names wellFormed settled target found loads missing run failed

end Compiler

/-! ## Sessions -/

namespace Session

/-- The files of a session are found by an allowed resolver, if all its resolvers are. -/
theorem allowed_resolver_run {Allowed : Resolver → Prop} {resolver : Resolver}
    (allowed : Allowed resolver) {operations : List Operation}
    (respect : ∀ operation ∈ operations, operation.Respects Allowed) :
    Allowed (run resolver operations).compiler.resolver := by
  have all : ∀ session : Session, Allowed session.compiler.resolver →
      Allowed (operations.foldl apply session).compiler.resolver := by
    induction operations with
    | nil => exact fun _ holds => holds
    | cons operation operations induction =>
        intro session holds
        apply induction fun other member => respect other (List.mem_cons_of_mem operation member)
        refine @apply_induction Allowed (fun session => Allowed session.compiler.resolver)
          ?_ (fun _ _ _ holds => holds) (fun _ _ found _ => found) session holds operation
          (respect operation List.mem_cons_self)
        intro session path holds
        rw [resolver_openFile]
        exact holds
  exact all { compiler := { resolver } } allowed

/-- After every session, opening a file has its exact effect: all missing files in
post-order or, if it fails, some of them, and nothing else. -/
theorem opensExactly_run {resolver : Resolver} (names : resolver.NamesFiles)
    {operations : List Operation}
    (respect : ∀ operation ∈ operations, operation.Respects Resolver.NamesFiles) (path : Path) :
    (run resolver operations).compiler.OpensExactly path
      ((run resolver operations).compiler.openFile path).1
      ((run resolver operations).compiler.openFile path).2.schema :=
  Compiler.opensExactly_openFile (allowed_resolver_run names respect)
    (Schema.WellFormed.run (fun _ => id) names respect)
    (Schema.settled_run resolver operations) path

/-- A file is opened after an attempt that failed because of one of its imports. -/
theorem opensExactly_run_mended :
    let broken := Resolver.ofMemory
      { sources := [("a.proto", "import \"b.proto\"; import \"c.proto\";"),
        ("b.proto", "message B \x7b\x7d"), ("c.proto", "message")] }
    let mended := Resolver.ofMemory
      { sources := [("a.proto", "import \"b.proto\"; import \"c.proto\";"),
        ("c.proto", "import \"d.proto\";"), ("d.proto", "message D \x7b\x7d")] }
    let operations : List Operation := [.openFile ⟨"a.proto"⟩, .changeFiles mended]
    broken.NamesFiles ∧ (∀ operation ∈ operations, operation.Respects Resolver.NamesFiles) ∧
      (run broken operations).compiler.OpensExactly ⟨"a.proto"⟩
        ((run broken operations).compiler.openFile ⟨"a.proto"⟩).1
        ((run broken operations).compiler.openFile ⟨"a.proto"⟩).2.schema := by
  intro broken mended operations
  have names : broken.NamesFiles := Resolver.namesFiles_ofMemory _
  have respect : ∀ operation ∈ operations, operation.Respects Resolver.NamesFiles := by
    simp only [operations, List.forall_mem_cons, Operation.Respects]
    exact ⟨trivial, Resolver.namesFiles_ofMemory _, by simp⟩
  exact ⟨names, respect, opensExactly_run names respect ⟨"a.proto"⟩⟩

end Session

end ProtoSchema
