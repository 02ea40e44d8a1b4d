import Mathlib.Data.List.Basic
import ProtoSchema.Proofs.Compiler.Session
import ProtoSchema.Proofs.Draft.Contents
/-! # Settled files

A loaded file is its draft with every reference linked to what the file sees in the
schema. Since nothing that a file sees changes later, this stays so while the schema
grows.
-/

namespace ProtoSchema

/-! ## Linked references -/

namespace Link

variable {resolve : Resolution} {scope : List String} {written : String}

theorem linkMessage_eq_ok_iff {unsuitable : Problem} {id : MessageId} :
    linkMessage resolve scope written unsuitable = .ok id ↔
      meaning? resolve scope written = some (.declared (.message id)) := by
  rw [linkMessage]
  split <;> simp_all

theorem value?_eq_some_iff {α : Type} {result : Except Problem α} {value : α} :
    value? result = some value ↔ result = .ok value := by
  cases result <;> simp [value?]

/-- What a name means is what one of its full names means. -/
theorem exists_of_meaning?_eq_declared {target : UserType}
    (meaning : meaning? resolve scope written = some (.declared target)) :
    ∃ fullName, resolve fullName = some target := by
  rw [meaning?] at meaning
  split at meaning
  · cases meaning
  split at meaning
  · rcases Option.map_eq_some_iff.mp meaning with ⟨found, lookup, equal⟩
    cases equal
    exact ⟨written, lookup⟩
  · rcases Option.map_eq_some_iff.mp meaning with ⟨found, lookup, equal⟩
    cases equal
    rcases List.exists_of_findSome?_eq_some lookup with ⟨namespaceName, -, lookup⟩
    exact ⟨namespaceName ++ written, lookup⟩

/-- The message that a linked block extends was found under some full name. -/
theorem exists_of_extendee {file : ProtoFile} {extension : Extension} {id : MessageId}
    (member : extension ∈ (linkAll resolve file).allExtensions)
    (extendee : extension.extendee = some id) :
    ∃ fullName, resolve fullName = some (.message id) := by
  rcases Array.mem_map.mp member with ⟨draft, -, rfl⟩
  exact exists_of_meaning?_eq_declared
    (linkMessage_eq_ok_iff.mp (value?_eq_some_iff.mp extendee))

/-- Linking leaves all names alone. -/
theorem declaredNames_linkAll (resolve : Resolution) (file : ProtoFile) :
    (linkAll resolve file).declaredNames = file.declaredNames := by
  simp only [ProtoFile.declaredNames, linkAll, Array.toList_map, List.zipIdx_map, List.map_map]
  rfl

end Link

/-! ## Settled files -/

/-- A loaded file is the draft of a source with everything linked to what the file sees
in the schema. -/
structure LoadedFile.Settled (schema : Schema) (id : FileId) (file : SourceFile)
    (loaded : LoadedFile) : Prop where
  file_eq : loaded.file = Link.linkAll (schema.visible? id)
    { (Rules.draftOf id file).file with imports := loaded.file.imports }
  references_sound : (Rules.draftOf id file).references.findSome?
    (Link.referenceError? (schema.visible? id)) = none
  imports_eq : loaded.file.imports.map (fun statement => { statement with file := none }) =
    (Rules.draftOf id file).file.imports
  imports_linked : ∀ statement ∈ loaded.file.imports, ∀ target, statement.file = some target →
    target < id ∧
      ∃ imported, schema.files[target]? = some imported ∧ imported.file.name = statement.name
  reexports_eq : loaded.reexports =
    (loaded.file.imports.filter Import.isReexport).filterMap Import.file
  privates_eq : loaded.privates =
    (loaded.file.imports.filter fun statement => !statement.isReexport).filterMap Import.file
  entries_eq : loaded.symbols.entries =
    ((Rules.draftOf id file).names.map Link.entryOf).reverse
  extended_eq : loaded.extended = Rules.extendedNames schema loaded.file
  path_eq : loaded.path = file.path
  source_eq : loaded.source = file.source

namespace LoadedFile.Settled

variable {schema : Schema} {id : FileId} {file : SourceFile} {loaded : LoadedFile}

theorem id_eq (settled : loaded.Settled schema id file) : loaded.file.id = id := by
  rw [settled.file_eq]
  rfl

theorem name_eq (settled : loaded.Settled schema id file) : loaded.file.name = file.name := by
  rw [settled.file_eq]
  rfl

theorem reexport_lt (settled : loaded.Settled schema id file) :
    ∀ next ∈ loaded.reexports, next < id := by
  intro next member
  rw [settled.reexports_eq] at member
  rcases List.mem_filterMap.mp member with ⟨statement, member, link⟩
  exact (settled.imports_linked statement (List.mem_filter.mp member).1 next link).1

theorem private_lt (settled : loaded.Settled schema id file) :
    ∀ next ∈ loaded.privates, next < id := by
  intro next member
  rw [settled.privates_eq] at member
  rcases List.mem_filterMap.mp member with ⟨statement, member, link⟩
  exact (settled.imports_linked statement (List.mem_filter.mp member).1 next link).1

/-- A file sees the messages that its extend blocks extend. -/
theorem exists_of_extendee (settled : loaded.Settled schema id file) {extension : Extension}
    (member : extension ∈ loaded.file.allExtensions) {target : MessageId}
    (extendee : extension.extendee = some target) :
    ∃ fullName, schema.visible? id fullName = some (.message target) := by
  rw [settled.file_eq] at member
  exact Link.exists_of_extendee member extendee

/-- The names of a file are those that its declarations declare. -/
theorem mem_entries_iff (settled : loaded.Settled schema id file) {name : String}
    {target : UserType} :
    (name, target) ∈ loaded.symbols.entries ↔
      ∃ declared ∈ loaded.file.declaredNames,
        declared.fullName = name ∧ declared.target = target := by
  have listed := Draft.ofTree_names_perm id file.name file.source file.tree
  have linked : loaded.file.declaredNames = (Rules.draftOf id file).file.declaredNames := by
    rw [settled.file_eq, Link.declaredNames_linkAll]
    rfl
  rw [settled.entries_eq, List.mem_reverse, linked]
  simp only [List.mem_map, Link.entryOf, Prod.mk.injEq]
  exact exists_congr fun declared => and_congr_left fun _ => listed.mem_iff

end LoadedFile.Settled

/-- The extend blocks that a file lists are its own. -/
theorem LoadedFile.Settled.file_of_mem_localExtensions {schema : Schema} {id : FileId}
    {file : SourceFile} {loaded : LoadedFile} (settled : loaded.Settled schema id file)
    {extendee : String} {extension : ExtensionId}
    (member : extension ∈ loaded.localExtensions extendee) : extension.file = id := by
  rcases List.mem_map.mp member with ⟨entry, listed, rfl⟩
  have inFile := (List.mem_filter.mp listed).1
  rw [settled.extended_eq] at inFile
  rcases List.mem_filterMap.mp inFile with ⟨⟨block, index⟩, -, found⟩
  simp only [Option.bind_eq_bind, Option.bind_eq_some_iff] at found
  rcases found with ⟨target, -, message, -, equal⟩
  cases equal
  exact settled.id_eq

/-! ## Full names -/

namespace Schema

/-- The declarations of a file are found under their full names. -/
theorem fullName?_of_mem_declaredNames {schema : Schema} {id : FileId} {loaded : LoadedFile}
    (present : schema.files[id]? = some loaded) (own : loaded.file.id = id)
    {declared : DeclaredName} (member : declared ∈ loaded.file.declaredNames) :
    declared.target.file = id ∧ schema.fullName? declared.target = some declared.fullName := by
  have held : schema.file? id = some loaded.file := by rw [file?, present, Option.map_some]
  rw [ProtoFile.declaredNames, own, List.mem_append, List.mem_append] at member
  rcases member with (member | member) | member <;>
    rcases List.mem_map.mp member with ⟨⟨entry, index⟩, inList, rfl⟩ <;>
    rw [List.mk_mem_zipIdx_iff_getElem?, Array.getElem?_toList] at inList
  · refine ⟨rfl, ?_⟩
    simp [Message.declaredName, fullName?, message?, held, inList]
  · refine ⟨rfl, ?_⟩
    simp [Enum.declaredName, fullName?, enum?, held, inList]
  · refine ⟨rfl, ?_⟩
    simp [Service.declaredName, fullName?, service?, held, inList]

/-- Whatever has a full name is declared under it. -/
theorem mem_declaredNames_of_fullName? {schema : Schema} {target : UserType} {name : String}
    {loaded : LoadedFile} (present : schema.files[target.file]? = some loaded)
    (own : loaded.file.id = target.file) (named : schema.fullName? target = some name) :
    ∃ declared ∈ loaded.file.declaredNames,
      declared.fullName = name ∧ declared.target = target := by
  have held : schema.file? target.file = some loaded.file := by
    rw [file?, present, Option.map_some]
  rcases target with ⟨file, index⟩ | ⟨file, index⟩ | ⟨file, index⟩ <;>
    simp only [UserType.file] at held own <;>
    simp only [fullName?, message?, enum?, service?, held, Option.bind_eq_bind, Option.bind_some,
      Option.map_eq_some_iff] at named <;>
    rcases named with ⟨entry, found, rfl⟩ <;>
    simp only [ProtoFile.declaredNames, own, List.mem_append, List.mem_map, Prod.exists,
      List.mk_mem_zipIdx_iff_getElem?, Array.getElem?_toList]
  · exact ⟨_, .inl (.inl ⟨entry, index, found, rfl⟩), rfl, rfl⟩
  · exact ⟨_, .inl (.inr ⟨entry, index, found, rfl⟩), rfl, rfl⟩
  · exact ⟨_, .inr ⟨entry, index, found, rfl⟩, rfl, rfl⟩

end Schema

namespace LoadedFile.Settled

variable {schema : Schema} {id : FileId} {file : SourceFile} {loaded : LoadedFile}

/-- A name of a file means a declaration of the file with this full name. -/
theorem fullName?_of_find? (settled : loaded.Settled schema id file)
    (present : schema.files[id]? = some loaded) {name : String} {target : UserType}
    (found : loaded.symbols.find? name = some target) :
    target.file = id ∧ schema.fullName? target = some name := by
  have entry : (name, target) ∈ loaded.symbols.entries := by
    rw [SymbolTable.find?, List.lookup_eq_some_iff] at found
    rcases found with ⟨front, back, equal, -⟩
    rw [equal]
    simp
  rcases settled.mem_entries_iff.mp entry with ⟨declared, member, rfl, rfl⟩
  exact Schema.fullName?_of_mem_declaredNames present settled.id_eq member

/-- A full name that a file declares means something in it. -/
theorem isSome_find?_of_fullName? {target : UserType}
    (settled : loaded.Settled schema target.file file)
    (present : schema.files[target.file]? = some loaded) {name : String}
    (named : schema.fullName? target = some name) : (loaded.symbols.find? name).isSome := by
  have declared := Schema.mem_declaredNames_of_fullName? present settled.id_eq named
  have entry := settled.mem_entries_iff.mpr declared
  rw [SymbolTable.find?, List.lookup_isSome_iff]
  exact ⟨(name, target), entry, beq_self_eq_true name⟩

end LoadedFile.Settled

/-! ## Settled schemas -/

/-- Every name leads to a file that has it, and every file is settled, with a source of
a certain kind. -/
structure Schema.Settled (Opened : SourceFile → Prop) (schema : Schema) : Prop where
  indexed : schema.Indexed
  files : ∀ {id : FileId} {loaded : LoadedFile}, schema.files[id]? = some loaded →
    ∃ file, Opened file ∧ loaded.Settled schema id file

namespace Schema.Settled

variable {Opened : SourceFile → Prop} {schema : Schema}

theorem ordered (settled : schema.Settled Opened) : schema.Ordered where
  reexport_lt present := by
    rcases settled.files present with ⟨file, -, own⟩
    exact own.reexport_lt
  private_lt present := by
    rcases settled.files present with ⟨file, -, own⟩
    exact own.private_lt

theorem owned (settled : schema.Settled Opened) : schema.Owned := by
  intro id loaded present name target found
  rcases settled.files present with ⟨file, -, own⟩
  exact (own.fullName?_of_find? present found).1

/-! ## One more file -/

/-- The extend blocks of a file extend messages that are loaded already. -/
theorem extendee_le (settled : schema.Settled Opened) {id : FileId} {file : SourceFile}
    {loaded : LoadedFile} (own : loaded.Settled schema id file) {extension : Extension}
    (member : extension ∈ loaded.file.allExtensions) {target : MessageId}
    (extendee : extension.extendee = some target) : target.file ≤ id := by
  rcases own.exists_of_extendee member extendee with ⟨fullName, found⟩
  exact file_le_of_visible? settled.ordered settled.owned found

theorem extendedNames_push (settled : schema.Settled Opened) {id : FileId} {file : SourceFile}
    {loaded : LoadedFile} (present : schema.files[id]? = some loaded)
    (own : loaded.Settled schema id file) (next : LoadedFile) :
    Rules.extendedNames (schema.push next) loaded.file =
      Rules.extendedNames schema loaded.file := by
  rw [Rules.extendedNames, Rules.extendedNames]
  apply List.filterMap_congr
  rintro ⟨extension, index⟩ member
  cases extendee : extension.extendee with
  | none => simp only [extendee, Option.bind_eq_bind, Option.bind_none]
  | some target =>
      have inFile : extension ∈ loaded.file.allExtensions := by
        rw [← Array.mem_toList_iff]
        exact List.mem_of_getElem? (List.mk_mem_zipIdx_iff_getElem?.mp member)
      have bound := settled.extendee_le own inFile extendee
      have earlier := Nat.lt_of_le_of_lt bound (lt_size_of_getElem? present)
      simp only [Option.bind_eq_bind, Option.bind_some, extendee,
        message?_push_of_lt schema next earlier]

theorem push_file (settled : schema.Settled Opened) {id : FileId} {file : SourceFile}
    {loaded : LoadedFile} (present : schema.files[id]? = some loaded)
    (own : loaded.Settled schema id file) (next : LoadedFile) :
    loaded.Settled (schema.push next) id file := by
  have earlier := lt_size_of_getElem? present
  have sees : (schema.push next).visible? id = schema.visible? id := by
    funext name
    exact visible?_push_of_lt settled.ordered next name id earlier
  exact
    { own with
      file_eq := by
        rw [sees]
        exact own.file_eq
      references_sound := by
        rw [sees]
        exact own.references_sound
      imports_linked := by
        intro statement member target link
        rcases own.imports_linked statement member target link with
          ⟨before, imported, found, name⟩
        exact ⟨before, imported, getElem?_push_of_getElem? next found, name⟩
      extended_eq := by
        rw [settled.extendedNames_push present own next]
        exact own.extended_eq }

/-- A linked file is settled once it is in the schema. -/
theorem push_linked (settled : schema.Settled Opened) {file : SourceFile} {isRoot : Bool}
    {loaded : LoadedFile} (linked : Rules.LinkedAs schema file isRoot loaded) :
    loaded.Settled (schema.push loaded) schema.files.size file := by
  have links : ∀ statement ∈ loaded.file.imports, ∀ target, statement.file = some target →
      schema.fileNamed? statement.name = some target := by
    intro statement member target link
    rw [linked.imports_eq] at member
    rcases List.mem_map.mp member with ⟨written, -, rfl⟩
    exact link
  have earlier : ∀ condition : Import → Bool,
      ∀ next ∈ (loaded.file.imports.filter condition).filterMap Import.file,
        next < schema.files.size := by
    intro condition next member
    rcases List.mem_filterMap.mp member with ⟨statement, member, link⟩
    exact settled.indexed.lt_size (links statement (List.mem_filter.mp member).1 next link)
  have reexports : ∀ next ∈ loaded.reexports, next < schema.files.size := by
    rw [linked.reexports_eq]
    exact earlier _
  have privates : ∀ next ∈ loaded.privates, next < schema.files.size := by
    rw [linked.privates_eq]
    exact earlier _
  have sees : (schema.push loaded).visible? schema.files.size = schema.seenBy? loaded := by
    funext name
    rw [visible?_of_getElem? (settled.ordered.push reexports privates) (getElem?_push_size _ _)]
    exact seenBy?_push settled.ordered loaded loaded reexports privates name
  exact
    { file_eq := by
        rw [sees]
        exact linked.file_eq
      references_sound := by
        rw [sees]
        exact linked.references_sound
      imports_eq := by
        rw [linked.imports_eq, List.map_map]
        change (file.tree.imports.map Draft.importStatement).map _ =
          file.tree.imports.map Draft.importStatement
        rw [List.map_map]
        rfl
      imports_linked := by
        intro statement member target link
        rcases settled.indexed _ _ (links statement member target link) with
          ⟨imported, found, name⟩
        exact ⟨lt_size_of_getElem? found, imported, getElem?_push_of_getElem? _ found, name⟩
      reexports_eq := linked.reexports_eq
      privates_eq := linked.privates_eq
      entries_eq := linked.entries_eq
      extended_eq := linked.extended_eq
      path_eq := linked.path_eq
      source_eq := linked.source_eq }

theorem add (settled : schema.Settled Opened) {file : SourceFile} (opened : Opened file)
    {isRoot : Bool} {loaded : LoadedFile} (linked : Rules.LinkedAs schema file isRoot loaded) :
    (schema.push loaded).Settled Opened where
  indexed := settled.indexed.push _
  files present := by
    rcases getElem?_push_cases present with present | ⟨rfl, rfl⟩
    · rcases settled.files present with ⟨other, otherOpened, own⟩
      exact ⟨other, otherOpened, settled.push_file present own _⟩
    · exact ⟨file, opened, settled.push_linked linked⟩

/-! ## Marks and forgotten names -/

theorem markRoot (settled : schema.Settled Opened) (root : FileId) :
    (schema.markRoot root).Settled Opened where
  indexed := settled.indexed.markRoot root
  files present := by
    rcases getElem?_markRoot_cases present with ⟨original, mark, held, rfl⟩
    rcases settled.files held with ⟨file, opened, own⟩
    refine ⟨file, opened, ?_⟩
    exact
      { own with
        file_eq := by
          rw [visible?_markRoot]
          exact own.file_eq
        references_sound := by
          rw [visible?_markRoot]
          exact own.references_sound
        imports_linked := by
          intro statement member target link
          rcases own.imports_linked statement member target link with
            ⟨before, imported, found, name⟩
          refine ⟨before, if root = target then { imported with isRoot := true } else imported,
            ?_, ?_⟩
          · rw [getElem?_markRoot, found, Option.map_some]
          · split <;> exact name
        extended_eq := by
          rw [Rules.extendedNames_congr (file?_markRoot schema root)]
          exact own.extended_eq }

theorem forget (settled : schema.Settled Opened) (name : String) :
    (schema.forget name).Settled Opened where
  indexed := settled.indexed.forget name
  files present := by
    rcases settled.files present with ⟨file, opened, own⟩
    refine ⟨file, opened, ?_⟩
    exact
      { own with
        file_eq := by
          rw [visible?_forget]
          exact own.file_eq
        references_sound := by
          rw [visible?_forget]
          exact own.references_sound
        extended_eq := own.extended_eq }

theorem empty : ({} : Schema).Settled Opened where
  indexed _ _ named := by simp [fileNamed?] at named
  files present := by simp at present

/-! ## Sessions -/

variable {rules : Rules} {resolver : Resolver} {isRoot : Bool}

theorem step (settled : schema.Settled Opened)
    (found : ∀ name file, resolver.openFile name = .ok file → Opened file) {next : Schema}
    (step : Rules.Step rules resolver isRoot schema next) : next.Settled Opened := by
  cases step with
  | added adds =>
      rcases adds.opened with ⟨name, opened⟩
      rcases Rules.exists_of_add_eq_ok adds.added with ⟨loaded, linked, -, rfl⟩
      exact settled.add (found name _ opened) linked
  | withdrawn _ _ => exact settled.forget _

theorem steps (settled : schema.Settled Opened)
    (found : ∀ name file, resolver.openFile name = .ok file → Opened file) {after : Schema}
    (steps : Rules.Steps rules resolver schema after) : after.Settled Opened := by
  induction steps with
  | refl => exact settled
  | tail _ step induction => exact induction.step found step

theorem commit (settled : schema.Settled Opened) {file : SourceFile} (opened : Opened file) :
    (rules.commit schema file isRoot).2.Settled Opened := by
  rcases Rules.commit_cases rules schema file isRoot with
    ⟨next, added, result⟩ | ⟨error, -, result⟩
  · rcases Rules.exists_of_add_eq_ok added with ⟨loaded, linked, -, rfl⟩
    rw [result]
    exact settled.add opened linked
  · rw [result]
    exact settled.forget file.name

theorem openFile {compiler : Compiler} (settled : compiler.schema.Settled Opened)
    (found : ∀ name file, compiler.resolver.openFile name = .ok file → Opened file)
    (path : Path) : (compiler.openFile path).2.schema.Settled Opened := by
  have opens := compiler.opens_openFile path
  generalize compiler.openFile path = result at opens
  cases opens with
  | refused error => exact settled
  | reopened target named => exact settled.markRoot _
  | @loaded name _ file _ middle _ opened loads =>
      have before := settled.steps found loads.steps
      rcases loads.outcome with ⟨error, rfl⟩ | ⟨rfl, -⟩
      · exact before
      · exact before.commit (found name file opened)

end Schema.Settled

/-- Every session leaves a settled schema. -/
theorem Schema.settled_run (resolver : Resolver) (operations : List Operation) :
    (Session.run resolver operations).compiler.schema.Settled fun _ => True := by
  refine Session.run_induction_of_all .empty ?_ resolver operations
  intro compiler path settled
  exact settled.openFile (fun _ _ _ => trivial) path

end ProtoSchema
