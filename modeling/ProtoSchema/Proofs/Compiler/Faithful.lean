import ProtoSchema.Proofs.Compiler.Settled
/-! # Faithful schemas

A schema is faithful to a resolver if each of its files is the one that the resolver
opens under the name of the file, is found under this name, and has all imports linked.
Nothing else about how it came about matters.
-/

namespace ProtoSchema.Schema

/-- The files of a schema are those of a resolver. -/
structure Faithful (resolver : Resolver) (schema : Schema) : Prop where
  settled : schema.Settled fun file => resolver.openFile file.name = .ok file
  named : ∀ {id : FileId} {loaded : LoadedFile}, schema.files[id]? = some loaded →
    schema.fileNamed? loaded.file.name = some id
  linked : ∀ {id : FileId} {loaded : LoadedFile}, schema.files[id]? = some loaded →
    ∀ statement ∈ loaded.file.imports, statement.file.isSome

namespace Faithful

variable {resolver : Resolver} {schema : Schema}

/-! ## Files of a faithful schema -/

/-- Import statements are linked by their names. -/
theorem import_eq (faithful : schema.Faithful resolver) {id : FileId} {loaded : LoadedFile}
    (present : schema.files[id]? = some loaded) {statement : Import}
    (member : statement ∈ loaded.file.imports) :
    statement.file = schema.fileNamed? statement.name := by
  rcases faithful.settled.files present with ⟨file, -, own⟩
  rcases Option.isSome_iff_exists.mp (faithful.linked present statement member) with
    ⟨target, link⟩
  rcases own.imports_linked statement member target link with ⟨-, imported, found, name⟩
  rw [link, ← name, faithful.named found]

theorem registered (faithful : schema.Faithful resolver) {id : FileId} {loaded : LoadedFile}
    {file : SourceFile} (present : schema.files[id]? = some loaded)
    (own : loaded.Settled schema id file) : Rules.Registered schema id file loaded where
  imports_eq := by
    rw [← own.imports_eq, List.map_map]
    have same : loaded.file.imports.map (fun statement => statement) = loaded.file.imports.map
        ((fun statement => { statement with file := schema.fileNamed? statement.name }) ∘
          fun statement => { statement with file := none }) := by
      apply List.map_congr_left
      intro statement member
      simp only [Function.comp_apply, ← faithful.import_eq present member]
    rw [← same, List.map_id']
  reexports_eq := own.reexports_eq
  privates_eq := own.privates_eq
  entries_eq := own.entries_eq

/-- Every import that is written in a file of the schema is in the schema. -/
theorem imported (faithful : schema.Faithful resolver) {id : FileId} {loaded : LoadedFile}
    {file : SourceFile} (present : schema.files[id]? = some loaded)
    (own : loaded.Settled schema id file) :
    ∀ statement ∈ file.tree.imports,
      ∃ target, schema.fileNamed? statement.file = some target ∧ target < id := by
  intro statement member
  have written : Draft.importStatement statement ∈
      loaded.file.imports.map fun statement => { statement with file := none } := by
    rw [own.imports_eq]
    exact List.mem_map_of_mem member
  rcases List.mem_map.mp written with ⟨link, inFile, equal⟩
  have name : link.name = statement.file := congrArg Import.name equal
  have found := faithful.linked present link inFile
  rcases Option.isSome_iff_exists.mp found with ⟨target, target_eq⟩
  refine ⟨target, ?_, (own.imports_linked link inFile target target_eq).1⟩
  rw [← name, ← faithful.import_eq present inFile, target_eq]

/-! ## Preservation -/

theorem empty : ({} : Schema).Faithful resolver where
  settled := .empty
  named present := by simp at present
  linked present := by simp at present

theorem push (faithful : schema.Faithful resolver) {file : SourceFile} {isRoot : Bool}
    {loaded : LoadedFile} (awaits : schema.Awaits resolver file)
    (linked : Rules.LinkedAs schema file isRoot loaded) :
    (schema.push loaded).Faithful resolver where
  settled := faithful.settled.add awaits.opened linked
  named present := by
    rcases getElem?_push_cases present with present | ⟨rfl, rfl⟩
    · apply fileNamed?_push_of_some _ (faithful.named present)
      rw [linked.name_eq]
      exact awaits.fresh
    · exact fileNamed?_push_self schema _
  linked present := by
    rcases getElem?_push_cases present with present | ⟨rfl, rfl⟩
    · exact faithful.linked present
    · intro statement member
      rw [linked.imports_eq] at member
      rcases List.mem_map.mp member with ⟨written, inDraft, rfl⟩
      have inTree : written ∈ file.tree.imports.map Draft.importStatement := inDraft
      rcases List.mem_map.mp inTree with ⟨source, isSource, rfl⟩
      exact awaits.imported source isSource

theorem markRoot (faithful : schema.Faithful resolver) (root : FileId) :
    (schema.markRoot root).Faithful resolver where
  settled := faithful.settled.markRoot root
  named present := by
    rcases getElem?_markRoot_cases present with ⟨original, mark, held, rfl⟩
    have kept := faithful.named held
    exact kept
  linked present := by
    rcases getElem?_markRoot_cases present with ⟨original, mark, held, rfl⟩
    have kept := faithful.linked held
    exact kept

end Faithful

end ProtoSchema.Schema
