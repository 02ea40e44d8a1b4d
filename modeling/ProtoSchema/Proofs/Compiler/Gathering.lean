import Mathlib.Data.List.Pairwise
import ProtoSchema.Proofs.Compiler.Sight
import ProtoSchema.Proofs.Schema.Aggregation
/-! # What files gather

The extend blocks that a file sees are those of the files that it gathers: its own, and
those of the files behind its imports. They come in the order in which a search level by
level meets the files.
-/

namespace ProtoSchema.Schema

/-! ## Imports in order -/

/-- The files that the statements of a kind in a file import, in the order of the
statements. -/
def importTargets (schema : Schema) (kind : Import → Bool) (id : FileId) : List FileId :=
  (schema.files[id]?.map fun loaded =>
    (loaded.file.imports.filter kind).filterMap Import.file).getD []

theorem mem_importTargets {schema : Schema} {kind : Import → Bool} {id next : FileId} :
    next ∈ schema.importTargets kind id ↔
      ∃ loaded statement, schema.files[id]? = some loaded ∧
        statement ∈ loaded.file.imports ∧ kind statement = true ∧
        statement.file = some next := by
  rw [importTargets]
  cases schema.files[id]? with
  | none => simp
  | some loaded => simp [and_assoc]

/-- The public imports of a file. -/
def publicTargets (schema : Schema) : FileId → List FileId :=
  schema.importTargets Import.isReexport

/-- The plain and the weak imports of a file. -/
def privateTargets (schema : Schema) : FileId → List FileId :=
  schema.importTargets fun statement => !statement.isReexport

theorem mem_publicTargets {schema : Schema} {id next : FileId} :
    next ∈ schema.publicTargets id ↔ schema.PublicImport id next := by
  simp only [publicTargets, mem_importTargets, PublicImport, Import.isReexport, beq_iff_eq]

theorem mem_privateTargets {schema : Schema} {id next : FileId} :
    next ∈ schema.privateTargets id ↔ schema.PrivateImport id next := by
  simp only [privateTargets, mem_importTargets, PrivateImport, Import.isReexport,
    Bool.not_eq_true', beq_eq_false_iff_ne]

/-! ## Extend blocks -/

/-- A file gathers its own extend blocks and those of a file behind one import of any
kind and then any number of public imports. -/
def Gathers (schema : Schema) (id source : FileId) : Prop :=
  source = id ∨ ∃ next, (schema.PublicImport id next ∨ schema.PrivateImport id next) ∧
    schema.Reaches next source

/-- An extend block is linked to a message with a full name. -/
def Extends (schema : Schema) (block : ExtensionId) (fullName : String) : Prop :=
  ∃ extension target message, schema.extension? block = some extension ∧
    extension.extendee = some target ∧ schema.message? target = some message ∧
    message.fullName = fullName

/-- A list holds the extend blocks of a file for a message, in the order of their
numbers. -/
structure ListsBlocks (schema : Schema) (fullName : String) (source : FileId)
    (blocks : List ExtensionId) : Prop where
  ascending : blocks.Pairwise fun earlier later => earlier.index < later.index
  mem_iff : ∀ block, block ∈ blocks ↔ block.file = source ∧ schema.Extends block fullName

theorem ListsBlocks.nodup {schema : Schema} {fullName : String} {source : FileId}
    {blocks : List ExtensionId} (lists : schema.ListsBlocks fullName source blocks) :
    blocks.Nodup := by
  refine lists.ascending.imp fun {earlier later} before equal => ?_
  rw [equal] at before
  exact Nat.lt_irrefl _ before

/-- The extend blocks that a file contributes to every search. -/
def contributed (schema : Schema) (fullName : String) (source : FileId) : List ExtensionId :=
  (schema.files[source]?.map fun loaded => loaded.localExtensions fullName).getD []

theorem visibleExtensions_eq_flatMap (schema : Schema) (id : FileId) (fullName : String) :
    schema.visibleExtensions id fullName =
      (schema.extensionSources id).flatMap (schema.contributed fullName) := by
  rw [visibleExtensions]
  refine List.flatMap_congr fun source _ => ?_
  rw [contributed]
  cases schema.files[source]? <;> rfl

namespace Settled

variable {Opened : SourceFile → Prop} {schema : Schema}

/-! ## Contributions -/

theorem extendedNames_pairwise (schema : Schema) (file : ProtoFile) :
    (Rules.extendedNames schema file).Pairwise fun earlier later =>
      earlier.2.index < later.2.index := by
  rw [Rules.extendedNames, List.pairwise_filterMap]
  have numbered : file.allExtensions.toList.zipIdx.Pairwise fun earlier later =>
      earlier.2 < later.2 := by
    have ascending := List.pairwise_lt_range' (s := 0) (n := file.allExtensions.toList.length) 1
    rw [← List.zipIdx_map_snd, List.pairwise_map] at ascending
    exact ascending
  refine numbered.imp ?_
  rintro ⟨earlier, first⟩ ⟨later, second⟩ before listed found other foundOther
  simp only [Option.bind_eq_bind, Option.bind_eq_some_iff] at found foundOther
  rcases found with ⟨_, -, _, -, equal⟩
  rcases foundOther with ⟨_, -, _, -, equalOther⟩
  cases equal
  cases equalOther
  exact before

theorem mem_extendedNames {file : ProtoFile} {fullName : String} {block : ExtensionId}
    (held : schema.file? file.id = some file) :
    (fullName, block) ∈ Rules.extendedNames schema file ↔
      block.file = file.id ∧ schema.Extends block fullName := by
  simp only [Rules.extendedNames, List.mem_filterMap, Prod.exists,
    List.mk_mem_zipIdx_iff_getElem?, Array.getElem?_toList, Option.bind_eq_bind,
    Option.bind_eq_some_iff]
  constructor
  · rintro ⟨extension, index, inFile, target, extendee, message, found, equal⟩
    cases equal
    refine ⟨rfl, extension, target, message, ?_, extendee, found, rfl⟩
    rw [extension?, held]
    exact inFile
  · rintro ⟨own, extension, target, message, inFile, extendee, found, rfl⟩
    rcases block with ⟨source, index⟩
    cases own
    rw [extension?, held] at inFile
    exact ⟨extension, index, inFile, target, extendee, message, found, rfl⟩

/-- What a file contributes are its extend blocks for the message, in order. -/
theorem listsBlocks_contributed (settled : schema.Settled Opened) (fullName : String)
    (source : FileId) :
    schema.ListsBlocks fullName source (schema.contributed fullName source) := by
  rw [contributed]
  cases present : schema.files[source]? with
  | none =>
      refine ⟨List.Pairwise.nil, fun block => ⟨fun member => absurd member List.not_mem_nil, ?_⟩⟩
      rintro ⟨rfl, extension, target, message, inFile, -⟩
      rw [extension?, file?, present] at inFile
      cases inFile
  | some loaded =>
      rcases settled.files present with ⟨file, -, own⟩
      have held : schema.file? loaded.file.id = some loaded.file := by
        rw [own.id_eq, file?, present, Option.map_some]
      rw [Option.map_some, Option.getD_some, LoadedFile.localExtensions, own.extended_eq]
      constructor
      · rw [List.pairwise_map]
        exact (extendedNames_pairwise schema loaded.file).filter _
      · intro block
        rw [← own.id_eq, ← mem_extendedNames held, List.mem_map]
        constructor
        · rintro ⟨⟨name, other⟩, member, rfl⟩
          rcases List.mem_filter.mp member with ⟨member, equal⟩
          rw [← beq_iff_eq.mp equal]
          exact member
        · intro member
          exact ⟨(fullName, block), List.mem_filter.mpr ⟨member, beq_self_eq_true fullName⟩, rfl⟩

/-! ## Sources -/

theorem reexportsOf_eq (settled : schema.Settled Opened) :
    schema.reexportsOf = schema.publicTargets := by
  funext id
  rw [reexportsOf, publicTargets, importTargets]
  cases present : schema.files[id]? with
  | none => rfl
  | some loaded =>
      rcases settled.files present with ⟨file, -, own⟩
      rw [Option.map_some, Option.map_some, own.reexports_eq]

/-- The sources of a file are the file itself and then the files behind its imports. -/
theorem extensionSources_eq (settled : schema.Settled Opened) {id : FileId}
    (loaded : id < schema.files.size) :
    ∃ others, schema.extensionSources id = id :: others ∧
      BreadthFirst schema.publicTargets [id]
        (schema.publicTargets id ++ schema.privateTargets id) others := by
  have present := Array.getElem?_eq_getElem loaded
  rcases settled.files present with ⟨file, -, own⟩
  have imports : schema.publicTargets id ++ schema.privateTargets id =
      schema.files[id].reexports ++ schema.files[id].privates := by
    simp only [publicTargets, privateTargets, importTargets, present, Option.map_some,
      Option.getD_some, own.reexports_eq, own.privates_eq]
  refine ⟨schema.reached [id] (schema.files[id].reexports ++ schema.files[id].privates), ?_, ?_⟩
  · rw [extensionSources, present]
  · rw [imports, ← settled.reexportsOf_eq]
    refine breadthFirst_reached settled.ordered [id] fun next member => ?_
    rcases List.mem_append.mp member with member | member
    · exact Nat.lt_trans (own.reexport_lt next member) loaded
    · exact Nat.lt_trans (own.private_lt next member) loaded

/-- The sources in breadth-first order are the files that a file gathers. -/
theorem gathers_iff {id source : FileId}
    {others : List FileId}
    (visits : BreadthFirst schema.publicTargets [id]
      (schema.publicTargets id ++ schema.privateTargets id) others) :
    source ∈ id :: others ↔ schema.Gathers id source := by
  have edge_iff : (fun source target => target ∈ schema.publicTargets source) =
      schema.PublicImport := by
    funext importer imported
    exact propext mem_publicTargets
  constructor
  · intro member
    rcases List.mem_cons.mp member with rfl | member
    · exact .inl rfl
    · rcases visits.exists_reaches member with ⟨next, start, reaches⟩
      rw [edge_iff] at reaches
      rw [List.mem_append, mem_publicTargets, mem_privateTargets] at start
      exact .inr ⟨next, start, reaches⟩
  · rcases visits.closed with ⟨covered, followed⟩
    rintro (rfl | ⟨next, start, reaches⟩)
    · exact List.mem_cons_self
    · have known : next ∈ [id] ++ others := by
        apply covered
        rw [List.mem_append, mem_publicTargets, mem_privateTargets]
        exact start
      induction reaches with
      | refl => exact known
      | tail _ edge induction =>
          have target := mem_publicTargets.mpr edge
          rcases List.mem_cons.mp induction with rfl | member
          · exact covered _ (List.mem_append_left _ target)
          · exact followed _ member _ target

/-- A file sees the extend blocks for a message in the files that it gathers. -/
theorem mem_visibleExtensions_iff (settled : schema.Settled Opened) {id : FileId}
    (loaded : id < schema.files.size) {fullName : String} {block : ExtensionId} :
    block ∈ schema.visibleExtensions id fullName ↔
      schema.Gathers id block.file ∧ schema.Extends block fullName := by
  rcases settled.extensionSources_eq loaded with ⟨others, sources, visits⟩
  rw [visibleExtensions_eq_flatMap, sources, List.mem_flatMap]
  constructor
  · rintro ⟨source, member, inSource⟩
    rcases ((settled.listsBlocks_contributed fullName source).mem_iff block).mp inSource with
      ⟨rfl, extended⟩
    exact ⟨(gathers_iff visits).mp member, extended⟩
  · rintro ⟨gathers, extended⟩
    exact ⟨block.file, (gathers_iff visits).mpr gathers,
      ((settled.listsBlocks_contributed fullName block.file).mem_iff block).mpr ⟨rfl, extended⟩⟩

end Settled

/-! ## Gathered extend blocks -/

/-- What every file of a schema sees of the extend blocks for a message: each block of
the files that it gathers once, first its own, then those of the others file by file in
breadth-first order. -/
structure GathersExtensions (schema : Schema) : Prop where
  nodup : ∀ id extendee, (schema.extensions id extendee).Nodup
  mem_iff : ∀ id < schema.files.size, ∀ extendee block,
    block ∈ schema.extensions id extendee ↔
      schema.Gathers id block.file ∧ schema.Extends block (qualify extendee)
  sources : ∀ id < schema.files.size, ∃ others,
    BreadthFirst schema.publicTargets [id]
        (schema.publicTargets id ++ schema.privateTargets id) others ∧
      (id :: others).Nodup ∧ (∀ source, source ∈ id :: others ↔ schema.Gathers id source) ∧
      ∀ extendee, ∃ blocks : FileId → List ExtensionId,
        (∀ source, schema.ListsBlocks (qualify extendee) source (blocks source)) ∧
          schema.extensions id extendee = (id :: others).flatMap blocks

theorem nodup_flatMap_of_listsBlocks {schema : Schema} {fullName : String}
    {sources : List FileId} (distinct : sources.Nodup) {blocks : FileId → List ExtensionId}
    (lists : ∀ source, schema.ListsBlocks fullName source (blocks source)) :
    (sources.flatMap blocks).Nodup := by
  rw [List.nodup_flatMap]
  refine ⟨fun source _ => (lists source).nodup, distinct.imp ?_⟩
  intro first second different block inFirst inSecond
  exact different ((((lists first).mem_iff block).mp inFirst).1.symm.trans
    (((lists second).mem_iff block).mp inSecond).1)

theorem Settled.gathersExtensions {Opened : SourceFile → Prop} {schema : Schema}
    (settled : schema.Settled Opened) : schema.GathersExtensions := by
  have sources : ∀ id < schema.files.size, ∃ others,
      BreadthFirst schema.publicTargets [id]
          (schema.publicTargets id ++ schema.privateTargets id) others ∧
        (id :: others).Nodup ∧ (∀ source, source ∈ id :: others ↔ schema.Gathers id source) ∧
        ∀ extendee, schema.extensions id extendee =
          (id :: others).flatMap (schema.contributed (qualify extendee)) := by
    intro id loaded
    rcases settled.extensionSources_eq loaded with ⟨others, equal, visits⟩
    rcases visits.nodup_and_fresh with ⟨nodup, fresh⟩
    refine ⟨others, visits, ?_, fun source => gathers_iff visits, fun extendee => ?_⟩
    · exact List.nodup_cons.mpr
        ⟨fun member => fresh id member (List.mem_singleton_self id), nodup⟩
    · rw [extensions, visibleExtensions_eq_flatMap, equal]
  have lists := settled.listsBlocks_contributed
  refine ⟨fun id extendee => ?_, fun id loaded extendee block => ?_, fun id loaded => ?_⟩
  · by_cases loaded : id < schema.files.size
    · rcases sources id loaded with ⟨others, -, distinct, -, equal⟩
      rw [equal]
      exact nodup_flatMap_of_listsBlocks distinct (lists _)
    · have absent : schema.files[id]? = none := by simpa using loaded
      rw [extensions, visibleExtensions, extensionSources, absent]
      exact List.nodup_nil
  · exact settled.mem_visibleExtensions_iff loaded
  · rcases sources id loaded with ⟨others, visits, distinct, gathered, equal⟩
    exact ⟨others, visits, distinct, gathered,
      fun extendee => ⟨schema.contributed (qualify extendee), lists _, equal extendee⟩⟩

end ProtoSchema.Schema
