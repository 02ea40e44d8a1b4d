import ProtoSchema.Proofs.Compiler.Gathering
import ProtoSchema.Proofs.Compiler.Nesting
import ProtoSchema.Proofs.Draft.Depth
/-! # Extend blocks of a message

All extend blocks of a message are found in the lists of the files under the full name of the
message, together with those of other messages that share the name. Those for the message
remain, in the order in which the files were loaded.
-/

namespace ProtoSchema.Schema

/-- A list has every extend block for a message that stands in a file of a schema, at any
depth, once each: file by file, and in a file by their numbers. -/
structure ListsExtensions (schema : Schema) (target : MessageId) (blocks : List ExtensionId) :
    Prop where
  ascending : blocks.Pairwise fun earlier later =>
    earlier.file < later.file ∨ earlier.file = later.file ∧ earlier.index < later.index
  mem_iff : ∀ block, block ∈ blocks ↔
    ∃ (id : FileId) (loaded : LoadedFile) (extension : Extension),
      schema.files[id]? = some loaded ∧ loaded.file.Contains (.extension block) ∧
        schema.extension? block = some extension ∧ extension.extendee = some target

namespace Settled

variable {Opened : SourceFile → Prop} {schema : Schema} (settled : schema.Settled Opened)
include settled

/-- The message that a block extends is loaded. -/
theorem exists_message_of_extendee {block : ExtensionId} {extension : Extension}
    (held : schema.extension? block = some extension) {target : MessageId}
    (extendee : extension.extendee = some target) :
    ∃ message, schema.message? target = some message := by
  rcases mem_of_extension? held with ⟨loaded, present, member⟩
  rcases settled.files present with ⟨file, -, own⟩
  rcases own.exists_of_extendee member extendee with ⟨fullName, found⟩
  have named := (settled.sees_of_visible? found).2
  rcases Option.map_eq_some_iff.mp named with ⟨message, found, -⟩
  exact ⟨message, found⟩

theorem contains_of_extension? {block : ExtensionId} {extension : Extension}
    (held : schema.extension? block = some extension) :
    ∃ loaded, schema.files[block.file]? = some loaded ∧
      loaded.file.Contains (.extension block) := by
  rcases mem_of_extension? held with ⟨loaded, present, -⟩
  rcases settled.files present with ⟨file, -, own⟩
  refine ⟨loaded, present, own.followsNesting.nests.contains_extension_iff.mpr ⟨own.id_eq.symm, ?_⟩⟩
  rw [extension?_of_getElem? present] at held
  exact (Array.getElem?_eq_some_iff.mp held).1

/-- The lists of all files under a full name have the blocks for messages of the name. -/
theorem mem_flatMap_localExtensions_iff {fullName : String} {block : ExtensionId} :
    block ∈ schema.files.toList.flatMap (·.localExtensions fullName) ↔
      schema.Extends block fullName := by
  have contributed_of_present : ∀ {id : FileId} {loaded : LoadedFile},
      schema.files[id]? = some loaded →
        schema.contributed fullName id = loaded.localExtensions fullName := by
    intro id loaded present
    rw [contributed, present, Option.map_some, Option.getD_some]
  rw [List.mem_flatMap]
  constructor
  · rintro ⟨loaded, member, listed⟩
    rcases Array.getElem?_of_mem (Array.mem_toList_iff.mp member) with ⟨id, present⟩
    rw [← contributed_of_present present] at listed
    exact (((settled.listsBlocks_contributed fullName id).mem_iff block).mp listed).2
  · intro extended
    have listed := ((settled.listsBlocks_contributed fullName block.file).mem_iff block).mpr
      ⟨rfl, extended⟩
    rcases extended with ⟨extension, _, _, held, -⟩
    rcases mem_of_extension? held with ⟨loaded, present, -⟩
    rw [contributed_of_present present] at listed
    exact ⟨loaded, Array.mem_toList_iff.mpr (Array.mem_of_getElem? present), listed⟩

/-- The lists of the files follow each other in the order of the files, and each has its blocks
in order. -/
theorem pairwise_flatMap_localExtensions (fullName : String) :
    (schema.files.toList.flatMap (·.localExtensions fullName)).Pairwise fun earlier later =>
      earlier.file < later.file ∨ earlier.file = later.file ∧ earlier.index < later.index := by
  rw [List.pairwise_flatMap]
  constructor
  · intro loaded member
    rcases Array.getElem?_of_mem (Array.mem_toList_iff.mp member) with ⟨id, present⟩
    have lists := settled.listsBlocks_contributed fullName id
    rw [contributed, present, Option.map_some, Option.getD_some] at lists
    refine lists.ascending.imp_of_mem fun {earlier later} inList alsoInList before => ?_
    have sameFile := ((lists.mem_iff earlier).mp inList).1.trans
      ((lists.mem_iff later).mp alsoInList).1.symm
    exact .inr ⟨sameFile, before⟩
  · rw [List.pairwise_iff_getElem]
    intro first second firstBound secondBound before earlier inFirst later inSecond
    have own : ∀ (id : FileId) (bound : id < schema.files.toList.length) block,
        block ∈ schema.files.toList[id].localExtensions fullName → block.file = id := by
      intro id bound block listed
      have present : schema.files[id]? = some schema.files.toList[id] := by
        rw [← Array.getElem?_toList, List.getElem?_eq_getElem bound]
      rcases settled.files present with ⟨file, -, own⟩
      exact own.file_of_mem_localExtensions listed
    rw [own first firstBound earlier inFirst, own second secondBound later inSecond]
    exact .inl before

theorem listsExtensions (target : MessageId) :
    schema.ListsExtensions target (schema.messageExtensions target) := by
  rw [messageExtensions]
  cases loadedMessage : schema.message? target with
  | none =>
      refine ⟨List.Pairwise.nil, fun block => ⟨fun member => absurd member List.not_mem_nil, ?_⟩⟩
      rintro ⟨-, -, extension, -, -, held, extendee⟩
      rcases settled.exists_message_of_extendee held extendee with ⟨message, found⟩
      cases loadedMessage.symm.trans found
  | some message =>
      refine ⟨(settled.pairwise_flatMap_localExtensions _).filter _, fun block => ?_⟩
      rw [List.mem_filter, settled.mem_flatMap_localExtensions_iff, beq_iff_eq,
        Option.bind_eq_some_iff]
      constructor
      · rintro ⟨-, extension, held, extendee⟩
        rcases settled.contains_of_extension? held with ⟨loaded, present, contained⟩
        exact ⟨block.file, loaded, extension, present, contained, held, extendee⟩
      · rintro ⟨-, -, extension, -, -, held, extendee⟩
        exact ⟨⟨extension, target, message, held, extendee, loadedMessage, rfl⟩, extension, held,
          extendee⟩

end Settled

/-- In every session the extend blocks of a message are found in all files. -/
theorem listsExtensions_run (resolver : Resolver) (operations : List Operation)
    (target : MessageId) :
    let schema := (Session.run resolver operations).compiler.schema
    schema.ListsExtensions target (schema.messageExtensions target) :=
  (settled_run resolver operations).listsExtensions target

end ProtoSchema.Schema
