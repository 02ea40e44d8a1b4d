import ProtoSchema.Proofs.Compiler.ExtensionNumbers
import ProtoSchema.Proofs.Compiler.References
import ProtoSchema.Proofs.Draft.Numbers
/-! # Ranges of extension fields

The numbers of an extend block fit the message that it extends, in whatever file that one
is. A message judges its own fields against its ranges when its file is added, and a block
judges its fields against the message when the file of the block is added; the bounds of
all numbers are those of the grammar.
-/

namespace ProtoSchema

/-! ## What the check says of one block -/

namespace Check

/-- A block passes if its message leaves all its numbers to extensions. -/
theorem rangeError?_eq_none_iff {schema : Schema} {extension : Extension} {target : MessageId}
    {message : Message} (extendee : extension.extendee = some target)
    (found : schema.message? target = some message) :
    rangeError? schema extension = none ↔
      ∀ field ∈ extension.fields, ∃ range ∈ message.extensionRanges,
        range.contains field.number := by
  have search : rangeError? schema extension = none ↔
      extension.fields.find? (fun field => !message.isExtensionNumber field.number) = none := by
    simp only [rangeError?, extendee, found, Option.bind_eq_bind, Option.bind_some]
    cases extension.fields.find? (fun field => !message.isExtensionNumber field.number) <;> simp
  rw [search]
  simp [Message.isExtensionNumber]

theorem rangeError?_congr {left right : Schema} {extension : Extension}
    (sameMessage : ∀ target, extension.extendee = some target →
      left.message? target = right.message? target) :
    rangeError? left extension = rangeError? right extension := by
  rw [rangeError?, rangeError?]
  cases extendee : extension.extendee with
  | none => rfl
  | some target => rw [Option.bind_some, Option.bind_some, sameMessage target extendee]

end Check

namespace Schema

/-! ## Checked schemas -/

/-- Every extend block of a settled schema passes the check of its ranges. -/
structure RangesChecked (schema : Schema) : Prop where
  settled : schema.Settled fun _ => True
  checked : ∀ {block : ExtensionId} {extension : Extension},
    schema.extension? block = some extension → Check.rangeError? schema extension = none

theorem rangeError?_of_validated {schema : Schema} {id : FileId}
    (validated : Validator.extensionRanges schema id = .ok ()) {block : ExtensionId}
    {extension : Extension} (inFile : block.file = id)
    (held : schema.extension? block = some extension) :
    Check.rangeError? schema extension = none := by
  rcases mem_of_extension? held with ⟨loaded, present, member⟩
  rw [inFile] at present
  have none := (Validator.ofSearch_eq_ok_iff present).mp validated
  exact List.findSome?_eq_none_iff.mp none extension (Array.mem_toList_iff.mpr member)

/-- The check of a block stays the same when another file is added. -/
theorem Settled.rangeError?_push {Opened : SourceFile → Prop} {schema : Schema}
    (settled : schema.Settled Opened) (next : LoadedFile) {block : ExtensionId}
    {extension : Extension} (held : schema.extension? block = some extension) :
    Check.rangeError? (schema.push next) extension = Check.rangeError? schema extension := by
  apply Check.rangeError?_congr
  intro target extendee
  rcases mem_of_extension? held with ⟨loaded, present, member⟩
  rcases settled.files present with ⟨file, -, own⟩
  have earlier := Nat.lt_of_le_of_lt (settled.extendee_le own member extendee)
    (lt_size_of_getElem? present)
  exact message?_push_of_lt schema next earlier

theorem RangesChecked.preserved {rules : Rules}
    (validates : Validator.extensionRanges ∈ rules.validators) :
    rules.Preserve RangesChecked where
  added := by
    intro schema next file isRoot ranges added
    rcases Rules.add_eq_ok_iff.mp added with ⟨loaded, link, validated, rfl⟩
    have linked := Rules.link_eq_ok link
    refine ⟨ranges.settled.add trivial linked.complete, ?_⟩
    intro block extension held
    by_cases earlier : block.file < schema.files.size
    · rw [extension?_push_of_lt schema _ earlier] at held
      rw [ranges.settled.rangeError?_push _ held]
      exact ranges.checked held
    · have bound := lt_size_of_extension? held
      rw [size_push] at bound
      have last : block.file = schema.files.size := Nat.eq_of_lt_succ_of_not_lt bound earlier
      -- The validator has judged the file when it was not complete yet.
      have sameFiles := @file?_push_congr schema { loaded with isComplete := true } loaded rfl
      have same : Check.rangeError? (schema.push { loaded with isComplete := true }) extension =
          Check.rangeError? (schema.push loaded) extension := by
        apply Check.rangeError?_congr
        intro target _
        rw [message?, message?, sameFiles]
      rw [extension?, sameFiles] at held
      rw [same]
      exact rangeError?_of_validated (validated _ validates) last held
  marked := by
    intro schema root ranges
    refine ⟨ranges.settled.markRoot root, ?_⟩
    intro block extension held
    have kept : Check.rangeError? (schema.markRoot root) extension =
        Check.rangeError? schema extension := by
      apply Check.rangeError?_congr
      intro target _
      rw [message?, message?, file?_markRoot]
    rw [extension?, file?_markRoot] at held
    rw [kept]
    exact ranges.checked held
  forgotten := by
    intro schema name ranges
    exact ⟨ranges.settled.forget name, ranges.checked⟩

theorem RangesChecked.empty : ({} : Schema).RangesChecked where
  settled := .empty
  checked held := by
    have impossible := lt_size_of_extension? held
    exact absurd impossible (Nat.not_lt_zero _)

theorem rangesChecked_run (resolver : Resolver) (operations : List Operation) :
    (Session.run resolver operations).compiler.schema.RangesChecked :=
  Session.run_preserves (by simp) (fun _ => RangesChecked.preserved) .empty resolver operations

/-! ## Numbers that fit -/

/-- The numbers of an extend block fit a message: each lies in a range that the message
leaves to extensions, within the bounds of field numbers, and no field of the message has
it. -/
structure Fits (extension : Extension) (message : Message) : Prop where
  inRange : ∀ field ∈ extension.fields, ∃ range ∈ message.extensionRanges,
    range.contains field.number
  bounded : ∀ field ∈ extension.fields, 1 ≤ field.number ∧ field.number ≤ 536870911
  unused : ∀ field ∈ extension.fields, ∀ other ∈ message.fields, other.number ≠ field.number

/-- Field numbers of extend blocks are within the bounds of the grammar. -/
theorem Settled.extension_bounded {Opened : SourceFile → Prop} {schema : Schema}
    (settled : schema.Settled Opened) {block : ExtensionId} {extension : Extension}
    (held : schema.extension? block = some extension) :
    ∀ field ∈ extension.fields, 1 ≤ field.number ∧ field.number ≤ 536870911 := by
  intro field inBlock
  rcases mem_of_extension? held with ⟨loaded, present, member⟩
  rcases settled.files present with ⟨file, -, own⟩
  rw [own.file_eq] at member
  rcases Array.mem_map.mp member with ⟨draft, inDraft, rfl⟩
  rcases List.mem_map.mp inBlock with ⟨drawn, inDrawn, rfl⟩
  have bounds : 1 ≤ drawn.number ∧ drawn.number ≤ 536870911 :=
    Draft.bounded_of_mem_allExtensions file.parsed block.file inDraft inDrawn
  exact bounds

/-- In every session every extend block extends a message, and its numbers fit this
message. -/
theorem extensionsFit_run (resolver : Resolver) (operations : List Operation) :
    let schema := (Session.run resolver operations).compiler.schema
    ∀ block extension, schema.extension? block = some extension →
      ∃ target message, extension.extendee = some target ∧
        schema.message? target = some message ∧ Fits extension message := by
  intro schema block extension held
  have ranges := rangesChecked_run resolver operations
  have numbers := (numbersChecked_run resolver operations).numbersApart
  rcases mem_of_extension? held with ⟨loaded, present, member⟩
  rcases ranges.settled.files present with ⟨file, -, own⟩
  rcases Array.getElem?_of_mem member with ⟨index, atIndex⟩
  rcases ranges.settled.extensions_linked own atIndex with
    ⟨prefixes, -, ⟨target, extendee, refers⟩, -⟩
  rcases refers.found with ⟨fullName, -, -, named⟩
  rcases Option.map_eq_some_iff.mp named with ⟨message, found, -⟩
  refine ⟨target, message, extendee, found, ?_⟩
  exact
    { inRange := (Check.rangeError?_eq_none_iff extendee found).mp (ranges.checked held)
      bounded := ranges.settled.extension_bounded held
      unused := by
        intro field inBlock other inMessage equal
        have none := numbers.unused held extendee found inBlock
        exact List.find?_eq_none.mp none other inMessage (beq_iff_eq.mpr equal) }

/-- A block extends a message of an imported file. -/
theorem extensionsFit_run_imported :
    let imported := Resolver.ofMemory
      { sources := [
        ("a.proto", "message A \x7b oneof o \x7b int32 x = 1; \x7d extensions 100 to max; \x7d"),
        ("b.proto", "import \"a.proto\"; extend A \x7b optional int32 y = 536870911; \x7d")] }
    let schema := (Session.run imported [.openFile ⟨"b.proto"⟩]).compiler.schema
    ∃ extension message, schema.extension? ⟨1, 0⟩ = some extension ∧
      schema.message? ⟨0, 0⟩ = some message ∧
      extension.fields.map Field.number = [536870911] ∧
      message.fields.map Field.number = [1] ∧ Fits extension message := by
  intro imported schema
  have computed : (schema.extension? ⟨1, 0⟩).map (fun extension : Extension =>
        (extension.extendee, extension.fields.map Field.number)) =
        some (some ⟨0, 0⟩, [536870911]) ∧
      (schema.message? ⟨0, 0⟩).map (fun message : Message => message.fields.map Field.number) =
        some [1] :=
    @Compiler.openFile_of_computed
      (fun result => (result.2.schema.extension? ⟨1, 0⟩).map (fun extension : Extension =>
          (extension.extendee, extension.fields.map Field.number)) =
          some (some ⟨0, 0⟩, [536870911]) ∧
        (result.2.schema.message? ⟨0, 0⟩).map (fun message : Message =>
          message.fields.map Field.number) = some [1])
      _ 2 { resolver := imported } ⟨"b.proto"⟩ (by decide +kernel)
  rcases computed with ⟨block, extended⟩
  rcases Option.map_eq_some_iff.mp block with ⟨extension, held, facts⟩
  rcases Option.map_eq_some_iff.mp extended with ⟨message, found, fields⟩
  rcases Prod.mk.inj facts with ⟨extendee, numbers⟩
  rcases extensionsFit_run imported [.openFile ⟨"b.proto"⟩] ⟨1, 0⟩ extension held with
    ⟨target, own, linked, isOwn, fits⟩
  cases extendee.symm.trans linked
  cases found.symm.trans isOwn
  exact ⟨extension, message, held, found, numbers, fields, fits⟩

end Schema

end ProtoSchema
