import ProtoSchema.Proofs.Draft.Numbers
/-! # Ranges of drafts

A range of a model contains the number that is written at its start, unless it is inverted.
In messages no range is. In enums `max` stands for the greatest number of a field, which a range
may start beyond.
-/

namespace ProtoSchema

/-! ## Ranges that contain their start -/

/-- A range contains the number that is written at its start. -/
structure TagRange.StartsWithin (range : TagRange) (written : Syntax.NumberRange) : Prop where
  ordered : range.min ≤ range.max
  contains : range.contains written.start.value = true

namespace Syntax

/-- A range goes up to `max`, and starts with a number that no field can have. -/
def NumberRange.StartsBeyondMax (range : NumberRange) : Prop :=
  536870911 < range.start.value ∧ ∃ span, range.stop = .max span

/-- The ranges of a valid message have numbers of fields as bounds. -/
theorem Message.Valid.ranges {version : Version} {message : Message}
    (valid : message.Valid version) :
    (∀ range ∈ message.extensions.flatMap ExtensionRanges.ranges,
        range.Valid IntLiteral.IsFieldNumber) ∧
      ∀ range ∈ message.reserved.flatMap Reserved.numbers,
        range.Valid IntLiteral.IsFieldNumber := by
  rcases valid with ⟨-, extensions, reserved⟩
  constructor <;> intro range member
  · rcases List.mem_flatMap.mp member with ⟨statement, inMessage, inStatement⟩
    exact extensions statement inMessage range inStatement
  · rcases List.mem_flatMap.mp member with ⟨statement, inMessage, inStatement⟩
    exact (reserved statement inMessage).numbers range inStatement

theorem NumberRange.Valid.not_startsBeyondMax {range : NumberRange}
    (valid : range.Valid IntLiteral.IsFieldNumber) : ¬range.StartsBeyondMax := fun beyond =>
  absurd beyond.1 (Int.not_lt.mpr valid.start.2)

end Syntax

namespace Draft

/-- A range of a model is inverted only if it is written from beyond the greatest number of
a field to `max`. -/
structure Oriented (written : Syntax.NumberRange) (own : TagRange) : Prop where
  startsWithin : ¬written.StartsBeyondMax → own.StartsWithin written
  inverted : written.StartsBeyondMax → own.max < own.min

theorem oriented {Bound : Syntax.IntLiteral → Prop} {written : Syntax.NumberRange}
    {own : TagRange} (kept : RangeKept written own) (valid : written.Valid Bound) :
    Oriented written own := by
  have within {range : TagRange} (ordered : range.min ≤ range.max) :
      range.contains range.min = true := TagRange.contains_iff.mpr ⟨le_rfl, ordered⟩
  cases kept with
  | single start =>
      exact ⟨fun _ => ⟨le_rfl, within le_rfl⟩, fun ⟨_, _, stops⟩ => nomatch stops⟩
  | int start stop =>
      have ordered := (valid.stop stop rfl).2
      exact ⟨fun _ => ⟨ordered, within ordered⟩, fun ⟨_, _, stops⟩ => nomatch stops⟩
  | max start span =>
      refine ⟨fun inside => ?_, fun beyond => beyond.1⟩
      have ordered : start.value ≤ maxTag :=
        Int.not_lt.mp fun beyond => inside ⟨beyond, span, rfl⟩
      exact ⟨ordered, within ordered⟩

/-- Ranges with the bounds of field numbers contain their starts. -/
theorem forall₂_startsWithin {written : List Syntax.NumberRange} {own : List TagRange}
    (kept : List.Forall₂ RangeKept written own)
    (valid : ∀ range ∈ written, range.Valid Syntax.IntLiteral.IsFieldNumber) :
    List.Forall₂ (fun written own => own.StartsWithin written) written own :=
  forall₂_of_mem valid kept fun _ _ kept valid =>
    (oriented kept valid).startsWithin valid.not_startsBeyondMax

/-! ## Whole files -/

/-- The ranges of a model contain the numbers that are written at their starts: in messages all
of them, in enums those that do not start beyond `max`. -/
structure RangesOriented (tree : Syntax.File) (file : ProtoFile) : Prop where
  messages : List.Forall₂ (fun declared own =>
      List.Forall₂ (fun written range => range.StartsWithin written)
          (declared.extensions.flatMap Syntax.ExtensionRanges.ranges) own.extensionRanges ∧
        List.Forall₂ (fun written range => range.StartsWithin written)
          (declared.reserved.flatMap Syntax.Reserved.numbers) own.reservedRanges)
    tree.messages file.allMessages.toList
  enums : List.Forall₂ (fun declared own =>
      List.Forall₂ Oriented (declared.reserved.flatMap Syntax.Reserved.numbers)
        own.reservedRanges)
    tree.enums file.allEnums.toList

/-- In the model of an accepted source a range is inverted if and only if it belongs to an
enum and is written from beyond the greatest number of a field to `max`. -/
theorem rangesOriented_ofTree {name source : String} {tree : Syntax.File}
    (parsed : Syntax.parse name source = .ok tree) (id : FileId) :
    RangesOriented tree (ofTree id name source tree).file := by
  have kept := numbersKept parsed id
  have valid := Syntax.valid_of_parse parsed
  constructor
  · refine forall₂_of_mem (Syntax.File.forall_mem_messages valid) kept.messages ?_
    intro declared own same valid
    exact ⟨forall₂_startsWithin same.extensionRanges valid.ranges.1,
      forall₂_startsWithin same.reservedRanges valid.ranges.2⟩
  · refine forall₂_of_mem (Syntax.File.forall_mem_enums valid) kept.enums ?_
    intro declared own same valid
    have bounds : ∀ range ∈ declared.reserved.flatMap Syntax.Reserved.numbers,
        range.Valid Syntax.IntLiteral.IsEnumNumber := by
      intro range member
      rcases List.mem_flatMap.mp member with ⟨statement, inEnum, inStatement⟩
      exact (valid.reserved statement inEnum).numbers range inStatement
    exact forall₂_of_mem bounds same.reservedRanges fun _ _ => oriented

theorem rangesOriented_ofTree_extensions :
    let source := "message M \x7b extensions 100 to max; \x7d " ++
      "enum E \x7b A = 0; reserved -5 to max; \x7d"
    ∃ tree, Syntax.parse "m.proto" source = .ok tree ∧
      RangesOriented tree (ofTree 0 "m.proto" source tree).file := by
  intro source
  have accepted : (Syntax.parse "m.proto" source).isOk = true := by decide +kernel
  cases parsed : Syntax.parse "m.proto" source with
  | error => simp [parsed, Except.isOk, Except.toBool] at accepted
  | ok tree => exact ⟨tree, rfl, rangesOriented_ofTree parsed 0⟩

/-- An enum reserves the numbers from 600000000 on, and its model has a range without any
numbers. -/
theorem exists_inverted_enum_range :
    ∃ tree, Syntax.parse "e.proto" "enum E \x7b A = 0; reserved 600000000 to max; \x7d" =
        .ok tree ∧
      ∃ enum ∈ (ofTree 0 "e.proto" "enum E \x7b A = 0; reserved 600000000 to max; \x7d"
          tree).file.allEnums,
        ∃ range ∈ enum.reservedRanges, ¬range.min ≤ range.max ∧
          range.contains 600000000 = false := by
  refine ⟨_, by cbv, _, Array.mem_of_getElem? (i := 0) rfl, ⟨600000000, 536870911⟩, ?_, ?_, ?_⟩
  · decide +kernel
  · decide
  · decide

end Draft

end ProtoSchema
