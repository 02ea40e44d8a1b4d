import ProtoSchema.Syntax.Error
/-!
## Ranges of numbers

Ranges of field numbers or of enum values, both ends included.
-/

namespace ProtoSchema

/-- The greatest number that `max` can stand for. -/
def maxTag : Int := Syntax.maxFieldNumber

structure TagRange where
  min : Int
  max : Int
  deriving DecidableEq, Repr

namespace TagRange

/-- Whether a number lies in the range. -/
def contains (range : TagRange) (number : Int) : Bool :=
  range.min ≤ number && number ≤ range.max

/-- The range as a message shows it. -/
def text (range : TagRange) : String :=
  if range.min = range.max then toString range.min
  else if range.max = maxTag then s!"{range.min} to max"
  else s!"{range.min} to {range.max}"

theorem contains_iff {range : TagRange} {number : Int} :
    range.contains number ↔ range.min ≤ number ∧ number ≤ range.max := by
  simp [contains]

end TagRange

end ProtoSchema
