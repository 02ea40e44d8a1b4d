/-!
## Spans

A span is a half-open range of byte offsets into the UTF-8 form of a source
text. Every token, tree node and diagnostic carries one.
-/

namespace ProtoSchema

/-- The bytes from `start` up to, and without, `stop`. -/
structure Span where
  start : Nat
  stop : Nat
  deriving DecidableEq, Repr, Inhabited

namespace Span

/-- The number of bytes covered. -/
def length (span : Span) : Nat :=
  span.stop - span.start

/-- The span from the beginning of `first` to the end of `last`. -/
def through (first last : Span) : Span :=
  ⟨first.start, last.stop⟩

@[simp] theorem through_start (first last : Span) :
    (first.through last).start = first.start := rfl

@[simp] theorem through_stop (first last : Span) :
    (first.through last).stop = last.stop := rfl

end Span

end ProtoSchema
