import ProtoSchema.Text.Position
/-!
## Diagnostics

A diagnostic is what a viewer shows of an error: a message, an advice, labelled
spans of the source, and the notices that belong with it.
-/

namespace ProtoSchema

/-- A span of the source with a remark. -/
structure Label where
  span : Span
  text : String
  deriving DecidableEq, Repr

/-- A message with an advice and labels. -/
structure Notice where
  message : String
  help : Option String := none
  labels : List Label := []
  deriving DecidableEq, Repr

/-- A notice together with further ones on the same source. -/
structure Diagnostic where
  main : Notice
  related : List Notice := []
  deriving DecidableEq, Repr

/-- The place of a span in front of a message, `line:column:`, empty if the source
does not contain the span. -/
def positionText (source : List UInt8) (span : Span) : String :=
  match Text.position? source span with
  | some position => s!"{position.line}:{position.column}:"
  | none => ""

end ProtoSchema
