import ProtoSchema.Syntax.Parser.Value
/-!
## Fields

Fields of messages, oneofs and extend blocks share one form. What a host does not
allow is a fault but no failure, except for groups.
-/

namespace ProtoSchema.Syntax.Parser

/-- The label of a field, if it has one. -/
def fieldLabel : Parser (Option (FieldLabel × Span)) := do
  match ← look with
  | some (.ident "optional", span) => advance; return some (.optional, span)
  | some (.ident "required", span) => advance; return some (.required, span)
  | some (.ident "repeated", span) => advance; return some (.repeated, span)
  | some (.ident _, _) => return none
  | some (.mark .dot, _) => return none
  | _ => unexpected .field

/-- The fault of a label, by the host of the field (`none` for a message) and the
version of the file. -/
def labelError? (version : Version) (host : Option FieldHost) (label : FieldLabel)
    (span : Span) : Option SyntaxError :=
  match host, label with
  | some .oneof, _ => some (.labelledOneofField span)
  | some .extend, .required => some (.requiredExtensionField span)
  | _, .required => if version = .proto3 then some (.requiredFieldInProto3 span) else none
  | _, _ => none

/-- A map type whose first word began at `start`. -/
def mapType (start : Nat) : Parser FieldType := do
  let _ ← mark .leftAngle
  let key ← typeName [.mark .comma]
  let _ ← mark .comma
  let value ← typeName [.mark .rightAngle]
  let _ ← mark .rightAngle
  return .map key value (← spanFrom start)

/-- The type of a field. The word `map` names a type of its own unless an angle
bracket follows it. -/
def fieldType (host : Option FieldHost) (label : Option (FieldLabel × Span)) :
    Parser FieldType := do
  match ← look with
  | some (.ident "group", span) => report (.groupNotSupported span); fail
  | some (.ident "map", span) =>
      advance
      match ← look with
      | some (.mark .leftAngle, _) =>
          let type ← mapType span.start
          if let some (_, labelSpan) := label then report (.labelledMapField labelSpan)
          if let some host := host then
            report (.misplacedMapField host (← spanFrom span.start))
          return type
      | _ => return .named ⟨none, ← dottedNameFrom ⟨"map", span⟩ [.anyIdent]⟩
  | _ => return .named (← typeName [.anyIdent])

/-- The options of a field and the semicolon after it. -/
def fieldOptions : Parser (List OptionEntry) := do
  match ← look with
  | some (.mark .leftBracket, _) =>
      let options ← optionList
      let _ ← mark .semicolon
      return options
  | some (.mark .semicolon, _) => advance; return []
  | _ => unexpected .fieldEnd

/-- A field of a host; `none` stands for a message. The first token of the type is
looked at before the label is judged, so that its lexical faults come first. -/
def field (version : Version) (host : Option FieldHost) : Parser Field := do
  let comments ← comments
  let label ← fieldLabel
  let typeStart ← nextStart
  let start := (label.map (·.2.start)).getD typeStart
  if let some (label, span) := label then
    if let some error := labelError? version host label span then report error
  let type ← fieldType host label
  let name ← ident
  let _ ← mark .equals
  let number ← fieldNumber
  let options ← fieldOptions
  return { label, type, name, number, options, comments, span := ← spanFrom start }

end ProtoSchema.Syntax.Parser
