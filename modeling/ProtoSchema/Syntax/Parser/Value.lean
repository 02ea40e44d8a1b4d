import ProtoSchema.Syntax.Parser.Basic
import ProtoSchema.Syntax.Tree
/-!
## Names, numbers and options

The parts that declarations are made of. A dotted name ends only before one of
the tokens that the surrounding construct allows there.
-/

namespace ProtoSchema.Syntax.Parser

/-! ### Names -/

def ident : Parser Ident := do
  match ← look with
  | some (.ident name, span) => advance; return ⟨name, span⟩
  | _ => unexpected .identifier

/-- The rest of a dotted name after its first identifier. -/
def dottedNameFrom (first : Ident) (followers : List Follower) : Parser DottedName := do
  let rest ← collect do
    match ← look with
    | some (.mark .dot, _) => advance; return some (← ident)
    | some (token, _) =>
        if followers.any (·.allows token) then return none
        else unexpected (.nameEnd followers)
    | none => unexpected (.nameEnd followers)
  return ⟨first, rest⟩

def dottedName (followers : List Follower) : Parser DottedName := do
  dottedNameFrom (← ident) followers

def typeName (followers : List Follower) : Parser TypeName := do
  match ← look with
  | some (.mark .dot, span) => advance; return ⟨some span, ← dottedName followers⟩
  | some (.ident _, _) => return ⟨none, ← dottedName followers⟩
  | _ => unexpected .typeName

/-! ### Literals -/

/-- A string literal and its span. -/
def stringLiteral : Parser (String × Span) := do
  match ← look with
  | some (.string value, span) => advance; return (value, span)
  | _ => unexpected .stringLiteral

def positiveInt : Parser IntLiteral := do
  match ← look with
  | some (.int value, span) => advance; return ⟨false, value, span⟩
  | _ => unexpected .positiveInteger

/-- An integer with an optional minus sign. -/
def signedInt : Parser IntLiteral := do
  match ← look with
  | some (.mark .minus, sign) =>
      advance
      let literal ← positiveInt
      return { literal with negative := true, span := sign.through literal.span }
  | _ => positiveInt

/-- Whether a literal is the number of a field. -/
def isFieldNumber (literal : IntLiteral) : Bool :=
  1 ≤ literal.value && literal.value ≤ maxFieldNumber

/-- Whether a literal is the number of an enum value. -/
def isEnumNumber (literal : IntLiteral) : Bool :=
  -2147483648 ≤ literal.value && literal.value ≤ 2147483647

def fieldNumber : Parser IntLiteral := do
  let literal ← positiveInt
  check (isFieldNumber literal) (.invalidFieldNumber literal.span)
  return literal

def enumNumber : Parser IntLiteral := do
  let literal ← signedInt
  check (isEnumNumber literal) (.invalidEnumNumber literal.span)
  return literal

/-! ### Ranges -/

/-- A range of numbers, each read by `number`. -/
def numberRange (number : Parser IntLiteral) : Parser NumberRange := do
  let start ← number
  match ← look with
  | some (.ident "to", _) =>
      advance
      match ← look with
      | some (.ident "max", span) => advance; return ⟨start, .max span⟩
      | _ =>
          let stop ← number
          check (start.value ≤ stop.value) (.invalidRange (start.span.through stop.span))
          return ⟨start, .int stop⟩
  | _ => return ⟨start, .single⟩

def numberRanges (number : Parser IntLiteral) : Parser (List NumberRange) := do
  let first ← numberRange number
  let more ← collect do
    match ← look with
    | some (.mark .comma, _) => advance; return some (← numberRange number)
    | _ => return none
  return first :: more

/-! ### Constants -/

/-- A number after an optional sign that began at `start`. -/
def numberConstant (negative : Bool) (start : Nat) : Parser Constant := do
  let sign (value : Binary64) : Binary64 := if negative then value.neg else value
  match ← look with
  | some (.int value, _) => advance; return .int ⟨negative, value, ← spanFrom start⟩
  | some (.float value, _) => advance; return .float (sign value) (← spanFrom start)
  | some (.ident "inf", _) => advance; return .float (sign .infinity) (← spanFrom start)
  | some (.ident "nan", _) => advance; return .float (sign .nan) (← spanFrom start)
  | _ => unexpected .number

/-- The value of an option. String literals that follow each other make one value. -/
def constant (followers : List Follower) : Parser Constant := do
  match ← look with
  | some (.ident _, _) => return .ident (← dottedName followers)
  | some (.mark .plus, span) => advance; numberConstant false span.start
  | some (.mark .minus, span) => advance; numberConstant true span.start
  | some (.int _, span) => numberConstant false span.start
  | some (.float _, span) => numberConstant false span.start
  | some (.string value, span) =>
      advance
      let more ← collect do
        match ← look with
        | some (.string value, _) => advance; return some value
        | _ => return none
      return .string (String.join (value :: more)) (← spanFrom span.start)
  | _ => unexpected .constant

/-! ### Options -/

/-- One part of an option's name: an identifier, or the name of an extension in
parentheses. -/
def optionNamePart : Parser String := do
  match ← look with
  | some (.mark .leftParen, _) =>
      advance
      let dot ← match ← look with
        | some (.mark .dot, _) => advance; pure "."
        | _ => pure ""
      let name ← dottedName [.mark .rightParen]
      let _ ← mark .rightParen
      return "(" ++ dot ++ name.text ++ ")"
  | some (.ident name, _) => advance; return name
  | _ => unexpected .optionNamePart

/-- The name of an option with the equals sign after it. -/
def optionName (start : Nat) : Parser (String × Span) := do
  let first ← optionNamePart
  let more ← collect do
    match ← look with
    | some (.mark .dot, _) => advance; return some (← optionNamePart)
    | some (.mark .equals, _) => return none
    | _ => unexpected .optionNameEnd
  let span ← spanFrom start
  advance
  return (".".intercalate (first :: more), span)

def optionEntry (followers : List Follower) : Parser OptionEntry := do
  let start ← nextStart
  let (name, nameSpan) ← optionName start
  let value ← constant followers
  return ⟨name, nameSpan, value, ← spanFrom start⟩

def optionStatement : Parser OptionEntry := do
  let start ← word "option"
  let entry ← optionEntry [.mark .semicolon]
  let _ ← mark .semicolon
  return { entry with span := ← spanFrom start.start }

def optionList : Parser (List OptionEntry) := do
  let followers : List Follower := [.mark .comma, .mark .rightBracket]
  let _ ← mark .leftBracket
  let first ← optionEntry followers
  let more ← collect do
    match ← look with
    | some (.mark .comma, _) => advance; return some (← optionEntry followers)
    | some (.mark .rightBracket, _) => advance; return none
    | _ => unexpected .optionListEnd
  return first :: more

end ProtoSchema.Syntax.Parser
