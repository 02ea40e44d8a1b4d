import ProtoSchema.Syntax.Token
/-!
## Expectations

What the grammar could have continued with at a place where the source does
something else. An expectation names a set of tokens in the words of a message.
-/

namespace ProtoSchema.Syntax

/-! ### Followers of a name -/

/-- What may follow a dotted name. -/
inductive Follower
  | mark (symbol : Punctuation)
  | anyIdent
  deriving DecidableEq, Repr

namespace Follower

/-- Whether a token is of the kind that a follower allows. -/
def allows : Follower → Token → Bool
  | anyIdent, .ident _ => true
  | mark allowed, .mark found => allowed = found
  | _, _ => false

/-- The follower as a message names it. -/
def text : Follower → String
  | mark symbol => "'" ++ String.singleton symbol.char ++ "'"
  | anyIdent => "an identifier"

/-- An enumeration: commas between all but the last two, which `or` joins. -/
def listText : List Follower → String
  | [] => ""
  | [follower] => follower.text
  | [follower, last] => follower.text ++ " or " ++ last.text
  | follower :: followers => follower.text ++ ", " ++ listText followers

end Follower

/-! ### Expectations -/

/-- What the grammar allows at some place. -/
inductive Expected
  | token (wanted : Token)
  | nameEnd (followers : List Follower)
  | statement
  | stringLiteral
  | importTarget
  | messageEntry
  | field
  | fieldEnd
  | oneofEntry
  | extendEntry
  | serviceEntry
  | methodEnd
  | methodEntry
  | streamOrType
  | enumEntry
  | reservedTarget
  | reservedNameEnd
  | optionListEnd
  | optionNamePart
  | optionNameEnd
  | constant
  | number
  | typeName
  | identifier
  | positiveInteger
  | stringTerminator
  | commentTerminator
  deriving DecidableEq, Repr

/-- The expectation as a message names it. -/
def Expected.text : Expected → String
  | token wanted => "'" ++ wanted.text ++ "'"
  | nameEnd followers => Follower.listText (.mark .dot :: followers)
  | statement =>
      "'enum', 'extend', 'import', 'message', 'option', 'service', 'package' or ';'"
  | stringLiteral => "a string literal"
  | importTarget => "a string literal, 'public' or 'weak'"
  | messageEntry => "a message field, oneof, reserved range, enum, message or '\x7d'"
  | field => "a message field"
  | fieldEnd => "';' or '['"
  | oneofEntry => "a message field, option or '\x7d'"
  | extendEntry => "a message field, '\x7d' or ';'"
  | serviceEntry => "'rpc', '\x7d', 'option' or ';'"
  | methodEnd => "';' or '\x7b'"
  | methodEntry => "'option', '\x7d' or ';'"
  | streamOrType => "'stream' or a type name"
  | enumEntry => "an identifier, '\x7d', ';' or 'option'"
  | reservedTarget => "a positive integer or string"
  | reservedNameEnd => "',' or ';'"
  | optionListEnd => "',' or ']'"
  | optionNamePart => "an identifier or '('"
  | optionNameEnd => "'.' or '='"
  | constant => "a constant"
  | number => "a numeric literal"
  | typeName => "a type name"
  | identifier => "an identifier"
  | positiveInteger => "a positive integer"
  | stringTerminator => "string terminator"
  | commentTerminator => "comment terminator"

example :
    (Expected.nameEnd [.mark .comma, .mark .rightBracket]).text = "'.', ',' or ']'" := by
  decide +kernel

end ProtoSchema.Syntax
