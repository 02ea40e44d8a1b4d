import ProtoSchema.Diagnostic
import ProtoSchema.Model.Draft
/-!
## Problems

What can be wrong with a file whose syntax is right: a name that is declared
twice or not at all, a reference to a declaration of the wrong kind, a number or
name of a field that is taken.
-/

namespace ProtoSchema

/-- What is wrong. -/
inductive Problem
  | typeNotFound (name : String)
  | invalidFieldType (name : String)
  | invalidMapKeyType (name : String)
  | invalidExtendee (name : String)
  | invalidMethodType (direction : Direction) (name : String)
  | duplicateName (name previousFile : String)
  | extensionOutOfRange (name : String) (number : Int) (extendee : String)
      (ranges : List TagRange)
  | duplicateExtensionNumber (number : Int) (extendee other : String)
  | duplicateFieldNumber (number : Int) (other : String)
  | duplicateFieldName (name : String)
  | numberInExtensionRange (name : String) (number : Int) (message : String)
  | reservedNumber (name : String) (number : Int)
  | reservedName (name : String)
  deriving DecidableEq, Repr

namespace Problem

def directionText : Direction → String
  | .input => "input"
  | .output => "output"

def message : Problem → String
  | typeNotFound name => s!"name '{name}' is not defined"
  | invalidFieldType name => s!"'{name}' is a service, which cannot be used as a field type"
  | invalidMapKeyType name => s!"'{name}' is not a valid map key type"
  | invalidExtendee name => s!"extendee type '{name}' is not a message"
  | invalidMethodType direction name =>
      s!"method {directionText direction} type '{name}' is not a message"
  | duplicateName name _ => s!"name '{name}' is defined twice"
  | extensionOutOfRange name number _ _ =>
      s!"extension '{name}' tag={number} is out of allowed range"
  | duplicateExtensionNumber number extendee other =>
      s!"extension number {number} of '{extendee}' is already used by '{other}'"
  | duplicateFieldNumber number other => s!"field number {number} is already used by '{other}'"
  | duplicateFieldName name => s!"field name '{name}' is already used"
  | numberInExtensionRange name number message =>
      s!"field '{name}' number {number} overlaps an extension range of message '{message}'"
  | reservedNumber name number => s!"field '{name}' uses reserved number {number}"
  | reservedName name => s!"field name '{name}' is reserved"

/-- What is allowed or was there before. -/
def help? : Problem → Option String
  | invalidMapKeyType _ => some "map keys must be integral, bool or string scalars"
  | duplicateName _ previousFile => some s!"it was previously defined in '{previousFile}'"
  | extensionOutOfRange _ _ extendee [] =>
      some s!"message '{extendee}' does not declare any extension ranges"
  | extensionOutOfRange _ _ extendee ranges =>
      some (s!"allowed ranges for message '{extendee}': " ++
        ", ".intercalate (ranges.map TagRange.text))
  | _ => none

/-- The remark at the span: an unsuitable reference is found, anything else is
defined. -/
def remark : Problem → String
  | typeNotFound _ | invalidFieldType _ | invalidMapKeyType _ | invalidExtendee _
  | invalidMethodType _ _ => "found here"
  | _ => "defined here"

end Problem

/-- A problem at its span. -/
structure CheckError where
  problem : Problem
  span : Span
  deriving DecidableEq, Repr

def CheckError.notice (error : CheckError) : Notice :=
  { message := error.problem.message
    help := error.problem.help?
    labels := [⟨error.span, error.problem.remark⟩] }

end ProtoSchema
