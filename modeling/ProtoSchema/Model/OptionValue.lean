import ProtoSchema.Number.Binary64
import ProtoSchema.Text.Quoted
/-!
## Options

The options of a declaration, in the order in which they are written. An option
may be set more than once; the last value counts.
-/

namespace ProtoSchema

/-- The value of an option. A whole number is signed if it is written with a minus
sign. -/
inductive OptionValue
  | bool (value : Bool)
  | ident (name : String)
  | signed (value : Int)
  | unsigned (value : Nat)
  | float (value : Binary64)
  | string (value : String)
  deriving DecidableEq, Repr

def OptionValue.text : OptionValue → String
  | bool value => toString value
  | ident name => name
  | signed value => toString value
  | unsigned value => toString value
  | float value => value.shortText
  | string value => Text.quote value

structure Options where
  entries : List (String × OptionValue) := []
  deriving DecidableEq, Repr

namespace Options

/-- The last value of an option. -/
def get? (options : Options) (name : String) : Option OptionValue :=
  (options.entries.reverse.find? (·.1 == name)).map (·.2)

def isEmpty (options : Options) : Bool :=
  options.entries.isEmpty

/-- Whether the standard option `deprecated` is set. -/
def isDeprecated (options : Options) : Bool :=
  options.get? "deprecated" == some (.bool true)

theorem get?_append_singleton (options : Options) (name : String) (value : OptionValue) :
    get? ⟨options.entries ++ [(name, value)]⟩ name = some value := by
  simp [get?]

end Options

end ProtoSchema
