/-!
## Scalar types

The types that the language itself provides, under the words that name them.
-/

namespace ProtoSchema

inductive ScalarType
  | double | float
  | int32 | int64 | uint32 | uint64 | sint32 | sint64
  | fixed32 | fixed64 | sfixed32 | sfixed64
  | bool | string | bytes
  deriving DecidableEq, Repr

namespace ScalarType

def all : List ScalarType :=
  [double, float, int32, int64, uint32, uint64, sint32, sint64,
    fixed32, fixed64, sfixed32, sfixed64, bool, string, bytes]

def name : ScalarType → String
  | double => "double"
  | float => "float"
  | int32 => "int32"
  | int64 => "int64"
  | uint32 => "uint32"
  | uint64 => "uint64"
  | sint32 => "sint32"
  | sint64 => "sint64"
  | fixed32 => "fixed32"
  | fixed64 => "fixed64"
  | sfixed32 => "sfixed32"
  | sfixed64 => "sfixed64"
  | bool => "bool"
  | string => "string"
  | bytes => "bytes"

/-- The scalar type that a word names. -/
def ofName? (word : String) : Option ScalarType :=
  all.find? (·.name == word)

/-- The place of a scalar type among all of them. -/
def position (scalar : ScalarType) : Nat :=
  all.idxOf scalar

/-- Whether the keys of a map may have this type: integers, truth values and
strings. -/
def isMapKey : ScalarType → Bool
  | double | float | bytes => false
  | _ => true

theorem mem_all (scalar : ScalarType) : scalar ∈ all := by
  cases scalar <;> decide

@[simp] theorem ofName?_name (scalar : ScalarType) : ofName? scalar.name = some scalar := by
  cases scalar <;> decide +kernel

theorem name_of_ofName? {word : String} {scalar : ScalarType}
    (found : ofName? word = some scalar) : scalar.name = word := by
  simpa using List.find?_some found

end ScalarType

end ProtoSchema
