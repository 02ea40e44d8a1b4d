import ProtoSchema.Problem
/-!
## Linking references

A written name is looked up from the inside to the outside: in each namespace of
its scope in turn, unless it is absolute or the word for a scalar type. What it
means then has to be of a kind that its place allows.
-/

namespace ProtoSchema.Link

/-- The meaning of a full name in the file that is linked. -/
abbrev Resolution := String → Option UserType

/-- What a written name means. -/
inductive Meaning
  | scalar (scalar : ScalarType)
  | declared (target : UserType)
  deriving DecidableEq, Repr

/-- The meaning of a written name. The words for scalar types cannot be hidden. -/
def meaning? (resolve : Resolution) (scope : List String) (written : String) :
    Option Meaning :=
  match ScalarType.ofName? written with
  | some scalar => some (.scalar scalar)
  | none =>
      if written.toList.head? = some '.' then (resolve written).map .declared
      else (scope.findSome? fun namespaceName => resolve (namespaceName ++ written)).map .declared

/-- A reference to a message; `unsuitable` is the problem of anything else. -/
def linkMessage (resolve : Resolution) (scope : List String) (written : String)
    (unsuitable : Problem) : Except Problem MessageId :=
  match meaning? resolve scope written with
  | some (.declared (.message id)) => .ok id
  | some _ => .error unsuitable
  | none => .error (.typeNotFound written)

def linkMethodType (resolve : Resolution) (scope : List String) (direction : Direction)
    (written : String) : Except Problem MessageId :=
  linkMessage resolve scope written (.invalidMethodType direction written)

def linkExtendee (resolve : Resolution) (scope : List String) (written : String) :
    Except Problem MessageId :=
  linkMessage resolve scope written (.invalidExtendee written)

/-- The type of a value: a scalar, a message or an enum. -/
def linkValueType (resolve : Resolution) (scope : List String) (written : String) :
    Except Problem ValueType :=
  match meaning? resolve scope written with
  | some (.scalar scalar) => .ok (.scalar scalar)
  | some (.declared (.message id)) => .ok (.message id)
  | some (.declared (.enum id)) => .ok (.enum id)
  | some (.declared (.service _)) => .error (.invalidFieldType written)
  | none => .error (.typeNotFound written)

/-- The type of the keys of a map. -/
def linkKeyType (written : String) : Except Problem ScalarType :=
  match ScalarType.ofName? written with
  | some scalar => if scalar.isMapKey then .ok scalar else .error (.invalidMapKeyType written)
  | none => .error (.invalidMapKeyType written)

/-- The type of a field; in a map the key is linked before the value. -/
def linkFieldType (resolve : Resolution) (scope : List String) :
    WrittenType → Except Problem FieldType
  | .named name => .value <$> linkValueType resolve scope name
  | .map key value => do
      let key ← linkKeyType key
      .map key <$> linkValueType resolve scope value

/-! ### Files -/

def problem? {α : Type} : Except Problem α → Option Problem
  | .ok _ => none
  | .error problem => some problem

def referenceError? (resolve : Resolution) (reference : Reference) : Option CheckError :=
  (match reference.role with
    | .method direction written =>
        problem? (linkMethodType resolve reference.scope direction written)
    | .extendee written => problem? (linkExtendee resolve reference.scope written)
    | .field written => problem? (linkFieldType resolve reference.scope written)).map
      (⟨·, reference.span⟩)

def value? {α : Type} : Except Problem α → Option α
  | .ok value => some value
  | .error _ => none

def linkField (resolve : Resolution) (scope : List String) (field : Field) : Field :=
  { field with type := value? (linkFieldType resolve scope field.written) }

/-- A message with the types of its fields linked. -/
def linkMessageFields (resolve : Resolution) (message : Message) : Message :=
  { message with fields := message.fields.map (linkField resolve message.scope) }

/-- An extend block with its message and the types of its fields linked. -/
def linkExtension (resolve : Resolution) (extension : Extension) : Extension :=
  { extension with
    extendee := value? (linkExtendee resolve extension.scope extension.writtenExtendee)
    fields := extension.fields.map (linkField resolve extension.scope) }

def linkMethod (resolve : Resolution) (scope : List String) (method : Method) : Method :=
  { method with
    input := value? (linkMethodType resolve scope .input method.writtenInput)
    output := value? (linkMethodType resolve scope .output method.writtenOutput) }

/-- A service with the types of its methods linked. -/
def linkService (resolve : Resolution) (scope : List String) (service : Service) : Service :=
  { service with methods := service.methods.map (linkMethod resolve scope) }

/-- The file with every reference linked that can be. -/
def linkAll (resolve : Resolution) (file : ProtoFile) : ProtoFile :=
  { file with
    allMessages := file.allMessages.map (linkMessageFields resolve)
    allExtensions := file.allExtensions.map (linkExtension resolve)
    allServices := file.allServices.map (linkService resolve (packageScope file.package)) }

/-- The file with every reference linked, or the first thing that is wrong with one
of the references. -/
def linkFile (resolve : Resolution) (references : List Reference) (file : ProtoFile) :
    Except CheckError ProtoFile :=
  match references.findSome? (referenceError? resolve) with
  | some error => .error error
  | none => .ok (linkAll resolve file)

end ProtoSchema.Link
