import ProtoSchema.Check.Basic
/-!
## Fields of messages

The fields of a message have different numbers and different names, and they keep
off the numbers and names that are reserved or left to extensions.
-/

namespace ProtoSchema.Check

/-- What is wrong with a field, given the fields before it, the nearest first. -/
def fieldProblem? (message : Message) (earlier : List Field) (field : Field) :
    Option Problem :=
  match earlier.find? (·.number == field.number) with
  | some other => some (.duplicateFieldNumber field.number other.name)
  | none =>
      if earlier.any (·.name == field.name) then some (.duplicateFieldName field.name)
      else if message.isExtensionNumber field.number then
        some (.numberInExtensionRange field.name field.number message.fullName)
      else if message.reservedRanges.any (·.contains field.number) then
        some (.reservedNumber field.name field.number)
      else if message.reservedNames.contains field.name then
        some (.reservedName field.name)
      else none

/-- The first field with something wrong. -/
def fieldError? (message : Message) (earlier : List Field) : List Field → Option CheckError
  | [] => none
  | field :: fields =>
      match fieldProblem? message earlier field with
      | some problem => some ⟨problem, field.span⟩
      | none => fieldError? message (field :: earlier) fields

def messageError? (message : Message) : Option CheckError :=
  fieldError? message [] message.fields

end ProtoSchema.Check

namespace ProtoSchema.Validator

/-- The validator of the fields of all messages of a file. -/
def messages : Validator :=
  ofSearch fun _ loaded => loaded.file.allMessages.toList.findSome? Check.messageError?

end ProtoSchema.Validator
