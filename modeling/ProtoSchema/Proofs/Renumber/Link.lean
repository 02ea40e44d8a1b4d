import ProtoSchema.Link.Reference
import ProtoSchema.Proofs.Renumber.Basic
/-! # Linking under other numbers

If names mean the same declarations up to the numbers of their files, references are
linked to the same declarations, and the same of them are in error.
-/

namespace ProtoSchema.Link

def Meaning.renumber (move : FileId → FileId) : Meaning → Meaning
  | .scalar type => .scalar type
  | .declared target => .declared (target.renumber move)

variable {move : FileId → FileId} {left right : Resolution}

/-- Names mean the same up to the numbers of files. -/
def Corresponds (move : FileId → FileId) (left right : Resolution) : Prop :=
  ∀ name, right name = (left name).map (UserType.renumber move)

/-! ## Single references -/

theorem meaning?_renumber (same : Corresponds move left right) (scope : List String)
    (written : String) :
    meaning? right scope written = (meaning? left scope written).map (Meaning.renumber move) := by
  rw [meaning?, meaning?]
  cases ScalarType.ofName? written with
  | some scalar => rfl
  | none =>
      dsimp only
      split
      · rw [same written, Option.map_map, Option.map_map]
        rfl
      · have each : (fun namespaceName => right (namespaceName ++ written)) =
            Option.map (UserType.renumber move) ∘ fun namespaceName =>
              left (namespaceName ++ written) := by
          funext namespaceName
          exact same (namespaceName ++ written)
        rw [each, ← List.map_findSome?, Option.map_map, Option.map_map]
        rfl

theorem linkMessage_renumber (same : Corresponds move left right) (scope : List String)
    (written : String) (unsuitable : Problem) :
    linkMessage right scope written unsuitable =
      (linkMessage left scope written unsuitable).map (DeclarationId.renumber move) := by
  rw [linkMessage, linkMessage, meaning?_renumber same]
  rcases meaning? left scope written with _ | scalar | ⟨id | id | id⟩ <;> rfl

theorem linkValueType_renumber (same : Corresponds move left right) (scope : List String)
    (written : String) :
    linkValueType right scope written =
      (linkValueType left scope written).map (ValueType.renumber move) := by
  rw [linkValueType, linkValueType, meaning?_renumber same]
  rcases meaning? left scope written with _ | scalar | ⟨id | id | id⟩ <;> rfl

theorem linkFieldType_renumber (same : Corresponds move left right) (scope : List String)
    (written : WrittenType) :
    linkFieldType right scope written =
      (linkFieldType left scope written).map (FieldType.renumber move) := by
  cases written with
  | named name =>
      rw [linkFieldType, linkFieldType, linkValueType_renumber same]
      cases linkValueType left scope name <;> rfl
  | map key value =>
      rw [linkFieldType, linkFieldType, linkValueType_renumber same]
      cases linkKeyType key with
      | error problem => rfl
      | ok keyType => cases linkValueType left scope value <;> rfl

theorem problem?_map {α β : Type} (change : α → β) (result : Except Problem α) :
    problem? (result.map change) = problem? result := by
  cases result <;> rfl

theorem value?_map {α β : Type} (change : α → β) (result : Except Problem α) :
    value? (result.map change) = (value? result).map change := by
  cases result <;> rfl

/-- What is wrong with a reference does not depend on any number. -/
theorem referenceError?_eq (same : Corresponds move left right) :
    referenceError? right = referenceError? left := by
  funext reference
  rw [referenceError?, referenceError?]
  cases reference.role with
  | method direction written =>
      simp only [linkMethodType, linkMessage_renumber same, problem?_map]
  | extendee written => simp only [linkExtendee, linkMessage_renumber same, problem?_map]
  | field written => simp only [linkFieldType_renumber same, problem?_map]

/-! ## Files -/

theorem linkField_renumber (same : Corresponds move left right) (scope : List String)
    (field : Field) :
    linkField right scope (field.renumber move) = (linkField left scope field).renumber move := by
  simp only [linkField, Field.renumber, linkFieldType_renumber same, value?_map]

theorem linkMessageFields_renumber (same : Corresponds move left right) (message : Message) :
    linkMessageFields right (message.renumber move) =
      (linkMessageFields left message).renumber move := by
  simp [linkMessageFields, Message.renumber, linkField_renumber same]

theorem linkExtension_renumber (same : Corresponds move left right) (extension : Extension) :
    linkExtension right (extension.renumber move) =
      (linkExtension left extension).renumber move := by
  simp [linkExtension, Extension.renumber, linkField_renumber same, linkExtendee,
    linkMessage_renumber same, value?_map]

theorem linkMethod_renumber (same : Corresponds move left right) (scope : List String)
    (method : Method) :
    linkMethod right scope (method.renumber move) =
      (linkMethod left scope method).renumber move := by
  simp only [linkMethod, Method.renumber, linkMethodType, linkMessage_renumber same, value?_map]

theorem linkService_renumber (same : Corresponds move left right) (scope : List String)
    (service : Service) :
    linkService right scope (service.renumber move) =
      (linkService left scope service).renumber move := by
  simp [linkService, Service.renumber, linkMethod_renumber same]

theorem linkAll_renumber (same : Corresponds move left right) (file : ProtoFile) :
    linkAll right (file.renumber move) = (linkAll left file).renumber move := by
  simp [linkAll, ProtoFile.renumber, linkMessageFields_renumber same,
    linkExtension_renumber same, linkService_renumber same]

end ProtoSchema.Link
