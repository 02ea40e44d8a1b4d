import ProtoSchema.Proofs.Compiler.Twins
/-! # Judging a file in two schemas

The validators that a compiler starts with say the same about a file in every faithful
schema that has it.
-/

namespace ProtoSchema

/-! ## Fields under other numbers -/

theorem find?_renumber (move : FileId → FileId) (fields : List Field) (condition : Field → Bool)
    (blind : ∀ field, condition (field.renumber move) = condition field) :
    (fields.map (Field.renumber move)).find? condition =
      (fields.find? condition).map (Field.renumber move) := by
  have unmoved : condition ∘ Field.renumber move = condition := by
    funext field
    exact blind field
  rw [List.find?_map, unmoved]

namespace Check

variable (move : FileId → FileId)

theorem fieldProblem?_renumber (message : Message) (earlier : List Field) (field : Field) :
    fieldProblem? (message.renumber move) (earlier.map (Field.renumber move))
        (field.renumber move) =
      fieldProblem? message earlier field := by
  have clash : (earlier.map (Field.renumber move)).find?
      (·.number == (field.renumber move).number) =
      (earlier.find? (·.number == field.number)).map (Field.renumber move) :=
    find?_renumber move earlier (·.number == field.number) fun _ => rfl
  have names : (earlier.map (Field.renumber move)).any (·.name == (field.renumber move).name) =
      earlier.any (·.name == field.name) := by
    rw [List.any_map]
    rfl
  rw [fieldProblem?, fieldProblem?, clash, names]
  cases earlier.find? (·.number == field.number) <;> rfl

theorem fieldError?_renumber (message : Message) (earlier fields : List Field) :
    fieldError? (message.renumber move) (earlier.map (Field.renumber move))
        (fields.map (Field.renumber move)) =
      fieldError? message earlier fields := by
  induction fields generalizing earlier with
  | nil => rfl
  | cons field fields induction =>
      rw [List.map_cons, fieldError?, fieldError?, fieldProblem?_renumber, ← List.map_cons,
        induction]
      rfl

theorem messageError?_renumber (message : Message) :
    messageError? (message.renumber move) = messageError? message :=
  fieldError?_renumber move message [] message.fields

end Check

namespace Schema

variable {resolver : Resolver} {left right : Schema}

/-! ## Extend blocks -/

theorem rangeError?_translate (leftFaithful : left.Faithful resolver)
    (rightFaithful : right.Faithful resolver) {extension : Extension}
    (shares : ∀ target, extension.extendee = some target → left.Shares right target.file) :
    Check.rangeError? right (extension.renumber (left.translate right)) =
      Check.rangeError? left extension := by
  rw [Check.rangeError?, Check.rangeError?, Extension.renumber]
  cases extendee : extension.extendee with
  | none => rfl
  | some target =>
      simp only [Option.map_some, Option.bind_some,
        message?_translate leftFaithful rightFaithful (shares target extendee)]
      cases left.message? target with
      | none => rfl
      | some message =>
          simp only [Option.map_some, Option.bind_eq_bind, Option.bind_some]
          have fields := find?_renumber (left.translate right) extension.fields
            (fun field => !message.isExtensionNumber field.number) fun _ => rfl
          change ((extension.fields.map (Field.renumber (left.translate right))).find?
            fun field => !message.isExtensionNumber field.number).bind _ = _
          rw [fields]
          cases extension.fields.find? fun field => !message.isExtensionNumber field.number <;> rfl

/-- Earlier fields of other blocks are the same. -/
theorem earlierFields_translate (leftFaithful : left.Faithful resolver)
    (rightFaithful : right.Faithful resolver) {id otherId : ExtensionId}
    (shares : left.Shares right id.file) (otherShares : left.Shares right otherId.file)
    (position : Nat) (other : Extension) :
    Check.earlierFields (id.renumber (left.translate right)) position
        (otherId.renumber (left.translate right)) (other.renumber (left.translate right)) =
      (Check.earlierFields id position otherId other).map
        (Field.renumber (left.translate right)) := by
  have apart : left.translate right otherId.file = left.translate right id.file ↔
      otherId.file = id.file :=
    ⟨translate_injective leftFaithful rightFaithful otherShares shares, congrArg _⟩
  have same := DeclarationId.renumber_eq_iff apart.mp
  simp only [Check.earlierFields, same]
  simp only [DeclarationId.renumber, apart, Extension.renumber]
  split
  · rw [List.map_take]
  · split <;> rfl

theorem clash?_translate (leftFaithful : left.Faithful resolver)
    (rightFaithful : right.Faithful resolver) {id otherId : ExtensionId}
    (shares : left.Shares right id.file) (otherShares : left.Shares right otherId.file)
    (position : Nat) (number : Int) :
    Check.clash? right (id.renumber (left.translate right)) position number
        (otherId.renumber (left.translate right)) =
      Check.clash? left id position number otherId := by
  rw [Check.clash?, Check.clash?, extension?_translate leftFaithful rightFaithful otherShares]
  cases left.extension? otherId with
  | none => rfl
  | some other =>
      simp only [Option.map_some, Option.bind_eq_bind, Option.bind_some]
      rw [earlierFields_translate leftFaithful rightFaithful shares otherShares,
        find?_renumber _ _ _ fun _ => rfl]
      cases (Check.earlierFields id position otherId other).find? (·.number == number) <;> rfl

theorem taken?_translate (leftFaithful : left.Faithful resolver)
    (rightFaithful : right.Faithful resolver) {id : ExtensionId}
    (shares : left.Shares right id.file) {visible : List ExtensionId}
    (visibleShare : ∀ other ∈ visible, left.Shares right other.file) (extendee : Message)
    (position : Nat) (field : Field) :
    Check.taken? right (extendee.renumber (left.translate right))
        (visible.map (DeclarationId.renumber (left.translate right)))
        (id.renumber (left.translate right)) position (field.renumber (left.translate right)) =
      Check.taken? left extendee visible id position field := by
  have own : (extendee.renumber (left.translate right)).fields.find?
      (·.number == (field.renumber (left.translate right)).number) =
      (extendee.fields.find? (·.number == field.number)).map
        (Field.renumber (left.translate right)) :=
    find?_renumber (left.translate right) extendee.fields (·.number == field.number) fun _ => rfl
  have clashes : (visible.map (DeclarationId.renumber (left.translate right))).findSome?
      (Check.clash? right (id.renumber (left.translate right)) position
        (field.renumber (left.translate right)).number) =
      visible.findSome? (Check.clash? left id position field.number) := by
    rw [List.findSome?_map]
    apply findSome?_congr
    intro other member
    exact clash?_translate leftFaithful rightFaithful shares (visibleShare other member) position
      field.number
  rw [Check.taken?, Check.taken?, Message.field?, Message.field?, own, clashes]
  cases extendee.fields.find? (·.number == field.number) <;> rfl

theorem numberError?_translate (leftFaithful : left.Faithful resolver)
    (rightFaithful : right.Faithful resolver) {id : ExtensionId} {extension : Extension}
    (shares : left.Shares right id.file)
    (extendeeShares : ∀ target, extension.extendee = some target →
      left.Shares right target.file) :
    Check.numberError? right (id.renumber (left.translate right))
        (extension.renumber (left.translate right)) =
      Check.numberError? left id extension := by
  rw [Check.numberError?, Check.numberError?, Extension.renumber]
  cases extendee : extension.extendee with
  | none => rfl
  | some target =>
      simp only [Option.map_some, Option.bind_some,
        message?_translate leftFaithful rightFaithful (extendeeShares target extendee)]
      cases left.message? target with
      | none => rfl
      | some message =>
          rcases visibleExtensions_translate leftFaithful rightFaithful shares
            message.fullName with ⟨visible, visibleShare⟩
          have sameVisible : right.visibleExtensions (id.renumber (left.translate right)).file
              (message.renumber (left.translate right)).fullName =
              (left.visibleExtensions id.file message.fullName).map
                (DeclarationId.renumber (left.translate right)) := visible
          simp only [Option.map_some, Option.bind_eq_bind, Option.bind_some, sameVisible,
            List.zipIdx_map, List.findSome?_map]
          apply findSome?_congr
          rintro ⟨field, position⟩ _
          simp only [Function.comp_apply, Prod.map_apply, id_eq,
            taken?_translate leftFaithful rightFaithful shares visibleShare]
          rfl

/-! ## Validators -/

namespace Twins

variable {id : FileId} {file : SourceFile} {first second : LoadedFile}

theorem ofSearch_eq (twins : Twins left right id file first second)
    {search : Schema → LoadedFile → Option CheckError}
    (same : search right second = search left first) :
    Validator.ofSearch search right (left.translate right id) =
      Validator.ofSearch search left id := by
  simp only [Validator.ofSearch, twins.inLeft, twins.inRight, same, twins.rightSettled.name_eq,
    twins.leftSettled.name_eq, twins.rightSettled.source_eq, twins.leftSettled.source_eq]

theorem messages_eq (twins : Twins left right id file first second)
    (leftFaithful : left.Faithful resolver) (rightFaithful : right.Faithful resolver) :
    Validator.messages right (left.translate right id) = Validator.messages left id := by
  apply twins.ofSearch_eq
  rw [twins.file_eq leftFaithful rightFaithful]
  simp only [ProtoFile.renumber, Array.toList_map, List.findSome?_map]
  apply findSome?_congr
  intro message _
  exact Check.messageError?_renumber _ message

theorem extensionRanges_eq (twins : Twins left right id file first second)
    (leftFaithful : left.Faithful resolver) (rightFaithful : right.Faithful resolver) :
    Validator.extensionRanges right (left.translate right id) =
      Validator.extensionRanges left id := by
  apply twins.ofSearch_eq
  rw [twins.file_eq leftFaithful rightFaithful]
  simp only [ProtoFile.renumber, Array.toList_map, List.findSome?_map]
  apply findSome?_congr
  intro extension member
  apply rangeError?_translate leftFaithful rightFaithful
  intro target extendee
  exact twins.shares_extendee leftFaithful rightFaithful (Array.mem_toList_iff.mp member) extendee

theorem extensionNumbers_eq (twins : Twins left right id file first second)
    (leftFaithful : left.Faithful resolver) (rightFaithful : right.Faithful resolver) :
    Validator.extensionNumbers right (left.translate right id) =
      Validator.extensionNumbers left id := by
  apply twins.ofSearch_eq
  rw [twins.file_eq leftFaithful rightFaithful]
  simp only [ProtoFile.renumber, Array.toList_map, List.zipIdx_map, List.findSome?_map]
  apply findSome?_congr
  rintro ⟨extension, index⟩ member
  have inFile : extension ∈ first.file.allExtensions := by
    rw [← Array.mem_toList_iff]
    exact List.mem_of_getElem? (List.mk_mem_zipIdx_iff_getElem?.mp member)
  have shares : left.Shares right first.file.id := by
    rw [twins.leftSettled.id_eq]
    exact twins.shares rightFaithful
  exact @numberError?_translate resolver left right leftFaithful rightFaithful
    ⟨first.file.id, index⟩ extension shares fun target extendee =>
      twins.shares_extendee leftFaithful rightFaithful inFile extendee

/-- The validators of a new compiler judge a file alike. -/
theorem judged_alike (twins : Twins left right id file first second)
    (leftFaithful : left.Faithful resolver) (rightFaithful : right.Faithful resolver) :
    ∀ validator ∈ ({} : Rules).validators,
      validator right (left.translate right id) = validator left id := by
  intro validator member
  simp only [List.mem_cons, List.not_mem_nil, or_false] at member
  rcases member with rfl | rfl | rfl
  · exact twins.messages_eq leftFaithful rightFaithful
  · exact twins.extensionRanges_eq leftFaithful rightFaithful
  · exact twins.extensionNumbers_eq leftFaithful rightFaithful

end Twins

/-- The validators of a new compiler judge files with the same name alike. -/
theorem judged_alike (leftFaithful : left.Faithful resolver)
    (rightFaithful : right.Faithful resolver) {i j : FileId} {first second : LoadedFile}
    (inLeft : left.files[i]? = some first) (inRight : right.files[j]? = some second)
    (sameName : first.file.name = second.file.name) :
    ∀ validator ∈ ({} : Rules).validators, validator right j = validator left i := by
  have named := rightFaithful.named inRight
  rw [← sameName] at named
  rcases exists_twins leftFaithful rightFaithful
    ⟨first, inLeft, by rw [named, Option.isSome_some]⟩ with ⟨file, _, _, twins, -⟩
  rw [← translate_of_getElem? inLeft named]
  exact twins.judged_alike leftFaithful rightFaithful

end Schema

end ProtoSchema
