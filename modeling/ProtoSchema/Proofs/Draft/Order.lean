import ProtoSchema.Proofs.Draft.Scope
/-! # The order of registration

The names of a file are registered in an order that its declarations tell: first those at
the top level, then for each of the messages there what is inside it.
-/

namespace ProtoSchema

/-! ## The order of the declarations of a file -/

/-- The declarations inside a message: its enums, then each message in it followed by what
is inside that one. A message comes after the messages in it; one that does not is not
entered. -/
def declarationsInside (messages : Array Message) (index : Nat) : List UserType :=
  match messages[index]? with
  | none => []
  | some message =>
      message.enums.map .enum ++ message.messages.flatMap fun inner =>
        .message inner ::
          if inner.index < index then declarationsInside messages inner.index else []
  termination_by index

/-- The declarations of a file in the order in which their names are registered. -/
def ProtoFile.registrationOrder (file : ProtoFile) : List UserType :=
  file.messages.map .message ++ file.enums.map .enum ++ file.services.map .service ++
    file.messages.flatMap fun id => declarationsInside file.allMessages id.index

/-- What is inside a message depends on the enums and messages of the messages up to it. -/
theorem declarationsInside_congr {left right : Array Message} {index : Nat}
    (same : ∀ inner ≤ index, (left[inner]?).map (fun message => (message.enums, message.messages)) =
      (right[inner]?).map fun message => (message.enums, message.messages)) :
    declarationsInside left index = declarationsInside right index := by
  induction index using Nat.strongRecOn with
  | ind index induction =>
      have own := same index le_rfl
      rw [declarationsInside.eq_def, declarationsInside.eq_def]
      cases first : left[index]? with
      | none =>
          rw [first] at own
          rw [Option.map_eq_none_iff.mp own.symm]
      | some message =>
          rw [first] at own
          rcases Option.map_eq_some_iff.mp own.symm with ⟨other, second, equal⟩
          rw [second]
          rw [Prod.mk.injEq] at equal
          dsimp only
          rw [equal.1, equal.2]
          congr 1
          apply List.flatMap_congr
          intro inner _
          split
          · next earlier =>
              rw [induction inner.index earlier fun deeper below =>
                same deeper (le_trans below (Nat.le_of_lt earlier))]
          · rfl

/-! ## The order of the names of a draft -/

namespace Draft

/-- What is listed in some contents stands in the order of registration. -/
structure InOrder (contents : Contents) (messages : Array Message) : Prop where
  enums : contents.enumNames.map DeclaredName.target = contents.enums.map .enum
  earlier : ∀ id ∈ contents.messages, id.index < messages.size
  messages : contents.messageNames.map
      (fun (own, inner) => (own.target, inner.map DeclaredName.target)) =
    contents.messages.map fun id =>
      (UserType.message id, declarationsInside messages id.index)

theorem InOrder.grow {contents : Contents} {messages later : Array Message}
    (inOrder : InOrder contents messages)
    (kept : ∀ (index : Nat) message, messages[index]? = some message →
      later[index]? = some message) :
    InOrder contents later where
  enums := inOrder.enums
  earlier id member := by
    have bound := inOrder.earlier id member
    exact (Array.getElem?_eq_some_iff.mp (kept id.index _ (Array.getElem?_eq_getElem bound))).1
  messages := by
    rw [inOrder.messages]
    apply List.map_congr_left
    intro id member
    have bound := inOrder.earlier id member
    congr 1
    apply declarationsInside_congr
    intro inner below
    have present := Array.getElem?_eq_getElem (Nat.lt_of_le_of_lt below bound)
    rw [present, kept inner _ present]

theorem InOrder.names {contents : Contents} {messages : Array Message}
    (inOrder : InOrder contents messages) :
    contents.messageNames.map (fun entry => entry.1.target) = contents.messages.map .message ∧
      contents.messageNames.map (fun entry => entry.2.map DeclaredName.target) =
        contents.messages.map fun id => declarationsInside messages id.index := by
  have firsts := congrArg (List.map Prod.fst) inOrder.messages
  have seconds := congrArg (List.map Prod.snd) inOrder.messages
  rw [List.map_map, List.map_map] at firsts seconds
  exact ⟨firsts, seconds⟩

/-- The names inside a message come in the order of its declarations. -/
theorem InOrder.nestedNames {contents : Contents} {messages : Array Message}
    (inOrder : InOrder contents messages) :
    contents.nestedNames.map DeclaredName.target =
      contents.enums.map .enum ++ contents.messages.flatMap fun id =>
        .message id :: declarationsInside messages id.index := by
  have inner := congrArg (List.flatMap fun entry : UserType × List UserType =>
    entry.1 :: entry.2) inOrder.messages
  rw [List.flatMap_map, List.flatMap_map] at inner
  rw [Contents.nestedNames, List.map_append, inOrder.enums, List.map_flatMap]
  exact congrArg _ inner

theorem InOrder.push {contents : Contents} {messages : Array Message}
    (inOrder : InOrder contents messages) (added : Message) :
    InOrder contents (messages.push added) :=
  inOrder.grow fun _ _ present => getElem?_push_of_some present added

/-- A message that was added last has its contents inside. -/
theorem InOrder.declarationsInside_push {inner : Contents} {messages : Array Message}
    (inOrder : InOrder inner messages) {added : Message} (enums : added.enums = inner.enums)
    (nested : added.messages = inner.messages) :
    declarationsInside (messages.push added) messages.size =
      inner.nestedNames.map DeclaredName.target := by
  rw [(inOrder.push added).nestedNames, declarationsInside.eq_def, Array.getElem?_push_size]
  dsimp only
  rw [enums, nested]
  congr 1
  apply List.flatMap_congr
  intro id member
  rw [if_pos (inOrder.earlier id member)]

/-- While a file is drawn up, its declarations are listed in the order of registration. -/
theorem Builds.inOrder {source : Source} {place : Place} {before after : Contents × Numbered}
    (builds : Builds source place before after)
    (inOrder : InOrder before.1 before.2.messages) : InOrder after.1 after.2.messages := by
  induction builds with
  | done place state => exact inOrder
  | next first rest firstInduction restInduction =>
      exact restInduction (firstInduction inOrder)
  | field place declared contents numbered => exact { inOrder with }
  | oneof place declared contents numbered => exact { inOrder with }
  | enum place declared state =>
      exact
        { inOrder with
          enums := by
            rcases state with ⟨contents, numbered⟩
            simp [addEnum, inOrder.enums] }
  | extend place declared state => exact { inOrder with }
  | @message place declared contents inner numbered after inside induction =>
      have innerOrder := induction
        { enums := rfl
          earlier := fun _ member => absurd member List.not_mem_nil
          messages := rfl }
      have kept : InOrder contents after.messages :=
        inOrder.grow inside.keeps.message
      have grown := kept.push (nextMessage source place declared inner after)
      have own : declarationsInside
          (after.messages.push (nextMessage source place declared inner after))
          after.messages.size = inner.nestedNames.map DeclaredName.target :=
        innerOrder.declarationsInside_push rfl rfl
      exact
        { enums := inOrder.enums
          earlier := by
            intro id member
            rcases List.mem_append.mp member with member | member
            · exact grown.earlier id member
            · rw [List.mem_singleton.mp member]
              simp [withMessage]
          messages := by
            simp only [withMessage, List.map_append, grown.messages, List.map_cons, List.map_nil,
              own] }

/-- The names of a draft come in the order of registration of its file. -/
theorem targets_ofTree (id : FileId) (name source : String) (tree : Syntax.File) :
    (ofTree id name source tree).names.map DeclaredName.target =
      (ofTree id name source tree).file.registrationOrder := by
  have inOrder : InOrder (fileState id name source tree).1
      (fileState id name source tree).2.messages :=
    (builds_fileState id name source tree).inOrder
      { enums := rfl
        earlier := fun _ member => absurd member List.not_mem_nil
        messages := rfl }
  have services : ∀ declare : Service × ServiceId → DeclaredName,
      (∀ entry, (declare entry).target = .service entry.2) →
      ∀ (declared : List Service) (numbers : List ServiceId), numbers.length ≤ declared.length →
        ((declared.zip numbers).map declare).map DeclaredName.target =
          numbers.map .service := by
    intro declare target declared numbers shorter
    have seconds : (declared.zip numbers).map Prod.snd = numbers := List.map_snd_zip shorter
    have both := congrArg (List.map UserType.service) seconds
    rw [List.map_map] at both ⊢
    rw [← both]
    exact List.map_congr_left fun entry _ => target entry
  have nested := congrArg List.flatten inOrder.names.2
  rw [← List.flatMap_def, ← List.flatMap_def, ← List.map_flatMap] at nested
  rw [names_ofTree, List.map_append, List.map_append, List.map_append, List.map_map, nested,
    services _ (fun _ => rfl) _ _ (by simp), inOrder.enums, file_ofTree,
    ProtoFile.registrationOrder]
  congr 3
  exact inOrder.names.1

end Draft

end ProtoSchema
