import ProtoSchema.Proofs.Draft.Placement
/-! # Declarations at any depth

A file contains what it lists itself and what the messages that it contains list. These are
exactly the declarations that have a number.
-/

namespace ProtoSchema

/-- What stands in a file, however deep in its messages. -/
inductive ProtoFile.Contains (file : ProtoFile) : Child → Prop
  | top {child : Child} (listed : child ∈ file.children) : Contains file child
  | inside {id : MessageId} {message : Message} {child : Child}
      (outer : Contains file (.message id))
      (held : file.allMessages[id.index]? = some message)
      (listed : child ∈ message.children) : Contains file child

/-- A declaration is listed by what it stands in. -/
def ProtoFile.ListedAt (file : ProtoFile) (child : Child) : Parent → Prop
  | .file _ => child ∈ file.children
  | .message id => ∃ message, file.allMessages[id.index]? = some message ∧
      child ∈ message.children

namespace ProtoFile.Nests

variable {file : ProtoFile}

theorem listed_of_mem_numbers (nests : file.Nests) {child : Child}
    (numbered : child ∈ file.numbers) :
    child ∈ file.children ∨
      ∃ (index : Nat) (message : Message), file.allMessages[index]? = some message ∧
        child ∈ message.children := by
  rcases List.mem_append.mp (nests.listed.mem_iff.mpr numbered) with atTop | below
  · exact .inl atTop
  · rcases List.mem_flatMap.mp below with ⟨message, inFile, listed⟩
    rcases Array.getElem?_of_mem (Array.mem_toList_iff.mp inFile) with ⟨index, present⟩
    exact .inr ⟨index, message, present, listed⟩

/-- A message is listed by its parent. -/
theorem listedAt_parent (nests : file.Nests) {index : Nat} {own : Message}
    (present : file.allMessages[index]? = some own) :
    file.ListedAt (.message ⟨file.id, index⟩) own.parent := by
  have bound := (Array.getElem?_eq_some_iff.mp present).1
  have numbered : Child.message ⟨file.id, index⟩ ∈ file.numbers := by
    simp [numbers, bound]
  rcases nests.listed_of_mem_numbers numbered with atTop | ⟨outer, message, held, below⟩
  · have listed : ⟨file.id, index⟩ ∈ file.messages := by simpa [children] using atTop
    rcases nests.top.message _ listed with ⟨-, same, here, stands, -⟩
    cases present.symm.trans here
    rw [stands]
    exact atTop
  · have listed : ⟨file.id, index⟩ ∈ message.messages := by
      simpa [Message.children] using below
    rcases (nests.inside outer message held).message _ listed with ⟨-, same, here, stands, -⟩
    cases present.symm.trans here
    rw [stands]
    exact ⟨message, held, below⟩

/-- What is listed by a parent from which one comes to the file is in the file. -/
theorem contains_of_listedAt (nests : file.Nests) {parent : Parent} (leads : file.Leads parent)
    {child : Child} (listed : file.ListedAt child parent) : file.Contains child := by
  induction leads generalizing child with
  | file => exact .top listed
  | @message index own present around induction =>
      rcases listed with ⟨message, held, member⟩
      exact .inside (induction (nests.listedAt_parent present)) held member

/-- A file contains exactly what has a number in it. -/
theorem contains_iff (nests : file.Nests) {child : Child} :
    file.Contains child ↔ child ∈ file.numbers := by
  constructor
  · intro contains
    rw [← nests.listed.mem_iff, List.mem_append]
    cases contains with
    | top listed => exact .inl listed
    | inside outer held listed =>
        have inFile := Array.mem_toList_iff.mpr (Array.mem_of_getElem? held)
        exact .inr (List.mem_flatMap.mpr ⟨_, inFile, listed⟩)
  · intro numbered
    rcases nests.listed_of_mem_numbers numbered with atTop | ⟨outer, message, held, below⟩
    · exact .top atTop
    · have around := nests.messageLeads message (Array.mem_of_getElem? held)
      exact nests.contains_of_listedAt (.message held around) ⟨message, held, below⟩

theorem contains_message_iff (nests : file.Nests) {id : MessageId} :
    file.Contains (.message id) ↔ id.file = file.id ∧ id.index < file.allMessages.size := by
  rw [nests.contains_iff]
  rcases id with ⟨source, index⟩
  simp only [numbers, List.mem_append, List.mem_map, List.mem_range]
  constructor
  · rintro ((⟨_, bound, same⟩ | ⟨_, -, same⟩) | ⟨_, -, same⟩) <;> cases same
    exact ⟨rfl, bound⟩
  · rintro ⟨rfl, bound⟩
    exact .inl (.inl ⟨index, bound, rfl⟩)

theorem contains_extension_iff (nests : file.Nests) {id : ExtensionId} :
    file.Contains (.extension id) ↔ id.file = file.id ∧ id.index < file.allExtensions.size := by
  rw [nests.contains_iff]
  rcases id with ⟨source, index⟩
  simp only [numbers, List.mem_append, List.mem_map, List.mem_range]
  constructor
  · rintro ((⟨_, -, same⟩ | ⟨_, -, same⟩) | ⟨_, bound, same⟩) <;> cases same
    exact ⟨rfl, bound⟩
  · rintro ⟨rfl, bound⟩
    exact .inr ⟨index, bound, rfl⟩

end ProtoFile.Nests

end ProtoSchema
