import ProtoSchema.Proofs.Draft.Building
/-! # Names and references of drafts

A draft lists exactly the full names of its declarations, and exactly the references in
them. While a file is drawn up, what is listed and what has a number grow by the same.
-/

namespace ProtoSchema

/-! ## What declarations declare and refer to -/

/-- The full name of a message with a number. -/
def Message.declaredName (file : FileId) (entry : Message × Nat) : DeclaredName :=
  ⟨entry.1.fullName, .message ⟨file, entry.2⟩, entry.1.span⟩

def Enum.declaredName (file : FileId) (entry : Enum × Nat) : DeclaredName :=
  ⟨entry.1.fullName, .enum ⟨file, entry.2⟩, entry.1.span⟩

def Service.declaredName (file : FileId) (entry : Service × Nat) : DeclaredName :=
  ⟨entry.1.fullName, .service ⟨file, entry.2⟩, entry.1.span⟩

def Message.references (message : Message) : List Reference :=
  message.fields.map (Draft.fieldReference message.scope)

/-- The full names of the declarations of a file. -/
def ProtoFile.declaredNames (file : ProtoFile) : List DeclaredName :=
  file.allMessages.toList.zipIdx.map (Message.declaredName file.id) ++
    file.allEnums.toList.zipIdx.map (Enum.declaredName file.id) ++
    file.allServices.toList.zipIdx.map (Service.declaredName file.id)

def ProtoFile.references (file : ProtoFile) : List Reference :=
  file.allServices.toList.flatMap
      (fun service => service.methods.flatMap (Draft.methodReferences (packageScope file.package))) ++
    file.allMessages.toList.flatMap Message.references ++
    file.allExtensions.toList.flatMap Draft.extensionReferences

namespace Draft

/-! ## Names -/

/-- The full names of the messages and enums that have a number. -/
def Numbered.names (file : FileId) (numbered : Numbered) : List DeclaredName :=
  numbered.messages.toList.zipIdx.map (Message.declaredName file) ++
    numbered.enums.toList.zipIdx.map (Enum.declaredName file)

theorem count_names_pushMessage (file : FileId) (numbered : Numbered) (added : Message)
    (name : DeclaredName) :
    (Numbered.names file { numbered with messages := numbered.messages.push added }).count name =
      (numbered.names file).count name +
        [Message.declaredName file (added, numbered.messages.size)].count name := by
  simp only [Numbered.names, Array.toList_push, List.zipIdx_append, List.map_append,
    List.count_append, Array.length_toList, List.zipIdx_cons, List.zipIdx_nil, List.map_cons,
    List.map_nil, Nat.zero_add]
  omega

theorem count_names_pushEnum (file : FileId) (numbered : Numbered) (added : Enum)
    (name : DeclaredName) :
    (Numbered.names file { numbered with enums := numbered.enums.push added }).count name =
      (numbered.names file).count name +
        [Enum.declaredName file (added, numbered.enums.size)].count name := by
  simp only [Numbered.names, Array.toList_push, List.zipIdx_append, List.map_append,
    List.count_append, Array.length_toList, List.zipIdx_cons, List.zipIdx_nil, List.map_cons,
    List.map_nil, Nat.zero_add]
  omega

/-- The names that are listed grow by the names that get a number. -/
theorem Builds.count_names {source : Source} {place : Place}
    {before after : Contents × Numbered} (builds : Builds source place before after)
    (name : DeclaredName) :
    after.1.nestedNames.count name + (before.2.names source.file).count name =
      before.1.nestedNames.count name + (after.2.names source.file).count name := by
  induction builds with
  | done place state => rfl
  | next first rest firstInduction restInduction => omega
  | field place declared contents numbered => rfl
  | oneof place declared contents numbered => rfl
  | enum place declared state =>
      rcases state with ⟨contents, numbered⟩
      simp only [addEnum]
      rw [count_names_pushEnum]
      simp only [Contents.nestedNames, Enum.declaredName, List.count_append]
      omega
  | extend place declared state => rfl
  | @message place declared before inner numbered after inside induction =>
      have listed : (withMessage source place declared before inner after).1.nestedNames =
          before.nestedNames ++ ([Message.declaredName source.file
            (nextMessage source place declared inner after, after.messages.size)] ++
              inner.nestedNames) := by
        simp [withMessage, Contents.nestedNames, Message.declaredName]
      have numbers := count_names_pushMessage source.file after
        (nextMessage source place declared inner after) name
      rw [listed, List.count_append, List.count_append]
      simp only [Contents.nestedNames, List.flatMap_nil, List.append_nil, List.count_nil]
        at induction
      simp only [withMessage, numbers, Contents.nestedNames]
      omega

/-! ## References -/

/-- The references of the messages and extend blocks that have a number. -/
def Numbered.references (numbered : Numbered) : List Reference :=
  numbered.messages.toList.flatMap Message.references ++
    numbered.extensions.toList.flatMap extensionReferences

/-- The references of a message are listed with the message around it. -/
theorem Builds.count_references {source : Source} {place : Place}
    {before after : Contents × Numbered} (builds : Builds source place before after)
    (reference : Reference) :
    (after.1.extensionReferences.count reference + after.1.messageReferences.count reference) +
        before.2.references.count reference =
      (before.1.extensionReferences.count reference +
        before.1.messageReferences.count reference) + after.2.references.count reference := by
  induction builds with
  | done place state => rfl
  | next first rest firstInduction restInduction => omega
  | field place declared contents numbered => rfl
  | oneof place declared contents numbered => rfl
  | enum place declared state => rfl
  | extend place declared state =>
      rcases state with ⟨contents, numbered⟩
      simp only [addExtend, Numbered.references, Array.toList_push, List.flatMap_append,
        List.flatMap_cons, List.flatMap_nil, List.append_nil, List.count_append]
      omega
  | @message place declared before inner numbered after inside induction =>
      simp only [Numbered.references, List.count_append, List.count_nil] at induction
      have own : (nextMessage source place declared inner after).references =
          inner.fields.map
            (fieldReference (nextMessage source place declared inner after).scope) := rfl
      simp only [withMessage, Numbered.references, Array.toList_push, List.flatMap_append,
        List.flatMap_cons, List.flatMap_nil, List.append_nil, List.count_append, own]
      omega

/-! ## Whole files -/

theorem zip_serviceIds (file : FileId) (services : List Service) :
    (services.zip ((List.range services.length).map fun index : Nat =>
      (⟨file, index⟩ : ServiceId))).map (fun (service, id) =>
        (⟨service.fullName, .service id, service.span⟩ : DeclaredName)) =
      services.zipIdx.map (Service.declaredName file) := by
  rw [List.zipIdx_eq_zip_range', ← List.range_eq_range', List.zip_map_right, List.map_map]
  rfl

/-- Names are listed with each message, or first the messages and then all that is
inside. -/
theorem count_flatMap_cons {α : Type} [BEq α] (entries : List (α × List α)) (value : α) :
    (entries.flatMap fun (own, inner) => own :: inner).count value =
      (entries.map (·.1)).count value + (entries.flatMap (·.2)).count value := by
  induction entries with
  | nil => rfl
  | cons entry entries induction =>
      simp only [List.flatMap_cons, List.map_cons, List.count_append, List.count_cons, induction]
      omega

/-- A draft lists the full names of its declarations, each as often as it is
declared. -/
theorem ofTree_names_perm (id : FileId) (name source : String) (tree : Syntax.File) :
    (ofTree id name source tree).names.Perm (ofTree id name source tree).file.declaredNames := by
  have declared : (ofTree id name source tree).file.declaredNames =
      (fileState id name source tree).2.names id ++
        (fileServices id name source tree).zipIdx.map (Service.declaredName id) := rfl
  rw [List.perm_iff_count]
  intro value
  have counted := (builds_fileState id name source tree).count_names value
  have split := count_flatMap_cons (fileState id name source tree).1.messageNames value
  have file : (fileSource id name source).file = id := rfl
  simp only [Contents.nestedNames, List.count_append, split, file] at counted
  rw [names_ofTree, zip_serviceIds, declared]
  simp only [List.count_append]
  have none : (Numbered.names id {}).count value = 0 := rfl
  simp only [none, List.flatMap_nil, List.count_nil] at counted
  omega

/-- A draft lists the references in it, each as often as it occurs. -/
theorem ofTree_references_perm (id : FileId) (name source : String) (tree : Syntax.File) :
    (ofTree id name source tree).references.Perm
      (ofTree id name source tree).file.references := by
  have occurring : (ofTree id name source tree).file.references =
      (fileServices id name source tree).flatMap
          (fun service => service.methods.flatMap (methodReferences (filePlace id tree).scope)) ++
        (fileState id name source tree).2.messages.toList.flatMap Message.references ++
        (fileState id name source tree).2.extensions.toList.flatMap extensionReferences := rfl
  rw [List.perm_iff_count]
  intro value
  have counted := (builds_fileState id name source tree).count_references value
  have none : (Numbered.references {}).count value = 0 := rfl
  simp only [none, List.count_nil] at counted
  rw [references_ofTree, occurring]
  simp only [Numbered.references, List.count_append] at counted ⊢
  omega

end Draft

end ProtoSchema
