import ProtoSchema.Proofs.Draft.Building
import ProtoSchema.Proofs.Renumber.Basic
/-! # Drafts under another number

A draft drawn up under another number is the same draft renumbered; its references do
not depend on the number at all.
-/

namespace ProtoSchema.Draft

variable (move : FileId → FileId)

/-! ## States -/

def Source.renumber (source : Source) : Source :=
  { source with file := move source.file }

def Place.renumber (place : Place) : Place :=
  { place with parent := place.parent.renumber move }

def Numbered.renumber (numbered : Numbered) : Numbered :=
  { messages := numbered.messages.map (Message.renumber move)
    enums := numbered.enums.map (Enum.renumber move)
    extensions := numbered.extensions.map (Extension.renumber move) }

def Contents.renumber (contents : Contents) : Contents :=
  { contents with
    fields := contents.fields.map (Field.renumber move)
    messages := contents.messages.map (DeclarationId.renumber move)
    enums := contents.enums.map (DeclarationId.renumber move)
    extensions := contents.extensions.map (DeclarationId.renumber move)
    messageNames := contents.messageNames.map fun (own, inner) =>
      (own.renumber move, inner.map (DeclaredName.renumber move))
    enumNames := contents.enumNames.map (DeclaredName.renumber move) }

def renumberState (state : Contents × Numbered) : Contents × Numbered :=
  (state.1.renumber move, state.2.renumber move)

@[simp] theorem size_messages_renumber (numbered : Numbered) :
    (numbered.renumber move).messages.size = numbered.messages.size := by
  simp [Numbered.renumber]

@[simp] theorem nestedNames_renumber (contents : Contents) :
    (contents.renumber move).nestedNames =
      contents.nestedNames.map (DeclaredName.renumber move) := by
  simp [Contents.nestedNames, Contents.renumber, List.flatMap_map, List.map_flatMap]

/-! ## Fields -/

/-- Fields of a draft are not linked yet. -/
@[simp] theorem renumber_field (locate : Span → Location) (declared : Syntax.Field) :
    (field locate declared).renumber move = field locate declared :=
  rfl

@[simp] theorem fieldReference_renumber (scope : List String) (field : Field) :
    fieldReference scope (field.renumber move) = fieldReference scope field :=
  rfl

theorem addOneof_renumber (source : Source) (declared : Syntax.Oneof) (contents : Contents) :
    addOneof (source.renumber move) declared (contents.renumber move) =
      (addOneof source declared contents).renumber move := by
  simp [addOneof, Contents.renumber, Source.renumber, Field.renumber, field]

/-! ## Enums and extend blocks -/

theorem addEnum_renumber (source : Source) (place : Place) (declared : Syntax.Enum)
    (state : Contents × Numbered) :
    addEnum (source.renumber move) (place.renumber move) declared (renumberState move state) =
      renumberState move (addEnum source place declared state) := by
  simp [addEnum, renumberState, Contents.renumber, Numbered.renumber, Source.renumber,
    Place.renumber, Enum.renumber, DeclarationId.renumber, DeclaredName.renumber,
    UserType.renumber]
  rfl

theorem addExtend_renumber (source : Source) (place : Place) (declared : Syntax.Extend)
    (state : Contents × Numbered) :
    addExtend (source.renumber move) (place.renumber move) declared (renumberState move state) =
      renumberState move (addExtend source place declared state) := by
  simp [addExtend, renumberState, Contents.renumber, Numbered.renumber, Source.renumber,
    Place.renumber, Extension.renumber, DeclarationId.renumber, extensionReferences]
  rfl

/-! ## Messages -/

theorem withMessage_renumber (source : Source) (place : Place) (declared : Syntax.Message)
    (contents inner : Contents) (numbered : Numbered) :
    withMessage (source.renumber move) (place.renumber move) declared (contents.renumber move)
        (inner.renumber move) (numbered.renumber move) =
      renumberState move (withMessage source place declared contents inner numbered) := by
  simp only [withMessage, nestedNames_renumber, renumberState]
  simp [nextMessage, placeInside, message, Place.inside, Place.renumber, Source.renumber,
    Contents.renumber, Numbered.renumber, Message.renumber,
    Parent.renumber, DeclarationId.renumber, DeclaredName.renumber, UserType.renumber]

mutual

theorem addMessage_renumber (source : Source) (place : Place) (declared : Syntax.Message)
    (state : Contents × Numbered) :
    addMessage (source.renumber move) (place.renumber move) declared
        (renumberState move state) =
      renumberState move (addMessage source place declared state) := by
  rcases declared with ⟨name, items, entries, extensions, reserved, comments, span⟩
  rcases state with ⟨contents, numbered⟩
  have inside := addItems_renumber source
    (place.inside ⟨source.file, numbered.messages.size + messageCountOfAll items⟩ name.name)
    items ({}, numbered)
  rw [renumberState, addMessage_eq, addMessage_eq, ← withMessage_renumber]
  have built : builtInside (source.renumber move) (place.renumber move)
      ⟨name, items, entries, extensions, reserved, comments, span⟩ (numbered.renumber move) =
      renumberState move (builtInside source place
        ⟨name, items, entries, extensions, reserved, comments, span⟩ numbered) := by
    rw [builtInside, size_messages_renumber]
    exact inside
  rw [built]
  rfl

theorem addItem_renumber (source : Source) (place : Place) (item : Syntax.MessageItem)
    (state : Contents × Numbered) :
    addItem (source.renumber move) (place.renumber move) item (renumberState move state) =
      renumberState move (addItem source place item state) := by
  rcases state with ⟨contents, numbered⟩
  cases item with
  | field declared => simp [addItem, renumberState, Contents.renumber, Source.renumber]
  | oneof declared => simp [addItem, renumberState, addOneof_renumber]
  | message declared => exact addMessage_renumber source place declared (contents, numbered)
  | enum declared => exact addEnum_renumber move source place declared (contents, numbered)
  | extend declared => exact addExtend_renumber move source place declared (contents, numbered)

theorem addItems_renumber (source : Source) (place : Place) (items : List Syntax.MessageItem)
    (state : Contents × Numbered) :
    addItems (source.renumber move) (place.renumber move) items (renumberState move state) =
      renumberState move (addItems source place items state) := by
  cases items with
  | nil => rfl
  | cons item items =>
      rw [addItems, addItems, addItem_renumber, addItems_renumber]

end

/-! ## Whole files -/

theorem addFileItems_renumber (source : Source) (place : Place) (items : List Syntax.FileItem)
    (state : Contents × Numbered) :
    items.foldl (addFileItem (source.renumber move) (place.renumber move))
        (renumberState move state) =
      renumberState move (items.foldl (addFileItem source place) state) := by
  induction items generalizing state with
  | nil => rfl
  | cons item items induction =>
      have first : addFileItem (source.renumber move) (place.renumber move)
          (renumberState move state) item =
          renumberState move (addFileItem source place state item) := by
        cases item with
        | message declared => exact addMessage_renumber move source place declared state
        | enum declared => exact addEnum_renumber move source place declared state
        | service declared => rfl
        | extend declared => exact addExtend_renumber move source place declared state
      rw [List.foldl_cons, List.foldl_cons, first, induction]

theorem fileState_renumber (id : FileId) (name source : String) (tree : Syntax.File) :
    fileState (move id) name source tree = renumberState move (fileState id name source tree) := by
  have start : renumberState move ({}, {}) = ({}, {}) := by
    simp [renumberState, Contents.renumber, Numbered.renumber]
  have built := addFileItems_renumber move (fileSource id name source) (filePlace id tree)
    tree.items ({}, {})
  rw [start] at built
  exact built

/-- Services of a draft are not linked yet. -/
theorem fileServices_renumber (id : FileId) (name source : String) (tree : Syntax.File) :
    fileServices (move id) name source tree =
      (fileServices id name source tree).map (Service.renumber move) := by
  rw [fileServices, fileServices, List.map_map]
  apply List.map_congr_left
  intro declared _
  simp only [service, Service.renumber, Function.comp_apply, List.map_map]
  rfl

/-- A draft under another number is the same model renumbered. -/
theorem file_ofTree_renumber (id : FileId) (name source : String) (tree : Syntax.File) :
    (ofTree (move id) name source tree).file =
      (ofTree id name source tree).file.renumber move := by
  rw [file_ofTree, file_ofTree, fileState_renumber, fileServices_renumber]
  simp [ProtoFile.renumber, renumberState, Contents.renumber, Numbered.renumber,
    DeclarationId.renumber, Import.renumber, importStatement]

theorem names_ofTree_renumber (id : FileId) (name source : String) (tree : Syntax.File) :
    (ofTree (move id) name source tree).names =
      (ofTree id name source tree).names.map (DeclaredName.renumber move) := by
  rw [names_ofTree, names_ofTree, fileState_renumber, fileServices_renumber]
  have numbers : (List.range (fileServices id name source tree).length).map
      (fun index : Nat => (⟨move id, index⟩ : ServiceId)) =
      ((List.range (fileServices id name source tree).length).map fun index : Nat =>
        (⟨id, index⟩ : ServiceId)).map (DeclarationId.renumber move) := by
    simp [DeclarationId.renumber]
  rw [List.length_map, numbers, List.zip_map]
  simp [renumberState, Contents.renumber, List.flatMap_map, List.map_flatMap, Function.comp_def,
    DeclaredName.renumber, UserType.renumber, Service.renumber]

theorem references_ofTree_renumber (id : FileId) (name source : String) (tree : Syntax.File) :
    (ofTree (move id) name source tree).references =
      (ofTree id name source tree).references := by
  rw [references_ofTree, references_ofTree, fileState_renumber, fileServices_renumber]
  simp [renumberState, Contents.renumber, filePlace, List.flatMap_map, Service.renumber]
  rfl

end ProtoSchema.Draft
