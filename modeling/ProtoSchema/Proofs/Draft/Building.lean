import ProtoSchema.Model.Draft
/-! # Building drafts

Drawing up the declarations of a file as a relation between what has been met before and
after. The number of a message is known before its contents are added; the relation
keeps of this only that it is the right number in the end.
-/

namespace ProtoSchema.Draft

/-! ## The relation -/

/-- The place inside a message that gets the next number. -/
def placeInside (source : Source) (place : Place) (declared : Syntax.Message)
    (numbered : Numbered) : Place :=
  place.inside ⟨source.file, numbered.messages.size⟩ declared.name.name

/-- A message with the given contents that gets the next number. -/
def nextMessage (source : Source) (place : Place) (declared : Syntax.Message)
    (inner : Contents) (numbered : Numbered) : Message :=
  message source place (placeInside source place declared numbered).scope declared inner

/-- What has been met once a message with the given contents is added. -/
def withMessage (source : Source) (place : Place) (declared : Syntax.Message)
    (contents inner : Contents) (numbered : Numbered) : Contents × Numbered :=
  let id : MessageId := ⟨source.file, numbered.messages.size⟩
  let added := nextMessage source place declared inner numbered
  ({ contents with
      messages := contents.messages ++ [id]
      messageNames := contents.messageNames ++
        [(⟨added.fullName, .message id, added.span⟩, inner.nestedNames)]
      messageReferences := contents.messageReferences ++
        (inner.fields.map (fieldReference added.scope) ++
          inner.extensionReferences ++ inner.messageReferences) },
    { numbered with messages := numbered.messages.push added })

/-- Declarations that follow each other at a place lead from one state to another. -/
inductive Builds (source : Source) : Place → Contents × Numbered → Contents × Numbered → Prop
  | done (place : Place) (state : Contents × Numbered) : Builds source place state state
  | next {place : Place} {before middle after : Contents × Numbered}
      (first : Builds source place before middle) (rest : Builds source place middle after) :
      Builds source place before after
  | field (place : Place) (declared : Syntax.Field) (contents : Contents) (numbered : Numbered) :
      Builds source place (contents, numbered)
        ({ contents with fields := contents.fields ++ [field source.locate declared] }, numbered)
  | oneof (place : Place) (declared : Syntax.Oneof) (contents : Contents)
      (numbered : Numbered) :
      Builds source place (contents, numbered) (addOneof source declared contents, numbered)
  | enum (place : Place) (declared : Syntax.Enum) (state : Contents × Numbered) :
      Builds source place state (addEnum source place declared state)
  | extend (place : Place) (declared : Syntax.Extend) (state : Contents × Numbered) :
      Builds source place state (addExtend source place declared state)
  | message {place : Place} {declared : Syntax.Message} {before inner : Contents}
      {numbered after : Numbered}
      (inside : Builds source (placeInside source place declared after)
        ({}, numbered) (inner, after)) :
      Builds source place (before, numbered) (withMessage source place declared before inner after)

/-! ## What is kept -/

/-- Declarations that have a number keep it. -/
structure Keeps (before after : Numbered) : Prop where
  message : ∀ (index : Nat) own, before.messages[index]? = some own →
    after.messages[index]? = some own
  enum : ∀ (index : Nat) own, before.enums[index]? = some own → after.enums[index]? = some own
  extension : ∀ (index : Nat) own, before.extensions[index]? = some own →
    after.extensions[index]? = some own

theorem getElem?_push_of_some {α : Type} {values : Array α} {index : Nat} {own : α}
    (present : values[index]? = some own) (added : α) :
    (values.push added)[index]? = some own := by
  have bound := (Array.getElem?_eq_some_iff.mp present).1
  rw [Array.getElem?_push_lt bound, ← present, Array.getElem?_eq_getElem bound]

namespace Keeps

variable {before middle after : Numbered}

theorem refl (numbered : Numbered) : Keeps numbered numbered :=
  ⟨fun _ _ => id, fun _ _ => id, fun _ _ => id⟩

theorem trans (early : Keeps before middle) (late : Keeps middle after) : Keeps before after where
  message index own present := late.message index own (early.message index own present)
  enum index own present := late.enum index own (early.enum index own present)
  extension index own present := late.extension index own (early.extension index own present)

theorem pushMessage (numbered : Numbered) (added : Message) :
    Keeps numbered { numbered with messages := numbered.messages.push added } :=
  { refl numbered with message := fun _ _ present => getElem?_push_of_some present added }

theorem pushEnum (numbered : Numbered) (added : Enum) :
    Keeps numbered { numbered with enums := numbered.enums.push added } :=
  { refl numbered with enum := fun _ _ present => getElem?_push_of_some present added }

theorem pushExtension (numbered : Numbered) (added : Extension) :
    Keeps numbered { numbered with extensions := numbered.extensions.push added } :=
  { refl numbered with extension := fun _ _ present => getElem?_push_of_some present added }

end Keeps

theorem Builds.keeps {source : Source} {place : Place} {before after : Contents × Numbered}
    (builds : Builds source place before after) : Keeps before.2 after.2 := by
  induction builds with
  | done place state => exact .refl state.2
  | next first rest firstInduction restInduction => exact firstInduction.trans restInduction
  | field place declared contents numbered => exact .refl numbered
  | oneof place declared contents numbered => exact .refl numbered
  | enum place declared state => exact .pushEnum state.2 _
  | extend place declared state => exact .pushExtension state.2 _
  | message inside induction => exact induction.trans (.pushMessage _ _)

/-! ## Numbers known beforehand -/

mutual

theorem size_addMessage (source : Source) (place : Place) (declared : Syntax.Message)
    (state : Contents × Numbered) :
    (addMessage source place declared state).2.messages.size =
      state.2.messages.size + messageCount declared := by
  rcases declared with ⟨name, items, entries, extensions, reserved, comments, span⟩
  rcases state with ⟨contents, numbered⟩
  rw [addMessage, messageCount]
  simp only [Array.size_push]
  rw [size_addItems]
  exact Nat.add_assoc _ _ 1

theorem size_addItem (source : Source) (place : Place) (item : Syntax.MessageItem)
    (state : Contents × Numbered) :
    (addItem source place item state).2.messages.size =
      state.2.messages.size + messageCountOfItem item := by
  cases item with
  | message declared =>
      rw [addItem, messageCountOfItem]
      exact size_addMessage source place declared state
  | _ => rfl

theorem size_addItems (source : Source) (place : Place) (items : List Syntax.MessageItem)
    (state : Contents × Numbered) :
    (addItems source place items state).2.messages.size =
      state.2.messages.size + messageCountOfAll items := by
  cases items with
  | nil => rw [addItems, messageCountOfAll, Nat.add_zero]
  | cons item items =>
      rw [addItems, messageCountOfAll, size_addItems, size_addItem]
      omega

end

/-- What is added inside a message, which is going to get the number after it. -/
def builtInside (source : Source) (place : Place) (declared : Syntax.Message)
    (numbered : Numbered) : Contents × Numbered :=
  let id : MessageId := ⟨source.file, numbered.messages.size + messageCountOfAll declared.items⟩
  addItems source (place.inside id declared.name.name) declared.items ({}, numbered)

theorem size_builtInside (source : Source) (place : Place) (declared : Syntax.Message)
    (numbered : Numbered) :
    (builtInside source place declared numbered).2.messages.size =
      numbered.messages.size + messageCountOfAll declared.items :=
  size_addItems source _ declared.items ({}, numbered)

/-- The number of a message is right when its contents have been added. -/
theorem addMessage_eq (source : Source) (place : Place) (declared : Syntax.Message)
    (contents : Contents) (numbered : Numbered) :
    addMessage source place declared (contents, numbered) =
      withMessage source place declared contents (builtInside source place declared numbered).1
        (builtInside source place declared numbered).2 := by
  have predicted := size_builtInside source place declared numbered
  rcases declared with ⟨name, items, entries, extensions, reserved, comments, span⟩
  rw [addMessage]
  simp only [withMessage, nextMessage, placeInside, predicted]
  rfl

/-! ## Building as done -/

mutual

theorem builds_addMessage (source : Source) (place : Place) (declared : Syntax.Message)
    (state : Contents × Numbered) :
    Builds source place state (addMessage source place declared state) := by
  rcases declared with ⟨name, items, entries, extensions, reserved, comments, span⟩
  rcases state with ⟨contents, numbered⟩
  have inside := builds_addItems source
    (place.inside ⟨source.file, numbered.messages.size + messageCountOfAll items⟩ name.name)
    items ({}, numbered)
  rw [addMessage_eq]
  apply Builds.message
  rw [placeInside, size_builtInside]
  exact inside

theorem builds_addItem (source : Source) (place : Place) (item : Syntax.MessageItem)
    (state : Contents × Numbered) :
    Builds source place state (addItem source place item state) := by
  rcases state with ⟨contents, numbered⟩
  cases item with
  | field declared => exact .field place declared contents numbered
  | oneof declared => exact .oneof place declared contents numbered
  | message declared =>
      rw [addItem]
      exact builds_addMessage source place declared (contents, numbered)
  | enum declared => exact .enum place declared (contents, numbered)
  | extend declared => exact .extend place declared (contents, numbered)

theorem builds_addItems (source : Source) (place : Place) (items : List Syntax.MessageItem)
    (state : Contents × Numbered) :
    Builds source place state (addItems source place items state) := by
  cases items with
  | nil =>
      rw [addItems]
      exact .done place state
  | cons item items =>
      rw [addItems]
      exact .next (builds_addItem source place item state)
        (builds_addItems source place items (addItem source place item state))

end

theorem builds_addFileItems (source : Source) (place : Place) (items : List Syntax.FileItem)
    (state : Contents × Numbered) :
    Builds source place state (items.foldl (addFileItem source place) state) := by
  induction items generalizing state with
  | nil => exact .done place state
  | cons item items induction =>
      refine .next ?_ (induction (addFileItem source place state item))
      cases item with
      | message declared => exact builds_addMessage source place declared state
      | enum declared => exact .enum place declared state
      | service declared => exact .done place state
      | extend declared => exact .extend place declared state

/-! ## Whole files -/

def fileSource (id : FileId) (name source : String) : Source :=
  ⟨id, fun span => ⟨name, Text.lineNumber source.toUTF8.toList span.start⟩⟩

def filePackage (tree : Syntax.File) : Option String :=
  tree.package.map (·.name.text)

/-- The place of the declarations at the top level of a file. -/
def filePlace (id : FileId) (tree : Syntax.File) : Place :=
  { parent := .file id
    namespaceName := packageNamespace (filePackage tree)
    scope := packageScope (filePackage tree) }

/-- What has been met at the end of a file. -/
def fileState (id : FileId) (name source : String) (tree : Syntax.File) : Contents × Numbered :=
  tree.items.foldl (addFileItem (fileSource id name source) (filePlace id tree)) ({}, {})

theorem builds_fileState (id : FileId) (name source : String) (tree : Syntax.File) :
    Builds (fileSource id name source) (filePlace id tree) ({}, {})
      (fileState id name source tree) :=
  builds_addFileItems (fileSource id name source) (filePlace id tree) tree.items ({}, {})

def fileServices (id : FileId) (name source : String) (tree : Syntax.File) : List Service :=
  (tree.items.filterMap fun
    | .service declared => some declared
    | _ => none).map (service (fileSource id name source) (filePlace id tree))

theorem file_ofTree (id : FileId) (name source : String) (tree : Syntax.File) :
    (ofTree id name source tree).file =
      { id, name
        package := filePackage tree
        version := tree.version
        imports := tree.imports.map importStatement
        options := options tree.options
        messages := (fileState id name source tree).1.messages
        enums := (fileState id name source tree).1.enums
        services := (List.range (fileServices id name source tree).length).map fun index : Nat =>
          (⟨id, index⟩ : ServiceId)
        extensions := (fileState id name source tree).1.extensions
        allMessages := (fileState id name source tree).2.messages
        allEnums := (fileState id name source tree).2.enums
        allServices := (fileServices id name source tree).toArray
        allExtensions := (fileState id name source tree).2.extensions } :=
  rfl

theorem names_ofTree (id : FileId) (name source : String) (tree : Syntax.File) :
    (ofTree id name source tree).names =
      (fileState id name source tree).1.messageNames.map (·.1) ++
        (fileState id name source tree).1.enumNames ++
        ((fileServices id name source tree).zip
            ((List.range (fileServices id name source tree).length).map fun index : Nat =>
              (⟨id, index⟩ : ServiceId))).map (fun (service, id) =>
          (⟨service.fullName, .service id, service.span⟩ : DeclaredName)) ++
        (fileState id name source tree).1.messageNames.flatMap (·.2) :=
  rfl

theorem references_ofTree (id : FileId) (name source : String) (tree : Syntax.File) :
    (ofTree id name source tree).references =
      (fileServices id name source tree).flatMap
          (fun service => service.methods.flatMap (methodReferences (filePlace id tree).scope)) ++
        (fileState id name source tree).1.messageReferences ++
        (fileState id name source tree).1.extensionReferences :=
  rfl

end ProtoSchema.Draft
