import Mathlib.Data.List.Forall2
import ProtoSchema.Proofs.Draft.Building
import ProtoSchema.Proofs.Syntax.Walk
/-! # Trees and drafts

The declarations of a draft are those of its tree, one for one, in the order in which a walk
through the tree leaves them. Each holds the parts of the one that it is drawn up from.
-/

namespace ProtoSchema

/-! ## Growing lists -/

/-- A list grows by one value for each of some declarations. -/
def Adds {α β : Type} (Drawn : α → β → Prop) (declared : List α) (before after : List β) : Prop :=
  ∃ added, after = before ++ added ∧ List.Forall₂ Drawn declared added

namespace Adds

variable {α β : Type} {Drawn : α → β → Prop} {first second : List α} {before middle after : List β}

theorem none (list : List β) : Adds Drawn [] list list :=
  ⟨[], (List.append_nil list).symm, .nil⟩

theorem single {declared : α} {value : β} (drawn : Drawn declared value) (list : List β) :
    Adds Drawn [declared] list (list ++ [value]) :=
  ⟨[value], rfl, .cons drawn .nil⟩

theorem append (early : Adds Drawn first before middle) (late : Adds Drawn second middle after) :
    Adds Drawn (first ++ second) before after := by
  rcases early with ⟨added, rfl, drawn⟩
  rcases late with ⟨more, rfl, others⟩
  exact ⟨added ++ more, List.append_assoc .., List.rel_append drawn others⟩

theorem length_eq (adds : Adds Drawn first before after) :
    after.length = before.length + first.length := by
  rcases adds with ⟨added, rfl, drawn⟩
  rw [List.length_append, drawn.length_eq]

theorem isPrefix (adds : Adds Drawn first before after) : before <+: after := by
  rcases adds with ⟨added, rfl, -⟩
  exact List.prefix_append before added

theorem forall₂ (adds : Adds Drawn first [] after) : List.Forall₂ Drawn first after := by
  rcases adds with ⟨added, rfl, drawn⟩
  exact drawn

end Adds

theorem exists_of_mem_forall₂ {α β : Type} {Drawn : α → β → Prop} {declared : List α}
    {values : List β} (drawn : List.Forall₂ Drawn declared values) {value : β}
    (member : value ∈ values) : ∃ own ∈ declared, Drawn own value := by
  induction drawn with
  | nil => cases member
  | @cons own other _ _ here rest induction =>
      rcases List.mem_cons.mp member with rfl | member
      · exact ⟨own, List.mem_cons_self, here⟩
      · rcases induction member with ⟨found, inside, holds⟩
        exact ⟨found, List.mem_cons_of_mem own inside, holds⟩

namespace Draft

/-! ## What a declaration is drawn up from -/

/-- A place contains another one: itself, or one inside of messages that have a property. -/
inductive Place.Encloses (outermost : Place) (Around : Syntax.Message → Prop) : Place → Prop
  | here : Encloses outermost Around outermost
  | inside {place : Place} (id : MessageId) {declared : Syntax.Message}
      (around : Encloses outermost Around place) (holds : Around declared) :
      Encloses outermost Around (place.inside id declared.name.name)

/-- The field of a message or an extend block, which may belong to a oneof. -/
def FieldDrawn (source : Source) (declared : Syntax.Field) (drawn : Field) : Prop :=
  ∃ oneof, drawn = { field source.locate declared with oneof }

def OneofDrawn (source : Source) (declared : Syntax.Oneof) (drawn : Oneof) : Prop :=
  drawn =
    { name := declared.name.name
      options := options declared.options
      comments := declared.comments
      location := source.locate declared.span }

def drawnEnum (source : Source) (place : Place) (declared : Syntax.Enum) : Enum :=
  { name := declared.name.name
    fullName := place.namespaceName ++ declared.name.name
    parent := place.parent
    values := declared.values.map (enumValue source)
    reservedRanges := reservedRanges declared.reserved
    reservedNames := reservedNames declared.reserved
    options := options declared.options
    comments := declared.comments
    location := source.locate declared.span
    span := declared.name.span }

def drawnExtension (source : Source) (place : Place) (declared : Syntax.Extend) : Extension :=
  { writtenExtendee := declared.extendee.text
    fields := declared.fields.map (field source.locate)
    namespaceName := place.namespaceName
    parent := place.parent
    scope := place.scope
    comments := declared.comments
    location := source.locate declared.span
    extendeeSpan := declared.extendee.span }

section

variable (Around : Syntax.Message → Prop) (source : Source) (outermost : Place)

def MessageDrawn (declared : Syntax.Message) (drawn : Message) : Prop :=
  ∃ place scope contents, outermost.Encloses Around place ∧
    drawn = message source place scope declared contents ∧
    List.Forall₂ (FieldDrawn source) declared.fields contents.fields ∧
    List.Forall₂ (OneofDrawn source) declared.oneofs contents.oneofs

def EnumDrawn (declared : Syntax.Enum) (drawn : Enum) : Prop :=
  ∃ place, outermost.Encloses Around place ∧ drawn = drawnEnum source place declared

def ExtensionDrawn (declared : Syntax.Extend) (drawn : Extension) : Prop :=
  ∃ place, outermost.Encloses Around place ∧ drawn = drawnExtension source place declared

/-- What is met grows by the declarations that some events leave, and by some fields and
oneofs. -/
structure Draws (events : List Syntax.Event) (fields : List Syntax.Field)
    (oneofs : List Syntax.Oneof) (before after : Contents × Numbered) : Prop where
  messages : Adds (MessageDrawn Around source outermost)
    (events.filterMap Syntax.Event.message?) before.2.messages.toList after.2.messages.toList
  enums : Adds (EnumDrawn Around source outermost)
    (events.filterMap Syntax.Event.enum?) before.2.enums.toList after.2.enums.toList
  extensions : Adds (ExtensionDrawn Around source outermost)
    (events.filterMap Syntax.Event.extend?) before.2.extensions.toList after.2.extensions.toList
  fields : Adds (FieldDrawn source) fields before.1.fields after.1.fields
  oneofs : Adds (OneofDrawn source) oneofs before.1.oneofs after.1.oneofs

end

variable {Around : Syntax.Message → Prop} {source : Source} {outermost : Place}

namespace Draws

theorem none (state : Contents × Numbered) : Draws Around source outermost [] [] [] state state where
  messages := .none _
  enums := .none _
  extensions := .none _
  fields := .none _
  oneofs := .none _

theorem append {before middle after : Contents × Numbered} {events more : List Syntax.Event}
    {fields others : List Syntax.Field} {oneofs rest : List Syntax.Oneof}
    (early : Draws Around source outermost events fields oneofs before middle)
    (late : Draws Around source outermost more others rest middle after) :
    Draws Around source outermost (events ++ more) (fields ++ others) (oneofs ++ rest)
      before after where
  messages := by rw [List.filterMap_append]; exact early.messages.append late.messages
  enums := by rw [List.filterMap_append]; exact early.enums.append late.enums
  extensions := by rw [List.filterMap_append]; exact early.extensions.append late.extensions
  fields := early.fields.append late.fields
  oneofs := early.oneofs.append late.oneofs

theorem ofEvents {events more : List Syntax.Event} {fields : List Syntax.Field}
    {oneofs : List Syntax.Oneof} {before after : Contents × Numbered}
    (draws : Draws Around source outermost events fields oneofs before after)
    (messages : more.filterMap Syntax.Event.message? = events.filterMap Syntax.Event.message?)
    (enums : more.filterMap Syntax.Event.enum? = events.filterMap Syntax.Event.enum?)
    (extensions : more.filterMap Syntax.Event.extend? = events.filterMap Syntax.Event.extend?) :
    Draws Around source outermost more fields oneofs before after where
  messages := by rw [messages]; exact draws.messages
  enums := by rw [enums]; exact draws.enums
  extensions := by rw [extensions]; exact draws.extensions
  fields := draws.fields
  oneofs := draws.oneofs

end Draws

/-! ## Declarations one by one -/

theorem draws_field (place : Place) (declared : Syntax.Field) (state : Contents × Numbered) :
    Draws Around source outermost [.field declared] [declared] [] state
      (addItem source place (.field declared) state) where
  messages := .none _
  enums := .none _
  extensions := .none _
  fields := .single ⟨none, rfl⟩ _
  oneofs := .none _

theorem draws_oneof (place : Place) (declared : Syntax.Oneof) (state : Contents × Numbered) :
    Draws Around source outermost declared.events declared.fields [declared] state
      (addItem source place (.oneof declared) state) := by
  rcases state with ⟨contents, numbered⟩
  rcases declared.left_events with ⟨messages, enums, extensions⟩
  refine
    { messages := ?_
      enums := ?_
      extensions := ?_
      fields := ⟨_, rfl, ?_⟩
      oneofs := .single (show OneofDrawn source declared _ from rfl) _ }
  · rw [messages]
    exact .none _
  · rw [enums]
    exact .none _
  · rw [extensions]
    exact .none _
  · rw [List.forall₂_map_right_iff, List.forall₂_same]
    exact fun field _ => ⟨_, rfl⟩

theorem draws_enum {place : Place} (within : outermost.Encloses Around place)
    (declared : Syntax.Enum) (state : Contents × Numbered) :
    Draws Around source outermost declared.events [] [] state
      (addEnum source place declared state) := by
  rcases state with ⟨contents, numbered⟩
  rcases declared.left_events with ⟨messages, enums, extensions⟩
  refine
    { messages := ?_
      enums := ?_
      extensions := ?_
      fields := .none _
      oneofs := .none _ }
  · rw [messages]
    exact .none _
  · rw [enums, addEnum, Array.toList_push]
    exact .single ⟨place, within, rfl⟩ _
  · rw [extensions]
    exact .none _

theorem draws_extend {place : Place} (within : outermost.Encloses Around place)
    (declared : Syntax.Extend) (state : Contents × Numbered) :
    Draws Around source outermost declared.events [] [] state
      (addExtend source place declared state) := by
  rcases state with ⟨contents, numbered⟩
  rcases declared.left_events with ⟨messages, enums, extensions⟩
  refine
    { messages := ?_
      enums := ?_
      extensions := ?_
      fields := .none _
      oneofs := .none _ }
  · rw [messages]
    exact .none _
  · rw [enums]
    exact .none _
  · rw [extensions, addExtend, Array.toList_push]
    exact .single ⟨place, within, rfl⟩ _

/-- A message comes after all that is drawn inside it. -/
theorem Draws.withMessage {place : Place} (within : outermost.Encloses Around place)
    {declared : Syntax.Message} {contents inner : Contents} {numbered after : Numbered}
    (draws : Draws Around source outermost (declared.items.flatMap Syntax.MessageItem.events)
      declared.fields declared.oneofs ({}, numbered) (inner, after)) :
    Draws Around source outermost declared.events [] [] (contents, numbered)
      (withMessage source place declared contents inner after) := by
  rcases declared.left_events with ⟨messages, enums, extensions⟩
  refine
    { messages := ?_
      enums := ?_
      extensions := ?_
      fields := .none _
      oneofs := .none _ }
  · rw [messages]
    refine draws.messages.append ?_
    rw [Draft.withMessage, Array.toList_push]
    exact .single ⟨place, _, inner, within, rfl, draws.fields.forall₂,
      draws.oneofs.forall₂⟩ _
  · rw [enums]
    exact draws.enums
  · rw [extensions]
    exact draws.extensions

/-! ## Declarations inside others -/

mutual

theorem draws_addMessage {place : Place} (within : outermost.Encloses Around place)
    (declared : Syntax.Message)
    (around : ∀ message ∈ declared.events.filterMap Syntax.Event.message?, Around message)
    (state : Contents × Numbered) :
    Draws Around source outermost declared.events [] [] state
      (addMessage source place declared state) := by
  rcases declared with ⟨name, items, entries, extensions, reserved, comments, span⟩
  rcases state with ⟨contents, numbered⟩
  rw [addMessage_eq]
  rw [(Syntax.Message.left_events _).1, List.forall_mem_append, List.forall_mem_singleton] at around
  exact .withMessage within
    (draws_addItems (.inside _ within around.2) items around.1 ({}, numbered))

theorem draws_addItem {place : Place} (within : outermost.Encloses Around place)
    (item : Syntax.MessageItem)
    (around : ∀ message ∈ item.events.filterMap Syntax.Event.message?, Around message)
    (state : Contents × Numbered) :
    Draws Around source outermost item.events item.fields item.oneof?.toList state
      (addItem source place item state) := by
  cases item with
  | field declared => exact draws_field place declared state
  | oneof declared => exact draws_oneof place declared state
  | message declared =>
      rw [addItem]
      exact draws_addMessage within declared around state
  | enum declared => exact draws_enum within declared state
  | extend declared => exact draws_extend within declared state

theorem draws_addItems {place : Place} (within : outermost.Encloses Around place)
    (items : List Syntax.MessageItem)
    (around : ∀ message ∈ (items.flatMap Syntax.MessageItem.events).filterMap
      Syntax.Event.message?, Around message)
    (state : Contents × Numbered) :
    Draws Around source outermost (items.flatMap Syntax.MessageItem.events)
      (items.flatMap Syntax.MessageItem.fields) (items.filterMap Syntax.MessageItem.oneof?) state
      (addItems source place items state) := by
  cases items with
  | nil =>
      rw [addItems]
      exact .none state
  | cons item items =>
      rw [List.flatMap_cons, List.filterMap_append, List.forall_mem_append] at around
      have first := draws_addItem within item around.1 state
      have rest := draws_addItems within items around.2 (addItem source place item state)
      have split : (item :: items).filterMap Syntax.MessageItem.oneof? =
          item.oneof?.toList ++ items.filterMap Syntax.MessageItem.oneof? := by
        rw [List.filterMap_cons]
        cases item.oneof? <;> rfl
      rw [addItems, List.flatMap_cons, List.flatMap_cons, split]
      exact first.append rest

end

/-! ## Whole files -/

theorem draws_addFileItem {place : Place} (within : outermost.Encloses Around place)
    (item : Syntax.FileItem)
    (around : ∀ message ∈ item.events.filterMap Syntax.Event.message?, Around message)
    (state : Contents × Numbered) :
    Draws Around source outermost item.events [] [] state (addFileItem source place state item) := by
  cases item with
  | message declared => exact draws_addMessage within declared around state
  | enum declared => exact draws_enum within declared state
  | service declared =>
      rcases declared.left_events with ⟨messages, enums, extensions⟩
      exact (Draws.none state).ofEvents messages enums extensions
  | extend declared => exact draws_extend within declared state

theorem draws_addFileItems {place : Place} (within : outermost.Encloses Around place)
    (items : List Syntax.FileItem)
    (around : ∀ message ∈ (items.flatMap Syntax.FileItem.events).filterMap Syntax.Event.message?,
      Around message)
    (state : Contents × Numbered) :
    Draws Around source outermost (items.flatMap Syntax.FileItem.events) [] [] state
      (items.foldl (addFileItem source place) state) := by
  induction items generalizing state with
  | nil => exact .none state
  | cons item items induction =>
      rw [List.flatMap_cons, List.filterMap_append, List.forall_mem_append] at around
      rw [List.flatMap_cons]
      exact (draws_addFileItem within item around.1 state).append
        (induction around.2 (addFileItem source place state item))

/-- What is drawn up from a tree are the declarations of the tree, inside of each other as
there. -/
structure FileDrawn (source : Source) (place : Place) (tree : Syntax.File) (file : ProtoFile) :
    Prop where
  messages : List.Forall₂ (MessageDrawn (· ∈ tree.messages) source place) tree.messages
    file.allMessages.toList
  enums : List.Forall₂ (EnumDrawn (· ∈ tree.messages) source place) tree.enums
    file.allEnums.toList
  extensions : List.Forall₂ (ExtensionDrawn (· ∈ tree.messages) source place) tree.extends_
    file.allExtensions.toList
  services : file.allServices.toList = tree.services.map (service source place)

theorem fileDrawn_ofTree (id : FileId) (name source : String) (tree : Syntax.File) :
    FileDrawn (fileSource id name source) (filePlace id tree) tree
      (ofTree id name source tree).file := by
  rcases tree.left_events with ⟨messages, enums, extensions⟩
  have draws : Draws (· ∈ tree.messages) (fileSource id name source) (filePlace id tree)
      tree.events [] [] ({}, {}) (fileState id name source tree) := by
    refine Draws.ofEvents (draws_addFileItems .here tree.items ?_ ({}, {})) messages enums
      extensions
    intro message member
    rw [Syntax.File.messages, messages]
    exact member
  exact
    { messages := draws.messages.forall₂
      enums := draws.enums.forall₂
      extensions := draws.extensions.forall₂
      services := rfl }

end Draft

end ProtoSchema
