import ProtoSchema.Proofs.Draft.Assembly
import ProtoSchema.Proofs.Draft.Correspondence
/-! # What a file holds

The declarations of a tree are numbered in the order in which a walk leaves them. The file and
each message list those that stand directly in them, in the order of the source, so that every
number is listed exactly once.
-/

namespace ProtoSchema

/-! ## Children -/

/-- A declaration that a file or a message lists. -/
inductive Child
  | message (id : MessageId)
  | enum (id : EnumId)
  | extension (id : ExtensionId)
  deriving DecidableEq

/-- The declarations that stand directly in a message. -/
def Message.children (message : Message) : List Child :=
  message.messages.map .message ++ message.enums.map .enum ++ message.extensions.map .extension

/-- The declarations at the top level of a file that can stand in a message as well. -/
def ProtoFile.children (file : ProtoFile) : List Child :=
  file.messages.map .message ++ file.enums.map .enum ++ file.extensions.map .extension

/-- All numbers of messages, enums and extend blocks of a file. -/
def ProtoFile.numbers (file : ProtoFile) : List Child :=
  (List.range file.allMessages.size).map (fun index => .message ⟨file.id, index⟩) ++
    (List.range file.allEnums.size).map (fun index => .enum ⟨file.id, index⟩) ++
    (List.range file.allExtensions.size).map (fun index => .extension ⟨file.id, index⟩)

open Syntax (Event)

namespace Draft

/-! ## Numbers -/

/-- How many declarations of each kind a walk has left. -/
structure Left where
  messages : Nat := 0
  enums : Nat := 0
  extensions : Nat := 0

def Left.after (left : Left) (events : List Event) : Left :=
  { messages := left.messages + (events.filterMap Event.message?).length
    enums := left.enums + (events.filterMap Event.enum?).length
    extensions := left.extensions + (events.filterMap Event.extend?).length }

/-! ## Fields -/

/-- The fields in the declarations of a message, each with the place of the oneof that it is a
member of. Some oneofs stand before the declarations. -/
def members (before : Nat) : List Syntax.MessageItem → List (Syntax.Field × Option Nat)
  | [] => []
  | .field declared :: items => (declared, none) :: members before items
  | .oneof declared :: items =>
      declared.fields.map (·, some before) ++ members (before + 1) items
  | .message _ :: items | .enum _ :: items | .extend _ :: items => members before items

def memberField (source : Source) (member : Syntax.Field × Option Nat) : Field :=
  { field source.locate member.1 with oneof := member.2 }

def drawnOneof (source : Source) (declared : Syntax.Oneof) : Oneof :=
  { enteredOneof source declared with options := options declared.options }

/-- All fields of a message, with those of its oneofs, are members in the order of the source. -/
theorem fields_members (before : Nat) (items : List Syntax.MessageItem) :
    (members before items).map Prod.fst = items.flatMap Syntax.MessageItem.fields := by
  fun_induction members before items <;>
    simp_all [Syntax.MessageItem.fields, Function.comp_def]

/-- The members of later oneofs have later places. -/
theorem le_of_mem_members {before place : Nat} {items : List Syntax.MessageItem}
    {declared : Syntax.Field} (member : (declared, some place) ∈ members before items) :
    before ≤ place := by
  fun_induction members before items with
  | case1 => cases member
  | case2 before own items induction =>
      rcases List.mem_cons.mp member with impossible | member
      · cases impossible
      · exact induction member
  | case3 before own items induction =>
      rcases List.mem_append.mp member with member | member
      · rcases List.mem_map.mp member with ⟨field, -, same⟩
        cases same
        exact le_rfl
      · exact Nat.le_of_succ_le (induction member)
  | case4 before own items induction => exact induction member
  | case5 before own items induction => exact induction member
  | case6 before own items induction => exact induction member

/-- The members of a oneof are the fields in it, and no others. -/
theorem members_oneof (before place : Nat) (items : List Syntax.MessageItem) :
    ((members before items).filter (·.2 == some (before + place))).map Prod.fst =
      ((items.filterMap Syntax.MessageItem.oneof?)[place]?.map Syntax.Oneof.fields).getD [] := by
  fun_induction members before items generalizing place with
  | case1 => rfl
  | case3 before own items induction =>
      simp only [List.filter_append, List.map_append, List.filterMap_cons,
        Syntax.MessageItem.oneof?]
      cases place with
      | zero =>
          have others : (members (before + 1) items).filter (·.2 == some (before + 0)) = [] := by
            rw [List.filter_eq_nil_iff]
            rintro ⟨declared, place⟩ member same
            simp only [beq_iff_eq] at same
            subst same
            have later := le_of_mem_members member
            omega
          rw [others]
          simp [List.filter_map, Function.comp_def]
      | succ place =>
          have shifted : before + (place + 1) = before + 1 + place := by omega
          rw [shifted, induction]
          simp [Nat.add_assoc]
  | case2 before own items induction =>
      rw [List.filter_cons_of_neg (by simp), induction, List.filterMap_cons_none rfl]
  | case4 before own items induction => rw [induction, List.filterMap_cons_none rfl]
  | case5 before own items induction => rw [induction, List.filterMap_cons_none rfl]
  | case6 before own items induction => rw [induction, List.filterMap_cons_none rfl]

/-- The fields that stand in no oneof are those declared outside of all oneofs. -/
theorem members_direct (before : Nat) (items : List Syntax.MessageItem) :
    ((members before items).filter (·.2 == none)).map Prod.fst =
      items.filterMap fun
        | .field declared => some declared
        | _ => none := by
  fun_induction members before items with
  | case1 => rfl
  | case2 before own items induction =>
      rw [List.filter_cons_of_pos rfl, List.map_cons, induction]
      rfl
  | case3 before own items induction =>
      rw [List.filter_append, List.map_append, induction, List.filter_map]
      simp [Function.comp_def]
  | case4 before own items induction => rw [induction]; rfl
  | case5 before own items induction => rw [induction]; rfl
  | case6 before own items induction => rw [induction]; rfl

/-- A message has the fields that are declared in it and in its oneofs, and a field belongs to
a oneof if and only if it stands there. -/
structure HasFields (source : Source) (declared : Syntax.Message) (own : Message) : Prop where
  all : own.fields.map (fun field => { field with oneof := none }) =
    declared.fields.map (field source.locate)
  members : ∀ place, own.fields.filter (·.oneof == some place) =
    ((declared.oneofs[place]?.map Syntax.Oneof.fields).getD []).map fun member =>
      { field source.locate member with oneof := some place }
  others : own.fields.filter (·.oneof == none) =
    (declared.items.filterMap fun
      | .field declared => some declared
      | _ => none).map (field source.locate)

/-! ## Declarations that a file holds -/

/-- The declarations that stand directly in a message or a file. -/
structure Listed where
  messages : List MessageId := []
  enums : List EnumId := []
  extensions : List ExtensionId := []

def Listed.append (first rest : Listed) : Listed :=
  { messages := first.messages ++ rest.messages
    enums := first.enums ++ rest.enums
    extensions := first.extensions ++ rest.extensions }

def Listed.withMessage (id : MessageId) (listed : Listed) : Listed :=
  { listed with messages := id :: listed.messages }

def Listed.withEnum (id : EnumId) (listed : Listed) : Listed :=
  { listed with enums := id :: listed.enums }

def Listed.withExtension (id : ExtensionId) (listed : Listed) : Listed :=
  { listed with extensions := id :: listed.extensions }

section

variable (source : Source) (file : ProtoFile)

/-- A message that lists some declarations. -/
def drawnMessage (declared : Syntax.Message) (listed : Listed) : Message :=
  { enteredMessage source declared with
    options := options declared.options
    fields := (members 0 declared.items).map (memberField source)
    oneofs := declared.oneofs.map (drawnOneof source)
    messages := listed.messages
    enums := listed.enums
    extensions := listed.extensions }

theorem hasFields (declared : Syntax.Message) (listed : Listed) :
    HasFields source declared (drawnMessage source declared listed) where
  all := by
    rw [Syntax.Message.fields, ← fields_members 0, List.map_map]
    exact List.map_map
  members place := by
    have same := members_oneof 0 place declared.items
    rw [Nat.zero_add] at same
    rw [Syntax.Message.oneofs, ← same, drawnMessage, List.filter_map, List.map_map]
    refine List.map_congr_left fun member inside => ?_
    rcases member with ⟨field, oneof⟩
    cases eq_of_beq (List.mem_filter.mp inside).2
    rfl
  others := by
    rw [← members_direct 0, drawnMessage, List.filter_map, List.map_map]
    refine List.map_congr_left fun member inside => ?_
    rcases member with ⟨field, oneof⟩
    cases eq_of_beq (List.mem_filter.mp inside).2
    rfl

/-- An enum has the next number of its kind. -/
structure HoldsEnum (left : Left) (declared : Syntax.Enum) (id : EnumId) : Prop where
  id_eq : id = ⟨source.file, left.enums⟩
  numbered : file.allEnums[left.enums]? = some { enteredEnum source declared with
    options := options declared.options
    values := declared.values.map (enumValue source) }

structure HoldsExtension (left : Left) (declared : Syntax.Extend) (id : ExtensionId) : Prop where
  id_eq : id = ⟨source.file, left.extensions⟩
  numbered : file.allExtensions[left.extensions]? = some { enteredExtension source declared with
    fields := declared.fields.map (field source.locate) }

mutual

/-- A message has the number after those inside it, and lists the declarations that stand
directly in it. -/
inductive HoldsMessage : Left → Syntax.Message → MessageId → Prop
  | intro {left : Left} {declared : Syntax.Message} {listed : Listed}
      (inside : HoldsItems left declared.items listed)
      (numbered : file.allMessages[(left.after
          (declared.items.flatMap Syntax.MessageItem.events)).messages]? =
        some (drawnMessage source declared listed)) :
      HoldsMessage left declared
        ⟨source.file, (left.after (declared.items.flatMap Syntax.MessageItem.events)).messages⟩

/-- Declarations that follow each other are listed in the order of the source. -/
inductive HoldsItems : Left → List Syntax.MessageItem → Listed → Prop
  | nil (left : Left) : HoldsItems left [] {}
  | field {left : Left} {items : List Syntax.MessageItem} {listed : Listed}
      (declared : Syntax.Field) (rest : HoldsItems left items listed) :
      HoldsItems left (.field declared :: items) listed
  | oneof {left : Left} {items : List Syntax.MessageItem} {listed : Listed}
      (declared : Syntax.Oneof) (rest : HoldsItems left items listed) :
      HoldsItems left (.oneof declared :: items) listed
  | message {left : Left} {items : List Syntax.MessageItem} {listed : Listed}
      {declared : Syntax.Message} {id : MessageId} (own : HoldsMessage left declared id)
      (rest : HoldsItems (left.after declared.events) items listed) :
      HoldsItems left (.message declared :: items) (listed.withMessage id)
  | enum {left : Left} {items : List Syntax.MessageItem} {listed : Listed}
      {declared : Syntax.Enum} {id : EnumId} (own : HoldsEnum source file left declared id)
      (rest : HoldsItems (left.after declared.events) items listed) :
      HoldsItems left (.enum declared :: items) (listed.withEnum id)
  | extend {left : Left} {items : List Syntax.MessageItem} {listed : Listed}
      {declared : Syntax.Extend} {id : ExtensionId}
      (own : HoldsExtension source file left declared id)
      (rest : HoldsItems (left.after declared.events) items listed) :
      HoldsItems left (.extend declared :: items) (listed.withExtension id)

end

end

/-! ## Numbers while a file is drawn up -/

def Left.of (numbered : Numbered) : Left :=
  ⟨numbered.messages.size, numbered.enums.size, numbered.extensions.size⟩

/-- A file has the declarations that have a number already. -/
structure Enrolls (source : Source) (numbered : Numbered) (file : ProtoFile) : Prop where
  messages : numbered.messages.toList.map (Message.unnamed source.file) <+:
    file.allMessages.toList
  enums : numbered.enums.toList.map (Enum.unnamed source.file) <+: file.allEnums.toList
  extensions : numbered.extensions.toList.map (Extension.unnamed source.file) <+:
    file.allExtensions.toList

section

variable {Around : Syntax.Message → Prop} {source : Source} {outermost : Place}
  {events : List Event} {fields : List Syntax.Field} {oneofs : List Syntax.Oneof}
  {before after : Contents × Numbered}

theorem Draws.left (draws : Draws Around source outermost events fields oneofs before after) :
    Left.of after.2 = (Left.of before.2).after events := by
  have messages := draws.messages.length_eq
  have enums := draws.enums.length_eq
  have extensions := draws.extensions.length_eq
  simp only [Array.length_toList] at messages enums extensions
  rw [Left.of, messages, enums, extensions]
  rfl

theorem Enrolls.of_draws {file : ProtoFile}
    (draws : Draws Around source outermost events fields oneofs before after)
    (enrolls : Enrolls source after.2 file) : Enrolls source before.2 file where
  messages := (draws.messages.isPrefix.map _).trans enrolls.messages
  enums := (draws.enums.isPrefix.map _).trans enrolls.enums
  extensions := (draws.extensions.isPrefix.map _).trans enrolls.extensions

end

/-! ## What is drawn up is held -/

theorem getElem?_of_prefix_push {α β : Type} {values : Array α} {value : α} {drawn : α → β}
    {all : Array β} (enrolled : (values.push value).toList.map drawn <+: all.toList) :
    all[values.size]? = some (drawn value) := by
  rcases enrolled with ⟨rest, same⟩
  rw [← Array.getElem?_toList, ← same]
  simp

section

variable {source : Source} {file : ProtoFile}

theorem holdsEnum {place : Place} {declared : Syntax.Enum} {state : Contents × Numbered}
    (enrolls : Enrolls source (addEnum source place declared state).2 file) :
    HoldsEnum source file (.of state.2) declared ⟨source.file, state.2.enums.size⟩ where
  id_eq := rfl
  numbered := getElem?_of_prefix_push enrolls.enums

theorem holdsExtension {place : Place} {declared : Syntax.Extend} {state : Contents × Numbered}
    (enrolls : Enrolls source (addExtend source place declared state).2 file) :
    HoldsExtension source file (.of state.2) declared
      ⟨source.file, state.2.extensions.size⟩ where
  id_eq := rfl
  numbered := getElem?_of_prefix_push enrolls.extensions

/-- Some contents list more declarations than before. -/
structure Lists (before after : Contents) (listed : Listed) : Prop where
  messages : after.messages = before.messages ++ listed.messages
  enums : after.enums = before.enums ++ listed.enums
  extensions : after.extensions = before.extensions ++ listed.extensions

theorem Lists.none (contents : Contents) : Lists contents contents {} where
  messages := (List.append_nil _).symm
  enums := (List.append_nil _).symm
  extensions := (List.append_nil _).symm

theorem Lists.append {before middle after : Contents} {first rest : Listed}
    (early : Lists before middle first) (late : Lists middle after rest) :
    Lists before after (first.append rest) where
  messages := by rw [late.messages, early.messages, List.append_assoc]; rfl
  enums := by rw [late.enums, early.enums, List.append_assoc]; rfl
  extensions := by rw [late.extensions, early.extensions, List.append_assoc]; rfl

theorem lists_addEnum (source : Source) (place : Place) (declared : Syntax.Enum)
    (contents : Contents) (numbered : Numbered) :
    Lists contents (addEnum source place declared (contents, numbered)).1
      (.withEnum ⟨source.file, numbered.enums.size⟩ {}) :=
  { Lists.none contents with enums := rfl }

theorem lists_addExtend (source : Source) (place : Place) (declared : Syntax.Extend)
    (contents : Contents) (numbered : Numbered) :
    Lists contents (addExtend source place declared (contents, numbered)).1
      (.withExtension ⟨source.file, numbered.extensions.size⟩ {}) :=
  { Lists.none contents with extensions := rfl }

theorem lists_withMessage (source : Source) (place : Place) (declared : Syntax.Message)
    (contents inner : Contents) (numbered : Numbered) :
    Lists contents (withMessage source place declared contents inner numbered).1
      (.withMessage ⟨source.file, numbered.messages.size⟩ {}) :=
  { Lists.none contents with messages := rfl }

/-- The fields and oneofs of a message grow by those of the declarations in it. -/
structure Gathers (source : Source) (items : List Syntax.MessageItem) (before after : Contents) :
    Prop where
  fields : after.fields =
    before.fields ++ (members before.oneofs.length items).map (memberField source)
  oneofs : after.oneofs =
    before.oneofs ++ (items.filterMap Syntax.MessageItem.oneof?).map (drawnOneof source)

theorem gathers_addItems (place : Place) (items : List Syntax.MessageItem)
    (state : Contents × Numbered) :
    Gathers source items state.1 (addItems source place items state).1 := by
  induction items generalizing state with
  | nil =>
      rw [addItems]
      exact ⟨(List.append_nil _).symm, (List.append_nil _).symm⟩
  | cons item items induction =>
      rw [addItems]
      have rest := induction (addItem source place item state)
      rcases state with ⟨contents, numbered⟩
      cases item with
      | field declared =>
          refine ⟨?_, rest.oneofs⟩
          rw [rest.fields]
          exact List.append_assoc ..
      | oneof declared =>
          refine ⟨?_, ?_⟩
          · rw [rest.fields]
            simp [addItem, addOneof, members, memberField, Function.comp_def]
          · rw [rest.oneofs]
            simp [addItem, addOneof, Syntax.MessageItem.oneof?, drawnOneof, enteredOneof]
      | message declared =>
          have same : (addItem source place (.message declared) (contents, numbered)).1.fields =
              contents.fields ∧ (addItem source place (.message declared)
                (contents, numbered)).1.oneofs = contents.oneofs := by
            rw [addItem, addMessage_eq]
            exact ⟨rfl, rfl⟩
          refine ⟨?_, ?_⟩
          · rw [rest.fields, same.1, same.2]
            rfl
          · rw [rest.oneofs, same.2]
            rfl
      | enum declared => exact ⟨rest.fields, rest.oneofs⟩
      | extend declared => exact ⟨rest.fields, rest.oneofs⟩

theorem Enrolls.of_push {numbered : Numbered} {added : Message}
    (enrolls : Enrolls source { numbered with messages := numbered.messages.push added } file) :
    Enrolls source numbered file where
  messages := by
    refine List.IsPrefix.trans ?_ enrolls.messages
    rw [Array.toList_push, List.map_append]
    exact List.prefix_append _ _
  enums := enrolls.enums
  extensions := enrolls.extensions

/-- What a walk through declarations of a message leaves has got its numbers. -/
theorem left_addItems (place : Place) (items : List Syntax.MessageItem)
    (state : Contents × Numbered) :
    Left.of (addItems source place items state).2 =
      (Left.of state.2).after (items.flatMap Syntax.MessageItem.events) :=
  (draws_addItems (@Place.Encloses.here place fun _ => True) items (fun _ _ => trivial) state).left

/-- A message is held once the declarations inside it are. -/
theorem holdsMessage_of_inside {place : Place} {declared : Syntax.Message} {contents : Contents}
    {numbered : Numbered} {listed : Listed}
    (enrolls : Enrolls source (withMessage source place declared contents
      (builtInside source place declared numbered).1
      (builtInside source place declared numbered).2).2 file)
    (inside : HoldsItems source file (.of numbered) declared.items listed)
    (lists : Lists {} (builtInside source place declared numbered).1 listed) :
    HoldsMessage source file (.of numbered) declared
      ⟨source.file, (builtInside source place declared numbered).2.messages.size⟩ := by
  have gathers : Gathers source declared.items {} (builtInside source place declared numbered).1 :=
    gathers_addItems _ declared.items ({}, numbered)
  have left : Left.of (builtInside source place declared numbered).2 =
      (Left.of numbered).after (declared.items.flatMap Syntax.MessageItem.events) :=
    left_addItems _ declared.items ({}, numbered)
  have number := congrArg Left.messages left
  have pushed := getElem?_of_prefix_push enrolls.messages
  have held : HoldsMessage source file (.of numbered) declared _ := .intro inside (by
    rw [← number]
    refine pushed.trans (congrArg some ?_)
    simp [drawnMessage, nextMessage, message, Message.unnamed, enteredMessage, gathers.fields,
      gathers.oneofs, lists.messages, lists.enums, lists.extensions, Syntax.Message.oneofs])
  rw [← number] at held
  exact held

mutual

theorem holdsMessage (place : Place) (declared : Syntax.Message) (state : Contents × Numbered)
    (enrolls : Enrolls source (addMessage source place declared state).2 file) :
    ∃ id, HoldsMessage source file (.of state.2) declared id ∧
      Lists state.1 (addMessage source place declared state).1 (.withMessage id {}) := by
  rcases declared with ⟨name, items, entries, extensions, reserved, comments, span⟩
  rcases state with ⟨contents, numbered⟩
  rw [addMessage_eq] at enrolls ⊢
  rcases holdsItems _ items ({}, numbered) enrolls.of_push with ⟨listed, inside, lists⟩
  exact ⟨_, holdsMessage_of_inside enrolls inside lists, lists_withMessage ..⟩

theorem holdsItems (place : Place) (items : List Syntax.MessageItem) (state : Contents × Numbered)
    (enrolls : Enrolls source (addItems source place items state).2 file) :
    ∃ listed, HoldsItems source file (.of state.2) items listed ∧
      Lists state.1 (addItems source place items state).1 listed := by
  cases items with
  | nil =>
      rw [addItems]
      exact ⟨{}, .nil _, .none state.1⟩
  | cons item items =>
      rw [addItems] at enrolls ⊢
      rcases holdsItems place items (addItem source place item state) enrolls with
        ⟨listed, rest, lists⟩
      have early : Enrolls source (addItem source place item state).2 file :=
        enrolls.of_draws
          (draws_addItems (@Place.Encloses.here place fun _ => True) items (fun _ _ => trivial) _)
      have left : Left.of (addItem source place item state).2 =
          (Left.of state.2).after item.events :=
        (draws_addItem (@Place.Encloses.here place fun _ => True) item (fun _ _ => trivial)
          state).left
      rcases state with ⟨contents, numbered⟩
      cases item with
      | field declared =>
          exact ⟨listed, .field declared rest, lists.messages, lists.enums, lists.extensions⟩
      | oneof declared =>
          exact ⟨listed, .oneof declared rest, lists.messages, lists.enums, lists.extensions⟩
      | message declared =>
          rw [left] at rest
          rw [addItem] at early lists ⊢
          rcases holdsMessage place declared (contents, numbered) early with ⟨id, own, first⟩
          exact ⟨_, .message own rest, first.append lists⟩
      | enum declared =>
          rw [left] at rest
          exact ⟨_, .enum (holdsEnum early) rest, (lists_addEnum ..).append lists⟩
      | extend declared =>
          rw [left] at rest
          exact ⟨_, .extend (holdsExtension early) rest, (lists_addExtend ..).append lists⟩

end

end

/-! ## Every number is listed once -/

def Contents.children (contents : Contents) : List Child :=
  contents.messages.map .message ++ contents.enums.map .enum ++ contents.extensions.map .extension

def Numbered.numbers (file : FileId) (numbered : Numbered) : List Child :=
  (List.range numbered.messages.size).map (fun index => .message ⟨file, index⟩) ++
    (List.range numbered.enums.size).map (fun index => .enum ⟨file, index⟩) ++
    (List.range numbered.extensions.size).map (fun index => .extension ⟨file, index⟩)

/-- The numbers that are given grow by those that are listed. -/
theorem Builds.count_children {source : Source} {place : Place}
    {before after : Contents × Numbered} (builds : Builds source place before after)
    (child : Child) :
    after.1.children.count child + (after.2.messages.toList.flatMap Message.children).count child +
        (before.2.numbers source.file).count child =
      before.1.children.count child +
        (before.2.messages.toList.flatMap Message.children).count child +
        (after.2.numbers source.file).count child := by
  induction builds with
  | done place state => rfl
  | next first rest firstInduction restInduction => omega
  | field place declared contents numbered => rfl
  | oneof place declared contents numbered => rfl
  | enum place declared state =>
      rcases state with ⟨contents, numbered⟩
      simp only [addEnum, Contents.children, Numbered.numbers, Array.size_push, List.range_succ,
        List.map_append, List.map_cons, List.map_nil, List.count_append]
      omega
  | extend place declared state =>
      rcases state with ⟨contents, numbered⟩
      simp only [addExtend, Contents.children, Numbered.numbers, Array.size_push, List.range_succ,
        List.map_append, List.map_cons, List.map_nil, List.count_append]
      omega
  | @message place declared before inner numbered after inside induction =>
      have own : (nextMessage source place declared inner after).children = inner.children := rfl
      have none : ({} : Contents).children.count child = 0 := rfl
      simp only [none] at induction
      simp only [withMessage, Contents.children, Numbered.numbers, Array.size_push, List.range_succ,
        Array.toList_push, List.flatMap_append, List.flatMap_cons, List.flatMap_nil,
        List.append_nil, List.map_append, List.map_cons, List.map_nil, List.count_append, own]
        at induction ⊢
      omega

/-- Every number stands in exactly one of the lists, and there exactly once. -/
theorem children_perm (id : FileId) (name source : String) (tree : Syntax.File) :
    ((ofTree id name source tree).file.children ++
      (ofTree id name source tree).file.allMessages.toList.flatMap Message.children).Perm
        (ofTree id name source tree).file.numbers := by
  rw [List.perm_iff_count]
  intro child
  have counted := (builds_fileState id name source tree).count_children child
  have unnumbered : (Numbered.numbers (fileSource id name source).file {}).count child = 0 := rfl
  have unlisted : ({} : Contents).children.count child = 0 := rfl
  have empty : (({} : Numbered).messages.toList.flatMap Message.children).count child = 0 := rfl
  rw [unnumbered, unlisted, empty, Nat.add_zero, Nat.zero_add] at counted
  rw [List.count_append]
  exact counted

theorem nodup_numbers (file : ProtoFile) : file.numbers.Nodup := by
  have distinct (count : Nat) (child : Nat → Child) (injective : Function.Injective child) :
      ((List.range count).map child).Nodup := List.nodup_range.map injective
  rw [ProtoFile.numbers, List.nodup_append', List.nodup_append']
  refine ⟨⟨distinct _ _ fun _ _ same => by simpa using same,
    distinct _ _ fun _ _ same => by simpa using same, ?_⟩,
    distinct _ _ fun _ _ same => by simpa using same, ?_⟩
  · simp [List.disjoint_left]
  · simp only [List.disjoint_left, List.mem_append, List.mem_map, List.mem_range]
    rintro child (⟨_, -, rfl⟩ | ⟨_, -, rfl⟩) ⟨_, -, same⟩ <;> cases same

/-! ## Whole files -/

/-- A declaration of a file that can stand in a message as well. -/
def inMessage? : Syntax.FileItem → Option Syntax.MessageItem
  | .message declared => some (.message declared)
  | .enum declared => some (.enum declared)
  | .extend declared => some (.extend declared)
  | .service _ => none

theorem foldl_addFileItem (source : Source) (place : Place) (items : List Syntax.FileItem)
    (state : Contents × Numbered) :
    items.foldl (addFileItem source place) state =
      addItems source place (items.filterMap inMessage?) state := by
  induction items generalizing state with
  | nil => rw [List.foldl_nil, List.filterMap_nil, addItems]
  | cons item items induction =>
      rw [List.foldl_cons, induction]
      cases item <;> simp only [List.filterMap_cons, inMessage?, addItems, addItem, addFileItem]

def drawnService (source : Source) (declared : Syntax.Service) : Service :=
  { enteredService source declared with
    options := options declared.options
    methods := declared.methods.map (method source) }

/-- A file has the declarations of a tree and no others. -/
structure Assembled (source : Source) (tree : Syntax.File) (file : ProtoFile) : Prop where
  id_eq : file.id = source.file
  options : file.options = options tree.options
  /-- The declarations of each kind are numbered in the order in which a walk leaves them. -/
  messages : file.allMessages.toList.map (fun own => (⟨own.name, own.span⟩ : Syntax.Ident)) =
    tree.messages.map Syntax.Message.name
  enums : file.allEnums.toList.map (fun own => (⟨own.name, own.span⟩ : Syntax.Ident)) =
    tree.enums.map Syntax.Enum.name
  extensions : file.allExtensions.toList.map (fun own => (own.writtenExtendee, own.extendeeSpan)) =
    tree.extends_.map fun declared => (declared.extendee.text, declared.extendee.span)
  services : file.allServices.toList = tree.services.map (drawnService source)
  serviceIds : file.services = (List.range tree.services.length).map fun index : Nat =>
    (⟨source.file, index⟩ : ServiceId)
  /-- The lists of the file and of each message hold what stands there, in its order, and each
  number is that of the declaration. -/
  holds : HoldsItems source file {} (tree.items.filterMap inMessage?)
    ⟨file.messages, file.enums, file.extensions⟩
  fields : ∀ declared listed, HasFields source declared (drawnMessage source declared listed)
  /-- Each number is listed once. -/
  listed : (file.children ++ file.allMessages.toList.flatMap Message.children).Perm file.numbers
  distinct : file.numbers.Nodup

theorem map_eq_of_forall₂ {α β γ : Type} {Drawn : α → β → Prop} {left : α → γ} {right : β → γ}
    (same : ∀ declared own, Drawn declared own → right own = left declared) {declared : List α}
    {own : List β} (drawn : List.Forall₂ Drawn declared own) :
    own.map right = declared.map left := by
  induction drawn with
  | nil => rfl
  | cons here rest induction => rw [List.map_cons, List.map_cons, same _ _ here, induction]

theorem enrolls_unnamed (id : FileId) (name source : String) (tree : Syntax.File) :
    Enrolls (fileSource id name source) (fileState id name source tree).2
      (ofTree id name source tree).file.unnamed where
  messages := by rw [← Array.toList_map]; exact List.prefix_rfl
  enums := by rw [← Array.toList_map]; exact List.prefix_rfl
  extensions := by rw [← Array.toList_map]; exact List.prefix_rfl

theorem holds_unnamed (id : FileId) (name source : String) (tree : Syntax.File) :
    HoldsItems (fileSource id name source) (ofTree id name source tree).file.unnamed {}
      (tree.items.filterMap inMessage?) ⟨(ofTree id name source tree).file.unnamed.messages,
        (ofTree id name source tree).file.unnamed.enums,
        (ofTree id name source tree).file.unnamed.extensions⟩ := by
  have enrolls := enrolls_unnamed id name source tree
  rw [fileState, foldl_addFileItem] at enrolls
  rcases holdsItems (filePlace id tree) (tree.items.filterMap inMessage?) ({}, {}) enrolls with
    ⟨listed, holds, lists⟩
  rw [← foldl_addFileItem] at lists
  have all : (⟨(fileState id name source tree).1.messages,
      (fileState id name source tree).1.enums,
      (fileState id name source tree).1.extensions⟩ : Listed) = listed := by
    rw [fileState, lists.messages, lists.enums, lists.extensions]
    rfl
  exact all ▸ holds

theorem assembled_unnamed (id : FileId) (name source : String) (tree : Syntax.File) :
    Assembled (fileSource id name source) tree (ofTree id name source tree).file.unnamed where
  id_eq := rfl
  options := rfl
  messages := by
    have drawn := (fileDrawn_ofTree id name source tree).messages
    rw [ProtoFile.unnamed, Array.toList_map, List.map_map]
    refine map_eq_of_forall₂ ?_ drawn
    rintro declared own ⟨place, scope, contents, -, rfl, -⟩
    rfl
  enums := by
    have drawn := (fileDrawn_ofTree id name source tree).enums
    rw [ProtoFile.unnamed, Array.toList_map, List.map_map]
    refine map_eq_of_forall₂ ?_ drawn
    rintro declared own ⟨place, -, rfl⟩
    rfl
  extensions := by
    have drawn := (fileDrawn_ofTree id name source tree).extensions
    rw [ProtoFile.unnamed, Array.toList_map, List.map_map]
    refine map_eq_of_forall₂ ?_ drawn
    rintro declared own ⟨place, -, rfl⟩
    rfl
  services := by
    rw [ProtoFile.unnamed, Array.toList_map, (fileDrawn_ofTree id name source tree).services,
      List.map_map]
    rfl
  serviceIds := by
    have count : (fileServices id name source tree).length = tree.services.length :=
      List.length_map _
    rw [← count]
    rfl
  holds := holds_unnamed id name source tree
  fields := hasFields _
  listed := by
    have perm := children_perm id name source tree
    have children : (ofTree id name source tree).file.unnamed.allMessages.toList.flatMap
        Message.children = (ofTree id name source tree).file.allMessages.toList.flatMap
        Message.children := by
      rw [ProtoFile.unnamed, Array.toList_map, List.flatMap_map]
      rfl
    have numbers : (ofTree id name source tree).file.unnamed.numbers =
        (ofTree id name source tree).file.numbers := by
      simp [ProtoFile.numbers, ProtoFile.unnamed]
    rw [children, numbers]
    exact perm
  distinct := nodup_numbers _

/-- A walk through a tree always comes to its end, with nothing but the file on the stack, and
the file has exactly the declarations of the tree. -/
theorem exists_assembled (id : FileId) (name source : String) (tree : Syntax.File) :
    ∃ file, assemble (fileSource id name source) name tree.events = some file ∧
      (ofTree id name source tree).file.unnamed = file ∧
      Assembled (fileSource id name source) tree file :=
  ⟨_, assemble_events id name source tree, rfl, assembled_unnamed id name source tree⟩

end Draft

end ProtoSchema
