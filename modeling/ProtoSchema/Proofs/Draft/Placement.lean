import ProtoSchema.Proofs.Draft.Contents
import ProtoSchema.Proofs.Draft.Holding
import ProtoSchema.Proofs.Draft.Scope
/-! # Places of declarations

The declarations that a file or a message lists stand in it, and their full names continue its
own.
-/

namespace ProtoSchema

namespace Draft

/-! ## Listed declarations -/

/-- The listed declarations stand at a parent, with full names in its namespace. -/
structure Placed (file : FileId) (numbered : Numbered) (parent : Parent) (nested : Bool)
    (namespaceName : String) (listed : Listed) : Prop where
  message : ∀ id ∈ listed.messages, id.file = file ∧
    ∃ own, numbered.messages[id.index]? = some own ∧ own.parent = parent ∧
      own.isNested = nested ∧ own.fullName = namespaceName ++ own.name
  enum : ∀ id ∈ listed.enums, id.file = file ∧
    ∃ own, numbered.enums[id.index]? = some own ∧ own.parent = parent ∧
      own.isNested = nested ∧ own.fullName = namespaceName ++ own.name
  extension : ∀ id ∈ listed.extensions, id.file = file ∧
    ∃ own, numbered.extensions[id.index]? = some own ∧ own.parent = parent ∧
      own.namespaceName = namespaceName

def listedIn (message : Message) : Listed :=
  ⟨message.messages, message.enums, message.extensions⟩

/-- What a message lists stands in it. -/
def PlacedInside (file : FileId) (numbered : Numbered) : Prop :=
  ∀ (index : Nat) message, numbered.messages[index]? = some message →
    Placed file numbered (.message ⟨file, index⟩) true (message.fullName ++ ".")
      (listedIn message)

namespace Placed

variable {file : FileId} {numbered after : Numbered} {parent : Parent} {nested : Bool}
  {namespaceName : String} {first rest : Listed}

theorem none : Placed file numbered parent nested namespaceName {} where
  message _ member := absurd member List.not_mem_nil
  enum _ member := absurd member List.not_mem_nil
  extension _ member := absurd member List.not_mem_nil

theorem ofMessage {id : MessageId} {own : Message} (file_eq : id.file = file)
    (present : numbered.messages[id.index]? = some own) (stands : own.parent = parent)
    (nests : own.isNested = nested) (named : own.fullName = namespaceName ++ own.name) :
    Placed file numbered parent nested namespaceName (.withMessage id {}) where
  message _ member := by
    cases List.mem_singleton.mp member
    exact ⟨file_eq, own, present, stands, nests, named⟩
  enum _ member := absurd member List.not_mem_nil
  extension _ member := absurd member List.not_mem_nil

theorem ofEnum {id : EnumId} {own : Enum} (file_eq : id.file = file)
    (present : numbered.enums[id.index]? = some own) (stands : own.parent = parent)
    (nests : own.isNested = nested) (named : own.fullName = namespaceName ++ own.name) :
    Placed file numbered parent nested namespaceName (.withEnum id {}) where
  message _ member := absurd member List.not_mem_nil
  enum _ member := by
    cases List.mem_singleton.mp member
    exact ⟨file_eq, own, present, stands, nests, named⟩
  extension _ member := absurd member List.not_mem_nil

theorem ofExtension {id : ExtensionId} {own : Extension} (file_eq : id.file = file)
    (present : numbered.extensions[id.index]? = some own) (stands : own.parent = parent)
    (named : own.namespaceName = namespaceName) :
    Placed file numbered parent nested namespaceName (.withExtension id {}) where
  message _ member := absurd member List.not_mem_nil
  enum _ member := absurd member List.not_mem_nil
  extension _ member := by
    cases List.mem_singleton.mp member
    exact ⟨file_eq, own, present, stands, named⟩

theorem append (early : Placed file numbered parent nested namespaceName first)
    (late : Placed file numbered parent nested namespaceName rest) :
    Placed file numbered parent nested namespaceName (first.append rest) where
  message id member := (List.mem_append.mp member).elim (early.message id) (late.message id)
  enum id member := (List.mem_append.mp member).elim (early.enum id) (late.enum id)
  extension id member := (List.mem_append.mp member).elim (early.extension id) (late.extension id)

theorem keep (placed : Placed file numbered parent nested namespaceName first)
    (keeps : Keeps numbered after) : Placed file after parent nested namespaceName first where
  message id member := by
    rcases placed.message id member with ⟨own, message, present, stands⟩
    exact ⟨own, message, keeps.message _ _ present, stands⟩
  enum id member := by
    rcases placed.enum id member with ⟨own, enum, present, stands⟩
    exact ⟨own, enum, keeps.enum _ _ present, stands⟩
  extension id member := by
    rcases placed.extension id member with ⟨own, extension, present, stands⟩
    exact ⟨own, extension, keeps.extension _ _ present, stands⟩

end Placed

theorem PlacedInside.pushEnum {file : FileId} {numbered : Numbered}
    (inside : PlacedInside file numbered) (added : Enum) :
    PlacedInside file { numbered with enums := numbered.enums.push added } :=
  fun index message present => (inside index message present).keep (.pushEnum numbered added)

theorem PlacedInside.pushExtension {file : FileId} {numbered : Numbered}
    (inside : PlacedInside file numbered) (added : Extension) :
    PlacedInside file { numbered with extensions := numbered.extensions.push added } :=
  fun index message present => (inside index message present).keep (.pushExtension numbered added)

/-- A message that is added has what it lists in it. -/
theorem PlacedInside.pushMessage {file : FileId} {numbered : Numbered}
    (inside : PlacedInside file numbered) {added : Message}
    (own : Placed file numbered (.message ⟨file, numbered.messages.size⟩) true
      (added.fullName ++ ".") (listedIn added)) :
    PlacedInside file { numbered with messages := numbered.messages.push added } := by
  intro index message present
  have keeps := Keeps.pushMessage numbered added
  rw [Array.getElem?_push] at present
  split at present
  · next last =>
      cases present
      rw [last]
      exact own.keep keeps
  · exact (inside index message present).keep keeps

/-! ## What is drawn up -/

/-- What some contents list. -/
def Contents.listed (contents : Contents) : Listed :=
  ⟨contents.messages, contents.enums, contents.extensions⟩

def Parent.isMessage : Parent → Bool
  | .file _ => false
  | .message _ => true

theorem isNested_message (message : Message) :
    message.isNested = Parent.isMessage message.parent := by
  unfold Message.isNested Parent.isMessage
  cases message.parent <;> rfl

theorem isNested_enum (enum : Enum) : enum.isNested = Parent.isMessage enum.parent := by
  unfold Enum.isNested Parent.isMessage
  cases enum.parent <;> rfl

theorem Placed.grow {file : FileId} {numbered : Numbered} {parent : Parent} {nested : Bool}
    {namespaceName : String} {before after : Contents} {more : Listed}
    (placed : Placed file numbered parent nested namespaceName before.listed)
    (added : Placed file numbered parent nested namespaceName more)
    (lists : Lists before after more) :
    Placed file numbered parent nested namespaceName after.listed := by
  have both : after.listed = before.listed.append more := by
    rw [Contents.listed, lists.messages, lists.enums, lists.extensions]
    rfl
  rw [both]
  exact placed.append added

/-- While a file is drawn up, declarations are listed where they stand. -/
theorem Builds.placed {source : Source} {place : Place} {before after : Contents × Numbered}
    (builds : Builds source place before after)
    (placed : Placed source.file before.2 place.parent (Parent.isMessage place.parent)
      place.namespaceName before.1.listed)
    (inside : PlacedInside source.file before.2) :
    Placed source.file after.2 place.parent (Parent.isMessage place.parent) place.namespaceName
      after.1.listed ∧ PlacedInside source.file after.2 := by
  induction builds with
  | done place state => exact ⟨placed, inside⟩
  | next first rest firstInduction restInduction =>
      rcases firstInduction placed inside with ⟨placed, inside⟩
      exact restInduction placed inside
  | field place declared contents numbered => exact ⟨placed, inside⟩
  | oneof place declared contents numbered => exact ⟨placed, inside⟩
  | enum place declared state =>
      rcases state with ⟨contents, numbered⟩
      exact ⟨(placed.keep (.pushEnum numbered _)).grow
        (.ofEnum rfl Array.getElem?_push_size rfl (isNested_enum _) rfl)
        (lists_addEnum source place declared contents numbered), inside.pushEnum _⟩
  | extend place declared state =>
      rcases state with ⟨contents, numbered⟩
      exact ⟨(placed.keep (.pushExtension numbered _)).grow
        (.ofExtension rfl Array.getElem?_push_size rfl rfl)
        (lists_addExtend source place declared contents numbered), inside.pushExtension _⟩
  | @message place declared contents inner numbered after build induction =>
      rcases induction .none inside with ⟨own, innermost⟩
      -- The message gets its number after those inside it, so nothing listed before has moved.
      have keeps := build.keeps.trans
        (.pushMessage after (nextMessage source place declared inner after))
      exact ⟨(placed.keep keeps).grow
        (.ofMessage rfl Array.getElem?_push_size rfl (isNested_message _) rfl)
        (lists_withMessage source place declared contents inner after),
        innermost.pushMessage own⟩

end Draft

/-! ## Whole files -/

/-- The messages, enums and extend blocks of a file. -/
def ProtoFile.numbered (file : ProtoFile) : Draft.Numbered :=
  ⟨file.allMessages, file.allEnums, file.allExtensions⟩

/-- From parent to parent one comes to the file itself. -/
inductive ProtoFile.Leads (file : ProtoFile) : Parent → Prop
  | file : Leads file (.file file.id)
  | message {index : Nat} {message : Message} (present : file.allMessages[index]? = some message)
      (around : Leads file message.parent) : Leads file (.message ⟨file.id, index⟩)

/-- Names, parents and namespaces follow the nesting of the declarations of a file. -/
structure ProtoFile.Nests (file : ProtoFile) : Prop where
  top : Draft.Placed file.id file.numbered (.file file.id) false (packageNamespace file.package)
    ⟨file.messages, file.enums, file.extensions⟩
  inside : Draft.PlacedInside file.id file.numbered
  service : ∀ id ∈ file.services, id.file = file.id ∧
    ∃ own, file.allServices[id.index]? = some own ∧
      own.fullName = packageNamespace file.package ++ own.name
  serviceIds : file.services = (List.range file.allServices.size).map fun index : Nat =>
    (⟨file.id, index⟩ : ServiceId)
  /-- Every declaration is listed once, and so has got one name and one parent. -/
  listed : (file.children ++ file.allMessages.toList.flatMap Message.children).Perm file.numbers
  distinct : file.numbers.Nodup
  named : ∀ declared ∈ file.declaredNames, declared.fullName.toList.head? = some '.'
  messageLeads : ∀ own ∈ file.allMessages, file.Leads own.parent
  enumLeads : ∀ own ∈ file.allEnums, file.Leads own.parent
  extensionLeads : ∀ own ∈ file.allExtensions, file.Leads own.parent

theorem Nesting.leads {file : ProtoFile} {prefixes scope : List String} {parent : Parent}
    (nesting : Nesting file.id file.allMessages (.file file.id) prefixes parent scope) :
    file.Leads parent := by
  induction nesting with
  | here => exact .file
  | inside present named around induction => exact .message present induction

namespace Draft

def Listed.children (listed : Listed) : List Child :=
  listed.messages.map .message ++ listed.enums.map .enum ++ listed.extensions.map .extension

theorem dotted_packageNamespace (package : Option String) :
    (packageNamespace package).toList.head? = some '.' := by
  cases package with
  | none => rfl
  | some package => simp [packageNamespace]

section

variable (id : FileId) (name source : String) (tree : Syntax.File)

theorem placed_ofTree :
    Placed id (ofTree id name source tree).file.numbered (.file id) false
        (packageNamespace (filePackage tree)) ⟨(ofTree id name source tree).file.messages,
          (ofTree id name source tree).file.enums,
          (ofTree id name source tree).file.extensions⟩ ∧
      PlacedInside id (ofTree id name source tree).file.numbered :=
  (builds_fileState id name source tree).placed .none fun index message present => by
    simp at present

theorem messageStands_ofTree {own : Message}
    (member : own ∈ (ofTree id name source tree).file.allMessages) :
    MessageStands id (ofTree id name source tree).file.allMessages (filePlace id tree) own := by
  rcases Array.mem_iff_getElem?.mp member with ⟨index, present⟩
  rcases (stands_fileState id name source tree).message index own present with absent | stands
  · simp at absent
  · exact stands

theorem leads_message {own : Message}
    (member : own ∈ (ofTree id name source tree).file.allMessages) :
    (ofTree id name source tree).file.Leads own.parent := by
  rcases messageStands_ofTree id name source tree member with ⟨outer, nesting, -⟩
  exact Nesting.leads nesting

theorem dotted_message {own : Message}
    (member : own ∈ (ofTree id name source tree).file.allMessages) :
    own.fullName.toList.head? = some '.' := by
  rcases messageStands_ofTree id name source tree member with ⟨outer, nesting, named, -⟩
  rcases Option.map_eq_some_iff.mp named with ⟨first, isFirst, equal⟩
  rw [← equal]
  exact dotted_append (nesting.dotted (dotted_packageScope (filePackage tree)) first
    (List.mem_of_mem_head? isFirst)) own.name

/-- Each number of a file is listed at a place that leads to the file. -/
theorem exists_placed {child : Child}
    (member : child ∈ (ofTree id name source tree).file.numbers) :
    ∃ parent nested namespaceName listed,
      Placed id (ofTree id name source tree).file.numbered parent nested namespaceName listed ∧
        child ∈ listed.children ∧ (ofTree id name source tree).file.Leads parent ∧
        namespaceName.toList.head? = some '.' := by
  rcases placed_ofTree id name source tree with ⟨top, inside⟩
  have listed := (children_perm id name source tree).mem_iff.mpr member
  rcases List.mem_append.mp listed with atTop | below
  · exact ⟨_, _, _, _, top, atTop, .file, dotted_packageNamespace _⟩
  · rcases List.mem_flatMap.mp below with ⟨message, inFile, inMessage⟩
    have inFile := Array.mem_toList_iff.mp inFile
    rcases Array.mem_iff_getElem?.mp inFile with ⟨index, present⟩
    exact ⟨_, _, _, _, inside index message present, inMessage,
      .message present (leads_message id name source tree inFile),
      dotted_append (dotted_message id name source tree inFile) "."⟩

theorem leads_enum {own : Enum} (member : own ∈ (ofTree id name source tree).file.allEnums) :
    (ofTree id name source tree).file.Leads own.parent ∧
      own.fullName.toList.head? = some '.' := by
  rcases Array.mem_iff_getElem?.mp member with ⟨index, present⟩
  have bound := (Array.getElem?_eq_some_iff.mp present).1
  have number : Child.enum ⟨id, index⟩ ∈ (ofTree id name source tree).file.numbers := by
    simp only [ProtoFile.numbers, List.mem_append, List.mem_map, List.mem_range]
    exact .inl (.inr ⟨index, bound, rfl⟩)
  -- The number is listed somewhere, and what is listed there under it is this enum.
  rcases exists_placed id name source tree number with
    ⟨parent, nested, namespaceName, listed, placed, inList, leads, dot⟩
  have inEnums : ⟨id, index⟩ ∈ listed.enums := by simpa [Listed.children] using inList
  rcases placed.enum _ inEnums with ⟨-, found, here, stands, -, named⟩
  cases present.symm.trans here
  rw [stands, named]
  exact ⟨leads, dotted_append dot own.name⟩

theorem leads_extension {own : Extension}
    (member : own ∈ (ofTree id name source tree).file.allExtensions) :
    (ofTree id name source tree).file.Leads own.parent := by
  rcases Array.mem_iff_getElem?.mp member with ⟨index, present⟩
  have bound := (Array.getElem?_eq_some_iff.mp present).1
  have number : Child.extension ⟨id, index⟩ ∈ (ofTree id name source tree).file.numbers := by
    simp only [ProtoFile.numbers, List.mem_append, List.mem_map, List.mem_range]
    exact .inr ⟨index, bound, rfl⟩
  rcases exists_placed id name source tree number with
    ⟨parent, nested, namespaceName, listed, placed, inList, leads, dot⟩
  have inExtensions : ⟨id, index⟩ ∈ listed.extensions := by
    simpa [Listed.children] using inList
  rcases placed.extension _ inExtensions with ⟨-, found, here, stands, -⟩
  cases present.symm.trans here
  rw [stands]
  exact leads

theorem services_ofTree {service : ServiceId}
    (member : service ∈ (ofTree id name source tree).file.services) : service.file = id ∧
    ∃ own, (ofTree id name source tree).file.allServices[service.index]? = some own ∧
      own.fullName = packageNamespace (filePackage tree) ++ own.name := by
  rw [file_ofTree] at member ⊢
  rcases List.mem_map.mp member with ⟨index, inRange, rfl⟩
  have bound := List.mem_range.mp inRange
  refine ⟨rfl, (fileServices id name source tree)[index], ?_, ?_⟩
  · simp only [List.getElem?_toArray, List.getElem?_eq_getElem bound]
  · rcases List.mem_map.mp (List.getElem_mem bound) with ⟨declared, -, same⟩
    rw [← same]
    rfl

theorem dotted_ofTree {declared : DeclaredName}
    (member : declared ∈ (ofTree id name source tree).file.declaredNames) :
    declared.fullName.toList.head? = some '.' := by
  rw [ProtoFile.declaredNames, List.mem_append, List.mem_append] at member
  rcases member with (member | member) | member <;>
    rcases List.mem_map.mp member with ⟨⟨own, index⟩, inList, rfl⟩ <;>
    have held := List.mk_mem_zipIdx_iff_getElem?.mp inList <;>
    have inFile := Array.mem_toList_iff.mp (List.mem_of_getElem? held)
  · exact dotted_message id name source tree inFile
  · exact (leads_enum id name source tree inFile).2
  · rw [file_ofTree, List.mem_toArray, fileServices] at inFile
    rcases List.mem_map.mp inFile with ⟨service, -, rfl⟩
    exact dotted_append (dotted_packageNamespace _) _

/-- In a draft, names, parents and namespaces follow the nesting. -/
theorem nests_ofTree : (ofTree id name source tree).file.Nests where
  top := (placed_ofTree id name source tree).1
  inside := (placed_ofTree id name source tree).2
  service _ member := services_ofTree id name source tree member
  serviceIds := by
    rw [file_ofTree, List.size_toArray]
  listed := children_perm id name source tree
  distinct := nodup_numbers _
  named _ member := dotted_ofTree id name source tree member
  messageLeads _ member := leads_message id name source tree member
  enumLeads _ member := (leads_enum id name source tree member).1
  extensionLeads _ member := leads_extension id name source tree member

end

end Draft

end ProtoSchema
