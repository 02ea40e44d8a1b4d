import ProtoSchema.Proofs.Compiler.ExtensionNumbers
import ProtoSchema.Proofs.Compiler.NameLookup
/-! # Pairs of extension fields

An extension field must share its number neither with a field of its message nor with another
extension field that its file sees for the message. Of two fields of one file the validator
finds the pair at the later field only. It still allows exactly the files without such a pair,
and otherwise reports the first field whose number is taken.
-/

namespace ProtoSchema

/-! ## First finds -/

theorem exists_first_of_findSome?_zipIdx {α β : Type} {values : List α}
    {search : α × Nat → Option β} {result : β}
    (found : values.zipIdx.findSome? search = some result) :
    ∃ (index : Nat) (value : α), values[index]? = some value ∧
      search (value, index) = some result ∧
      ∀ earlier < index, ∀ other, values[earlier]? = some other →
        search (other, earlier) = none := by
  rcases List.findSome?_eq_some_iff.mp found with ⟨front, ⟨value, index⟩, back, order, hit, clear⟩
  have numbered : ∀ (other : α × Nat) position, values.zipIdx[position]? = some other →
      values[position]? = some other.1 ∧ other.2 = position := by
    intro other position held
    rw [List.getElem?_zipIdx, Option.map_eq_some_iff] at held
    rcases held with ⟨entry, held, rfl⟩
    exact ⟨held, Nat.zero_add position⟩
  rcases numbered (value, index) front.length (by simp [order]) with ⟨held, rfl⟩
  refine ⟨front.length, value, held, hit, fun earlier before other inValues => ?_⟩
  have inFront : (other, earlier) ∈ front := by
    apply List.mem_of_getElem?
    rw [← List.getElem?_append_left before, ← order, List.getElem?_zipIdx, inValues]
    simp
  exact clear _ inFront

/-- A search through a list with positions gives the first result that there is. -/
theorem findSome?_zipIdx_eq_some_iff {α β : Type} {values : List α}
    {search : α × Nat → Option β} {result : β} :
    values.zipIdx.findSome? search = some result ↔
      ∃ (index : Nat) (value : α), values[index]? = some value ∧
        search (value, index) = some result ∧
        ∀ earlier < index, ∀ other, values[earlier]? = some other →
          search (other, earlier) = none := by
  refine ⟨exists_first_of_findSome?_zipIdx, ?_⟩
  rintro ⟨index, value, held, hit, clear⟩
  cases found : values.zipIdx.findSome? search with
  | none =>
      have miss := List.findSome?_eq_none_iff.mp found (value, index)
        (List.mk_mem_zipIdx_iff_getElem?.mpr held)
      rw [hit] at miss
      cases miss
  | some other =>
      rcases exists_first_of_findSome?_zipIdx found with
        ⟨first, firstValue, heldFirst, hitFirst, clearFirst⟩
      rcases Nat.lt_trichotomy index first with before | rfl | after
      · rw [clearFirst index before value held] at hit
        cases hit
      · rw [← hit, ← hitFirst, Option.some.inj (held.symm.trans heldFirst)]
      · rw [clear first after firstValue heldFirst] at hitFirst
        cases hitFirst

theorem find?_eq_some_iff_getElem? {α : Type} {values : List α} {test : α → Bool} {value : α} :
    values.find? test = some value ↔
      ∃ index : Nat, values[index]? = some value ∧ test value = true ∧
        ∀ between < index, ∀ other, values[between]? = some other → test other = false := by
  rw [List.find?_eq_some_iff_getElem]
  constructor
  · rintro ⟨hit, index, bound, rfl, clear⟩
    refine ⟨index, List.getElem?_eq_getElem bound, hit, fun between before other held => ?_⟩
    rcases List.getElem?_eq_some_iff.mp held with ⟨_, rfl⟩
    simpa using clear between before
  · rintro ⟨index, held, hit, clear⟩
    rcases List.getElem?_eq_some_iff.mp held with ⟨bound, rfl⟩
    refine ⟨hit, index, bound, rfl, fun between before => ?_⟩
    rw [clear between before _ (List.getElem?_eq_getElem (Nat.lt_trans before bound))]
    rfl

/-! ## Places of extension fields -/

namespace Schema

variable (schema : Schema)

/-- A field stands at a place of an extend block. -/
def HasField (place : ExtensionId × Nat) (block : Extension) (field : Field) : Prop :=
  schema.extension? place.1 = some block ∧ block.fields[place.2]? = some field

/-- The field at a place extends a message. -/
def FieldExtends (place : ExtensionId × Nat) (field : Field) (message : Message) : Prop :=
  ∃ block target, schema.HasField place block field ∧ block.extendee = some target ∧
    schema.message? target = some message

/-- The number of an extension field for a message is taken, and this is the name of what has
it: the first field of the message with the number, or else the first of the extension fields
that the file sees for the message and that are not later in the file. -/
inductive Taken (message : Message) (place : ExtensionId × Nat) (number : Int) : String → Prop
  | declared {front back : List Field} {field : Field}
      (order : message.fields = front ++ field :: back) (same : field.number = number)
      (first : ∀ other ∈ front, other.number ≠ number) :
      Taken message place number (message.fullName ++ "." ++ field.name)
  | extension {front back : List ExtensionId} {other : ExtensionId × Nat} {block : Extension}
      {field : Field} (undeclared : ∀ field ∈ message.fields, field.number ≠ number)
      (order : schema.extensions place.1.file message.fullName = front ++ other.1 :: back)
      (held : schema.HasField other block field) (same : field.number = number)
      (notLater : NotLater other place)
      (first : ∀ between block field, between.1 ∈ front ∨
        between.1 = other.1 ∧ between.2 < other.2 → NotLater between place →
        schema.HasField between block field → field.number ≠ number) :
      Taken message place number (block.fieldFullName field)

/-- No extension field of a file has the number of a field of its message or of another
extension field that the file sees for the message. -/
structure NumbersFree (id : FileId) : Prop where
  declared : ∀ place field message, place.1.file = id → schema.FieldExtends place field message →
    ∀ other ∈ message.fields, other.number ≠ field.number
  extension : ∀ place field message, place.1.file = id →
    schema.FieldExtends place field message → ∀ other otherBlock otherField,
    other.1 ∈ schema.extensions id message.fullName → other ≠ place →
    schema.HasField other otherBlock otherField → otherField.number ≠ field.number

/-- The numbers of a file are judged: nothing is wrong if they are free, and otherwise the
first field whose number is taken has the error. So if both fields of a pair stand in the file,
the later one has the error and the earlier one is named. -/
structure NumbersJudged (id : FileId) (loaded : LoadedFile) (result : Except LoadError Unit) :
    Prop where
  ok_iff : result = .ok () ↔ schema.NumbersFree id
  error_iff : ∀ error, result = .error error ↔
    ∃ place field message name, place.1.file = id ∧ schema.FieldExtends place field message ∧
      schema.Taken message place field.number name ∧
      (∀ earlier field message name, earlier.1.file = id → DeclaredBefore earlier place →
        schema.FieldExtends earlier field message →
        ¬ schema.Taken message earlier field.number name) ∧
      error = .check ⟨.duplicateExtensionNumber field.number message.fullName name, field.span⟩
        loaded.file.name loaded.source

end Schema

/-! ## What the check finds -/

namespace Check

variable {schema : Schema} {id otherId : ExtensionId} {position : Nat} {number : Int}

theorem find?_earlierFields_eq_some_iff {other : Extension} {field : Field} :
    (earlierFields id position otherId other).find? (·.number == number) = some field ↔
      ∃ index, other.fields[index]? = some field ∧ field.number = number ∧
        NotLater (otherId, index) (id, position) ∧
        ∀ between < index, ∀ otherField, other.fields[between]? = some otherField →
          otherField.number ≠ number := by
  rcases exists_earlierFields_eq_take id position otherId other with ⟨count, equal, before_iff⟩
  simp only [equal, find?_eq_some_iff_getElem?, getElem?_take_eq_some_iff, beq_iff_eq,
    beq_eq_false_iff_ne]
  refine exists_congr fun index => ?_
  constructor
  · rintro ⟨⟨counted, held⟩, same, clear⟩
    have notLater := (before_iff index (List.getElem?_eq_some_iff.mp held).1).mp counted
    exact ⟨held, same, notLater, fun between before otherField inBlock =>
      clear between before otherField ⟨Nat.lt_trans before counted, inBlock⟩⟩
  · rintro ⟨held, same, notLater, clear⟩
    have counted := (before_iff index (List.getElem?_eq_some_iff.mp held).1).mpr notLater
    exact ⟨⟨counted, held⟩, same, fun between before otherField inBlock =>
      clear between before otherField inBlock.2⟩

theorem clash?_eq_some_iff {name : String} :
    clash? schema id position number otherId = some name ↔
      ∃ block field index, schema.HasField (otherId, index) block field ∧
        field.number = number ∧ NotLater (otherId, index) (id, position) ∧
        (∀ between < index, ∀ otherField, block.fields[between]? = some otherField →
          otherField.number ≠ number) ∧
        block.fieldFullName field = name := by
  simp only [clash?, Option.bind_eq_bind, Option.bind_eq_some_iff, Option.pure_def,
    Option.some.injEq, find?_earlierFields_eq_some_iff, Schema.HasField]
  constructor
  · rintro ⟨block, held, field, ⟨index, inBlock, same, notLater, clear⟩, rfl⟩
    exact ⟨block, field, index, ⟨held, inBlock⟩, same, notLater, clear, rfl⟩
  · rintro ⟨block, field, index, ⟨held, inBlock⟩, same, notLater, clear, rfl⟩
    exact ⟨block, held, field, ⟨index, inBlock, same, notLater, clear⟩, rfl⟩

theorem clash?_eq_none_iff_forall_place :
    clash? schema id position number otherId = none ↔
      ∀ index block field, schema.HasField (otherId, index) block field →
        NotLater (otherId, index) (id, position) → field.number ≠ number := by
  simp only [clash?_eq_none_iff, mem_earlierFields_iff, Schema.HasField]
  constructor
  · rintro clear index block field ⟨held, inBlock⟩ notLater
    exact clear block held field ⟨index, inBlock, notLater⟩
  · rintro clear block held field ⟨index, inBlock, notLater⟩
    exact clear index block field ⟨held, inBlock⟩ notLater

/-- The search through blocks comes to the first field that clashes. -/
theorem findSome?_clash?_eq_some_iff {blocks : List ExtensionId} {name : String} :
    blocks.findSome? (clash? schema id position number) = some name ↔
      ∃ front back other block field, blocks = front ++ other.1 :: back ∧
        schema.HasField other block field ∧ field.number = number ∧
        NotLater other (id, position) ∧
        (∀ between block field, between.1 ∈ front ∨ between.1 = other.1 ∧ between.2 < other.2 →
          NotLater between (id, position) → schema.HasField between block field →
          field.number ≠ number) ∧
        block.fieldFullName field = name := by
  rw [List.findSome?_eq_some_iff]
  constructor
  · rintro ⟨front, otherId, back, order, clash, clear⟩
    rcases clash?_eq_some_iff.mp clash with
      ⟨block, field, index, held, same, notLater, first, named⟩
    refine ⟨front, back, (otherId, index), block, field, order, held, same, notLater, ?_, named⟩
    rintro ⟨between, betweenIndex⟩ betweenBlock betweenField (inFront | ⟨sameBlock, before⟩)
      betweenNotLater betweenHeld
    · exact clash?_eq_none_iff_forall_place.mp (clear between inFront) betweenIndex betweenBlock
        betweenField betweenHeld betweenNotLater
    · cases sameBlock
      cases Option.some.inj (held.1.symm.trans betweenHeld.1)
      exact first betweenIndex before betweenField betweenHeld.2
  · rintro ⟨front, back, ⟨otherId, index⟩, block, field, order, held, same, notLater, first, named⟩
    refine ⟨front, otherId, back, order, ?_, fun between inFront => ?_⟩
    · refine clash?_eq_some_iff.mpr ⟨block, field, index, held, same, notLater, ?_, named⟩
      intro between before otherField inBlock
      -- What stands before a field that is not later is not later either.
      have betweenNotLater : NotLater (otherId, between) (id, position) := by
        intro sameFile
        rcases notLater sameFile with earlierBlock | ⟨sameIndex, earlier⟩
        · exact .inl earlierBlock
        · exact .inr ⟨sameIndex, Nat.lt_trans before earlier⟩
      exact first (otherId, between) block otherField (.inr ⟨rfl, before⟩) betweenNotLater
        ⟨held.1, inBlock⟩
    · refine clash?_eq_none_iff_forall_place.mpr fun betweenIndex block field held notLater => ?_
      exact first (between, betweenIndex) block field (.inl inFront) notLater held

theorem field?_eq_some_iff {message : Message} {field : Field} :
    message.field? number = some field ↔ ∃ front back, message.fields = front ++ field :: back ∧
      field.number = number ∧ ∀ other ∈ front, other.number ≠ number := by
  rw [Message.field?, List.find?_eq_some_iff_append]
  simp only [beq_iff_eq, Bool.not_eq_true', beq_eq_false_iff_ne]
  constructor
  · rintro ⟨same, front, back, order, first⟩
    exact ⟨front, back, order, same, first⟩
  · rintro ⟨front, back, order, same, first⟩
    exact ⟨same, front, back, order, first⟩

/-- The check names what has the number of a field. -/
theorem taken?_eq_some_iff {message : Message} {field : Field} {name : String}
    (qualified : qualify message.fullName = message.fullName) :
    taken? schema message (schema.visibleExtensions id.file message.fullName) id position field =
        some name ↔
      schema.Taken message (id, position) field.number name := by
  have visible : schema.extensions id.file message.fullName =
      schema.visibleExtensions id.file message.fullName := by
    rw [Schema.extensions, qualified]
  rw [taken?]
  cases declared : message.field? field.number with
  | some other =>
      rcases field?_eq_some_iff.mp declared with ⟨front, back, order, same, first⟩
      rw [Option.some.injEq]
      constructor
      · rintro rfl
        exact .declared order same first
      · rintro (⟨otherOrder, otherSame, otherFirst⟩ | ⟨undeclared⟩)
        · have found := field?_eq_some_iff.mpr ⟨_, _, otherOrder, otherSame, otherFirst⟩
          rw [Option.some.inj (declared.symm.trans found)]
        · exact absurd same (undeclared other (by simp [order]))
  | none =>
      have undeclared : ∀ other ∈ message.fields, other.number ≠ field.number := by
        simpa [Message.field?] using declared
      simp only [findSome?_clash?_eq_some_iff, ← visible]
      constructor
      · rintro ⟨front, back, other, block, otherField, order, held, same, notLater, first, rfl⟩
        exact .extension undeclared order held same notLater first
      · rintro (⟨order, same, first⟩ | ⟨undeclared, order, held, same, notLater, first⟩)
        · exact absurd same (undeclared _ (by simp [order]))
        · exact ⟨_, _, _, _, _, order, held, same, notLater, first, rfl⟩

end Check

namespace Schema

variable {schema : Schema}

/-! ## Blocks -/

theorem fieldExtends_iff {id : ExtensionId} {block : Extension}
    (held : schema.extension? id = some block) {position : Nat} {field : Field}
    {message : Message} :
    schema.FieldExtends (id, position) field message ↔
      block.fields[position]? = some field ∧
        block.extendee.bind schema.message? = some message := by
  rw [Option.bind_eq_some_iff]
  constructor
  · rintro ⟨other, target, ⟨found, inBlock⟩, linked⟩
    cases Option.some.inj (held.symm.trans found)
    exact ⟨inBlock, target, linked⟩
  · rintro ⟨inBlock, target, linked⟩
    exact ⟨block, target, ⟨held, inBlock⟩, linked⟩

namespace Settled

variable (settled : schema.Settled fun _ => True)
include settled

theorem qualify_fullName {block : Extension} {message : Message}
    (linked : block.extendee.bind schema.message? = some message) :
    qualify message.fullName = message.fullName := by
  rcases Option.bind_eq_some_iff.mp linked with ⟨target, -, found⟩
  have named : schema.fullName? (.message target) = some message.fullName := by
    rw [fullName?, found, Option.map_some]
  rcases (settled.rooted named).exists_qualify with ⟨_, _, qualified, _⟩
  exact qualified

/-- A block has an error if the number of a field is taken, at the first such field. -/
theorem numberError?_eq_some_iff {id : ExtensionId} {block : Extension} {error : CheckError}
    (held : schema.extension? id = some block) :
    Check.numberError? schema id block = some error ↔
      ∃ position field message name, schema.FieldExtends (id, position) field message ∧
        schema.Taken message (id, position) field.number name ∧
        (∀ earlier < position, ∀ field message name,
          schema.FieldExtends (id, earlier) field message →
          ¬ schema.Taken message (id, earlier) field.number name) ∧
        error = ⟨.duplicateExtensionNumber field.number message.fullName name, field.span⟩ := by
  rw [Check.numberError?, Option.bind_eq_bind, Option.bind_eq_some_iff]
  constructor
  · rintro ⟨message, linked, found⟩
    have qualified := settled.qualify_fullName linked
    rcases findSome?_zipIdx_eq_some_iff.mp found with ⟨position, field, inBlock, hit, clear⟩
    rcases Option.map_eq_some_iff.mp hit with ⟨name, named, rfl⟩
    refine ⟨position, field, message, name, (fieldExtends_iff held).mpr ⟨inBlock, linked⟩,
      (Check.taken?_eq_some_iff qualified).mp named, ?_, rfl⟩
    intro earlier before other otherMessage otherName extended taken
    rcases (fieldExtends_iff held).mp extended with ⟨inOther, otherLinked⟩
    cases Option.some.inj (linked.symm.trans otherLinked)
    have miss := clear earlier before other inOther
    rw [Option.map_eq_none_iff, (Check.taken?_eq_some_iff qualified).mpr taken] at miss
    cases miss
  · rintro ⟨position, field, message, name, extended, taken, clear, rfl⟩
    rcases (fieldExtends_iff held).mp extended with ⟨inBlock, linked⟩
    have qualified := settled.qualify_fullName linked
    refine ⟨message, linked, findSome?_zipIdx_eq_some_iff.mpr ⟨position, field, inBlock, ?_, ?_⟩⟩
    · simp only [(Check.taken?_eq_some_iff qualified).mpr taken, Option.map_some]
    · intro earlier before other inOther
      rw [Option.map_eq_none_iff, Option.eq_none_iff_forall_ne_some]
      intro otherName named
      exact clear earlier before other message otherName
        ((fieldExtends_iff held).mpr ⟨inOther, linked⟩)
        ((Check.taken?_eq_some_iff qualified).mp named)

theorem numberError?_eq_none_iff {id : ExtensionId} {block : Extension}
    (held : schema.extension? id = some block) :
    Check.numberError? schema id block = none ↔
      ∀ position field message name, schema.FieldExtends (id, position) field message →
        ¬ schema.Taken message (id, position) field.number name := by
  constructor
  · intro clear position field message name extended taken
    rcases (fieldExtends_iff held).mp extended with ⟨inBlock, linked⟩
    rcases Option.bind_eq_some_iff.mp linked with ⟨target, extendee, found⟩
    have free := (Check.numberError?_eq_none_iff extendee found).mp clear position field inBlock
    rw [(Check.taken?_eq_some_iff (settled.qualify_fullName linked)).mpr taken] at free
    cases free
  · intro clear
    rw [Option.eq_none_iff_forall_ne_some]
    intro error found
    rcases (settled.numberError?_eq_some_iff held).mp found with
      ⟨position, field, message, name, extended, taken, -⟩
    exact clear position field message name extended taken

/-! ## Files -/

/-- A file passes if its numbers are free. Of two fields of the file only the later one is
compared with the other. -/
theorem numbersPass_iff_numbersFree {id : FileId} (present : id < schema.files.size) :
    schema.NumbersPass id ↔ schema.NumbersFree id := by
  constructor
  · intro passes
    refine ⟨?_, ?_⟩
    · rintro place field message rfl ⟨block, target, ⟨held, inBlock⟩, extendee, found⟩
      have free := passes.field?_eq_none held extendee found (List.mem_of_getElem? inBlock)
      simpa [Message.field?] using free
    · rintro place field message rfl ⟨block, target, ⟨held, inBlock⟩, extendee, found⟩ other
        otherBlock otherField visible different ⟨heldOther, inOther⟩ same
      have linked : block.extendee.bind schema.message? = some message := by
        rw [extendee, Option.bind_some, found]
      rw [extensions, settled.qualify_fullName linked,
        settled.mem_visibleExtensions_iff present] at visible
      have has : schema.HasNumber message.fullName place field.number :=
        ⟨⟨block, target, message, held, extendee, found, rfl⟩, block, field, held, inBlock, rfl⟩
      have otherHas : schema.HasNumber message.fullName other field.number :=
        ⟨visible.2, otherBlock, otherField, heldOther, inOther, same⟩
      exact different (settled.eq_of_hasNumber passes has otherHas visible.1).symm
  · intro free block extension inFile held
    refine (settled.numberError?_eq_none_iff held).mpr ?_
    intro position field message name extended taken
    cases taken with
    | declared order same first =>
        exact free.declared _ field message inFile extended _ (by simp [order]) same
    | @extension front back other otherBlock otherField undeclared order heldOther same notLater =>
        refine free.extension _ field message inFile extended other otherBlock otherField ?_ ?_
          heldOther same
        · rw [← inFile, order]
          simp
        · rintro rfl
          exact not_notLater_self _ notLater

end Settled

end Schema

namespace Validator

section Judgment

variable {schema : Schema} (settled : schema.Settled fun _ => True) {id : FileId}
  {loaded : LoadedFile} (present : schema.files[id]? = some loaded)
include settled present

/-- The validator reports the first field of a file whose number is taken. -/
theorem extensionNumbers_eq_error_iff {error : LoadError} :
    extensionNumbers schema id = .error error ↔
      ∃ place field message name, place.1.file = id ∧ schema.FieldExtends place field message ∧
        schema.Taken message place field.number name ∧
        (∀ earlier field message name, earlier.1.file = id → DeclaredBefore earlier place →
          schema.FieldExtends earlier field message →
          ¬ schema.Taken message earlier field.number name) ∧
        error = .check
          ⟨.duplicateExtensionNumber field.number message.fullName name, field.span⟩
          loaded.file.name loaded.source := by
  have inFile_iff : ∀ (index : Nat) block, loaded.file.allExtensions.toList[index]? = some block ↔
      schema.extension? ⟨id, index⟩ = some block := by
    intro index block
    rw [Array.getElem?_toList, Schema.extension?_of_getElem? present]
  rcases settled.files present with ⟨file, -, own⟩
  rw [extensionNumbers, ofSearch_eq_error_iff present]
  simp only [findSome?_zipIdx_eq_some_iff, inFile_iff, own.id_eq]
  constructor
  · rintro ⟨fault, ⟨index, block, held, hit, clear⟩, rfl⟩
    rcases (settled.numberError?_eq_some_iff held).mp hit with
      ⟨position, field, message, name, extended, taken, first, rfl⟩
    refine ⟨(⟨id, index⟩, position), field, message, name, rfl, extended, taken, ?_, rfl⟩
    rintro ⟨⟨_, earlier⟩, earlierPosition⟩ other otherMessage otherName rfl before otherExtended
    rcases before with earlierBlock | ⟨sameBlock, before⟩
    · rcases otherExtended with ⟨otherBlock, target, ⟨heldOther, inOther⟩, linked⟩
      exact (settled.numberError?_eq_none_iff heldOther).mp
        (clear earlier earlierBlock otherBlock heldOther) earlierPosition other otherMessage
        otherName ⟨otherBlock, target, ⟨heldOther, inOther⟩, linked⟩
    · cases sameBlock
      exact first earlierPosition before other otherMessage otherName otherExtended
  · rintro ⟨⟨⟨_, index⟩, position⟩, field, message, name, rfl, extended, taken, first, rfl⟩
    rcases id extended with ⟨block, target, ⟨held, inBlock⟩, linked⟩
    refine ⟨_, ⟨index, block, held, (settled.numberError?_eq_some_iff held).mpr
      ⟨position, field, message, name, extended, taken, ?_, rfl⟩, ?_⟩, rfl⟩
    · intro earlier before other otherMessage otherName
      exact first (_, earlier) other otherMessage otherName rfl (.inr ⟨rfl, before⟩)
    · intro earlier before otherBlock heldOther
      refine (settled.numberError?_eq_none_iff heldOther).mpr ?_
      intro otherPosition other otherMessage otherName
      exact first (_, otherPosition) other otherMessage otherName rfl (.inl before)

/-- The validator of extension numbers judges the pairs of a file by their numbers. -/
theorem extensionNumbers_judged :
    schema.NumbersJudged id loaded (extensionNumbers schema id) where
  ok_iff := by
    rcases settled.files present with ⟨file, -, own⟩
    rw [Schema.validated_iff_numbersPass present own.id_eq]
    exact settled.numbersPass_iff_numbersFree (Schema.lt_size_of_getElem? present)
  error_iff _ := extensionNumbers_eq_error_iff settled present

end Judgment

/-- Of two blocks in one file the later one has the error, and the field of the earlier one is
named. -/
theorem extensionNumbers_judged_blocks :
    let source := "message M\x7bextensions 1 to 9;\x7dextend M\x7boptional int32 a=1;\x7d" ++
      "extend M\x7boptional int32 b=1;\x7d"
    ∃ file loaded, SourceFile.ofSource "a.proto" source = .ok file ∧
      ({} : Rules).link {} file true = .ok loaded ∧
      (({} : Schema).push loaded).NumbersJudged 0 loaded
        (extensionNumbers (({} : Schema).push loaded) 0) ∧
      extensionNumbers (({} : Schema).push loaded) 0 =
        .error (.check ⟨.duplicateExtensionNumber 1 ".M" ".a", ⟨82, 83⟩⟩ "a.proto" source) := by
  intro source
  rcases @Rules.link_of_computed
    (fun loaded => extensionNumbers (({} : Schema).push loaded) 0 =
      .error (.check ⟨.duplicateExtensionNumber 1 ".M" ".a", ⟨82, 83⟩⟩ "a.proto" source))
    _ (SourceFile.ofSource "a.proto" source) {} true (by decide +kernel) with
    ⟨file, loaded, opened, linked, failed⟩
  have settled : (({} : Schema).push loaded).Settled fun _ => True :=
    Schema.Settled.empty.add trivial (Rules.link_eq_ok linked)
  exact ⟨file, loaded, opened, linked,
    extensionNumbers_judged settled (Schema.getElem?_push_size {} loaded), failed⟩

end Validator

end ProtoSchema
