import ProtoSchema.Proofs.Compiler.Evaluation
import ProtoSchema.Proofs.Compiler.Gathering
/-! # Numbers of extension fields

The validator of extension numbers compares the fields of a file with those in the
files that it gathers. Two extension fields of a message therefore differ in their
numbers if one of their files gathers the other. Of two files that do not gather each
other nothing is compared, not even when a third file gathers both of them.
-/

namespace ProtoSchema

/-! ## What the check says of one block -/

namespace Check

theorem clash?_eq_none_iff {schema : Schema} {id otherId : ExtensionId} {position : Nat}
    {number : Int} :
    clash? schema id position number otherId = none ↔
      ∀ other, schema.extension? otherId = some other →
        ∀ field ∈ earlierFields id position otherId other, field.number ≠ number := by
  rw [clash?]
  cases schema.extension? otherId with
  | none => simp
  | some other =>
      simp only [Option.bind_eq_bind, Option.bind_some, Option.some.injEq, forall_eq']
      cases found : (earlierFields id position otherId other).find? (·.number == number) with
      | none => simpa using found
      | some field =>
          have member := List.mem_of_find?_eq_some found
          have equal := List.find?_some found
          simp only [Option.bind_some, Option.pure_def, reduceCtorEq, false_iff]
          exact fun differ => differ field member (beq_iff_eq.mp equal)

theorem taken?_eq_none_iff {schema : Schema} {extendee : Message} {visible : List ExtensionId}
    {id : ExtensionId} {position : Nat} {field : Field} :
    taken? schema extendee visible id position field = none ↔
      extendee.field? field.number = none ∧
        ∀ other ∈ visible, clash? schema id position field.number other = none := by
  rw [taken?]
  cases extendee.field? field.number <;> simp

/-- A block passes if no field of it has the number of a field of its message, or of an
earlier field in a block that the file sees. -/
theorem numberError?_eq_none_iff {schema : Schema} {id : ExtensionId} {extension : Extension}
    {target : MessageId} {message : Message} (extendee : extension.extendee = some target)
    (found : schema.message? target = some message) :
    numberError? schema id extension = none ↔
      ∀ (position : Nat) field, extension.fields[position]? = some field →
        taken? schema message (schema.visibleExtensions id.file message.fullName) id position
          field = none := by
  simp only [numberError?, extendee, found, Option.bind_eq_bind, Option.bind_some,
    List.findSome?_eq_none_iff, Prod.forall, List.mk_mem_zipIdx_iff_getElem?,
    Option.map_eq_none_iff]
  exact forall_comm

/-- The check of a block reads the message of the block and the blocks that the file
sees. -/
theorem numberError?_congr {left right : Schema} {id : ExtensionId} {extension : Extension}
    (sameMessage : ∀ target, extension.extendee = some target →
      left.message? target = right.message? target)
    (sameVisible : left.visibleExtensions id.file = right.visibleExtensions id.file)
    (sameBlocks : ∀ fullName, ∀ other ∈ right.visibleExtensions id.file fullName,
      left.extension? other = right.extension? other) :
    numberError? left id extension = numberError? right id extension := by
  rw [numberError?, numberError?, sameVisible]
  cases extendee : extension.extendee with
  | none => rfl
  | some target =>
      rw [Option.bind_some, Option.bind_some, sameMessage target extendee]
      cases right.message? target with
      | none => rfl
      | some message =>
          apply findSome?_congr
          intro entry _
          have clashes : (right.visibleExtensions id.file message.fullName).findSome?
                (clash? left id entry.2 entry.1.number) =
              (right.visibleExtensions id.file message.fullName).findSome?
                (clash? right id entry.2 entry.1.number) := by
            apply findSome?_congr
            intro other member
            rw [clash?, clash?, sameBlocks message.fullName other member]
          simp only [taken?, clashes]

end Check

/-! ## Which fields count as earlier -/

/-- The places of one file have an order: by the block, and by the position in the block. -/
def DeclaredBefore (earlier later : ExtensionId × Nat) : Prop :=
  earlier.1.index < later.1.index ∨ earlier.1.index = later.1.index ∧ earlier.2 < later.2

/-- A place that is not in the file of another one, or is declared before it. -/
def NotLater (earlier later : ExtensionId × Nat) : Prop :=
  earlier.1.file = later.1.file → DeclaredBefore earlier later

/-- Of two places the second is not later, or they are in one file and the first is not. -/
theorem notLater_or {first second : ExtensionId × Nat} (different : first ≠ second) :
    NotLater second first ∨ first.1.file = second.1.file ∧ NotLater first second := by
  rcases first with ⟨⟨file, index⟩, position⟩
  rcases second with ⟨⟨otherFile, otherIndex⟩, otherPosition⟩
  by_cases sameFile : otherFile = file
  · cases sameFile
    have apart : index ≠ otherIndex ∨ position ≠ otherPosition := by
      by_contra same
      rw [not_or, not_not, not_not] at same
      exact different (by rw [same.1, same.2])
    have ordered : DeclaredBefore (⟨file, otherIndex⟩, otherPosition) (⟨file, index⟩, position) ∨
        DeclaredBefore (⟨file, index⟩, position) (⟨file, otherIndex⟩, otherPosition) := by
      simp only [DeclaredBefore]
      omega
    rcases ordered with before | after
    · exact .inl fun _ => before
    · exact .inr ⟨rfl, fun _ => after⟩
  · exact .inl fun same => absurd same sameFile

theorem not_notLater_self (place : ExtensionId × Nat) : ¬ NotLater place place := by
  intro before
  rcases before rfl with earlier | ⟨-, earlier⟩ <;> exact Nat.lt_irrefl _ earlier

namespace Check

variable {id otherId : ExtensionId} {position : Nat}

/-- The fields of a block that count as earlier are those up to some position. -/
theorem exists_earlierFields_eq_take (id : ExtensionId) (position : Nat) (otherId : ExtensionId)
    (other : Extension) :
    ∃ count, earlierFields id position otherId other = other.fields.take count ∧
      ∀ index < other.fields.length,
        index < count ↔ NotLater (otherId, index) (id, position) := by
  rw [earlierFields]
  split
  · next same =>
      refine ⟨position, rfl, fun index _ => ?_⟩
      simp [NotLater, DeclaredBefore, same]
  · next different =>
      split
      · next later =>
          refine ⟨0, rfl, fun index _ => ?_⟩
          simp only [Nat.not_lt_zero, NotLater, DeclaredBefore, false_iff]
          intro before
          have := before later.1
          omega
      · next notLater =>
          refine ⟨other.fields.length, by rw [List.take_length], fun index bound => ?_⟩
          refine iff_of_true bound fun sameFile => .inl ?_
          have ordered := Nat.le_of_not_lt fun later => notLater ⟨sameFile, later⟩
          refine Nat.lt_of_le_of_ne ordered fun sameIndex => different ?_
          rcases id with ⟨file, block⟩
          rcases otherId with ⟨otherFile, otherBlock⟩
          cases sameFile
          cases sameIndex
          rfl

theorem getElem?_take_eq_some_iff {α : Type} {values : List α} {count index : Nat} {value : α} :
    (values.take count)[index]? = some value ↔ index < count ∧ values[index]? = some value := by
  rw [List.getElem?_take, Option.ite_none_right_eq_some]

theorem mem_earlierFields_iff {other : Extension} {field : Field} :
    field ∈ earlierFields id position otherId other ↔
      ∃ index, other.fields[index]? = some field ∧ NotLater (otherId, index) (id, position) := by
  rcases exists_earlierFields_eq_take id position otherId other with ⟨count, equal, before_iff⟩
  simp only [equal, List.mem_iff_getElem?, getElem?_take_eq_some_iff]
  refine exists_congr fun index => and_comm.trans (and_congr_right fun held => ?_)
  exact before_iff index (List.getElem?_eq_some_iff.mp held).1

end Check

namespace Schema

/-! ## Checked schemas -/

/-- Every extend block of a settled schema passes the check of its numbers. -/
structure NumbersChecked (schema : Schema) : Prop where
  settled : schema.Settled fun _ => True
  checked : ∀ {block : ExtensionId} {extension : Extension},
    schema.extension? block = some extension → Check.numberError? schema block extension = none

/-- The extend blocks of a file pass the check of their numbers. -/
def NumbersPass (schema : Schema) (id : FileId) : Prop :=
  ∀ (block : ExtensionId) extension, block.file = id →
    schema.extension? block = some extension → Check.numberError? schema block extension = none

/-- The validator allows a file whose extend blocks pass. -/
theorem validated_iff_numbersPass {schema : Schema} {id : FileId} {loaded : LoadedFile}
    (present : schema.files[id]? = some loaded) (own : loaded.file.id = id) :
    Validator.extensionNumbers schema id = .ok () ↔ schema.NumbersPass id := by
  rw [Validator.extensionNumbers, Validator.ofSearch_eq_ok_iff present, List.findSome?_eq_none_iff]
  simp only [Prod.forall, List.mk_mem_zipIdx_iff_getElem?, Array.getElem?_toList,
    ← extension?_of_getElem? present, own]
  constructor
  · rintro passes ⟨file, index⟩ extension rfl inFile
    exact passes extension index inFile
  · intro passes extension index inFile
    exact passes ⟨id, index⟩ extension rfl inFile

/-- The check of a block stays the same when another file is added. -/
theorem numberError?_push_of_lt {schema : Schema} (settled : schema.Settled fun _ => True)
    (next : LoadedFile) {block : ExtensionId} {extension : Extension}
    (held : schema.extension? block = some extension) :
    Check.numberError? (schema.push next) block extension =
      Check.numberError? schema block extension := by
  have earlier := lt_size_of_extension? held
  apply Check.numberError?_congr
  · intro target extendee
    have present := Array.getElem?_eq_getElem earlier
    rcases settled.files present with ⟨file, -, own⟩
    have inFile : extension ∈ schema.files[block.file].file.allExtensions := by
      rw [extension?, file?, present] at held
      exact Array.mem_of_getElem? held
    exact message?_push_of_lt schema next
      (Nat.lt_of_le_of_lt (settled.extendee_le own inFile extendee) earlier)
  · funext fullName
    exact visibleExtensions_push_of_lt settled.ordered next earlier fullName
  · intro fullName other member
    rcases (settled.mem_visibleExtensions_iff earlier).mp member with ⟨-, extended⟩
    rcases extended with ⟨otherExtension, _, _, found, -⟩
    exact extension?_push_of_lt schema next (lt_size_of_extension? found)

/-- The check of a block does not depend on whether a file is complete. -/
theorem numberError?_push_congr (schema : Schema) {left right : LoadedFile}
    (sameFile : left.file = right.file) (same : left.collected = right.collected)
    (block : ExtensionId) (extension : Extension) :
    Check.numberError? (schema.push left) block extension =
      Check.numberError? (schema.push right) block extension := by
  have sameFiles := file?_push_congr schema sameFile
  apply Check.numberError?_congr
  · intro target _
    rw [message?, message?, sameFiles]
  · rw [visibleExtensions_push_congr schema same]
  · intro _ other _
    rw [extension?, extension?, sameFiles]

theorem NumbersChecked.preserved {rules : Rules}
    (validates : Validator.extensionNumbers ∈ rules.validators) :
    rules.Preserve NumbersChecked where
  added := by
    intro schema next file isRoot numbers added
    rcases Rules.add_eq_ok_iff.mp added with ⟨loaded, link, validated, rfl⟩
    have linked := Rules.link_eq_ok link
    refine ⟨numbers.settled.add trivial linked.complete, ?_⟩
    intro block extension held
    by_cases earlier : block.file < schema.files.size
    · rw [extension?_push_of_lt schema _ earlier] at held
      rw [numberError?_push_of_lt numbers.settled _ held]
      exact numbers.checked held
    · have bound := lt_size_of_extension? held
      rw [size_push] at bound
      have last : block.file = schema.files.size := Nat.eq_of_lt_succ_of_not_lt bound earlier
      have sameFiles := @file?_push_congr schema { loaded with isComplete := true } loaded rfl
      rw [extension?, sameFiles] at held
      have passed := (validated_iff_numbersPass (getElem?_push_size schema loaded)
        linked.id_eq).mp (validated _ validates) block extension last held
      -- The validator has judged the file when it was not complete yet.
      have same := @numberError?_push_congr schema { loaded with isComplete := true } loaded rfl
        rfl block extension
      exact same.trans passed
  marked := by
    intro schema root numbers
    refine ⟨numbers.settled.markRoot root, ?_⟩
    intro block extension held
    have kept : Check.numberError? (schema.markRoot root) block extension =
        Check.numberError? schema block extension := by
      apply Check.numberError?_congr
      · intro target _
        rw [message?, message?, file?_markRoot]
      · rw [visibleExtensions_markRoot]
      · intro _ other _
        rw [extension?, extension?, file?_markRoot]
    rw [extension?, file?_markRoot] at held
    rw [kept]
    exact numbers.checked held
  forgotten := by
    intro schema name numbers
    refine ⟨numbers.settled.forget name, ?_⟩
    intro block extension held
    have kept : Check.numberError? (schema.forget name) block extension =
        Check.numberError? schema block extension :=
      Check.numberError?_congr (fun _ _ => rfl) (by rw [visibleExtensions_forget])
        fun _ _ _ => rfl
    rw [kept]
    exact numbers.checked held

theorem NumbersChecked.empty : ({} : Schema).NumbersChecked where
  settled := .empty
  checked held := by
    have impossible := lt_size_of_extension? held
    exact absurd impossible (Nat.not_lt_zero _)

/-! ## Numbers that are apart -/

/-- An extend block for messages of a full name has a field with a number at a position. -/
def HasNumber (schema : Schema) (fullName : String) (place : ExtensionId × Nat)
    (number : Int) : Prop :=
  schema.Extends place.1 fullName ∧ ∃ extension field,
    schema.extension? place.1 = some extension ∧
      extension.fields[place.2]? = some field ∧ field.number = number

/-- No two extension fields that a file sees for a message have one number. -/
def NumbersDistinct (schema : Schema) (id : FileId) (extendee : String) : Prop :=
  ∀ place other number, place.1 ∈ schema.extensions id extendee →
    other.1 ∈ schema.extensions id extendee →
    schema.HasNumber (qualify extendee) place number →
    schema.HasNumber (qualify extendee) other number → place = other

/-- Extension fields have numbers of their own, as far as their files gather each other. -/
structure NumbersApart (schema : Schema) : Prop where
  /-- No extension field has the number of a field of its message. -/
  unused : ∀ {block extension target message field},
    schema.extension? block = some extension → extension.extendee = some target →
    schema.message? target = some message → field ∈ extension.fields →
    message.field? field.number = none
  /-- Neither does it have that of another one in a file that its file gathers. -/
  apart : ∀ {fullName place other number},
    schema.HasNumber fullName place number → schema.HasNumber fullName other number →
    schema.Gathers place.1.file other.1.file → place = other
  /-- What a file sees has distinct numbers if, of any two files that it comes from, one
  gathers the other. -/
  distinct : ∀ id extendee,
    (∀ first ∈ schema.extensions id extendee, ∀ second ∈ schema.extensions id extendee,
      schema.Gathers first.file second.file ∨ schema.Gathers second.file first.file) →
    schema.NumbersDistinct id extendee

namespace Settled

variable {schema : Schema} (settled : schema.Settled fun _ => True)
include settled

/-- A field has no number of one that is not later, in a file that its file gathers. -/
theorem ne_of_notLater {fullName : String} {place other : ExtensionId × Nat}
    (passes : schema.NumbersPass place.1.file) (extended : schema.Extends place.1 fullName)
    (otherExtended : schema.Extends other.1 fullName)
    (gathers : schema.Gathers place.1.file other.1.file) {block otherBlock : Extension}
    (held : schema.extension? place.1 = some block)
    (heldOther : schema.extension? other.1 = some otherBlock) {field otherField : Field}
    (inBlock : block.fields[place.2]? = some field)
    (inOther : otherBlock.fields[other.2]? = some otherField) (notLater : NotLater other place) :
    otherField.number ≠ field.number := by
  rcases extended with ⟨_, target, message, heldAgain, extendee, found, rfl⟩
  cases held.symm.trans heldAgain
  have free := (Check.numberError?_eq_none_iff extendee found).mp (passes place.1 _ rfl held)
    place.2 field inBlock
  have visible := (settled.mem_visibleExtensions_iff
    (lt_size_of_extension? held)).mpr ⟨gathers, otherExtended⟩
  have clear := (Check.taken?_eq_none_iff.mp free).2 other.1 visible
  have earlier := Check.mem_earlierFields_iff.mpr ⟨other.2, inOther, notLater⟩
  exact Check.clash?_eq_none_iff.mp clear otherBlock heldOther otherField earlier

/-- If a file passes, its extension fields share their numbers with none that it gathers. -/
theorem eq_of_hasNumber {fullName : String} {place other : ExtensionId × Nat} {number : Int}
    (passes : schema.NumbersPass place.1.file) (has : schema.HasNumber fullName place number)
    (otherHas : schema.HasNumber fullName other number)
    (gathers : schema.Gathers place.1.file other.1.file) : place = other := by
  rcases has with ⟨extended, block, field, held, inBlock, rfl⟩
  rcases otherHas with ⟨otherExtended, otherBlock, otherField, heldOther, inOther, equal⟩
  by_contra different
  rcases notLater_or different with before | ⟨sameFile, after⟩
  · exact settled.ne_of_notLater passes extended otherExtended gathers held heldOther inBlock
      inOther before equal
  · exact settled.ne_of_notLater (sameFile ▸ passes) otherExtended extended (.inl sameFile)
      heldOther held inOther inBlock after equal.symm

end Settled

/-- If a file passes, its extension fields have no number of a field of their message. -/
theorem NumbersPass.field?_eq_none {schema : Schema} {block : ExtensionId}
    (passes : schema.NumbersPass block.file) {extension : Extension} {target : MessageId}
    {message : Message} {field : Field} (held : schema.extension? block = some extension)
    (extendee : extension.extendee = some target) (found : schema.message? target = some message)
    (member : field ∈ extension.fields) : message.field? field.number = none := by
  rcases List.getElem?_of_mem member with ⟨position, inBlock⟩
  have free := (Check.numberError?_eq_none_iff extendee found).mp (passes block _ rfl held)
    position field inBlock
  exact (Check.taken?_eq_none_iff.mp free).1

theorem NumbersChecked.numbersApart {schema : Schema} (numbers : schema.NumbersChecked) :
    schema.NumbersApart := by
  have passes : ∀ id, schema.NumbersPass id := fun id block extension _ held =>
    numbers.checked held
  refine ⟨(passes _).field?_eq_none, numbers.settled.eq_of_hasNumber (passes _), ?_⟩
  intro id extendee related place other number visible otherVisible has otherHas
  rcases related _ visible _ otherVisible with gathers | gathers
  · exact numbers.settled.eq_of_hasNumber (passes _) has otherHas gathers
  · exact (numbers.settled.eq_of_hasNumber (passes _) otherHas has gathers).symm

theorem numbersChecked_run (resolver : Resolver) (operations : List Operation) :
    (Session.run resolver operations).compiler.schema.NumbersChecked :=
  Session.run_preserves (by simp) (fun _ => NumbersChecked.preserved) .empty resolver operations

/-- In every session the numbers of extension fields are apart. -/
theorem numbersApart_run (resolver : Resolver) (operations : List Operation) :
    (Session.run resolver operations).compiler.schema.NumbersApart :=
  (numbersChecked_run resolver operations).numbersApart

/-- A file imports two files that do not gather each other, and sees a number twice for
one message. -/
theorem not_numbersDistinct_siblings :
    let siblings := Resolver.ofMemory
      { sources := [
        ("base.proto", "package base; message M \x7b extensions 100 to 199; \x7d"),
        ("a.proto", "import \"base.proto\"; extend base.M \x7b optional int32 a = 100; \x7d"),
        ("b.proto", "import \"base.proto\"; extend base.M \x7b optional int32 b = 100; \x7d"),
        ("root.proto", "import \"a.proto\"; import \"b.proto\";")] }
    let result := ({ resolver := siblings } : Compiler).openFile ⟨"root.proto"⟩
    let schema := result.2.schema
    result.1 = .ok () ∧ schema.fileNamed? "root.proto" = some 3 ∧
      (∀ block ∈ schema.extensions 3 ".base.M",
        (schema.extension? block).bind Extension.extendee = some ⟨0, 0⟩) ∧
      ¬ schema.NumbersDistinct 3 ".base.M" := by
  intro siblings result schema
  have computed : result.1 = .ok () ∧ schema.fileNamed? "root.proto" = some 3 ∧
      (schema.message? ⟨0, 0⟩).map Message.fullName = some ".base.M" ∧
      schema.extensions 3 ".base.M" = [⟨1, 0⟩, ⟨2, 0⟩] ∧
      ∀ block ∈ schema.extensions 3 ".base.M",
        (schema.extension? block).bind Extension.extendee = some ⟨0, 0⟩ ∧
        (schema.extension? block).map (fun extension => extension.fields.map Field.number) =
          some [100] :=
    @Compiler.openFile_of_computed
      (fun result => result.1 = .ok () ∧
        result.2.schema.fileNamed? "root.proto" = some 3 ∧
        (result.2.schema.message? ⟨0, 0⟩).map Message.fullName = some ".base.M" ∧
        result.2.schema.extensions 3 ".base.M" = [⟨1, 0⟩, ⟨2, 0⟩] ∧
        ∀ block ∈ result.2.schema.extensions 3 ".base.M",
          (result.2.schema.extension? block).bind Extension.extendee = some ⟨0, 0⟩ ∧
          (result.2.schema.extension? block).map
            (fun extension : Extension => extension.fields.map Field.number) = some [100])
      _ 4 { resolver := siblings } ⟨"root.proto"⟩ (by decide +kernel)
  rcases computed with ⟨opened, named, message, blocks, fields⟩
  refine ⟨opened, named, fun block member => (fields block member).1, ?_⟩
  have has : ∀ block ∈ schema.extensions 3 ".base.M",
      schema.HasNumber ".base.M" (block, 0) 100 := by
    intro block member
    rcases fields block member with ⟨extendee, numbers⟩
    rcases Option.bind_eq_some_iff.mp extendee with ⟨extension, held, linked⟩
    rcases Option.map_eq_some_iff.mp message with ⟨extended, found, fullName⟩
    rw [held, Option.map_some, Option.some.injEq, List.map_eq_singleton_iff] at numbers
    rcases numbers with ⟨field, single, number⟩
    exact ⟨⟨extension, _, extended, held, linked, found, fullName⟩, extension, field, held,
      by rw [single]; rfl, number⟩
  have first : ⟨1, 0⟩ ∈ schema.extensions 3 ".base.M" := by simp [blocks]
  have second : ⟨2, 0⟩ ∈ schema.extensions 3 ".base.M" := by simp [blocks]
  intro distinct
  have equal := distinct (⟨1, 0⟩, 0) (⟨2, 0⟩, 0) 100 first second (has _ first) (has _ second)
  simp at equal

end Schema

end ProtoSchema
