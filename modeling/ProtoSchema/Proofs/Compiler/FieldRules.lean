import ProtoSchema.Proofs.Compiler.Evaluation
import ProtoSchema.Proofs.Compiler.Nesting
import ProtoSchema.Proofs.Draft.Depth
/-! # Rules for the fields of messages

A message is sound if its fields differ in their numbers and names and keep off what is
reserved or left to extensions. The validator of messages lets exactly the files pass in which
all messages are sound. Otherwise it reports the first field of the first other message that
breaks a rule, and the first rule that this field breaks.
-/

namespace ProtoSchema

/-! ## Rules -/

/-- The fields of a message have numbers and names of their own, none of which is reserved or
left to extensions. -/
structure Message.Sound (message : Message) : Prop where
  numbers : (message.fields.map Field.number).Nodup
  names : (message.fields.map Field.name).Nodup
  extensionRanges : ∀ field ∈ message.fields, ∀ range ∈ message.extensionRanges,
    ¬ (range.min ≤ field.number ∧ field.number ≤ range.max)
  reservedRanges : ∀ field ∈ message.fields, ∀ range ∈ message.reservedRanges,
    ¬ (range.min ≤ field.number ∧ field.number ≤ range.max)
  reservedNames : ∀ field ∈ message.fields, field.name ∉ message.reservedNames

/-- What a field must not share: its number and its name with an earlier field, and both with
what its message sets aside. -/
inductive FieldRule
  | number
  | name
  | extensionRange
  | reservedRange
  | reservedName

namespace FieldRule

/-- The order in which the rules are applied to a field. -/
def inOrder : List FieldRule :=
  [number, name, extensionRange, reservedRange, reservedName]

/-- A field with certain fields before it breaks a rule, and this is the problem. The earlier
field that a problem names is the latest with the number. -/
inductive Broken (message : Message) (earlier : List Field) (field : Field) :
    FieldRule → Problem → Prop
  | number {front back : List Field} {other : Field} (order : earlier = front ++ other :: back)
      (same : other.number = field.number)
      (latest : ∀ between ∈ back, between.number ≠ field.number) :
      Broken message earlier field number (.duplicateFieldNumber field.number other.name)
  | name {other : Field} (member : other ∈ earlier) (same : other.name = field.name) :
      Broken message earlier field name (.duplicateFieldName field.name)
  | extensionRange {range : TagRange} (member : range ∈ message.extensionRanges)
      (within : range.min ≤ field.number ∧ field.number ≤ range.max) :
      Broken message earlier field extensionRange
        (.numberInExtensionRange field.name field.number message.fullName)
  | reservedRange {range : TagRange} (member : range ∈ message.reservedRanges)
      (within : range.min ≤ field.number ∧ field.number ≤ range.max) :
      Broken message earlier field reservedRange (.reservedNumber field.name field.number)
  | reservedName (member : field.name ∈ message.reservedNames) :
      Broken message earlier field reservedName (.reservedName field.name)

end FieldRule

namespace Message

variable (message : Message)

/-- The problem of the first rule that a field breaks. -/
def Faults (earlier : List Field) (field : Field) (problem : Problem) : Prop :=
  ∃ before rule after, FieldRule.inOrder = before ++ rule :: after ∧
    FieldRule.Broken message earlier field rule problem ∧
    ∀ other ∈ before, ∀ problem, ¬ FieldRule.Broken message earlier field other problem

/-- None of the first fields of a message breaks a rule. -/
def Clean (fields : List Field) : Prop :=
  ∀ front field back, fields = front ++ field :: back →
    ∀ rule problem, ¬ FieldRule.Broken message front field rule problem

/-- The error of the first field that breaks a rule. -/
def FirstFault (error : CheckError) : Prop :=
  ∃ front field back problem, message.fields = front ++ field :: back ∧ message.Clean front ∧
    message.Faults front field problem ∧ error = ⟨problem, field.span⟩

end Message

/-- The fields of all messages of a file are judged by their rules: nothing is wrong if all
messages are sound, and otherwise the first message that is not has the error. -/
structure LoadedFile.FieldsJudged (loaded : LoadedFile) (result : Except LoadError Unit) :
    Prop where
  ok_iff : result = .ok () ↔ ∀ message ∈ loaded.file.allMessages, message.Sound
  error_iff : ∀ error, result = .error error ↔
    ∃ before message after fault, loaded.file.allMessages.toList = before ++ message :: after ∧
      (∀ earlier ∈ before, earlier.Sound) ∧ message.FirstFault fault ∧
      error = .check fault loaded.file.name loaded.source

/-! ## One field -/

theorem pairwise_iff_forall_split {α : Type} {Related : α → α → Prop} {values : List α} :
    values.Pairwise Related ↔ ∀ front value back, values = front ++ value :: back →
      ∀ earlier ∈ front, Related earlier value := by
  constructor
  · rintro pairwise front value back rfl earlier member
    exact (List.pairwise_append.mp pairwise).2.2 earlier member value List.mem_cons_self
  · intro related
    induction values using List.reverseRecOn with
    | nil => exact .nil
    | append_singleton values last induction =>
        refine List.pairwise_append.mpr ⟨?_, List.pairwise_singleton _ _, ?_⟩
        · apply induction
          intro front value back order
          exact related front value (back ++ [last]) (by simp [order])
        · intro earlier member other isLast
          cases List.mem_singleton.mp isLast
          exact related values last [] rfl earlier member

namespace FieldRule

variable {message : Message} {earlier : List Field} {field : Field} {problem : Problem}

/-- The problem of a field that breaks a rule. -/
def problem? (message : Message) (earlier : List Field) (field : Field) :
    FieldRule → Option Problem
  | number =>
      (earlier.reverse.find? (·.number == field.number)).map fun other =>
        .duplicateFieldNumber field.number other.name
  | name =>
      if earlier.any (·.name == field.name) then some (.duplicateFieldName field.name) else none
  | extensionRange =>
      if message.isExtensionNumber field.number then
        some (.numberInExtensionRange field.name field.number message.fullName)
      else none
  | reservedRange =>
      if message.reservedRanges.any (·.contains field.number) then
        some (.reservedNumber field.name field.number)
      else none
  | reservedName =>
      if message.reservedNames.contains field.name then some (.reservedName field.name) else none

theorem any_contains_iff {ranges : List TagRange} {number : Int} :
    ranges.any (·.contains number) = true ↔
      ∃ range ∈ ranges, range.min ≤ number ∧ number ≤ range.max := by
  simp only [List.any_eq_true, TagRange.contains_iff]

theorem problem?_number_eq_some_iff :
    problem? message earlier field number = some problem ↔
      Broken message earlier field number problem := by
  simp only [problem?, Option.map_eq_some_iff, List.find?_eq_some_iff_append, beq_iff_eq,
    Bool.not_eq_true', beq_eq_false_iff_ne]
  constructor
  · rintro ⟨other, ⟨same, back, front, order, latest⟩, rfl⟩
    have split : earlier = front.reverse ++ other :: back.reverse := by
      rw [← List.reverse_inj, order]
      simp
    exact .number split same fun between member => latest between (List.mem_reverse.mp member)
  · rintro (⟨rfl, same, latest⟩)
    rename_i front back other
    exact ⟨other, ⟨same, back.reverse, front.reverse, by simp, fun between member =>
      latest between (List.mem_reverse.mp member)⟩, rfl⟩

/-- The problem that is computed is that of a broken rule. -/
theorem problem?_eq_some_iff {rule : FieldRule} :
    problem? message earlier field rule = some problem ↔
      Broken message earlier field rule problem := by
  cases rule with
  | number => exact problem?_number_eq_some_iff
  | name =>
      rw [problem?, Option.ite_none_right_eq_some, List.any_eq_true, Option.some.injEq]
      constructor
      · rintro ⟨⟨other, member, same⟩, rfl⟩
        exact .name member (eq_of_beq same)
      · rintro (_ | ⟨member, same⟩)
        exact ⟨⟨_, member, beq_iff_eq.mpr same⟩, rfl⟩
  | extensionRange =>
      rw [problem?, Option.ite_none_right_eq_some, Message.isExtensionNumber, any_contains_iff,
        Option.some.injEq]
      constructor
      · rintro ⟨⟨range, member, within⟩, rfl⟩
        exact .extensionRange member within
      · rintro (_ | _ | ⟨member, within⟩)
        exact ⟨⟨_, member, within⟩, rfl⟩
  | reservedRange =>
      rw [problem?, Option.ite_none_right_eq_some, any_contains_iff, Option.some.injEq]
      constructor
      · rintro ⟨⟨range, member, within⟩, rfl⟩
        exact .reservedRange member within
      · rintro (_ | _ | _ | ⟨member, within⟩)
        exact ⟨⟨_, member, within⟩, rfl⟩
  | reservedName =>
      rw [problem?, Option.ite_none_right_eq_some, List.contains_iff_mem, Option.some.injEq]
      constructor
      · rintro ⟨member, rfl⟩
        exact .reservedName member
      · rintro (_ | _ | _ | _ | member)
        exact ⟨member, rfl⟩

theorem problem?_eq_none_iff {rule : FieldRule} :
    problem? message earlier field rule = none ↔
      ∀ problem, ¬ Broken message earlier field rule problem := by
  rw [Option.eq_none_iff_forall_ne_some]
  exact forall_congr' fun problem => not_congr problem?_eq_some_iff

end FieldRule

namespace Check

variable {message : Message} {field : Field}

/-- A field is judged rule by rule. The check keeps the fields before it in reversed order. -/
theorem fieldProblem?_eq_findSome? (message : Message) (earlier : List Field) (field : Field) :
    fieldProblem? message earlier.reverse field =
      FieldRule.inOrder.findSome? (FieldRule.problem? message earlier field) := by
  simp only [fieldProblem?, FieldRule.inOrder, FieldRule.problem?, List.findSome?_cons,
    List.findSome?_nil, List.any_reverse]
  cases earlier.reverse.find? (·.number == field.number) with
  | some other => rfl
  | none =>
      simp only [Option.map_none]
      split_ifs <;> rfl

theorem fieldProblem?_eq_some_iff {earlier : List Field} {problem : Problem} :
    fieldProblem? message earlier.reverse field = some problem ↔
      message.Faults earlier field problem := by
  rw [fieldProblem?_eq_findSome?, List.findSome?_eq_some_iff, Message.Faults]
  simp only [FieldRule.problem?_eq_some_iff, FieldRule.problem?_eq_none_iff]

theorem fieldProblem?_eq_none_iff {earlier : List Field} :
    fieldProblem? message earlier.reverse field = none ↔
      ∀ rule problem, ¬ FieldRule.Broken message earlier field rule problem := by
  rw [fieldProblem?_eq_findSome?, List.findSome?_eq_none_iff]
  simp only [FieldRule.problem?_eq_none_iff]
  refine ⟨fun clear rule => clear rule ?_, fun clear rule _ => clear rule⟩
  cases rule <;> simp [FieldRule.inOrder]

end Check

/-! ## All fields of a message -/

namespace Message

variable {message : Message}

theorem clean_nil : message.Clean [] := by
  intro front field back order
  simp at order

theorem clean_concat_iff {fields : List Field} {last : Field} :
    message.Clean (fields ++ [last]) ↔ message.Clean fields ∧
      ∀ rule problem, ¬ FieldRule.Broken message fields last rule problem := by
  constructor
  · intro clean
    refine ⟨fun front field back order => ?_, clean fields last [] rfl⟩
    exact clean front field (back ++ [last]) (by simp [order])
  · rintro ⟨clean, obeys⟩ front field back order
    rcases List.eq_nil_or_concat back with rfl | ⟨back, other, rfl⟩
    · rcases List.append_inj' order rfl with ⟨rfl, same⟩
      cases same
      exact obeys
    · rw [List.concat_eq_append, ← List.cons_append, ← List.append_assoc] at order
      exact clean front field back (List.append_inj' order rfl).1

/-- A message is sound if none of its fields breaks a rule. -/
theorem sound_iff_clean : message.Sound ↔ message.Clean message.fields := by
  constructor
  · rintro sound front field back order rule problem broken
    have inMessage : field ∈ message.fields := by simp [order]
    have numbers := pairwise_iff_forall_split.mp (List.pairwise_map.mp sound.numbers) front field
      back order
    have names := pairwise_iff_forall_split.mp (List.pairwise_map.mp sound.names) front field
      back order
    cases broken with
    | number split same latest => exact numbers _ (by simp [split]) same
    | name member same => exact names _ member same
    | extensionRange member within => exact sound.extensionRanges field inMessage _ member within
    | reservedRange member within => exact sound.reservedRanges field inMessage _ member within
    | reservedName member => exact sound.reservedNames field inMessage member
  · intro clean
    exact
      { numbers := by
          refine List.pairwise_map.mpr (pairwise_iff_forall_split.mpr ?_)
          intro front field back order earlier member same
          -- Some earlier field has the number, and so the latest of those has it.
          have found : (front.reverse.find? (·.number == field.number)).isSome := by
            rw [List.find?_isSome]
            exact ⟨earlier, List.mem_reverse.mpr member, beq_iff_eq.mpr same⟩
          rcases Option.isSome_iff_exists.mp found with ⟨other, latest⟩
          exact clean front field back order .number _
            (FieldRule.problem?_eq_some_iff.mp (by rw [FieldRule.problem?, latest]; rfl))
        names := by
          refine List.pairwise_map.mpr (pairwise_iff_forall_split.mpr ?_)
          intro front field back order earlier member same
          exact clean front field back order .name _ (.name member same)
        extensionRanges := by
          intro field member range inMessage within
          rcases List.append_of_mem member with ⟨front, back, order⟩
          exact clean front field back order .extensionRange _ (.extensionRange inMessage within)
        reservedRanges := by
          intro field member range inMessage within
          rcases List.append_of_mem member with ⟨front, back, order⟩
          exact clean front field back order .reservedRange _ (.reservedRange inMessage within)
        reservedNames := by
          intro field member reserved
          rcases List.append_of_mem member with ⟨front, back, order⟩
          exact clean front field back order .reservedName _ (.reservedName reserved) }

end Message

namespace Check

variable {message : Message}

/-- The check goes over fields that are clean. -/
theorem fieldError?_append {earlier front : List Field} (clean : message.Clean (earlier ++ front))
    (rest : List Field) :
    fieldError? message earlier.reverse (front ++ rest) =
      fieldError? message (earlier ++ front).reverse rest := by
  induction front generalizing earlier with
  | nil => simp
  | cons field front induction =>
      have obeys := clean earlier field front rfl
      have onward : earlier ++ field :: front = (earlier ++ [field]) ++ front := by simp
      have next := induction (onward ▸ clean)
      rw [List.reverse_concat] at next
      rw [List.cons_append, fieldError?, fieldProblem?_eq_none_iff.mpr obeys, onward]
      exact next

/-- The check stops at the first field that breaks a rule. -/
theorem fieldError?_of_faults {earlier fields : List Field} {field : Field} {problem : Problem}
    (faults : message.Faults earlier field problem) :
    fieldError? message earlier.reverse (field :: fields) = some ⟨problem, field.span⟩ := by
  rw [fieldError?, fieldProblem?_eq_some_iff.mpr faults]

theorem messageError?_of_firstFault {error : CheckError} (fault : message.FirstFault error) :
    messageError? message = some error := by
  rcases fault with ⟨front, field, back, problem, order, clean, faults, rfl⟩
  rw [messageError?, order, ← List.reverse_nil, fieldError?_append clean]
  exact fieldError?_of_faults faults

/-- The fields of a message are clean, or there is a first one that is not. -/
theorem clean_or_faults (message : Message) (fields : List Field) :
    message.Clean fields ∨ ∃ front field back problem, fields = front ++ field :: back ∧
      message.Clean front ∧ message.Faults front field problem := by
  induction fields using List.reverseRecOn with
  | nil => exact .inl Message.clean_nil
  | append_singleton fields last induction =>
      rcases induction with clean | ⟨front, field, back, problem, rfl, clean, faults⟩
      · cases judged : fieldProblem? message fields.reverse last with
        | none =>
            left
            exact Message.clean_concat_iff.mpr ⟨clean, fieldProblem?_eq_none_iff.mp judged⟩
        | some problem =>
            right
            exact ⟨fields, last, [], problem, rfl, clean, fieldProblem?_eq_some_iff.mp judged⟩
      · right
        exact ⟨front, field, back ++ [last], problem, by simp, clean, faults⟩

theorem sound_or_firstFault (message : Message) :
    message.Sound ∨ ∃ error, message.FirstFault error := by
  rcases clean_or_faults message message.fields with clean |
    ⟨front, field, back, problem, order, clean, faults⟩
  · exact .inl (Message.sound_iff_clean.mpr clean)
  · exact .inr ⟨_, front, field, back, problem, order, clean, faults, rfl⟩

theorem messageError?_of_sound (sound : message.Sound) : messageError? message = none := by
  have clean := Message.sound_iff_clean.mp sound
  have all := @fieldError?_append message [] message.fields clean []
  rw [List.append_nil] at all
  exact all

theorem messageError?_eq_none_iff : messageError? message = none ↔ message.Sound := by
  refine ⟨fun none => ?_, messageError?_of_sound⟩
  rcases sound_or_firstFault message with sound | ⟨error, fault⟩
  · exact sound
  · rw [messageError?_of_firstFault fault] at none
    cases none

theorem messageError?_eq_some_iff {error : CheckError} :
    messageError? message = some error ↔ message.FirstFault error := by
  refine ⟨fun wrong => ?_, messageError?_of_firstFault⟩
  rcases sound_or_firstFault message with sound | ⟨other, fault⟩
  · rw [messageError?_of_sound sound] at wrong
    cases wrong
  · rw [messageError?_of_firstFault fault] at wrong
    cases wrong
    exact fault

end Check

/-! ## Files -/

namespace Validator

/-- The validator of messages judges the fields of all messages of a file by their rules. In a
schema of linked files these are the messages at any depth. -/
theorem messages_fieldsJudged {schema : Schema} {id : FileId} {loaded : LoadedFile}
    (present : schema.files[id]? = some loaded) :
    loaded.FieldsJudged (messages schema id) ∧
      (schema.Settled (fun _ => True) → ∀ number, loaded.file.Contains (.message number) ↔
        number.file = id ∧ ∃ message, loaded.file.allMessages[number.index]? = some message) := by
  refine ⟨{ ok_iff := ?_, error_iff := ?_ }, ?_⟩
  · rw [messages, ofSearch_eq_ok_iff present, List.findSome?_eq_none_iff]
    simp only [Array.mem_toList_iff, Check.messageError?_eq_none_iff]
  · intro error
    rw [messages, ofSearch_eq_error_iff present]
    simp only [List.findSome?_eq_some_iff, Check.messageError?_eq_none_iff,
      Check.messageError?_eq_some_iff]
    constructor
    · rintro ⟨fault, ⟨before, message, after, order, wrong, sound⟩, rfl⟩
      exact ⟨before, message, after, fault, order, sound, wrong, rfl⟩
    · rintro ⟨before, message, after, fault, order, sound, wrong, rfl⟩
      exact ⟨fault, ⟨before, message, after, order, wrong, sound⟩, rfl⟩
  · intro settled number
    rcases settled.files present with ⟨file, -, own⟩
    rw [own.followsNesting.nests.contains_message_iff, own.id_eq]
    refine and_congr_right fun _ => ⟨fun bound => ?_, ?_⟩
    · exact ⟨_, Array.getElem?_eq_getElem bound⟩
    · rintro ⟨message, held⟩
      exact (Array.getElem?_eq_some_iff.mp held).1

/-- The inner message ends first, and its second field has the number of the first one. -/
theorem messages_fieldsJudged_nested :
    let source := "message A\x7bmessage B\x7bint32 x=1;int32 y=1;\x7dint32 z=2;int32 z=3;\x7d"
    ∃ file loaded, SourceFile.ofSource "a.proto" source = .ok file ∧
      ({} : Rules).link {} file true = .ok loaded ∧
      loaded.FieldsJudged (messages (({} : Schema).push loaded) 0) ∧
      (∀ number, loaded.file.Contains (.message number) ↔
        number.file = 0 ∧ ∃ message, loaded.file.allMessages[number.index]? = some message) ∧
      messages (({} : Schema).push loaded) 0 =
        .error (.check ⟨.duplicateFieldNumber 1 "x", ⟨36, 37⟩⟩ "a.proto" source) := by
  intro source
  rcases @Rules.link_of_computed
    (fun loaded => messages (({} : Schema).push loaded) 0 =
      .error (.check ⟨.duplicateFieldNumber 1 "x", ⟨36, 37⟩⟩ "a.proto" source))
    _ (SourceFile.ofSource "a.proto" source) {} true (by decide +kernel) with
    ⟨file, loaded, opened, linked, failed⟩
  rcases messages_fieldsJudged (Schema.getElem?_push_size {} loaded) with ⟨judged, contained⟩
  have settled : (({} : Schema).push loaded).Settled fun _ => True :=
    Schema.Settled.empty.add trivial (Rules.link_eq_ok linked)
  exact ⟨file, loaded, opened, linked, judged, contained settled, failed⟩

end Validator

end ProtoSchema
