import ProtoSchema.Proofs.Syntax.Values
/-! # Fields

What the parsers of fields read.
-/

namespace ProtoSchema.Syntax

namespace Parser

open Grammar (Production Many Begins Starts Names)

variable {upcoming : List Lexeme} {stop : Nat}

/-! ## Labels -/

theorem labelAllowed_none (version : Version) (host : Option FieldHost) :
    LabelAllowed version host none where
  oneof _ := rfl
  extend _ := by simp
  version _ := by simp

theorem labelError?_eq_none_iff (version : Version) (host : Option FieldHost) (label : FieldLabel)
    (span : Span) :
    labelError? version host label span = none ↔ LabelAllowed version host (some label) := by
  have clauses : LabelAllowed version host (some label) ↔ host ≠ some .oneof ∧
      (host = some .extend → label ≠ .required) ∧ (version = .proto3 → label ≠ .required) := by
    constructor
    · intro allowed
      exact ⟨fun inside => (by cases allowed.oneof inside),
        fun inside required => allowed.extend inside (congrArg some required),
        fun inside required => allowed.version inside (congrArg some required)⟩
    · rintro ⟨oneof, extend, version⟩
      exact ⟨fun inside => absurd inside oneof,
        fun inside required => extend inside (Option.some.inj required),
        fun inside required => version inside (Option.some.inj required)⟩
  rw [clauses]
  rcases host with _ | _ | _ <;> cases label <;> cases version <;> simp [labelError?]

theorem labelError?_harmless {version : Version} {host : Option FieldHost} {label : FieldLabel}
    {span : Span} {error : SyntaxError}
    (found : labelError? version host label span = some error) :
    error.isGrammatical = false := by
  revert found
  rcases host with _ | _ | _ <;> cases label <;> cases version <;>
    simp [labelError?] <;> rintro rfl <;> rfl

theorem fieldLabel_ensures :
    Ensures fieldLabel upcoming stop fun consumed faults label =>
      faults = [] ∧ Grammar.Label consumed label ∧
        (label = none → ¬Begins ["optional", "required", "repeated"] upcoming) := by
  rw [fieldLabel]
  refine .look_cases (fun _ => .unexpected) fun lexeme lexemes token ahead same => ?_
  subst ahead
  split
  · next span found =>
      cases found
      exact .advance_bind (.pure ⟨rfl, .optional same, by simp⟩)
  · next span found =>
      cases found
      exact .advance_bind (.pure ⟨rfl, .required same, by simp⟩)
  · next span found =>
      cases found
      exact .advance_bind (.pure ⟨rfl, .repeated same, by simp⟩)
  · next name span optional required repeated found =>
      cases found
      refine .pure ⟨rfl, .none, fun _ => Grammar.not_begins_cons ?_⟩
      simpa [same] using ⟨optional, required, repeated⟩
  · next span found =>
      cases found
      refine .pure ⟨rfl, .none, fun _ => Grammar.not_begins_cons ?_⟩
      simp [same]
  · exact .unexpected

/-- Without a label, the sentence that follows must not begin with one. -/
theorem fieldLabel_takes {labelled typed : List Lexeme} {label : Option (FieldLabel × Span)}
    (written : Grammar.Label labelled label) (starts : Starts Names typed)
    (unlabelled : label = none → ¬Begins ["optional", "required", "repeated"] typed)
    (rest : List Lexeme) (stop : Nat) :
    Takes fieldLabel labelled (typed ++ rest) stop label := by
  rw [fieldLabel]
  cases written with
  | none =>
      rcases starts with ⟨lexeme, more, rfl, ⟨name, named⟩ | dot⟩
      · have other := unlabelled rfl
        have others (word : String) (member : word ∈ ["optional", "required", "repeated"]) :
            name ≠ word := by
          rintro rfl
          exact Grammar.ne_of_not_begins other member named
        refine .look_rest named ?_
        split
        · next found => cases found; exact absurd rfl (others "optional" (by simp))
        · next found => cases found; exact absurd rfl (others "required" (by simp))
        · next found => cases found; exact absurd rfl (others "repeated" (by simp))
        · exact .pure rfl
        · next found => cases found
        · next plain _ => exact absurd rfl (plain name _)
      · exact .look_rest dot (.pure rfl)
  | optional word => exact .look_cons word (.advance_bind (.pure rfl))
  | required word => exact .look_cons word (.advance_bind (.pure rfl))
  | repeated word => exact .look_cons word (.advance_bind (.pure rfl))

/-- After the word `map` comes the rest of a map type. -/
theorem mapType_ensures (start : Nat) :
    Ensures (mapType start) upcoming stop fun consumed faults type =>
      faults = [] ∧ type.isMap = true ∧ ∀ keyword : Lexeme, keyword.token = .ident "map" →
        keyword.span.start = start → Grammar.FieldType (keyword :: consumed) type := by
  rw [mapType]
  refine .mark_bind fun open_ after _ opens => ?_
  refine .bind_plain (typeName_reads _) fun front key rest _ left => ?_
  refine .mark_bind fun comma after _ separates => ?_
  refine .bind_plain (typeName_reads _) fun back value rest _ right => ?_
  refine .mark_bind fun close remaining _ closes => .spanFrom_bind (.pure ⟨rfl, rfl, ?_⟩)
  rintro keyword word rfl
  simpa [spanOf_cons] using Grammar.FieldType.map word opens left separates right closes

theorem mapType_takes {keyword open_ comma close : Lexeme} {front back rest : List Lexeme}
    {key value : TypeName} (opens : open_.token = .mark .leftAngle)
    (left : Grammar.TypeName front key) (separates : comma.token = .mark .comma)
    (right : Grammar.TypeName back value) (closes : close.token = .mark .rightAngle)
    (stop : Nat) :
    Takes (mapType keyword.span.start) (open_ :: (front ++ comma :: (back ++ [close]))) rest stop
      (.map key value (spanOf (keyword :: open_ :: (front ++ comma :: (back ++ [close]))))) := by
  rw [mapType]
  refine .mark_bind opens ?_
  refine (typeName_accepts (by decide) left _ _ (.mark separates (by decide))).bind ?_
  refine .mark_bind separates ?_
  refine (typeName_accepts (by decide) right _ _ (.mark closes (by decide))).bind ?_
  exact .mark_bind closes (.spanFrom_bind (.pure (by simp [spanOf_cons])))

theorem fieldType_ensures (host : Option FieldHost) (label : Option (FieldLabel × Span)) :
    Ensures (fieldType host label) upcoming stop fun consumed faults type =>
      Grammar.FieldType consumed type ∧
        Verdict faults (type.isMap = true → label = none ∧ host = none) := by
  have named (part : List Lexeme) (stop : Nat) (allowed : ¬Begins ["group"] part) :
      Ensures (do return .named (← typeName [.anyIdent])) part stop fun consumed faults type =>
        Grammar.FieldType consumed type ∧
          Verdict faults (type.isMap = true → label = none ∧ host = none) := by
    refine .bind_plain (typeName_reads _) fun consumed name rest split inner => ?_
    subst split
    refine .pure ⟨?_, Verdict.none.congr (by simp [FieldType.isMap])⟩
    rw [List.append_nil]
    exact .named inner fun begins => allowed (begins.append rest)
  rw [fieldType]
  refine .look_cases (fun _ => named _ _ ?_) fun lexeme lexemes token _ same => ?_
  · rintro ⟨lexeme, rest, written, -⟩
    cases written
  split
  · exact .report_fail rfl
  · next span found =>
      cases found
      have plain (part : List Lexeme) (stop : Nat) :
          Ensures (do
            return .named ⟨none, ← dottedNameFrom ⟨"map", lexeme.span⟩ [.anyIdent]⟩) part stop
            fun more others type => Grammar.FieldType (lexeme :: more) type ∧
              Verdict others (type.isMap = true → label = none ∧ host = none) := by
        refine (dottedNameFrom_ensures _ _).bind ?_
        rintro consumed faults name rest - ⟨rfl, parts, rfl, names⟩
        refine .pure ⟨?_, Verdict.none.congr (by simp [FieldType.isMap])⟩
        rw [List.append_nil]
        exact .named (.relative (.intro (.intro same) names))
          (Grammar.not_begins_cons (by simp [same]))
      refine .advance_bind (.look_cases (fun _ => plain _ _) fun open_ rest token _ _ => ?_)
      split
      · refine (mapType_ensures _).bind ?_
        rintro consumed faults type rest - ⟨rfl, isMap, inner⟩
        have sentence : Grammar.FieldType (lexeme :: (consumed ++ [])) type := by
          simpa using inner lexeme same rfl
        rcases label with _ | ⟨label, labelSpan⟩ <;> rcases host with _ | host
        · exact .pure ⟨sentence, Verdict.none.congr (by simp)⟩
        · exact .spanFrom_bind (.report_bind (.pure ⟨sentence, by simp [SyntaxError.isGrammatical],
            by simp [isMap]⟩))
        · exact .report_bind (.pure ⟨sentence, by simp [SyntaxError.isGrammatical],
            by simp [isMap]⟩)
        · exact .report_bind (.spanFrom_bind (.report_bind (.pure ⟨sentence,
            by simp [SyntaxError.isGrammatical], by simp [isMap]⟩)))
      · exact plain _ _
  · next other otherMap =>
      refine named _ _ (Grammar.not_begins_cons ?_)
      rw [List.forall_mem_singleton, same]
      rintro rfl
      exact other _ rfl

/-- A dot or the name of the field comes after the first part of a type name. -/
theorem next_ne_leftAngle {sentence rest : List Lexeme} {names : List Ident}
    (parts : Many (Grammar.After (.mark .dot) Grammar.Name) sentence names)
    (follows : Follows [.anyIdent] rest) :
    Starts (· ≠ .mark .leftAngle) (sentence ++ rest) := by
  refine parts.leads (fun part _ next following => ?_) (follows.mono ?_)
  · refine (next.starts.append following).mono ?_
    rintro _ rfl
    simp
  · rintro token ⟨follower, member, allowed⟩ rfl
    rw [List.mem_singleton.mp member] at allowed
    cases allowed

theorem fieldType_accepts (host : Option FieldHost) (label : Option (FieldLabel × Span)) :
    Accepts (fieldType host label) Grammar.FieldType (Follows [.anyIdent]) := by
  rintro _ _ type rest stop follows
  rw [fieldType]
  cases type with
  | map word opens left separates right closes =>
      refine .look_cons word (.advance_bind (.look_cons opens ?_))
      refine (mapType_takes opens left separates right closes _).bind_last ?_
      rcases label with _ | ⟨label, labelSpan⟩ <;> rcases host with _ | host
      · exact .pure rfl
      · exact .spanFrom_bind (.report_bind (.pure rfl))
      · exact .report_bind (.pure rfl)
      · exact .report_bind (.spanFrom_bind (.report_bind (.pure rfl)))
  | named inner allowed =>
      have named := typeName_accepts (by decide) inner rest stop follows
      rcases inner with ⟨⟨@⟨_, name, token⟩, names⟩⟩ | ⟨dot, inner⟩
      · by_cases word : name = "map"
        · subst word
          rcases next_ne_leftAngle names follows with ⟨lexeme, after, ahead, other⟩
          refine .look_cons token (.advance_bind (.look_ahead ahead ?_))
          split
          · next found => exact absurd (congrArg Prod.fst (Option.some.inj found)) other
          · exact (dottedNameFrom_takes _ (by decide) names follows _).bind_last (.pure rfl)
        · refine .look_cons token ?_
          split
          · next found =>
              cases found
              exact absurd token (Grammar.ne_of_not_begins allowed (by simp))
          · next found =>
              cases found
              exact absurd rfl word
          · exact named.bind_last (.pure rfl)
      · exact .look_cons dot (named.bind_last (.pure rfl))

theorem fieldOptions_ensures :
    Ensures fieldOptions upcoming stop fun consumed faults options =>
      faults = [] ∧ ∃ listed close, consumed = listed ++ [close] ∧
        Grammar.Options listed options ∧ close.token = .mark .semicolon := by
  rw [fieldOptions]
  refine .look_cases (fun _ => .unexpected) fun lexeme lexemes token _ same => ?_
  split
  · refine .bind_plain optionList_reads fun listed options rest _ inner => ?_
    refine .mark_bind fun close remaining _ closes => ?_
    exact .pure ⟨rfl, listed, close, rfl, .list inner, closes⟩
  · next span found =>
      cases found
      exact .advance_bind (.pure ⟨rfl, [], lexeme, rfl, .none, same⟩)
  · exact .unexpected

theorem fieldOptions_takes {listed : List Lexeme} {close : Lexeme} {options : List OptionEntry}
    (list : Grammar.Options listed options) (closes : close.token = .mark .semicolon)
    (rest : List Lexeme) (stop : Nat) :
    Takes fieldOptions (listed ++ [close]) rest stop options := by
  rw [fieldOptions]
  cases list with
  | none => exact .look_cons closes (.advance_bind (.pure rfl))
  | list inner =>
      have taken := optionList_accepts inner ([close] ++ rest) stop trivial
      rcases inner with ⟨opens, -, -⟩
      exact .look_cons opens (taken.bind (.mark_bind closes (.pure rfl)))

/-! ## Whole fields -/

/-- Notices the fault of a label, if it has one. -/
def judgeLabel (version : Version) (host : Option FieldHost) :
    Option (FieldLabel × Span) → Parser Unit
  | none => pure ()
  | some (label, span) =>
      match labelError? version host label span with
      | some error => report error
      | none => pure ()

/-- What comes after the label of a field that began at `start`. -/
def fieldAfterLabel (host : Option FieldHost) (label : Option (FieldLabel × Span))
    (comments : Option String) (start : Nat) : Parser Field := do
  let type ← fieldType host label
  let name ← ident
  let _ ← mark .equals
  let number ← fieldNumber
  let options ← fieldOptions
  return { label, type, name, number, options, comments, span := ← spanFrom start }

theorem field_eq (version : Version) (host : Option FieldHost) :
    field version host = (do
      let comments ← comments
      let label ← fieldLabel
      let typeStart ← nextStart
      judgeLabel version host label
      fieldAfterLabel host label comments ((label.map (·.2.start)).getD typeStart)) := by
  rw [field]
  refine congrArg (comments >>= ·) (funext fun comments => ?_)
  refine congrArg (fieldLabel >>= ·) (funext fun label => ?_)
  refine congrArg (nextStart >>= ·) (funext fun typeStart => ?_)
  rcases label with _ | ⟨label, span⟩
  · rfl
  · dsimp only [judgeLabel]
    cases labelError? version host label span <;> rfl

theorem judgeLabel_ensures (version : Version) (host : Option FieldHost)
    (label : Option (FieldLabel × Span)) :
    Ensures (judgeLabel version host label) upcoming stop fun consumed faults _ =>
      consumed = [] ∧ Verdict faults (LabelAllowed version host (label.map Prod.fst)) := by
  rcases label with _ | ⟨label, span⟩ <;> rw [judgeLabel]
  · exact .pure ⟨rfl, Verdict.none.congr (by simpa using labelAllowed_none version host)⟩
  · have judged := labelError?_eq_none_iff version host label span
    cases found : labelError? version host label span with
    | none => exact .pure ⟨rfl, Verdict.none.congr (by simpa [found] using judged)⟩
    | some error =>
        refine .report ⟨rfl, ?_, by simpa [found] using judged⟩
        simpa using labelError?_harmless found

theorem judgeLabel_takes (version : Version) (host : Option FieldHost)
    (label : Option (FieldLabel × Span)) (rest : List Lexeme) (stop : Nat) :
    Takes (judgeLabel version host label) [] rest stop () := by
  rcases label with _ | ⟨label, span⟩ <;> rw [judgeLabel]
  · exact .pure rfl
  · cases labelError? version host label span with
    | none => exact .pure rfl
    | some error => exact .report

theorem field_reads (version : Version) (host : Option FieldHost) :
    Reads (field version host) Grammar.Field (Field.Valid version host) := by
  intro upcoming stop
  rw [field_eq]
  refine .comments_bind (fieldLabel_ensures.bind ?_)
  rintro labelled _ label rest split ⟨rfl, written, unlabelled⟩
  subst split
  refine .nextStart_bind ((judgeLabel_ensures version host label).bind ?_)
  rintro _ labelFaults _ _ rfl ⟨rfl, labelVerdict⟩
  rw [written.start_eq, fieldAfterLabel]
  refine (fieldType_ensures host label).bind ?_
  rintro typed typeFaults type _ rfl ⟨kind, typeVerdict⟩
  refine .bind_plain ident_reads ?_
  rintro named name _ rfl called
  refine .mark_bind ?_
  rintro equals _ rfl sign
  refine .bind_reads fieldNumber_reads ?_
  rintro numbered numberFaults number _ rfl value numberVerdict
  refine fieldOptions_ensures.bind ?_
  rintro _ _ options after rfl ⟨rfl, listed, close, rfl, list, closes⟩
  refine .spanFrom_bind (.pure ?_)
  have whole : labelled ++ (typed ++ (named ++ equals :: (numbered ++ (listed ++ [close])))) ≠
      [] := by simp
  have comments := commentsOf_append whole after
  have span := spanOf_eq whole after stop stop
  simp only [List.append_assoc, List.cons_append, List.nil_append, List.append_nil,
    stopAfter_append, stopAfter_cons, stopAfter_nil] at comments span ⊢
  rw [comments, span]
  constructor
  · refine .intro written kind ?_ called sign value list closes rfl
    rintro rfl begins
    cases written
    exact unlabelled rfl (begins.append _)
  · refine (labelVerdict.append (typeVerdict.append numberVerdict)).congr ⟨?_, ?_⟩
    · rintro ⟨allowed, map, bound⟩
      exact ⟨allowed, map, bound⟩
    · intro valid
      exact ⟨valid.label, valid.map, valid.number⟩

theorem field_accepts (version : Version) (host : Option FieldHost) :
    Accepts (field version host) Grammar.Field fun _ => True := by
  rintro _ _ @⟨labelled, typed, named, numbered, listed, equals, close, _, _, _, _, _, label, kind,
    unlabelled, called, sign, value, list, closes, _, rfl⟩ rest stop -
  have whole : labelled ++ (typed ++ (named ++ equals :: (numbered ++ (listed ++ [close])))) ≠
      [] := by simp
  have comments := commentsOf_append whole rest
  have span := spanOf_eq whole rest stop stop
  have first := fieldLabel_takes label kind.starts unlabelled
    (named ++ equals :: (numbered ++ (listed ++ [close])) ++ rest) stop
  rw [← List.append_assoc] at first
  rw [field_eq]
  refine .comments_bind (first.bind (.nextStart_bind ?_))
  refine .bind_first (judgeLabel_takes version host _ _ _) ?_
  rw [label.start_eq, fieldAfterLabel]
  refine .bind (fieldType_accepts host _ kind _ _ ?_) ?_
  · rcases called with ⟨token⟩
    exact ⟨_, _, rfl, .anyIdent, by simp, by rw [token]; rfl⟩
  refine (ident_accepts called _ _ trivial).bind (.mark_bind sign ?_)
  refine (fieldNumber_accepts value _ _ trivial).bind ?_
  refine (fieldOptions_takes list closes _ _).bind_last (.spanFrom_bind (.pure ?_))
  simp only [List.append_assoc, List.cons_append, List.nil_append, stopAfter_append,
    stopAfter_cons, stopAfter_nil] at comments span ⊢
  rw [comments, span]

end Parser

end ProtoSchema.Syntax
