import Mathlib.Data.List.Infix
import ProtoSchema.Proofs.Syntax.Fields
/-! # Noticing lexical faults

The lexical faults of a lexeme are recorded when the lexeme is looked at for the first time,
and no lexeme is consumed before that. Whatever a parser finds wrong, the recorded lexical
faults and those that are still to be noticed stay the same together.
-/

namespace ProtoSchema.Syntax

/-! ## What is still to be noticed -/

/-- The fault is one that the lexer finds, in a token or in a comment. -/
def SyntaxError.isLexical : SyntaxError → Bool
  | invalidToken _ | integerOutOfRange _ | invalidStringCharacters _ | unterminatedString _
  | invalidStringEscape _ | invalidUtf8String _ | nestedBlockComment _ | missingSpace _ => true
  | unexpectedEnd .stringTerminator | unexpectedEnd .commentTerminator => true
  | _ => false

namespace ParserState

/-- The lexical faults behind the next lexeme. -/
def behind (state : ParserState) : List SyntaxError :=
  match state.upcoming with
  | [] => []
  | _ :: rest => rest.flatMap Lexeme.errors ++ state.trailing

/-- The lexical faults that have not been noticed. -/
def unnoticed (state : ParserState) : List SyntaxError :=
  if state.looked then state.behind else state.ahead ++ state.behind

/-- The lexical faults that have been noticed, and then all others. -/
def lexical (state : ParserState) : List SyntaxError :=
  (state.errors ++ state.unnoticed).filter SyntaxError.isLexical

end ParserState

namespace Parser

/-- Lexemes are consumed in their order, no lexical fault is lost or invented, and what has
been recorded stays so. -/
structure Keeps (before after : ParserState) : Prop where
  lexical_eq : after.lexical = before.lexical
  suffix : after.upcoming <:+ before.upcoming
  trailing_eq : after.trailing = before.trailing
  recorded : before.errors <+: after.errors

theorem Keeps.refl (state : ParserState) : Keeps state state where
  lexical_eq := rfl
  suffix := List.suffix_rfl
  trailing_eq := rfl
  recorded := List.prefix_rfl

theorem Keeps.trans {before middle after : ParserState} (first : Keeps before middle)
    (second : Keeps middle after) : Keeps before after where
  lexical_eq := second.lexical_eq.trans first.lexical_eq
  suffix := second.suffix.trans first.suffix
  trailing_eq := second.trailing_eq.trans first.trailing_eq
  recorded := first.recorded.trans second.recorded

/-- A parser keeps the lexical faults, from any state or only if the next lexeme has been
looked at. -/
def Notices {α : Type} (looked : Bool) (parser : Parser α) : Prop :=
  ∀ state : ParserState, (looked = true → state.looked = true) → Keeps state (parser state).2

theorem keeps_look (state : ParserState) :
    Keeps state (look state).2 ∧ (look state).2.looked = true ∧
      (look state).2.upcoming = state.upcoming := by
  cases looked : state.looked with
  | true =>
      rw [look]
      simp only [looked, if_true, and_true]
      exact .refl state
  | false =>
      simp only [look, looked, Bool.false_eq_true, if_false, and_true]
      refine ⟨?_, List.suffix_rfl, rfl, List.prefix_append ..⟩
      simp [ParserState.lexical, ParserState.unnoticed, looked, ParserState.behind]

theorem keeps_advance {state : ParserState} (looked : state.looked = true) :
    Keeps state (advance state).2 := by
  rw [advance]
  cases upcoming : state.upcoming with
  | nil => exact .refl state
  | cons lexeme rest =>
      refine ⟨?_, by simp [upcoming], rfl, List.prefix_rfl⟩
      cases rest <;>
        simp [ParserState.lexical, ParserState.unnoticed, ParserState.behind, ParserState.ahead,
          looked, upcoming]

/-- A fault that is none of the lexer can be recorded at any time. -/
theorem keeps_report {error : SyntaxError} (other : error.isLexical = false)
    (state : ParserState) : Keeps state (report error state).2 where
  lexical_eq := by
    have same : (report error state).2.unnoticed = state.unnoticed := rfl
    rw [ParserState.lexical, same]
    simp [report, ParserState.lexical, other]
  suffix := List.suffix_rfl
  trailing_eq := rfl
  recorded := List.prefix_append ..

namespace Notices

variable {α β : Type} {looked : Bool}

/-! ## Sequences -/

theorem keeps {parser : Parser α} (notices : Notices false parser) (state : ParserState) :
    Keeps state (parser state).2 :=
  notices state fun impossible => absurd impossible Bool.false_ne_true

theorem keeps_of_run {parser : Parser α} (notices : Notices false parser)
    {state after : ParserState} {outcome : Option α} (run : parser state = (outcome, after)) :
    Keeps state after := by
  have keeps := notices.keeps state
  rwa [run] at keeps

theorem pure (value : α) : Notices looked (Pure.pure value : Parser α) :=
  fun state _ => .refl state

theorem fail : Notices looked (Parser.fail : Parser α) :=
  fun state _ => .refl state

theorem weaken {parser : Parser α} (notices : Notices false parser) : Notices looked parser :=
  fun state _ => notices.keeps state

theorem bind {parser : Parser α} {next : α → Parser β} (first : Notices looked parser)
    (second : ∀ value, Notices false (next value)) : Notices looked (parser >>= next) := by
  intro state holds
  have before := first state holds
  rcases run : parser state with ⟨_ | value, middle⟩
  · rw [run] at before
    rwa [bind_of_none run]
  · rw [run] at before
    rw [bind_of_some run]
    exact before.trans ((second value).keeps middle)

/-- A parser that leaves the state alone, whether or not it fails. -/
theorem bind_of_quiet {parser : Parser α} {next : α → Parser β}
    (quiet : ∀ state, ∃ value, parser state = (some value, state))
    (second : ∀ value, Notices looked (next value)) : Notices looked (parser >>= next) := by
  intro state holds
  rcases quiet state with ⟨value, run⟩
  rw [bind_of_some run]
  exact second value state holds

/-! ## Looking and consuming -/

theorem look_bind {next : Option (Token × Span) → Parser β}
    (second : ∀ found, Notices true (next found)) : Notices looked (look >>= next) := by
  intro state _
  rcases keeps_look state with ⟨before, ahead, -⟩
  rcases run : look state with ⟨found, middle⟩
  rw [run] at before ahead
  cases found with
  | none => rwa [bind_of_none run]
  | some found =>
      rw [bind_of_some run]
      exact before.trans (second found middle fun _ => ahead)

theorem advance_bind {next : Unit → Parser β} (second : Notices false (next ())) :
    Notices true (advance >>= next) := by
  intro state holds
  have before := keeps_advance (holds rfl)
  have run : advance state = (some (), (advance state).2) := by
    rw [advance]
    split <;> rfl
  rw [bind_of_some run]
  exact before.trans (second.keeps _)

/-! ## Faults -/

theorem report_bind {error : SyntaxError} {next : Unit → Parser β}
    (other : error.isLexical = false) (second : Notices looked (next ())) :
    Notices looked (report error >>= next) := by
  intro state holds
  exact (keeps_report other state).trans (second _ holds)

theorem check_bind {holds : Bool} {error : SyntaxError} {next : Unit → Parser β}
    (other : error.isLexical = false) (second : Notices looked (next ())) :
    Notices looked (check holds error >>= next) := by
  cases holds with
  | true => exact second
  | false => exact report_bind other second

theorem unexpected {expected : Expected}
    (other : (SyntaxError.unexpectedEnd expected).isLexical = false) :
    Notices looked (Parser.unexpected expected : Parser α) := by
  refine look_bind fun found => ?_
  split
  · exact fail
  · exact report_bind rfl fail
  · exact report_bind other fail

/-! ## Places and comments -/

theorem spanFrom_bind {next : Span → Parser β} {start : Nat}
    (second : ∀ span, Notices looked (next span)) : Notices looked (spanFrom start >>= next) :=
  bind_of_quiet (fun _ => ⟨_, rfl⟩) second

theorem remaining_bind {next : Nat → Parser β} (second : ∀ count, Notices looked (next count)) :
    Notices looked (remaining >>= next) :=
  bind_of_quiet (fun _ => ⟨_, rfl⟩) second

theorem nextStart : Notices false Parser.nextStart := by
  refine look_bind fun found => ?_
  split
  · exact pure _
  · exact fun state _ => .refl state

theorem comments : Notices false Parser.comments := by
  refine look_bind fun found state _ => ?_
  split
  · exact .refl state
  · split <;> exact .refl state

/-! ## Tokens -/

theorem expect (token : Token) : Notices false (Parser.expect token) := by
  refine look_bind fun found => ?_
  split
  · split
    · exact advance_bind (pure _)
    · exact unexpected rfl
  · exact unexpected rfl

theorem word_bind {name : String} {next : Span → Parser β}
    (second : ∀ span, Notices false (next span)) : Notices looked (word name >>= next) :=
  (expect (.ident name)).weaken.bind second

theorem mark_bind {symbol : Punctuation} {next : Span → Parser β}
    (second : ∀ span, Notices false (next span)) : Notices looked (mark symbol >>= next) :=
  (expect (.mark symbol)).weaken.bind second

/-! ## Repetition -/

theorem collectAtMost {entry : Parser (Option α)} (turn : Notices false entry) (fuel : Nat) :
    Notices false (Parser.collectAtMost entry fuel) := by
  induction fuel with
  | zero => exact fail
  | succ fuel induction =>
      refine turn.bind fun outcome => ?_
      cases outcome with
      | none => exact pure []
      | some value => exact induction.bind fun values => pure _

theorem collect {entry : Parser (Option α)} (turn : Notices false entry) :
    Notices false (Parser.collect entry) :=
  remaining_bind fun _ => collectAtMost turn _

end Notices

/-! ## Names -/

theorem ident_notices : Notices false ident := by
  refine .look_bind fun found => ?_
  split
  · exact .advance_bind (.pure _)
  · exact .unexpected rfl

theorem dottedNameFrom_notices (first : Ident) (followers : List Follower) :
    Notices false (dottedNameFrom first followers) := by
  refine (Notices.collect (.look_bind fun found => ?_)).bind fun _ => .pure _
  split
  · exact .advance_bind (ident_notices.bind fun _ => .pure _)
  · split
    · exact .pure _
    · exact .unexpected rfl
  · exact .unexpected rfl

theorem dottedName_notices (followers : List Follower) : Notices false (dottedName followers) :=
  ident_notices.bind fun first => dottedNameFrom_notices first followers

theorem typeName_notices (followers : List Follower) : Notices false (typeName followers) := by
  have name := dottedName_notices followers
  refine .look_bind fun found => ?_
  split
  · exact .advance_bind (name.bind fun _ => .pure _)
  · exact name.weaken.bind fun _ => .pure _
  · exact .unexpected rfl

/-! ## Literals and ranges -/

theorem stringLiteral_notices : Notices false stringLiteral := by
  refine .look_bind fun found => ?_
  split
  · exact .advance_bind (.pure _)
  · exact .unexpected rfl

theorem positiveInt_notices : Notices false positiveInt := by
  refine .look_bind fun found => ?_
  split
  · exact .advance_bind (.pure _)
  · exact .unexpected rfl

theorem signedInt_notices : Notices false signedInt := by
  refine .look_bind fun found => ?_
  split
  · exact .advance_bind (positiveInt_notices.bind fun _ => .pure _)
  · exact positiveInt_notices.weaken

theorem fieldNumber_notices : Notices false fieldNumber :=
  positiveInt_notices.bind fun _ => .check_bind rfl (.pure _)

theorem enumNumber_notices : Notices false enumNumber :=
  signedInt_notices.bind fun _ => .check_bind rfl (.pure _)

theorem numberRange_notices {number : Parser IntLiteral} (bound : Notices false number) :
    Notices false (numberRange number) := by
  refine bound.bind fun start => .look_bind fun found => ?_
  split
  · refine .advance_bind (.look_bind fun found => ?_)
    split
    · exact .advance_bind (.pure _)
    · exact bound.weaken.bind fun _ => .check_bind rfl (.pure _)
  · exact .pure _

theorem numberRanges_notices {number : Parser IntLiteral} (bound : Notices false number) :
    Notices false (numberRanges number) := by
  have range := numberRange_notices bound
  refine range.bind fun first => (Notices.collect (.look_bind fun found => ?_)).bind fun _ =>
    .pure _
  split
  · exact .advance_bind (range.bind fun _ => .pure _)
  · exact .pure _

/-! ## Constants -/

theorem numberConstant_notices (negative : Bool) (start : Nat) :
    Notices false (numberConstant negative start) := by
  refine .look_bind fun found => ?_
  split
  · exact .advance_bind (.spanFrom_bind fun _ => .pure _)
  · exact .advance_bind (.spanFrom_bind fun _ => .pure _)
  · exact .advance_bind (.spanFrom_bind fun _ => .pure _)
  · exact .advance_bind (.spanFrom_bind fun _ => .pure _)
  · exact .unexpected rfl

theorem constant_notices (followers : List Follower) : Notices false (constant followers) := by
  refine .look_bind fun found => ?_
  split
  · exact (dottedName_notices followers).weaken.bind fun _ => .pure _
  · exact .advance_bind (numberConstant_notices _ _)
  · exact .advance_bind (numberConstant_notices _ _)
  · exact (numberConstant_notices _ _).weaken
  · exact (numberConstant_notices _ _).weaken
  · refine .advance_bind ((Notices.collect (.look_bind fun found => ?_)).bind fun _ =>
      .spanFrom_bind fun _ => .pure _)
    split
    · exact .advance_bind (.pure _)
    · exact .pure _
  · exact .unexpected rfl

/-! ## Options -/

theorem optionNamePart_notices : Notices false optionNamePart := by
  refine .look_bind fun found => ?_
  split
  · refine .advance_bind (.look_bind fun found => ?_)
    have name (dot : String) : Notices false (do
        let name ← dottedName [.mark .rightParen]
        let _ ← mark .rightParen
        return "(" ++ dot ++ name.text ++ ")") :=
      (dottedName_notices _).bind fun _ => .mark_bind fun _ => .pure _
    split
    · exact .advance_bind (name ".")
    · exact (name "").weaken
  · exact .advance_bind (.pure _)
  · exact .unexpected rfl

theorem collectAtMost_of_none {α : Type} {entry : Parser (Option α)} {fuel : Nat}
    {state after : ParserState} (run : entry state = (some none, after)) :
    collectAtMost entry (fuel + 1) state = (some [], after) :=
  bind_of_some run

theorem collectAtMost_of_some {α : Type} {entry : Parser (Option α)} {fuel : Nat}
    {state middle : ParserState} {value : α} (run : entry state = (some (some value), middle)) :
    collectAtMost entry (fuel + 1) state =
      (collectAtMost entry fuel >>= fun values => Pure.pure (value :: values)) middle :=
  bind_of_some run

/-- A parser that gives `none` has looked at the next lexeme. -/
def EndsLooking {α : Type} (looked : Bool) (parser : Parser (Option α)) : Prop :=
  ∀ state : ParserState, (looked = true → state.looked = true) →
    (parser state).1 = some none → (parser state).2.looked = true

namespace EndsLooking

variable {α : Type} {looked : Bool}

theorem none : EndsLooking true (Pure.pure none : Parser (Option α)) :=
  fun _ holds _ => holds rfl

theorem some (value : α) : EndsLooking looked (Pure.pure (some value) : Parser (Option α)) :=
  fun _ _ impossible => (by cases impossible)

theorem bind {β : Type} {parser : Parser β} {next : β → Parser (Option α)}
    (second : ∀ value, EndsLooking false (next value)) : EndsLooking looked (parser >>= next) := by
  intro state _ ended
  rcases run : parser state with ⟨_ | value, middle⟩
  · rw [bind_of_none run] at ended
    cases ended
  · rw [bind_of_some run] at ended ⊢
    exact second value middle (fun impossible => absurd impossible Bool.false_ne_true) ended

theorem look_bind {next : Option (Token × Span) → Parser (Option α)}
    (second : ∀ found, EndsLooking true (next found)) : EndsLooking looked (look >>= next) := by
  intro state _ ended
  have ahead := (keeps_look state).2.1
  rcases run : look state with ⟨_ | found, middle⟩
  · rw [bind_of_none run] at ended
    cases ended
  · rw [run] at ahead
    rw [bind_of_some run] at ended ⊢
    exact second found middle (fun _ => ahead) ended

theorem unexpected {expected : Expected} :
    EndsLooking looked (Parser.unexpected expected : Parser (Option α)) := by
  refine look_bind fun found => ?_
  split
  · exact fun _ _ impossible => (by cases impossible)
  · exact bind fun _ _ _ impossible => (by cases impossible)
  · exact bind fun _ _ _ impossible => (by cases impossible)

/-- A repetition ends as its last turn does. -/
theorem collectAtMost {entry : Parser (Option α)} (turn : EndsLooking false entry) (fuel : Nat)
    {state : ParserState} {values : List α}
    (done : (Parser.collectAtMost entry fuel state).1 = .some values) :
    (Parser.collectAtMost entry fuel state).2.looked = true := by
  induction fuel generalizing state values with
  | zero => cases done
  | succ fuel induction =>
      have last := turn state fun impossible => absurd impossible Bool.false_ne_true
      rcases run : entry state with ⟨_ | _ | value, middle⟩
      · rw [Parser.collectAtMost, bind_of_none run] at done
        cases done
      · rw [run] at last
        rw [collectAtMost_of_none run]
        exact last rfl
      · rw [collectAtMost_of_some run] at done ⊢
        rcases more : Parser.collectAtMost entry fuel middle with ⟨_ | rest, after⟩
        · rw [bind_of_none more] at done
          cases done
        · have later := @induction middle rest (by rw [more])
          rw [more] at later
          rw [bind_of_some more]
          exact later

end EndsLooking

/-- After a repetition that ends with looking at a lexeme, the lexeme can be consumed. -/
theorem Notices.collect_bind {α β : Type} {looked : Bool} {entry : Parser (Option α)}
    (turn : Notices false entry) (ends : EndsLooking false entry) {next : List α → Parser β}
    (second : ∀ values, Notices true (next values)) :
    Notices looked (Parser.collect entry >>= next) := by
  intro state _
  have before := (Notices.collect turn).keeps state
  rcases run : Parser.collect entry state with ⟨_ | values, middle⟩
  · rw [run] at before
    rwa [bind_of_none run]
  · have ahead : (Parser.collect entry state).2.looked = true :=
      ends.collectAtMost _ (congrArg Prod.fst run)
    rw [run] at before ahead
    rw [bind_of_some run]
    exact before.trans (second values middle fun _ => ahead)

theorem optionName_notices (start : Nat) : Notices false (optionName start) := by
  refine optionNamePart_notices.bind fun first => .collect_bind (.look_bind fun found => ?_)
    (.look_bind fun found => ?_) fun more => .spanFrom_bind fun span => .advance_bind (.pure _)
  · split
    · exact .advance_bind (optionNamePart_notices.bind fun _ => .pure _)
    · exact .pure _
    · exact .unexpected rfl
  · split
    · exact .bind fun _ => .bind fun _ => .some _
    · exact .none
    · exact .unexpected

theorem optionEntry_notices (followers : List Follower) : Notices false (optionEntry followers) :=
  .bind .nextStart fun start => (optionName_notices start).bind fun _ =>
    (constant_notices followers).bind fun _ => .spanFrom_bind fun _ => .pure _

theorem optionList_notices : Notices false optionList := by
  refine .mark_bind fun _ => (optionEntry_notices _).bind fun first =>
    (Notices.collect (.look_bind fun found => ?_)).bind fun _ => .pure _
  split
  · exact .advance_bind ((optionEntry_notices _).bind fun _ => .pure _)
  · exact .advance_bind (.pure _)
  · exact .unexpected rfl

/-! ## Declarations that begin with a word -/

/-- A parser that keeps the lexical faults, and consumes the next lexeme if that is a certain
word. -/
structure Opens {α : Type} (name : String) (parser : Parser α) : Prop where
  notices : Notices false parser
  consumes : ∀ {state : ParserState} {lexeme : Lexeme} {rest : List Lexeme},
    state.upcoming = lexeme :: rest → lexeme.token = .ident name →
    (parser state).2.upcoming <:+ rest

theorem look_run (state : ParserState) :
    look state = (some (state.upcoming.head?.map fun lexeme => (lexeme.token, lexeme.span)),
      (look state).2) := by
  rw [look]
  split <;> rfl

theorem comments_run (state : ParserState) :
    ∃ found, comments state = (some found, (look state).2) := by
  have run : comments state = _ := bind_of_some (look_run state)
  rw [run]
  split
  · exact ⟨none, rfl⟩
  · split
    · exact ⟨none, rfl⟩
    · exact ⟨some _, rfl⟩

theorem advance_run {state : ParserState} {lexeme : Lexeme} {rest : List Lexeme}
    (upcoming : state.upcoming = lexeme :: rest) :
    ∃ middle, advance state = (some (), middle) ∧ middle.upcoming = rest := by
  rw [advance, upcoming]
  exact ⟨_, rfl, rfl⟩

theorem expect_run {token : Token} {state : ParserState} {lexeme : Lexeme} {rest : List Lexeme}
    (upcoming : state.upcoming = lexeme :: rest) (same : lexeme.token = token) :
    ∃ middle, expect token state = (some lexeme.span, middle) ∧ middle.upcoming = rest := by
  rcases advance_run ((keeps_look state).2.2.trans upcoming) with ⟨middle, run, consumed⟩
  refine ⟨middle, ?_, consumed⟩
  rw [expect, bind_of_some (look_run state), upcoming]
  simp only [List.head?_cons, Option.map_some, same, if_true]
  exact bind_of_some run

theorem Opens.word_bind {α : Type} {name : String} {next : Span → Parser α}
    (second : ∀ span, Notices false (next span)) : Opens name (word name >>= next) where
  notices := .word_bind second
  consumes upcoming same := by
    rcases expect_run upcoming same with ⟨middle, run, rest⟩
    rw [word, bind_of_some run, ← rest]
    exact ((second _).keeps middle).suffix

theorem Opens.comments_bind {α : Type} {name : String} {next : Option String → Parser α}
    (second : ∀ comments, Opens name (next comments)) : Opens name (comments >>= next) where
  notices := Notices.comments.bind fun comments => (second comments).notices
  consumes := by
    intro state lexeme rest upcoming same
    rcases comments_run state with ⟨found, run⟩
    rw [bind_of_some run]
    exact (second found).consumes ((keeps_look state).2.2.trans upcoming) same

theorem optionStatement_opens : Opens "option" optionStatement :=
  .word_bind fun _ => (optionEntry_notices _).bind fun _ => .mark_bind fun _ =>
    .spanFrom_bind fun _ => .pure _

/-! ## Fields -/

theorem fieldLabel_notices : Notices false fieldLabel := by
  refine .look_bind fun found => ?_
  split
  · exact .advance_bind (.pure _)
  · exact .advance_bind (.pure _)
  · exact .advance_bind (.pure _)
  · exact .pure _
  · exact .pure _
  · exact .unexpected rfl

theorem isLexical_of_labelError? {version : Version} {host : Option FieldHost}
    {label : FieldLabel} {span : Span} {error : SyntaxError}
    (found : labelError? version host label span = some error) : error.isLexical = false := by
  rw [labelError?.eq_def] at found
  split at found
  · cases found
    rfl
  · cases found
    rfl
  · split at found <;> cases found
    rfl
  · cases found

theorem mapType_notices (start : Nat) : Notices false (mapType start) :=
  .mark_bind fun _ => (typeName_notices _).bind fun _ => .mark_bind fun _ =>
    (typeName_notices _).bind fun _ => .mark_bind fun _ => .spanFrom_bind fun _ => .pure _

theorem fieldType_notices (host : Option FieldHost) (label : Option (FieldLabel × Span)) :
    Notices false (fieldType host label) := by
  refine .look_bind fun found => ?_
  split
  · exact .report_bind rfl .fail
  · refine .advance_bind (.look_bind fun found => ?_)
    split
    · refine (mapType_notices _).weaken.bind fun type => ?_
      cases label <;> cases host
      · exact .pure _
      · exact .spanFrom_bind fun _ => .report_bind rfl (.pure _)
      · exact .report_bind rfl (.pure _)
      · exact .report_bind rfl (.spanFrom_bind fun _ => .report_bind rfl (.pure _))
    · exact (dottedNameFrom_notices _ _).weaken.bind fun _ => .pure _
  · exact (typeName_notices _).weaken.bind fun _ => .pure _

theorem fieldOptions_notices : Notices false fieldOptions := by
  refine .look_bind fun found => ?_
  split
  · exact optionList_notices.weaken.bind fun _ => .mark_bind fun _ => .pure _
  · exact .advance_bind (.pure _)
  · exact .unexpected rfl

theorem judgeLabel_notices (version : Version) (host : Option FieldHost)
    (label : Option (FieldLabel × Span)) : Notices false (judgeLabel version host label) := by
  rcases label with _ | ⟨label, span⟩
  · exact .pure _
  · rw [judgeLabel]
    cases found : labelError? version host label span with
    | none => exact .pure _
    | some error => exact fun state _ => keeps_report (isLexical_of_labelError? found) state

theorem fieldAfterLabel_notices (host : Option FieldHost) (label : Option (FieldLabel × Span))
    (comments : Option String) (start : Nat) :
    Notices false (fieldAfterLabel host label comments start) :=
  (fieldType_notices host label).bind fun _ => ident_notices.bind fun _ => .mark_bind fun _ =>
    fieldNumber_notices.bind fun _ => fieldOptions_notices.bind fun _ =>
      .spanFrom_bind fun _ => .pure _

theorem field_notices (version : Version) (host : Option FieldHost) :
    Notices false (field version host) := by
  rw [field_eq]
  exact Notices.comments.bind fun _ => fieldLabel_notices.bind fun _ =>
    Notices.nextStart.bind fun _ => (judgeLabel_notices _ _ _).bind fun _ =>
      fieldAfterLabel_notices _ _ _ _

/-! ## Bodies -/

/-- All entries of a body keep the lexical faults. -/
def EntriesNotice (entry : Token → Option (Parser Entry)) : Prop :=
  ∀ {token parser}, entry token = some parser → Notices false parser

theorem body_notices {expected : Expected} {entry : Token → Option (Parser Entry)}
    (other : (SyntaxError.unexpectedEnd expected).isLexical = false)
    (entries : EntriesNotice entry) : Notices false (body expected entry) := by
  refine .mark_bind fun _ => .collect (.look_bind fun found => ?_)
  split
  · exact .advance_bind (.pure _)
  · exact .advance_bind (.pure _)
  · split
    · next found => exact (entries found).weaken.bind fun _ => .pure _
    · exact .unexpected other
  · exact .unexpected other

theorem optionBodyEntry_notices : Notices false optionBodyEntry :=
  optionStatement_opens.notices.bind fun _ => .pure _

/-! ## Reserved numbers and names -/

theorem reservedName_notices : Notices false reservedName :=
  stringLiteral_notices.bind fun _ => .check_bind rfl (.pure _)

theorem reservedStatement_notices {number : Parser IntLiteral} (bound : Notices false number) :
    Notices false (reservedStatement number) := by
  have ranges : Notices false (do
      let ranges ← numberRanges number
      let _ ← mark .semicolon
      return Reserved.ranges ranges) :=
    (numberRanges_notices bound).bind fun _ => .mark_bind fun _ => .pure _
  refine .word_bind fun _ => .look_bind fun found => ?_
  split
  · exact ranges.weaken
  · exact ranges.weaken
  · refine reservedName_notices.weaken.bind fun first =>
      (Notices.collect (.look_bind fun found => ?_)).bind fun _ => .pure _
    split
    · exact .advance_bind (reservedName_notices.bind fun _ => .pure _)
    · exact .advance_bind (.pure _)
    · exact .unexpected rfl
  · exact .unexpected rfl

theorem extensionsStatement_notices : Notices false extensionsStatement := by
  have ended (start : Span) (ranges : List NumberRange) (options : List OptionEntry) :
      Notices false (do
        let _ ← mark .semicolon
        return (⟨ranges, options, ← spanFrom start.start⟩ : ExtensionRanges)) :=
    .mark_bind fun _ => .spanFrom_bind fun _ => .pure _
  refine .word_bind fun start => (numberRanges_notices fieldNumber_notices).bind fun ranges =>
    .look_bind fun found => ?_
  split
  · exact optionList_notices.weaken.bind fun options => ended start ranges options
  · exact (ended start ranges []).weaken

/-! ## Enums -/

theorem enumValue_notices : Notices false enumValue := by
  refine Notices.comments.bind fun comments => ident_notices.bind fun name => .mark_bind fun _ =>
    enumNumber_notices.bind fun number => .look_bind fun found => ?_
  have ended (options : List OptionEntry) : Notices false (do
      let _ ← mark .semicolon
      return ({ name, number, options, comments, span := ← spanFrom name.span.start } :
        EnumValue)) :=
    .mark_bind fun _ => .spanFrom_bind fun _ => .pure _
  split
  · exact (ended []).weaken
  · exact optionList_notices.weaken.bind ended
  · exact .bind (.unexpected rfl) ended

theorem enumDeclaration_opens : Opens "enum" enumDeclaration := by
  refine .comments_bind fun comments => .word_bind fun start => ident_notices.bind fun name =>
    (body_notices rfl ?_).bind fun entries => .spanFrom_bind fun _ => .pure _
  intro token parser found
  dsimp only at found
  split at found <;> cases found
  · exact optionBodyEntry_notices
  · exact (reservedStatement_notices enumNumber_notices).bind fun _ => .pure _
  · exact enumValue_notices.bind fun _ => .pure _

/-! ## Services -/

theorem streamFlag_notices : Notices false streamFlag := by
  refine .look_bind fun found => ?_
  split
  · exact .advance_bind (.pure _)
  · exact .pure _
  · exact .pure _
  · exact .unexpected rfl

theorem methodType_notices : Notices false methodType :=
  .mark_bind fun _ => streamFlag_notices.bind fun _ => (typeName_notices _).bind fun _ =>
    .mark_bind fun _ => .pure _

theorem method_notices : Notices false method := by
  refine Notices.comments.bind fun comments => .word_bind fun start =>
    ident_notices.bind fun name => methodType_notices.bind fun input => .word_bind fun _ =>
      methodType_notices.bind fun output => .look_bind fun found => ?_
  split
  · exact .advance_bind (.spanFrom_bind fun _ => .pure _)
  · refine (body_notices rfl ?_).weaken.bind fun entries => .spanFrom_bind fun _ => .pure _
    intro token parser found
    dsimp only at found
    split at found <;> cases found
    exact optionBodyEntry_notices
  · exact .bind (.unexpected rfl) fun _ => .spanFrom_bind fun _ => .pure _

theorem service_opens : Opens "service" service := by
  refine .comments_bind fun comments => .word_bind fun start => ident_notices.bind fun name =>
    (body_notices rfl ?_).bind fun entries => .spanFrom_bind fun _ => .pure _
  intro token parser found
  dsimp only at found
  split at found <;> cases found
  · exact method_notices.bind fun _ => .pure _
  · exact optionBodyEntry_notices

/-! ## Messages and what they hold -/

theorem hostField?_notice (version : Version) (host : FieldHost) :
    EntriesNotice (hostField? version host) := by
  intro token parser found
  rw [hostField?.eq_def] at found
  split at found <;> cases found
  · exact (field_notices version host).bind fun _ => .pure _
  · exact (field_notices version host).bind fun _ => .pure _

theorem extend_opens (version : Version) : Opens "extend" (extend version) :=
  .comments_bind fun _ => .word_bind fun _ => (typeName_notices _).bind fun _ =>
    (body_notices rfl (hostField?_notice version .extend)).bind fun _ =>
      .spanFrom_bind fun _ => .pure _

theorem oneof_notices (version : Version) : Notices false (oneof version) := by
  refine Notices.comments.bind fun comments => .word_bind fun start =>
    ident_notices.bind fun name => (body_notices rfl ?_).bind fun entries =>
      .spanFrom_bind fun _ => .check_bind rfl (.pure _)
  intro token parser found
  dsimp only at found
  split at found
  · cases found
    exact optionBodyEntry_notices
  · exact hostField?_notice version .oneof found

theorem message_opens (version : Version) {depth : Nat}
    (inside : Notices false (message version depth)) :
    Opens "message" (message version (depth + 1)) := by
  refine .comments_bind fun comments => .word_bind fun start => ident_notices.bind fun name =>
    (body_notices rfl ?_).bind fun entries => .spanFrom_bind fun _ => .pure _
  intro token parser found
  dsimp only at found
  split at found <;> cases found
  · exact inside.bind fun _ => .pure _
  · exact enumDeclaration_opens.notices.bind fun _ => .pure _
  · exact (extend_opens version).notices.bind fun _ => .pure _
  · exact (oneof_notices version).bind fun _ => .pure _
  · exact optionBodyEntry_notices
  · exact (reservedStatement_notices fieldNumber_notices).bind fun _ => .pure _
  · exact extensionsStatement_notices.bind fun _ => .pure _
  · exact (field_notices version none).bind fun _ => .pure _
  · exact (field_notices version none).bind fun _ => .pure _

theorem message_notices (version : Version) (depth : Nat) :
    Notices false (message version depth) := by
  induction depth with
  | zero => exact .fail
  | succ depth induction => exact (message_opens version induction).notices

end Parser

end ProtoSchema.Syntax
