import ProtoSchema.Proofs.Syntax.Recovery
/-! # No parser fails silently

A parser fails only if it has recorded a fault, or stands before a character that begins no
token, which is a lexical fault. The bounds on repetitions and on nested messages are never
reached, since a failure at a bound would be silent.
-/

namespace ProtoSchema.Syntax

/-- The next lexeme is a character that begins no token, and has been looked at. -/
def ParserState.Barred (state : ParserState) : Prop :=
  state.looked = true ∧ ∃ lexeme rest, state.upcoming = lexeme :: rest ∧ lexeme.token = .invalid

namespace Parser

/-- What a parser comes to that owes some lexemes for its value: it consumes at least these and
gives the value, or it fails and its failure shows. -/
inductive Shows {α : Type} (owed : α → Nat) (before : ParserState) :
    Option α × ParserState → Prop
  | value {value : α} {after : ParserState}
      (consumed : after.upcoming.length + owed value ≤ before.upcoming.length)
      (recorded : before.errors.length ≤ after.errors.length) :
      Shows owed before (some value, after)
  | failed {after : ParserState}
      (alarm : before.errors.length < after.errors.length ∨ after.Barred) :
      Shows owed before (none, after)

/-- A parser shows its failures if fewer lexemes are left than a bound says. If it runs ahead,
at least one is left. -/
def Alarms {α : Type} (bound : Nat) (ahead : Bool) (owed : α → Nat) (parser : Parser α) : Prop :=
  ∀ state : ParserState, state.upcoming.length < bound → (ahead = true → state.upcoming ≠ []) →
    Shows owed state (parser state)

/-- A turn of a repetition owes a lexeme, unless it is the last one. -/
def turnOwes {α : Type} : Option α → Nat
  | some _ => 1
  | none => 0

theorem length_errors_look (state : ParserState) :
    state.errors.length ≤ (look state).2.errors.length :=
  (keeps_look state).1.recorded.length_le

namespace Alarms

variable {α β : Type} {bound : Nat} {ahead : Bool}

/-! ## Sequences -/

theorem pure {owed : α → Nat} {value : α} (paid : owed value = 0) :
    Alarms bound ahead owed (Pure.pure value : Parser α) :=
  fun state _ _ => .value (by simp [paid]) (Nat.le_refl _)

theorem shows {owed : α → Nat} {parser : Parser α} (alarms : Alarms bound false owed parser)
    {state : ParserState} (fits : state.upcoming.length < bound) :
    Shows owed state (parser state) :=
  alarms state fits fun impossible => absurd impossible Bool.false_ne_true

theorem weaken {owed : α → Nat} {parser : Parser α} (alarms : Alarms bound false owed parser) :
    Alarms bound ahead owed parser :=
  fun _ fits _ => alarms.shows fits

theorem mono {more owed : α → Nat} {parser : Parser α} (alarms : Alarms bound ahead more parser)
    (less : ∀ value, owed value ≤ more value) : Alarms bound ahead owed parser := by
  intro state fits left
  have shown := alarms state fits left
  generalize parser state = result at shown
  cases shown with
  | @value value after consumed recorded =>
      have owes := less value
      exact .value (by omega) recorded
  | failed alarm => exact .failed alarm

theorem restrict {owed : α → Nat} {parser : Parser α} {limit : Nat}
    (alarms : Alarms bound ahead owed parser) (less : limit ≤ bound) :
    Alarms limit ahead owed parser :=
  fun state fits => alarms state (Nat.lt_of_lt_of_le fits less)

theorem bind {parser : Parser α} {next : α → Parser β} {paid : Nat} {owed : β → Nat}
    (first : Alarms bound ahead (fun _ => paid) parser)
    (second : ∀ value, Alarms (bound - paid) false (fun result => owed result - paid)
      (next value)) :
    Alarms bound ahead owed (parser >>= next) := by
  intro state fits left
  have shown := first state fits left
  rcases run : parser state with ⟨outcome, middle⟩
  rw [run] at shown
  cases shown with
  | failed alarm =>
      rw [bind_of_none run]
      exact .failed alarm
  | @value value _ consumed recorded =>
      rw [bind_of_some run]
      have later : Shows _ middle (next value middle) := (second value).shows (by omega)
      generalize next value middle = result at later
      cases later with
      | value consumedToo recordedToo => exact .value (by omega) (by omega)
      | failed alarm => exact .failed (alarm.imp_left (Nat.lt_of_le_of_lt recorded))

/-- A parser that neither consumes anything nor fails. -/
theorem bind_of_quiet {parser : Parser α} {next : α → Parser β} {owed : β → Nat}
    (quiet : ∀ state, ∃ value after, parser state = (some value, after) ∧
      after.upcoming = state.upcoming ∧ state.errors.length ≤ after.errors.length)
    (second : ∀ value, Alarms bound ahead owed (next value)) :
    Alarms bound ahead owed (parser >>= next) := by
  intro state fits left
  rcases quiet state with ⟨value, middle, run, same, recorded⟩
  rw [bind_of_some run]
  have later := second value middle (same ▸ fits) (same ▸ left)
  generalize next value middle = result at later
  cases later with
  | value consumed recordedToo => exact .value (same ▸ consumed) (recorded.trans recordedToo)
  | failed alarm => exact .failed (alarm.imp_left (Nat.lt_of_le_of_lt recorded))

/-! ## Looking and consuming -/

theorem look_bind {next : Option (Token × Span) → Parser β} {owed : β → Nat}
    (second : ∀ found, Alarms bound found.isSome owed (next found)) :
    Alarms bound ahead owed (look >>= next) := by
  intro state fits left
  have same := (keeps_look state).2.2
  have recorded := length_errors_look state
  rw [bind_of_some (look_run state)]
  have later := second (state.upcoming.head?.map fun lexeme => (lexeme.token, lexeme.span))
    (look state).2 (same ▸ fits) (fun found none => by simp [same ▸ none] at found)
  generalize next _ (look state).2 = result at later
  cases later with
  | value consumed recordedToo => exact .value (same ▸ consumed) (recorded.trans recordedToo)
  | failed alarm => exact .failed (alarm.imp_left (Nat.lt_of_le_of_lt recorded))

theorem advance_bind {next : Unit → Parser β} {owed : β → Nat}
    (second : Alarms (bound - 1) false (fun result => owed result - 1) (next ())) :
    Alarms bound true owed (advance >>= next) := by
  have consumes : Alarms bound true (fun _ => 1) advance := by
    intro state _ left
    rcases List.exists_cons_of_ne_nil (left rfl) with ⟨lexeme, rest, upcoming⟩
    rw [advance, upcoming]
    exact .value (by simp [upcoming]) (Nat.le_refl _)
  exact consumes.bind fun _ => second

/-- At the end of the source nothing is left to consume, which is no failure either. -/
theorem advance : Alarms bound ahead (fun _ => 0) Parser.advance := by
  intro state _ _
  rw [Parser.advance]
  cases upcoming : state.upcoming with
  | nil => exact .value (Nat.le_refl _) (Nat.le_refl _)
  | cons lexeme rest => exact .value (by simp [upcoming]) (Nat.le_refl _)

/-! ## Faults -/

theorem report_bind {error : SyntaxError} {next : Unit → Parser β} {owed : β → Nat}
    (second : Alarms bound ahead owed (next ())) :
    Alarms bound ahead owed (report error >>= next) :=
  bind_of_quiet (fun _ => ⟨(), _, rfl, rfl, by simp⟩) fun _ => second

theorem report_fail {error : SyntaxError} {owed : α → Nat} :
    Alarms bound ahead owed (report error >>= fun _ => Parser.fail : Parser α) :=
  fun _ _ _ => .failed (.inl (by simp))

theorem check_bind {holds : Bool} {error : SyntaxError} {next : Unit → Parser β}
    {owed : β → Nat} (second : Alarms bound ahead owed (next ())) :
    Alarms bound ahead owed (check holds error >>= next) := by
  cases holds with
  | true => exact second
  | false => exact report_bind second

/-- A failure before a character that begins no token has no fault of its own. -/
theorem unexpected {expected : Expected} {owed : α → Nat} :
    Alarms bound ahead owed (Parser.unexpected expected : Parser α) := by
  intro state fits left
  rcases keeps_look state with ⟨-, looked, same⟩
  have recorded := length_errors_look state
  rw [Parser.unexpected, bind_of_some (look_run state)]
  have reported (error : SyntaxError) :
      Shows owed state ((do report error; Parser.fail : Parser α) (look state).2) :=
    .failed (.inl (by simp; omega))
  cases next : state.upcoming with
  | nil => exact reported _
  | cons lexeme rest =>
      rcases lexeme with ⟨comments, errors, token, span⟩
      cases token with
      | invalid => exact .failed (.inr ⟨looked, _, rest, same.trans next, rfl⟩)
      | _ => exact reported _

theorem unexpected_bind {expected : Expected} {next : α → Parser β} {owed : β → Nat}
    (second : ∀ value, Alarms bound false owed (next value)) :
    Alarms bound ahead owed (Parser.unexpected expected >>= next) := by
  have nothing : Alarms bound ahead (fun _ => 0) (Parser.unexpected expected : Parser α) :=
    unexpected
  exact nothing.bind second

/-! ## Places and comments -/

theorem spanFrom_bind {next : Span → Parser β} {start : Nat} {owed : β → Nat}
    (second : ∀ span, Alarms bound ahead owed (next span)) :
    Alarms bound ahead owed (spanFrom start >>= next) :=
  bind_of_quiet (fun _ => ⟨_, _, rfl, rfl, Nat.le_refl _⟩) second

/-- The number of lexemes that are left is itself a bound. -/
theorem remaining_bind {next : Nat → Parser β} {owed : β → Nat}
    (second : ∀ count, Alarms (count + 1) ahead owed (next count)) :
    Alarms bound ahead owed (remaining >>= next) :=
  fun state _ => second state.upcoming.length state (Nat.lt_succ_self _)

theorem comments_bind {next : Option String → Parser β} {owed : β → Nat}
    (second : ∀ comments, Alarms bound ahead owed (next comments)) :
    Alarms bound ahead owed (comments >>= next) :=
  bind_of_quiet (fun state =>
    have ⟨found, run⟩ := comments_run state
    ⟨found, _, run, (keeps_look state).2.2, length_errors_look state⟩) second

theorem nextStart_bind {next : Nat → Parser β} {owed : β → Nat}
    (second : ∀ start, Alarms bound ahead owed (next start)) :
    Alarms bound ahead owed (nextStart >>= next) := by
  refine bind_of_quiet (fun state => ?_) second
  have run : nextStart state = _ := bind_of_some (look_run state)
  rw [run]
  cases state.upcoming.head? <;>
    exact ⟨_, _, rfl, (keeps_look state).2.2, length_errors_look state⟩

/-! ## Tokens -/

theorem expect (token : Token) : Alarms bound ahead (fun _ => 1) (Parser.expect token) := by
  refine look_bind fun found => ?_
  split
  · split
    · exact advance_bind (pure rfl)
    · exact unexpected
  · exact unexpected

theorem word (name : String) : Alarms bound ahead (fun _ => 1) (Parser.word name) :=
  expect _

theorem mark (symbol : Punctuation) : Alarms bound ahead (fun _ => 1) (Parser.mark symbol) :=
  expect _

/-! ## Repetition -/

/-- A repetition whose turns consume something ends before its bound is reached. -/
theorem collectAtMost {entry : Parser (Option α)} (turn : Alarms bound false turnOwes entry)
    {fuel : Nat} {state : ParserState} (fits : state.upcoming.length < bound)
    (enough : state.upcoming.length < fuel) :
    Shows (fun _ => 0) state (Parser.collectAtMost entry fuel state) := by
  induction fuel generalizing state with
  | zero => exact absurd enough (Nat.not_lt_zero _)
  | succ fuel induction =>
      have shown := turn.shows fits
      rcases run : entry state with ⟨outcome, middle⟩
      rw [run] at shown
      cases shown with
      | failed alarm =>
          rw [Parser.collectAtMost, bind_of_none run]
          exact .failed alarm
      | @value value _ consumed recorded =>
          cases value with
          | none =>
              rw [collectAtMost_of_none run]
              exact .value consumed recorded
          | some value =>
              rw [turnOwes] at consumed
              have later := @induction middle (by omega) (by omega)
              rw [collectAtMost_of_some run]
              rcases more : Parser.collectAtMost entry fuel middle with ⟨rest, after⟩
              rw [more] at later
              cases later with
              | failed alarm =>
                  rw [bind_of_none more]
                  exact .failed (alarm.imp_left (Nat.lt_of_le_of_lt recorded))
              | value consumedToo recordedToo =>
                  rw [bind_of_some more]
                  exact .value (by omega) (recorded.trans recordedToo)

theorem collect {entry : Parser (Option α)} (turn : Alarms bound false turnOwes entry) :
    Alarms bound ahead (fun _ => 0) (Parser.collect entry) :=
  fun state fits _ => collectAtMost turn fits (Nat.lt_succ_self state.upcoming.length)

end Alarms

variable {bound : Nat} {ahead : Bool}

/-! ## Names -/

theorem ident_alarms : Alarms bound ahead (fun _ => 1) ident := by
  refine .look_bind fun found => ?_
  split
  · exact .advance_bind (.pure rfl)
  · exact .unexpected

theorem dottedNameFrom_alarms (first : Ident) (followers : List Follower) :
    Alarms bound ahead (fun _ => 0) (dottedNameFrom first followers) := by
  refine .bind (.collect (.look_bind fun found => ?_)) fun _ => .pure rfl
  split
  · exact .advance_bind (ident_alarms.bind fun _ => .pure rfl)
  · split
    · exact .pure rfl
    · exact .unexpected
  · exact .unexpected

theorem dottedName_alarms (followers : List Follower) :
    Alarms bound ahead (fun _ => 1) (dottedName followers) :=
  ident_alarms.bind fun first => dottedNameFrom_alarms first followers

theorem typeName_alarms (followers : List Follower) :
    Alarms bound ahead (fun _ => 1) (typeName followers) := by
  refine .look_bind fun found => ?_
  split
  · exact .advance_bind ((dottedName_alarms followers).bind fun _ => .pure rfl)
  · exact (dottedName_alarms followers).bind fun _ => .pure rfl
  · exact .unexpected

/-! ## Literals and ranges -/

theorem stringLiteral_alarms : Alarms bound ahead (fun _ => 1) stringLiteral := by
  refine .look_bind fun found => ?_
  split
  · exact .advance_bind (.pure rfl)
  · exact .unexpected

theorem positiveInt_alarms : Alarms bound ahead (fun _ => 1) positiveInt := by
  refine .look_bind fun found => ?_
  split
  · exact .advance_bind (.pure rfl)
  · exact .unexpected

theorem signedInt_alarms : Alarms bound ahead (fun _ => 1) signedInt := by
  refine .look_bind fun found => ?_
  split
  · exact .advance_bind (positiveInt_alarms.bind fun _ => .pure rfl)
  · exact positiveInt_alarms

theorem fieldNumber_alarms : Alarms bound ahead (fun _ => 1) fieldNumber :=
  positiveInt_alarms.bind fun _ => .check_bind (.pure rfl)

theorem enumNumber_alarms : Alarms bound ahead (fun _ => 1) enumNumber :=
  signedInt_alarms.bind fun _ => .check_bind (.pure rfl)

theorem numberRange_alarms {number : Parser IntLiteral}
    (alarms : ∀ {limit}, Alarms limit false (fun _ => 1) number) :
    Alarms bound ahead (fun _ => 1) (numberRange number) := by
  refine alarms.weaken.bind fun start => .look_bind fun found => ?_
  split
  · refine .advance_bind (.look_bind fun found => ?_)
    split
    · exact .advance_bind (.pure rfl)
    · exact alarms.weaken.bind fun _ => .check_bind (.pure rfl)
  · exact .pure rfl

theorem numberRanges_alarms {number : Parser IntLiteral}
    (alarms : ∀ {limit}, Alarms limit false (fun _ => 1) number) :
    Alarms bound ahead (fun _ => 1) (numberRanges number) := by
  refine (numberRange_alarms alarms).bind fun first =>
    .bind (.collect (.look_bind fun found => ?_)) fun _ => .pure rfl
  split
  · exact .advance_bind ((numberRange_alarms alarms).bind fun _ => .pure rfl)
  · exact .pure rfl

/-! ## Constants -/

theorem numberConstant_alarms (negative : Bool) (start : Nat) :
    Alarms bound ahead (fun _ => 1) (numberConstant negative start) := by
  refine .look_bind fun found => ?_
  split
  · exact .advance_bind (.spanFrom_bind fun _ => .pure rfl)
  · exact .advance_bind (.spanFrom_bind fun _ => .pure rfl)
  · exact .advance_bind (.spanFrom_bind fun _ => .pure rfl)
  · exact .advance_bind (.spanFrom_bind fun _ => .pure rfl)
  · exact .unexpected

theorem constant_alarms (followers : List Follower) :
    Alarms bound ahead (fun _ => 1) (constant followers) := by
  refine .look_bind fun found => ?_
  split
  · exact (dottedName_alarms followers).bind fun _ => .pure rfl
  · exact .advance_bind ((numberConstant_alarms _ _).mono fun _ => Nat.zero_le 1)
  · exact .advance_bind ((numberConstant_alarms _ _).mono fun _ => Nat.zero_le 1)
  · exact numberConstant_alarms _ _
  · exact numberConstant_alarms _ _
  · refine .advance_bind (.bind (.collect (.look_bind fun found => ?_)) fun _ =>
      .spanFrom_bind fun _ => .pure rfl)
    split
    · exact .advance_bind (.pure rfl)
    · exact .pure rfl
  · exact .unexpected

/-! ## Options -/

theorem optionNamePart_alarms : Alarms bound ahead (fun _ => 1) optionNamePart := by
  refine .look_bind fun found => ?_
  split
  · refine .advance_bind (.look_bind fun found => ?_)
    have name {limit : Nat} {ahead : Bool} (dot : String) : Alarms limit ahead (fun _ => 0) (do
        let name ← dottedName [.mark .rightParen]
        let _ ← mark .rightParen
        return "(" ++ dot ++ name.text ++ ")") :=
      (dottedName_alarms _).bind fun _ => (Alarms.mark _).bind fun _ => .pure rfl
    split
    · exact .advance_bind (name ".")
    · exact name ""
  · exact .advance_bind (.pure rfl)
  · exact .unexpected

theorem optionName_alarms (start : Nat) :
    Alarms bound ahead (fun _ => 1) (optionName start) := by
  refine optionNamePart_alarms.bind fun first => .bind (.collect (.look_bind fun found => ?_))
    fun more => .spanFrom_bind fun span => Alarms.advance.bind fun _ => .pure rfl
  split
  · exact .advance_bind (optionNamePart_alarms.bind fun _ => .pure rfl)
  · exact .pure rfl
  · exact .unexpected

theorem optionEntry_alarms (followers : List Follower) :
    Alarms bound ahead (fun _ => 1) (optionEntry followers) :=
  .nextStart_bind fun start => (optionName_alarms start).bind fun _ =>
    (constant_alarms followers).bind fun _ => .spanFrom_bind fun _ => .pure rfl

theorem optionStatement_alarms : Alarms bound ahead (fun _ => 1) optionStatement :=
  (Alarms.word _).bind fun _ => (optionEntry_alarms _).bind fun _ => (Alarms.mark _).bind fun _ =>
    .spanFrom_bind fun _ => .pure rfl

theorem optionList_alarms : Alarms bound ahead (fun _ => 1) optionList := by
  refine (Alarms.mark _).bind fun _ => (optionEntry_alarms _).bind fun first =>
    .bind (.collect (.look_bind fun found => ?_)) fun _ => .pure rfl
  split
  · exact .advance_bind ((optionEntry_alarms _).bind fun _ => .pure rfl)
  · exact .advance_bind (.pure rfl)
  · exact .unexpected

/-! ## Fields -/

theorem fieldLabel_alarms : Alarms bound ahead (fun _ => 0) fieldLabel := by
  refine .look_bind fun found => ?_
  split
  · exact .advance_bind (.pure rfl)
  · exact .advance_bind (.pure rfl)
  · exact .advance_bind (.pure rfl)
  · exact .pure rfl
  · exact .pure rfl
  · exact .unexpected

theorem mapType_alarms (start : Nat) : Alarms bound ahead (fun _ => 1) (mapType start) :=
  (Alarms.mark _).bind fun _ => (typeName_alarms _).bind fun _ => (Alarms.mark _).bind fun _ =>
    (typeName_alarms _).bind fun _ => (Alarms.mark _).bind fun _ => .spanFrom_bind fun _ =>
      .pure rfl

theorem fieldType_alarms (host : Option FieldHost) (label : Option (FieldLabel × Span)) :
    Alarms bound ahead (fun _ => 1) (fieldType host label) := by
  refine .look_bind fun found => ?_
  split
  · exact .report_fail
  · refine .advance_bind (.look_bind fun found => ?_)
    split
    · refine (mapType_alarms _).bind fun type => ?_
      cases label <;> cases host
      · exact .pure rfl
      · exact .spanFrom_bind fun _ => .report_bind (.pure rfl)
      · exact .report_bind (.pure rfl)
      · exact .report_bind (.spanFrom_bind fun _ => .report_bind (.pure rfl))
    · exact (dottedNameFrom_alarms _ _).bind fun _ => .pure rfl
  · exact (typeName_alarms _).bind fun _ => .pure rfl

theorem fieldOptions_alarms : Alarms bound ahead (fun _ => 1) fieldOptions := by
  refine .look_bind fun found => ?_
  split
  · exact optionList_alarms.bind fun _ => (Alarms.mark _).bind fun _ => .pure rfl
  · exact .advance_bind (.pure rfl)
  · exact .unexpected

theorem judgeLabel_alarms (version : Version) (host : Option FieldHost)
    (label : Option (FieldLabel × Span)) :
    Alarms bound ahead (fun _ => 0) (judgeLabel version host label) := by
  rcases label with _ | ⟨label, span⟩
  · exact .pure rfl
  · rw [judgeLabel]
    cases labelError? version host label span with
    | none => exact .pure rfl
    | some error => exact .report_bind (.pure rfl)

theorem field_alarms (version : Version) (host : Option FieldHost) :
    Alarms bound ahead (fun _ => 1) (field version host) := by
  rw [field_eq]
  refine .comments_bind fun comments => fieldLabel_alarms.bind fun label =>
    .nextStart_bind fun start => (judgeLabel_alarms _ _ _).bind fun _ => ?_
  exact (fieldType_alarms _ _).bind fun _ => ident_alarms.bind fun _ =>
    (Alarms.mark _).bind fun _ => fieldNumber_alarms.bind fun _ =>
      fieldOptions_alarms.bind fun _ => .spanFrom_bind fun _ => .pure rfl

/-! ## Bodies -/

/-- All entries of a body consume something, and show their failures. -/
def EntriesAlarm (bound : Nat) (entry : Token → Option (Parser Entry)) : Prop :=
  ∀ {token parser}, entry token = some parser → Alarms bound false (fun _ => 1) parser

theorem body_alarms {expected : Expected} {entry : Token → Option (Parser Entry)}
    (entries : EntriesAlarm (bound - 1) entry) :
    Alarms bound ahead (fun _ => 1) (body expected entry) := by
  refine (Alarms.mark _).bind fun _ => .mono (.collect (.look_bind fun found => ?_)) fun _ =>
    Nat.zero_le _
  split
  · exact .advance_bind (.pure rfl)
  · exact .advance_bind (.pure rfl)
  · split
    · next found => exact (entries found).weaken.bind fun _ => .pure rfl
    · exact .unexpected
  · exact .unexpected

theorem optionBodyEntry_alarms : Alarms bound ahead (fun _ => 1) optionBodyEntry :=
  optionStatement_alarms.bind fun _ => .pure rfl

/-! ## Reserved numbers and names -/

theorem reservedName_alarms : Alarms bound ahead (fun _ => 1) reservedName :=
  stringLiteral_alarms.bind fun _ => .check_bind (.pure rfl)

theorem reservedStatement_alarms {number : Parser IntLiteral}
    (alarms : ∀ {limit}, Alarms limit false (fun _ => 1) number) :
    Alarms bound ahead (fun _ => 1) (reservedStatement number) := by
  have ranges {limit : Nat} {ahead : Bool} : Alarms limit ahead (fun _ => 0) (do
      let ranges ← numberRanges number
      let _ ← mark .semicolon
      return Reserved.ranges ranges) :=
    (numberRanges_alarms alarms).bind fun _ => (Alarms.mark _).bind fun _ => .pure rfl
  refine (Alarms.word _).bind fun _ => .look_bind fun found => ?_
  split
  · exact ranges
  · exact ranges
  · refine reservedName_alarms.bind fun first =>
      .bind (.collect (.look_bind fun found => ?_)) fun _ => .pure rfl
    split
    · exact .advance_bind (reservedName_alarms.bind fun _ => .pure rfl)
    · exact .advance_bind (.pure rfl)
    · exact .unexpected
  · exact .unexpected

theorem extensionsStatement_alarms : Alarms bound ahead (fun _ => 1) extensionsStatement := by
  have ended {limit : Nat} {ahead : Bool} (start : Span) (ranges : List NumberRange)
      (options : List OptionEntry) : Alarms limit ahead (fun _ => 0) (do
        let _ ← mark .semicolon
        return (⟨ranges, options, ← spanFrom start.start⟩ : ExtensionRanges)) :=
    (Alarms.mark _).bind fun _ => .spanFrom_bind fun _ => .pure rfl
  refine (Alarms.word _).bind fun start => (numberRanges_alarms fieldNumber_alarms).bind
    fun ranges => .look_bind fun found => ?_
  split
  · exact optionList_alarms.bind fun options => ended start ranges options
  · exact ended start ranges []

/-! ## Enums -/

theorem enumValue_alarms : Alarms bound ahead (fun _ => 1) enumValue := by
  refine .comments_bind fun comments => ident_alarms.bind fun name => (Alarms.mark _).bind fun _ =>
    enumNumber_alarms.bind fun number => .look_bind fun found => ?_
  have ended {limit : Nat} {ahead : Bool} (options : List OptionEntry) :
      Alarms limit ahead (fun _ => 0) (do
        let _ ← mark .semicolon
        return ({ name, number, options, comments, span := ← spanFrom name.span.start } :
          EnumValue)) :=
    (Alarms.mark _).bind fun _ => .spanFrom_bind fun _ => .pure rfl
  split
  · exact ended []
  · exact optionList_alarms.bind ended
  · exact .unexpected_bind ended

theorem enumDeclaration_alarms : Alarms bound ahead (fun _ => 1) enumDeclaration := by
  refine .comments_bind fun comments => (Alarms.word _).bind fun start => ident_alarms.bind
    fun name => (body_alarms ?_).bind fun entries => .spanFrom_bind fun _ => .pure rfl
  intro token parser found
  dsimp only at found
  split at found <;> cases found
  · exact optionBodyEntry_alarms
  · exact (reservedStatement_alarms enumNumber_alarms).bind fun _ => .pure rfl
  · exact enumValue_alarms.bind fun _ => .pure rfl

/-! ## Services -/

theorem streamFlag_alarms : Alarms bound ahead (fun _ => 0) streamFlag := by
  refine .look_bind fun found => ?_
  split
  · exact .advance_bind (.pure rfl)
  · exact .pure rfl
  · exact .pure rfl
  · exact .unexpected

theorem methodType_alarms : Alarms bound ahead (fun _ => 1) methodType :=
  (Alarms.mark _).bind fun _ => streamFlag_alarms.bind fun _ => (typeName_alarms _).bind fun _ =>
    (Alarms.mark _).bind fun _ => .pure rfl

theorem method_alarms : Alarms bound ahead (fun _ => 1) method := by
  have ended {limit : Nat} {ahead : Bool} (comments : Option String) (start : Span) (name : Ident)
      (input output : TypeName × Bool) (options : List OptionEntry) :
      Alarms limit ahead (fun _ => 0) (do
        return ({
          name, input := input.1, output := output.1, clientStreaming := input.2
          serverStreaming := output.2, options, comments
          span := ← spanFrom start.start } : Method)) :=
    .spanFrom_bind fun _ => .pure rfl
  refine .comments_bind fun comments => (Alarms.word _).bind fun start => ident_alarms.bind
    fun name => methodType_alarms.bind fun input => (Alarms.word _).bind fun _ =>
      methodType_alarms.bind fun output => .look_bind fun found => ?_
  split
  · exact .advance_bind (ended _ _ _ _ _ [])
  · refine (body_alarms ?_).bind fun entries => ended _ _ _ _ _ _
    intro token parser found
    dsimp only at found
    split at found <;> cases found
    exact optionBodyEntry_alarms
  · exact .unexpected_bind fun options => ended _ _ _ _ _ options

theorem service_alarms : Alarms bound ahead (fun _ => 1) service := by
  refine .comments_bind fun comments => (Alarms.word _).bind fun start => ident_alarms.bind
    fun name => (body_alarms ?_).bind fun entries => .spanFrom_bind fun _ => .pure rfl
  intro token parser found
  dsimp only at found
  split at found <;> cases found
  · exact method_alarms.bind fun _ => .pure rfl
  · exact optionBodyEntry_alarms

/-! ## Messages and what they hold -/

theorem hostField?_alarm (version : Version) (host : FieldHost) :
    EntriesAlarm bound (hostField? version host) := by
  intro token parser found
  rw [hostField?.eq_def] at found
  split at found <;> cases found
  · exact (field_alarms version host).bind fun _ => .pure rfl
  · exact (field_alarms version host).bind fun _ => .pure rfl

theorem extend_alarms (version : Version) : Alarms bound ahead (fun _ => 1) (extend version) :=
  .comments_bind fun _ => (Alarms.word _).bind fun _ => (typeName_alarms _).bind fun _ =>
    (body_alarms (hostField?_alarm version .extend)).bind fun _ => .spanFrom_bind fun _ =>
      .pure rfl

theorem oneof_alarms (version : Version) : Alarms bound ahead (fun _ => 1) (oneof version) := by
  refine .comments_bind fun comments => (Alarms.word _).bind fun start => ident_alarms.bind
    fun name => (body_alarms ?_).bind fun entries => .spanFrom_bind fun _ =>
      .check_bind (.pure rfl)
  intro token parser found
  dsimp only at found
  split at found
  · cases found
    exact optionBodyEntry_alarms
  · exact hostField?_alarm version .oneof found

/-- A message consumes three lexemes before the messages inside it. -/
theorem message_alarms_of_inside (version : Version) {depth : Nat}
    (inside : Alarms depth false (fun _ => 1) (message version depth)) :
    Alarms (depth + 3) ahead (fun _ => 1) (message version (depth + 1)) := by
  refine .comments_bind fun comments => (Alarms.word _).bind fun start => ident_alarms.bind
    fun name => (body_alarms ?_).bind fun entries => .spanFrom_bind fun _ => .pure rfl
  intro token parser found
  dsimp only at found
  split at found <;> cases found
  · exact inside.bind fun _ => .pure rfl
  · exact enumDeclaration_alarms.bind fun _ => .pure rfl
  · exact (extend_alarms version).bind fun _ => .pure rfl
  · exact (oneof_alarms version).bind fun _ => .pure rfl
  · exact optionBodyEntry_alarms
  · exact (reservedStatement_alarms fieldNumber_alarms).bind fun _ => .pure rfl
  · exact extensionsStatement_alarms.bind fun _ => .pure rfl
  · exact (field_alarms version none).bind fun _ => .pure rfl
  · exact (field_alarms version none).bind fun _ => .pure rfl

theorem message_alarms_below (version : Version) (depth : Nat) :
    Alarms depth false (fun _ => 1) (message version depth) := by
  induction depth with
  | zero => exact fun state fits => absurd fits (Nat.not_lt_zero _)
  | succ depth induction => exact (message_alarms_of_inside version induction).restrict (by omega)

/-- Messages can be nested as deeply as there are lexemes. -/
theorem message_alarms (version : Version) (count : Nat) :
    Alarms (count + 1) true (fun _ => 1) (message version count) := by
  cases count with
  | zero =>
      intro state fits left
      exact absurd (List.eq_nil_of_length_eq_zero (Nat.lt_one_iff.mp fits)) (left rfl)
  | succ depth =>
      exact (message_alarms_of_inside version (message_alarms_below version depth)).restrict
        (by omega)

/-! ## Statements -/

theorem versionStatement_alarms : Alarms bound ahead (fun _ => 1) versionStatement := by
  have ended {limit : Nat} {ahead : Bool} (start : Span) (version : Version) :
      Alarms limit ahead (fun _ => 0) (do
        let _ ← mark .semicolon
        return (version, ← spanFrom start.start)) :=
    (Alarms.mark _).bind fun _ => .spanFrom_bind fun _ => .pure rfl
  refine (Alarms.word _).bind fun start => (Alarms.mark _).bind fun _ => .look_bind fun found => ?_
  split
  · refine .advance_bind ?_
    split
    · exact ended start .proto2
    · exact ended start .proto3
    · exact .report_bind (ended start .proto2)
  · exact .unexpected_bind (ended start)

theorem packageStatement_alarms : Alarms bound ahead (fun _ => 1) packageStatement :=
  (Alarms.word _).bind fun _ => (dottedName_alarms _).bind fun _ => (Alarms.mark _).bind fun _ =>
    .spanFrom_bind fun _ => .pure rfl

theorem importStatement_alarms : Alarms bound ahead (fun _ => 1) importStatement := by
  have ended {limit : Nat} {ahead : Bool} (start : Span) (modifier : Option ImportModifier) :
      Alarms limit ahead (fun _ => 0) (do
        let file ← stringLiteral
        check (isImportName file.1) (.invalidImport file.2)
        let _ ← mark .semicolon
        return (⟨modifier, file.1, file.2, ← spanFrom start.start⟩ : Import)) :=
    stringLiteral_alarms.bind fun _ => .check_bind ((Alarms.mark _).bind fun _ =>
      .spanFrom_bind fun _ => .pure rfl)
  refine (Alarms.word _).bind fun start => .look_bind fun found => ?_
  split
  · exact .advance_bind (ended start (some .weak))
  · exact .advance_bind (ended start (some .reexport))
  · exact ended start none
  · exact .unexpected_bind (ended start)

/-- Every statement that is read has consumed something. -/
theorem statement_alarms (version : Version) :
    Alarms bound ahead turnOwes (statement version) := by
  refine .look_bind fun found => ?_
  split
  · exact .advance_bind (.pure rfl)
  · exact importStatement_alarms.bind fun _ => .pure rfl
  · exact packageStatement_alarms.bind fun _ => .pure rfl
  · exact optionStatement_alarms.bind fun _ => .pure rfl
  · exact (extend_alarms version).bind fun _ => .pure rfl
  · exact .remaining_bind fun count => (message_alarms version count).bind fun _ => .pure rfl
  · exact enumDeclaration_alarms.bind fun _ => .pure rfl
  · exact service_alarms.bind fun _ => .pure rfl
  · exact .pure rfl
  · exact .unexpected

end Parser

end ProtoSchema.Syntax
