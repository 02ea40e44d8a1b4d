import ProtoSchema.Proofs.Syntax.Reading
import ProtoSchema.Proofs.Syntax.Sentences
/-! # What parsers accept

A parser accepts a sentence if it consumes the sentence and gives its value, whatever
has happened before. What follows the sentence may matter, since a parser looks one
token ahead.
-/

namespace ProtoSchema.Syntax.Parser

/-- A parser consumes a sentence before a rest and gives a value, if the token before
them ends at an offset. -/
def Takes {α : Type} (parser : Parser α) (sentence rest : List Lexeme) (stop : Nat)
    (value : α) : Prop :=
  ∀ state : ParserState, state.upcoming = sentence ++ rest → state.lastStop = stop →
    ∃ after, parser state = (some value, after) ∧ after.upcoming = rest ∧
      after.lastStop = stopAfter stop sentence

/-- The parser accepts each sentence of a production before certain rests. -/
def Accepts {α : Type} (parser : Parser α) (production : Grammar.Production α)
    (Follow : List Lexeme → Prop) : Prop :=
  ∀ ⦃sentence value⦄, production sentence value → ∀ rest stop, Follow rest →
    Takes parser sentence rest stop value

namespace Takes

variable {α β : Type} {sentence front back rest : List Lexeme} {lexeme : Lexeme} {stop : Nat}
  {value : α} {result : β}

/-! ## Sequences -/

theorem pure {other : α} (same : value = other) :
    Takes (Pure.pure value) [] rest stop other := by
  intro state sameUpcoming sameStop
  subst same
  exact ⟨state, rfl, sameUpcoming, sameStop⟩

theorem pure_bind {next : α → Parser β} (second : Takes (next value) sentence rest stop result) :
    Takes (Pure.pure value >>= next) sentence rest stop result :=
  second

theorem bind {parser : Parser α} {next : α → Parser β}
    (first : Takes parser front (back ++ rest) stop value)
    (second : Takes (next value) back rest (stopAfter stop front) result) :
    Takes (parser >>= next) (front ++ back) rest stop result := by
  intro state sameUpcoming sameStop
  rw [List.append_assoc] at sameUpcoming
  rcases first state sameUpcoming sameStop with ⟨middle, run, sameMiddle, sameMiddleStop⟩
  rcases second middle sameMiddle sameMiddleStop with ⟨after, runOn, sameAfter, sameAfterStop⟩
  exact ⟨after, by rw [bind_of_some run, runOn], sameAfter, by rw [sameAfterStop, stopAfter_append]⟩

/-- Nothing of the sentence is consumed at first. -/
theorem bind_first {parser : Parser α} {next : α → Parser β}
    (first : Takes parser [] (sentence ++ rest) stop value)
    (second : Takes (next value) sentence rest stop result) :
    Takes (parser >>= next) sentence rest stop result :=
  bind first second

/-- The last part of a sentence. -/
theorem bind_last {parser : Parser α} {next : α → Parser β}
    (first : Takes parser sentence rest stop value)
    (second : Takes (next value) [] rest (stopAfter stop sentence) result) :
    Takes (parser >>= next) sentence rest stop result := by
  have whole : Takes (parser >>= next) (sentence ++ []) rest stop result := bind first second
  rwa [List.append_nil] at whole

/-- A parser that only reads the state goes on with what it has found. -/
theorem bind_of_quiet {parser : Parser α} {next : α → Parser β} (value : α)
    (quiet : ∀ state : ParserState, state.upcoming = sentence ++ rest → state.lastStop = stop →
      ∃ after, parser state = (some value, after) ∧ after.upcoming = state.upcoming ∧
        after.lastStop = state.lastStop)
    (second : Takes (next value) sentence rest stop result) :
    Takes (parser >>= next) sentence rest stop result := by
  intro state sameUpcoming sameStop
  rcases quiet state sameUpcoming sameStop with ⟨middle, run, sameMiddle, sameMiddleStop⟩
  rw [bind_of_some run]
  exact second middle (sameMiddle.trans sameUpcoming) (sameMiddleStop.trans sameStop)

/-! ## Looking and consuming -/

theorem look_bind {next : Option (Token × Span) → Parser β}
    (second : Takes (next ((sentence ++ rest).head?.map fun lexeme => (lexeme.token, lexeme.span)))
      sentence rest stop result) :
    Takes (look >>= next) sentence rest stop result := by
  refine bind_of_quiet _ (fun state sameUpcoming _ => ?_) second
  by_cases looked : state.looked
  · exact ⟨state, by simp [look, looked, sameUpcoming], rfl, rfl⟩
  · refine ⟨{ state with looked := true, errors := state.errors ++ state.ahead }, ?_, rfl, rfl⟩
    simp [look, looked, sameUpcoming]

/-- The token that is looked at belongs to the sentence or follows it. -/
theorem look_ahead {next : Option (Token × Span) → Parser β} {after : List Lexeme}
    (ahead : sentence ++ rest = lexeme :: after)
    (second : Takes (next (some (lexeme.token, lexeme.span))) sentence rest stop result) :
    Takes (look >>= next) sentence rest stop result := by
  refine look_bind ?_
  rw [ahead]
  exact second

/-- The first token of the sentence is looked at. -/
theorem look_cons {next : Option (Token × Span) → Parser β} {token : Token}
    (same : lexeme.token = token)
    (second : Takes (next (some (token, lexeme.span))) (lexeme :: sentence) rest stop result) :
    Takes (look >>= next) (lexeme :: sentence) rest stop result := by
  subst same
  exact look_bind second

/-- The token after the sentence is looked at. -/
theorem look_rest {next : Option (Token × Span) → Parser β} {token : Token}
    (same : lexeme.token = token)
    (second : Takes (next (some (token, lexeme.span))) [] (lexeme :: rest) stop result) :
    Takes (look >>= next) [] (lexeme :: rest) stop result := by
  subst same
  exact look_bind second

theorem advance_bind {next : Unit → Parser β}
    (second : Takes (next ()) sentence rest lexeme.span.stop result) :
    Takes (advance >>= next) (lexeme :: sentence) rest stop result := by
  have advanced : Takes advance [lexeme] (sentence ++ rest) stop () := by
    intro state sameUpcoming _
    refine ⟨{ state with
      upcoming := sentence ++ rest, looked := false, lastStop := lexeme.span.stop }, ?_, rfl, rfl⟩
    simp only [advance, sameUpcoming, List.cons_append, List.nil_append]
  exact advanced.bind second

/-! ## Places and comments -/

theorem spanFrom_bind {next : Span → Parser β} {start : Nat}
    (second : Takes (next ⟨start, stop⟩) sentence rest stop result) :
    Takes (spanFrom start >>= next) sentence rest stop result :=
  bind_of_quiet _ (fun state _ sameStop => ⟨state, by rw [spanFrom, sameStop], rfl, rfl⟩) second

theorem nextStart_bind {next : Nat → Parser β}
    (second : Takes (next (startBefore stop (sentence ++ rest))) sentence rest stop result) :
    Takes (nextStart >>= next) sentence rest stop result := by
  have found (upcoming : List Lexeme) :
      Takes nextStart [] upcoming stop (startBefore stop upcoming) := by
    rw [nextStart]
    cases upcoming with
    | nil =>
        refine look_bind fun state sameUpcoming sameStop => ?_
        exact ⟨state, by simp [sameStop, startBefore], sameUpcoming, sameStop⟩
    | cons lexeme lexemes => exact look_rest rfl (pure rfl)
  exact (found (sentence ++ rest)).bind_first second

theorem comments_bind {next : Option String → Parser β}
    (second : Takes (next (commentsOf (sentence ++ rest))) sentence rest stop result) :
    Takes (comments >>= next) sentence rest stop result := by
  have found (upcoming : List Lexeme) :
      Takes comments [] upcoming stop (commentsOf upcoming) := by
    rw [comments]
    refine look_bind fun state sameUpcoming sameStop => ⟨state, ?_, sameUpcoming, sameStop⟩
    cases upcoming with
    | nil => simp only [sameUpcoming, List.nil_append, commentsOf]
    | cons lexeme lexemes =>
        simp only [sameUpcoming, List.nil_append, commentsOf]
        split <;> rfl
  exact (found (sentence ++ rest)).bind_first second

theorem remaining_bind {next : Nat → Parser β}
    (second : Takes (next (sentence ++ rest).length) sentence rest stop result) :
    Takes (remaining >>= next) sentence rest stop result :=
  bind_of_quiet _ (fun state same _ => ⟨state, by rw [remaining, same], rfl, rfl⟩) second

/-! ## Faults -/

theorem report {error : SyntaxError} : Takes (Parser.report error) [] rest stop () :=
  fun state sameUpcoming sameStop =>
    ⟨{ state with errors := state.errors ++ [error] }, rfl, sameUpcoming, sameStop⟩

theorem report_bind {error : SyntaxError} {next : Unit → Parser β}
    (second : Takes (next ()) sentence rest stop result) :
    Takes (Parser.report error >>= next) sentence rest stop result :=
  bind_first report second

theorem check_bind {holds : Bool} {error : SyntaxError} {next : Unit → Parser β}
    (second : Takes (next ()) sentence rest stop result) :
    Takes (check holds error >>= next) sentence rest stop result := by
  cases holds with
  | true => exact second
  | false => exact report_bind second

/-! ## Single tokens -/

theorem expect_bind {token : Token} {next : Span → Parser β} (same : lexeme.token = token)
    (second : Takes (next lexeme.span) sentence rest lexeme.span.stop result) :
    Takes (expect token >>= next) (lexeme :: sentence) rest stop result := by
  have found : Takes (expect token) [lexeme] (sentence ++ rest) stop lexeme.span := by
    rw [expect]
    refine look_cons same ?_
    simp only [if_true]
    exact advance_bind (pure rfl)
  exact found.bind second

theorem word_bind {name : String} {next : Span → Parser β} (same : lexeme.token = .ident name)
    (second : Takes (next lexeme.span) sentence rest lexeme.span.stop result) :
    Takes (word name >>= next) (lexeme :: sentence) rest stop result :=
  expect_bind same second

theorem mark_bind {symbol : Punctuation} {next : Span → Parser β}
    (same : lexeme.token = .mark symbol)
    (second : Takes (next lexeme.span) sentence rest lexeme.span.stop result) :
    Takes (mark symbol >>= next) (lexeme :: sentence) rest stop result :=
  expect_bind same second

/-! ## Repetition -/

end Takes

/-- A repetition takes any number of sentences and its end. Each sentence stands before
the next one or before the end. -/
theorem Takes.collectAtMost {α : Type} {entry : Parser (Option α)}
    {element : Grammar.Production α} {Follow : List Lexeme → Prop}
    {sentence closing rest : List Lexeme} {values : List α} {bound : Nat}
    (written : Grammar.Written element)
    (leads : ∀ ⦃part value⦄, element part value → ∀ following, Follow (part ++ following))
    (step : ∀ ⦃part value⦄, element part value → part.length ≤ bound → ∀ following stop,
      Follow following → Takes entry part following stop (some value))
    (last : Follow (closing ++ rest)) (finish : ∀ stop, Takes entry closing rest stop none)
    (many : Grammar.Many element sentence values) (shorter : sentence.length ≤ bound)
    {fuel : Nat} (enough : sentence.length < fuel) (stop : Nat) :
    Takes (Parser.collectAtMost entry fuel) (sentence ++ closing) rest stop values := by
  induction many generalizing fuel stop with
  | none =>
      cases fuel with
      | zero => exact absurd enough (Nat.not_lt_zero _)
      | succ fuel =>
          rw [Parser.collectAtMost]
          exact (finish stop).bind_last (pure rfl)
  | @more front back value values first others induction =>
      cases fuel with
      | zero => exact absurd enough (Nat.not_lt_zero _)
      | succ fuel =>
          have positive := List.length_pos_iff.mpr (written first)
          rw [List.length_append] at enough shorter
          rw [Parser.collectAtMost, List.append_assoc]
          have follows : Follow ((back ++ closing) ++ rest) := by
            rw [List.append_assoc]
            exact others.leads leads last
          refine (step first (by omega) _ stop follows).bind ?_
          exact (induction (by omega) (by omega) _).bind_last (pure rfl)

theorem Takes.collect {α : Type} {entry : Parser (Option α)}
    {element : Grammar.Production α} (Follow : List Lexeme → Prop)
    {sentence closing rest : List Lexeme} {values : List α}
    (written : Grammar.Written element)
    (leads : ∀ ⦃part value⦄, element part value → ∀ following, Follow (part ++ following))
    (step : ∀ ⦃part value⦄, element part value → part.length ≤ sentence.length →
      ∀ following stop, Follow following → Takes entry part following stop (some value))
    (last : Follow (closing ++ rest)) (finish : ∀ stop, Takes entry closing rest stop none)
    (many : Grammar.Many element sentence values) (stop : Nat) :
    Takes (Parser.collect entry) (sentence ++ closing) rest stop values := by
  rw [Parser.collect]
  refine remaining_bind ?_
  refine collectAtMost written leads step last finish many (Nat.le_refl _) ?_ stop
  simp only [List.length_append]
  omega

/-- A repetition that leaves its end for the next parser. -/
theorem Takes.collect_open {α : Type} {entry : Parser (Option α)}
    {element : Grammar.Production α} (Follow : List Lexeme → Prop)
    {sentence rest : List Lexeme} {values : List α}
    (written : Grammar.Written element)
    (leads : ∀ ⦃part value⦄, element part value → ∀ following, Follow (part ++ following))
    (step : ∀ ⦃part value⦄, element part value → ∀ following stop, Follow following →
      Takes entry part following stop (some value))
    (last : Follow rest) (finish : ∀ stop, Takes entry [] rest stop none)
    (many : Grammar.Many element sentence values) (stop : Nat) :
    Takes (Parser.collect entry) sentence rest stop values := by
  have before : Follow ([] ++ rest) := last
  have whole := collect Follow written leads (fun _ _ next _ => step next) before finish many stop
  rwa [List.append_nil] at whole

end ProtoSchema.Syntax.Parser
