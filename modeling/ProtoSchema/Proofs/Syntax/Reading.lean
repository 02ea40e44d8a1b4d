import ProtoSchema.Proofs.Syntax.Grammar
/-! # What parsers read

A parser reads a production if it consumes a sentence and gives its value, or else fails
with a fault of grammar. On the way it may notice other faults, which are about the
value.
-/

namespace ProtoSchema.Syntax

/-! ## Places -/

@[simp] theorem stopAfter_nil (stop : Nat) : stopAfter stop [] = stop :=
  rfl

@[simp] theorem stopAfter_cons (stop : Nat) (lexeme : Lexeme) (lexemes : List Lexeme) :
    stopAfter stop (lexeme :: lexemes) = stopAfter lexeme.span.stop lexemes :=
  rfl

@[simp] theorem stopAfter_append (stop : Nat) (front back : List Lexeme) :
    stopAfter stop (front ++ back) = stopAfter (stopAfter stop front) back :=
  List.foldl_append

theorem spanOf_cons (lexeme : Lexeme) (lexemes : List Lexeme) :
    spanOf (lexeme :: lexemes) = ⟨lexeme.span.start, stopAfter lexeme.span.stop lexemes⟩ :=
  rfl

/-- The span of a sentence does not depend on what surrounds it. -/
theorem spanOf_eq {sentence : List Lexeme} (written : sentence ≠ []) (rest : List Lexeme)
    (start stop : Nat) :
    (⟨startBefore start (sentence ++ rest), stopAfter stop sentence⟩ : Span) =
      spanOf sentence := by
  cases sentence with
  | nil => exact absurd rfl written
  | cons lexeme sentence => rfl

theorem commentsOf_append {sentence : List Lexeme} (written : sentence ≠ [])
    (rest : List Lexeme) : commentsOf (sentence ++ rest) = commentsOf sentence := by
  cases sentence with
  | nil => exact absurd rfl written
  | cons lexeme sentence => rfl

/-! ## Faults -/

/-- The fault is about the grammar: an unexpected token, an unexpected end, or a group. -/
def SyntaxError.isGrammatical : SyntaxError → Bool
  | unexpectedToken .. | unexpectedEnd _ | groupNotSupported _ => true
  | _ => false

/-- There are no lexical faults in some lexemes. -/
def Faultless (lexemes : List Lexeme) : Prop :=
  ∀ lexeme ∈ lexemes, lexeme.errors = [] ∧ lexeme.token ≠ .invalid

/-- No fault is about the grammar, and there is none if and only if something holds. -/
structure Verdict (faults : List SyntaxError) (valid : Prop) : Prop where
  harmless : ∀ fault ∈ faults, fault.isGrammatical = false
  eq_nil_iff : faults = [] ↔ valid

namespace Verdict

variable {faults others : List SyntaxError} {valid other : Prop}

theorem none : Verdict [] True where
  harmless := by simp
  eq_nil_iff := by simp

theorem append (first : Verdict faults valid) (second : Verdict others other) :
    Verdict (faults ++ others) (valid ∧ other) where
  harmless fault member := by
    rcases List.mem_append.mp member with member | member
    · exact first.harmless fault member
    · exact second.harmless fault member
  eq_nil_iff := by rw [List.append_eq_nil_iff, first.eq_nil_iff, second.eq_nil_iff]

theorem congr (verdict : Verdict faults valid) (same : valid ↔ other) : Verdict faults other where
  harmless := verdict.harmless
  eq_nil_iff := verdict.eq_nil_iff.trans same

end Verdict

namespace Parser

/-! ## Outcomes -/

/-- A parser goes from one state to another: it consumes some lexemes and records some
faults. -/
structure Moves (before : ParserState) (consumed : List Lexeme) (faults : List SyntaxError)
    (after : ParserState) : Prop where
  upcoming_eq : before.upcoming = consumed ++ after.upcoming
  trailing_eq : after.trailing = before.trailing
  errors_eq : after.errors = before.errors ++ faults
  lastStop_eq : after.lastStop = stopAfter before.lastStop consumed

/-- Nothing in a state is a lexical fault. -/
structure Clean (state : ParserState) : Prop where
  upcoming : Faultless state.upcoming
  trailing : state.trailing = []

namespace Moves

theorem refl (state : ParserState) : Moves state [] [] state where
  upcoming_eq := rfl
  trailing_eq := rfl
  errors_eq := (List.append_nil _).symm
  lastStop_eq := rfl

theorem trans {before middle after : ParserState} {consumed more : List Lexeme}
    {faults others : List SyntaxError} (first : Moves before consumed faults middle)
    (second : Moves middle more others after) :
    Moves before (consumed ++ more) (faults ++ others) after where
  upcoming_eq := by rw [first.upcoming_eq, second.upcoming_eq, List.append_assoc]
  trailing_eq := second.trailing_eq.trans first.trailing_eq
  errors_eq := by rw [second.errors_eq, first.errors_eq, List.append_assoc]
  lastStop_eq := by rw [second.lastStop_eq, first.lastStop_eq, stopAfter_append]

theorem clean {before after : ParserState} {consumed : List Lexeme} {faults : List SyntaxError}
    (moves : Moves before consumed faults after) (clean : Clean before) : Clean after where
  upcoming lexeme member := by
    apply clean.upcoming
    rw [moves.upcoming_eq]
    exact List.mem_append_right consumed member
  trailing := moves.trailing_eq.trans clean.trailing

end Moves

/-- Looking ahead notices no fault, since there is none. -/
theorem look_moves {state : ParserState} (clean : Clean state) :
    ∃ after, look state =
        (some (state.upcoming.head?.map fun lexeme => (lexeme.token, lexeme.span)), after) ∧
      Moves state [] [] after := by
  have quiet : state.ahead = [] := by
    rw [ParserState.ahead]
    split
    · exact clean.trailing
    · next lexeme lexemes found => exact (clean.upcoming lexeme (by simp [found])).1
  by_cases looked : state.looked
  · exact ⟨state, by simp [look, looked], .refl state⟩
  · refine ⟨{ state with looked := true }, by simp [look, looked, quiet], ?_⟩
    exact ⟨rfl, rfl, (List.append_nil _).symm, rfl⟩

theorem bind_of_some {α β : Type} {parser : Parser α} {next : α → Parser β}
    {before after : ParserState} {value : α} (run : parser before = (some value, after)) :
    (parser >>= next) before = next value after := by
  simp only [Bind.bind, run]

theorem bind_of_none {α β : Type} {parser : Parser α} {next : α → Parser β}
    {before after : ParserState} (run : parser before = (none, after)) :
    (parser >>= next) before = (none, after) := by
  simp only [Bind.bind, run]

/-- What a parser does with lexemes without faults, if the token before them ends at an
offset: it consumes some of them and gives a value of which something holds, or it fails
with a fault of grammar. -/
def Ensures {α : Type} (parser : Parser α) (upcoming : List Lexeme) (stop : Nat)
    (Post : List Lexeme → List SyntaxError → α → Prop) : Prop :=
  ∀ state : ParserState, Clean state → state.upcoming = upcoming → state.lastStop = stop →
    ∃ consumed faults after, Moves state consumed faults after ∧
      ((∃ value, parser state = (some value, after) ∧ Post consumed faults value) ∨
        parser state = (none, after) ∧ ∃ fault ∈ faults, fault.isGrammatical = true)

/-- The parser consumes the sentences of a production, and the faults that it notices are
those of their values. -/
def Reads {α : Type} (parser : Parser α) (production : Grammar.Production α)
    (Valid : α → Prop) : Prop :=
  ∀ upcoming stop, Ensures parser upcoming stop fun consumed faults value =>
    production consumed value ∧ Verdict faults (Valid value)

namespace Ensures

variable {α β : Type} {upcoming : List Lexeme} {stop : Nat}
  {Post : List Lexeme → List SyntaxError → α → Prop}
  {Next : List Lexeme → List SyntaxError → β → Prop}

/-! ## Sequences -/

theorem pure {value : α} (holds : Post [] [] value) :
    Ensures (Pure.pure value) upcoming stop Post := by
  intro state _ _ _
  exact ⟨[], [], state, .refl state, .inl ⟨value, rfl, holds⟩⟩

theorem pure_bind {value : α} {next : α → Parser β}
    (rest : Ensures (next value) upcoming stop Next) :
    Ensures (Pure.pure value >>= next) upcoming stop Next :=
  rest

theorem bind {parser : Parser α} {next : α → Parser β}
    (first : Ensures parser upcoming stop Post)
    (second : ∀ consumed faults value rest, upcoming = consumed ++ rest →
      Post consumed faults value → Ensures (next value) rest (stopAfter stop consumed)
        fun more others result => Next (consumed ++ more) (faults ++ others) result) :
    Ensures (parser >>= next) upcoming stop Next := by
  intro state clean sameUpcoming sameStop
  rcases first state clean sameUpcoming sameStop with
    ⟨consumed, faults, middle, moves, ⟨value, run, holds⟩ | ⟨run, fault, recorded, grammatical⟩⟩
  · have split : upcoming = consumed ++ middle.upcoming := sameUpcoming ▸ moves.upcoming_eq
    have stops : middle.lastStop = stopAfter stop consumed := sameStop ▸ moves.lastStop_eq
    rcases second consumed faults value middle.upcoming split holds middle (moves.clean clean)
      rfl stops with ⟨more, others, after, movesOn, ends⟩
    refine ⟨consumed ++ more, faults ++ others, after, moves.trans movesOn, ?_⟩
    rw [bind_of_some run]
    rcases ends with ends | ⟨run, fault, recorded, grammatical⟩
    · exact .inl ends
    · exact .inr ⟨run, fault, List.mem_append_right faults recorded, grammatical⟩
  · refine ⟨consumed, faults, middle, moves, .inr ⟨bind_of_none run, fault, recorded, ?_⟩⟩
    exact grammatical

theorem mono {parser : Parser α} {Other : List Lexeme → List SyntaxError → α → Prop}
    (ensures : Ensures parser upcoming stop Post)
    (weaker : ∀ consumed faults value rest, upcoming = consumed ++ rest →
      Post consumed faults value → Other consumed faults value) :
    Ensures parser upcoming stop Other := by
  intro state clean sameUpcoming sameStop
  rcases ensures state clean sameUpcoming sameStop with
    ⟨consumed, faults, after, moves, ends⟩
  refine ⟨consumed, faults, after, moves, ?_⟩
  rcases ends with ⟨value, run, holds⟩ | failed
  · have split : upcoming = consumed ++ after.upcoming := sameUpcoming ▸ moves.upcoming_eq
    exact .inl ⟨value, run, weaker consumed faults value after.upcoming split holds⟩
  · exact .inr failed

/-- A parser that only reads the state goes on with what it has found. -/
theorem bind_of_quiet {parser : Parser α} {next : α → Parser β} (value : α)
    (quiet : ∀ state, Clean state → state.upcoming = upcoming → state.lastStop = stop →
      ∃ after, parser state = (some value, after) ∧ Moves state [] [] after)
    (rest : Ensures (next value) upcoming stop Next) :
    Ensures (parser >>= next) upcoming stop Next := by
  have found : Ensures parser upcoming stop fun consumed faults found =>
      consumed = [] ∧ faults = [] ∧ found = value := by
    intro state clean sameUpcoming sameStop
    rcases quiet state clean sameUpcoming sameStop with ⟨after, run, moves⟩
    exact ⟨[], [], after, moves, .inl ⟨value, run, rfl, rfl, rfl⟩⟩
  refine found.bind ?_
  rintro consumed faults found remaining rfl ⟨rfl, rfl, rfl⟩
  exact rest

theorem bind_reads {parser : Parser α} {production : Grammar.Production α} {Valid : α → Prop}
    (reads : Reads parser production Valid) {next : α → Parser β}
    (rest : ∀ consumed faults value rest, upcoming = consumed ++ rest →
      production consumed value → Verdict faults (Valid value) →
      Ensures (next value) rest (stopAfter stop consumed)
        fun more others result => Next (consumed ++ more) (faults ++ others) result) :
    Ensures (parser >>= next) upcoming stop Next := by
  refine (reads upcoming stop).bind fun consumed faults value after split read => ?_
  exact rest consumed faults value after split read.1 read.2

/-- A parser of values without checks notices no fault. -/
theorem bind_plain {parser : Parser α} {production : Grammar.Production α}
    (reads : Reads parser production fun _ => True) {next : α → Parser β}
    (rest : ∀ consumed value rest, upcoming = consumed ++ rest → production consumed value →
      Ensures (next value) rest (stopAfter stop consumed)
        fun more others result => Next (consumed ++ more) others result) :
    Ensures (parser >>= next) upcoming stop Next := by
  refine bind_reads reads fun consumed faults value after split sentence verdict => ?_
  have silent := verdict.eq_nil_iff.mpr trivial
  subst silent
  exact rest consumed value after split sentence

/-! ## Looking and consuming -/

theorem look_bind {next : Option (Token × Span) → Parser β}
    (rest : Ensures (next (upcoming.head?.map fun lexeme => (lexeme.token, lexeme.span)))
      upcoming stop Next) :
    Ensures (look >>= next) upcoming stop Next := by
  refine bind_of_quiet _ (fun state clean sameUpcoming _ => ?_) rest
  subst sameUpcoming
  exact look_moves clean

theorem look_nil {next : Option (Token × Span) → Parser β}
    (rest : Ensures (next none) [] stop Next) : Ensures (look >>= next) [] stop Next :=
  look_bind rest

theorem look_cons {next : Option (Token × Span) → Parser β} {lexeme : Lexeme}
    {lexemes : List Lexeme}
    (rest : Ensures (next (some (lexeme.token, lexeme.span))) (lexeme :: lexemes) stop Next) :
    Ensures (look >>= next) (lexeme :: lexemes) stop Next :=
  look_bind rest

theorem advance_bind {next : Unit → Parser β} {lexeme : Lexeme} {lexemes : List Lexeme}
    (rest : Ensures (next ()) lexemes lexeme.span.stop fun more others result =>
      Next (lexeme :: more) others result) :
    Ensures (advance >>= next) (lexeme :: lexemes) stop Next := by
  have advanced : Ensures advance (lexeme :: lexemes) stop fun consumed faults _ =>
      consumed = [lexeme] ∧ faults = [] := by
    intro state _ sameUpcoming _
    refine ⟨[lexeme], [],
      { state with upcoming := lexemes, looked := false, lastStop := lexeme.span.stop },
      ⟨sameUpcoming, rfl, (List.append_nil _).symm, rfl⟩, .inl ⟨(), ?_, rfl, rfl⟩⟩
    simp only [advance, sameUpcoming]
  refine advanced.bind ?_
  rintro consumed faults _ remaining split ⟨rfl, rfl⟩
  cases split
  exact rest

/-- The next token is looked at, and it is the end or that of some lexeme. -/
theorem look_cases {next : Option (Token × Span) → Parser β}
    (atEnd : upcoming = [] → Ensures (next none) [] stop Next)
    (before : ∀ lexeme lexemes token, upcoming = lexeme :: lexemes → lexeme.token = token →
      Ensures (next (some (token, lexeme.span))) (lexeme :: lexemes) stop Next) :
    Ensures (look >>= next) upcoming stop Next := by
  cases upcoming with
  | nil => exact look_nil (atEnd rfl)
  | cons lexeme lexemes => exact look_cons (before lexeme lexemes lexeme.token rfl rfl)

/-! ## Places and comments -/

theorem spanFrom_bind {next : Span → Parser β} {start : Nat}
    (rest : Ensures (next ⟨start, stop⟩) upcoming stop Next) :
    Ensures (spanFrom start >>= next) upcoming stop Next := by
  refine bind_of_quiet _ (fun state _ _ sameStop => ?_) rest
  exact ⟨state, by rw [spanFrom, sameStop], .refl state⟩

theorem nextStart_bind {next : Nat → Parser β}
    (rest : Ensures (next (startBefore stop upcoming)) upcoming stop Next) :
    Ensures (nextStart >>= next) upcoming stop Next := by
  have found : Ensures nextStart upcoming stop fun consumed faults start =>
      consumed = [] ∧ faults = [] ∧ start = startBefore stop upcoming := by
    rw [nextStart]
    cases upcoming with
    | nil =>
        refine look_nil fun state _ _ sameStop => ?_
        exact ⟨[], [], state, .refl state, .inl ⟨stop, by simp only [sameStop], rfl, rfl, rfl⟩⟩
    | cons lexeme lexemes => exact look_cons (pure ⟨rfl, rfl, rfl⟩)
  refine found.bind ?_
  rintro consumed faults start remaining rfl ⟨rfl, rfl, rfl⟩
  exact rest

theorem comments_bind {next : Option String → Parser β}
    (rest : Ensures (next (commentsOf upcoming)) upcoming stop Next) :
    Ensures (comments >>= next) upcoming stop Next := by
  have found : Ensures comments upcoming stop fun consumed faults comments =>
      consumed = [] ∧ faults = [] ∧ comments = commentsOf upcoming := by
    rw [comments]
    refine look_bind fun state _ sameUpcoming _ => ?_
    refine ⟨[], [], state, .refl state, .inl ⟨_, ?_, rfl, rfl, rfl⟩⟩
    cases upcoming with
    | nil => simp only [sameUpcoming, commentsOf]
    | cons lexeme lexemes =>
        simp only [sameUpcoming, commentsOf]
        split <;> rfl
  refine found.bind ?_
  rintro consumed faults comments remaining rfl ⟨rfl, rfl, rfl⟩
  exact rest

theorem remaining_bind {next : Nat → Parser β}
    (rest : Ensures (next upcoming.length) upcoming stop Next) :
    Ensures (remaining >>= next) upcoming stop Next := by
  refine bind_of_quiet _ (fun state _ sameUpcoming _ => ?_) rest
  exact ⟨state, by rw [remaining, sameUpcoming], .refl state⟩

/-! ## Faults -/

theorem report {error : SyntaxError} {Post : List Lexeme → List SyntaxError → Unit → Prop}
    (holds : Post [] [error] ()) : Ensures (Parser.report error) upcoming stop Post := by
  intro state _ _ _
  exact ⟨[], [error], { state with errors := state.errors ++ [error] }, ⟨rfl, rfl, rfl, rfl⟩,
    .inl ⟨(), rfl, holds⟩⟩

theorem report_bind {next : Unit → Parser β} {error : SyntaxError}
    (rest : Ensures (next ()) upcoming stop fun more others result =>
      Next more (error :: others) result) :
    Ensures (Parser.report error >>= next) upcoming stop Next := by
  have reported : Ensures (Parser.report error) upcoming stop fun consumed faults _ =>
      consumed = [] ∧ faults = [error] := report ⟨rfl, rfl⟩
  refine reported.bind ?_
  rintro consumed faults _ remaining rfl ⟨rfl, rfl⟩
  exact rest

theorem report_fail {error : SyntaxError} (grammatical : error.isGrammatical = true) :
    Ensures (Parser.report error >>= fun _ => fail) upcoming stop Post := by
  intro state _ _ _
  refine ⟨[], [error], { state with errors := state.errors ++ [error] }, ⟨rfl, rfl, rfl, rfl⟩, ?_⟩
  exact .inr ⟨rfl, error, List.mem_singleton_self error, grammatical⟩

theorem unexpected {expected : Expected} :
    Ensures (Parser.unexpected expected) upcoming stop Post := by
  intro state clean sameUpcoming sameStop
  rw [Parser.unexpected]
  cases upcoming with
  | nil => exact look_nil (report_fail rfl) state clean sameUpcoming sameStop
  | cons lexeme lexemes =>
      have valid := (clean.upcoming lexeme (by simp [sameUpcoming])).2
      refine look_cons ?_ state clean sameUpcoming sameStop
      split
      · next invalid =>
          simp only [Option.some.injEq, Prod.mk.injEq] at invalid
          exact absurd invalid.1 valid
      · exact report_fail rfl
      · exact report_fail rfl

theorem unexpected_bind {expected : Expected} {next : α → Parser β} :
    Ensures (Parser.unexpected expected >>= next) upcoming stop Next := by
  have never : Ensures (Parser.unexpected (α := α) expected) upcoming stop fun _ _ _ => False :=
    unexpected
  exact never.bind fun _ _ _ _ _ impossible => impossible.elim

theorem check {holds : Bool} {error : SyntaxError} (harmless : error.isGrammatical = false) :
    Ensures (Parser.check holds error) upcoming stop fun consumed faults _ =>
      consumed = [] ∧ Verdict faults (holds = true) := by
  intro state _ _ _
  cases holds with
  | true => exact ⟨[], [], state, .refl state, .inl ⟨(), rfl, rfl, by simp, by simp⟩⟩
  | false =>
      refine ⟨[], [error], { state with errors := state.errors ++ [error] },
        ⟨rfl, rfl, rfl, rfl⟩, .inl ⟨(), rfl, rfl, ?_, by simp⟩⟩
      simpa using harmless

/-! ## Single tokens -/

theorem expect_bind {token : Token} {next : Span → Parser β}
    (rest : ∀ lexeme lexemes, upcoming = lexeme :: lexemes → lexeme.token = token →
      Ensures (next lexeme.span) lexemes lexeme.span.stop fun more others result =>
        Next (lexeme :: more) others result) :
    Ensures (expect token >>= next) upcoming stop Next := by
  have found : Ensures (expect token) upcoming stop fun consumed faults span =>
      ∃ lexeme, consumed = [lexeme] ∧ faults = [] ∧ lexeme.token = token ∧
        span = lexeme.span := by
    rw [expect]
    refine look_cases (fun _ => unexpected) fun lexeme lexemes found _ same => ?_
    by_cases wanted : found = token
    · simp only [wanted, if_true]
      exact advance_bind (pure ⟨lexeme, rfl, rfl, same.trans wanted, rfl⟩)
    · simp only [wanted, if_false]
      exact unexpected
  refine found.bind ?_
  rintro consumed faults span remaining split ⟨lexeme, rfl, rfl, wanted, rfl⟩
  exact rest lexeme remaining split wanted

theorem word_bind {name : String} {next : Span → Parser β}
    (rest : ∀ lexeme lexemes, upcoming = lexeme :: lexemes → lexeme.token = .ident name →
      Ensures (next lexeme.span) lexemes lexeme.span.stop fun more others result =>
        Next (lexeme :: more) others result) :
    Ensures (word name >>= next) upcoming stop Next :=
  expect_bind rest

theorem mark_bind {symbol : Punctuation} {next : Span → Parser β}
    (rest : ∀ lexeme lexemes, upcoming = lexeme :: lexemes → lexeme.token = .mark symbol →
      Ensures (next lexeme.span) lexemes lexeme.span.stop fun more others result =>
        Next (lexeme :: more) others result) :
    Ensures (mark symbol >>= next) upcoming stop Next :=
  expect_bind rest

/-! ## Repetition -/

end Ensures

/-- One turn of a repetition: it consumes a sentence and gives its value, or it ends. -/
inductive Turn {α : Type} (element : Grammar.Production α) (End : List Lexeme → Prop)
    (Valid : α → Prop) : List Lexeme → List SyntaxError → Option α → Prop
  | more {consumed : List Lexeme} {faults : List SyntaxError} {value : α}
      (written : consumed ≠ []) (sentence : element consumed value)
      (verdict : Verdict faults (Valid value)) :
      Turn element End Valid consumed faults (some value)
  | done {consumed : List Lexeme} (finish : End consumed) :
      Turn element End Valid consumed [] none

/-- A repetition reads any number of sentences and its end, which may depend on what
follows. There is fuel enough for every lexeme. -/
theorem Ensures.collectAtMost {α : Type} {entry : Parser (Option α)}
    {element : Grammar.Production α} {End : List Lexeme → List Lexeme → Prop} {Valid : α → Prop}
    {fuel : Nat} {upcoming : List Lexeme} (enough : upcoming.length < fuel)
    (turn : ∀ part stop, part.length ≤ upcoming.length →
      Ensures entry part stop (Turn element (End part) Valid)) (stop : Nat) :
    Ensures (Parser.collectAtMost entry fuel) upcoming stop fun consumed faults values =>
      ∃ inner part finish, upcoming = inner ++ part ∧ consumed = inner ++ finish ∧
        Grammar.Many element inner values ∧ End part finish ∧
        Verdict faults (∀ value ∈ values, Valid value) := by
  induction fuel generalizing upcoming stop with
  | zero => exact absurd enough (Nat.not_lt_zero _)
  | succ fuel induction =>
      rw [Parser.collectAtMost]
      refine (turn upcoming stop (Nat.le_refl _)).bind ?_
      rintro consumed faults outcome rest rfl turned
      cases turned with
      | done finish =>
          refine pure ⟨[], _, consumed, rfl, by simp, .none, finish, ?_⟩
          exact Verdict.none.congr (by simp)
      | @more _ value written sentence verdict =>
          have fewer : rest.length < (consumed ++ rest).length := by
            have positive := List.length_pos_iff.mpr written
            rw [List.length_append]
            omega
          have enoughLeft : rest.length < fuel := by omega
          refine (induction enoughLeft (fun part stop shorter => ?_) _).bind ?_
          · exact turn part stop (by omega)
          rintro more others values remaining split
            ⟨inner, part, finish, sameRest, rfl, many, ended, laterVerdict⟩
          refine pure ⟨consumed ++ inner, part, finish, by simp [sameRest], by simp,
            .more sentence many, ended, ?_⟩
          rw [List.append_nil]
          exact (verdict.append laterVerdict).congr List.forall_mem_cons.symm

theorem Ensures.collect_before {α : Type} {entry : Parser (Option α)}
    (element : Grammar.Production α) (End : List Lexeme → List Lexeme → Prop) (Valid : α → Prop)
    {upcoming : List Lexeme}
    (turn : ∀ part stop, part.length ≤ upcoming.length →
      Ensures entry part stop (Turn element (End part) Valid)) (stop : Nat) :
    Ensures (Parser.collect entry) upcoming stop fun consumed faults values =>
      ∃ inner part finish, upcoming = inner ++ part ∧ consumed = inner ++ finish ∧
        Grammar.Many element inner values ∧ End part finish ∧
        Verdict faults (∀ value ∈ values, Valid value) := by
  rw [Parser.collect]
  exact remaining_bind (collectAtMost (Nat.lt_succ_self _) turn stop)

theorem Ensures.collect {α : Type} {entry : Parser (Option α)}
    (element : Grammar.Production α) (End : List Lexeme → Prop) (Valid : α → Prop)
    {upcoming : List Lexeme}
    (turn : ∀ part stop, part.length ≤ upcoming.length →
      Ensures entry part stop (Turn element End Valid)) (stop : Nat) :
    Ensures (Parser.collect entry) upcoming stop fun consumed faults values =>
      ∃ inner finish, consumed = inner ++ finish ∧ Grammar.Many element inner values ∧
        End finish ∧ Verdict faults (∀ value ∈ values, Valid value) := by
  refine (collect_before element (fun _ => End) Valid turn stop).mono ?_
  rintro consumed faults values rest - ⟨inner, part, finish, -, same, many, ended, verdict⟩
  exact ⟨inner, finish, same, many, ended, verdict⟩

end Parser

end ProtoSchema.Syntax
