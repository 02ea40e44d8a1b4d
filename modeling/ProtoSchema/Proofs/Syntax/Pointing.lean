import ProtoSchema.Proofs.Syntax.LexicalFaults
/-! # Parsers that point into the source

A parser labels a fault with the span of a token, or with a span that begins at one token and ends
at a later one. It never goes back behind the end of the token consumed last, so that places that
were passed stay in front of those to come.
-/

namespace ProtoSchema.Syntax

/-! ## States with places -/

/-- All faults of a state point into a source, and its lexemes stand in the source behind those
that were consumed. -/
structure ParserState.Sound (source : String) (state : ParserState) : Prop where
  recorded : Pointed source state.errors
  trailing : Pointed source state.trailing
  stop : IsBoundary source state.lastStop
  run : Run source state.lastStop state.upcoming (Utf8.size source.toList)

/-- What is known of the next lexeme. -/
def ParserState.Next (state : ParserState) (ahead : Option (Token × Span)) : Prop :=
  ∀ seen ∈ ahead, ∃ lexeme rest, state.upcoming = lexeme :: rest ∧
    seen = (lexeme.token, lexeme.span)

theorem Placed.through {source : String} {first last : Span} (starts : Placed source first)
    (stops : Placed source last) (order : first.stop ≤ last.start) :
    Placed source (first.through last) where
  start := starts.start
  stop := stops.stop
  filled := starts.filled.trans_le (order.trans stops.filled.le)

theorem pointed_of_mem_lexemes {source : String} {lexeme : Lexeme}
    (member : lexeme ∈ (lex source).lexemes) : Pointed source lexeme.errors := by
  intro error found
  have noticed : error ∈ (lex source).errors :=
    List.mem_append_left _ (List.mem_flatMap.mpr ⟨lexeme, member, found⟩)
  exact Lexer.pointed_lex source error noticed

theorem placed_of_mem_lexemes {source : String} {lexeme : Lexeme}
    (member : lexeme ∈ (lex source).lexemes) : Placed source lexeme.span := by
  rcases exists_textAt_of_mem_lexemes member with ⟨text, after, stands, filled⟩
  exact stands.placed filled

namespace ParserState

variable {source : String} {state : ParserState}

theorem sound_start (source : String) : (ParserState.start source).Sound source where
  recorded := .nil
  trailing := (Pointed.append_iff.mp (Lexer.pointed_lex source)).2
  stop := (Remains.whole source).isBoundary
  run := run_lexemes source

namespace Sound

theorem ahead (sound : state.Sound source) : Pointed source state.ahead := by
  have inside := sound.run.inside
  rw [ParserState.ahead]
  cases next : state.upcoming with
  | nil => exact sound.trailing
  | cons lexeme rest =>
      rw [next, List.forall_mem_cons] at inside
      exact pointed_of_mem_lexemes inside.1

theorem report (sound : state.Sound source) {errors : List SyntaxError}
    (points : Pointed source errors) {looked : Bool} :
    ({ state with looked, errors := state.errors ++ errors } : ParserState).Sound source where
  recorded := sound.recorded.append points
  trailing := sound.trailing
  stop := sound.stop
  run := sound.run

theorem look (sound : state.Sound source) :
    (Parser.look state).2.Sound source ∧ (Parser.look state).2.lastStop = state.lastStop := by
  rw [Parser.look]
  split
  · exact ⟨sound, rfl⟩
  · exact ⟨sound.report sound.ahead, rfl⟩

theorem advance {lexeme : Lexeme} {rest : List Lexeme} (sound : state.Sound source)
    (upcoming : state.upcoming = lexeme :: rest) :
    Placed source lexeme.span ∧ state.lastStop ≤ lexeme.span.start ∧ (Parser.advance state).1 =
      some () ∧ (Parser.advance state).2.Sound source ∧
        (Parser.advance state).2.lastStop = lexeme.span.stop := by
  rcases sound.run with ⟨ordered, inside⟩
  rw [upcoming] at ordered inside
  rw [List.forall_mem_cons] at inside
  have placed := placed_of_mem_lexemes inside.1
  rw [Parser.advance, upcoming]
  cases ordered with
  | more order filled later =>
      exact ⟨placed, order, rfl,
        ⟨sound.recorded, sound.trailing, placed.stop, later, inside.2⟩, rfl⟩

end Sound

end ParserState

namespace Parser

/-! ## Parsers that point -/

/-- What a parser comes to: a sound state, not before a floor, and a value of which something is
known together with the end of the token consumed last. -/
structure Arrives {α : Type} (source : String) (floor : Nat) (good : α → Nat → Prop)
    (result : Option α × ParserState) : Prop where
  sound : result.2.Sound source
  later : floor ≤ result.2.lastStop
  value : ∀ value, result.1 = some value → good value result.2.lastStop

/-- From a floor on, and with something known about the next lexeme, a parser only records faults
that point into the source. -/
def Points {α : Type} (source : String) (floor : Nat) (ahead : Option (Token × Span))
    (good : α → Nat → Prop) (parser : Parser α) : Prop :=
  ∀ state : ParserState, state.Sound source → floor ≤ state.lastStop → state.Next ahead →
    Arrives source floor good (parser state)

/-- Nothing is asked of a value. -/
abbrev Anything {α : Type} : α → Nat → Prop :=
  fun _ _ => True

/-- A span was passed behind a floor. -/
structure Passed (source : String) (floor : Nat) (span : Span) (stop : Nat) : Prop where
  placed : Placed source span
  behind : floor ≤ span.start
  before : span.stop ≤ stop

/-- What looking ahead tells about the next token. -/
def Seen (source : String) (floor : Nat) : Option (Token × Span) → Prop
  | some (_, span) => Placed source span ∧ floor ≤ span.start
  | none => True

theorem Seen.le_stop {source : String} {floor : Nat} {token : Token} {span : Span}
    (seen : Seen source floor (some (token, span))) : floor ≤ span.stop :=
  seen.2.trans seen.1.filled.le

namespace Points

variable {α β : Type} {source : String} {floor : Nat} {ahead : Option (Token × Span)}
variable {good : α → Nat → Prop} {other : β → Nat → Prop}

/-! ## Sequences -/

theorem pure {value : α} (holds : ∀ stop, floor ≤ stop → good value stop) :
    Points source floor ahead good (Pure.pure value : Parser α) := by
  intro state sound later _
  refine ⟨sound, later, fun found same => ?_⟩
  cases same
  exact holds _ later

theorem pure_any (value : α) : Points source floor ahead Anything (Pure.pure value : Parser α) :=
  pure fun _ _ => trivial

theorem fail : Points source floor ahead good (Parser.fail : Parser α) :=
  fun _ sound later _ => ⟨sound, later, nofun⟩

theorem weaken {parser : Parser α} (points : Points source floor none good parser) :
    Points source floor ahead good parser :=
  fun state sound later _ => points state sound later nofun

theorem mono {parser : Parser α} {better : α → Nat → Prop}
    (points : Points source floor ahead better parser)
    (less : ∀ value stop, better value stop → good value stop) :
    Points source floor ahead good parser := by
  intro state sound later next
  have arrives := points state sound later next
  exact ⟨arrives.sound, arrives.later, fun value same => less _ _ (arrives.value value same)⟩

theorem any {parser : Parser α} (points : Points source floor ahead good parser) :
    Points source floor ahead Anything parser :=
  points.mono fun _ _ _ => trivial

/-- The second parser may use what is known of the value, and begins at a floor that was
passed. -/
theorem bind {parser : Parser α} {next : α → Parser β}
    (first : Points source floor ahead good parser)
    (second : ∀ value stop, floor ≤ stop → good value stop →
      ∃ low, floor ≤ low ∧ low ≤ stop ∧ Points source low none other (next value)) :
    Points source floor ahead other (parser >>= next) := by
  intro state sound later seen
  have arrives := first state sound later seen
  rcases run : parser state with ⟨_ | value, middle⟩
  · rw [run] at arrives
    rw [bind_of_none run]
    exact ⟨arrives.sound, arrives.later, nofun⟩
  · rw [run] at arrives
    rw [bind_of_some run]
    rcases second value middle.lastStop arrives.later (arrives.value value rfl) with
      ⟨low, higher, passed, points⟩
    have last := points middle arrives.sound passed nofun
    exact ⟨last.sound, higher.trans last.later, last.value⟩

theorem bind_any {parser : Parser α} {next : α → Parser β}
    (first : Points source floor ahead Anything parser)
    (second : ∀ value, Points source floor none other (next value)) :
    Points source floor ahead other (parser >>= next) :=
  first.bind fun value _ order _ => ⟨floor, le_rfl, order, second value⟩

/-- A fact about the value that does not depend on places. -/
theorem bind_fact {Holds : α → Prop} {parser : Parser α} {next : α → Parser β}
    (first : Points source floor ahead (fun value _ => Holds value) parser)
    (second : ∀ value, Holds value → Points source floor none other (next value)) :
    Points source floor ahead other (parser >>= next) :=
  first.bind fun value _ order holds => ⟨floor, le_rfl, order, second value holds⟩

/-- Behind a value with a span, the parser goes on from the end of the span. -/
theorem bind_span {spanOf : α → Span} {parser : Parser α} {next : α → Parser β}
    (first : Points source floor ahead (fun value => Passed source floor (spanOf value)) parser)
    (second : ∀ value, Placed source (spanOf value) → floor ≤ (spanOf value).start →
      Points source (spanOf value).stop none other (next value)) :
    Points source floor ahead other (parser >>= next) :=
  first.bind fun value _ _ passed => ⟨(spanOf value).stop,
    passed.behind.trans passed.placed.filled.le, passed.before,
    second value passed.placed passed.behind⟩

/-- A parser that neither consumes anything nor fails. -/
theorem bind_of_quiet {parser : Parser α} {next : α → Parser β}
    (quiet : ∀ state, ∃ value, parser state = (some value, state) ∨
      parser state = (some value, (look state).2))
    (second : ∀ value, Points source floor ahead other (next value)) :
    Points source floor ahead other (parser >>= next) := by
  intro state sound later seen
  rcases quiet state with ⟨value, run | run⟩
  · rw [bind_of_some run]
    exact second value state sound later seen
  · rw [bind_of_some run]
    rcases sound.look with ⟨looked, same⟩
    refine second value _ looked (same ▸ later) fun next isNext => ?_
    rw [(keeps_look state).2.2]
    exact seen next isNext

/-! ## Looking and consuming -/

theorem look_bind {next : Option (Token × Span) → Parser β}
    (second : ∀ found, Seen source floor found → Points source floor found other (next found)) :
    Points source floor ahead other (look >>= next) := by
  intro state sound later _
  rcases sound.look with ⟨looked, same⟩
  have upcoming := (keeps_look state).2.2
  rw [bind_of_some (look_run state)]
  refine second _ ?_ _ looked (same ▸ later) ?_
  · cases first : state.upcoming with
    | nil => trivial
    | cons lexeme rest =>
        rcases sound.advance first with ⟨placed, behind, -⟩
        exact ⟨placed, later.trans behind⟩
  · intro seen isNext
    rcases Option.map_eq_some_iff.mp isNext with ⟨lexeme, first, rfl⟩
    rcases List.head?_eq_some_iff.mp first with ⟨rest, first⟩
    exact ⟨lexeme, rest, upcoming.trans first, rfl⟩

theorem advance_bind {token : Token} {span : Span} {next : Unit → Parser β}
    (seen : Seen source floor (some (token, span)))
    (second : Points source span.stop none other (next ())) :
    Points source floor (some (token, span)) other (advance >>= next) := by
  intro state sound later isNext
  rcases isNext _ rfl with ⟨lexeme, rest, upcoming, same⟩
  cases same
  rcases sound.advance upcoming with ⟨-, -, value, after, stop⟩
  rcases run : Parser.advance state with ⟨outcome, middle⟩
  rw [run] at value after stop
  subst value
  rw [bind_of_some run]
  have arrives := second middle after stop.ge nofun
  exact ⟨arrives.sound, seen.le_stop.trans arrives.later, arrives.value⟩

/-- Nothing need be known of what is consumed. -/
theorem advance_any : Points source floor ahead Anything advance := by
  intro state sound later _
  cases upcoming : state.upcoming with
  | nil =>
      rw [advance, upcoming]
      exact ⟨sound, later, fun _ _ => trivial⟩
  | cons lexeme rest =>
      rcases sound.advance upcoming with ⟨placed, behind, -, after, stop⟩
      exact ⟨after, later.trans (behind.trans (stop ▸ placed.filled.le)), fun _ _ => trivial⟩

/-! ## Faults -/

theorem report_bind {error : SyntaxError} {next : Unit → Parser β} (points : error.Points source)
    (second : Points source floor ahead other (next ())) :
    Points source floor ahead other (report error >>= next) :=
  fun _ sound later seen => second _ (sound.report (.singleton points)) later seen

theorem check_bind {holds : Bool} {error : SyntaxError} {next : Unit → Parser β}
    (points : error.Points source) (second : Points source floor ahead other (next ())) :
    Points source floor ahead other (check holds error >>= next) := by
  cases holds with
  | true => exact second
  | false => exact report_bind points second

theorem unexpected {expected : Expected} :
    Points source floor ahead good (Parser.unexpected expected : Parser α) := by
  refine look_bind fun found seen => ?_
  split
  · exact fail
  · exact report_bind (.of_span rfl seen.1) fail
  · exact report_bind (SyntaxError.points_unexpectedEnd _) fail

theorem unexpected_bind {expected : Expected} {next : α → Parser β} :
    Points source floor ahead other (Parser.unexpected expected >>= next) :=
  (unexpected : Points source floor ahead (fun _ _ => False) _).bind fun _ _ _ => False.elim

/-! ## Places and comments -/

/-- A span up to the end of the token consumed last. -/
theorem spanFrom_bind {start : Nat} {next : Span → Parser β} (boundary : IsBoundary source start)
    (below : start < floor)
    (second : ∀ span, Placed source span → Points source floor ahead other (next span)) :
    Points source floor ahead other (spanFrom start >>= next) :=
  fun state sound later seen => second ⟨start, state.lastStop⟩
    ⟨boundary, sound.stop, Nat.lt_of_lt_of_le below later⟩ state sound later seen

theorem spanFrom_any {start : Nat} {next : Span → Parser β}
    (second : ∀ span, Points source floor ahead other (next span)) :
    Points source floor ahead other (spanFrom start >>= next) :=
  bind_of_quiet (fun state => ⟨⟨start, state.lastStop⟩, .inl rfl⟩) second

theorem remaining_bind {next : Nat → Parser β}
    (second : ∀ count, Points source floor ahead other (next count)) :
    Points source floor ahead other (remaining >>= next) :=
  bind_of_quiet (fun state => ⟨state.upcoming.length, .inl rfl⟩) second

theorem comments_bind {next : Option String → Parser β}
    (second : ∀ comments, Points source floor ahead other (next comments)) :
    Points source floor ahead other (comments >>= next) :=
  bind_of_quiet (fun state => (comments_run state).imp fun _ => .inr) second

theorem nextStart_bind {next : Nat → Parser β}
    (second : ∀ start, Points source floor ahead other (next start)) :
    Points source floor ahead other (nextStart >>= next) := by
  refine bind_of_quiet (fun state => ?_) second
  have run : nextStart state = _ := bind_of_some (look_run state)
  rw [run]
  cases state.upcoming.head? <;> exact ⟨_, .inr rfl⟩

/-! ## Tokens -/

theorem expect (token : Token) :
    Points source floor ahead (Passed source floor) (Parser.expect token) := by
  refine look_bind fun found seen => ?_
  split
  · next found span =>
      split
      · refine advance_bind seen (pure fun _ before => ?_)
        exact ⟨seen.1, seen.2, before⟩
      · exact unexpected
  · exact unexpected

theorem word_bind {name : String} {next : Span → Parser β}
    (second : ∀ span, Placed source span → floor ≤ span.start →
      Points source span.stop none other (next span)) :
    Points source floor ahead other (word name >>= next) :=
  @bind_span _ _ _ _ _ _ id _ _ (expect _) second

theorem mark_bind {symbol : Punctuation} {next : Span → Parser β}
    (second : ∀ span, Points source floor none other (next span)) :
    Points source floor ahead other (mark symbol >>= next) :=
  (expect _).any.bind_any second

/-! ## Repetition -/

theorem collectAtMost {entry : Parser (Option α)} (turn : Points source floor none Anything entry)
    (fuel : Nat) : Points source floor none Anything (Parser.collectAtMost entry fuel) := by
  induction fuel with
  | zero => exact fail
  | succ fuel induction =>
      refine turn.bind_any fun value => ?_
      cases value with
      | none => exact pure_any _
      | some value => exact induction.bind_any fun _ => pure_any _

theorem collect {entry : Parser (Option α)} (turn : Points source floor none Anything entry) :
    Points source floor ahead Anything (Parser.collect entry) :=
  remaining_bind fun count => (collectAtMost turn (count + 1)).weaken

theorem attempt {parser : Parser α} (points : Points source floor ahead good parser) :
    Points source floor ahead (fun result stop => ∀ value ∈ result, good value stop)
      (Parser.attempt parser) := by
  intro state sound later seen
  have arrives := points state sound later seen
  refine ⟨arrives.sound, arrives.later, fun result same => ?_⟩
  cases same
  exact arrives.value

end Points

end Parser

end ProtoSchema.Syntax
