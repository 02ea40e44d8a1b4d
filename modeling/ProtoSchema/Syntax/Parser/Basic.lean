import ProtoSchema.Syntax.Lexer
/-!
## Parsers

A parser reads lexemes from the front of a sequence. It gives a value or fails;
in both cases the state goes on, because after a failure the file parser skips
to the next statement and the faults of all statements are reported together.

Faults are recorded in the order in which they are noticed. The lexical faults of
a lexeme are noticed when it is first looked at, which may be later than the
faults of the statement before it.
-/

namespace ProtoSchema.Syntax

/-- The state of a parser: the lexemes not yet consumed, the faults after the last
of them, whether the next lexeme has been looked at, the faults recorded so far,
and the end of the token consumed last. -/
structure ParserState where
  upcoming : List Lexeme
  trailing : List SyntaxError
  looked : Bool := false
  errors : List SyntaxError := []
  lastStop : Nat := 0

/-- The lexical faults that are noticed by looking ahead. -/
def ParserState.ahead (state : ParserState) : List SyntaxError :=
  match state.upcoming with
  | [] => state.trailing
  | lexeme :: _ => lexeme.errors

def Parser (α : Type) : Type :=
  ParserState → Option α × ParserState

namespace Parser

instance : Monad Parser where
  pure value := fun state => (some value, state)
  bind parser next := fun state =>
    match parser state with
    | (some value, state) => next value state
    | (none, state) => (none, state)

/-! ### Looking and consuming -/

/-- The next token and its span; `none` at the end of the source. -/
def look : Parser (Option (Token × Span)) := fun state =>
  let next := state.upcoming.head?.map fun lexeme => (lexeme.token, lexeme.span)
  if state.looked then (some next, state)
  else (some next, { state with looked := true, errors := state.errors ++ state.ahead })

def advance : Parser Unit := fun state =>
  match state.upcoming with
  | [] => (some (), state)
  | lexeme :: rest =>
      (some (), { state with upcoming := rest, looked := false, lastStop := lexeme.span.stop })

/-- The comments before the next token, a line or more for each of them. -/
def comments : Parser (Option String) := do
  let _ ← look
  fun state =>
    match state.upcoming with
    | [] => (some none, state)
    | lexeme :: _ =>
        if lexeme.comments.isEmpty then (some none, state)
        else (some (some ("\n".intercalate lexeme.comments)), state)

/-! ### Faults -/

def report (error : SyntaxError) : Parser Unit := fun state =>
  (some (), { state with errors := state.errors ++ [error] })

/-- Records a fault if a check fails. -/
def check (holds : Bool) (error : SyntaxError) : Parser Unit :=
  if holds then pure () else report error

/-- Fails without a fault of its own. -/
def fail {α : Type} : Parser α := fun state =>
  (none, state)

/-- Fails because the next token is not what the grammar expects. A character that
begins no token is a fault already. -/
def unexpected {α : Type} (expected : Expected) : Parser α := do
  match ← look with
  | some (.invalid, _) => fail
  | some (found, span) => report (.unexpectedToken expected found span)
  | none => report (.unexpectedEnd expected)
  fail

/-- Turns failure into a value. -/
def attempt {α : Type} (parser : Parser α) : Parser (Option α) := fun state =>
  let (result, state) := parser state
  (some result, state)

/-! ### Spans -/

/-- The span from an offset to the end of the token consumed last. -/
def spanFrom (start : Nat) : Parser Span := fun state =>
  (some ⟨start, state.lastStop⟩, state)

/-- The offset at which the next token begins. -/
def nextStart : Parser Nat := do
  match ← look with
  | some (_, span) => pure span.start
  | none => fun state => (some state.lastStop, state)

/-! ### Repetition -/

/-- The number of lexemes not yet consumed. -/
def remaining : Parser Nat := fun state =>
  (some state.upcoming.length, state)

/-- Runs a parser until it gives `none`, at most as often as the fuel says. -/
def collectAtMost {α : Type} (entry : Parser (Option α)) : Nat → Parser (List α)
  | 0 => fail
  | fuel + 1 => do
      match ← entry with
      | none => pure []
      | some value => do
          let values ← collectAtMost entry fuel
          pure (value :: values)

/-- Runs a parser until it gives `none`. Every other run has to consume a token, so
that the number of tokens is fuel enough. -/
def collect {α : Type} (entry : Parser (Option α)) : Parser (List α) := do
  collectAtMost entry ((← remaining) + 1)

/-! ### Single tokens -/

def expect (token : Token) : Parser Span := do
  match ← look with
  | some (found, span) =>
      if found = token then advance; pure span
      else unexpected (.token token)
  | none => unexpected (.token token)

def word (name : String) : Parser Span :=
  expect (.ident name)

def mark (symbol : Punctuation) : Parser Span :=
  expect (.mark symbol)

end Parser

end ProtoSchema.Syntax
