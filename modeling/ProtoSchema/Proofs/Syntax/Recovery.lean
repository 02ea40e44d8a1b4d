import ProtoSchema.Proofs.Syntax.Noticing
import ProtoSchema.Proofs.Syntax.Parsing
/-! # Recovery

After a failed statement the file parser goes on at the next word that begins one. Every
turn of it consumes a lexeme, so that it comes to the end of each source and notices all
lexical faults on the way.
-/

namespace ProtoSchema.Syntax

namespace Parser

/-! ## Statements -/

theorem versionStatement_opens : Opens "syntax" versionStatement := by
  refine .word_bind fun start => .mark_bind fun _ => .look_bind fun found => ?_
  have ended (version : Version) : Notices false (do
      let _ ← mark .semicolon
      return (version, ← spanFrom start.start)) :=
    .mark_bind fun _ => .spanFrom_bind fun _ => .pure _
  split
  · refine .advance_bind ?_
    split
    · exact ended .proto2
    · exact ended .proto3
    · exact .report_bind rfl (ended .proto2)
  · exact .bind (.unexpected rfl) ended

theorem packageStatement_opens : Opens "package" packageStatement :=
  .word_bind fun _ => (dottedName_notices _).bind fun _ => .mark_bind fun _ =>
    .spanFrom_bind fun _ => .pure _

theorem importStatement_opens : Opens "import" importStatement := by
  refine .word_bind fun start => .look_bind fun found => ?_
  have ended (modifier : Option ImportModifier) : Notices false (do
      let file ← stringLiteral
      check (isImportName file.1) (.invalidImport file.2)
      let _ ← mark .semicolon
      return (⟨modifier, file.1, file.2, ← spanFrom start.start⟩ : Import)) :=
    stringLiteral_notices.bind fun _ => .check_bind rfl (.mark_bind fun _ =>
      .spanFrom_bind fun _ => .pure _)
  split
  · exact .advance_bind (ended (some .weak))
  · exact .advance_bind (ended (some .reexport))
  · exact (ended none).weaken
  · exact .bind (.unexpected rfl) ended

theorem statement_notices (version : Version) : Notices false (statement version) := by
  refine .look_bind fun found => ?_
  split
  · exact .advance_bind (.pure _)
  · exact importStatement_opens.notices.weaken.bind fun _ => .pure _
  · exact packageStatement_opens.notices.weaken.bind fun _ => .pure _
  · exact optionStatement_opens.notices.weaken.bind fun _ => .pure _
  · exact (extend_opens version).notices.weaken.bind fun _ => .pure _
  · exact .remaining_bind fun depth => (message_notices version depth).weaken.bind fun _ => .pure _
  · exact enumDeclaration_opens.notices.weaken.bind fun _ => .pure _
  · exact service_opens.notices.weaken.bind fun _ => .pure _
  · exact .pure _
  · exact .unexpected rfl

/-! ## Turns -/

/-- What one turn of the file parser comes to: the end of the source, a statement, or a
failure. Only at a lexeme that begins no statement it fails without consuming anything. -/
inductive Turned (before : ParserState) : Option (Option Statement) × ParserState → Prop
  | ended {after : ParserState} (looked : after.looked = true) (done : before.upcoming = [])
      (all : after.upcoming = []) : Turned before (some none, after)
  | read {after : ParserState} (statement : Statement)
      (shorter : after.upcoming.length < before.upcoming.length) :
      Turned before (some (some statement), after)
  | failed {after : ParserState} (shorter : after.upcoming.length < before.upcoming.length) :
      Turned before (none, after)
  | refused {after : ParserState} {lexeme : Lexeme} {rest : List Lexeme}
      (same : after.upcoming = before.upcoming) (next : before.upcoming = lexeme :: rest)
      (other : beginsStatement lexeme.token = false) : Turned before (none, after)

/-- A turn of the file parser goes on with a parser after the next lexeme was looked at. -/
def Turns (before : ParserState) (parser : Parser (Option Statement)) : Prop :=
  Turned before (parser (look before).2)

theorem Opens.turns {α : Type} {name : String} {parser : Parser α} (opens : Opens name parser)
    (wrap : α → Statement) {before : ParserState} {lexeme : Lexeme} {rest : List Lexeme}
    (next : before.upcoming = lexeme :: rest) (word : lexeme.token = .ident name) :
    Turns before (do return some (wrap (← parser))) := by
  have same := (keeps_look before).2.2
  have consumed := (opens.consumes (same.trans next) word).length_le
  have shorter : (parser (look before).2).2.upcoming.length < before.upcoming.length := by
    rw [next, List.length_cons]
    omega
  rw [Turns]
  rcases run : parser (look before).2 with ⟨_ | value, after⟩ <;> rw [run] at shorter
  · rw [bind_of_none run]
    exact .failed shorter
  · rw [bind_of_some run]
    exact .read (wrap value) shorter

/-- A parser fails and consumes nothing. -/
def Refuses {α : Type} (parser : Parser α) : Prop :=
  ∀ state : ParserState, ∃ after, parser state = (none, after) ∧ after.upcoming = state.upcoming

theorem look_refuses {α : Type} {next : Option (Token × Span) → Parser α}
    (rest : ∀ found, Refuses (next found)) : Refuses (look >>= next) := by
  intro state
  rcases rest (state.upcoming.head?.map fun lexeme => (lexeme.token, lexeme.span))
    (look state).2 with ⟨after, run, same⟩
  refine ⟨after, ?_, same.trans (keeps_look state).2.2⟩
  rw [bind_of_some (look_run state)]
  exact run

theorem unexpected_refuses {α : Type} (expected : Expected) :
    Refuses (unexpected expected : Parser α) := by
  have reported (error : SyntaxError) :
      Refuses (do report error; fail : Parser α) := fun state => ⟨_, rfl, rfl⟩
  refine look_refuses fun found => ?_
  split
  · exact fun state => ⟨state, rfl, rfl⟩
  · exact reported _
  · exact reported _

theorem statement_turned (version : Version) (state : ParserState) :
    Turned state (statement version state) := by
  rcases keeps_look state with ⟨-, looked, same⟩
  rw [statement, bind_of_some (look_run state)]
  change Turns state _
  cases next : state.upcoming with
  | nil => exact .ended looked next (same.trans next)
  | cons lexeme rest =>
      have token {found : Token} {span : Span}
          (shown : some (lexeme.token, lexeme.span) = some (found, span)) :
          lexeme.token = found := congrArg Prod.fst (Option.some.inj shown)
      simp only [List.head?_cons, Option.map_some]
      split
      · next shown =>
          rcases advance_run (same.trans next) with ⟨after, run, consumed⟩
          rw [Turns, bind_of_some run]
          exact .read .blank (by rw [next, consumed, List.length_cons]; omega)
      · next shown => exact importStatement_opens.turns .import_ next (token shown)
      · next shown => exact packageStatement_opens.turns .package next (token shown)
      · next shown => exact optionStatement_opens.turns .option next (token shown)
      · next shown => exact (extend_opens version).turns (.item ∘ .extend) next (token shown)
      · next shown =>
          have depth : (look state).2.upcoming.length = rest.length + 1 := by rw [same, next]; rfl
          have opens := message_opens version (message_notices version rest.length)
          rw [← depth] at opens
          exact opens.turns (.item ∘ .message) next (token shown)
      · next shown => exact enumDeclaration_opens.turns (.item ∘ .enum) next (token shown)
      · next shown => exact service_opens.turns (.item ∘ .service) next (token shown)
      · next impossible => cases impossible
      · rcases unexpected_refuses .statement (look state).2 with ⟨after, run, kept⟩
        rw [Turns, run]
        refine .refused (kept.trans same) next ?_
        rw [beginsStatement.eq_def]
        split
        · simp_all
        · rfl

/-! ## Skipping -/

/-- One lexeme that is skipped, or the end of what is skipped. -/
def skipTurn : Parser (Option Unit) := do
  match ← look with
  | some (token, _) =>
      if beginsStatement token then return none
      else advance; return some ()
  | none => return none

theorem skipTurn_notices : Notices false skipTurn := by
  refine .look_bind fun found => ?_
  split
  · split
    · exact .pure _
    · exact .advance_bind (.pure _)
  · exact .pure _

/-- Skipping stops before the next lexeme that begins a statement. -/
theorem skip_run (fuel : Nat) (state : ParserState) (enough : state.upcoming.length < fuel) :
    ∃ values after, collectAtMost skipTurn fuel state = (some values, after) ∧
      after.upcoming = state.upcoming.dropWhile (!beginsStatement ·.token) := by
  induction fuel generalizing state with
  | zero => exact absurd enough (Nat.not_lt_zero _)
  | succ fuel induction =>
      have same := (keeps_look state).2.2
      have turn : skipTurn state = _ := bind_of_some (look_run state)
      cases next : state.upcoming with
      | nil =>
          rw [next] at turn
          exact ⟨[], _, collectAtMost_of_none turn, by rw [same, next]; rfl⟩
      | cons lexeme rest =>
          rw [next] at turn
          cases begins : beginsStatement lexeme.token with
          | true =>
              simp only [List.head?_cons, Option.map_some, begins, if_true] at turn
              exact ⟨[], _, collectAtMost_of_none turn, by simp [same, next, begins]⟩
          | false =>
              simp only [List.head?_cons, Option.map_some, begins, Bool.false_eq_true, if_false]
                at turn
              rcases advance_run (same.trans next) with ⟨middle, run, consumed⟩
              rw [bind_of_some run] at turn
              rw [next, List.length_cons, Nat.succ_lt_succ_iff, ← consumed] at enough
              rcases induction middle enough with ⟨values, after, more, stops⟩
              refine ⟨() :: values, after, ?_, ?_⟩
              · rw [collectAtMost_of_some turn, bind_of_some more]
                rfl
              · rw [stops, consumed, List.dropWhile_cons, begins]
                rfl

theorem skipToStatement_run (state : ParserState) :
    ∃ after, skipToStatement state = (some (), after) ∧ Keeps state after ∧
      after.upcoming = state.upcoming.dropWhile (!beginsStatement ·.token) := by
  rcases skip_run (state.upcoming.length + 1) state (Nat.lt_succ_self _) with
    ⟨values, after, run, stops⟩
  refine ⟨after, ?_, (Notices.collectAtMost skipTurn_notices _).keeps_of_run run, stops⟩
  have collected : collect skipTurn state = (some values, after) := run
  exact bind_of_some collected

theorem skipToStatement_notices : Notices false skipToStatement :=
  (Notices.collect skipTurn_notices).bind fun _ => .pure ()

/-! ## The course of the file parser -/

theorem addStatement_notices (file : File) (statement : Statement) :
    Notices false (addStatement file statement) := by
  cases statement with
  | package package =>
      rw [addStatement]
      split
      · exact .report_bind rfl (.pure _)
      · exact .pure _
  | _ => exact .pure _

/-- The lexemes that one turn of the file parser consumes, and whether its statement fails. -/
structure FileTurn where
  consumed : List Lexeme
  failed : Bool

/-- Between two states some lexemes are consumed, and at least one. -/
structure Consumes (before : ParserState) (lexemes : List Lexeme) (after : ParserState) :
    Prop where
  nonempty : lexemes ≠ []
  split : before.upcoming = lexemes ++ after.upcoming

theorem Keeps.exists_consumes {before after : ParserState} (keeps : Keeps before after)
    (shorter : after.upcoming.length < before.upcoming.length) :
    ∃ lexemes, Consumes before lexemes after := by
  rcases keeps.suffix with ⟨lexemes, split⟩
  refine ⟨lexemes, ?_, split.symm⟩
  rintro rfl
  rw [← split, List.nil_append] at shorter
  exact Nat.lt_irrefl _ shorter

/-- The turns that the file parser takes for the statements of a file. After a statement that
fails it skips to the next one. -/
inductive Course : File → ParserState → List FileTurn → File → ParserState → Prop
  | ended {file : File} {before last : ParserState}
      (done : statement file.version before = (some none, last)) (looked : last.looked = true)
      (exhausted : before.upcoming = []) (all : last.upcoming = []) :
      Course file before [] file last
  | added {file grown result : File} {before middle after last : ParserState} {next : Statement}
      {lexemes : List Lexeme} {turns : List FileTurn}
      (read : statement file.version before = (some (some next), middle))
      (adds : addStatement file next middle = (some grown, after))
      (consumes : Consumes before lexemes after) (rest : Course grown after turns result last) :
      Course file before (⟨lexemes, false⟩ :: turns) result last
  | skipped {file result : File} {before middle after last : ParserState}
      {lexemes : List Lexeme} {turns : List FileTurn}
      (fails : statement file.version before = (none, middle))
      (skips : skipToStatement middle = (some (), after))
      (consumes : Consumes before lexemes after) (rest : Course file after turns result last) :
      Course file before (⟨lexemes, true⟩ :: turns) result last

theorem Course.keeps {file result : File} {state last : ParserState} {turns : List FileTurn}
    (course : Course file state turns result last) : Keeps state last := by
  induction course with
  | ended done looked exhausted all => exact (statement_notices _).keeps_of_run done
  | added read adds consumes rest induction =>
      have keeps := (statement_notices _).keeps_of_run read
      exact keeps.trans (((addStatement_notices _ _).keeps_of_run adds).trans induction)
  | skipped fails skips consumes rest induction =>
      have keeps := (statement_notices _).keeps_of_run fails
      exact keeps.trans ((skipToStatement_notices.keeps_of_run skips).trans induction)

theorem Course.ends {file result : File} {state last : ParserState} {turns : List FileTurn}
    (course : Course file state turns result last) :
    last.looked = true ∧ last.upcoming = [] := by
  induction course with
  | ended done looked exhausted all => exact ⟨looked, all⟩
  | added read adds consumes rest induction => exact induction
  | skipped fails skips consumes rest induction => exact induction

/-- The fuel of the file parser is enough, since every turn consumes something. -/
theorem addStatements_course (file : File) (fuel : Nat) (state : ParserState)
    (enough : state.upcoming.length < fuel) :
    ∃ turns result last, addStatements file fuel state = (some result, last) ∧
      Course file state turns result last := by
  induction fuel generalizing file state with
  | zero => exact absurd enough (Nat.not_lt_zero _)
  | succ fuel induction =>
      have keeps := (statement_notices file.version).keeps state
      have turned := statement_turned file.version state
      rcases run : statement file.version state with ⟨outcome, middle⟩
      have attempted : attempt (statement file.version) state = (some outcome, middle) := by
        rw [attempt, run]
      rw [run] at keeps turned
      rw [addStatements, bind_of_some attempted]
      -- After a failure the rest is shorter once tokens have been skipped.
      have recovers (fails : outcome = none) (shorter : (middle.upcoming.dropWhile
            (!beginsStatement ·.token)).length < state.upcoming.length) :
          ∃ turns result last, (do skipToStatement; addStatements file fuel) middle =
            (some result, last) ∧ Course file state turns result last := by
        subst fails
        rcases skipToStatement_run middle with ⟨after, skips, kept, stops⟩
        rw [← stops] at shorter
        rcases (keeps.trans kept).exists_consumes shorter with ⟨lexemes, consumes⟩
        rcases induction file after (by omega) with ⟨turns, result, last, more, course⟩
        exact ⟨_, result, last, (bind_of_some skips).trans more, .skipped run skips consumes course⟩
      cases turned with
      | ended looked done all => exact ⟨[], file, middle, rfl, .ended run looked done all⟩
      | read statement shorter =>
          rcases addStatement_takes file statement middle.upcoming middle.lastStop middle rfl rfl
            with ⟨after, adds, -⟩
          have kept := (addStatement_notices file statement).keeps_of_run adds
          have noLonger : after.upcoming.length ≤ middle.upcoming.length := kept.suffix.length_le
          rcases (keeps.trans kept).exists_consumes (Nat.lt_of_le_of_lt noLonger shorter) with
            ⟨lexemes, consumes⟩
          rcases induction _ after (by omega) with ⟨turns, result, last, more, course⟩
          exact ⟨_, result, last, (bind_of_some adds).trans more, .added run adds consumes course⟩
      | failed shorter =>
          have noLonger := (List.dropWhile_suffix (l := middle.upcoming)
            (!beginsStatement ·.token)).length_le
          exact recovers rfl (by omega)
      | @refused _ lexeme rest same next other =>
          have noLonger := (List.dropWhile_suffix (l := rest)
            (!beginsStatement ·.token)).length_le
          refine recovers rfl ?_
          rw [same, next, List.dropWhile_cons, other, List.length_cons]
          exact Nat.lt_succ_of_le noLonger

/-! ## Whole files -/

/-- The turns that the file parser takes for a whole file. The first of them may be for the
statement that tells the version. -/
inductive FileCourse (start : ParserState) : List FileTurn → File → ParserState → Prop
  | unversioned {turns : List FileTurn} {result : File} {last : ParserState}
      (other : ∀ lexeme ∈ start.upcoming.head?, lexeme.token ≠ .ident "syntax")
      (rest : Course (.empty .proto2 none) (look start).2 turns result last) :
      FileCourse start turns result last
  | versioned {version : Version} {span : Span} {middle last : ParserState}
      {lexemes : List Lexeme} {turns : List FileTurn} {result : File}
      (read : versionStatement (look start).2 = (some (version, span), middle))
      (consumes : Consumes start lexemes middle)
      (rest : Course (.empty version (some span)) middle turns result last) :
      FileCourse start (⟨lexemes, false⟩ :: turns) result last
  | skipped {middle after last : ParserState} {lexemes : List Lexeme} {turns : List FileTurn}
      {result : File}
      (fails : versionStatement (look start).2 = (none, middle))
      (skips : skipToStatement middle = (some (), after))
      (consumes : Consumes start lexemes after)
      (rest : Course (.empty .proto2 none) after turns result last) :
      FileCourse start (⟨lexemes, true⟩ :: turns) result last

theorem FileCourse.keeps {start last : ParserState} {turns : List FileTurn} {result : File}
    (course : FileCourse start turns result last) : Keeps start last := by
  have looks := (keeps_look start).1
  cases course with
  | unversioned other rest => exact looks.trans rest.keeps
  | versioned read consumes rest =>
      have keeps := versionStatement_opens.notices.keeps_of_run read
      exact looks.trans (keeps.trans rest.keeps)
  | skipped fails skips consumes rest =>
      have keeps := versionStatement_opens.notices.keeps_of_run fails
      have kept := skipToStatement_notices.keeps_of_run skips
      exact looks.trans (keeps.trans (kept.trans rest.keeps))

theorem FileCourse.ends {start last : ParserState} {turns : List FileTurn} {result : File}
    (course : FileCourse start turns result last) : last.looked = true ∧ last.upcoming = [] := by
  cases course with
  | unversioned other rest => exact rest.ends
  | versioned read consumes rest => exact rest.ends
  | skipped fails skips consumes rest => exact rest.ends

theorem fileVersion_of_other {start : ParserState}
    (other : ∀ lexeme ∈ start.upcoming.head?, lexeme.token ≠ .ident "syntax") :
    fileVersion start = (some (.proto2, none), (look start).2) := by
  have begins : fileVersion start = _ := bind_of_some (look_run start)
  refine begins.trans (congrFun
    (?_ : _ = (Pure.pure (Version.proto2, none) : Parser (Version × Option Span))) _)
  split
  · next shown =>
      rcases Option.map_eq_some_iff.mp shown with ⟨lexeme, member, same⟩
      exact absurd (congrArg Prod.fst same) (other lexeme member)
  · rfl

section

variable {start middle after : ParserState} {lexeme : Lexeme} {rest : List Lexeme}

theorem fileVersion_of_read {version : Version} {span : Span}
    (next : start.upcoming = lexeme :: rest) (word : lexeme.token = .ident "syntax")
    (read : versionStatement (look start).2 = (some (version, span), middle)) :
    fileVersion start = (some (version, some span), middle) := by
  have begins : fileVersion start = _ := bind_of_some (look_run start)
  simp only [next, List.head?_cons, Option.map_some, word] at begins
  have attempted : attempt versionStatement (look start).2 =
      (some (some (version, span)), middle) := by
    rw [attempt, read]
  rw [begins, bind_of_some attempted]
  rfl

theorem fileVersion_of_fails (next : start.upcoming = lexeme :: rest)
    (word : lexeme.token = .ident "syntax")
    (fails : versionStatement (look start).2 = (none, middle))
    (skips : skipToStatement middle = (some (), after)) :
    fileVersion start = (some (.proto2, none), after) := by
  have begins : fileVersion start = _ := bind_of_some (look_run start)
  simp only [next, List.head?_cons, Option.map_some, word] at begins
  have attempted : attempt versionStatement (look start).2 = (some none, middle) := by
    rw [attempt, fails]
  rw [begins, bind_of_some attempted]
  exact bind_of_some skips

/-- What follows the statement that tells the version, or the lack of it. -/
theorem exists_course_of_fileVersion {version : Version} {span : Option Span}
    (first : fileVersion start = (some (version, span), middle)) :
    ∃ turns result last, file start = (some result, last) ∧
      Course (.empty version span) middle turns result last := by
  rcases addStatements_course (.empty version span) _ middle (Nat.lt_succ_self _) with
    ⟨turns, result, last, run, course⟩
  exact ⟨turns, result, last, (bind_of_some first).trans run, course⟩

/-- A file that begins with the word for its version takes a turn for it. -/
theorem versioned_course (next : start.upcoming = lexeme :: rest)
    (word : lexeme.token = .ident "syntax") :
    ∃ turns result last, file start = (some result, last) ∧
      FileCourse start turns result last := by
  rcases keeps_look start with ⟨looks, -, same⟩
  have consumed := (versionStatement_opens.consumes (same.trans next) word).length_le
  have longer : start.upcoming.length = rest.length + 1 := congrArg List.length next
  have keeps := versionStatement_opens.notices.keeps (look start).2
  rcases run : versionStatement (look start).2 with ⟨_ | ⟨version, span⟩, stopped⟩ <;>
    rw [run] at consumed keeps
  · rcases skipToStatement_run stopped with ⟨ahead, skips, kept, -⟩
    have noLonger := kept.suffix.length_le.trans consumed
    rcases (looks.trans (keeps.trans kept)).exists_consumes (by omega) with ⟨lexemes, consumes⟩
    rcases exists_course_of_fileVersion (fileVersion_of_fails next word run skips) with
      ⟨turns, result, last, more, course⟩
    exact ⟨_, result, last, more, .skipped run skips consumes course⟩
  · rcases (looks.trans keeps).exists_consumes (by omega) with ⟨lexemes, consumes⟩
    rcases exists_course_of_fileVersion (fileVersion_of_read next word run) with
      ⟨turns, result, last, more, course⟩
    exact ⟨_, result, last, more, .versioned run consumes course⟩

end

theorem file_course (start : ParserState) :
    ∃ turns result last, file start = (some result, last) ∧
      FileCourse start turns result last := by
  by_cases versioned : ∃ lexeme rest, start.upcoming = lexeme :: rest ∧
    lexeme.token = .ident "syntax"
  · rcases versioned with ⟨lexeme, rest, next, word⟩
    exact versioned_course next word
  · have other : ∀ lexeme ∈ start.upcoming.head?, lexeme.token ≠ .ident "syntax" := by
      intro lexeme member word
      rcases List.head?_eq_some_iff.mp member with ⟨rest, next⟩
      exact versioned ⟨lexeme, rest, next, word⟩
    rcases exists_course_of_fileVersion (fileVersion_of_other other) with
      ⟨turns, result, last, more, course⟩
    exact ⟨turns, result, last, more, .unversioned other course⟩

end Parser

/-! ## Faults of the lexer -/

namespace Lexer

/-- All faults of a list are lexical. -/
def Lexical (errors : List SyntaxError) : Prop :=
  ∀ error ∈ errors, error.isLexical = true

theorem Lexical.nil : Lexical [] := by
  simp [Lexical]

theorem Lexical.append {front back : List SyntaxError} (first : Lexical front)
    (second : Lexical back) : Lexical (front ++ back) :=
  List.forall_mem_append.mpr ⟨first, second⟩

theorem Lexical.singleton {error : SyntaxError} (lexical : error.isLexical = true) :
    Lexical [error] :=
  List.forall_mem_singleton.mpr lexical

theorem lexical_intErrors (offset : Nat) (spelling : IntSpelling) (rest : List Char) :
    Lexical (intErrors offset spelling rest) := by
  rw [intErrors]
  refine .append ?_ ?_
  · split
    · exact .singleton rfl
    · exact .nil
  · split
    · exact .singleton rfl
    · exact .nil

theorem lexical_readNumber (offset : Nat) (characters : List Char) :
    Lexical (readNumber offset characters).errors := by
  rw [readNumber]
  split
  · exact lexical_intErrors _ _ _
  · dsimp only
    split
    · exact .nil
    · exact lexical_intErrors _ _ _

theorem lexical_readContent (quote : Char) (offset : Nat) (characters : List Char) :
    Lexical (readContent quote offset characters).errors := by
  fun_induction readContent quote offset characters with
  | case1 => exact .singleton rfl
  | case2 => exact .nil
  | case3 => exact .singleton rfl
  | case4 offset rest _ _ escape found induction => exact induction
  | case5 offset rest _ _ found induction => exact .append (.singleton rfl) induction
  | case6 offset rest _ _ _ run induction => exact .append (.singleton rfl) induction
  | case7 offset character rest _ _ _ _ induction => exact induction

theorem lexical_readString (offset : Nat) (quote : Char) (rest : List Char) :
    Lexical (readString offset quote rest).errors := by
  have content := lexical_readContent quote (offset + 1) rest
  rw [readString]
  dsimp only
  split
  · exact content
  · exact content.append (.singleton rfl)

theorem lexical_readBlockComment (offset : Nat) (rest : List Char) :
    Lexical (readBlockComment offset rest).errors := by
  rw [readBlockComment]
  refine .append ?_ ?_
  · split
    · exact .singleton rfl
    · exact .nil
  · split
    · exact .singleton rfl
    · exact .nil

theorem lexical_readPiece (offset : Nat) (first : Char) (rest : List Char) :
    Lexical (readPiece offset first rest).errors := by
  unfold readPiece
  split
  · exact .nil
  split
  · exact .nil
  split
  · exact lexical_readNumber _ _
  split
  · exact lexical_readString _ _ _
  split
  · exact .nil
  split
  · exact lexical_readBlockComment _ _
  split
  · exact .nil
  · exact .singleton rfl

theorem lexical_pieces (offset : Nat) (characters : List Char) :
    Lexical ((pieces offset characters).flatMap Piece.errors) := by
  fun_induction pieces offset characters with
  | case1 => exact .nil
  | case2 offset first rest reading stop induction =>
      exact .append (lexical_readPiece offset first rest) induction

/-- The faults of the pieces go to the lexemes in their order. -/
theorem errors_group (comments : List String) (errors : List SyntaxError) (pieces : List Piece) :
    (group comments errors pieces).errors = errors ++ pieces.flatMap Piece.errors := by
  induction pieces generalizing comments errors with
  | nil => simp [group, LexemeSequence.errors]
  | cons piece pieces induction =>
      rw [group]
      dsimp only
      split
      · rw [induction, List.flatMap_cons, List.append_assoc]
      · rw [induction, List.flatMap_cons, List.append_assoc]
      · have later := induction [] []
        rw [LexemeSequence.errors, List.nil_append] at later
        simp only [LexemeSequence.errors, List.flatMap_cons, List.append_assoc, later]

theorem errors_lex (source : String) :
    (lex source).errors = (pieces 0 source.toList).flatMap Piece.errors := by
  rw [lex, errors_group, List.nil_append]

end Lexer

/-- At first none of the lexical faults have been noticed. -/
theorem unnoticed_start (sequence : LexemeSequence) :
    ParserState.unnoticed { upcoming := sequence.lexemes, trailing := sequence.trailing } =
      sequence.errors := by
  rcases sequence with ⟨_ | ⟨lexeme, lexemes⟩, trailing⟩ <;>
    simp [ParserState.unnoticed, ParserState.ahead, ParserState.behind, LexemeSequence.errors]

/-- Reading a source finds exactly its lexical faults, in their order, besides other faults. -/
theorem filter_isLexical_readSource (source : String) :
    (readSource source).2.filter SyntaxError.isLexical = (lex source).errors := by
  rcases Parser.file_course { upcoming := (lex source).lexemes
                              trailing := (lex source).trailing } with
    ⟨turns, file, after, run, course⟩
  rcases course.ends with ⟨looked, all⟩
  have kept := course.keeps.lexical_eq
  have behind : after.unnoticed = [] := by
    rw [ParserState.unnoticed, looked, ParserState.behind, all]
    rfl
  rw [ParserState.lexical, ParserState.lexical, behind, unnoticed_start, List.append_nil,
    List.nil_append] at kept
  rw [readSource_of_run run, kept, Lexer.errors_lex]
  exact List.filter_eq_self.mpr (Lexer.lexical_pieces 0 source.toList)

/-! ## Accepted sources -/

theorem readSource_of_parse_eq_ok {name source : String} {tree : File}
    (parsed : parse name source = .ok tree) : readSource source = (tree, []) :=
  (parse_eq_ok_iff.mp parsed).2

/-- An accepted source has no lexical faults, and is the tree of a derivation that is
valid. -/
theorem exists_outline_of_parse {name source : String} {tree : File}
    (parsed : parse name source = .ok tree) :
    (lex source).errors = [] ∧ ∃ outline, Grammar.Source (lex source).lexemes outline ∧
      outline.file = tree ∧ outline.Valid := by
  have read := readSource_of_parse_eq_ok parsed
  have lexical : (lex source).errors = [] := by
    rw [← filter_isLexical_readSource, read, List.filter_nil]
  rcases exists_derivation lexical (by simp [read]) with ⟨outline, derivation⟩
  rcases readSource_of_derivation lexical derivation with ⟨sameFile, verdict⟩
  rw [read] at sameFile verdict
  exact ⟨lexical, outline, derivation, sameFile.symm, verdict.eq_nil_iff.mp rfl⟩

end ProtoSchema.Syntax
