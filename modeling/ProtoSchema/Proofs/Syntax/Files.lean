import ProtoSchema.Proofs.Syntax.Declarations
/-! # Files

What the file parser reads.
-/

namespace ProtoSchema.Syntax

/-! ## Growing files -/

namespace File

/-- The file with further statements. -/
def add (file : File) (statements : List Parser.Statement) : File :=
  { file with
    package := file.package.or (statements.filterMap Parser.Statement.package?).head?
    imports := file.imports ++ statements.filterMap Parser.Statement.import?
    options := file.options ++ statements.filterMap Parser.Statement.option?
    items := file.items ++ statements.filterMap Parser.Statement.item? }

/-- The file and further statements have one package at most. -/
def OnePackage (file : File) (statements : List Parser.Statement) : Prop :=
  (file.package.toList ++ statements.filterMap Parser.Statement.package?).length ≤ 1

theorem add_cons (file : File) (statement : Parser.Statement)
    (statements : List Parser.Statement) :
    (file.add [statement]).add statements = file.add (statement :: statements) := by
  cases statement <;>
    simp [add, List.filterMap_cons, Parser.Statement.package?, Parser.Statement.import?,
      Parser.Statement.option?, Parser.Statement.item?]

@[simp] theorem add_version (file : File) (statements : List Parser.Statement) :
    (file.add statements).version = file.version :=
  rfl

theorem add_nil (file : File) : file.add [] = file := by
  simp [add]

theorem onePackage_nil (file : File) : file.OnePackage [] := by
  cases package : file.package <;> simp [OnePackage, package]

theorem onePackage_cons (file : File) (statement : Parser.Statement)
    (statements : List Parser.Statement) :
    file.OnePackage (statement :: statements) ↔
      file.OnePackage [statement] ∧ (file.add [statement]).OnePackage statements := by
  cases package : file.package <;> cases statement <;>
    simp [OnePackage, add, package, List.filterMap_cons, Parser.Statement.package?]

end File

/-! ## Valid statements -/

/-- What a statement says for itself is right: its file name or its declaration. -/
inductive Parser.Statement.Valid (version : Version) : Parser.Statement → Prop
  | blank : Parser.Statement.Valid version .blank
  | package {package : Package} : Parser.Statement.Valid version (.package package)
  | import_ {statement : Import} (valid : IsImportPath statement.file) :
      Parser.Statement.Valid version (.import_ statement)
  | option {option : OptionEntry} : Parser.Statement.Valid version (.option option)
  | item {item : FileItem} (valid : item.Valid version) :
      Parser.Statement.Valid version (.item item)

namespace Parser.Statement

variable {version : Version}

@[simp] theorem valid_blank : Statement.Valid version .blank :=
  .blank

@[simp] theorem valid_package (package : Package) : Statement.Valid version (.package package) :=
  .package

@[simp] theorem valid_option (option : OptionEntry) : Statement.Valid version (.option option) :=
  .option

@[simp] theorem valid_import (statement : Import) :
    Statement.Valid version (.import_ statement) ↔ IsImportPath statement.file :=
  ⟨fun | .import_ valid => valid, .import_⟩

@[simp] theorem valid_item (item : FileItem) :
    Statement.Valid version (.item item) ↔ item.Valid version :=
  ⟨fun | .item valid => valid, .item⟩

end Parser.Statement

theorem Parser.Statement.valid_iff (version : Version) (statement : Parser.Statement) :
    statement.Valid version ↔
      (∀ written, statement.import? = some written → IsImportPath written.file) ∧
        ∀ item, statement.item? = some item → item.Valid version := by
  cases statement <;> simp [import?, item?]

theorem Outline.valid_iff (outline : Outline) :
    outline.Valid ↔
      (∀ version, outline.version = some version →
        version.1 = "proto2" ∨ version.1 = "proto3") ∧
      (outline.statements.filterMap Parser.Statement.package?).length ≤ 1 ∧
      ∀ statement ∈ outline.statements, statement.Valid outline.fileVersion := by
  simp only [Parser.Statement.valid_iff, imp_and, forall_and, ← List.forall_mem_filterMap]
  constructor
  · intro valid
    exact ⟨valid.version, valid.package, valid.imports, valid.items⟩
  · rintro ⟨version, package, imports, items⟩
    exact ⟨version, package, imports, items⟩

namespace Parser

open Grammar (Production Many Starts Written)

variable {upcoming : List Lexeme} {stop : Nat}

/-! ## Statements -/

theorem versionStatement_ensures :
    Ensures versionStatement upcoming stop fun consumed faults stated => ∃ name,
      Grammar.VersionStatement consumed (name, stated.2) ∧ stated.1 = Version.ofName name ∧
        Verdict faults (name = "proto2" ∨ name = "proto3") := by
  rw [versionStatement]
  refine .word_bind fun keyword _ _ word => .mark_bind fun equals _ _ sign => ?_
  have finish (version : Lexeme) (name : String) (text : version.token = .string name)
      (stated : Version) (same : stated = Version.ofName name) (faults : List SyntaxError)
      (verdict : Verdict faults (name = "proto2" ∨ name = "proto3")) (part : List Lexeme) :
      Ensures (do
        let _ ← mark .semicolon
        return (stated, ← spanFrom keyword.span.start)) part version.span.stop
        fun more others stated => ∃ name,
          Grammar.VersionStatement (keyword :: equals :: version :: more) (name, stated.2) ∧
            stated.1 = Version.ofName name ∧
            Verdict (faults ++ others) (name = "proto2" ∨ name = "proto3") := by
    refine .mark_bind fun close _ _ closes => .spanFrom_bind (.pure ?_)
    exact ⟨name, .intro word sign text closes, same, by simpa using verdict⟩
  refine .look_cases (fun _ => .unexpected_bind) fun version rest token _ text => ?_
  split
  · next name span found =>
      cases found
      refine .advance_bind ?_
      split
      · exact finish version _ text .proto2 rfl [] (Verdict.none.congr (by simp)) rest
      · exact finish version _ text .proto3 rfl [] (Verdict.none.congr (by simp)) rest
      · next other2 other3 =>
          refine .report_bind (finish version _ text .proto2 (if_neg other3).symm [_] ⟨?_, ?_⟩ rest)
          · simp [SyntaxError.isGrammatical]
          · simpa using ⟨other2, other3⟩
  · exact .unexpected_bind

theorem versionStatement_takes {sentence : List Lexeme} {version : String × Span}
    (written : Grammar.VersionStatement sentence version) (rest : List Lexeme) (stop : Nat) :
    Takes versionStatement sentence rest stop (Version.ofName version.1, version.2) := by
  rcases written with ⟨word, sign, text, closes⟩
  rw [versionStatement]
  refine .word_bind word (.mark_bind sign (.look_cons text (.advance_bind ?_)))
  split
  · exact .pure_bind (.mark_bind closes (.spanFrom_bind (.pure rfl)))
  · exact .pure_bind (.mark_bind closes (.spanFrom_bind (.pure rfl)))
  · next other2 other3 =>
      have unknown : Version.ofName _ = .proto2 := if_neg other3
      rw [unknown]
      exact .report_bind (.pure_bind (.mark_bind closes (.spanFrom_bind (.pure rfl))))

theorem packageStatement_reads :
    Reads packageStatement Grammar.PackageStatement fun _ => True := by
  intro upcoming stop
  rw [packageStatement]
  refine .word_bind fun keyword _ _ word => ?_
  refine .bind_plain (dottedName_reads _) fun sentence name _ _ inner => ?_
  refine .mark_bind fun close _ _ closes => .spanFrom_bind (.pure ⟨?_, .none⟩)
  simpa [spanOf_cons] using Grammar.PackageStatement.intro word inner closes

theorem packageStatement_accepts :
    Accepts packageStatement Grammar.PackageStatement fun _ => True := by
  rintro _ _ ⟨word, inner, closes⟩ rest stop -
  rw [packageStatement]
  refine .word_bind word ?_
  refine (dottedName_accepts (by decide) inner _ _ (.mark closes (by decide))).bind ?_
  exact .mark_bind closes (.spanFrom_bind (.pure (by simp [spanOf_cons])))

theorem importStatement_reads :
    Reads importStatement Grammar.ImportStatement fun statement => IsImportPath statement.file := by
  intro upcoming stop
  rw [importStatement]
  refine .word_bind fun keyword _ _ word => ?_
  have finish (front : List Lexeme) (modifier : Option ImportModifier)
      (how : Grammar.Modifier front modifier) (part : List Lexeme) (stop : Nat) :
      Ensures (do
        let text ← stringLiteral
        check (isImportName text.1) (.invalidImport text.2)
        let _ ← mark .semicolon
        return (⟨modifier, text.1, text.2, ← spanFrom keyword.span.start⟩ : Import)) part stop
        fun more faults statement =>
          Grammar.ImportStatement (keyword :: (front ++ more)) statement ∧
            Verdict faults (IsImportPath statement.file) := by
    refine .bind_plain stringLiteral_reads fun back text _ _ inner => ?_
    rcases text with ⟨file, fileSpan⟩
    refine (Ensures.check rfl).bind ?_
    rintro _ faults _ after - ⟨rfl, verdict⟩
    refine .mark_bind fun close _ _ closes => .spanFrom_bind (.pure ⟨?_, ?_⟩)
    · simpa [spanOf_cons] using Grammar.ImportStatement.intro word how inner closes
    · rw [List.append_nil]
      exact verdict.congr (isImportName_iff file)
  refine .look_cases (fun _ => .unexpected_bind) fun lexeme rest token _ same => ?_
  split
  · next span found =>
      cases found
      exact .advance_bind (finish [lexeme] _ (.weak same) _ _)
  · next span found =>
      cases found
      exact .advance_bind (finish [lexeme] _ (.reexport same) _ _)
  · exact finish [] _ .none _ _
  · exact .unexpected_bind

theorem importStatement_accepts :
    Accepts importStatement Grammar.ImportStatement fun _ => True := by
  rintro _ _ ⟨word, how, text, closes⟩ rest stop -
  rw [importStatement]
  refine .word_bind word ?_
  have named := stringLiteral_accepts text
  cases how with
  | none =>
      rcases text with ⟨token⟩
      refine .look_cons token (.pure_bind ((named _ _ trivial).bind (.check_bind ?_)))
      exact .mark_bind closes (.spanFrom_bind (.pure rfl))
  | weak keyword =>
      refine .look_cons keyword (.advance_bind (.pure_bind ?_))
      refine (named _ _ trivial).bind (.check_bind (.mark_bind closes (.spanFrom_bind (.pure ?_))))
      simp [spanOf_cons]
  | reexport keyword =>
      refine .look_cons keyword (.advance_bind (.pure_bind ?_))
      refine (named _ _ trivial).bind (.check_bind (.mark_bind closes (.spanFrom_bind (.pure ?_))))
      simp [spanOf_cons]

/-- What a parser reads is one of the sentences of a repetition. -/
theorem Ensures.turn {α β : Type} {parser : Parser α} {inner : Production α} {Inner : α → Prop}
    {element : Production β} {End : List Lexeme → Prop} {Valid : β → Prop}
    (reads : Ensures parser upcoming stop fun consumed faults value =>
      inner consumed value ∧ Verdict faults (Inner value)) {wrap : α → β}
    (written : Written inner)
    (sentence : ∀ ⦃consumed value⦄, inner consumed value → element consumed (wrap value))
    (valid : ∀ value, Inner value ↔ Valid (wrap value)) :
    Ensures (do return some (wrap (← parser))) upcoming stop (Turn element End Valid) := by
  refine reads.bind fun consumed faults value rest _ read => .pure ?_
  rw [List.append_nil, List.append_nil]
  exact .more (written read.1) (sentence read.1) (read.2.congr (valid value))

theorem statement_ensures (version : Version) :
    Ensures (statement version) upcoming stop (Turn Grammar.Statement
      (fun finish => finish = [] ∧ upcoming = []) (Statement.Valid version)) := by
  rw [statement]
  refine .look_cases (fun ended => .pure (.done ⟨rfl, ended⟩)) ?_
  intro lexeme lexemes token ahead same
  subst ahead
  split
  · next span found =>
      cases found
      refine .advance_bind (.pure (.more (by simp) (.blank same) (Verdict.none.congr ?_)))
      simp
  · exact (importStatement_reads _ _).turn (fun _ _ inner => inner.starts.ne_nil)
      (fun _ _ => .import_) (by simp)
  · exact (packageStatement_reads _ _).turn (fun _ _ inner => inner.starts.ne_nil)
      (fun _ _ => .package) (by simp)
  · exact (optionStatement_reads _ _).turn (fun _ _ inner => inner.starts.ne_nil)
      (fun _ _ => .option) (by simp)
  · exact (extend_reads version _ _).turn (fun _ _ inner => inner.starts.ne_nil)
      (fun _ _ => .extend) (by simp)
  · refine .remaining_bind ?_
    exact (message_ensures version (Nat.le_refl _) (by simp)).turn
      (fun _ _ inner => inner.starts.ne_nil) (fun _ _ => .message) (by simp)
  · exact (enumDeclaration_reads _ _).turn (fun _ _ inner => inner.starts.ne_nil)
      (fun _ _ => .enum) (by simp)
  · exact (service_reads _ _).turn (fun _ _ inner => inner.starts.ne_nil)
      (fun _ _ => .service) (by simp)
  · next found => cases found
  · exact .unexpected

/-- The first token of a sentence tells its parser. -/
theorem Takes.turn {α : Type} {parser : Parser α} (wrap : α → Statement) {token : Token}
    {next : Option (Token × Span) → Parser (Option Statement)} {sentence rest : List Lexeme} {value : α}
    (starts : Starts (· = token) sentence)
    (chosen : ∀ span, next (some (token, span)) = do return some (wrap (← parser)))
    (takes : Takes parser sentence rest stop value) :
    Takes (look >>= next) sentence rest stop (some (wrap value)) := by
  rcases starts with ⟨lexeme, more, rfl, same⟩
  refine .look_cons same ?_
  rw [chosen]
  exact takes.bind_last (.pure rfl)

theorem statement_takes (version : Version) {sentence : List Lexeme} {written : Statement}
    (inner : Grammar.Statement sentence written) (rest : List Lexeme) (stop : Nat) :
    Takes (statement version) sentence rest stop (some written) := by
  rw [statement]
  cases inner with
  | blank token => exact .look_cons token (.advance_bind (.pure rfl))
  | import_ inner =>
      exact .turn .import_ inner.starts (fun _ => rfl) (importStatement_accepts inner _ _ trivial)
  | package inner =>
      exact .turn .package inner.starts (fun _ => rfl)
        (packageStatement_accepts inner _ _ trivial)
  | option inner =>
      exact .turn .option inner.starts (fun _ => rfl) (optionStatement_accepts inner _ _ trivial)
  | message inner =>
      rcases inner.starts with ⟨lexeme, more, rfl, word⟩
      refine .look_cons word (.remaining_bind ?_)
      refine (message_takes version inner ?_ _ _).bind_last (.pure rfl)
      rw [List.length_append]
      omega
  | enum inner =>
      exact .turn (fun enum => .item (.enum enum)) inner.starts (fun _ => rfl)
        (enumDeclaration_accepts inner _ _ trivial)
  | service inner =>
      exact .turn (fun service => .item (.service service)) inner.starts (fun _ => rfl)
        (service_accepts inner _ _ trivial)
  | extend inner =>
      exact .turn (fun extend => .item (.extend extend)) inner.starts (fun _ => rfl)
        (extend_accepts version inner _ _ trivial)

theorem statement_takes_nil (version : Version) (stop : Nat) :
    Takes (statement version) [] [] stop none := by
  rw [statement]
  exact .look_bind (.pure rfl)

/-! ## Recovery -/

theorem skipToStatement_ensures : Ensures skipToStatement upcoming stop fun _ _ _ => True := by
  rw [skipToStatement]
  refine (Ensures.collect (fun _ _ => True) (fun _ => True)
    (fun _ => True) (fun part stop _ => ?_) stop).bind ?_
  · refine .look_cases (fun _ => .pure (.done trivial)) fun lexeme lexemes token _ same => ?_
    simp only
    split
    · exact .pure (.done trivial)
    · exact .advance_bind (.pure (.more (by simp) trivial .none))
  · intro _ _ _ _ _ _
    exact .pure trivial

/-- The run has noticed a fault of grammar. -/
def Ungrammatical (faults : List SyntaxError) : Prop :=
  ∃ fault ∈ faults, fault.isGrammatical = true

theorem Ungrammatical.append_left {faults : List SyntaxError} (found : Ungrammatical faults)
    (others : List SyntaxError) : Ungrammatical (faults ++ others) := by
  rcases found with ⟨fault, recorded, grammatical⟩
  exact ⟨fault, List.mem_append_left others recorded, grammatical⟩

theorem Ungrammatical.append_right {faults : List SyntaxError} (found : Ungrammatical faults)
    (others : List SyntaxError) : Ungrammatical (others ++ faults) := by
  rcases found with ⟨fault, recorded, grammatical⟩
  exact ⟨fault, List.mem_append_right others recorded, grammatical⟩

theorem Ensures.attempt {α : Type} {parser : Parser α}
    {Post : List Lexeme → List SyntaxError → α → Prop}
    (ensures : Ensures parser upcoming stop Post) :
    Ensures (Parser.attempt parser) upcoming stop fun consumed faults outcome =>
      (∃ value, outcome = some value ∧ Post consumed faults value) ∨
        outcome = none ∧ Ungrammatical faults := by
  intro state clean sameUpcoming sameStop
  rcases ensures state clean sameUpcoming sameStop with
    ⟨consumed, faults, after, moves, ⟨value, run, holds⟩ | ⟨run, grammatical⟩⟩
  · refine ⟨consumed, faults, after, moves, .inl ⟨some value, ?_, .inl ⟨value, rfl, holds⟩⟩⟩
    simp only [Parser.attempt, run]
  · refine ⟨consumed, faults, after, moves, .inl ⟨none, ?_, .inr ⟨rfl, grammatical⟩⟩⟩
    simp only [Parser.attempt, run]

/-! ## Files -/

theorem addStatement_ensures (file : File) (statement : Statement) :
    Ensures (addStatement file statement) upcoming stop fun consumed faults result =>
      consumed = [] ∧ result = file.add [statement] ∧
        Verdict faults (file.OnePackage [statement]) := by
  have silent (result : File) (same : result = file.add [statement])
      (one : file.OnePackage [statement]) :
      Ensures (Pure.pure result) upcoming stop fun consumed faults result =>
        consumed = [] ∧ result = file.add [statement] ∧
          Verdict faults (file.OnePackage [statement]) :=
    .pure ⟨rfl, same, Verdict.none.congr (by simp [one])⟩
  rw [addStatement.eq_def]
  rcases file with ⟨version, versionSpan, _ | first, imports, options, items⟩
  · cases statement <;> refine silent _ ?_ ?_ <;>
      simp [File.add, File.OnePackage, List.filterMap_cons, Statement.package?,
        Statement.import?, Statement.option?, Statement.item?]
  · cases statement with
    | package package =>
        refine .report_bind (.pure ⟨rfl, ?_, ?_, ?_⟩) <;>
          simp [SyntaxError.isGrammatical, File.add, File.OnePackage, List.filterMap_cons,
            Statement.package?, Statement.import?, Statement.option?, Statement.item?]
    | _ =>
        refine silent _ ?_ ?_ <;>
          simp [File.add, File.OnePackage, List.filterMap_cons, Statement.package?,
            Statement.import?, Statement.option?, Statement.item?]

theorem addStatement_takes (file : File) (statement : Statement) (rest : List Lexeme)
    (stop : Nat) : Takes (addStatement file statement) [] rest stop (file.add [statement]) := by
  rw [addStatement.eq_def]
  rcases file with ⟨version, versionSpan, _ | first, imports, options, items⟩
  · cases statement <;> refine .pure ?_ <;>
      simp [File.add, List.filterMap_cons, Statement.package?, Statement.import?,
        Statement.option?, Statement.item?]
  · cases statement with
    | package package =>
        refine .report_bind (.pure ?_)
        simp [File.add, List.filterMap_cons, Statement.package?, Statement.import?,
          Statement.option?, Statement.item?]
    | _ =>
        refine .pure ?_
        simp [File.add, List.filterMap_cons, Statement.package?, Statement.import?,
          Statement.option?, Statement.item?]

theorem addStatements_ensures (file : File) (fuel : Nat) :
    Ensures (addStatements file fuel) upcoming stop fun consumed faults _ =>
      Ungrammatical faults ∨ (upcoming.length < fuel →
        consumed = upcoming ∧ ∃ statements, Many Grammar.Statement consumed statements) := by
  induction fuel generalizing file upcoming stop with
  | zero => exact .pure (.inr fun enough => absurd enough (Nat.not_lt_zero _))
  | succ fuel induction =>
      rw [addStatements]
      refine (statement_ensures file.version).attempt.bind ?_
      rintro consumed faults outcome rest rfl (⟨value, rfl, turned⟩ | ⟨rfl, found⟩)
      · cases turned with
        | done finish =>
            rcases finish with ⟨rfl, ended⟩
            exact .pure (.inr fun _ => ⟨ended.symm, [], .none⟩)
        | @more _ statement written sentence _ =>
            refine (addStatement_ensures file statement).bind ?_
            rintro _ others _ after same ⟨rfl, -, -⟩
            rw [List.nil_append] at same
            subst same
            refine (induction _).mono ?_
            rintro more rest result _ - (found | succeeded)
            · exact .inl ((found.append_right _).append_right _)
            · refine .inr fun enough => ?_
              have positive := List.length_pos_iff.mpr written
              rw [List.length_append] at enough
              rcases succeeded (by omega) with ⟨rfl, statements, many⟩
              exact ⟨rfl, statement :: statements, .more sentence many⟩
      · -- Whatever is read after the recovery, the fault has been recorded.
        refine skipToStatement_ensures.bind fun _ others _ _ _ _ => (induction file).mono ?_
        intro _ _ _ _ _ _
        exact .inl (found.append_left _)

theorem fileVersion_ensures :
    Ensures fileVersion upcoming stop fun consumed faults _ => Ungrammatical faults ∨
      consumed = [] ∨ ∃ version, Grammar.VersionStatement consumed version := by
  rw [fileVersion]
  refine .look_cases (fun _ => .pure (.inr (.inl rfl))) fun lexeme lexemes token _ _ => ?_
  split
  · refine versionStatement_ensures.attempt.bind ?_
    rintro consumed faults outcome rest - (⟨stated, rfl, name, sentence, -⟩ | ⟨rfl, found⟩)
    · exact .pure (.inr (.inr ⟨_, by simpa using sentence⟩))
    · refine skipToStatement_ensures.bind fun _ others _ _ _ _ => .pure ?_
      exact .inl (found.append_left _)
  · exact .pure (.inr (.inl rfl))

/-- Without a fault of grammar the whole source has been read. -/
theorem file_ensures :
    Ensures file upcoming stop fun _ faults _ =>
      Ungrammatical faults ∨ ∃ outline, Grammar.Source upcoming outline := by
  rw [file]
  refine fileVersion_ensures.bind ?_
  rintro front faults _ rest rfl stated
  refine .remaining_bind ((addStatements_ensures _ _).mono ?_)
  rintro _ others _ _ - (found | added)
  · exact .inl (found.append_right faults)
  · rcases added (Nat.lt_succ_self _) with ⟨rfl, statements, many⟩
    rcases stated with found | rfl | ⟨version, first⟩
    · exact .inl (found.append_left others)
    · exact .inr ⟨_, .plain many⟩
    · exact .inr ⟨_, .versioned first many⟩

/-! ## Complete sources -/

/-- A parser takes a sentence without lexical faults before a rest. The faults that it
notices are none of grammar, and there is none if and only if something holds. -/
def Judges {α : Type} (parser : Parser α) (sentence rest : List Lexeme) (stop : Nat) (value : α)
    (valid : Prop) : Prop :=
  ∀ state : ParserState, Clean state → state.upcoming = sentence ++ rest → state.lastStop = stop →
    ∃ faults after, parser state = (some value, after) ∧ Moves state sentence faults after ∧
      Verdict faults valid

namespace Judges

variable {α β : Type} {sentence front back rest : List Lexeme} {stop : Nat} {value : α}
  {result : β} {valid other : Prop}

/-- What a parser accepts and what it reads is the same. -/
theorem of_takes {parser : Parser α} {Post : List Lexeme → List SyntaxError → α → Prop}
    (ensures : Ensures parser (sentence ++ rest) stop Post)
    (takes : Takes parser sentence rest stop value)
    (judged : ∀ faults, Post sentence faults value → Verdict faults valid) :
    Judges parser sentence rest stop value valid := by
  intro state clean sameUpcoming sameStop
  rcases takes state sameUpcoming sameStop with ⟨after, run, sameRest, -⟩
  rcases ensures state clean sameUpcoming sameStop with
    ⟨consumed, faults, after', moves, ⟨value', run', holds⟩ | ⟨run', -⟩⟩ <;>
    rw [run] at run' <;> cases run'
  -- Both runs are the same one, so they leave the same rest.
  have same : consumed = sentence := by
    have whole := moves.upcoming_eq
    rw [sameUpcoming, sameRest] at whole
    exact (List.append_cancel_right whole).symm
  subst same
  exact ⟨faults, after, run, moves, judged faults holds⟩

theorem pure : Judges (Pure.pure value) [] rest stop value True :=
  fun state _ _ _ => ⟨[], state, rfl, .refl state, .none⟩

theorem bind {parser : Parser α} {next : α → Parser β}
    (first : Judges parser front (back ++ rest) stop value valid)
    (second : Judges (next value) back rest (stopAfter stop front) result other) :
    Judges (parser >>= next) (front ++ back) rest stop result (valid ∧ other) := by
  intro state clean sameUpcoming sameStop
  rw [List.append_assoc] at sameUpcoming
  rcases first state clean sameUpcoming sameStop with ⟨faults, middle, run, moves, verdict⟩
  have sameMiddle : middle.upcoming = back ++ rest :=
    List.append_cancel_left (moves.upcoming_eq.symm.trans sameUpcoming)
  have sameMiddleStop : middle.lastStop = stopAfter stop front := sameStop ▸ moves.lastStop_eq
  rcases second middle (moves.clean clean) sameMiddle sameMiddleStop with
    ⟨others, after, runOn, movesOn, laterVerdict⟩
  exact ⟨faults ++ others, after, by rw [bind_of_some run, runOn], moves.trans movesOn,
    verdict.append laterVerdict⟩

/-- Nothing of the sentence is consumed at first. -/
theorem bind_first {parser : Parser α} {next : α → Parser β}
    (first : Judges parser [] (sentence ++ rest) stop value valid)
    (second : Judges (next value) sentence rest stop result other) :
    Judges (parser >>= next) sentence rest stop result (valid ∧ other) :=
  bind first second

/-- Nothing is left to do. -/
theorem bind_pure {parser : Parser α} {next : α → Parser β}
    (first : Judges parser sentence rest stop value valid) (same : next value = Pure.pure result) :
    Judges (parser >>= next) sentence rest stop result valid := by
  intro state clean sameUpcoming sameStop
  rcases first state clean sameUpcoming sameStop with ⟨faults, after, run, moves, verdict⟩
  exact ⟨faults, after, by rw [bind_of_some run, same]; rfl, moves, verdict⟩

theorem congr {parser : Parser α} (judges : Judges parser sentence rest stop value valid)
    (same : valid ↔ other) : Judges parser sentence rest stop value other := by
  intro state clean sameUpcoming sameStop
  rcases judges state clean sameUpcoming sameStop with ⟨faults, after, run, moves, verdict⟩
  exact ⟨faults, after, run, moves, verdict.congr same⟩

theorem attempt {parser : Parser α} (judges : Judges parser sentence rest stop value valid) :
    Judges (Parser.attempt parser) sentence rest stop (some value) valid := by
  intro state clean sameUpcoming sameStop
  rcases judges state clean sameUpcoming sameStop with ⟨faults, after, run, moves, verdict⟩
  exact ⟨faults, after, by simp only [Parser.attempt, run], moves, verdict⟩

theorem look_bind {next : Option (Token × Span) → Parser β}
    (second : Judges (next ((sentence ++ rest).head?.map fun lexeme => (lexeme.token, lexeme.span)))
      sentence rest stop result valid) :
    Judges (look >>= next) sentence rest stop result valid := by
  intro state clean sameUpcoming sameStop
  rcases look_moves clean with ⟨middle, run, moves⟩
  rw [bind_of_some run, sameUpcoming]
  have sameMiddle : middle.upcoming = sentence ++ rest := moves.upcoming_eq.symm.trans sameUpcoming
  have sameMiddleStop : middle.lastStop = stop := moves.lastStop_eq.trans sameStop
  rcases second middle (moves.clean clean) sameMiddle sameMiddleStop with
    ⟨faults, after, runOn, movesOn, verdict⟩
  exact ⟨faults, after, runOn, moves.trans movesOn, verdict⟩

theorem remaining_bind {next : Nat → Parser β}
    (second : Judges (next (sentence ++ rest).length) sentence rest stop result valid) :
    Judges (remaining >>= next) sentence rest stop result valid := by
  intro state clean sameUpcoming sameStop
  rw [bind_of_some (show remaining state = (some (sentence ++ rest).length, state) by
    rw [remaining, sameUpcoming])]
  exact second state clean sameUpcoming sameStop

end Judges

theorem addStatements_judges {sentence : List Lexeme} {statements : List Statement}
    (many : Many Grammar.Statement sentence statements) (file : File) {fuel : Nat}
    (enough : sentence.length < fuel) (stop : Nat) :
    Judges (addStatements file fuel) sentence [] stop (file.add statements)
      (file.OnePackage statements ∧
        ∀ statement ∈ statements, statement.Valid file.version) := by
  induction many generalizing file fuel stop with
  | none =>
      cases fuel with
      | zero => exact absurd enough (Nat.not_lt_zero _)
      | succ fuel =>
          have ended : Judges (statement file.version) [] [] stop none True :=
            .of_takes (statement_ensures _) (statement_takes_nil _ _) fun _ turned =>
              (by cases turned; exact .none)
          rw [addStatements, file.add_nil]
          refine .congr (ended.attempt.bind_pure rfl) ?_
          simp [file.onePackage_nil]
  | @more front back statement statements first others induction =>
      cases fuel with
      | zero => exact absurd enough (Nat.not_lt_zero _)
      | succ fuel =>
          have enoughLeft : back.length < fuel := by
            have positive := List.length_pos_iff.mpr first.starts.ne_nil
            rw [List.length_append] at enough
            omega
          have taken : Judges (Parser.statement file.version) front (back ++ []) stop
              (some statement) (statement.Valid file.version) :=
            .of_takes (statement_ensures _) (statement_takes _ first _ _) fun _ turned =>
              (by cases turned; assumption)
          have added : Judges (addStatement file statement) [] (back ++ [])
              (stopAfter stop front) (file.add [statement]) (file.OnePackage [statement]) :=
            .of_takes (addStatement_ensures _ _) (addStatement_takes _ _ _ _) fun _ outcome =>
              outcome.2.2
          have rest := induction (file.add [statement]) enoughLeft (stopAfter stop front)
          rw [addStatements, ← file.add_cons]
          refine (taken.attempt.bind (added.bind_first rest)).congr ?_
          rw [file.onePackage_cons statement statements, List.forall_mem_cons, File.add_version]
          exact ⟨fun ⟨valid, one, others, rest⟩ => ⟨⟨one, others⟩, valid, rest⟩,
            fun ⟨⟨one, others⟩, valid, rest⟩ => ⟨valid, one, others, rest⟩⟩

theorem fileVersion_judges {sentence : List Lexeme} {version : String × Span}
    (written : Grammar.VersionStatement sentence version) (rest : List Lexeme) (stop : Nat) :
    Judges fileVersion sentence rest stop (Version.ofName version.1, some version.2)
      (version.1 = "proto2" ∨ version.1 = "proto3") := by
  have taken : Judges versionStatement sentence rest stop (Version.ofName version.1, version.2)
      (version.1 = "proto2" ∨ version.1 = "proto3") := by
    refine .of_takes versionStatement_ensures (versionStatement_takes written rest stop) ?_
    rintro faults ⟨name, read, -, verdict⟩
    rcases written with ⟨-, -, text, -⟩
    rcases read with ⟨-, -, other, -⟩
    cases text.symm.trans other
    exact verdict
  rw [fileVersion]
  refine .look_bind ?_
  rcases written with ⟨word, sign, text, closes⟩
  simp only [List.cons_append, List.head?_cons, Option.map_some, word]
  exact taken.attempt.bind_pure rfl

theorem fileVersion_judges_nil {sentence : List Lexeme} {statements : List Statement}
    (many : Many Grammar.Statement sentence statements) (stop : Nat) :
    Judges fileVersion [] sentence stop (.proto2, none) True := by
  rw [fileVersion]
  refine .look_bind ?_
  cases many with
  | none => exact .pure
  | more first others =>
      rcases first.starts with ⟨lexeme, more, rfl, other⟩
      split
      · next found => exact absurd (congrArg Prod.fst (Option.some.inj found)) other
      · exact .pure

theorem file_judges {sentence : List Lexeme} {outline : Outline}
    (source : Grammar.Source sentence outline) (stop : Nat) :
    Judges file sentence [] stop outline.file outline.Valid := by
  rw [file]
  cases source with
  | plain many =>
      have first := fileVersion_judges_nil many stop
      rw [← List.append_nil sentence] at first
      have rest := addStatements_judges many (.empty .proto2 none)
        (show sentence.length < (sentence ++ []).length + 1 by simp) stop
      refine (first.bind_first (.remaining_bind rest)).congr ?_
      rw [Outline.valid_iff]
      exact ⟨fun valid => ⟨by simp, valid.2⟩, fun valid => ⟨trivial, valid.2⟩⟩
  | @versioned front back version statements first many =>
      have rest := addStatements_judges many (.empty (Version.ofName version.1) (some version.2))
        (show back.length < (back ++ []).length + 1 by simp) (stopAfter stop front)
      refine ((fileVersion_judges first (back ++ []) stop).bind (.remaining_bind rest)).congr ?_
      rw [Outline.valid_iff]
      exact ⟨fun valid => ⟨by simpa using valid.1, valid.2⟩,
        fun valid => ⟨by simpa using valid.1, valid.2⟩⟩

end Parser

end ProtoSchema.Syntax
