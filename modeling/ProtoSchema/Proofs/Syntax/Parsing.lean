import Mathlib
import ProtoSchema.Proofs.Syntax.Files
import ProtoSchema.Proofs.Text.Utf8
/-! # Sources

A source without lexical faults is read without faults of grammar if and only if it is
derivable, and then as the tree of its derivation. No fault at all is noticed if and only
if this tree is valid. A source that is too large is refused before it is read.
-/

namespace ProtoSchema.Syntax

/-! ## Lexical faults -/

namespace Lexer

theorem readNumber_token_ne_invalid (offset : Nat) (characters : List Char) :
    (readNumber offset characters).token ≠ .invalid := by
  rw [readNumber]
  split
  · simp [readInt]
  · dsimp only
    split <;> simp [readInt]

/-- A character that begins no token is a fault. -/
theorem readPiece_errors_ne_nil {offset : Nat} {first : Char} {rest : List Char}
    (invalid : (readPiece offset first rest).content = .token .invalid) :
    (readPiece offset first rest).errors ≠ [] := by
  have number := readNumber_token_ne_invalid offset (first :: rest)
  revert invalid
  unfold readPiece
  split
  · simp
  split
  · simp
  split
  · simp [number]
  split
  · simp
  split
  · simp [CommentReading.reading]
  split
  · simp [CommentReading.reading]
  split <;> simp

theorem errors_ne_nil_of_mem_pieces {offset : Nat} {characters : List Char} {piece : Piece}
    (member : piece ∈ pieces offset characters) (invalid : piece.content = .token .invalid) :
    piece.errors ≠ [] := by
  fun_induction pieces offset characters with
  | case1 => cases member
  | case2 offset first rest reading stop induction =>
      rcases List.mem_cons.mp member with rfl | member
      · exact readPiece_errors_ne_nil invalid
      · exact induction member

theorem errors_ne_nil_of_mem_group {pieces : List Piece}
    (faulty : ∀ piece ∈ pieces, piece.content = .token .invalid → piece.errors ≠ [])
    {comments : List String} {errors : List SyntaxError} {lexeme : Lexeme}
    (member : lexeme ∈ (group comments errors pieces).lexemes)
    (invalid : lexeme.token = .invalid) : lexeme.errors ≠ [] := by
  induction pieces generalizing comments errors with
  | nil => cases member
  | cons piece rest induction =>
      have later {comments : List String} {errors : List SyntaxError} :
          lexeme ∈ (group comments errors rest).lexemes → lexeme.errors ≠ [] :=
        induction fun piece member => faulty piece (List.mem_cons_of_mem _ member)
      unfold group at member
      dsimp only at member
      split at member
      · exact later member
      · exact later member
      · next token content =>
          rcases List.mem_cons.mp member with rfl | member
          · have here := faulty piece List.mem_cons_self (content.trans (congrArg _ invalid))
            simp [here]
          · exact later member

end Lexer

/-- The state before the first token of a source without lexical faults. -/
theorem clean_of_errors_eq_nil {source : String} (lexical : (lex source).errors = []) :
    Parser.Clean { upcoming := (lex source).lexemes, trailing := (lex source).trailing } := by
  rw [LexemeSequence.errors, List.append_eq_nil_iff, List.flatMap_eq_nil_iff] at lexical
  refine ⟨fun lexeme member => ⟨lexical.1 lexeme member, fun invalid => ?_⟩, lexical.2⟩
  have faulty := Lexer.errors_ne_nil_of_mem_group
    (fun piece => Lexer.errors_ne_nil_of_mem_pieces) member invalid
  exact faulty (lexical.1 lexeme member)

/-! ## Readings -/

theorem readSource_of_run {source : String} {file? : Option File} {after : ParserState}
    (run : Parser.file { upcoming := (lex source).lexemes, trailing := (lex source).trailing } =
      (file?, after)) :
    readSource source = (file?.getD .empty, after.errors) := by
  rw [readSource]
  dsimp only
  rw [run]

/-- What reading a derivable source gives: the tree of the derivation, and faults that are
none of grammar. -/
theorem readSource_of_derivation {source : String} (lexical : (lex source).errors = [])
    {outline : Outline} (derivation : Grammar.Source (lex source).lexemes outline) :
    (readSource source).1 = outline.file ∧ Verdict (readSource source).2 outline.Valid := by
  have clean := clean_of_errors_eq_nil lexical
  rcases Parser.file_judges derivation 0 _ clean (List.append_nil _).symm rfl with
    ⟨faults, after, run, moves, verdict⟩
  have errors : after.errors = faults := moves.errors_eq
  rw [readSource_of_run run, errors]
  exact ⟨rfl, verdict⟩

/-- A source that is read without a fault of grammar is derivable. -/
theorem exists_derivation {source : String} (lexical : (lex source).errors = [])
    (grammatical : ∀ fault ∈ (readSource source).2, fault.isGrammatical = false) :
    ∃ outline, Grammar.Source (lex source).lexemes outline := by
  have clean := clean_of_errors_eq_nil lexical
  -- The file parser can fail as a whole only after a fault of grammar.
  rcases Parser.file_ensures _ clean rfl rfl with ⟨consumed, faults, after, moves, ends⟩
  have errors : after.errors = faults := moves.errors_eq
  have derivable_or : Parser.Ungrammatical (readSource source).2 ∨
      ∃ outline, Grammar.Source (lex source).lexemes outline := by
    rcases ends with ⟨file, run, outcome⟩ | ⟨run, found⟩ <;> rw [readSource_of_run run, errors]
    · exact outcome
    · exact .inl found
  rcases derivable_or with ⟨fault, recorded, ungrammatical⟩ | derivable
  · rw [grammatical fault recorded] at ungrammatical
    cases ungrammatical
  · exact derivable

/-- For a source without lexical faults: it is read without an unexpected token, an
unexpected end or a group if and only if its lexemes are derivable, and then the tree is
that of the derivation. -/
theorem readSource_grammatical_iff (source : String) (lexical : (lex source).errors = []) :
    ((∀ fault ∈ (readSource source).2, fault.isGrammatical = false) ↔
      ∃ outline, Grammar.Source (lex source).lexemes outline) ∧
    ∀ outline, Grammar.Source (lex source).lexemes outline →
      (readSource source).1 = outline.file := by
  refine ⟨⟨exists_derivation lexical, ?_⟩, ?_⟩
  · rintro ⟨outline, derivation⟩
    exact (readSource_of_derivation lexical derivation).2.harmless
  · exact fun outline derivation => (readSource_of_derivation lexical derivation).1

/-- The words `map` and `group` are names where no type is expected. -/
theorem readSource_grammatical_message :
    (lex "message map \x7b map<group, .map> group = 0; \x7d").errors = [] ∧
      ∃ outline,
        Grammar.Source (lex "message map \x7b map<group, .map> group = 0; \x7d").lexemes
          outline := by
  have lexical : (lex "message map \x7b map<group, .map> group = 0; \x7d").errors = [] := by cbv
  refine ⟨lexical, (readSource_grammatical_iff _ lexical).1.mp ?_⟩
  have faults : (readSource "message map \x7b map<group, .map> group = 0; \x7d").2 =
      [.invalidFieldNumber ⟨39, 40⟩] := by cbv
  rw [faults]
  simp [SyntaxError.isGrammatical]

/-! ## Accepted and refused sources -/

/-- A source is accepted if it is not too large and no fault is found in it. -/
theorem parse_eq_ok_iff {name source : String} {tree : File} :
    parse name source = .ok tree ↔
      source.utf8ByteSize ≤ maxFileSize ∧ readSource source = (tree, []) := by
  rw [parse]
  split
  · next large =>
      refine iff_of_false nofun ?_
      rintro ⟨fits, -⟩
      exact absurd large (Nat.not_lt_of_le fits)
  · next fits =>
      rw [and_iff_right (Nat.le_of_not_lt fits)]
      rcases readSource source with ⟨file, _ | ⟨first, others⟩⟩ <;> simp

/-- A source is refused because it is too large, or with all faults that are found in it. -/
theorem parse_eq_error_iff {name source : String} {failure : SyntaxFailure} :
    parse name source = .error failure ↔ failure.file = name ∧ failure.source = source ∧
      failure.errors =
        if maxFileSize < source.utf8ByteSize then [.fileTooLarge] else (readSource source).2 := by
  rcases failure with ⟨file, text, head, tail⟩
  rw [parse]
  split
  · simp [SyntaxFailure.errors, eq_comm]
  · rcases readSource source with ⟨tree, _ | ⟨first, others⟩⟩ <;>
      simp [SyntaxFailure.errors, eq_comm]

/-- A source with a fault is refused, and the fault is reported unless the source is too
large. -/
theorem exists_failure_of_fault {source : String} {fault : SyntaxError}
    (found : fault ∈ (readSource source).2) (name : String) :
    ∃ failure, parse name source = .error failure ∧
      (source.utf8ByteSize ≤ maxFileSize → fault ∈ failure.errors) := by
  cases result : parse name source with
  | ok tree =>
      rw [(parse_eq_ok_iff.mp result).2] at found
      cases found
  | error failure =>
      refine ⟨failure, rfl, fun fits => ?_⟩
      rw [(parse_eq_error_iff.mp result).2.2, if_neg (Nat.not_lt_of_le fits)]
      exact found

/-! ### Sources of spaces -/

/-- A source of spaces. -/
def spaces (count : Nat) : String :=
  String.ofList (List.replicate count ' ')

theorem utf8ByteSize_spaces (count : Nat) : (spaces count).utf8ByteSize = count := by
  rw [Utf8.utf8ByteSize_eq, spaces, String.toList_ofList]
  induction count with
  | zero => rfl
  | succ count induction =>
      rw [List.replicate_succ, Utf8.size_cons, induction]
      exact Nat.add_comm 1 count

theorem lex_spaces (count : Nat) : lex (spaces count) = ⟨[], []⟩ := by
  have blank (offset : Nat) :
      Lexer.group [] [] (Lexer.pieces offset (List.replicate count ' ')) = ⟨[], []⟩ := by
    induction count generalizing offset with
    | zero => rw [List.replicate_zero, Lexer.pieces, Lexer.group]
    | succ count induction =>
        rw [List.replicate_succ, Lexer.pieces]
        exact induction _
  rw [lex, spaces, String.toList_ofList, blank]

/-- A source of spaces is derivable, and its tree is valid: it has no statements. -/
theorem spaces_valid (count : Nat) :
    (lex (spaces count)).errors = [] ∧
      Grammar.Source (lex (spaces count)).lexemes ⟨none, []⟩ ∧ Outline.Valid ⟨none, []⟩ := by
  rw [lex_spaces]
  exact ⟨rfl, .plain .none,
    { version := nofun, package := Nat.zero_le 1, imports := nofun, items := nofun }⟩

theorem parse_spaces {count : Nat} (large : maxFileSize < count) (name : String) :
    parse name (spaces count) = .error ⟨name, spaces count, .fileTooLarge, []⟩ := by
  rw [parse_eq_error_iff, utf8ByteSize_spaces, if_pos large]
  exact ⟨rfl, rfl, rfl⟩

/-! ## Valid trees -/

/-- For a derivable source without lexical faults: no fault is found in it if and only if its tree
is valid, and it is accepted if and only if it is not too large either. -/
theorem parse_ok_iff (name source : String) (lexical : (lex source).errors = [])
    (outline : Outline) (derivation : Grammar.Source (lex source).lexemes outline) :
    ((readSource source).2 = [] ↔ outline.Valid) ∧
      ((∃ file, parse name source = .ok file) ↔
        source.utf8ByteSize ≤ maxFileSize ∧ outline.Valid) := by
  rcases readSource_of_derivation lexical derivation with ⟨same, verdict⟩
  have sound := verdict.eq_nil_iff
  refine ⟨sound, ?_⟩
  constructor
  · rintro ⟨file, accepted⟩
    rcases parse_eq_ok_iff.mp accepted with ⟨fits, read⟩
    exact ⟨fits, sound.mp (congrArg Prod.snd read)⟩
  · rintro ⟨fits, valid⟩
    exact ⟨outline.file, parse_eq_ok_iff.mpr ⟨fits, Prod.ext same (sound.mpr valid)⟩⟩

/-- A file name with an empty part is not accepted. -/
theorem parse_import :
    (lex "import \"a//b\";").errors = [] ∧
      Grammar.Source (lex "import \"a//b\";").lexemes
        ⟨none, [.import_ ⟨none, "a//b", ⟨7, 13⟩, ⟨0, 14⟩⟩]⟩ ∧
      ¬∃ file, parse "c.proto" "import \"a//b\";" = .ok file := by
  have lexical : (lex "import \"a//b\";").errors = [] := by cbv
  have lexemes : (lex "import \"a//b\";").lexemes =
      [⟨[], [], .ident "import", ⟨0, 6⟩⟩, ⟨[], [], .string "a//b", ⟨7, 13⟩⟩,
        ⟨[], [], .mark .semicolon, ⟨13, 14⟩⟩] := by cbv
  have derivation : Grammar.Source (lex "import \"a//b\";").lexemes
      ⟨none, [.import_ ⟨none, "a//b", ⟨7, 13⟩, ⟨0, 14⟩⟩]⟩ := by
    rw [lexemes]
    exact .plain (.more (Grammar.Statement.import_ (.intro rfl .none (.intro rfl) rfl)) .none)
  refine ⟨lexical, derivation, ?_⟩
  rw [(parse_ok_iff _ _ lexical _ derivation).2]
  rintro ⟨-, valid⟩
  have imported := valid.imports ⟨none, "a//b", ⟨7, 13⟩, ⟨0, 14⟩⟩ List.mem_cons_self
  exact (imported.parts [] (by decide)).1 rfl

/-- One byte too many: the tree is valid, but the source is refused. -/
theorem not_parse_ok_spaces :
    (lex (spaces 2147483648)).errors = [] ∧
      Grammar.Source (lex (spaces 2147483648)).lexemes ⟨none, []⟩ ∧ Outline.Valid ⟨none, []⟩ ∧
      ¬∃ file, parse "spaces.proto" (spaces 2147483648) = .ok file := by
  rcases spaces_valid 2147483648 with ⟨lexical, derivation, valid⟩
  refine ⟨lexical, derivation, valid, ?_⟩
  rintro ⟨file, accepted⟩
  rw [parse_spaces (by decide)] at accepted
  cases accepted

end ProtoSchema.Syntax
