import ProtoSchema.Proofs.Syntax.Spans
/-! # Comments between tokens

Between two tokens of a source there are white space and comments. A lexeme has the texts of those
comments that stand between the token before it and its own.
-/

namespace ProtoSchema.Syntax

/-! ## Gaps -/

/-- The text that is kept of a comment: without the white space around it. -/
def keptText (text : List Char) : String :=
  String.ofList (Text.trim text)

/-- A text that consists of white space and comments, with the texts of the comments. What follows
it decides whether a line comment ends with it. A block comment ends at the first asterisk that a
slash follows. -/
inductive Gap (after : List Char) : List Char → List String → Prop
  | none : Gap after [] []
  | space {character : Char} {text : List Char} {comments : List String}
      (blank : Lexer.isSpace character = true) (rest : Gap after text comments) :
      Gap after (character :: text) comments
  | line {content text : List Char} {comments : List String} (inside : '\n' ∉ content)
      (ends : ∀ next ∈ (text ++ after).head?, next = '\n') (rest : Gap after text comments) :
      Gap after ('/' :: '/' :: (content ++ text))
        (keptText (Lexer.dropCarriageReturn content) :: comments)
  | block {content text : List Char} {comments : List String}
      (ends : ¬['*', '/'] <:+: content ++ ['*']) (rest : Gap after text comments) :
      Gap after ('/' :: '*' :: (content ++ '*' :: '/' :: text))
        (keptText (Lexer.blockCommentText content) :: comments)

theorem eq_nil_of_block {content rest more : List Char}
    (ends : ¬['*', '/'] <:+: content ++ ['*'])
    (same : '*' :: '/' :: rest = content ++ '*' :: '/' :: more) : content = [] := by
  match content with
  | [] => rfl
  | [only] => cases (List.cons.inj (List.cons.inj same).2).1
  | first :: second :: content =>
      rcases List.cons.inj same with ⟨rfl, later⟩
      cases (List.cons.inj later).1
      exact absurd ⟨[], content ++ ['*'], rfl⟩ ends

/-- What stands before the first end of a block comment is determined. -/
theorem eq_of_block {content other rest more : List Char}
    (ends : ¬['*', '/'] <:+: content ++ ['*']) (otherEnds : ¬['*', '/'] <:+: other ++ ['*'])
    (same : content ++ '*' :: '/' :: rest = other ++ '*' :: '/' :: more) :
    content = other ∧ rest = more := by
  induction content generalizing other with
  | nil =>
      cases eq_nil_of_block otherEnds same
      exact ⟨rfl, by simpa using same⟩
  | cons first content induction =>
      cases other with
      | nil => cases eq_nil_of_block ends same.symm
      | cons second other =>
          rcases List.cons.inj same with ⟨rfl, later⟩
          rw [List.cons_append, List.infix_cons_iff, not_or] at ends otherEnds
          rcases induction ends.2 otherEnds.2 later with ⟨rfl, rest⟩
          exact ⟨rfl, rest⟩

/-- What stands before the end of a line is determined. -/
theorem eq_of_line {content other text more after : List Char} (inside : '\n' ∉ content)
    (otherInside : '\n' ∉ other) (ends : ∀ next ∈ (text ++ after).head?, next = '\n')
    (otherEnds : ∀ next ∈ (more ++ after).head?, next = '\n')
    (same : content ++ text = other ++ more) : content = other ∧ text = more := by
  have shorter {content other text more : List Char} (otherInside : '\n' ∉ other)
      (ends : ∀ next ∈ (text ++ after).head?, next = '\n') {between : List Char}
      (longer : other = content ++ between) (rest : text = between ++ more) :
      content = other ∧ text = more := by
    cases between with
    | nil => exact ⟨by rw [longer, List.append_nil], rest⟩
    | cons first between =>
        have isEnd := ends first (by rw [rest]; rfl)
        exact absurd (by simp [longer, isEnd]) otherInside
  rcases List.append_eq_append_iff.mp same with
    ⟨between, longer, rest⟩ | ⟨between, longer, rest⟩
  · exact shorter otherInside ends longer rest
  · exact (shorter inside otherEnds longer rest).imp Eq.symm Eq.symm

/-- A gap has one list of comments only. -/
theorem Gap.unique {after text : List Char} {comments others : List String}
    (gap : Gap after text comments) (again : Gap after text others) : comments = others := by
  induction gap generalizing others with
  | none =>
      cases again
      rfl
  | @space character text comments blank rest induction =>
      generalize whole : character :: text = all at again
      cases again with
      | none => cases whole
      | space _ others =>
          cases whole
          exact induction others
      | line | block =>
          cases (List.cons.inj whole).1
          exact absurd blank (by decide)
  | @line content text comments inside ends rest induction =>
      generalize whole : '/' :: '/' :: (content ++ text) = all at again
      cases again with
      | none => cases whole
      | space blank =>
          cases (List.cons.inj whole).1
          exact absurd blank (by decide)
      | line otherInside otherEnds others =>
          rcases eq_of_line inside otherInside ends otherEnds
            (List.cons.inj (List.cons.inj whole).2).2 with ⟨rfl, rfl⟩
          rw [induction others]
      | block => cases (List.cons.inj (List.cons.inj whole).2).1
  | @block content text comments ends rest induction =>
      generalize whole : '/' :: '*' :: (content ++ '*' :: '/' :: text) = all at again
      cases again with
      | none => cases whole
      | space blank =>
          cases (List.cons.inj whole).1
          exact absurd blank (by decide)
      | line => cases (List.cons.inj (List.cons.inj whole).2).1
      | block otherEnds others =>
          rcases eq_of_block ends otherEnds (List.cons.inj (List.cons.inj whole).2).2 with
            ⟨rfl, rfl⟩
          rw [induction others]

/-- A gap stands at a span of a source. -/
def GapAt (source : String) (span : Span) (comments : List String) : Prop :=
  ∃ text after, TextAt source span text after ∧ Gap after text comments

theorem GapAt.unique {source : String} {span : Span} {comments others : List String}
    (gap : GapAt source span comments) (again : GapAt source span others) : comments = others := by
  rcases gap with ⟨text, after, stands, gap⟩
  rcases again with ⟨other, rest, otherStands, again⟩
  rcases stands.unique otherStands with ⟨rfl, rfl⟩
  exact gap.unique again

namespace Lexer

/-! ## Comments as pieces -/

/-- A pair of characters is found where it stands first. -/
theorem exists_of_findPair? {first second : Char} {characters : List Char} {count : Nat}
    (found : findPair? first second characters = some count) :
    ∃ front back, characters = front ++ first :: second :: back ∧ front.length = count ∧
      ¬[first, second] <:+: front ++ [first] := by
  fun_induction findPair? first second characters generalizing count with
  | case1 left right rest here =>
      rcases here with ⟨rfl, rfl⟩
      cases found
      exact ⟨[], rest, rfl, rfl, fun inside => absurd inside.length_le (Nat.not_succ_le_self 1)⟩
  | case2 left right rest other induction =>
      rcases Option.map_eq_some_iff.mp found with ⟨later, isLater, rfl⟩
      rcases induction isLater with ⟨front, back, split, rfl, none⟩
      refine ⟨left :: front, back, by rw [split, List.cons_append], rfl, ?_⟩
      rw [List.cons_append, List.infix_cons_iff, not_or]
      refine ⟨?_, none⟩
      rintro ⟨tail, starts⟩
      rcases List.cons.inj starts with ⟨isFirst, isSecond⟩
      have next : right = second := by
        cases front with
        | nil => exact (List.cons.inj split).1.trans (List.cons.inj isSecond).1.symm
        | cons head front => exact (List.cons.inj split).1.trans (List.cons.inj isSecond).1.symm
      exact other ⟨isFirst.symm, next⟩
  | case3 => cases found

/-- What is read as white space. -/
theorem isSpace_of_readPiece {offset : Nat} {first : Char} {rest : List Char}
    (content : (readPiece offset first rest).content = .blank) :
    isSpace first = true ∧ (readPiece offset first rest).extra = 0 := by
  revert content
  unfold readPiece
  split
  · next blank => exact fun _ => ⟨blank, rfl⟩
  split
  · simp
  split
  · simp
  split
  · simp
  split
  · simp [CommentReading.reading]
  split
  · simp [CommentReading.reading]
  split <;> simp

section

variable {tail gap after : List Char} {comments : List String}

/-- A line comment reaches to the end of its line. -/
theorem gap_of_lineComment (split : tail.drop (lineCommentContent tail).length = gap ++ after)
    (rest : Gap after gap comments) :
    Gap after ('/' :: '/' :: (lineCommentContent tail ++ gap))
      (keptText (dropCarriageReturn (lineCommentContent tail)) :: comments) := by
  refine .line (fun member => ?_) (fun next isNext => ?_) rest
  · simpa using List.mem_takeWhile_imp member
  · rw [← split, lineCommentContent, drop_length_takeWhile] at isNext
    have stops := List.head?_dropWhile_not (· != '\n') tail
    rw [Option.mem_def.mp isNext] at stops
    simpa using stops

/-- A block comment that ends reaches to its end. -/
theorem gap_of_blockComment {offset count : Nat} (ends : findPair? '*' '/' tail = some count)
    (split : tail.drop (count + 2) = gap ++ after) (rest : Gap after gap comments) :
    Gap after ('/' :: '*' :: (tail.take (count + 2) ++ gap))
      (String.ofList (Text.trim (readBlockComment offset tail).text) :: comments) := by
  rcases exists_of_findPair? ends with ⟨content, back, rfl, rfl, first⟩
  have text : (readBlockComment offset (content ++ '*' :: '/' :: back)).text =
      blockCommentText content := by
    simp [readBlockComment, ends]
  have whole : (content ++ '*' :: '/' :: back).take (content.length + 2) =
      content ++ ['*', '/'] := by
    simp [List.take_append]
  rw [text, whole, List.append_assoc]
  exact .block first rest

end

/-- What is read as a comment makes a gap longer, unless it takes all that is left. -/
theorem gap_of_readPiece {offset : Nat} {first : Char} {rest : List Char} {text : String}
    (content : (readPiece offset first rest).content = .comment text)
    (more : rest.drop (readPiece offset first rest).extra ≠ []) {gap after : List Char}
    {comments : List String}
    (split : rest.drop (readPiece offset first rest).extra = gap ++ after)
    (holds : Gap after gap comments) :
    Gap after (first :: (rest.take (readPiece offset first rest).extra ++ gap))
      (text :: comments) := by
  revert content more split
  unfold readPiece
  split
  · simp
  split
  · simp
  split
  · simp
  split
  · simp
  split
  · next line =>
      intro content more split
      simp only [Bool.and_eq_true, beq_iff_eq] at line
      rcases line with ⟨rfl, slash⟩
      rcases List.head?_eq_some_iff.mp slash with ⟨tail, rfl⟩
      cases content
      have extra : (readLineComment tail).reading.extra = (lineCommentContent tail).length + 1 := by
        simp only [CommentReading.reading, readLineComment]
        omega
      rw [List.tail_cons, extra] at split ⊢
      rw [List.drop_succ_cons] at split
      have front : tail.take (lineCommentContent tail).length = lineCommentContent tail :=
        (List.prefix_iff_eq_take.mp (List.takeWhile_prefix _)).symm
      rw [List.take_succ_cons, front]
      exact gap_of_lineComment split holds
  split
  · next block =>
      intro content more split
      simp only [Bool.and_eq_true, beq_iff_eq] at block
      rcases block with ⟨rfl, star⟩
      rcases List.head?_eq_some_iff.mp star with ⟨tail, rfl⟩
      cases content
      rw [List.tail_cons] at more split ⊢
      cases ends : findPair? '*' '/' tail with
      | none =>
          refine absurd (List.drop_eq_nil_of_le ?_) more
          simp [CommentReading.reading, readBlockComment, ends]
      | some count =>
          have extra : (readBlockComment offset tail).reading.extra = count + 2 + 1 := by
            rcases exists_of_findPair? ends with ⟨front, back, rfl, rfl, -⟩
            simp [CommentReading.reading, readBlockComment, ends]
            omega
          rw [extra] at split ⊢
          rw [List.drop_succ_cons] at split
          rw [List.take_succ_cons]
          exact gap_of_blockComment ends split holds
  split <;> simp

end Lexer

/-! ## Gaps before lexemes -/

/-- Before each of some lexemes there is a gap with its comments. The first of them also has
those that wait for it. -/
inductive Gapped (source : String) : Nat → List String → List Lexeme → Prop
  | none {start : Nat} {waiting : List String} : Gapped source start waiting []
  | more {start : Nat} {waiting comments : List String} {lexeme : Lexeme} {rest : List Lexeme}
      (own : lexeme.comments = waiting ++ comments)
      (gap : GapAt source ⟨start, lexeme.span.start⟩ comments)
      (later : Gapped source lexeme.span.stop [] rest) :
      Gapped source start waiting (lexeme :: rest)

/-- A gap is longer by what comes before it. -/
theorem GapAt.extend {source : String} {before piece characters : List Char} {stop : Nat}
    {comments more : List String} (split : source.toList = before ++ (piece ++ characters))
    (gap : GapAt source ⟨Utf8.size (before ++ piece), stop⟩ comments)
    (longer : ∀ text after, characters = text ++ after → Gap after text comments →
      Gap after (piece ++ text) more) : GapAt source ⟨Utf8.size before, stop⟩ more := by
  rcases gap with ⟨text, after, ⟨front, otherSplit, span⟩, gap⟩
  rcases Span.mk.inj span with ⟨start, rfl⟩
  rcases eq_of_size_eq (by rw [← otherSplit, split, List.append_assoc]) start with ⟨rfl, rfl⟩
  refine ⟨piece ++ text, after, ⟨before, by simp [split], ?_⟩, longer text after rfl gap⟩
  rw [Utf8.size_append, Utf8.size_append, Nat.add_assoc]

/-- What comes before the first gap can be white space, or a comment that waits. -/
theorem Gapped.extend {source : String} {before piece characters : List Char}
    {start : Nat} {waiting new all : List String} {lexemes : List Lexeme}
    (split : source.toList = before ++ (piece ++ characters))
    (place : Utf8.size (before ++ piece) = start) (wait : all = waiting ++ new)
    (gapped : Gapped source start all lexemes)
    (longer : lexemes ≠ [] → ∀ text after comments, characters = text ++ after →
      Gap after text comments → Gap after (piece ++ text) (new ++ comments)) :
    Gapped source (Utf8.size before) waiting lexemes := by
  subst place wait
  cases gapped with
  | none => exact .none
  | more own gap later =>
      refine .more (own.trans (List.append_assoc ..)) (gap.extend split ?_) later
      exact fun text after => longer (List.cons_ne_nil _ _) text after _

theorem gapped_group {source : String} {before characters : List Char} {offset : Nat}
    (split : source.toList = before ++ characters) (place : Utf8.size before = offset)
    (waiting : List String) (errors : List SyntaxError) :
    Gapped source offset waiting
      (Lexer.group waiting errors (Lexer.pieces offset characters)).lexemes := by
  fun_induction Lexer.pieces offset characters generalizing before waiting errors with
  | case1 offset => exact .none
  | case2 offset first rest reading stop =>
      next induction =>
      subst place
      have parts : source.toList =
          before ++ ((first :: rest.take reading.extra) ++ rest.drop reading.extra) := by
        rw [split, List.cons_append, List.take_append_drop]
      have place := Utf8.size_append before (first :: rest.take reading.extra)
      have later := @induction _ (by rw [parts, List.append_assoc]) place
      unfold Lexer.group
      dsimp only
      split
      · next blank =>
          rcases Lexer.isSpace_of_readPiece blank with ⟨isSpace, extra⟩
          refine (later _ _).extend parts place (List.append_nil waiting).symm
            fun _ text after comments _ gap => ?_
          rw [show reading.extra = 0 from extra]
          exact .space isSpace gap
      · next text comment =>
          refine (later _ _).extend parts place rfl fun filled gap after comments split holds => ?_
          refine Lexer.gap_of_readPiece comment (fun ends => filled ?_) split holds
          rw [show rest.drop reading.extra = [] from ends, Lexer.pieces]
          rfl
      · next token =>
          refine .more (List.append_nil waiting).symm ⟨[], _, ⟨before, split, rfl⟩, .none⟩ ?_
          exact later [] []

/-- Before each lexeme of a source there is a gap with the comments of the lexeme. -/
theorem gapped_lexemes (source : String) : Gapped source 0 [] (lex source).lexemes := by
  have split : source.toList = [] ++ source.toList := rfl
  exact gapped_group split rfl [] []

end ProtoSchema.Syntax
