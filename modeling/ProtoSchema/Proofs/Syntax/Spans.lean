import ProtoSchema.Proofs.Syntax.Written
/-! # Spans of a source

The lexemes of a source stand in it one after another, each at a text that is not empty. Some of
them that follow each other stand at the text from the first to the last.
-/

namespace ProtoSchema.Syntax

/-! ## Texts at spans -/

/-- A text stands at a span of a source. -/
def StandsAt (source : String) (span : Span) (text : List Char) : Prop :=
  ∃ after, TextAt source span text after

/-- The earlier of two places in a text is the end of a part of what is before the later one. -/
theorem exists_append_of_size_le {before other after rest : List Char}
    (same : before ++ after = other ++ rest) (size : Utf8.size before ≤ Utf8.size other) :
    ∃ between, other = before ++ between ∧ after = between ++ rest := by
  rcases List.append_eq_append_iff.mp same with ⟨between, other, after⟩ | ⟨between, longer, rest⟩
  · exact ⟨between, other, after⟩
  · cases between with
    | nil => exact ⟨[], by simp [longer], by simpa using rest.symm⟩
    | cons first between =>
        have positive := first.utf8Size_pos
        rw [longer, Utf8.size_append, Utf8.size_cons] at size
        omega

namespace TextAt

variable {source : String} {span : Span} {text after : List Char}

theorem lt_of_ne_nil (stands : TextAt source span text after) (filled : text ≠ []) :
    span.start < span.stop := by
  rcases stands with ⟨before, -, rfl⟩
  rcases List.exists_cons_of_ne_nil filled with ⟨first, rest, rfl⟩
  have positive := first.utf8Size_pos
  simp only [Utf8.size_cons]
  omega

theorem ne_nil_of_lt (stands : TextAt source span text after) (filled : span.start < span.stop) :
    text ≠ [] := by
  rintro rfl
  rcases stands with ⟨before, -, rfl⟩
  exact absurd filled (Nat.lt_irrefl _)

/-- At a span there is one text. -/
theorem unique {other rest : List Char} (stands : TextAt source span text after)
    (otherStands : TextAt source span other rest) : text = other ∧ after = rest := by
  rcases stands with ⟨before, split, rfl⟩
  rcases otherStands with ⟨otherBefore, otherSplit, place⟩
  rcases Span.mk.inj place with ⟨start, stop⟩
  rcases eq_of_size_eq (split.symm.trans otherSplit) start with ⟨rfl, same⟩
  exact eq_of_size_eq same (Nat.add_left_cancel stop)

/-- Two texts enclose one from the beginning of the first to the end of the last. -/
theorem through {first last : Span} {front rest back : List Char}
    (starts : TextAt source first front rest) (stops : TextAt source last back after)
    (order : first.start ≤ last.stop) : ∃ text, TextAt source (first.through last) text after := by
  rcases starts with ⟨before, split, rfl⟩
  rcases stops with ⟨other, otherSplit, rfl⟩
  have same : before ++ (front ++ rest) = (other ++ back) ++ after := by
    rw [← split, otherSplit, List.append_assoc]
  rcases exists_append_of_size_le same (by simpa using order) with ⟨between, longer, -⟩
  refine ⟨between, before, ?_, ?_⟩
  · rw [otherSplit, ← List.append_assoc, longer, List.append_assoc]
  · have stop : Utf8.size other + Utf8.size back = Utf8.size before + Utf8.size between := by
      rw [← Utf8.size_append, ← Utf8.size_append, longer]
    rw [Span.through, stop]

/-- A text begins with one that starts at the same place. -/
theorem exists_append_of_start_eq {inner : Span} {front rest : List Char}
    (stands : TextAt source span text after) (starts : TextAt source inner front rest)
    (start : inner.start = span.start) (stop : inner.stop ≤ span.stop) :
    ∃ back, text = front ++ back ∧ rest = back ++ after := by
  rcases stands with ⟨before, split, rfl⟩
  rcases starts with ⟨other, otherSplit, rfl⟩
  rcases eq_of_size_eq (otherSplit.symm.trans split) start with ⟨rfl, same⟩
  exact exists_append_of_size_le same (Nat.le_of_add_le_add_left stop)

/-- A text ends with one that stops at the same place. -/
theorem exists_append_of_stop_eq {inner : Span} {back rest : List Char}
    (stands : TextAt source span text after) (stops : TextAt source inner back rest)
    (start : span.start ≤ inner.start) (stop : inner.stop = span.stop) :
    ∃ front, text = front ++ back := by
  rcases stands with ⟨before, split, rfl⟩
  rcases stops with ⟨other, otherSplit, rfl⟩
  have same : before ++ text ++ after = other ++ back ++ rest := by
    rw [List.append_assoc, List.append_assoc, ← split, otherSplit]
  rcases eq_of_size_eq same (by simpa using stop.symm) with ⟨texts, -⟩
  rcases exists_append_of_size_le texts start with ⟨between, -, longer⟩
  exact ⟨between, longer⟩

end TextAt

/-! ## Spans in order -/

/-- Spans that are not empty follow each other between two places. -/
inductive InOrder : Nat → List Span → Nat → Prop
  | none {start stop : Nat} (order : start ≤ stop) : InOrder start [] stop
  | more {start stop : Nat} {span : Span} {spans : List Span} (order : start ≤ span.start)
      (filled : span.start < span.stop) (rest : InOrder span.stop spans stop) :
      InOrder start (span :: spans) stop

namespace InOrder

variable {start stop : Nat} {spans front back : List Span}

theorem le (ordered : InOrder start spans stop) : start ≤ stop := by
  induction ordered with
  | none order => exact order
  | more order filled _ induction => omega

theorem of_le {earlier : Nat} (ordered : InOrder start spans stop) (order : earlier ≤ start) :
    InOrder earlier spans stop := by
  cases ordered with
  | none later => exact .none (order.trans later)
  | more later filled rest => exact .more (order.trans later) filled rest

theorem append_iff :
    InOrder start (front ++ back) stop ↔
      ∃ middle, InOrder start front middle ∧ InOrder middle back stop := by
  induction front generalizing start with
  | nil =>
      constructor
      · exact fun ordered => ⟨start, .none le_rfl, ordered⟩
      · rintro ⟨middle, ⟨order⟩, ordered⟩
        exact ordered.of_le order
  | cons span front induction =>
      constructor
      · rintro (_ | ⟨order, filled, rest⟩)
        rcases induction.mp rest with ⟨middle, early, late⟩
        exact ⟨middle, .more order filled early, late⟩
      · rintro ⟨middle, (_ | ⟨order, filled, early⟩), late⟩
        exact .more order filled (induction.mpr ⟨middle, early, late⟩)

theorem inside (ordered : InOrder start spans stop) :
    ∀ span ∈ spans, start ≤ span.start ∧ span.stop ≤ stop := by
  induction ordered with
  | none => exact nofun
  | @more start stop first spans order filled rest induction =>
      rw [List.forall_mem_cons]
      refine ⟨⟨order, rest.le⟩, fun span member => ?_⟩
      rcases induction span member with ⟨later, bound⟩
      exact ⟨by omega, bound⟩

theorem ascending (ordered : InOrder start spans stop) :
    spans.Pairwise fun earlier later => earlier.stop ≤ later.start := by
  induction ordered with
  | none => exact .nil
  | more order filled rest induction =>
      exact .cons (fun span member => (rest.inside span member).1) induction

end InOrder

/-! ## Lexemes of a source -/

namespace Lexer

theorem size_take_add_size_drop (count : Nat) (characters : List Char) :
    Utf8.size (characters.take count) + Utf8.size (characters.drop count) =
      Utf8.size characters := by
  rw [← Utf8.size_append, List.take_append_drop]

theorem inOrder_group (offset : Nat) (characters : List Char) (comments : List String)
    (errors : List SyntaxError) :
    InOrder offset ((group comments errors (pieces offset characters)).lexemes.map Lexeme.span)
      (offset + Utf8.size characters) := by
  fun_induction pieces offset characters generalizing comments errors with
  | case1 offset => exact .none (Nat.le_add_right _ _)
  | case2 offset first rest reading stop induction =>
      have positive := first.utf8Size_pos
      have total : stop + Utf8.size (rest.drop reading.extra) =
          offset + Utf8.size (first :: rest) := by
        have parts := size_take_add_size_drop reading.extra rest
        simp only [stop, Utf8.size_cons]
        omega
      have filled : offset < stop := by
        simp only [stop, Utf8.size_cons]
        omega
      rw [total] at induction
      unfold group
      dsimp only
      split
      · exact (induction comments _).of_le filled.le
      · exact (induction _ _).of_le filled.le
      · exact .more le_rfl filled (induction [] [])

end Lexer

section

variable {source : String} {lexeme : Lexeme}

/-- Every lexeme stands at a text that is not empty. -/
theorem exists_textAt_of_mem_lexemes (member : lexeme ∈ (lex source).lexemes) :
    ∃ text after, TextAt source lexeme.span text after ∧ text ≠ [] := by
  rcases Lexer.exists_readAt_of_mem_lexemes member with
    ⟨before, first, rest, piece, read, content, place⟩
  rw [read.span, Nat.zero_add] at place
  refine ⟨_, rest.drop (Lexer.readPiece (Utf8.size before) first rest).extra,
    ⟨before, ?_, place.symm⟩, List.cons_ne_nil _ _⟩
  rw [List.cons_append, List.take_append_drop]
  exact read.split

/-- A word ends where no character of it could follow. -/
def EndsWord (after : List Char) : Prop :=
  ∀ character ∈ after.head?, ¬(character.isAlphanum ∨ character = '_')

/-- A word of a source stands at its own text. -/
theorem textAt_of_ident (member : lexeme ∈ (lex source).lexemes) {name : String}
    (token : lexeme.token = .ident name) :
    ∃ after, TextAt source lexeme.span name.toList after ∧ EndsWord after := by
  rcases Lexer.exists_readAt_of_mem_lexemes member with
    ⟨before, first, rest, piece, read, content, place⟩
  rw [read.span, Nat.zero_add] at place
  rw [read.content, token, Nat.zero_add] at content
  rcases Lexer.eq_run_of_readPiece content with ⟨-, text, extra⟩
  have front : rest.take (rest.takeWhile Lexer.isIdentRest).length =
      rest.takeWhile Lexer.isIdentRest :=
    (List.prefix_iff_eq_take.mp (List.takeWhile_prefix _)).symm
  rw [extra, front, ← text] at place
  refine ⟨rest.dropWhile Lexer.isIdentRest, ⟨before, ?_, place.symm⟩, ?_⟩
  · rw [text, List.cons_append, List.takeWhile_append_dropWhile]
    exact read.split
  · intro character isNext
    have stops := List.head?_dropWhile_not Lexer.isIdentRest rest
    rw [Option.mem_def.mp isNext] at stops
    rw [← isIdentRest_iff, Bool.not_eq_true]
    exact stops

end

/-! ## Sentences of a source -/

/-- Some lexemes of a source follow each other between two places. -/
structure Run (source : String) (start : Nat) (sentence : List Lexeme) (stop : Nat) : Prop where
  ordered : InOrder start (sentence.map Lexeme.span) stop
  inside : ∀ lexeme ∈ sentence, lexeme ∈ (lex source).lexemes

theorem run_lexemes (source : String) :
    Run source 0 (lex source).lexemes (Utf8.size source.toList) where
  ordered := by simpa [lex] using Lexer.inOrder_group 0 source.toList [] []
  inside _ member := member

namespace Run

variable {source : String} {start stop : Nat} {sentence front back : List Lexeme}

theorem append_iff :
    Run source start (front ++ back) stop ↔
      ∃ middle, Run source start front middle ∧ Run source middle back stop := by
  constructor
  · rintro ⟨ordered, inside⟩
    rw [List.map_append, InOrder.append_iff] at ordered
    rw [List.forall_mem_append] at inside
    rcases ordered with ⟨middle, early, late⟩
    exact ⟨middle, ⟨early, inside.1⟩, ⟨late, inside.2⟩⟩
  · rintro ⟨middle, early, late⟩
    refine ⟨?_, List.forall_mem_append.mpr ⟨early.inside, late.inside⟩⟩
    rw [List.map_append, InOrder.append_iff]
    exact ⟨middle, early.ordered, late.ordered⟩

theorem le (run : Run source start sentence stop) : start ≤ stop :=
  run.ordered.le

theorem le_stopAfter (run : Run source start sentence stop) :
    Run source start sentence (stopAfter start sentence) ∧ stopAfter start sentence ≤ stop := by
  induction sentence generalizing start with
  | nil => exact ⟨⟨.none le_rfl, run.inside⟩, run.le⟩
  | cons first rest induction =>
      rcases run with ⟨⟨⟩ | ⟨order, filled, ordered⟩, inside⟩
      rw [List.forall_mem_cons] at inside
      rcases induction ⟨ordered, inside.2⟩ with ⟨early, bound⟩
      exact ⟨⟨.more order filled early.ordered, List.forall_mem_cons.mpr inside⟩, bound⟩

/-- The span of a sentence encloses its lexemes and nothing else. -/
theorem spanOf (run : Run source start sentence stop) (written : sentence ≠ []) :
    Run source (spanOf sentence).start sentence (spanOf sentence).stop ∧
      start ≤ (spanOf sentence).start ∧ (Syntax.spanOf sentence).stop ≤ stop := by
  cases sentence with
  | nil => exact absurd rfl written
  | cons first rest =>
      rcases run.le_stopAfter with ⟨⟨⟨⟩ | ⟨order, filled, ordered⟩, inside⟩, bound⟩
      exact ⟨⟨.more le_rfl filled ordered, inside⟩, order, bound⟩

end Run

theorem spanOf_eq_through {sentence : List Lexeme} {first last : Lexeme}
    (starts : sentence.head? = some first) (stops : sentence.getLast? = some last) :
    spanOf sentence = first.span.through last.span := by
  rcases List.head?_eq_some_iff.mp starts with ⟨rest, rfl⟩
  rcases List.getLast?_eq_some_iff.mp stops with ⟨front, split⟩
  have stop : (spanOf (first :: rest)).stop = last.span.stop := by simp [spanOf, split]
  rw [Span.through, ← stop]
  rfl

namespace Run

variable {source : String} {start stop : Nat} {sentence : List Lexeme}

/-- A sentence stands at a text that is not empty, from its first lexeme to its last. -/
theorem exists_textAt (run : Run source start sentence stop) {first last : Lexeme}
    (starts : sentence.head? = some first) (stops : sentence.getLast? = some last) :
    ∃ text after, TextAt source (Syntax.spanOf sentence) text after ∧ text ≠ [] := by
  have isFirst := List.mem_of_head? starts
  have isLast := List.mem_of_getLast? stops
  rcases run.spanOf (List.ne_nil_of_mem isFirst) with ⟨tight, -, -⟩
  rcases exists_textAt_of_mem_lexemes (run.inside first isFirst) with
    ⟨front, rest, firstText, filled⟩
  rcases exists_textAt_of_mem_lexemes (run.inside last isLast) with ⟨back, after, lastText, -⟩
  have later := (tight.ordered.inside first.span (List.mem_map_of_mem isFirst)).2
  rw [spanOf_eq_through starts stops] at later ⊢
  have order : first.span.start < last.span.stop :=
    Nat.lt_of_lt_of_le (firstText.lt_of_ne_nil filled) later
  rcases firstText.through lastText order.le with ⟨text, stands⟩
  exact ⟨text, after, stands, stands.ne_nil_of_lt order⟩

/-- The text of a sentence begins with a word that the sentence begins with. -/
theorem exists_append_of_begins (run : Run source start sentence stop) {word : String}
    (begins : Grammar.Begins [word] sentence) {text after : List Char}
    (stands : TextAt source (Syntax.spanOf sentence) text after) :
    ∃ rest, text = word.toList ++ rest ∧ EndsWord rest := by
  rcases begins with ⟨first, rest, rfl, _, member, token⟩
  cases List.mem_singleton.mp member
  rcases run.spanOf (List.cons_ne_nil first rest) with ⟨tight, -, -⟩
  rcases textAt_of_ident (run.inside first List.mem_cons_self) token with ⟨following, word, ends⟩
  have bound := (tight.ordered.inside first.span List.mem_cons_self).2
  rcases stands.exists_append_of_start_eq word rfl bound with ⟨back, rfl, rfl⟩
  refine ⟨back, rfl, fun character isNext => ends character ?_⟩
  rw [List.head?_append, Option.mem_def.mp isNext]
  rfl

/-- The text of a sentence ends with a mark that the sentence ends with. -/
theorem getLast?_of_mark (run : Run source start sentence stop) {last : Lexeme}
    (stops : sentence.getLast? = some last) {symbol : Punctuation}
    (token : last.token = .mark symbol) {text after : List Char}
    (stands : TextAt source (Syntax.spanOf sentence) text after) :
    text.getLast? = some symbol.char := by
  have isLast := List.mem_of_getLast? stops
  rcases run.spanOf (List.ne_nil_of_mem isLast) with ⟨tight, -, -⟩
  rcases textAt_of_mark (run.inside last isLast) token with ⟨following, mark⟩
  have bound := (tight.ordered.inside last.span (List.mem_map_of_mem isLast)).1
  have stop : last.span.stop = (Syntax.spanOf sentence).stop := by
    rcases List.exists_cons_of_ne_nil (List.ne_nil_of_mem isLast) with ⟨first, rest, rfl⟩
    rw [spanOf_eq_through rfl stops]
    rfl
  rcases stands.exists_append_of_stop_eq mark bound stop with ⟨front, rfl⟩
  exact List.getLast?_concat

end Run

end ProtoSchema.Syntax
