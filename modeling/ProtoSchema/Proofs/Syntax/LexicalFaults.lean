import ProtoSchema.Proofs.Syntax.Tiling
/-! # Where lexical faults lie

All spans that the lexer computes for its faults lie between two characters of the source, and
none of them is empty.
-/

namespace ProtoSchema.Syntax

/-! ## Faults with places -/

/-- All labels of a fault are at places of a source, and it is not the whole source that is at
fault. -/
structure SyntaxError.Points (source : String) (error : SyntaxError) : Prop where
  labels : ∀ label ∈ error.labels, Placed source label.span
  inside : error ≠ .fileTooLarge

/-- All faults of a list point into a source. -/
def Pointed (source : String) (errors : List SyntaxError) : Prop :=
  ∀ error ∈ errors, error.Points source

section

variable {source : String}

/-- A fault with one label. -/
theorem SyntaxError.Points.of_span {error : SyntaxError} {span : Span}
    (labels : error.labels = [⟨span, error.remark⟩]) (placed : Placed source span) :
    error.Points source where
  labels := by
    rw [labels]
    exact List.forall_mem_singleton.mpr placed
  inside := by
    rintro rfl
    cases labels

/-- Beyond the end of the source there is nothing to point at. -/
theorem SyntaxError.points_unexpectedEnd (expected : Expected) :
    (SyntaxError.unexpectedEnd expected).Points source :=
  ⟨List.forall_mem_nil _, SyntaxError.noConfusion⟩

/-- Of two package statements both are labelled. -/
theorem SyntaxError.points_duplicatePackage {first second : Span} (earlier : Placed source first)
    (later : Placed source second) : (SyntaxError.duplicatePackage first second).Points source :=
  ⟨List.forall_mem_cons.mpr ⟨earlier, List.forall_mem_singleton.mpr later⟩,
    SyntaxError.noConfusion⟩

namespace Pointed

theorem nil : Pointed source [] :=
  List.forall_mem_nil _

theorem append_iff {front back : List SyntaxError} :
    Pointed source (front ++ back) ↔ Pointed source front ∧ Pointed source back :=
  List.forall_mem_append

theorem append {front back : List SyntaxError} (first : Pointed source front)
    (second : Pointed source back) : Pointed source (front ++ back) :=
  append_iff.mpr ⟨first, second⟩

theorem singleton {error : SyntaxError} (points : error.Points source) :
    Pointed source [error] :=
  List.forall_mem_singleton.mpr points

/-- One fault with one label. -/
theorem of_span {error : SyntaxError} {span : Span}
    (labels : error.labels = [⟨span, error.remark⟩]) (placed : Placed source span) :
    Pointed source [error] :=
  singleton (.of_span labels placed)

end Pointed

/-! ## What is left of a source -/

/-- What a source holds from an offset on. -/
def Remains (source : String) (offset : Nat) (characters : List Char) : Prop :=
  ∃ before, source.toList = before ++ characters ∧ offset = Utf8.size before

namespace Remains

variable {offset : Nat}

theorem whole (source : String) : Remains source 0 source.toList :=
  ⟨[], rfl, rfl⟩

theorem isBoundary {characters : List Char} (remains : Remains source offset characters) :
    IsBoundary source offset := by
  rcases remains with ⟨before, split, rfl⟩
  exact ⟨before, characters, split, rfl⟩

theorem behind {front back : List Char} (remains : Remains source offset (front ++ back)) :
    Remains source (offset + Utf8.size front) back := by
  rcases remains with ⟨before, split, rfl⟩
  exact ⟨before ++ front, by rw [split, List.append_assoc], (Utf8.size_append _ _).symm⟩

theorem behind_ascii {front back : List Char} (remains : Remains source offset (front ++ back))
    (ascii : ∀ character ∈ front, character.toNat < 128) :
    Remains source (offset + front.length) back := by
  rw [← Lexer.size_eq_length ascii]
  exact remains.behind

theorem cons {first : Char} {rest : List Char} (remains : Remains source offset (first :: rest)) :
    Remains source (offset + first.utf8Size) rest :=
  @behind source offset [first] rest remains

/-- The text up to a later place. -/
theorem placed_to {stop : Nat} {text back : List Char}
    (remains : Remains source offset (text ++ back)) (filled : text ≠ [])
    (length : stop = offset + Utf8.size text) : Placed source ⟨offset, stop⟩ := by
  subst length
  rcases remains with ⟨before, split, rfl⟩
  exact TextAt.placed ⟨before, split, rfl⟩ filled

theorem placed_first {first : Char} {rest : List Char}
    (remains : Remains source offset (first :: rest)) :
    Placed source ⟨offset, offset + first.utf8Size⟩ :=
  @placed_to source offset _ [first] rest remains (List.cons_ne_nil _ _) rfl

theorem placed_ascii {text back : List Char} {stop : Nat}
    (remains : Remains source offset (text ++ back)) (filled : text ≠ [])
    (ascii : ∀ character ∈ text, character.toNat < 128) (length : stop = offset + text.length) :
    Placed source ⟨offset, stop⟩ :=
  remains.placed_to filled (by rw [length, Lexer.size_eq_length ascii])

end Remains

/-! ## Numbers -/

namespace Lexer

theorem toNat_lt_of_isIdentRest (character : Char) (inside : isIdentRest character = true) :
    character.toNat < 128 := by
  simp only [isIdentRest, isIdentStart, isDigit, Bool.or_eq_true, Bool.and_eq_true,
    decide_eq_true_eq, le_iff_toNat, beq_iff_eq] at inside
  rcases inside with ((⟨-, low⟩ | ⟨-, low⟩) | rfl) | ⟨-, low⟩
  · exact Nat.lt_of_le_of_lt low (by decide)
  · exact Nat.lt_of_le_of_lt low (by decide)
  · decide
  · exact Nat.lt_of_le_of_lt low (by decide)

/-- A spelling describes the ASCII text in front of another text. -/
structure Describes (spelling : IntSpelling) (lead rest characters : List Char) : Prop where
  split : characters = lead ++ (spelling.digits ++ rest)
  length : lead.length = spelling.lead
  leadAscii : ∀ character ∈ lead, character.toNat < 128
  digitsAscii : ∀ character ∈ spelling.digits, character.toNat < 128

theorem describes_of_hexSpelling? {characters : List Char} {spelling : IntSpelling}
    (read : hexSpelling? characters = some spelling) :
    ∃ lead rest, Describes spelling lead rest characters := by
  rcases hexSpelling?_eq_some_iff.mp read with ⟨mark, rest, rfl, marked, -, rfl⟩
  refine ⟨['0', mark], rest.dropWhile isHexDigit, ?_, rfl, ?_, ?_⟩
  · rw [List.takeWhile_append_dropWhile]
    rfl
  · rcases marked with rfl | rfl <;> simp
  · exact fun character member => toNat_lt_of_isHexDigit character (List.mem_takeWhile_imp member)

theorem describes_runSpelling {run : List Char} (ascii : ∀ character ∈ run, character.toNat < 128)
    (rest : List Char) : ∃ lead, Describes (runSpelling run) lead rest (run ++ rest) := by
  rw [runSpelling.eq_def]
  split
  · exact ⟨['0'], rfl, rfl, by simp, (List.forall_mem_cons.mp ascii).2⟩
  · exact ⟨[], rfl, rfl, List.forall_mem_nil _, ascii⟩

variable {source : String} {offset : Nat}

theorem Describes.length_eq {spelling : IntSpelling} {lead rest characters : List Char}
    (describes : Describes spelling lead rest characters) :
    (lead ++ spelling.digits).length = spelling.length := by
  rw [List.length_append, describes.length, IntSpelling.length]

theorem Describes.drop_eq {spelling : IntSpelling} {lead rest characters : List Char}
    (describes : Describes spelling lead rest characters) :
    characters.drop spelling.length = rest := by
  rw [describes.split, ← List.append_assoc, ← describes.length_eq, List.drop_left]

/-- A number is marked with the letters and digits that it touches. -/
theorem Describes.placed_touching {spelling : IntSpelling} {lead rest characters : List Char}
    (describes : Describes spelling lead rest characters)
    (remains : Remains source offset characters) (touches : rest.head?.any isIdentStart = true) :
    Placed source
      ⟨offset, offset + spelling.length + (rest.takeWhile isIdentRest).length⟩ := by
  have tail := @List.takeWhile_append_dropWhile _ isIdentRest rest
  have tailAscii : ∀ character ∈ rest.takeWhile isIdentRest, character.toNat < 128 :=
    fun character member => toNat_lt_of_isIdentRest character (List.mem_takeWhile_imp member)
  have ascii : ∀ character ∈ lead ++ spelling.digits ++ rest.takeWhile isIdentRest,
      character.toNat < 128 :=
    List.forall_mem_append.mpr
      ⟨List.forall_mem_append.mpr ⟨describes.leadAscii, describes.digitsAscii⟩, tailAscii⟩
  rw [describes.split, ← tail, ← List.append_assoc, ← List.append_assoc] at remains
  refine remains.placed_ascii ?_ ascii ?_
  · cases rest with
    | nil => simp at touches
    | cons first rest =>
        rw [List.head?_cons, Option.any_some] at touches
        have runs : isIdentRest first = true := by rw [isIdentRest, touches, Bool.true_or]
        rw [List.takeWhile_cons_of_pos runs]
        exact fun empty => List.cons_ne_nil _ _ (List.append_eq_nil_iff.mp empty).2
  · rw [List.length_append, describes.length_eq, Nat.add_assoc]

/-- A number is marked at its digits. -/
theorem Describes.placed_digits {spelling : IntSpelling} {lead rest characters : List Char}
    (describes : Describes spelling lead rest characters)
    (remains : Remains source offset characters) (filled : spelling.digits ≠ []) :
    Placed source
      ⟨offset + spelling.length - spelling.digits.length, offset + spelling.length⟩ := by
  have start : offset + spelling.length - spelling.digits.length = offset + lead.length := by
    rw [← describes.length_eq, List.length_append, ← Nat.add_assoc, Nat.add_sub_cancel]
  have stop : offset + spelling.length = offset + lead.length + spelling.digits.length := by
    rw [← describes.length_eq, List.length_append, Nat.add_assoc]
  rw [start]
  rw [describes.split] at remains
  exact (remains.behind_ascii describes.leadAscii).placed_ascii filled describes.digitsAscii stop

theorem pointed_readInt {spelling : IntSpelling} {lead rest characters : List Char}
    (remains : Remains source offset characters)
    (describes : Describes spelling lead rest characters) :
    Pointed source (readInt offset spelling characters).errors := by
  rw [readInt, describes.drop_eq, intErrors]
  refine .append ?_ ?_
  · split
    · next touches => exact .of_span rfl (describes.placed_touching remains touches)
    · exact .nil
  · split
    · next outOfRange =>
        refine .of_span rfl (describes.placed_digits remains ?_)
        intro empty
        rw [IntSpelling.value?, empty] at outOfRange
        exact absurd outOfRange Bool.false_ne_true
    · exact .nil

theorem pointed_readNumber {characters : List Char} (remains : Remains source offset characters) :
    Pointed source (readNumber offset characters).errors := by
  rw [readNumber]
  split
  · next spelling hex =>
      rcases describes_of_hexSpelling? hex with ⟨lead, rest, describes⟩
      exact pointed_readInt remains describes
  · dsimp only
    split
    · exact .nil
    · have split := @List.takeWhile_append_dropWhile _ isDigit characters
      have ascii : ∀ character ∈ characters.takeWhile isDigit, character.toNat < 128 :=
        fun character member => toNat_lt_of_isIdentRest character
          (by rw [isIdentRest, List.mem_takeWhile_imp member, Bool.or_true])
      rcases describes_runSpelling ascii (characters.dropWhile isDigit) with ⟨lead, describes⟩
      rw [split] at describes
      exact pointed_readInt remains describes

/-! ## Strings and comments -/

theorem pointed_readContent (quote : Char) {characters : List Char}
    (remains : Remains source offset characters) :
    Pointed source (readContent quote offset characters).errors := by
  induction characters using content_induction quote generalizing offset with
  | none =>
      rw [readContent]
      exact .singleton (SyntaxError.points_unexpectedEnd _)
  | closes rest =>
      rw [readContent_quote]
      exact .nil
  | lineFeed rest noQuote =>
      rw [readContent_lineFeed noQuote]
      exact .of_span rfl remains.placed_first
  | escape rest escape noQuote read induction =>
      rw [readContent_escape noQuote read]
      rcases exists_of_escape read with ⟨front, back, rfl, length, ascii⟩
      rw [← length, List.drop_left] at induction ⊢
      exact Pointed.nil.append (induction (remains.cons.behind_ascii ascii))
  | backslash rest noQuote read induction =>
      rw [readContent_backslash noQuote read]
      exact .append (.of_span rfl remains.placed_first) (induction remains.cons)
  | nul rest run noQuote isRun induction =>
      rw [readContent_nul noQuote rest offset isRun]
      have size := (size_take_of_run isRun).2.1
      have split := List.take_append_drop run rest
      have total : Utf8.size ('\x00' :: rest.take run) = 1 + run := by
        rw [Utf8.size_cons, size]
        rfl
      rw [← split, ← List.cons_append] at remains
      refine .append (.of_span rfl ?_) (induction (total ▸ remains.behind))
      exact remains.placed_to (List.cons_ne_nil _ _) (by rw [total])
  | plain character rest plain induction =>
      rw [readContent_plain plain]
      exact Pointed.nil.append (induction remains.cons)

theorem pointed_readString {quote : Char} (isQuote : quote = '"' ∨ quote = '\'')
    {rest : List Char} (remains : Remains source offset (quote :: rest)) :
    Pointed source (readString offset quote rest).errors := by
  have single : quote.utf8Size = 1 := by rcases isQuote with rfl | rfl <;> rfl
  have inside : Pointed source (readContent quote (offset + 1) rest).errors :=
    pointed_readContent quote (single ▸ remains.cons)
  rw [readString]
  dsimp only
  split
  · exact inside
  · refine inside.append (.of_span rfl ?_)
    rw [← List.take_append_drop (readContent quote (offset + 1) rest).length rest,
      ← List.cons_append] at remains
    refine remains.placed_to (List.cons_ne_nil _ _) ?_
    rw [Utf8.size_cons, single, Nat.add_assoc]

theorem pointed_readBlockComment {rest : List Char}
    (remains : Remains source offset ('/' :: '*' :: rest)) :
    Pointed source (readBlockComment offset rest).errors := by
  rw [readBlockComment]
  refine .append ?_ ?_
  · split
    · exact .singleton (SyntaxError.points_unexpectedEnd _)
    · exact .nil
  · split
    · next before nested =>
        rcases exists_of_findPair? nested with ⟨front, back, content, rfl, -⟩
        refine .of_span rfl ?_
        rw [content, List.take_left]
        have split := List.take_append_drop ((findPair? '*' '/' rest).getD rest.length) rest
        rw [content, List.append_assoc] at split
        rw [← split] at remains
        exact @Remains.placed_to source _ _ ['/', '*'] _ remains.cons.cons.behind
          (List.cons_ne_nil _ _) rfl
    · exact .nil

/-! ## Sources -/

theorem pointed_readPiece {first : Char} {rest : List Char}
    (remains : Remains source offset (first :: rest)) :
    Pointed source (readPiece offset first rest).errors := by
  unfold readPiece
  split
  · exact .nil
  split
  · exact .nil
  split
  · exact pointed_readNumber remains
  split
  · next quote =>
      rw [Bool.or_eq_true, beq_iff_eq, beq_iff_eq] at quote
      exact pointed_readString quote remains
  split
  · exact .nil
  split
  · next opens =>
      rw [Bool.and_eq_true, beq_iff_eq, beq_iff_eq] at opens
      rcases opens with ⟨rfl, star⟩
      rcases List.head?_eq_some_iff.mp star with ⟨tail, rfl⟩
      exact pointed_readBlockComment remains
  split
  · exact .nil
  · exact .of_span rfl remains.placed_first

theorem pointed_pieces {characters : List Char} (remains : Remains source offset characters) :
    Pointed source ((pieces offset characters).flatMap Piece.errors) := by
  fun_induction pieces offset characters with
  | case1 => exact .nil
  | case2 offset first rest reading stop induction =>
      have split := List.take_append_drop reading.extra rest
      refine .append (pointed_readPiece remains) (induction ?_)
      rw [← split, ← List.cons_append] at remains
      exact remains.behind

theorem pointed_lex (source : String) : Pointed source (lex source).errors := by
  rw [errors_lex]
  exact pointed_pieces (.whole source)

end Lexer

end

end ProtoSchema.Syntax
