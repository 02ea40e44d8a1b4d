import ProtoSchema.Proofs.Syntax.Fields
/-! # Declarations

What the parsers of enums, services, messages and extend blocks read.
-/

namespace ProtoSchema.Syntax

namespace Parser

open Grammar (Production Many Begins Starts Names Numeric Element Body)

variable {upcoming : List Lexeme} {stop : Nat}

/-! ## Bodies -/

/-- If an entry declares something of some kind, then this has a property. -/
def Entry.Declares {α : Type} (kind : Entry → Option α) (Property : α → Prop)
    (entry : Entry) : Prop :=
  ∀ value, kind entry = some value → Property value

theorem forall_declares_iff {α : Type} (kind : Entry → Option α) (Property : α → Prop)
    (entries : List Entry) :
    (∀ entry ∈ entries, entry.Declares kind Property) ↔
      ∀ value ∈ entries.filterMap kind, Property value :=
  List.forall_mem_filterMap.symm

section

variable {expected : Expected} {entry : Token → Option (Parser Entry)}
  (production : Production Entry) (Valid : Entry → Prop)

theorem entries_ensures (blank : Valid .blank)
    (starts : ∀ ⦃sentence value⦄, production sentence value → Starts Names sentence)
    (each : ∀ lexeme lexemes token parser stop, (lexeme :: lexemes).length ≤ upcoming.length →
      lexeme.token = token → entry token = some parser →
      Ensures parser (lexeme :: lexemes) stop fun consumed faults value =>
        production consumed value ∧ Verdict faults (Valid value)) (stop : Nat) :
    Ensures (entries expected entry) upcoming stop fun consumed faults values =>
      ∃ inner close, consumed = inner ++ [close] ∧ Many (Element production) inner values ∧
        close.token = .mark .rightBrace ∧ Verdict faults (∀ value ∈ values, Valid value) := by
  rw [entries]
  refine (Ensures.collect (Element production)
    (fun finish => ∃ close, finish = [close] ∧ close.token = .mark .rightBrace)
    Valid (fun part stop shorter => ?_) stop).mono ?_
  · refine .look_cases (fun _ => .unexpected) fun lexeme lexemes token ahead same => ?_
    subst ahead
    split
    · next span found =>
        cases found
        refine .advance_bind (.pure (.more (by simp) (.blank same) (Verdict.none.congr ?_)))
        simp [blank]
    · next span found =>
        cases found
        exact .advance_bind (.pure (.done ⟨lexeme, rfl, same⟩))
    · next token span _ _ found =>
        cases found
        split
        · next parser chosen =>
            refine (each lexeme lexemes token parser stop shorter same chosen).bind ?_
            rintro consumed faults value rest - ⟨sentence, verdict⟩
            refine .pure ?_
            rw [List.append_nil, List.append_nil]
            exact .more (starts sentence).ne_nil (.entry sentence) verdict
        · exact .unexpected
    · exact .unexpected
  · rintro consumed faults values rest - ⟨inner, finish, rfl, many, ⟨close, rfl, closes⟩, verdict⟩
    exact ⟨inner, close, rfl, many, closes, verdict⟩

theorem body_ensures (blank : Valid .blank)
    (starts : ∀ ⦃sentence value⦄, production sentence value → Starts Names sentence)
    (each : ∀ lexeme lexemes token parser stop, (lexeme :: lexemes).length ≤ upcoming.length →
      lexeme.token = token → entry token = some parser →
      Ensures parser (lexeme :: lexemes) stop fun consumed faults value =>
        production consumed value ∧ Verdict faults (Valid value)) :
    Ensures (body expected entry) upcoming stop fun consumed faults values =>
      Body production consumed values ∧ Verdict faults (∀ value ∈ values, Valid value) := by
  rw [body]
  refine .mark_bind fun open_ rest split opens => ?_
  subst split
  refine (entries_ensures production Valid blank starts
    (fun lexeme lexemes token parser stop shorter => ?_) _).mono ?_
  · exact each lexeme lexemes token parser stop (Nat.le_succ_of_le shorter)
  · rintro consumed faults values rest - ⟨inner, close, rfl, many, closes, verdict⟩
    exact ⟨.intro opens many closes, verdict⟩

variable {production Valid} in
/-- What a parser reads is one of the entries of a production. -/
theorem Ensures.wrap {α : Type} {parser : Parser α} {inner : Production α} {Inner : α → Prop}
    (reads : Ensures parser upcoming stop fun consumed faults value =>
      inner consumed value ∧ Verdict faults (Inner value)) {wrap : α → Entry}
    (sentence : ∀ ⦃consumed value rest⦄, upcoming = consumed ++ rest → inner consumed value →
      production consumed (wrap value))
    (valid : ∀ value, Inner value ↔ Valid (wrap value)) :
    Ensures (do return wrap (← parser)) upcoming stop fun consumed faults value =>
      production consumed value ∧ Verdict faults (Valid value) := by
  refine reads.bind fun consumed faults value rest split read => .pure ?_
  rw [List.append_nil, List.append_nil]
  exact ⟨sentence split read.1, read.2.congr (valid value)⟩

end

/-- The table has a parser for the first token of a sentence, which accepts the sentence. -/
def Admits (entry : Token → Option (Parser Entry)) (sentence : List Lexeme) (value : Entry) :
    Prop :=
  ∃ lexeme rest parser, sentence = lexeme :: rest ∧ entry lexeme.token = some parser ∧
    ∀ following stop, Takes parser sentence following stop value

section

variable {expected : Expected} {entry : Token → Option (Parser Entry)}

theorem Admits.of_starts {α : Type} {parser : Parser α} (wrap : α → Entry) {token : Token}
    {sentence : List Lexeme} {value : α} (starts : Starts (· = token) sentence)
    (chosen : entry token = some (do return wrap (← parser)))
    (takes : ∀ following stop, Takes parser sentence following stop value) :
    Admits entry sentence (wrap value) := by
  rcases starts with ⟨lexeme, rest, rfl, rfl⟩
  exact ⟨lexeme, rest, _, rfl, chosen, fun following stop =>
    (takes following stop).bind_last (.pure rfl)⟩

/-- The first token is none of the words that begin something else. -/
theorem Admits.of_other {α : Type} {parser : Parser α} (wrap : α → Entry)
    {allowed : Token → Prop} {words : List String} {sentence : List Lexeme} {value : α}
    (starts : Starts allowed sentence) (other : ¬Begins words sentence)
    (chosen : ∀ token, allowed token → (∀ word ∈ words, token ≠ .ident word) →
      entry token = some (do return wrap (← parser)))
    (takes : ∀ following stop, Takes parser sentence following stop value) :
    Admits entry sentence (wrap value) := by
  rcases starts with ⟨lexeme, rest, rfl, holds⟩
  have chosen := chosen _ holds fun word member => Grammar.ne_of_not_begins other member
  exact ⟨lexeme, rest, _, rfl, chosen, fun following stop =>
    (takes following stop).bind_last (.pure rfl)⟩

variable {production : Production Entry} {inside rest : List Lexeme} {values : List Entry}

theorem body_takes
    (starts : ∀ ⦃sentence value⦄, production sentence value → Starts Names sentence)
    (each : ∀ ⦃sentence value⦄, production sentence value → sentence.length ≤ inside.length →
      Admits entry sentence value)
    (written : Body production inside values) (stop : Nat) :
    Takes (body expected entry) inside rest stop values := by
  rcases written with ⟨opens, many, closes⟩
  rw [body]
  refine .mark_bind opens ?_
  rw [entries]
  refine .collect (fun _ => True) ?_ (fun _ _ _ _ => trivial) ?_ trivial ?_ many _
  · rintro _ _ (blank | inner)
    · simp
    · exact (starts inner).ne_nil
  · rintro sentence _ (blank | inner) shorter following stop -
    · exact .look_cons blank (.advance_bind (.pure rfl))
    · have bounded := each inner (by simp only [List.length_cons, List.length_append]; omega)
      have first := starts inner
      rcases bounded with ⟨lexeme, more, parser, rfl, chosen, takes⟩
      rcases first with ⟨_, _, same, ⟨name, named⟩ | dot⟩ <;> cases same
      · rw [named] at chosen
        refine .look_cons named ?_
        simp only [chosen]
        exact (takes following stop).bind_last (.pure rfl)
      · rw [dot] at chosen
        refine .look_cons dot ?_
        simp only [chosen]
        exact (takes following stop).bind_last (.pure rfl)
  · exact fun stop => .look_cons closes (.advance_bind (.pure rfl))

end

/-! ## Reserved numbers and names -/

theorem reservedName_reads :
    Reads reservedName Grammar.QuotedName fun name => IsIdentifier name.name := by
  intro upcoming stop
  rw [reservedName]
  refine .bind_plain stringLiteral_reads fun consumed text rest _ inner => ?_
  rcases text with ⟨name, span⟩
  refine (Ensures.check rfl).bind ?_
  rintro _ faults _ after - ⟨rfl, verdict⟩
  refine .pure ⟨by simpa using .intro inner, ?_⟩
  rw [List.append_nil]
  refine verdict.congr ?_
  cases text : name.toList with
  | nil => simp [IsIdentifier, text]
  | cons first rest => simp [isIdentifier_iff text]

theorem reservedName_accepts : Accepts reservedName Grammar.QuotedName fun _ => True := by
  rintro _ _ ⟨inner⟩ rest stop -
  rw [reservedName]
  exact (stringLiteral_accepts inner _ _ trivial).bind_last (.check_bind (.pure rfl))

theorem reservedStatement_reads {number : Parser IntLiteral} {production : Production IntLiteral}
    {Bound : IntLiteral → Prop} (reads : Reads number production Bound) :
    Reads (reservedStatement number) (Grammar.ReservedStatement production)
      (Reserved.Valid Bound) := by
  intro upcoming stop
  have ranges (keyword : Lexeme) (word : keyword.token = .ident "reserved") (part : List Lexeme)
      (stop : Nat) :
      Ensures (do
        let ranges ← numberRanges number
        let _ ← mark .semicolon
        return Reserved.ranges ranges) part stop fun more faults reserved =>
          Grammar.ReservedStatement production (keyword :: more) reserved ∧
            Verdict faults (reserved.Valid Bound) := by
    refine .bind_reads (numberRanges_reads reads) ?_
    intro sentence faults ranges rest _ inner verdict
    refine .mark_bind fun close after _ closes => .pure ⟨.ranges word inner closes, ?_⟩
    rw [List.append_nil]
    exact verdict.congr ⟨.ranges, fun valid => (by cases valid; assumption)⟩
  rw [reservedStatement]
  refine .word_bind fun keyword rest _ word => ?_
  refine .look_cases (fun _ => .unexpected) fun lexeme lexemes token _ same => ?_
  split
  · exact ranges keyword word _ _
  · exact ranges keyword word _ _
  · refine .bind_reads reservedName_reads fun front faults first rest _ name verdict => ?_
    refine (Ensures.collect (Grammar.After (.mark .comma) Grammar.QuotedName)
      (fun finish => ∃ close, finish = [close] ∧ close.token = .mark .semicolon)
      (fun name => IsIdentifier name.name) (fun part stop _ => ?_) _).bind ?_
    · refine .look_cases (fun _ => .unexpected) fun lexeme lexemes token _ same => ?_
      split
      · next span found =>
          cases found
          refine .advance_bind (.bind_reads reservedName_reads ?_)
          intro consumed others value after _ next nextVerdict
          refine .pure ?_
          rw [List.append_nil, List.append_nil]
          exact .more (by simp) (.intro same next) nextVerdict
      · next span found =>
          cases found
          exact .advance_bind (.pure (.done ⟨lexeme, rfl, same⟩))
      · exact .unexpected
    · rintro consumed others more after -
        ⟨inner, finish, rfl, many, ⟨close, rfl, closes⟩, laterVerdict⟩
      refine .pure ⟨?_, ?_⟩
      · simpa using Grammar.ReservedStatement.names word (.intro name many) closes
      · rw [List.append_nil]
        refine (verdict.append laterVerdict).congr ⟨?_, ?_⟩
        · rintro ⟨here, later⟩
          exact .names (List.forall_mem_cons.mpr ⟨here, later⟩)
        · rintro (_ | valid)
          exact List.forall_mem_cons.mp valid
  · exact .unexpected

theorem reservedStatement_accepts {number : Parser IntLiteral} {production : Production IntLiteral}
    (accepts : Accepts number production fun _ => True)
    (starts : ∀ ⦃sentence literal⦄, production sentence literal → Starts Numeric sentence) :
    Accepts (reservedStatement number) (Grammar.ReservedStatement production) fun _ => True := by
  rintro _ _ (⟨word, inner, closes⟩ | ⟨word, ⟨name, others⟩, closes⟩) rest stop - <;>
    rw [reservedStatement] <;> refine .word_bind word ?_
  · have ranges (stop : Nat) : Takes (do
        let ranges ← numberRanges number
        let _ ← mark .semicolon
        return Reserved.ranges ranges) (_ ++ [_]) rest stop _ :=
      (numberRanges_accepts accepts starts inner _ _ (ends_ranges closes (by decide) rest)).bind
        (.mark_bind closes (.pure rfl))
    rcases inner.starts fun _ _ range => range.starts starts with
      ⟨lexeme, more, rfl, ⟨value, int⟩ | minus⟩
    · exact .look_cons int (ranges _)
    · exact .look_cons minus (ranges _)
  · have first := reservedName_accepts name
    rcases name with ⟨⟨token⟩⟩
    refine .look_cons token ((first _ _ trivial).bind ?_)
    refine .bind_last (.collect (fun _ => True) Grammar.After.written (fun _ _ _ _ => trivial) ?_
      trivial ?_ others _) (.pure rfl)
    · rintro _ _ ⟨comma, next⟩ - following stop -
      refine .look_cons comma (.advance_bind ?_)
      exact (reservedName_accepts next _ _ trivial).bind_last (.pure rfl)
    · exact fun stop => .look_cons closes (.advance_bind (.pure rfl))

theorem extensionsStatement_reads :
    Reads extensionsStatement Grammar.ExtensionsStatement ExtensionRanges.Valid := by
  intro upcoming stop
  rw [extensionsStatement]
  refine .word_bind fun keyword rest _ word => ?_
  refine .bind_reads (numberRanges_reads fieldNumber_reads) ?_
  intro front faults ranges after _ inner verdict
  have finish (back : List Lexeme) (options : List OptionEntry)
      (list : Grammar.Options back options) (part : List Lexeme) :
      Ensures (do
        let _ ← mark .semicolon
        return (⟨ranges, options, ← spanFrom keyword.span.start⟩ : ExtensionRanges)) part
        (stopAfter (stopAfter keyword.span.stop front) back) fun more others extensions =>
          Grammar.ExtensionsStatement (keyword :: (front ++ (back ++ more))) extensions ∧
            Verdict (faults ++ others) extensions.Valid := by
    refine .mark_bind fun close remaining _ closes => .spanFrom_bind (.pure ⟨?_, ?_⟩)
    · simpa [spanOf_cons] using Grammar.ExtensionsStatement.intro word inner list closes
    · rw [List.append_nil]
      exact verdict
  refine .look_cases (fun _ => ?_) fun lexeme lexemes token _ same => ?_
  · exact finish [] [] .none _
  · split
    · refine .bind_plain optionList_reads fun back options rest _ list => ?_
      exact finish back options (.list list) _
    · exact finish [] [] .none _

theorem extensionsStatement_accepts :
    Accepts extensionsStatement Grammar.ExtensionsStatement fun _ => True := by
  rintro _ _ ⟨word, inner, list, closes⟩ rest stop -
  have ranges := numberRanges_accepts fieldNumber_accepts (fun _ _ => Grammar.PositiveInt.starts)
    inner
  rw [extensionsStatement]
  refine .word_bind word ?_
  cases list with
  | none =>
      refine (ranges _ _ (ends_ranges closes (by decide) rest)).bind (.look_cons closes ?_)
      exact .pure_bind (.mark_bind closes (.spanFrom_bind (.pure (by simp [spanOf_cons]))))
  | list options =>
      have listed := optionList_accepts options
      rcases options with ⟨opens, entries, ends⟩
      refine (ranges _ _ (ends_ranges opens (by decide) _)).bind (.look_cons opens ?_)
      refine (listed _ _ trivial).bind ?_
      exact .mark_bind closes (.spanFrom_bind (.pure (by simp [spanOf_cons])))

/-! ## Enums -/

theorem enumValue_reads :
    Reads enumValue Grammar.EnumValue fun value => value.number.IsEnumNumber := by
  intro upcoming stop
  rw [enumValue]
  refine .comments_bind (.bind_plain ident_reads ?_)
  rintro named name _ rfl called
  cases called with
  | @intro first name token =>
  refine .mark_bind ?_
  rintro equals _ rfl sign
  refine .bind_reads enumNumber_reads ?_
  rintro numbered faults number rest rfl value verdict
  have finish (listed : List Lexeme) (options : List OptionEntry)
      (list : Grammar.Options listed options) (part : List Lexeme) (stop : Nat) :
      Ensures (do
        let _ ← mark .semicolon
        return ({ name := ⟨name, first.span⟩, number, options
                  comments := commentsOf (first :: equals :: (numbered ++ rest))
                  span := ← spanFrom first.span.start } : EnumValue)) part stop
        fun more others value =>
          Grammar.EnumValue (first :: equals :: (numbered ++ (listed ++ more))) value ∧
            Verdict (faults ++ others) value.number.IsEnumNumber := by
    refine .mark_bind fun close remaining _ closes => .spanFrom_bind (.pure ⟨?_, ?_⟩)
    · have span : spanOf (first :: equals :: (numbered ++ (listed ++ [close]))) =
          ⟨first.span.start, close.span.stop⟩ := by simp [spanOf_cons]
      rw [← span]
      exact .intro (.intro token) sign value list closes rfl
    · rw [List.append_nil]
      exact verdict
  refine .look_cases (fun _ => .unexpected_bind) fun lexeme lexemes token _ same => ?_
  split
  · exact finish [] [] .none _ _
  · refine .bind_plain optionList_reads fun listed options rest _ list => ?_
    exact finish listed options (.list list) _ _
  · exact .unexpected_bind

theorem enumValue_accepts : Accepts enumValue Grammar.EnumValue fun _ => True := by
  rintro _ _ ⟨⟨token⟩, sign, value, list, closes, rfl⟩ rest stop -
  rw [enumValue]
  refine .comments_bind ((ident_accepts (.intro token) _ _ trivial).bind (.mark_bind sign ?_))
  refine (enumNumber_accepts value _ _ trivial).bind ?_
  cases list with
  | none =>
      refine .look_cons closes (.pure_bind (.mark_bind closes (.spanFrom_bind (.pure ?_))))
      simp [spanOf_cons, commentsOf]
  | list options =>
      have listed := optionList_accepts options
      rcases options with ⟨opens, entries, ends⟩
      refine .look_cons opens ((listed _ _ trivial).bind ?_)
      refine .mark_bind closes (.spanFrom_bind (.pure ?_))
      simp [spanOf_cons, commentsOf]

theorem enumDeclaration_reads : Reads enumDeclaration Grammar.Enum Enum.Valid := by
  intro upcoming stop
  rw [enumDeclaration]
  refine .comments_bind (.word_bind fun keyword rest split word => ?_)
  subst split
  refine .bind_plain ident_reads fun named name after _ called => ?_
  refine (body_ensures Grammar.EnumEntry (fun entry =>
      entry.Declares Entry.value? (fun value => value.number.IsEnumNumber) ∧
        entry.Declares Entry.reserved? (Reserved.Valid IntLiteral.IsEnumNumber))
    ?_ (fun _ _ => Grammar.EnumEntry.starts) ?_).bind ?_
  · simp [Entry.Declares, Entry.value?, Entry.reserved?]
  · intro lexeme lexemes token parser stop _ same chosen
    split at chosen
    · cases chosen
      refine (optionStatement_reads _ _).wrap (fun _ _ _ _ => .option) ?_
      simp [Entry.Declares, Entry.value?, Entry.reserved?]
    · cases chosen
      refine (reservedStatement_reads enumNumber_reads _ _).wrap (fun _ _ _ _ => .reserved) ?_
      simp [Entry.Declares, Entry.value?, Entry.reserved?]
    · next name notOption notReserved =>
        cases chosen
        refine (enumValue_reads _ _).wrap (fun _ _ rest split inner => .value inner ?_) ?_
        · refine Begins.not_of_append (split ▸ Grammar.not_begins_cons ?_)
          simpa [same] using ⟨notOption, notReserved⟩
        · simp [Entry.Declares, Entry.value?, Entry.reserved?]
    · cases chosen
  · rintro inside faults entries rest - ⟨body, verdict⟩
    refine .spanFrom_bind (.pure ⟨?_, ?_⟩)
    · simp only [List.append_nil, ← stopAfter_append]
      exact .intro word called body rfl
    · rw [List.append_nil]
      refine verdict.congr ?_
      simp only [imp_and, forall_and, forall_declares_iff]
      exact ⟨fun both => ⟨both.1, both.2⟩, fun valid => ⟨valid.values, valid.reserved⟩⟩

theorem enumDeclaration_accepts : Accepts enumDeclaration Grammar.Enum fun _ => True := by
  rintro _ _ ⟨word, called, body, rfl⟩ rest stop -
  rw [enumDeclaration]
  refine .comments_bind (.word_bind word ((ident_accepts called _ _ trivial).bind ?_))
  refine (body_takes (fun _ _ => Grammar.EnumEntry.starts) ?_ body _).bind_last
    (.spanFrom_bind (.pure ?_))
  · rintro _ _ (inner | inner | ⟨inner, allowed⟩) -
    · exact .of_starts .option inner.starts rfl fun _ _ => optionStatement_accepts inner _ _ trivial
    · refine .of_starts .reserved inner.starts rfl fun _ _ => ?_
      exact reservedStatement_accepts enumNumber_accepts (fun _ _ => Grammar.SignedInt.starts)
        inner _ _ trivial
    · refine .of_other .value inner.starts allowed ?_ fun _ _ => enumValue_accepts inner _ _ trivial
      rintro _ ⟨name, rfl⟩ other
      split
      · next found => cases found; exact absurd rfl (other "option" (by simp))
      · next found => cases found; exact absurd rfl (other "reserved" (by simp))
      · rfl
      · next plain => exact absurd rfl (plain name)
  · simp [spanOf_cons, commentsOf]

/-! ## Services -/

theorem streamFlag_ensures :
    Ensures streamFlag upcoming stop fun consumed faults streaming => faults = [] ∧
      ((streaming = true ∧ ∃ keyword, consumed = [keyword] ∧ keyword.token = .ident "stream") ∨
        (streaming = false ∧ consumed = [] ∧ ¬Begins ["stream"] upcoming)) := by
  rw [streamFlag]
  refine .look_cases (fun _ => .unexpected) fun lexeme lexemes token ahead same => ?_
  subst ahead
  split
  · next span found =>
      cases found
      exact .advance_bind (.pure ⟨rfl, .inl ⟨rfl, lexeme, rfl, same⟩⟩)
  · next name span other found =>
      cases found
      refine .pure ⟨rfl, .inr ⟨rfl, rfl, Grammar.not_begins_cons ?_⟩⟩
      simpa [same] using other
  · next span found =>
      cases found
      exact .pure ⟨rfl, .inr ⟨rfl, rfl, Grammar.not_begins_cons (by simp [same])⟩⟩
  · exact .unexpected

theorem methodType_reads : Reads methodType Grammar.MethodType fun _ => True := by
  intro upcoming stop
  rw [methodType]
  refine .mark_bind fun open_ _ _ opens => streamFlag_ensures.bind ?_
  rintro flagged _ streaming _ rfl ⟨rfl, flag⟩
  refine .bind_plain (typeName_reads _) ?_
  rintro sentence type _ rfl inner
  refine .mark_bind fun close _ _ closes => .pure ⟨?_, .none⟩
  rcases flag with ⟨rfl, keyword, rfl, word⟩ | ⟨rfl, rfl, allowed⟩
  · exact .streamed opens word inner closes
  · exact .single opens inner (fun begins => allowed (begins.append _)) closes

theorem streamFlag_takes {keyword : Lexeme} (word : keyword.token = .ident "stream")
    (rest : List Lexeme) (stop : Nat) : Takes streamFlag [keyword] rest stop true :=
  .look_cons word (.advance_bind (.pure rfl))

theorem streamFlag_takes_nil {typed : List Lexeme} (starts : Starts Names typed)
    (unflagged : ¬Begins ["stream"] typed) (rest : List Lexeme) (stop : Nat) :
    Takes streamFlag [] (typed ++ rest) stop false := by
  rw [streamFlag]
  rcases starts with ⟨lexeme, more, rfl, ⟨name, named⟩ | dot⟩
  · refine .look_rest named ?_
    split
    · next found =>
        cases found
        exact absurd named (Grammar.ne_of_not_begins unflagged (by simp))
    · exact .pure rfl
    · next found => cases found
    · next plain _ => exact absurd rfl (plain name _)
  · exact .look_rest dot (.pure rfl)

theorem methodType_accepts : Accepts methodType Grammar.MethodType fun _ => True := by
  rintro _ _ (⟨opens, inner, allowed, closes⟩ | ⟨opens, word, inner, closes⟩) rest stop - <;>
    rw [methodType] <;> refine .mark_bind opens ?_
  · have flag := streamFlag_takes_nil inner.starts allowed
    refine .bind_first (List.append_assoc _ _ _ ▸ flag _ _) ?_
    refine (typeName_accepts (by decide) inner _ _ (.mark closes (by decide))).bind ?_
    exact .mark_bind closes (.pure rfl)
  · refine (streamFlag_takes word _ _).bind ?_
    refine (typeName_accepts (by decide) inner _ _ (.mark closes (by decide))).bind ?_
    exact .mark_bind closes (.pure rfl)

theorem method_reads : Reads method Grammar.Method fun _ => True := by
  intro upcoming stop
  rw [method]
  refine .comments_bind (.word_bind fun keyword rest split word => ?_)
  subst split
  refine .bind_plain ident_reads fun named name _ _ called => ?_
  refine .bind_plain methodType_reads fun taken input _ _ takes => ?_
  rcases input with ⟨input, clientStreaming⟩
  refine .word_bind fun returns _ _ between => ?_
  refine .bind_plain methodType_reads fun given output after _ gives => ?_
  rcases output with ⟨output, serverStreaming⟩
  have finish (ended : List Lexeme) (options : List OptionEntry)
      (ends : Grammar.MethodEnd ended options) :
      Grammar.Method (keyword :: (named ++ (taken ++ returns :: (given ++ ended))))
        { name, input, output, clientStreaming, serverStreaming, options
          comments := commentsOf (keyword :: rest)
          span := ⟨keyword.span.start, stopAfter (stopAfter (stopAfter (stopAfter (stopAfter
            keyword.span.stop named) taken) [returns]) given) ended⟩ } := by
    simp only [← stopAfter_append, List.append_assoc, List.cons_append, List.nil_append]
    exact .intro word called takes between gives ends rfl
  refine .look_cases (fun _ => .unexpected_bind) fun lexeme lexemes token _ same => ?_
  split
  · next span found =>
      cases found
      refine .advance_bind (.pure_bind (.spanFrom_bind (.pure ⟨?_, .none⟩)))
      exact finish [lexeme] [] (.plain same)
  · refine (body_ensures Grammar.MethodEntry (fun _ => True) trivial
      (fun _ _ => Grammar.MethodEntry.starts) ?_).bind ?_
    · intro lexeme lexemes token parser stop _ same chosen
      split at chosen
      · cases chosen
        exact (optionStatement_reads _ _).wrap (fun _ _ _ _ => .option) fun _ => .rfl
      · cases chosen
    · rintro inside faults entries rest - ⟨body, verdict⟩
      refine .pure_bind (.spanFrom_bind (.pure ⟨?_, by simpa using verdict⟩))
      rw [List.append_nil]
      exact finish inside _ (.body body)
  · exact .unexpected_bind

theorem method_accepts : Accepts method Grammar.Method fun _ => True := by
  rintro _ _ ⟨word, called, takes, between, gives, ends, rfl⟩ rest stop -
  rw [method]
  refine .comments_bind (.word_bind word ((ident_accepts called _ _ trivial).bind ?_))
  refine (methodType_accepts takes _ _ trivial).bind (.word_bind between ?_)
  refine (methodType_accepts gives _ _ trivial).bind ?_
  cases ends with
  | plain token =>
      refine .look_cons token (.advance_bind (.pure_bind (.spanFrom_bind (.pure ?_))))
      simp [spanOf_cons, commentsOf]
  | body inner =>
      rcases inner.starts with ⟨open_, inside, rfl, opens⟩
      refine .look_cons opens ?_
      refine (body_takes (fun _ _ => Grammar.MethodEntry.starts) ?_ inner _).bind_last
        (.pure_bind (.spanFrom_bind (.pure ?_)))
      · rintro _ _ ⟨inner⟩ -
        exact .of_starts .option inner.starts rfl fun _ _ =>
          optionStatement_accepts inner _ _ trivial
      · simp [spanOf_cons, commentsOf]

theorem service_reads : Reads service Grammar.Service fun _ => True := by
  intro upcoming stop
  rw [service]
  refine .comments_bind (.word_bind fun keyword rest split word => ?_)
  subst split
  refine .bind_plain ident_reads fun named name after _ called => ?_
  refine (body_ensures Grammar.ServiceEntry (fun _ => True) trivial
    (fun _ _ => Grammar.ServiceEntry.starts) ?_).bind ?_
  · intro lexeme lexemes token parser stop _ same chosen
    split at chosen
    · cases chosen
      exact (method_reads _ _).wrap (fun _ _ _ _ => .method) fun _ => .rfl
    · cases chosen
      exact (optionStatement_reads _ _).wrap (fun _ _ _ _ => .option) fun _ => .rfl
    · cases chosen
  · rintro inside faults entries rest - ⟨body, verdict⟩
    refine .spanFrom_bind (.pure ⟨?_, by simpa using verdict⟩)
    simp only [List.append_nil, ← stopAfter_append]
    exact .intro word called body rfl

theorem service_accepts : Accepts service Grammar.Service fun _ => True := by
  rintro _ _ ⟨word, called, body, rfl⟩ rest stop -
  rw [service]
  refine .comments_bind (.word_bind word ((ident_accepts called _ _ trivial).bind ?_))
  refine (body_takes (fun _ _ => Grammar.ServiceEntry.starts) ?_ body _).bind_last
    (.spanFrom_bind (.pure ?_))
  · rintro _ _ (inner | inner) -
    · exact .of_starts .method inner.starts rfl fun _ _ => method_accepts inner _ _ trivial
    · exact .of_starts .option inner.starts rfl fun _ _ => optionStatement_accepts inner _ _ trivial
  · simp [spanOf_cons, commentsOf]

/-! ## Messages and what they hold -/

theorem hostField?_eq_some {version : Version} {host : FieldHost} {token : Token}
    {parser : Parser Entry} (chosen : hostField? version host token = some parser) :
    parser = do return .field (← field version (some host)) := by
  unfold hostField? at chosen
  split at chosen
  · exact (Option.some.inj chosen).symm
  · exact (Option.some.inj chosen).symm
  · cases chosen

theorem extend_reads (version : Version) :
    Reads (extend version) Grammar.Extend (Extend.Valid version) := by
  intro upcoming stop
  rw [extend]
  refine .comments_bind (.word_bind fun keyword rest split word => ?_)
  subst split
  refine .bind_plain (typeName_reads _) fun typed extendee after _ extended => ?_
  refine (body_ensures Grammar.ExtendEntry
    (fun entry => entry.Declares Entry.field? (Field.Valid version (some .extend)))
    ?_ (fun _ _ => Grammar.ExtendEntry.starts) ?_).bind ?_
  · simp [Entry.Declares, Entry.field?]
  · intro lexeme lexemes token parser stop _ _ chosen
    rw [hostField?_eq_some chosen]
    exact (field_reads version _ _ _).wrap (fun _ _ _ _ => .field)
      (by simp [Entry.Declares, Entry.field?])
  · rintro inside faults entries rest - ⟨body, verdict⟩
    refine .spanFrom_bind (.pure ⟨?_, ?_⟩)
    · simp only [List.append_nil, ← stopAfter_append]
      exact .intro word extended body rfl
    · rw [List.append_nil]
      exact verdict.congr (forall_declares_iff _ _ _)

theorem oneof_reads (version : Version) :
    Reads (oneof version) Grammar.Oneof (Oneof.Valid version) := by
  intro upcoming stop
  rw [oneof]
  refine .comments_bind (.word_bind fun keyword rest split word => ?_)
  subst split
  refine .bind_plain ident_reads fun named name after _ called => ?_
  refine (body_ensures Grammar.OneofEntry
    (fun entry => entry.Declares Entry.field? (Field.Valid version (some .oneof)))
    ?_ (fun _ _ => Grammar.OneofEntry.starts) ?_).bind ?_
  · simp [Entry.Declares, Entry.field?]
  · intro lexeme lexemes token parser stop _ same chosen
    split at chosen
    · cases chosen
      refine (optionStatement_reads _ _).wrap (fun _ _ _ _ => .option) ?_
      simp [Entry.Declares, Entry.field?]
    · next token notOption =>
        rw [hostField?_eq_some chosen]
        refine (field_reads version _ _ _).wrap (fun _ _ rest split inner => .field inner ?_) ?_
        · refine Begins.not_of_append (split ▸ Grammar.not_begins_cons ?_)
          simpa [same] using notOption
        · simp [Entry.Declares, Entry.field?]
  · rintro inside faults entries rest - ⟨body, verdict⟩
    refine .spanFrom_bind ((Ensures.check rfl).bind ?_)
    rintro _ others _ after - ⟨rfl, inhabited⟩
    refine .pure ⟨?_, ?_⟩
    · simp only [List.append_nil, ← stopAfter_append]
      exact .intro word called body rfl
    · rw [List.append_nil]
      refine (verdict.append inhabited).congr ?_
      rw [forall_declares_iff]
      simp only [Bool.not_eq_true', List.isEmpty_eq_false_iff]
      exact ⟨fun both => ⟨both.1, both.2⟩, fun valid => ⟨valid.fields, valid.inhabited⟩⟩

/-- What is asked of an entry of a message. -/
def Entry.ValidInMessage (version : Version) (entry : Entry) : Prop :=
  entry.Declares Entry.item? (MessageItem.Valid version) ∧
    entry.Declares Entry.extensions? ExtensionRanges.Valid ∧
    entry.Declares Entry.reserved? (Reserved.Valid IntLiteral.IsFieldNumber)

namespace Entry

variable {version : Version}

@[simp] theorem validInMessage_blank : Entry.blank.ValidInMessage version := by
  simp [ValidInMessage, Declares, item?, extensions?, reserved?]

@[simp] theorem validInMessage_option (entry : OptionEntry) :
    (Entry.option entry).ValidInMessage version := by
  simp [ValidInMessage, Declares, item?, extensions?, reserved?]

@[simp] theorem validInMessage_item (entry : MessageItem) :
    (Entry.item entry).ValidInMessage version ↔ entry.Valid version := by
  simp [ValidInMessage, Declares, item?, extensions?, reserved?]

@[simp] theorem validInMessage_extensions (entry : ExtensionRanges) :
    (Entry.extensions entry).ValidInMessage version ↔ entry.Valid := by
  simp [ValidInMessage, Declares, item?, extensions?, reserved?]

@[simp] theorem validInMessage_reserved (entry : Reserved) :
    (Entry.reserved entry).ValidInMessage version ↔
      entry.Valid IntLiteral.IsFieldNumber := by
  simp [ValidInMessage, Declares, item?, extensions?, reserved?]

end Entry

/-- The fuel is spent on messages inside messages, each of which is shorter. -/
theorem message_ensures (version : Version) {depth : Nat} (enough : upcoming.length ≤ depth)
    (inhabited : upcoming ≠ []) :
    Ensures (message version depth) upcoming stop fun consumed faults value =>
      Grammar.Message consumed value ∧ Verdict faults (value.Valid version) := by
  induction depth generalizing upcoming stop with
  | zero => exact absurd (List.length_eq_zero_iff.mp (Nat.le_zero.mp enough)) inhabited
  | succ depth induction =>
      rw [message]
      refine .comments_bind (.word_bind fun keyword rest split word => ?_)
      subst split
      refine .bind_plain ident_reads fun named name after split called => ?_
      subst split
      refine (body_ensures Grammar.MessageEntry (Entry.ValidInMessage version) (by simp)
        (fun _ _ => Grammar.MessageEntry.starts) ?_).bind ?_
      · intro lexeme lexemes token parser stop shorter same chosen
        have fewer : (lexeme :: lexemes).length ≤ depth := by
          simp only [List.length_cons, List.length_append] at enough shorter ⊢
          omega
        split at chosen
        · cases chosen
          exact (induction fewer (by simp)).wrap (fun _ _ _ _ => .message) (by simp)
        · cases chosen
          exact (enumDeclaration_reads _ _).wrap (fun _ _ _ _ => .enum) (by simp)
        · cases chosen
          exact (extend_reads version _ _).wrap (fun _ _ _ _ => .extend) (by simp)
        · cases chosen
          exact (oneof_reads version _ _).wrap (fun _ _ _ _ => .oneof) (by simp)
        · cases chosen
          exact (optionStatement_reads _ _).wrap (fun _ _ _ _ => .option) (by simp)
        · cases chosen
          exact (reservedStatement_reads fieldNumber_reads _ _).wrap (fun _ _ _ _ => .reserved)
            (by simp)
        · cases chosen
          exact (extensionsStatement_reads _ _).wrap (fun _ _ _ _ => .extensions) (by simp)
        · next name message enum extend oneof option reserved extensions =>
            cases chosen
            refine (field_reads version none _ _).wrap
              (fun _ _ rest split inner => .field inner ?_) (by simp)
            refine Begins.not_of_append (split ▸ Grammar.not_begins_cons ?_)
            simpa [Grammar.messageKeywords, same] using
              ⟨message, enum, extend, oneof, option, reserved, extensions⟩
        · cases chosen
          refine (field_reads version none _ _).wrap
            (fun _ _ rest split inner => .field inner ?_) (by simp)
          refine Begins.not_of_append (split ▸ Grammar.not_begins_cons ?_)
          simp [same]
        · cases chosen
      · rintro inside faults entries rest - ⟨body, verdict⟩
        refine .spanFrom_bind (.pure ⟨?_, ?_⟩)
        · simp only [List.append_nil, ← stopAfter_append]
          exact .intro word called body rfl
        · rw [List.append_nil]
          refine verdict.congr ?_
          simp only [Entry.ValidInMessage, imp_and, forall_and, forall_declares_iff,
            Message.valid_iff]

theorem extend_accepts (version : Version) :
    Accepts (extend version) Grammar.Extend fun _ => True := by
  rintro _ _ ⟨word, extended, body, rfl⟩ rest stop -
  have named : Follows [.mark .leftBrace] _ := body.starts.mono
    fun _ same => ⟨.mark .leftBrace, List.mem_cons_self, by rw [same]; rfl⟩
  rw [extend]
  refine .comments_bind (.word_bind word ?_)
  refine (typeName_accepts (by decide) extended _ _ (named.append rest)).bind ?_
  refine (body_takes (fun _ _ => Grammar.ExtendEntry.starts) ?_ body _).bind_last
    (.spanFrom_bind (.pure ?_))
  · rintro _ _ ⟨inner⟩ -
    refine .of_other .field inner.starts Grammar.not_begins_nil ?_ fun _ _ =>
      field_accepts version (some .extend) inner _ _ trivial
    rintro _ (⟨name, rfl⟩ | rfl) _ <;> rfl
  · simp [spanOf_cons, commentsOf]

theorem oneof_accepts (version : Version) :
    Accepts (oneof version) Grammar.Oneof fun _ => True := by
  rintro _ _ ⟨word, called, body, rfl⟩ rest stop -
  rw [oneof]
  refine .comments_bind (.word_bind word ((ident_accepts called _ _ trivial).bind ?_))
  refine (body_takes (fun _ _ => Grammar.OneofEntry.starts) ?_ body _).bind_last
    (.spanFrom_bind (.check_bind (.pure ?_)))
  · rintro _ _ (inner | ⟨inner, allowed⟩) -
    · exact .of_starts .option inner.starts rfl fun _ _ => optionStatement_accepts inner _ _ trivial
    · refine .of_other .field inner.starts allowed ?_ fun _ _ =>
        field_accepts version (some .oneof) inner _ _ trivial
      rintro _ (⟨name, rfl⟩ | rfl) other
      · split
        · next found => cases found; exact absurd rfl (other "option" (by simp))
        · rfl
      · rfl
  · simp [spanOf_cons, commentsOf]

theorem message_takes (version : Version) {depth : Nat} {sentence : List Lexeme}
    {message : Message} (written : Grammar.Message sentence message)
    (enough : sentence.length ≤ depth) (rest : List Lexeme) (stop : Nat) :
    Takes (Parser.message version depth) sentence rest stop message := by
  induction depth generalizing sentence message rest stop with
  | zero => exact absurd (List.length_eq_zero_iff.mp (Nat.le_zero.mp enough)) written.starts.ne_nil
  | succ depth induction =>
      rcases written with ⟨word, called, body, rfl⟩
      rw [Parser.message]
      refine .comments_bind (.word_bind word ((ident_accepts called _ _ trivial).bind ?_))
      refine (body_takes (fun _ _ => Grammar.MessageEntry.starts) ?_ body _).bind_last
        (.spanFrom_bind (.pure ?_))
      · rintro sentence _ entry shorter
        have fewer : sentence.length ≤ depth := by
          simp only [List.length_cons, List.length_append] at enough
          omega
        cases entry with
        | message inner =>
            exact .of_starts (fun message => .item (.message message)) inner.starts rfl
              fun _ _ => induction inner fewer _ _
        | enum inner =>
            exact .of_starts (fun enum => .item (.enum enum)) inner.starts rfl
              fun _ _ => enumDeclaration_accepts inner _ _ trivial
        | extend inner =>
            exact .of_starts (fun extend => .item (.extend extend)) inner.starts rfl
              fun _ _ => extend_accepts version inner _ _ trivial
        | oneof inner =>
            exact .of_starts (fun oneof => .item (.oneof oneof)) inner.starts rfl
              fun _ _ => oneof_accepts version inner _ _ trivial
        | option inner =>
            exact .of_starts .option inner.starts rfl fun _ _ =>
              optionStatement_accepts inner _ _ trivial
        | reserved inner =>
            refine .of_starts .reserved inner.starts rfl fun _ _ => ?_
            exact reservedStatement_accepts fieldNumber_accepts
              (fun _ _ => Grammar.PositiveInt.starts) inner _ _ trivial
        | extensions inner =>
            exact .of_starts .extensions inner.starts rfl fun _ _ =>
              extensionsStatement_accepts inner _ _ trivial
        | field inner allowed =>
            refine .of_other (fun field => .item (.field field)) inner.starts allowed ?_
              fun _ _ => field_accepts version none inner _ _ trivial
            rintro _ (⟨name, rfl⟩ | rfl) other
            · split
              case h_8 => rfl
              case h_9 => rfl
              case h_10 plain _ => exact absurd rfl (plain name)
              all_goals
                next found => exact absurd found (other _ (by simp [Grammar.messageKeywords]))
            · rfl
      · simp [spanOf_cons, commentsOf]

end Parser

end ProtoSchema.Syntax
