import ProtoSchema.Proofs.Syntax.Accepting
import ProtoSchema.Proofs.Syntax.Sentences
import ProtoSchema.Proofs.Syntax.Validity
/-! # Names, numbers and options

What the parsers of the parts of declarations read.
-/

namespace ProtoSchema.Syntax

namespace Parser

open Grammar (Production Many After Separated Starts Numeric)

variable {upcoming : List Lexeme} {stop : Nat}

/-! ## Names -/

theorem ident_reads : Reads ident Grammar.Name fun _ => True := by
  intro upcoming stop
  rw [ident]
  refine .look_cases (fun _ => .unexpected) fun lexeme lexemes token _ same => ?_
  split
  · next name span found =>
      cases found
      exact .advance_bind (.pure ⟨.intro same, .none⟩)
  · exact .unexpected

theorem ident_accepts : Accepts ident Grammar.Name fun _ => True := by
  rintro _ _ ⟨token⟩ rest stop -
  rw [ident]
  exact .look_cons token (.advance_bind (.pure rfl))

theorem stringLiteral_reads : Reads stringLiteral Grammar.StringText fun _ => True := by
  intro upcoming stop
  rw [stringLiteral]
  refine .look_cases (fun _ => .unexpected) fun lexeme lexemes token _ same => ?_
  split
  · next value span found =>
      cases found
      exact .advance_bind (.pure ⟨.intro same, .none⟩)
  · exact .unexpected

theorem stringLiteral_accepts : Accepts stringLiteral Grammar.StringText fun _ => True := by
  rintro _ _ ⟨token⟩ rest stop -
  rw [stringLiteral]
  exact .look_cons token (.advance_bind (.pure rfl))

theorem positiveInt_reads : Reads positiveInt Grammar.PositiveInt fun _ => True := by
  intro upcoming stop
  rw [positiveInt]
  refine .look_cases (fun _ => .unexpected) fun lexeme lexemes token _ same => ?_
  split
  · next value span found =>
      cases found
      exact .advance_bind (.pure ⟨.intro same, .none⟩)
  · exact .unexpected

theorem positiveInt_accepts : Accepts positiveInt Grammar.PositiveInt fun _ => True := by
  rintro _ _ ⟨token⟩ rest stop -
  rw [positiveInt]
  exact .look_cons token (.advance_bind (.pure rfl))

theorem dottedNameFrom_ensures (first : Ident) (followers : List Follower) :
    Ensures (dottedNameFrom first followers) upcoming stop fun consumed faults name =>
      faults = [] ∧ ∃ rest, name = ⟨first, rest⟩ ∧
        Many (After (.mark .dot) Grammar.Name) consumed rest := by
  rw [dottedNameFrom]
  refine (Ensures.collect (After (.mark .dot) Grammar.Name)
    (fun consumed => consumed = []) (fun _ => True)
    (fun part stop _ => ?_) stop).bind ?_
  · refine .look_cases (fun _ => .unexpected) fun lexeme lexemes token _ same => ?_
    split
    · next span found =>
        cases found
        refine .advance_bind (.bind_plain ident_reads fun consumed name rest _ sentence => ?_)
        exact .pure (.more (by simp) (by simpa using .intro same sentence) .none)
    · next token span _ found =>
        cases found
        split
        · exact .pure (.done rfl)
        · exact .unexpected
    · exact .unexpected
  · rintro consumed faults rest after - ⟨inner, finish, rfl, many, rfl, verdict⟩
    refine .pure ⟨?_, rest, rfl, by simpa using many⟩
    simpa using verdict.eq_nil_iff.mpr (by simp)

/-- The next token is one that may follow a name. -/
def Follows (followers : List Follower) : List Lexeme → Prop :=
  Starts fun token => ∃ follower ∈ followers, follower.allows token = true

theorem Follows.mark {followers : List Follower} {lexeme : Lexeme} {rest : List Lexeme}
    {symbol : Punctuation} (same : lexeme.token = .mark symbol)
    (member : .mark symbol ∈ followers) : Follows followers (lexeme :: rest) :=
  ⟨lexeme, rest, rfl, .mark symbol, member, by simp [same, Follower.allows]⟩

theorem dottedNameFrom_takes (first : Ident) {followers : List Follower}
    (undotted : .mark .dot ∉ followers) {sentence rest : List Lexeme} {more : List Ident}
    (names : Many (After (.mark .dot) Grammar.Name) sentence more)
    (follows : Follows followers rest) (stop : Nat) :
    Takes (dottedNameFrom first followers) sentence rest stop ⟨first, more⟩ := by
  rw [dottedNameFrom]
  refine .bind_last ?_ (.pure rfl)
  refine .collect_open (fun _ => True) Grammar.After.written
    (fun _ _ _ _ => trivial) ?_ trivial ?_ names stop
  · rintro _ _ ⟨token, name⟩ following stop -
    refine .look_cons token (.advance_bind ?_)
    exact (ident_accepts name _ _ trivial).bind_last (.pure rfl)
  · intro stop
    rcases follows with ⟨lexeme, after, rfl, follower, member, allowed⟩
    have other : lexeme.token ≠ .mark .dot := by
      intro dot
      rw [dot] at allowed
      cases follower with
      | anyIdent => cases allowed
      | mark symbol => exact undotted (of_decide_eq_true allowed ▸ member)
    refine .look_rest rfl ?_
    split
    · next found => exact absurd (congrArg Prod.fst (Option.some.inj found)) other
    · next found =>
        cases found
        rw [if_pos (List.any_eq_true.mpr ⟨follower, member, allowed⟩)]
        exact .pure rfl
    · next found => cases found

theorem dottedName_reads (followers : List Follower) :
    Reads (dottedName followers) Grammar.DottedName fun _ => True := by
  intro upcoming stop
  rw [dottedName]
  refine .bind_plain ident_reads fun front first rest _ sentence => ?_
  refine (dottedNameFrom_ensures first followers).mono ?_
  rintro back faults name after - ⟨rfl, more, rfl, names⟩
  exact ⟨.intro sentence names, .none⟩

theorem typeName_reads (followers : List Follower) :
    Reads (typeName followers) Grammar.TypeName fun _ => True := by
  intro upcoming stop
  rw [typeName]
  refine .look_cases (fun _ => .unexpected) fun lexeme lexemes token _ same => ?_
  split
  · next span found =>
      cases found
      refine .advance_bind (.bind_plain (dottedName_reads followers) ?_)
      intro consumed name rest _ inner
      exact .pure ⟨by simpa using .absolute same inner, .none⟩
  · refine .bind_plain (dottedName_reads followers) fun consumed name rest _ inner => ?_
    exact .pure ⟨by simpa using .relative inner, .none⟩
  · exact .unexpected

theorem dottedName_accepts {followers : List Follower} (undotted : .mark .dot ∉ followers) :
    Accepts (dottedName followers) Grammar.DottedName (Follows followers) := by
  rintro _ _ ⟨name, names⟩ rest stop follows
  rw [dottedName]
  exact (ident_accepts name _ _ trivial).bind (dottedNameFrom_takes _ undotted names follows _)

theorem typeName_accepts {followers : List Follower} (undotted : .mark .dot ∉ followers) :
    Accepts (typeName followers) Grammar.TypeName (Follows followers) := by
  rintro _ _ (inner | ⟨first, inner⟩) rest stop follows <;> rw [typeName]
  · cases inner with
    | intro name names =>
        cases name with
        | intro token =>
            refine .look_cons token ?_
            exact .bind_last (dottedName_accepts undotted (.intro (.intro token) names) _ _ follows)
              (.pure rfl)
  · refine .look_cons first (.advance_bind ?_)
    exact .bind_last (dottedName_accepts undotted inner _ _ follows) (.pure rfl)

/-! ## Numbers -/

theorem signedInt_reads : Reads signedInt Grammar.SignedInt fun _ => True := by
  intro upcoming stop
  have plain : ∀ part, Ensures positiveInt part stop fun consumed faults literal =>
      Grammar.SignedInt consumed literal ∧ Verdict faults True := fun part =>
    (positiveInt_reads part stop).mono fun _ _ _ _ _ read => ⟨.plain read.1, read.2⟩
  rw [signedInt]
  refine .look_cases (fun _ => plain []) fun lexeme lexemes token _ same => ?_
  split
  · next sign found =>
      cases found
      refine .advance_bind (.bind_plain positiveInt_reads fun consumed literal rest _ inner => ?_)
      cases inner with
      | intro number => exact .pure ⟨.negative same number, .none⟩
  · exact plain _

theorem signedInt_accepts : Accepts signedInt Grammar.SignedInt fun _ => True := by
  rintro _ _ (⟨⟨token⟩⟩ | ⟨minus, token⟩) rest stop - <;> rw [signedInt]
  · exact .look_cons token (positiveInt_accepts (.intro token) _ _ trivial)
  · refine .look_cons minus (.advance_bind ?_)
    exact .bind_last (positiveInt_accepts (.intro token) _ _ trivial) (.pure rfl)

theorem isFieldNumber_iff (literal : IntLiteral) :
    isFieldNumber literal = true ↔ literal.IsFieldNumber := by
  rw [isFieldNumber, Bool.and_eq_true, decide_eq_true_eq, decide_eq_true_eq]
  rfl

theorem isEnumNumber_iff (literal : IntLiteral) :
    isEnumNumber literal = true ↔ literal.IsEnumNumber := by
  rw [isEnumNumber, Bool.and_eq_true, decide_eq_true_eq, decide_eq_true_eq]
  rfl

/-- A parser that checks the values of another one. -/
theorem Reads.check {parser : Parser IntLiteral} {production : Production IntLiteral}
    (reads : Reads parser production fun _ => True) {test : IntLiteral → Bool}
    {Bound : IntLiteral → Prop} (exact_ : ∀ literal, test literal = true ↔ Bound literal)
    {error : Span → SyntaxError} (harmless : ∀ span, (error span).isGrammatical = false) :
    Reads (do
      let literal ← parser
      check (test literal) (error literal.span)
      return literal) production Bound := by
  intro upcoming stop
  refine .bind_plain reads fun consumed literal rest _ sentence => ?_
  refine (Ensures.check (harmless literal.span)).bind ?_
  rintro _ faults _ after - ⟨rfl, verdict⟩
  refine .pure ⟨by simpa using sentence, ?_⟩
  rw [List.append_nil]
  exact verdict.congr (exact_ literal)

theorem Accepts.check {parser : Parser IntLiteral} {production : Production IntLiteral}
    {Follow : List Lexeme → Prop} (accepts : Accepts parser production Follow)
    {test : IntLiteral → Bool} {error : Span → SyntaxError} :
    Accepts (do
      let literal ← parser
      check (test literal) (error literal.span)
      return literal) production Follow :=
  fun _ _ sentence _ _ follows =>
    (accepts sentence _ _ follows).bind_last (.check_bind (.pure rfl))

theorem fieldNumber_reads :
    Reads fieldNumber Grammar.PositiveInt IntLiteral.IsFieldNumber :=
  positiveInt_reads.check isFieldNumber_iff fun _ => rfl

theorem enumNumber_reads :
    Reads enumNumber Grammar.SignedInt IntLiteral.IsEnumNumber :=
  signedInt_reads.check isEnumNumber_iff fun _ => rfl

theorem fieldNumber_accepts : Accepts fieldNumber Grammar.PositiveInt fun _ => True :=
  positiveInt_accepts.check

theorem enumNumber_accepts : Accepts enumNumber Grammar.SignedInt fun _ => True :=
  signedInt_accepts.check

/-! ## Ranges -/

section

variable {number : Parser IntLiteral} {production : Production IntLiteral}
  {Bound : IntLiteral → Prop} (reads : Reads number production Bound)

include reads

theorem numberRange_reads :
    Reads (numberRange number) (Grammar.NumberRange production) (NumberRange.Valid Bound) := by
  intro upcoming stop
  rw [numberRange]
  refine .bind_reads reads fun front faults start rest _ lower lowerVerdict => ?_
  have single : ∀ part stop, Ensures (Pure.pure (⟨start, .single⟩ : NumberRange)) part stop
      fun more others range => Grammar.NumberRange production (front ++ more) range ∧
        Verdict (faults ++ others) (range.Valid Bound) := by
    intro part stop
    refine .pure ⟨by simpa using .single lower, ?_⟩
    rw [List.append_nil]
    exact lowerVerdict.congr (NumberRange.valid_single start).symm
  refine .look_cases (fun _ => single _ _) fun between lexemes token _ word => ?_
  split
  · next span found =>
      cases found
      have bounded : ∀ part stop, Ensures (do
          let stop ← number
          check (start.value ≤ stop.value) (.invalidRange (start.span.through stop.span))
          return (⟨start, .int stop⟩ : NumberRange)) part stop
          fun more others range => Grammar.NumberRange production (front ++ between :: more) range ∧
            Verdict (faults ++ others) (range.Valid Bound) := by
        intro part stop
        refine .bind_reads reads fun back others last rest _ upper upperVerdict => ?_
        refine (Ensures.check rfl).bind ?_
        rintro _ more _ after - ⟨rfl, ordered⟩
        refine .pure ⟨by simpa using .bounded lower word upper, ?_⟩
        rw [List.append_nil]
        refine (lowerVerdict.append (upperVerdict.append ordered)).congr ?_
        rw [NumberRange.valid_int, decide_eq_true_eq]
      refine .advance_bind (.look_cases (fun _ => bounded [] _) fun lexeme rest token _ same => ?_)
      split
      · next span found =>
          cases found
          refine .advance_bind (.pure ⟨.unbounded lower word same, ?_⟩)
          rw [List.append_nil]
          exact lowerVerdict.congr (NumberRange.valid_max start _).symm
      · exact bounded _ _
  · exact single _ _

theorem numberRanges_reads :
    Reads (numberRanges number) (Grammar.NumberRanges production)
      fun ranges => ∀ range ∈ ranges, range.Valid Bound := by
  intro upcoming stop
  rw [numberRanges]
  refine .bind_reads (numberRange_reads reads) fun front faults first rest _ range verdict => ?_
  refine (Ensures.collect (After (.mark .comma) (Grammar.NumberRange production))
    (fun consumed => consumed = []) (NumberRange.Valid Bound)
    (fun part stop _ => ?_) _).bind ?_
  · refine .look_cases (fun _ => .pure (.done rfl)) fun lexeme lexemes token _ same => ?_
    split
    · next span found =>
        cases found
        refine .advance_bind (.bind_reads (numberRange_reads reads) ?_)
        intro consumed others value after _ next nextVerdict
        refine .pure (.more (by simp) (by simpa using .intro same next) ?_)
        rw [List.append_nil]
        exact nextVerdict
    · exact .pure (.done rfl)
  · rintro consumed others more after - ⟨inner, finish, rfl, many, rfl, laterVerdict⟩
    refine .pure ⟨by simpa using .intro range many, ?_⟩
    rw [List.append_nil]
    exact (verdict.append laterVerdict).congr List.forall_mem_cons.symm

end

/-- Another mark than a comma ends ranges. -/
theorem ends_ranges {lexeme : Lexeme} {symbol : Punctuation} (same : lexeme.token = .mark symbol)
    (other : symbol ≠ .comma) (rest : List Lexeme) :
    Starts (fun token => token ≠ .ident "to" ∧ token ≠ .mark .comma) (lexeme :: rest) :=
  ⟨lexeme, rest, rfl, by simpa [same] using other⟩

section

variable {number : Parser IntLiteral} {production : Production IntLiteral}
  (accepts : Accepts number production fun _ => True)
  (starts : ∀ ⦃sentence literal⦄, production sentence literal → Starts Numeric sentence)

include accepts starts

theorem numberRange_accepts :
    Accepts (numberRange number) (Grammar.NumberRange production) (Starts (· ≠ .ident "to")) := by
  rintro _ _ (bound | ⟨lower, word, upper⟩ | ⟨lower, word, keyword⟩) rest stop follows <;>
    rw [numberRange]
  · refine (accepts bound _ _ trivial).bind_last ?_
    rcases follows with ⟨lexeme, after, rfl, other⟩
    refine .look_rest rfl ?_
    split
    · next found => exact absurd (congrArg Prod.fst (Option.some.inj found)) other
    · exact .pure rfl
  · refine (accepts lower _ _ trivial).bind (.look_cons word (.advance_bind ?_))
    have second := accepts upper rest
    rcases starts upper with ⟨lexeme, more, rfl, ⟨value, int⟩ | minus⟩
    · exact .look_cons int ((second _ trivial).bind_last (.check_bind (.pure rfl)))
    · exact .look_cons minus ((second _ trivial).bind_last (.check_bind (.pure rfl)))
  · refine (accepts lower _ _ trivial).bind (.look_cons word (.advance_bind ?_))
    exact .look_cons keyword (.advance_bind (.pure rfl))

theorem numberRanges_accepts :
    Accepts (numberRanges number) (Grammar.NumberRanges production)
      (Starts fun token => token ≠ .ident "to" ∧ token ≠ .mark .comma) := by
  rintro _ _ ⟨first, others⟩ rest stop follows
  have leads ⦃part : List Lexeme⦄ ⦃range : NumberRange⦄
      (next : After (.mark .comma) (Grammar.NumberRange production) part range)
      (following : List Lexeme) : Starts (· ≠ .ident "to") (part ++ following) := by
    refine (next.starts.append following).mono ?_
    rintro _ rfl
    simp
  have last := follows.mono fun _ other => other.1
  rw [numberRanges]
  refine (numberRange_accepts accepts starts first _ _ (others.leads leads last)).bind ?_
  refine .bind_last ?_ (.pure rfl)
  refine .collect_open (Starts (· ≠ .ident "to")) Grammar.After.written leads ?_ last ?_ others _
  · rintro _ _ ⟨comma, next⟩ following stop follows
    refine .look_cons comma (.advance_bind ?_)
    exact (numberRange_accepts accepts starts next _ _ follows).bind_last (.pure rfl)
  · intro stop
    rcases follows with ⟨lexeme, after, rfl, -, other⟩
    refine .look_rest rfl ?_
    split
    · next found => exact absurd (congrArg Prod.fst (Option.some.inj found)) other
    · exact .pure rfl

end

/-! ## Constants -/

theorem numberConstant_ensures (negative : Bool) (start : Nat) :
    Ensures (numberConstant negative start) upcoming stop fun consumed faults value =>
      faults = [] ∧ ∃ lexeme, consumed = [lexeme] ∧
        Grammar.Magnitude negative ⟨start, lexeme.span.stop⟩ lexeme.token value := by
  rw [numberConstant]
  refine .look_cases (fun _ => .unexpected) fun lexeme lexemes token _ same => ?_
  split
  · next value span found =>
      cases found
      exact .advance_bind (.spanFrom_bind (.pure ⟨rfl, lexeme, rfl, same ▸ .int value⟩))
  · next value span found =>
      cases found
      exact .advance_bind (.spanFrom_bind (.pure ⟨rfl, lexeme, rfl, same ▸ .float value⟩))
  · next span found =>
      cases found
      exact .advance_bind (.spanFrom_bind (.pure ⟨rfl, lexeme, rfl, same ▸ .infinity⟩))
  · next span found =>
      cases found
      exact .advance_bind (.spanFrom_bind (.pure ⟨rfl, lexeme, rfl, same ▸ .nan⟩))
  · exact .unexpected

theorem numberConstant_takes {negative : Bool} {start : Nat} {lexeme : Lexeme}
    {value : Constant}
    (number : Grammar.Magnitude negative ⟨start, lexeme.span.stop⟩ lexeme.token value)
    (rest : List Lexeme) (stop : Nat) :
    Takes (numberConstant negative start) [lexeme] rest stop value := by
  rw [numberConstant]
  generalize same : lexeme.token = token at number
  cases number with
  | int => exact .look_cons same (.advance_bind (.spanFrom_bind (.pure rfl)))
  | float => exact .look_cons same (.advance_bind (.spanFrom_bind (.pure rfl)))
  | infinity => exact .look_cons same (.advance_bind (.spanFrom_bind (.pure rfl)))
  | nan => exact .look_cons same (.advance_bind (.spanFrom_bind (.pure rfl)))

/-- The string literals that follow a string literal. -/
theorem stringParts_takes {sentence rest : List Lexeme} {values : List String}
    (parts : Many Grammar.StringPart sentence values)
    (last : Starts (fun token => ∀ value, token ≠ .string value) rest) (stop : Nat) :
    Takes (collect do
      match ← look with
      | some (.string value, _) => advance; return some value
      | _ => return none) sentence rest stop values := by
  refine .collect_open (fun _ => True) Grammar.StringPart.written (fun _ _ _ _ => trivial) ?_
    trivial ?_ parts stop
  · rintro _ _ ⟨token⟩ following stop -
    exact .look_cons token (.advance_bind (.pure rfl))
  · intro stop
    rcases last with ⟨lexeme, after, rfl, other⟩
    refine .look_rest rfl ?_
    split
    · next found => exact absurd (congrArg Prod.fst (Option.some.inj found)) (other _)
    · exact .pure rfl

theorem stringParts_ensures :
    Ensures (collect do
      match ← look with
      | some (.string value, _) => advance; return some value
      | _ => return none) upcoming stop fun consumed faults values =>
        faults = [] ∧ Many Grammar.StringPart consumed values := by
  refine (Ensures.collect Grammar.StringPart
    (fun consumed => consumed = []) (fun _ => True)
    (fun part stop _ => ?_) stop).mono ?_
  · refine .look_cases (fun _ => .pure (.done rfl)) fun lexeme lexemes token _ same => ?_
    split
    · next value span found =>
        cases found
        exact .advance_bind (.pure (.more (by simp) (.intro same) .none))
    · exact .pure (.done rfl)
  · rintro consumed faults values after - ⟨inner, finish, rfl, many, rfl, verdict⟩
    exact ⟨verdict.eq_nil_iff.mpr (by simp), by simpa using many⟩

theorem constant_reads (followers : List Follower) :
    Reads (constant followers) Grammar.Constant fun _ => True := by
  intro upcoming stop
  have unsigned (lexeme : Lexeme) (lexemes : List Lexeme)
      (number : ∀ value, Grammar.Magnitude false (spanOf [lexeme]) lexeme.token value →
        Grammar.Constant [lexeme] value) :
      Ensures (numberConstant false lexeme.span.start) (lexeme :: lexemes) stop
        fun consumed faults value => Grammar.Constant consumed value ∧ Verdict faults True := by
    refine (numberConstant_ensures false _).mono ?_
    rintro consumed faults value rest split ⟨rfl, digits, rfl, magnitude⟩
    cases split
    exact ⟨number value magnitude, .none⟩
  rw [constant]
  refine .look_cases (fun _ => .unexpected) fun lexeme lexemes token _ same => ?_
  split
  · refine .bind_plain (dottedName_reads followers) fun consumed name rest _ inner => ?_
    exact .pure ⟨by simpa using .ident inner, .none⟩
  · next span found =>
      cases found
      refine .advance_bind ((numberConstant_ensures false _).mono ?_)
      rintro consumed faults value rest - ⟨rfl, digits, rfl, number⟩
      exact ⟨.plus same number, .none⟩
  · next span found =>
      cases found
      refine .advance_bind ((numberConstant_ensures true _).mono ?_)
      rintro consumed faults value rest - ⟨rfl, digits, rfl, number⟩
      exact ⟨.minus same number, .none⟩
  · next value span found =>
      cases found
      refine unsigned lexeme lexemes fun _ magnitude => ?_
      rw [same] at magnitude
      cases magnitude
      exact .int same
  · next value span found =>
      cases found
      refine unsigned lexeme lexemes fun _ magnitude => ?_
      rw [same] at magnitude
      cases magnitude
      exact .float same
  · next value span found =>
      cases found
      refine .advance_bind (stringParts_ensures.bind ?_)
      rintro consumed faults more rest - ⟨rfl, many⟩
      refine .spanFrom_bind (.pure ⟨?_, .none⟩)
      rw [List.append_nil]
      exact .string same many
  · exact .unexpected

theorem constant_accepts {followers : List Follower} (undotted : .mark .dot ∉ followers) :
    Accepts (constant followers) Grammar.Constant (Follows followers) := by
  rintro _ _ constant rest stop follows
  rw [Parser.constant]
  cases constant with
  | ident inner =>
      rcases inner with ⟨⟨token⟩, names⟩
      refine .look_cons token (.bind_last ?_ (.pure rfl))
      exact dottedName_accepts undotted (.intro (.intro token) names) _ _ follows
  | int token => exact .look_cons token (numberConstant_takes (token ▸ .int _) _ _)
  | float token => exact .look_cons token (numberConstant_takes (token ▸ .float _) _ _)
  | plus plus number => exact .look_cons plus (.advance_bind (numberConstant_takes number _ _))
  | minus minus number => exact .look_cons minus (.advance_bind (numberConstant_takes number _ _))
  | string token parts =>
      refine .look_cons token (.advance_bind (.bind_last (stringParts_takes parts ?_ _) ?_))
      · refine follows.mono ?_
        rintro token ⟨follower, -, allowed⟩ value rfl
        cases follower <;> cases allowed
      · exact .spanFrom_bind (.pure rfl)

/-! ## Options -/

theorem optionNamePart_reads : Reads optionNamePart Grammar.OptionNamePart fun _ => True := by
  intro upcoming stop
  rw [optionNamePart]
  refine .look_cases (fun _ => .unexpected) fun lexeme lexemes token _ same => ?_
  split
  · next span found =>
      cases found
      refine .advance_bind ?_
      have closed (dot : String) (front : List Lexeme)
          (closes : ∀ sentence name close, Grammar.DottedName sentence name →
            close.token = .mark .rightParen →
            Grammar.OptionNamePart (front ++ (sentence ++ [close]))
              ("(" ++ dot ++ name.text ++ ")")) :
          ∀ part stop, Ensures (do
            let name ← dottedName [.mark .rightParen]
            let _ ← mark .rightParen
            return "(" ++ dot ++ name.text ++ ")") part stop
            fun more others value => Grammar.OptionNamePart (front ++ more) value ∧
              Verdict others True := by
        intro part stop
        refine .bind_plain (dottedName_reads _) fun sentence name rest _ inner => ?_
        refine .mark_bind fun close after _ paren => .pure ⟨?_, .none⟩
        exact closes sentence name close inner paren
      refine .look_cases (fun _ => ?_) fun dot rest token _ first => ?_
      · exact closed "" [lexeme] (fun _ _ _ inner closes => .extension same inner closes) _ _
      · split
        · next found =>
            cases found
            refine .advance_bind ?_
            exact closed "." [lexeme, dot]
              (fun _ _ _ inner closes => .absolute same first inner closes) _ _
        · exact closed "" [lexeme] (fun _ _ _ inner closes => .extension same inner closes) _ _
  · next name span found =>
      cases found
      exact .advance_bind (.pure ⟨.name same, .none⟩)
  · exact .unexpected

theorem optionNamePart_accepts : Accepts optionNamePart Grammar.OptionNamePart fun _ => True := by
  rintro _ _ part rest stop -
  have closed (dot : String) {sentence : List Lexeme} {name : DottedName} {close : Lexeme}
      (inner : Grammar.DottedName sentence name) (closes : close.token = .mark .rightParen)
      (stop : Nat) :
      Takes (do
        let name ← dottedName [.mark .rightParen]
        let _ ← mark .rightParen
        return "(" ++ dot ++ name.text ++ ")") (sentence ++ [close]) rest stop
        ("(" ++ dot ++ name.text ++ ")") := by
    refine (dottedName_accepts (by decide) inner _ _ (.mark closes (by decide))).bind ?_
    exact .mark_bind closes (.pure rfl)
  rw [optionNamePart]
  cases part with
  | name token => exact .look_cons token (.advance_bind (.pure rfl))
  | extension opens inner closes =>
      have tail := closed "" inner closes
      rcases inner with ⟨⟨token⟩, names⟩
      exact .look_cons opens (.advance_bind (.look_cons token (.pure_bind (tail _))))
  | absolute opens first inner closes =>
      refine .look_cons opens (.advance_bind (.look_cons first (.advance_bind ?_)))
      exact .pure_bind (closed "." inner closes _)

/-- After the name of an option comes the equals sign, which is consumed with it. -/
theorem optionName_ensures (start : Nat) :
    Ensures (optionName start) upcoming stop fun consumed faults named =>
      faults = [] ∧ ∃ front equals parts, consumed = front ++ [equals] ∧
        equals.token = .mark .equals ∧
        Separated (.mark .dot) Grammar.OptionNamePart front parts ∧
        named = (".".intercalate parts, ⟨start, stopAfter stop front⟩) := by
  rw [optionName]
  refine .bind_plain optionNamePart_reads fun front first rest _ leading => ?_
  refine (Ensures.collect_before (After (.mark .dot) Grammar.OptionNamePart)
    (fun part finish => finish = [] ∧
      ∃ equals after, part = equals :: after ∧ equals.token = .mark .equals)
    (fun _ => True) (fun part stop _ => ?_) _).bind ?_
  · refine .look_cases (fun _ => .unexpected) fun lexeme lexemes token ahead same => ?_
    split
    · next span found =>
        cases found
        refine .advance_bind (.bind_plain optionNamePart_reads fun consumed name rest _ next => ?_)
        exact .pure (.more (by simp) (by simpa using .intro same next) .none)
    · next span found =>
        cases found
        exact .pure (.done ⟨rfl, lexeme, lexemes, ahead, same⟩)
    · exact .unexpected
  · rintro consumed faults more after split
      ⟨inner, part, finish, split', rfl, many, ⟨rfl, equals, before, rfl, same⟩, verdict⟩
    have sameAfter : after = equals :: before := by simpa [split'] using split.symm
    subst sameAfter
    refine .spanFrom_bind (.advance_bind (.pure ⟨?_, front ++ inner, equals, first :: more, ?_⟩))
    · simpa using verdict.eq_nil_iff.mpr (by simp)
    · exact ⟨by simp, same, .intro leading many, by simp⟩

theorem optionName_takes {front : List Lexeme} {equals : Lexeme} {parts : List String}
    (name : Separated (.mark .dot) Grammar.OptionNamePart front parts)
    (sign : equals.token = .mark .equals) (start : Nat) (rest : List Lexeme) (stop : Nat) :
    Takes (optionName start) (front ++ [equals]) rest stop
      (".".intercalate parts, ⟨start, stopAfter stop front⟩) := by
  rcases name with ⟨first, others⟩
  rw [optionName, List.append_assoc]
  refine (optionNamePart_accepts first _ _ trivial).bind ?_
  refine .bind (.collect_open (fun _ => True) Grammar.After.written (fun _ _ _ _ => trivial) ?_
    trivial ?_ others _) (.spanFrom_bind (.advance_bind (.pure ?_)))
  · rintro _ _ ⟨dot, part⟩ following stop -
    refine .look_cons dot (.advance_bind ?_)
    exact (optionNamePart_accepts part _ _ trivial).bind_last (.pure rfl)
  · exact fun stop => .look_rest sign (.pure rfl)
  · rw [stopAfter_append]

theorem optionEntry_reads (followers : List Follower) :
    Reads (optionEntry followers) Grammar.OptionEntry fun _ => True := by
  intro upcoming stop
  rw [optionEntry]
  refine .nextStart_bind ((optionName_ensures _).bind ?_)
  rintro consumed faults named rest rfl ⟨rfl, front, equals, parts, rfl, sign, name, rfl⟩
  refine .bind_plain (constant_reads followers) fun back value after split inner => ?_
  refine .spanFrom_bind (.pure ⟨?_, .none⟩)
  have written : front ≠ [] := Grammar.OptionNamePart.written.separated name
  have nameSpan := spanOf_eq written ([equals] ++ rest) stop stop
  have whole := spanOf_eq (List.append_ne_nil_of_left_ne_nil written (equals :: back)) after stop
    stop
  simp only [List.append_assoc, List.cons_append, List.nil_append, List.append_nil, split,
    stopAfter_append, stopAfter_cons, stopAfter_nil] at nameSpan whole ⊢
  rw [nameSpan, whole]
  exact .intro name sign inner

theorem optionEntry_accepts {followers : List Follower} (undotted : .mark .dot ∉ followers) :
    Accepts (optionEntry followers) Grammar.OptionEntry (Follows followers) := by
  rintro _ _ @⟨front, back, equals, parts, value, name, sign, inner⟩ rest stop follows
  have written : front ≠ [] := Grammar.OptionNamePart.written.separated name
  have nameSpan := spanOf_eq written (equals :: (back ++ rest)) stop stop
  have span := spanOf_eq (List.append_ne_nil_of_left_ne_nil written (equals :: back)) rest stop stop
  have split : front ++ equals :: back = front ++ [equals] ++ back := by simp
  rw [optionEntry]
  refine .nextStart_bind ?_
  rw [split]
  refine (optionName_takes name sign _ _ _).bind ?_
  refine (constant_accepts undotted inner _ _ follows).bind_last (.spanFrom_bind (.pure ?_))
  simp only [List.append_assoc, List.cons_append, List.nil_append, stopAfter_append,
    stopAfter_cons, stopAfter_nil] at nameSpan span ⊢
  rw [nameSpan, span]

theorem optionStatement_reads :
    Reads optionStatement Grammar.OptionStatement fun _ => True := by
  intro upcoming stop
  rw [optionStatement]
  refine .word_bind fun keyword after _ word => ?_
  refine .bind_plain (optionEntry_reads _) fun sentence entry rest _ inner => ?_
  refine .mark_bind fun close remaining _ closes => .spanFrom_bind (.pure ⟨?_, .none⟩)
  simpa [spanOf_cons] using Grammar.OptionStatement.intro word inner closes

theorem optionStatement_accepts :
    Accepts optionStatement Grammar.OptionStatement fun _ => True := by
  rintro _ _ ⟨word, inner, closes⟩ rest stop -
  rw [optionStatement]
  refine .word_bind word ?_
  refine (optionEntry_accepts (by decide) inner _ _ (.mark closes (by decide))).bind ?_
  exact .mark_bind closes (.spanFrom_bind (.pure (by simp [spanOf_cons])))

/-- Entries with commas between them, and the closing bracket. -/
theorem optionList_reads : Reads optionList Grammar.OptionList fun _ => True := by
  intro upcoming stop
  rw [optionList]
  refine .mark_bind fun open_ after _ opens => ?_
  refine .bind_plain (optionEntry_reads _) fun front first rest _ entry => ?_
  refine (Ensures.collect (After (.mark .comma) Grammar.OptionEntry)
    (fun finish => ∃ close, finish = [close] ∧ close.token = .mark .rightBracket)
    (fun _ => True) (fun part stop _ => ?_) _).bind ?_
  · refine .look_cases (fun _ => .unexpected) fun lexeme lexemes token _ same => ?_
    split
    · next span found =>
        cases found
        refine .advance_bind (.bind_plain (optionEntry_reads _) ?_)
        intro consumed value rest _ next
        exact .pure (.more (by simp) (by simpa using .intro same next) .none)
    · next span found =>
        cases found
        exact .advance_bind (.pure (.done ⟨lexeme, rfl, same⟩))
    · exact .unexpected
  · rintro consumed faults more after - ⟨inner, finish, rfl, many, ⟨close, rfl, closes⟩, verdict⟩
    refine .pure ⟨?_, by simpa using verdict⟩
    simpa using Grammar.OptionList.intro opens (.intro entry many) closes

theorem optionList_accepts : Accepts optionList Grammar.OptionList fun _ => True := by
  rintro _ _ ⟨opens, ⟨first, others⟩, closes⟩ rest stop -
  have leads ⦃part : List Lexeme⦄ ⦃entry : OptionEntry⦄
      (next : After (.mark .comma) Grammar.OptionEntry part entry) (following : List Lexeme) :
      Follows [.mark .comma, .mark .rightBracket] (part ++ following) := by
    rcases next with ⟨comma, -⟩
    exact .mark comma (by decide)
  have last : Follows [.mark .comma, .mark .rightBracket] (_ :: rest) := .mark closes (by decide)
  rw [optionList, List.append_assoc]
  refine .mark_bind opens ?_
  refine (optionEntry_accepts (by decide) first _ _ ?_).bind ?_
  · rw [List.append_assoc]
    exact others.leads leads last
  refine .bind_last (.collect _ Grammar.After.written leads ?_ last ?_ others _) (.pure rfl)
  · rintro _ _ ⟨comma, next⟩ - following stop follows
    refine .look_cons comma (.advance_bind ?_)
    exact (optionEntry_accepts (by decide) next _ _ follows).bind_last (.pure rfl)
  · exact fun stop => .look_cons closes (.advance_bind (.pure rfl))

end Parser

end ProtoSchema.Syntax
