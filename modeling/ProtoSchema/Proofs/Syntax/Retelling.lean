import Mathlib.Data.List.Forall2
import ProtoSchema.Proofs.Syntax.Bare
import ProtoSchema.Proofs.Syntax.Sentences
/-! # Sentences of the same tokens

Lexemes with the tokens of a sentence are a sentence, too. It stands for the same value, apart
from spans and comments.
-/

namespace ProtoSchema.Syntax.Grammar

/-- Some lexemes have the tokens of others. -/
abbrev SameTokens : List Lexeme → List Lexeme → Prop :=
  List.Forall₂ fun lexeme other => lexeme.token = other.token

namespace SameTokens

variable {front back sentence other : List Lexeme}

theorem split (same : SameTokens (front ++ back) other) :
    ∃ start rest, other = start ++ rest ∧ SameTokens front start ∧ SameTokens back rest := by
  induction front generalizing other with
  | nil => exact ⟨[], other, rfl, .nil, same⟩
  | cons first front induction =>
      rcases same with _ | ⟨token, same⟩
      rcases induction same with ⟨start, rest, rfl, here, later⟩
      exact ⟨_ :: start, rest, rfl, .cons token here, later⟩

theorem begins_iff (same : SameTokens sentence other) {words : List String} :
    Begins words other ↔ Begins words sentence := by
  have cons (lexeme : Lexeme) (rest : List Lexeme) :
      Begins words (lexeme :: rest) ↔ ∃ word ∈ words, lexeme.token = .ident word := by
    constructor
    · rintro ⟨first, others, split, named⟩
      cases split
      exact named
    · exact fun named => ⟨lexeme, rest, rfl, named⟩
  cases same with
  | nil => exact Iff.rfl
  | cons token same => rw [cons, cons, token]

end SameTokens

variable {α β : Type}

/-- Other lexemes of the same tokens stand for a value that is the same when bare. -/
def Retells (production : Production α) (bare : α → β) (sentence : List Lexeme) (value : α) :
    Prop :=
  ∀ ⦃other⦄, SameTokens sentence other → ∃ again, production other again ∧ bare again = bare value

def Retold (production : Production α) (bare : α → β) : Prop :=
  ∀ ⦃sentence value⦄, production sentence value → Retells production bare sentence value

/-! ## Combinations -/

section

variable {element : Production α} {bare : α → β}

theorem Many.retells {sentence : List Lexeme} {values : List α}
    (many : Many element sentence values)
    (each : ∀ part value, part <:+: sentence → element part value →
      Retells element bare part value) :
    Retells (Many element) (List.map bare) sentence values := by
  induction many with
  | none =>
      rintro _ (_ | _)
      exact ⟨[], .none, rfl⟩
  | @more front back value values first rest induction =>
      intro other same
      rcases SameTokens.split same with ⟨start, others, rfl, here, later⟩
      have firstInside : front <:+: front ++ back := (List.prefix_append front back).isInfix
      have restInside : back <:+: front ++ back := (List.suffix_append front back).isInfix
      rcases each front value firstInside first here with ⟨again, told, equal⟩
      rcases induction (fun part value inside => each part value (inside.trans restInside)) later
        with ⟨more, told', equals⟩
      exact ⟨again :: more, .more told told', by rw [List.map_cons, List.map_cons, equal, equals]⟩

theorem Many.retold (each : Retold element bare) : Retold (Many element) (List.map bare) :=
  fun _ _ many => many.retells fun _ _ _ written => each written

theorem After.retold {token : Token} (inner : Retold element bare) :
    Retold (After token element) bare := by
  rintro _ _ ⟨first, rest⟩ _ (_ | ⟨same, later⟩)
  rcases inner rest later with ⟨again, told, equal⟩
  exact ⟨again, .intro (same.symm.trans first) told, equal⟩

theorem Separated.retold {separator : Token} (each : Retold element bare) :
    Retold (Separated separator element) (List.map bare) := by
  rintro _ _ ⟨first, rest⟩ other same
  rcases SameTokens.split same with ⟨start, others, rfl, here, later⟩
  rcases each first here with ⟨again, told, equal⟩
  rcases Many.retold (After.retold each) rest later with ⟨more, told', equals⟩
  exact ⟨again :: more, .intro told told', by rw [List.map_cons, List.map_cons, equal, equals]⟩

end

/-! ## Names and literals -/

theorem Name.retold : Retold Name Ident.bare := by
  rintro _ _ ⟨token⟩ _ (_ | ⟨same, _ | _⟩)
  exact ⟨_, .intro (same.symm.trans token), rfl⟩

theorem DottedName.retold : Retold DottedName Syntax.DottedName.bare := by
  rintro _ _ ⟨name, more⟩ other same
  rcases SameTokens.split same with ⟨start, others, rfl, here, later⟩
  rcases name.retold here with ⟨first, told, equal⟩
  rcases Many.retold (After.retold Name.retold) more later with ⟨rest, told', equals⟩
  exact ⟨⟨first, rest⟩, .intro told told', congrArg₂ Syntax.DottedName.mk equal equals⟩

theorem TypeName.retold : Retold TypeName Syntax.TypeName.bare := by
  rintro _ _ (inner | ⟨first, inner⟩) other same
  · rcases inner.retold same with ⟨name, told, equal⟩
    exact ⟨⟨none, name⟩, .relative told, congrArg (Syntax.TypeName.mk none) equal⟩
  · rcases same with _ | ⟨dot, same⟩
    rcases inner.retold same with ⟨name, told, equal⟩
    exact ⟨⟨_, name⟩, .absolute (dot.symm.trans first) told,
      congrArg (Syntax.TypeName.mk (some nowhere)) equal⟩

theorem StringText.retold : Retold StringText fun text => (text.1, nowhere) := by
  rintro _ _ ⟨token⟩ _ (_ | ⟨same, _ | _⟩)
  exact ⟨_, .intro (same.symm.trans token), rfl⟩

theorem PositiveInt.retold : Retold PositiveInt IntLiteral.bare := by
  rintro _ _ ⟨token⟩ _ (_ | ⟨same, _ | _⟩)
  exact ⟨_, .intro (same.symm.trans token), rfl⟩

theorem SignedInt.retold : Retold SignedInt IntLiteral.bare := by
  rintro _ _ (inner | ⟨minus, token⟩) other same
  · rcases inner.retold same with ⟨literal, told, equal⟩
    exact ⟨literal, .plain told, equal⟩
  · rcases same with _ | ⟨sign, _ | ⟨same, _ | _⟩⟩
    exact ⟨_, .negative (sign.symm.trans minus) (same.symm.trans token), rfl⟩

/-! ## Ranges -/

theorem NumberRange.retold {number : Production IntLiteral}
    (each : Retold number IntLiteral.bare) :
    Retold (NumberRange number) Syntax.NumberRange.bare := by
  rintro _ _ (bound | ⟨lower, word, upper⟩ | ⟨lower, word, keyword⟩) other same
  · rcases each bound same with ⟨start, told, equal⟩
    exact ⟨_, .single told, congrArg (Syntax.NumberRange.mk · .single) equal⟩
  · rcases SameTokens.split same with ⟨front, _, rfl, sameLower, _ | ⟨sameWord, sameUpper⟩⟩
    rcases each lower sameLower with ⟨start, told, equal⟩
    rcases each upper sameUpper with ⟨stop, told', equals⟩
    exact ⟨_, .bounded told (sameWord.symm.trans word) told',
      congrArg₂ (fun start stop => Syntax.NumberRange.mk start (.int stop)) equal equals⟩
  · rcases SameTokens.split same with
      ⟨front, _, rfl, sameLower, _ | ⟨sameWord, _ | ⟨sameMax, _ | _⟩⟩⟩
    rcases each lower sameLower with ⟨start, told, equal⟩
    exact ⟨_, .unbounded told (sameWord.symm.trans word) (sameMax.symm.trans keyword),
      congrArg (Syntax.NumberRange.mk · (.max nowhere)) equal⟩

theorem NumberRanges.retold {number : Production IntLiteral}
    (each : Retold number IntLiteral.bare) :
    Retold (NumberRanges number) (List.map Syntax.NumberRange.bare) :=
  Separated.retold (NumberRange.retold each)

/-! ## Constants -/

theorem Magnitude.retold {negative : Bool} {span : Span} {token : Token}
    {value : Syntax.Constant} (number : Magnitude negative span token value) (place : Span) :
    ∃ again, Magnitude negative place token again ∧ again.bare = value.bare := by
  cases number with
  | int value => exact ⟨_, .int value, rfl⟩
  | float value => exact ⟨_, .float value, rfl⟩
  | infinity => exact ⟨_, .infinity, rfl⟩
  | nan => exact ⟨_, .nan, rfl⟩

theorem StringPart.retold : Retold StringPart id := by
  rintro _ _ ⟨token⟩ _ (_ | ⟨same, _ | _⟩)
  exact ⟨_, .intro (same.symm.trans token), rfl⟩

theorem Constant.retold : Retold Constant Syntax.Constant.bare := by
  intro sentence value written other same
  cases written with
  | ident inner =>
      rcases inner.retold same with ⟨name, told, equal⟩
      exact ⟨_, .ident told, congrArg Syntax.Constant.ident equal⟩
  | int token =>
      rcases same with _ | ⟨same, _ | _⟩
      exact ⟨_, .int (same.symm.trans token), rfl⟩
  | float token =>
      rcases same with _ | ⟨same, _ | _⟩
      exact ⟨_, .float (same.symm.trans token), rfl⟩
  | plus plus number =>
      rcases same with _ | ⟨sign, _ | ⟨same, _ | _⟩⟩
      rw [same] at number
      rcases number.retold _ with ⟨again, told, equal⟩
      exact ⟨again, .plus (sign.symm.trans plus) told, equal⟩
  | minus minus number =>
      rcases same with _ | ⟨sign, _ | ⟨same, _ | _⟩⟩
      rw [same] at number
      rcases number.retold _ with ⟨again, told, equal⟩
      exact ⟨again, .minus (sign.symm.trans minus) told, equal⟩
  | string token parts =>
      rcases same with _ | ⟨same, later⟩
      rcases Many.retold StringPart.retold parts later with ⟨more, told, equal⟩
      rw [List.map_id, List.map_id] at equal
      subst equal
      exact ⟨_, .string (same.symm.trans token) told, rfl⟩

/-! ## Options -/

theorem OptionNamePart.retold : Retold OptionNamePart id := by
  intro sentence value written other same
  cases written with
  | name token =>
      rcases same with _ | ⟨same, _ | _⟩
      exact ⟨_, .name (same.symm.trans token), rfl⟩
  | extension opens inner closes =>
      rcases same with _ | ⟨sameOpen, same⟩
      rcases SameTokens.split same with ⟨inside, _, rfl, sameName, _ | ⟨sameClose, _ | _⟩⟩
      rcases inner.retold sameName with ⟨name, told, equal⟩
      refine ⟨_, .extension (sameOpen.symm.trans opens) told (sameClose.symm.trans closes), ?_⟩
      rw [Syntax.DottedName.text_congr equal]
  | absolute opens first inner closes =>
      rcases same with _ | ⟨sameOpen, _ | ⟨sameDot, same⟩⟩
      rcases SameTokens.split same with ⟨inside, _, rfl, sameName, _ | ⟨sameClose, _ | _⟩⟩
      rcases inner.retold sameName with ⟨name, told, equal⟩
      refine ⟨_, .absolute (sameOpen.symm.trans opens) (sameDot.symm.trans first) told
        (sameClose.symm.trans closes), ?_⟩
      rw [Syntax.DottedName.text_congr equal]

theorem OptionEntry.retold : Retold OptionEntry Syntax.OptionEntry.bare := by
  rintro _ _ ⟨name, sign, inner⟩ other same
  rcases SameTokens.split same with ⟨front, _, rfl, sameName, _ | ⟨sameSign, sameValue⟩⟩
  rcases Separated.retold OptionNamePart.retold name sameName with ⟨parts, told, equal⟩
  rcases inner.retold sameValue with ⟨value, told', equals⟩
  rw [List.map_id, List.map_id] at equal
  subst equal
  exact ⟨_, .intro told (sameSign.symm.trans sign) told',
    congrArg (Syntax.OptionEntry.mk _ nowhere · nowhere) equals⟩

theorem OptionStatement.retold : Retold OptionStatement Syntax.OptionEntry.bare := by
  rintro _ _ ⟨word, inner, closes⟩ _ (_ | ⟨sameWord, same⟩)
  rcases SameTokens.split same with ⟨front, _, rfl, sameEntry, _ | ⟨sameClose, _ | _⟩⟩
  rcases inner.retold sameEntry with ⟨entry, told, equal⟩
  exact ⟨_, .intro (sameWord.symm.trans word) told (sameClose.symm.trans closes), equal⟩

theorem OptionList.retold : Retold OptionList (List.map Syntax.OptionEntry.bare) := by
  rintro _ _ ⟨opens, inner, closes⟩ _ (_ | ⟨sameOpen, same⟩)
  rcases SameTokens.split same with ⟨front, _, rfl, sameEntries, _ | ⟨sameClose, _ | _⟩⟩
  rcases Separated.retold OptionEntry.retold inner sameEntries with ⟨entries, told, equal⟩
  exact ⟨entries, .intro (sameOpen.symm.trans opens) told (sameClose.symm.trans closes), equal⟩

theorem Options.retold : Retold Options (List.map Syntax.OptionEntry.bare) := by
  rintro _ _ (_ | inner) other same
  · cases same
    exact ⟨[], .none, rfl⟩
  · rcases inner.retold same with ⟨entries, told, equal⟩
    exact ⟨entries, .list told, equal⟩

/-! ## Fields -/

/-- A label without its place. -/
def bareLabel : Option (FieldLabel × Span) → Option (FieldLabel × Span) :=
  Option.map fun label => (label.1, nowhere)

theorem Label.retold : Retold Label bareLabel := by
  rintro _ _ (_ | word | word | word) other same
  · cases same
    exact ⟨Option.none, .none, rfl⟩
  · rcases same with _ | ⟨same, _ | _⟩
    exact ⟨_, .optional (same.symm.trans word), rfl⟩
  · rcases same with _ | ⟨same, _ | _⟩
    exact ⟨_, .required (same.symm.trans word), rfl⟩
  · rcases same with _ | ⟨same, _ | _⟩
    exact ⟨_, .repeated (same.symm.trans word), rfl⟩

theorem FieldType.retold : Retold FieldType Syntax.FieldType.bare := by
  rintro _ _ (⟨inner, allowed⟩ | ⟨word, opens, left, separates, right, closes⟩) other same
  · rcases inner.retold same with ⟨name, told, equal⟩
    exact ⟨_, .named told (mt same.begins_iff.mp allowed), congrArg Syntax.FieldType.named equal⟩
  · rcases same with _ | ⟨sameWord, _ | ⟨sameOpen, same⟩⟩
    rcases SameTokens.split same with ⟨front, _, rfl, sameKey, _ | ⟨sameComma, later⟩⟩
    rcases SameTokens.split later with ⟨back, _, rfl, sameValue, _ | ⟨sameClose, _ | _⟩⟩
    rcases left.retold sameKey with ⟨key, told, equal⟩
    rcases right.retold sameValue with ⟨value, told', equals⟩
    exact ⟨_, .map (sameWord.symm.trans word) (sameOpen.symm.trans opens) told
        (sameComma.symm.trans separates) told' (sameClose.symm.trans closes),
      congrArg₂ (Syntax.FieldType.map · · nowhere) equal equals⟩

theorem Field.retold : Retold Field Syntax.Field.bare := by
  rintro _ _ ⟨first, kind, unlabelled, called, sign, value, list, closes, rfl⟩ other same
  rcases SameTokens.split same with ⟨labelled, _, rfl, sameLabel, same⟩
  rcases SameTokens.split same with ⟨typed, _, rfl, sameType, same⟩
  rcases SameTokens.split same with ⟨named, _, rfl, sameName, _ | ⟨sameSign, later⟩⟩
  rcases SameTokens.split later with ⟨numbered, _, rfl, sameNumber, same⟩
  rcases SameTokens.split same with ⟨listed, _, rfl, sameList, _ | ⟨sameClose, _ | _⟩⟩
  rcases first.retold sameLabel with ⟨label, labels, equalLabel⟩
  rcases kind.retold sameType with ⟨type, types, equalType⟩
  rcases called.retold sameName with ⟨name, names, equalName⟩
  rcases value.retold sameNumber with ⟨number, numbers, equalNumber⟩
  rcases list.retold sameList with ⟨options, lists, equalOptions⟩
  refine ⟨_, .intro labels types ?_ names (sameSign.symm.trans sign) numbers lists
    (sameClose.symm.trans closes) rfl, ?_⟩
  · rintro rfl
    exact mt sameType.begins_iff.mp (unlabelled (Option.map_eq_none_iff.mp equalLabel.symm))
  · rw [bareLabel] at equalLabel
    simp only [Syntax.Field.bare, equalLabel, equalType, equalName, equalNumber, equalOptions]

/-! ## Bodies -/

section

variable {entry : Production Parser.Entry}

theorem Element.retells {sentence : List Lexeme} {value : Parser.Entry}
    (element : Element entry sentence value)
    (inner : entry sentence value → Retells entry Parser.Entry.bare sentence value) :
    Retells (Element entry) Parser.Entry.bare sentence value := by
  cases element with
  | blank token =>
      rintro _ (_ | ⟨same, _ | _⟩)
      exact ⟨.blank, .blank (same.symm.trans token), rfl⟩
  | entry written =>
      intro other same
      rcases inner written same with ⟨again, told, equal⟩
      exact ⟨again, .entry told, equal⟩

/-- An entry inside a body is shorter than the body. -/
theorem Body.retells {sentence : List Lexeme} {entries : List Parser.Entry}
    (body : Body entry sentence entries)
    (each : ∀ part value, part.length < sentence.length → entry part value →
      Retells entry Parser.Entry.bare part value) :
    Retells (Body entry) (List.map Parser.Entry.bare) sentence entries := by
  rcases body with @⟨open_, close, inside, _, opens, inner, closes⟩
  rintro _ (_ | ⟨sameOpen, same⟩)
  rcases SameTokens.split same with ⟨start, _, rfl, sameInside, _ | ⟨sameClose, _ | _⟩⟩
  have told : Retells (Many (Element entry)) (List.map Parser.Entry.bare) inside entries := by
    refine inner.retells fun part value infix_ element => element.retells ?_
    refine each part value ?_
    have shorter := infix_.length_le
    simp only [List.length_cons, List.length_append]
    omega
  rcases told sameInside with ⟨again, many, equal⟩
  exact ⟨again, .intro (sameOpen.symm.trans opens) many (sameClose.symm.trans closes), equal⟩

theorem Body.retold (each : Retold entry Parser.Entry.bare) :
    Retold (Body entry) (List.map Parser.Entry.bare) :=
  fun _ _ body => body.retells fun _ _ _ written => each written

end

/-! ## Reserved numbers and names -/

theorem QuotedName.retold : Retold QuotedName Ident.bare := by
  rintro _ _ ⟨inner⟩ other same
  rcases inner.retold same with ⟨⟨name, span⟩, told, equal⟩
  exact ⟨_, .intro told, congrArg (fun text => Ident.mk text.1 nowhere) equal⟩

theorem ReservedStatement.retold {number : Production IntLiteral}
    (each : Retold number IntLiteral.bare) :
    Retold (ReservedStatement number) Reserved.bare := by
  rintro _ _ (⟨word, inner, closes⟩ | ⟨word, inner, closes⟩) _ (_ | ⟨sameWord, same⟩)
  · rcases SameTokens.split same with ⟨front, _, rfl, sameRanges, _ | ⟨sameClose, _ | _⟩⟩
    rcases NumberRanges.retold each inner sameRanges with ⟨ranges, told, equal⟩
    exact ⟨_, .ranges (sameWord.symm.trans word) told (sameClose.symm.trans closes),
      congrArg Reserved.ranges equal⟩
  · rcases SameTokens.split same with ⟨front, _, rfl, sameNames, _ | ⟨sameClose, _ | _⟩⟩
    rcases Separated.retold QuotedName.retold inner sameNames with ⟨names, told, equal⟩
    exact ⟨_, .names (sameWord.symm.trans word) told (sameClose.symm.trans closes),
      congrArg Reserved.names equal⟩

theorem ExtensionsStatement.retold : Retold ExtensionsStatement ExtensionRanges.bare := by
  rintro _ _ ⟨word, inner, list, closes⟩ _ (_ | ⟨sameWord, same⟩)
  rcases SameTokens.split same with ⟨front, _, rfl, sameRanges, same⟩
  rcases SameTokens.split same with ⟨back, _, rfl, sameList, _ | ⟨sameClose, _ | _⟩⟩
  rcases NumberRanges.retold PositiveInt.retold inner sameRanges with ⟨ranges, told, equal⟩
  rcases list.retold sameList with ⟨options, told', equals⟩
  exact ⟨_, .intro (sameWord.symm.trans word) told told' (sameClose.symm.trans closes),
    congrArg₂ (ExtensionRanges.mk · · nowhere) equal equals⟩

/-! ## Enums -/

theorem EnumValue.retold : Retold EnumValue Syntax.EnumValue.bare := by
  rintro _ _ ⟨called, sign, value, list, closes, rfl⟩ other same
  rcases SameTokens.split same with ⟨named, _, rfl, sameName, _ | ⟨sameSign, later⟩⟩
  rcases SameTokens.split later with ⟨numbered, _, rfl, sameNumber, same⟩
  rcases SameTokens.split same with ⟨listed, _, rfl, sameList, _ | ⟨sameClose, _ | _⟩⟩
  rcases called.retold sameName with ⟨name, names, equalName⟩
  rcases value.retold sameNumber with ⟨number, numbers, equalNumber⟩
  rcases list.retold sameList with ⟨options, lists, equalOptions⟩
  refine ⟨_, .intro names (sameSign.symm.trans sign) numbers lists
    (sameClose.symm.trans closes) rfl, ?_⟩
  simp only [Syntax.EnumValue.bare, equalName, equalNumber, equalOptions]

theorem EnumEntry.retold : Retold EnumEntry Parser.Entry.bare := by
  rintro _ _ (inner | inner | ⟨inner, allowed⟩) other same
  · rcases inner.retold same with ⟨option, told, equal⟩
    exact ⟨_, .option told, congrArg Parser.Entry.option equal⟩
  · rcases ReservedStatement.retold SignedInt.retold inner same with ⟨reserved, told, equal⟩
    exact ⟨_, .reserved told, congrArg Parser.Entry.reserved equal⟩
  · rcases inner.retold same with ⟨value, told, equal⟩
    exact ⟨_, .value told (mt same.begins_iff.mp allowed), congrArg Parser.Entry.value equal⟩

theorem Enum.retold : Retold Enum Syntax.Enum.bare := by
  rintro _ _ ⟨word, called, body, rfl⟩ _ (_ | ⟨sameWord, same⟩)
  rcases SameTokens.split same with ⟨named, inside, rfl, sameName, sameBody⟩
  rcases called.retold sameName with ⟨name, names, equalName⟩
  rcases Body.retold EnumEntry.retold body sameBody with ⟨entries, told, equal⟩
  refine ⟨_, .intro (sameWord.symm.trans word) names told rfl, ?_⟩
  simp only [Syntax.Enum.bare, equalName, filterMap_congr_bare Parser.Entry.value?_bare equal,
    filterMap_congr_bare Parser.Entry.option?_bare equal,
    filterMap_congr_bare Parser.Entry.reserved?_bare equal]

/-! ## Services -/

theorem MethodType.retold : Retold MethodType fun type => (type.1.bare, type.2) := by
  rintro _ _ (⟨opens, inner, allowed, closes⟩ | ⟨opens, word, inner, closes⟩) _
    (_ | ⟨sameOpen, same⟩)
  · rcases SameTokens.split same with ⟨inside, _, rfl, sameType, _ | ⟨sameClose, _ | _⟩⟩
    rcases inner.retold sameType with ⟨type, told, equal⟩
    exact ⟨_, .single (sameOpen.symm.trans opens) told (mt sameType.begins_iff.mp allowed)
      (sameClose.symm.trans closes), congrArg (·, false) equal⟩
  · rcases same with _ | ⟨sameWord, same⟩
    rcases SameTokens.split same with ⟨inside, _, rfl, sameType, _ | ⟨sameClose, _ | _⟩⟩
    rcases inner.retold sameType with ⟨type, told, equal⟩
    exact ⟨_, .streamed (sameOpen.symm.trans opens) (sameWord.symm.trans word) told
      (sameClose.symm.trans closes), congrArg (·, true) equal⟩

theorem MethodEntry.retold : Retold MethodEntry Parser.Entry.bare := by
  rintro _ _ ⟨inner⟩ other same
  rcases inner.retold same with ⟨option, told, equal⟩
  exact ⟨_, .option told, congrArg Parser.Entry.option equal⟩

theorem MethodEnd.retold : Retold MethodEnd (List.map Syntax.OptionEntry.bare) := by
  rintro _ _ (token | inner) other same
  · rcases same with _ | ⟨same, _ | _⟩
    exact ⟨[], .plain (same.symm.trans token), rfl⟩
  · rcases Body.retold MethodEntry.retold inner same with ⟨entries, told, equal⟩
    exact ⟨_, .body told, filterMap_congr_bare Parser.Entry.option?_bare equal⟩

theorem Method.retold : Retold Method Syntax.Method.bare := by
  rintro _ _ ⟨word, called, takes, between, gives, ends, rfl⟩ _ (_ | ⟨sameWord, same⟩)
  rcases SameTokens.split same with ⟨named, _, rfl, sameName, same⟩
  rcases SameTokens.split same with ⟨taken, _, rfl, sameTaken, _ | ⟨sameReturns, later⟩⟩
  rcases SameTokens.split later with ⟨given, ended, rfl, sameGiven, sameEnd⟩
  rcases called.retold sameName with ⟨name, names, equalName⟩
  rcases takes.retold sameTaken with ⟨⟨input, clientStreaming⟩, inputs, equalInput⟩
  rcases gives.retold sameGiven with ⟨⟨output, serverStreaming⟩, outputs, equalOutput⟩
  rcases ends.retold sameEnd with ⟨options, lists, equalOptions⟩
  rcases Prod.mk.inj equalInput with ⟨equalInput, rfl⟩
  rcases Prod.mk.inj equalOutput with ⟨equalOutput, rfl⟩
  refine ⟨_, .intro (sameWord.symm.trans word) names inputs (sameReturns.symm.trans between)
    outputs lists rfl, ?_⟩
  simp only [Syntax.Method.bare, equalName, equalInput, equalOutput, equalOptions]

theorem ServiceEntry.retold : Retold ServiceEntry Parser.Entry.bare := by
  rintro _ _ (inner | inner) other same
  · rcases inner.retold same with ⟨method, told, equal⟩
    exact ⟨_, .method told, congrArg Parser.Entry.method equal⟩
  · rcases inner.retold same with ⟨option, told, equal⟩
    exact ⟨_, .option told, congrArg Parser.Entry.option equal⟩

theorem Service.retold : Retold Service Syntax.Service.bare := by
  rintro _ _ ⟨word, called, body, rfl⟩ _ (_ | ⟨sameWord, same⟩)
  rcases SameTokens.split same with ⟨named, inside, rfl, sameName, sameBody⟩
  rcases called.retold sameName with ⟨name, names, equalName⟩
  rcases Body.retold ServiceEntry.retold body sameBody with ⟨entries, told, equal⟩
  refine ⟨_, .intro (sameWord.symm.trans word) names told rfl, ?_⟩
  simp only [Syntax.Service.bare, equalName, filterMap_congr_bare Parser.Entry.method?_bare equal,
    filterMap_congr_bare Parser.Entry.option?_bare equal]

/-! ## Messages and what they hold -/

theorem ExtendEntry.retold : Retold ExtendEntry Parser.Entry.bare := by
  rintro _ _ ⟨inner⟩ other same
  rcases inner.retold same with ⟨field, told, equal⟩
  exact ⟨_, .field told, congrArg Parser.Entry.field equal⟩

theorem Extend.retold : Retold Extend Syntax.Extend.bare := by
  rintro _ _ ⟨word, extended, body, rfl⟩ _ (_ | ⟨sameWord, same⟩)
  rcases SameTokens.split same with ⟨typed, inside, rfl, sameType, sameBody⟩
  rcases extended.retold sameType with ⟨extendee, types, equalType⟩
  rcases Body.retold ExtendEntry.retold body sameBody with ⟨entries, told, equal⟩
  refine ⟨_, .intro (sameWord.symm.trans word) types told rfl, ?_⟩
  simp only [Syntax.Extend.bare, equalType, filterMap_congr_bare Parser.Entry.field?_bare equal]

theorem OneofEntry.retold : Retold OneofEntry Parser.Entry.bare := by
  rintro _ _ (inner | ⟨inner, allowed⟩) other same
  · rcases inner.retold same with ⟨option, told, equal⟩
    exact ⟨_, .option told, congrArg Parser.Entry.option equal⟩
  · rcases inner.retold same with ⟨field, told, equal⟩
    exact ⟨_, .field told (mt same.begins_iff.mp allowed), congrArg Parser.Entry.field equal⟩

theorem Oneof.retold : Retold Oneof Syntax.Oneof.bare := by
  rintro _ _ ⟨word, called, body, rfl⟩ _ (_ | ⟨sameWord, same⟩)
  rcases SameTokens.split same with ⟨named, inside, rfl, sameName, sameBody⟩
  rcases called.retold sameName with ⟨name, names, equalName⟩
  rcases Body.retold OneofEntry.retold body sameBody with ⟨entries, told, equal⟩
  refine ⟨_, .intro (sameWord.symm.trans word) names told rfl, ?_⟩
  simp only [Syntax.Oneof.bare, equalName, filterMap_congr_bare Parser.Entry.field?_bare equal,
    filterMap_congr_bare Parser.Entry.option?_bare equal]

/-- An entry of a message, if the messages in it can be told again. -/
theorem MessageEntry.retells {sentence : List Lexeme} {entry : Parser.Entry}
    (written : MessageEntry sentence entry)
    (inside : ∀ message, Message sentence message →
      Retells Message Syntax.Message.bare sentence message) :
    Retells MessageEntry Parser.Entry.bare sentence entry := by
  intro other same
  cases written with
  | message inner =>
      rcases inside _ inner same with ⟨again, told, equal⟩
      exact ⟨_, .message told, congrArg (Parser.Entry.item <| .message ·) equal⟩
  | enum inner =>
      rcases inner.retold same with ⟨again, told, equal⟩
      exact ⟨_, .enum told, congrArg (Parser.Entry.item <| .enum ·) equal⟩
  | extend inner =>
      rcases inner.retold same with ⟨again, told, equal⟩
      exact ⟨_, .extend told, congrArg (Parser.Entry.item <| .extend ·) equal⟩
  | oneof inner =>
      rcases inner.retold same with ⟨again, told, equal⟩
      exact ⟨_, .oneof told, congrArg (Parser.Entry.item <| .oneof ·) equal⟩
  | option inner =>
      rcases inner.retold same with ⟨again, told, equal⟩
      exact ⟨_, .option told, congrArg Parser.Entry.option equal⟩
  | reserved inner =>
      rcases ReservedStatement.retold PositiveInt.retold inner same with ⟨again, told, equal⟩
      exact ⟨_, .reserved told, congrArg Parser.Entry.reserved equal⟩
  | extensions inner =>
      rcases inner.retold same with ⟨again, told, equal⟩
      exact ⟨_, .extensions told, congrArg Parser.Entry.extensions equal⟩
  | field inner allowed =>
      rcases inner.retold same with ⟨again, told, equal⟩
      exact ⟨_, .field told (mt same.begins_iff.mp allowed),
        congrArg (Parser.Entry.item <| .field ·) equal⟩

theorem Message.retold : Retold Message Syntax.Message.bare := by
  intro sentence message written
  refine Message.induction_on_length ?_ written
  rintro _ _ @⟨keyword, named, inside, name, entries, word, called, body, _, rfl⟩ induction _
    (_ | ⟨sameWord, same⟩)
  simp only [List.length_cons, List.length_append] at induction
  rcases SameTokens.split same with ⟨named, inside, rfl, sameName, sameBody⟩
  rcases called.retold sameName with ⟨name, names, equalName⟩
  have told := body.retells fun part entry shorter written =>
    written.retells fun message => induction part message (by omega)
  rcases told sameBody with ⟨entries, told, equal⟩
  refine ⟨_, .intro (sameWord.symm.trans word) names told rfl, ?_⟩
  simp only [Syntax.Message.bare, MessageItem.bareAll_eq_map, equalName,
    filterMap_congr_bare Parser.Entry.item?_bare equal,
    filterMap_congr_bare Parser.Entry.option?_bare equal,
    filterMap_congr_bare Parser.Entry.extensions?_bare equal,
    filterMap_congr_bare Parser.Entry.reserved?_bare equal]

/-! ## Files -/

theorem VersionStatement.retold : Retold VersionStatement fun version => (version.1, nowhere) := by
  rintro _ _ ⟨word, sign, text, closes⟩ _
    (_ | ⟨sameWord, _ | ⟨sameSign, _ | ⟨sameText, _ | ⟨sameClose, _ | _⟩⟩⟩⟩)
  exact ⟨_, .intro (sameWord.symm.trans word) (sameSign.symm.trans sign)
    (sameText.symm.trans text) (sameClose.symm.trans closes), rfl⟩

theorem PackageStatement.retold : Retold PackageStatement Package.bare := by
  rintro _ _ ⟨word, inner, closes⟩ _ (_ | ⟨sameWord, same⟩)
  rcases SameTokens.split same with ⟨front, _, rfl, sameName, _ | ⟨sameClose, _ | _⟩⟩
  rcases inner.retold sameName with ⟨name, told, equal⟩
  exact ⟨_, .intro (sameWord.symm.trans word) told (sameClose.symm.trans closes),
    congrArg (Package.mk · nowhere) equal⟩

theorem Modifier.retold : Retold Modifier id := by
  rintro _ _ (_ | word | word) other same
  · cases same
    exact ⟨Option.none, .none, rfl⟩
  · rcases same with _ | ⟨same, _ | _⟩
    exact ⟨_, .weak (same.symm.trans word), rfl⟩
  · rcases same with _ | ⟨same, _ | _⟩
    exact ⟨_, .reexport (same.symm.trans word), rfl⟩

theorem ImportStatement.retold : Retold ImportStatement Import.bare := by
  rintro _ _ ⟨word, how, text, closes⟩ _ (_ | ⟨sameWord, same⟩)
  rcases SameTokens.split same with ⟨front, _, rfl, sameModifier, same⟩
  rcases SameTokens.split same with ⟨back, _, rfl, sameText, _ | ⟨sameClose, _ | _⟩⟩
  rcases how.retold sameModifier with ⟨modifier, modifiers, equal⟩
  rcases text.retold sameText with ⟨⟨file, span⟩, told, equals⟩
  exact ⟨_, .intro (sameWord.symm.trans word) modifiers told (sameClose.symm.trans closes),
    congrArg₂ (fun (modifier : Option ImportModifier) (text : String × Span) =>
      Import.mk modifier text.1 nowhere nowhere) equal equals⟩

theorem Statement.retold : Retold Statement Parser.Statement.bare := by
  intro sentence statement written other same
  cases written with
  | blank token =>
      rcases same with _ | ⟨same, _ | _⟩
      exact ⟨.blank, .blank (same.symm.trans token), rfl⟩
  | import_ inner =>
      rcases inner.retold same with ⟨again, told, equal⟩
      exact ⟨_, .import_ told, congrArg Parser.Statement.import_ equal⟩
  | package inner =>
      rcases inner.retold same with ⟨again, told, equal⟩
      exact ⟨_, .package told, congrArg Parser.Statement.package equal⟩
  | option inner =>
      rcases inner.retold same with ⟨again, told, equal⟩
      exact ⟨_, .option told, congrArg Parser.Statement.option equal⟩
  | message inner =>
      rcases inner.retold same with ⟨again, told, equal⟩
      exact ⟨_, .message told, congrArg (Parser.Statement.item <| .message ·) equal⟩
  | enum inner =>
      rcases inner.retold same with ⟨again, told, equal⟩
      exact ⟨_, .enum told, congrArg (Parser.Statement.item <| .enum ·) equal⟩
  | service inner =>
      rcases inner.retold same with ⟨again, told, equal⟩
      exact ⟨_, .service told, congrArg (Parser.Statement.item <| .service ·) equal⟩
  | extend inner =>
      rcases inner.retold same with ⟨again, told, equal⟩
      exact ⟨_, .extend told, congrArg (Parser.Statement.item <| .extend ·) equal⟩

theorem Source.retold : Retold Source Outline.bare := by
  rintro _ _ (inner | ⟨first, inner⟩) other same
  · rcases Many.retold Statement.retold inner same with ⟨statements, told, equal⟩
    exact ⟨_, .plain told, congrArg (Outline.mk none) equal⟩
  · rcases SameTokens.split same with ⟨front, back, rfl, sameVersion, same⟩
    rcases first.retold sameVersion with ⟨version, told, equal⟩
    rcases Many.retold Statement.retold inner same with ⟨statements, told', equals⟩
    exact ⟨_, .versioned told told',
      congrArg₂ (fun version => Outline.mk (some version)) equal equals⟩

end ProtoSchema.Syntax.Grammar
