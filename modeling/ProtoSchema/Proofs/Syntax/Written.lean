import ProtoSchema.Proofs.Syntax.Literals
/-! # Numbers that are written

The numbers of an accepted source are numerals in its text, with the signs before them. Those
of fields and enum values are written after their names, those of ranges after a word or a
comma, and those of options after the names of the options.
-/

namespace ProtoSchema.Syntax

/-! ## Integers among lexemes -/

/-- Some lexemes of a source write an integer: a numeral, before which a sign may stand. -/
inductive IntLiteral.WrittenAs (source : String) : IntLiteral → List Lexeme → Prop
  | plain {number : Lexeme} {magnitude : Nat} (numeral : NumeralAt source number.span magnitude) :
      WrittenAs source ⟨false, magnitude, number.span⟩ [number]
  | signed {sign number : Lexeme} {negative : Bool} {magnitude : Nat}
      (mark : sign.token = .mark (if negative then .minus else .plus))
      (text : ∃ after, TextAt source sign.span [if negative then '-' else '+'] after)
      (numeral : NumeralAt source number.span magnitude) :
      WrittenAs source ⟨negative, magnitude, spanOf [sign, number]⟩ [sign, number]

/-- Some lexemes of a source, which do not end with a minus sign, are followed by those that
write an integer. -/
structure IntLiteral.WrittenAfter (source : String) (front : List Lexeme)
    (literal : IntLiteral) : Prop where
  written : ∃ sentence, front ++ sentence <:+: (lex source).lexemes ∧
    literal.WrittenAs source sentence
  unsigned : ∀ last ∈ front.getLast?, last.token ≠ .mark .minus

/-- The number of a field or an enum value is written after its name and an equals sign. -/
def IntLiteral.GivenTo (source : String) (name : Ident) (literal : IntLiteral) : Prop :=
  ∃ named equals, named.token = .ident name.name ∧ named.span = name.span ∧
    equals.token = .mark .equals ∧ literal.WrittenAfter source [named, equals]

/-- The bounds of a range are written in a source. -/
structure NumberRange.Written (source : String) (range : NumberRange) : Prop where
  start : ∃ before, range.start.WrittenAfter source [before]
  stop : ∀ stop, range.stop = .int stop → ∃ before, stop.WrittenAfter source [before]

/-- If the value of an option is an integer, it is written after the name of the option and an
equals sign. -/
def OptionEntry.Written (source : String) (entry : OptionEntry) : Prop :=
  ∀ literal, entry.value = .int literal → ∃ front equals, spanOf front = entry.nameSpan ∧
    equals.token = .mark .equals ∧ literal.WrittenAfter source (front ++ [equals])

/-! ## Integers of declarations -/

structure Field.Written (source : String) (field : Field) : Prop where
  number : field.number.GivenTo source field.name
  options : ∀ entry ∈ field.options, entry.Written source

structure EnumValue.Written (source : String) (value : EnumValue) : Prop where
  number : value.number.GivenTo source value.name
  options : ∀ entry ∈ value.options, entry.Written source

/-- The ranges of a `reserved` statement; none if it names names. -/
def Reserved.numbers : Reserved → List NumberRange
  | ranges numbers => numbers
  | names _ => []

structure Oneof.Written (source : String) (oneof : Oneof) : Prop where
  fields : ∀ field ∈ oneof.fields, field.Written source
  options : ∀ entry ∈ oneof.options, entry.Written source

structure Message.Written (source : String) (message : Message) : Prop where
  fields : ∀ field ∈ message.fields, field.Written source
  oneofs : ∀ oneof ∈ message.oneofs, oneof.Written source
  options : ∀ entry ∈ message.options, entry.Written source
  extensions : ∀ statement ∈ message.extensions, ∀ range ∈ statement.ranges, range.Written source
  reserved : ∀ statement ∈ message.reserved, ∀ range ∈ statement.numbers, range.Written source

structure Enum.Written (source : String) (enum : Enum) : Prop where
  values : ∀ value ∈ enum.values, value.Written source
  options : ∀ entry ∈ enum.options, entry.Written source
  reserved : ∀ statement ∈ enum.reserved, ∀ range ∈ statement.numbers, range.Written source

def Extend.Written (source : String) (extend : Extend) : Prop :=
  ∀ field ∈ extend.fields, field.Written source

structure Service.Written (source : String) (service : Service) : Prop where
  options : ∀ entry ∈ service.options, entry.Written source
  methods : ∀ method ∈ service.methods, ∀ entry ∈ method.options, entry.Written source

/-- All numbers of a tree are written in a source. -/
structure File.Written (source : String) (file : File) : Prop where
  messages : ∀ message ∈ file.messages, message.Written source
  enums : ∀ enum ∈ file.enums, enum.Written source
  extensions : ∀ extend ∈ file.extends_, extend.Written source
  services : ∀ service ∈ file.services, service.Written source
  options : ∀ entry ∈ file.options, entry.Written source

/-! ## Marks -/

/-- A mark in a source is its character. -/
theorem textAt_of_mark {source : String} {lexeme : Lexeme}
    (member : lexeme ∈ (lex source).lexemes) {symbol : Punctuation}
    (token : lexeme.token = .mark symbol) :
    ∃ after, TextAt source lexeme.span [symbol.char] after := by
  rcases Lexer.exists_readAt_of_mem_lexemes member with
    ⟨before, first, rest, piece, read, content, place⟩
  rw [read.span, Nat.zero_add] at place
  rw [read.content, token, Nat.zero_add] at content
  rcases Lexer.eq_char_of_readPiece content with ⟨rfl, single⟩
  rw [single] at place
  exact ⟨rest, before, read.split, place.symm⟩

namespace Grammar

variable {source : String} {sentence : List Lexeme} {literal : IntLiteral}

/-! ## Integers -/

/-- What a production of integers derives from lexemes of a source is written as them. -/
def Spells (source : String) (number : Production IntLiteral) : Prop :=
  ∀ sentence literal, sentence <:+: (lex source).lexemes → number sentence literal →
    literal.WrittenAs source sentence

theorem PositiveInt.spells (clean : (lex source).errors = []) : Spells source PositiveInt := by
  rintro sentence literal inside ⟨token⟩
  exact .plain (numeralAt_of_mem_lexemes clean (inside.subset List.mem_cons_self) token)

theorem SignedInt.spells (clean : (lex source).errors = []) : Spells source SignedInt := by
  intro sentence literal inside written
  cases written with
  | plain inner => exact PositiveInt.spells clean _ _ inside inner
  | negative minus token =>
      exact .signed minus (textAt_of_mark (inside.subset List.mem_cons_self) minus)
        (numeralAt_of_mem_lexemes clean (inside.subset (by simp)) token)

theorem Constant.spells (clean : (lex source).errors = []) :
    Spells source fun sentence literal => Constant sentence (.int literal) := by
  intro sentence literal inside written
  cases written with
  | int token =>
      exact .plain (numeralAt_of_mem_lexemes clean (inside.subset List.mem_cons_self) token)
  | @plus sign number _ plus magnitude =>
      generalize token : number.token = read at magnitude
      cases magnitude
      exact .signed plus (textAt_of_mark (inside.subset List.mem_cons_self) plus)
        (numeralAt_of_mem_lexemes clean (inside.subset (by simp)) token)
  | @minus sign number _ minus magnitude =>
      generalize token : number.token = read at magnitude
      cases magnitude
      exact .signed minus (textAt_of_mark (inside.subset List.mem_cons_self) minus)
        (numeralAt_of_mem_lexemes clean (inside.subset (by simp)) token)

/-! ## Parts of sentences -/

theorem Separated.exists_of_mem {α : Type} {separator : Token} {element : Production α}
    {values : List α} (separated : Separated separator element sentence values) {value : α}
    (member : value ∈ values) : ∃ part, part <:+: sentence ∧ element part value := by
  cases separated with
  | @intro front back first others here rest =>
      rcases List.mem_cons.mp member with rfl | member
      · exact ⟨front, (List.prefix_append front back).isInfix, here⟩
      · rcases rest.exists_of_mem member with ⟨part, inside, ⟨-, written⟩⟩
        exact ⟨_, (List.suffix_cons _ _).isInfix.trans
          (inside.trans (List.suffix_append front back).isInfix), written⟩

/-- Something stands before each of the sentences that are separated: what is before all of
them, or a separator. -/
theorem Separated.exists_before {α : Type} {separator : Token} {element : Production α}
    {values : List α} {before : Lexeme}
    (separated : Separated separator element sentence values) {value : α}
    (member : value ∈ values) :
    ∃ last part, last :: part <:+: before :: sentence ∧
      (last = before ∨ last.token = separator) ∧ element part value := by
  cases separated with
  | @intro front back first others here rest =>
      rcases List.mem_cons.mp member with rfl | member
      · exact ⟨before, front, (List.prefix_append (before :: front) back).isInfix, .inl rfl, here⟩
      · rcases rest.exists_of_mem member with ⟨part, inside, ⟨comma, written⟩⟩
        exact ⟨_, _, inside.trans (List.suffix_append (before :: front) back).isInfix, .inr comma,
          written⟩

/-! ## Ranges -/

/-- An integer after a lexeme that is no minus sign. -/
theorem Spells.after {number : Production IntLiteral} (spells : Spells source number)
    {front : List Lexeme} (inside : front ++ sentence <:+: (lex source).lexemes)
    (unsigned : ∀ last ∈ front.getLast?, last.token ≠ .mark .minus)
    (written : number sentence literal) : literal.WrittenAfter source front where
  written :=
    ⟨sentence, inside,
      spells _ _ ((List.suffix_append front sentence).isInfix.trans inside) written⟩
  unsigned := unsigned

theorem NumberRange.written {number : Production IntLiteral} (spells : Spells source number)
    {before : Lexeme} (unsigned : before.token ≠ .mark .minus) {range : Syntax.NumberRange}
    (derivation : NumberRange number sentence range)
    (inside : before :: sentence <:+: (lex source).lexemes) : range.Written source := by
  have lower {front back : List Lexeme} {start : IntLiteral} (bound : number front start)
      (inside : before :: (front ++ back) <:+: (lex source).lexemes) :
      ∃ before, start.WrittenAfter source [before] :=
    ⟨before, spells.after ((List.prefix_append (before :: front) back).isInfix.trans inside)
      (by simpa using unsigned) bound⟩
  cases derivation with
  | single bound =>
      rw [← List.append_nil sentence] at inside
      exact ⟨lower bound inside, nofun⟩
  | @bounded front back between _ stop bound word upper =>
      refine ⟨lower bound inside, ?_⟩
      rintro _ ⟨⟩
      refine ⟨between, spells.after ?_ (by simp [word]) upper⟩
      exact (List.suffix_append (before :: front) (between :: back)).isInfix.trans inside
  | unbounded bound word keyword => exact ⟨lower bound inside, nofun⟩

/-- Ranges after a word. -/
theorem NumberRanges.written {number : Production IntLiteral} (spells : Spells source number)
    {keyword : Lexeme} {word : String} (token : keyword.token = .ident word)
    {ranges : List Syntax.NumberRange} (derivation : NumberRanges number sentence ranges)
    (inside : keyword :: sentence <:+: (lex source).lexemes) :
    ∀ range ∈ ranges, range.Written source := by
  intro range member
  rcases derivation.exists_before member with ⟨before, part, stands, place, written⟩
  refine NumberRange.written spells ?_ written (stands.trans inside)
  rcases place with rfl | comma
  · simp [token]
  · simp [comma]

theorem ReservedStatement.written {number : Production IntLiteral}
    (spells : Spells source number) {reserved : Reserved}
    (derivation : ReservedStatement number sentence reserved)
    (inside : sentence <:+: (lex source).lexemes) :
    ∀ range ∈ reserved.numbers, range.Written source := by
  cases derivation with
  | @ranges keyword close inner _ word numbers closes =>
      exact NumberRanges.written spells word numbers
        ((List.prefix_append (keyword :: inner) [close]).isInfix.trans inside)
  | names => exact nofun

theorem ExtensionsStatement.written (clean : (lex source).errors = [])
    {extensions : ExtensionRanges} (derivation : ExtensionsStatement sentence extensions)
    (inside : sentence <:+: (lex source).lexemes) :
    ∀ range ∈ extensions.ranges, range.Written source := by
  rcases derivation with @⟨keyword, close, front, back, ranges, options, word, numbers, list, closes⟩
  exact NumberRanges.written (PositiveInt.spells clean) word numbers
    ((List.prefix_append (keyword :: front) (back ++ [close])).isInfix.trans inside)

/-! ## Options -/

theorem OptionEntry.written (clean : (lex source).errors = []) {entry : Syntax.OptionEntry}
    (derivation : OptionEntry sentence entry) (inside : sentence <:+: (lex source).lexemes) :
    entry.Written source := by
  rcases derivation with @⟨front, back, equals, parts, value, name, sign, constant⟩
  rintro literal ⟨⟩
  have split : front ++ [equals] ++ back = front ++ equals :: back := by simp
  exact ⟨front, equals, rfl, sign, (Constant.spells clean).after (split ▸ inside)
    (by simp [sign]) constant⟩

theorem OptionStatement.written (clean : (lex source).errors = []) {entry : Syntax.OptionEntry}
    (derivation : OptionStatement sentence entry) (inside : sentence <:+: (lex source).lexemes) :
    entry.Written source := by
  rcases derivation with @⟨keyword, close, inner, entry, word, option, closes⟩
  have stands : inner <:+: keyword :: (inner ++ [close]) := ⟨[keyword], [close], rfl⟩
  exact option.written clean (stands.trans inside)

theorem Options.written (clean : (lex source).errors = []) {entries : List Syntax.OptionEntry}
    (derivation : Options sentence entries) (inside : sentence <:+: (lex source).lexemes) :
    ∀ entry ∈ entries, entry.Written source := by
  intro entry member
  cases derivation with
  | none => cases member
  | list derivation =>
      rcases derivation with @⟨open_, close, inner, entries, opens, separated, closes⟩
      rcases separated.exists_of_mem member with ⟨part, stands, option⟩
      have inBrackets : inner <:+: open_ :: (inner ++ [close]) := ⟨[open_], [close], rfl⟩
      exact option.written clean (stands.trans (inBrackets.trans inside))

/-! ## Fields and enum values -/

/-- An integer after a name and an equals sign. -/
theorem Spells.givenTo {number : Production IntLiteral} (spells : Spells source number)
    {named : List Lexeme} {name : Ident} {equals : Lexeme} (called : Name named name)
    (sign : equals.token = .mark .equals) (written : number sentence literal)
    (inside : named ++ equals :: sentence <:+: (lex source).lexemes) :
    literal.GivenTo source name := by
  rcases called with @⟨lexeme, text, token⟩
  exact ⟨lexeme, equals, token, rfl, sign, spells.after inside (by simp [sign]) written⟩

theorem Field.written (clean : (lex source).errors = []) {field : Syntax.Field}
    (derivation : Field sentence field) (inside : sentence <:+: (lex source).lexemes) :
    field.Written source := by
  rcases derivation with @⟨labelled, typed, named, numbered, listed, equals, close, _, _, _, _, _,
    label, type, unlabelled, called, sign, number, list, closes, _, rfl⟩
  have split : labelled ++ (typed ++ (named ++ equals :: (numbered ++ (listed ++ [close])))) =
      (labelled ++ typed) ++ (named ++ equals :: numbered) ++ (listed ++ [close]) := by simp
  have options : labelled ++ (typed ++ (named ++ equals :: (numbered ++ (listed ++ [close])))) =
      (labelled ++ typed ++ (named ++ equals :: numbered)) ++ listed ++ [close] := by simp
  exact
    { number := (PositiveInt.spells clean).givenTo called sign number
        (List.IsInfix.trans ⟨_, _, split.symm⟩ inside)
      options := list.written clean (List.IsInfix.trans ⟨_, _, options.symm⟩ inside) }

theorem EnumValue.written (clean : (lex source).errors = []) {value : Syntax.EnumValue}
    (derivation : EnumValue sentence value) (inside : sentence <:+: (lex source).lexemes) :
    value.Written source := by
  rcases derivation with @⟨named, numbered, listed, equals, close, _, _, _, called, sign, number,
    list, closes, _, rfl⟩
  have split : named ++ equals :: (numbered ++ (listed ++ [close])) =
      [] ++ (named ++ equals :: numbered) ++ (listed ++ [close]) := by simp
  have options : named ++ equals :: (numbered ++ (listed ++ [close])) =
      (named ++ equals :: numbered) ++ listed ++ [close] := by simp
  exact
    { number := (SignedInt.spells clean).givenTo called sign number
        (List.IsInfix.trans ⟨_, _, split.symm⟩ inside)
      options := list.written clean (List.IsInfix.trans ⟨_, _, options.symm⟩ inside) }

/-! ## Declarations -/

/-- The body of a declaration is the end of its sentence. -/
theorem inside_body {keyword : Lexeme} {named body lexemes : List Lexeme}
    (inside : keyword :: (named ++ body) <:+: lexemes) : body <:+: lexemes :=
  (List.suffix_append (keyword :: named) body).isInfix.trans inside

/-- What some entries of a body give has a property if each sentence among the lexemes that
derives such an entry makes sure of it. -/
theorem Body.forall_mem {α : Type} {entry : Production Parser.Entry}
    {entries : List Parser.Entry} {lexemes : List Lexeme} {given : Parser.Entry → Option α}
    {Holds : α → Prop} (body : Body entry sentence entries) (inside : sentence <:+: lexemes)
    (blank : given .blank = none)
    (each : ∀ part found value, part <:+: lexemes → entry part found →
      given found = some value → Holds value) :
    ∀ value ∈ entries.filterMap given, Holds value := by
  intro value member
  rcases List.mem_filterMap.mp member with ⟨found, inBody, gives⟩
  have filled : found ≠ .blank := by
    rintro rfl
    cases blank.symm.trans gives
  rcases body.exists_of_mem inBody filled with ⟨part, stands, -, derivation⟩
  exact each part found value (stands.trans inside) derivation gives

theorem Oneof.written (clean : (lex source).errors = []) {oneof : Syntax.Oneof}
    (derivation : Oneof sentence oneof) (inside : sentence <:+: (lex source).lexemes) :
    oneof.Written source := by
  rcases derivation with @⟨keyword, named, rest, name, entries, word, called, body, _, rfl⟩
  have inBody := inside_body inside
  refine ⟨body.forall_mem inBody rfl ?_, body.forall_mem inBody rfl ?_⟩
  · intro part entry field stands derivation isField
    cases derivation with
    | option => cases isField
    | field inner =>
        cases isField
        exact inner.written clean stands
  · intro part entry option stands derivation isOption
    cases derivation <;> cases isOption
    next inner => exact inner.written clean stands

theorem Extend.written (clean : (lex source).errors = []) {extend : Syntax.Extend}
    (derivation : Extend sentence extend) (inside : sentence <:+: (lex source).lexemes) :
    extend.Written source := by
  rcases derivation with @⟨keyword, typed, rest, extendee, entries, word, extended, body, _, rfl⟩
  refine body.forall_mem (inside_body inside) rfl ?_
  rintro part entry field stands ⟨inner⟩ ⟨⟩
  exact inner.written clean stands

theorem Enum.written (clean : (lex source).errors = []) {enum : Syntax.Enum}
    (derivation : Enum sentence enum) (inside : sentence <:+: (lex source).lexemes) :
    enum.Written source := by
  rcases derivation with @⟨keyword, named, rest, name, entries, word, called, body, _, rfl⟩
  have inBody := inside_body inside
  refine ⟨body.forall_mem inBody rfl ?_, body.forall_mem inBody rfl ?_,
    body.forall_mem inBody rfl ?_⟩
  · intro part entry value stands derivation isValue
    cases derivation with
    | option => cases isValue
    | reserved => cases isValue
    | value inner =>
        cases isValue
        exact inner.written clean stands
  · intro part entry option stands derivation isOption
    cases derivation <;> cases isOption
    next inner => exact inner.written clean stands
  · intro part entry reserved stands derivation isReserved
    cases derivation <;> cases isReserved
    next inner => exact inner.written (SignedInt.spells clean) stands

theorem Method.options_written (clean : (lex source).errors = []) {method : Syntax.Method}
    (derivation : Method sentence method) (inside : sentence <:+: (lex source).lexemes) :
    ∀ entry ∈ method.options, entry.Written source := by
  rcases derivation with @⟨keyword, returns, named, taken, given, ended, _, _, _, _, _, _, word,
    called, takes, between, gives, ends, _, rfl⟩
  have stands : ended <:+: keyword :: (named ++ (taken ++ returns :: (given ++ ended))) :=
    ⟨keyword :: (named ++ (taken ++ returns :: given)), [], by simp⟩
  cases ends with
  | plain => exact nofun
  | body body =>
      refine body.forall_mem (stands.trans inside) rfl ?_
      rintro part entry option stands ⟨inner⟩ ⟨⟩
      exact inner.written clean stands

theorem Service.written (clean : (lex source).errors = []) {service : Syntax.Service}
    (derivation : Service sentence service) (inside : sentence <:+: (lex source).lexemes) :
    service.Written source := by
  rcases derivation with @⟨keyword, named, rest, name, entries, word, called, body, _, rfl⟩
  have inBody := inside_body inside
  refine ⟨body.forall_mem inBody rfl ?_, body.forall_mem inBody rfl ?_⟩
  · intro part entry option stands derivation isOption
    cases derivation <;> cases isOption
    next inner => exact inner.written clean stands
  · intro part entry method stands derivation isMethod
    cases derivation <;> cases isMethod
    next inner => exact inner.options_written clean stands

theorem Message.written (clean : (lex source).errors = []) {message : Syntax.Message}
    (derivation : Message sentence message) (inside : sentence <:+: (lex source).lexemes) :
    message.Written source := by
  rcases derivation with @⟨keyword, named, rest, name, entries, word, called, body, _, rfl⟩
  have inBody := inside_body inside
  have items : ∀ item ∈ entries.filterMap Parser.Entry.item?,
      (∀ field ∈ item.fields, field.Written source) ∧
        ∀ oneof ∈ item.oneof?, oneof.Written source := by
    refine body.forall_mem inBody rfl ?_
    intro part entry item stands derivation isItem
    cases derivation <;> cases isItem
    case field inner _ =>
      exact ⟨List.forall_mem_singleton.mpr (inner.written clean stands), nofun⟩
    case oneof inner =>
      have oneof := inner.written clean stands
      exact ⟨oneof.fields, fun _ same => Option.some.inj same ▸ oneof⟩
    all_goals simp [MessageItem.fields, MessageItem.oneof?]
  refine ⟨?_, ?_, body.forall_mem inBody rfl ?_, body.forall_mem inBody rfl ?_,
    body.forall_mem inBody rfl ?_⟩
  · intro field member
    rcases List.mem_flatMap.mp member with ⟨item, inItems, inItem⟩
    exact (items item inItems).1 field inItem
  · intro oneof member
    rcases List.mem_filterMap.mp member with ⟨item, inItems, isOneof⟩
    exact (items item inItems).2 oneof isOneof
  · intro part entry option stands derivation isOption
    cases derivation <;> cases isOption
    next inner => exact inner.written clean stands
  · intro part entry extensions stands derivation isExtensions
    cases derivation <;> cases isExtensions
    next inner => exact inner.written clean stands
  · intro part entry reserved stands derivation isReserved
    cases derivation <;> cases isReserved
    next inner => exact inner.written (PositiveInt.spells clean) stands

end Grammar

/-! ## Accepted sources -/

end ProtoSchema.Syntax
