import ProtoSchema.Proofs.Syntax.Grammar
/-! # How sentences begin

No sentence of a declaration or of a part of one is empty, and its first token tells
what it is.
-/

namespace ProtoSchema.Syntax.Grammar

/-- The first token is one of some tokens. -/
def Starts (allowed : Token → Prop) (lexemes : List Lexeme) : Prop :=
  ∃ lexeme rest, lexemes = lexeme :: rest ∧ allowed lexeme.token

/-- No sentence of a production is empty. -/
def Written {α : Type} (production : Production α) : Prop :=
  ∀ ⦃sentence value⦄, production sentence value → sentence ≠ []

/-- The token can begin a name, or the name of a type. -/
def Names (token : Token) : Prop :=
  (∃ name, token = .ident name) ∨ token = .mark .dot

/-- The token can begin a number. -/
def Numeric (token : Token) : Prop :=
  (∃ value, token = .int value) ∨ token = .mark .minus

variable {front back sentence : List Lexeme}

/-! ## First tokens -/

theorem Starts.append {allowed : Token → Prop} (starts : Starts allowed front)
    (back : List Lexeme) : Starts allowed (front ++ back) := by
  rcases starts with ⟨lexeme, rest, rfl, holds⟩
  exact ⟨lexeme, rest ++ back, rfl, holds⟩

theorem Starts.mono {allowed other : Token → Prop} (starts : Starts allowed sentence)
    (weaker : ∀ token, allowed token → other token) : Starts other sentence := by
  rcases starts with ⟨lexeme, rest, rfl, holds⟩
  exact ⟨lexeme, rest, rfl, weaker _ holds⟩

theorem Starts.ne_nil {allowed : Token → Prop} (starts : Starts allowed sentence) :
    sentence ≠ [] := by
  rcases starts with ⟨lexeme, rest, rfl, -⟩
  exact List.cons_ne_nil lexeme rest

theorem Starts.names {word : String} (starts : Starts (· = .ident word) sentence) :
    Starts Names sentence :=
  starts.mono fun _ same => .inl ⟨word, same⟩

theorem Begins.append {words : List String} (begins : Begins words front)
    (back : List Lexeme) : Begins words (front ++ back) := by
  rcases begins with ⟨lexeme, rest, rfl, word, member, same⟩
  exact ⟨lexeme, rest ++ back, rfl, word, member, same⟩

theorem Begins.not_of_append {words : List String} (other : ¬Begins words (front ++ back)) :
    ¬Begins words front :=
  fun begins => other (begins.append back)

theorem not_begins_cons {words : List String} {lexeme : Lexeme} {rest : List Lexeme}
    (other : ∀ word ∈ words, lexeme.token ≠ .ident word) : ¬Begins words (lexeme :: rest) := by
  rintro ⟨first, remaining, same, word, member, named⟩
  cases same
  exact other word member named

theorem not_begins_nil : ¬Begins [] sentence := by
  rintro ⟨lexeme, rest, same, word, member, named⟩
  cases member

/-- A sentence that does not begin with certain words has another first token. -/
theorem ne_of_not_begins {words : List String} {lexeme : Lexeme} {rest : List Lexeme}
    (other : ¬Begins words (lexeme :: rest)) {word : String} (member : word ∈ words) :
    lexeme.token ≠ .ident word :=
  fun same => other ⟨lexeme, rest, rfl, word, member, same⟩

/-- What holds before any sentence and before the end holds before any number of
sentences. -/
theorem Many.leads {α : Type} {element : Production α} {Follow : List Lexeme → Prop}
    {values : List α} {rest : List Lexeme} (many : Many element sentence values)
    (leads : ∀ ⦃part value⦄, element part value → ∀ following, Follow (part ++ following))
    (last : Follow rest) : Follow (sentence ++ rest) := by
  cases many with
  | none => exact last
  | more first others =>
      rw [List.append_assoc]
      exact leads first _

/-! ## Names, numbers and options -/

theorem After.written {α : Type} {token : Token} {inner : Production α} :
    Written (After token inner) := by
  rintro _ _ ⟨⟩
  simp

theorem After.starts {α : Type} {token : Token} {inner : Production α} {value : α}
    (after : After token inner sentence value) : Starts (· = token) sentence := by
  rcases after with ⟨first, -⟩
  exact ⟨_, _, rfl, first⟩

theorem Written.separated {α : Type} {separator : Token} {element : Production α}
    (written : Written element) : Written (Separated separator element) := by
  rintro _ _ ⟨first, rest⟩
  exact List.append_ne_nil_of_left_ne_nil (written first) _

theorem DottedName.starts {name : Syntax.DottedName} (dotted : DottedName sentence name) :
    Starts Names sentence := by
  rcases dotted with ⟨⟨token⟩, more⟩
  exact ⟨_, _, rfl, .inl ⟨_, token⟩⟩

theorem TypeName.starts {name : Syntax.TypeName} (type : TypeName sentence name) :
    Starts Names sentence := by
  rcases type with inner | ⟨first, inner⟩
  · exact inner.starts
  · exact ⟨_, _, rfl, .inr first⟩

theorem Separated.starts {α : Type} {separator : Token} {element : Production α} {values : List α}
    {allowed : Token → Prop} (separated : Separated separator element sentence values)
    (starts : ∀ ⦃sentence value⦄, element sentence value → Starts allowed sentence) :
    Starts allowed sentence := by
  rcases separated with ⟨first, rest⟩
  exact (starts first).append _

theorem PositiveInt.starts {literal : IntLiteral} (number : PositiveInt sentence literal) :
    Starts Numeric sentence := by
  rcases number with ⟨token⟩
  exact ⟨_, _, rfl, .inl ⟨_, token⟩⟩

theorem SignedInt.starts {literal : IntLiteral} (number : SignedInt sentence literal) :
    Starts Numeric sentence := by
  rcases number with inner | ⟨minus, token⟩
  · exact inner.starts
  · exact ⟨_, _, rfl, .inr minus⟩

theorem NumberRange.starts {number : Production IntLiteral} {range : Syntax.NumberRange}
    (written : NumberRange number sentence range)
    (starts : ∀ ⦃sentence literal⦄, number sentence literal → Starts Numeric sentence) :
    Starts Numeric sentence := by
  rcases written with bound | ⟨lower, -, -⟩ | ⟨lower, -, -⟩
  · exact starts bound
  · exact (starts lower).append _
  · exact (starts lower).append _

theorem StringPart.written : Written StringPart := by
  rintro _ _ ⟨⟩
  simp

theorem OptionNamePart.written : Written OptionNamePart := by
  rintro _ _ (_ | _ | _) <;> simp

theorem OptionStatement.starts {entry : Syntax.OptionEntry}
    (statement : OptionStatement sentence entry) : Starts (· = .ident "option") sentence := by
  rcases statement with ⟨word, -, -⟩
  exact ⟨_, _, rfl, word⟩

/-! ## Fields -/

theorem Label.start_eq {label : Option (FieldLabel × Span)} (written : Label sentence label)
    (rest : List Lexeme) (stop : Nat) :
    (label.map (·.2.start)).getD (startBefore (stopAfter stop sentence) rest) =
      startBefore stop (sentence ++ rest) := by
  cases written <;> rfl

theorem FieldType.starts {type : Syntax.FieldType} (written : FieldType sentence type) :
    Starts Names sentence := by
  cases written with
  | named inner _ => exact inner.starts
  | map word => exact ⟨_, _, rfl, .inl ⟨_, word⟩⟩

theorem Field.starts {field : Syntax.Field} (written : Field sentence field) :
    Starts Names sentence := by
  rcases written with ⟨label, type, -, -, -, -, -, -, rfl⟩
  cases label with
  | none => exact type.starts.append _
  | optional word => exact ⟨_, _, rfl, .inl ⟨_, word⟩⟩
  | required word => exact ⟨_, _, rfl, .inl ⟨_, word⟩⟩
  | repeated word => exact ⟨_, _, rfl, .inl ⟨_, word⟩⟩

/-! ## Declarations -/

theorem Body.starts {entry : Production Parser.Entry} {entries : List Parser.Entry}
    (body : Body entry sentence entries) : Starts (· = .mark .leftBrace) sentence := by
  rcases body with ⟨opens, -, -⟩
  exact ⟨_, _, rfl, opens⟩

theorem ReservedStatement.starts {number : Production IntLiteral} {reserved : Reserved}
    (statement : ReservedStatement number sentence reserved) :
    Starts (· = .ident "reserved") sentence := by
  rcases statement with ⟨word, -, -⟩ | ⟨word, -, -⟩ <;> exact ⟨_, _, rfl, word⟩

theorem ExtensionsStatement.starts {extensions : ExtensionRanges}
    (statement : ExtensionsStatement sentence extensions) :
    Starts (· = .ident "extensions") sentence := by
  rcases statement with ⟨word, -, -, -⟩
  exact ⟨_, _, rfl, word⟩

theorem EnumValue.starts {value : Syntax.EnumValue} (written : EnumValue sentence value) :
    Starts (fun token => ∃ name, token = .ident name) sentence := by
  rcases written with ⟨⟨token⟩, -, -, -, -, rfl⟩
  exact ⟨_, _, rfl, _, token⟩

theorem Enum.starts {enum : Syntax.Enum} (written : Enum sentence enum) :
    Starts (· = .ident "enum") sentence := by
  rcases written with ⟨word, -, -, rfl⟩
  exact ⟨_, _, rfl, word⟩

theorem Method.starts {method : Syntax.Method} (written : Method sentence method) :
    Starts (· = .ident "rpc") sentence := by
  rcases written with ⟨word, -, -, -, -, -, rfl⟩
  exact ⟨_, _, rfl, word⟩

theorem Service.starts {service : Syntax.Service} (written : Service sentence service) :
    Starts (· = .ident "service") sentence := by
  rcases written with ⟨word, -, -, rfl⟩
  exact ⟨_, _, rfl, word⟩

theorem Extend.starts {extend : Syntax.Extend} (written : Extend sentence extend) :
    Starts (· = .ident "extend") sentence := by
  rcases written with ⟨word, -, -, rfl⟩
  exact ⟨_, _, rfl, word⟩

theorem Oneof.starts {oneof : Syntax.Oneof} (written : Oneof sentence oneof) :
    Starts (· = .ident "oneof") sentence := by
  rcases written with ⟨word, -, -, rfl⟩
  exact ⟨_, _, rfl, word⟩

theorem Message.starts {message : Syntax.Message} (written : Message sentence message) :
    Starts (· = .ident "message") sentence := by
  rcases written with ⟨word, -, -, rfl⟩
  exact ⟨_, _, rfl, word⟩

/-- What is shown of a message may be assumed of those with shorter sentences, such as the
messages in it. -/
theorem Message.induction_on_length {Holds : List Lexeme → Syntax.Message → Prop}
    (step : ∀ sentence message, Message sentence message →
      (∀ part inner, part.length < sentence.length → Message part inner → Holds part inner) →
      Holds sentence message) {message : Syntax.Message} (written : Message sentence message) :
    Holds sentence message := by
  induction size : sentence.length using Nat.strongRecOn generalizing sentence message with
  | ind size induction =>
      subst size
      exact step sentence message written fun part inner shorter written =>
        induction part.length shorter written rfl

/-! ## Entries of bodies -/

theorem EnumEntry.starts {entry : Parser.Entry} (written : EnumEntry sentence entry) :
    Starts Names sentence := by
  rcases written with inner | inner | ⟨inner, -⟩
  · exact inner.starts.names
  · exact inner.starts.names
  · exact inner.starts.mono fun _ => .inl

theorem MethodEntry.starts {entry : Parser.Entry} (written : MethodEntry sentence entry) :
    Starts Names sentence := by
  rcases written with ⟨inner⟩
  exact inner.starts.names

theorem ServiceEntry.starts {entry : Parser.Entry} (written : ServiceEntry sentence entry) :
    Starts Names sentence := by
  rcases written with inner | inner <;> exact inner.starts.names

theorem ExtendEntry.starts {entry : Parser.Entry} (written : ExtendEntry sentence entry) :
    Starts Names sentence := by
  rcases written with ⟨inner⟩
  exact inner.starts

theorem OneofEntry.starts {entry : Parser.Entry} (written : OneofEntry sentence entry) :
    Starts Names sentence := by
  rcases written with inner | ⟨inner, -⟩
  · exact inner.starts.names
  · exact inner.starts

theorem MessageEntry.starts {entry : Parser.Entry} (written : MessageEntry sentence entry) :
    Starts Names sentence := by
  rcases written with inner | inner | inner | inner | inner | inner | inner | ⟨inner, -⟩
  · exact inner.starts.names
  · exact inner.starts.names
  · exact inner.starts.names
  · exact inner.starts.names
  · exact inner.starts.names
  · exact inner.starts.names
  · exact inner.starts.names
  · exact inner.starts

/-! ## Files -/

theorem PackageStatement.starts {package : Package}
    (statement : PackageStatement sentence package) : Starts (· = .ident "package") sentence := by
  rcases statement with ⟨word, -, -⟩
  exact ⟨_, _, rfl, word⟩

theorem ImportStatement.starts {statement : Import}
    (written : ImportStatement sentence statement) : Starts (· = .ident "import") sentence := by
  rcases written with ⟨word, -, -, -⟩
  exact ⟨_, _, rfl, word⟩

/-- Only the statement with the version begins with `syntax`. -/
theorem Statement.starts {statement : Parser.Statement} (written : Statement sentence statement) :
    Starts (· ≠ .ident "syntax") sentence := by
  have other {word : String} {sentence : List Lexeme} (starts : Starts (· = .ident word) sentence)
      (different : word ≠ "syntax") : Starts (· ≠ .ident "syntax") sentence := by
    refine starts.mono ?_
    rintro _ rfl
    simpa using different
  cases written with
  | blank token => exact ⟨_, _, rfl, by simp [token]⟩
  | import_ inner => exact other inner.starts (by decide)
  | package inner => exact other inner.starts (by decide)
  | option inner => exact other inner.starts (by decide)
  | message inner => exact other inner.starts (by decide)
  | enum inner => exact other inner.starts (by decide)
  | service inner => exact other inner.starts (by decide)
  | extend inner => exact other inner.starts (by decide)

end ProtoSchema.Syntax.Grammar
