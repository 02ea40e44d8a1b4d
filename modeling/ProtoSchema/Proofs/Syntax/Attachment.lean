import ProtoSchema.Proofs.Syntax.Comments
import ProtoSchema.Proofs.Syntax.Composition
/-! # Comments of declarations

In an accepted source every declaration has the comments between its first token and the token
before, and no comment belongs to two declarations.
-/

namespace ProtoSchema.Syntax

/-! ## Declarations with comments -/

/-- Where a declaration stands, and the comments that it has. -/
structure Commented where
  span : Span
  comments : Option String

def Field.commented (field : Field) : Commented :=
  ⟨field.span, field.comments⟩

def EnumValue.commented (value : EnumValue) : Commented :=
  ⟨value.span, value.comments⟩

def Method.commented (method : Method) : Commented :=
  ⟨method.span, method.comments⟩

/-- The declaration that a walk comes to. -/
def Event.commented? : Event → Option Commented
  | enterMessage declared => some ⟨declared.span, declared.comments⟩
  | field declared => some declared.commented
  | enterOneof declared => some ⟨declared.span, declared.comments⟩
  | enterEnum declared => some ⟨declared.span, declared.comments⟩
  | value declared => some declared.commented
  | enterExtend declared => some ⟨declared.span, declared.comments⟩
  | enterService declared => some ⟨declared.span, declared.comments⟩
  | enterMethod declared => some declared.commented
  | enterFile _ | exitFile _ | exitMessage _ | exitOneof _ | exitEnum _ | exitExtend _
  | exitService _ | exitMethod _ | option _ => none

/-- The declarations of some events, in the order of the walk. -/
def commented (events : List Event) : List Commented :=
  events.filterMap Event.commented?

/-- The messages, fields, oneofs, extend blocks, services, methods, enums and enum values of a
file, in the order in which a walk comes to them. -/
def File.commented (file : File) : List Commented :=
  Syntax.commented file.events

theorem Oneof.commented_events (oneof : Oneof) :
    commented oneof.events = ⟨oneof.span, oneof.comments⟩ :: oneof.fields.map Field.commented := by
  simp [commented, Oneof.events, List.filterMap_cons, Event.commented?, Function.comp_def]

theorem Extend.commented_events (extend : Extend) :
    commented extend.events =
      ⟨extend.span, extend.comments⟩ :: extend.fields.map Field.commented := by
  simp [commented, Extend.events, List.filterMap_cons, Event.commented?, Function.comp_def]

theorem Enum.commented_events (enum : Enum) :
    commented enum.events = ⟨enum.span, enum.comments⟩ :: enum.values.map EnumValue.commented := by
  simp [commented, Enum.events, List.filterMap_cons, Event.commented?, Function.comp_def]

theorem Method.commented_events (method : Method) :
    method.events.filterMap Event.commented? = [method.commented] := by
  simp [Method.events, List.filterMap_cons, Event.commented?, Function.comp_def]

theorem Service.commented_events (service : Service) :
    commented service.events =
      ⟨service.span, service.comments⟩ :: service.methods.map Method.commented := by
  rw [List.map_eq_flatMap]
  simp [commented, Service.events, Method.commented_events, List.filterMap_cons,
    List.filterMap_flatMap, Event.commented?, Function.comp_def]

theorem Message.commented_events (message : Message) :
    commented message.events = ⟨message.span, message.comments⟩ ::
      message.items.flatMap fun item => commented item.events := by
  rw [Message.events_eq]
  simp [commented, List.filterMap_cons, List.filterMap_flatMap, Event.commented?,
    Function.comp_def]

theorem File.commented_eq (file : File) :
    file.commented = file.items.flatMap fun item => Syntax.commented item.events := by
  simp [File.commented, Syntax.commented, File.events, List.filterMap_cons,
    List.filterMap_flatMap, Event.commented?, Function.comp_def]

/-! ## First lexemes -/

/-- A declaration begins with a lexeme and has its comments. -/
structure Commented.Heads (declared : Commented) (first : Lexeme) : Prop where
  start : declared.span.start = first.span.start
  comments : declared.comments = commentsOf [first]

/-- Some declarations begin with lexemes of a sentence, in this order. -/
def Headed (sentence : List Lexeme) (declared : List Commented) : Prop :=
  ∃ firsts, List.Forall₂ Commented.Heads declared firsts ∧ firsts.Sublist sentence

theorem Headed.composes : Grammar.Composes Headed where
  nothing := ⟨[], .nil, List.nil_sublist _⟩
  append := by
    rintro front back values more ⟨firsts, heads, inside⟩ ⟨others, otherHeads, otherInside⟩
    exact ⟨firsts ++ others, List.rel_append heads otherHeads, inside.append otherInside⟩

/-- A declaration begins where its sentence does. -/
theorem Headed.declared {first : Lexeme} {rest : List Lexeme} {inner : List Commented}
    (headed : Headed rest inner) :
    Headed (first :: rest) (⟨spanOf (first :: rest), commentsOf (first :: rest)⟩ :: inner) := by
  rcases headed with ⟨firsts, heads, inside⟩
  exact ⟨first :: firsts, .cons ⟨rfl, rfl⟩ heads, inside.cons_cons first⟩

namespace Grammar

variable {sentence : List Lexeme}

theorem headed_single (written : sentence ≠ []) :
    Headed sentence [⟨spanOf sentence, commentsOf sentence⟩] := by
  rcases List.exists_cons_of_ne_nil written with ⟨first, rest, rfl⟩
  exact .declared Headed.composes.nothing

theorem Field.headed {field : Syntax.Field} (written : Field sentence field) :
    Headed sentence [field.commented] := by
  have filled := written.starts.ne_nil
  rcases written with ⟨-, -, -, -, -, -, -, -, rfl⟩
  exact headed_single filled

theorem EnumValue.headed {value : Syntax.EnumValue} (written : EnumValue sentence value) :
    Headed sentence [value.commented] := by
  rcases written with @⟨named, _, _, _, _, _, _, _, _, _, _, _, _, _, rfl⟩
  exact headed_single (by simp)

theorem Method.headed {method : Syntax.Method} (written : Method sentence method) :
    Headed sentence [method.commented] := by
  rcases written with ⟨-, -, -, -, -, -, rfl⟩
  exact headed_single (List.cons_ne_nil _ _)

theorem Body.headed_fields {entry : Production Parser.Entry} {entries : List Parser.Entry}
    (body : Body entry sentence entries)
    (each : ∀ part field, entry part (.field field) → Field part field) :
    Headed sentence ((entries.filterMap Parser.Entry.field?).map Syntax.Field.commented) := by
  refine Headed.composes.body_map body rfl fun part found field _ written isField => ?_
  cases found <;> cases isField
  exact (each part field written).headed

theorem Oneof.headed {oneof : Syntax.Oneof} (written : Oneof sentence oneof) :
    Headed sentence (commented oneof.events) := by
  rw [Oneof.commented_events]
  rcases written with @⟨keyword, named, inside, name, entries, word, called, body, _, rfl⟩
  exact .declared (Headed.composes.after
    (body.headed_fields fun | _, _, .field inner _ => inner) named)

theorem Extend.headed {extend : Syntax.Extend} (written : Extend sentence extend) :
    Headed sentence (commented extend.events) := by
  rw [Extend.commented_events]
  rcases written with @⟨keyword, typed, inside, extendee, entries, word, extended, body, _, rfl⟩
  exact .declared (Headed.composes.after
    (body.headed_fields fun | _, _, .field inner => inner) typed)

theorem Enum.headed {enum : Syntax.Enum} (written : Enum sentence enum) :
    Headed sentence (commented enum.events) := by
  rw [Enum.commented_events]
  rcases written with @⟨keyword, named, inside, name, entries, word, called, body, _, rfl⟩
  refine .declared (Headed.composes.after (Headed.composes.body_map body rfl ?_) named)
  intro part found value _ written isValue
  cases written with
  | option | reserved => cases isValue
  | value inner _ =>
      cases isValue
      exact inner.headed

theorem Service.headed {service : Syntax.Service} (written : Service sentence service) :
    Headed sentence (commented service.events) := by
  rw [Service.commented_events]
  rcases written with @⟨keyword, named, inside, name, entries, word, called, body, _, rfl⟩
  refine .declared (Headed.composes.after (Headed.composes.body_map body rfl ?_) named)
  intro part found method _ written isMethod
  cases written <;> cases isMethod
  next inner => exact inner.headed

theorem Message.headed {message : Syntax.Message} (written : Message sentence message) :
    Headed sentence (commented message.events) := by
  apply Message.induction_on_length ?_ written
  intro sentence message written induction
  rw [Message.commented_events]
  rcases written with @⟨keyword, named, inside, name, entries, word, called, body, _, rfl⟩
  simp only [List.length_cons, List.length_append] at induction
  have items : Headed inside ((entries.filterMap Parser.Entry.item?).flatMap fun item =>
      commented item.events) := by
    refine Headed.composes.body body rfl fun part found item less written isItem => ?_
    cases written <;> cases isItem
    case message inner => exact induction part _ (by omega) inner
    case enum inner => exact inner.headed
    case extend inner => exact inner.headed
    case oneof inner => exact inner.headed
    case field inner _ => exact inner.headed
  exact .declared (Headed.composes.after items named)

/-- The declarations of a file begin with lexemes of its source, in the order of the walk. -/
theorem Source.headed {outline : Outline} (derivation : Source sentence outline) :
    Headed sentence outline.file.commented := by
  have statements {sentence : List Lexeme} {statements : List Parser.Statement}
      (many : Many Statement sentence statements) :
      Headed sentence ((statements.filterMap Parser.Statement.item?).flatMap fun item =>
        commented item.events) := by
    refine Headed.composes.given many ?_
    intro part statement item _ written isItem
    cases statement <;> cases isItem
    cases written with
    | message inner => exact inner.headed
    | enum inner => exact inner.headed
    | service inner => exact inner.headed
    | extend inner => exact inner.headed
  rw [File.commented_eq]
  cases derivation with
  | plain many => exact statements many
  | versioned first many => exact Headed.composes.after (statements many) _

end Grammar

/-! ## Gaps before declarations -/

/-- The comments of a declaration are those in the gap before it: from the end of the token
before, or from the beginning of the source, to the first token of the declaration. -/
structure Attached (source : String) (declared : Commented) (gap : Span) : Prop where
  token : ∃ front first back, (lex source).lexemes = front ++ first :: back ∧
    gap = ⟨stopAfter 0 front, first.span.start⟩ ∧ declared.span.start = first.span.start
  stands : ∃ comments, GapAt source gap comments
  comments : ∀ comments, GapAt source gap comments →
    declared.comments = if comments.isEmpty then none else some ("\n".intercalate comments)

/-- The gap before a lexeme has its comments. -/
structure Lexeme.Follows (source : String) (start : Nat) (lexemes : List Lexeme) (first : Lexeme)
    (gap : Span) : Prop where
  place : ∃ front back, lexemes = front ++ first :: back ∧
    gap = ⟨stopAfter start front, first.span.start⟩
  comments : GapAt source gap first.comments

theorem Lexeme.Follows.cons {source : String} {start : Nat} {lexemes : List Lexeme}
    {first lexeme : Lexeme} {gap : Span}
    (follows : first.Follows source lexeme.span.stop lexemes gap) :
    first.Follows source start (lexeme :: lexemes) gap := by
  rcases follows with ⟨⟨front, back, rfl, rfl⟩, comments⟩
  exact ⟨⟨lexeme :: front, back, rfl, rfl⟩, comments⟩

/-- Lexemes in order have gaps before them in order, each of which ends before the next begins. -/
theorem exists_gaps {source : String} {start stop : Nat} {lexemes firsts : List Lexeme}
    (gapped : Gapped source start [] lexemes)
    (ordered : InOrder start (lexemes.map Lexeme.span) stop) (inside : firsts.Sublist lexemes) :
    ∃ gaps, List.Forall₂ (Lexeme.Follows source start lexemes) firsts gaps ∧
      gaps.Pairwise (fun earlier later => earlier.stop < later.start) ∧
      ∀ gap ∈ gaps, start ≤ gap.start := by
  induction inside generalizing start with
  | slnil => exact ⟨[], .nil, .nil, nofun⟩
  | @cons firsts lexemes lexeme inside induction =>
      rcases gapped with _ | ⟨-, -, later⟩
      rcases ordered with _ | ⟨order, filled, rest⟩
      rcases induction later rest with ⟨gaps, follows, apart, after⟩
      refine ⟨gaps, follows.imp fun _ _ => .cons, apart, fun gap member => ?_⟩
      have bound := after gap member
      omega
  | @cons_cons firsts lexemes lexeme inside induction =>
      rcases gapped with _ | ⟨own, gap, later⟩
      rcases ordered with _ | ⟨order, filled, rest⟩
      rcases induction later rest with ⟨gaps, follows, apart, after⟩
      rw [List.nil_append] at own
      have first : lexeme.Follows source start (lexeme :: lexemes) ⟨start, lexeme.span.start⟩ :=
        ⟨⟨[], lexemes, rfl, rfl⟩, own ▸ gap⟩
      refine ⟨_ :: gaps, .cons first (follows.imp fun _ _ => .cons), .cons ?_ apart, ?_⟩
      · intro other member
        exact Nat.lt_of_lt_of_le filled (after other member)
      · refine List.forall_mem_cons.mpr ⟨le_rfl, fun other member => ?_⟩
        have bound := after other member
        omega

theorem Commented.Heads.attached {source : String} {declared : Commented} {first : Lexeme}
    {gap : Span} (heads : declared.Heads first)
    (follows : first.Follows source 0 (lex source).lexemes gap) : Attached source declared gap := by
  rcases follows with ⟨⟨front, back, split, place⟩, gap⟩
  refine ⟨⟨front, first, back, split, place, heads.start⟩, ⟨first.comments, gap⟩, ?_⟩
  intro comments again
  rw [again.unique gap]
  exact heads.comments

theorem forall₂_attached {source : String} {declared : List Commented} {firsts : List Lexeme}
    {gaps : List Span} (heads : List.Forall₂ Commented.Heads declared firsts)
    (follows : List.Forall₂ (Lexeme.Follows source 0 (lex source).lexemes) firsts gaps) :
    List.Forall₂ (Attached source) declared gaps := by
  induction heads generalizing gaps with
  | nil =>
      cases follows
      exact .nil
  | cons head rest induction =>
      rcases follows with _ | ⟨first, others⟩
      exact .cons (head.attached first) (induction others)

/-- In an accepted source the comments of each declaration are those between its first token and
the token before. Between the gaps of two declarations there is a token at least. -/
theorem attached_of_parse {name source : String} {tree : File}
    (parsed : parse name source = .ok tree) :
    ∃ gaps, List.Forall₂ (Attached source) tree.commented gaps ∧
      gaps.Pairwise fun earlier later => earlier.stop < later.start := by
  rcases exists_outline_of_parse parsed with ⟨-, outline, derivation, rfl, -⟩
  rcases derivation.headed with ⟨firsts, heads, inside⟩
  rcases exists_gaps (gapped_lexemes source) (run_lexemes source).ordered inside with
    ⟨gaps, follows, apart, -⟩
  exact ⟨gaps, forall₂_attached heads follows, apart⟩

/-- Two comments before a message, one before its first field, and none before its second. -/
theorem attached_of_parse_fields :
    let source := "// a\n//b\nmessage M\x7b/* c */optional int32 x=1;optional int32 y=2;\x7d"
    ∃ tree gaps, parse "m.proto" source = .ok tree ∧
      tree.commented.map Commented.comments = [some "a\nb", some "c", none] ∧
      List.Forall₂ (Attached source) tree.commented gaps ∧
      gaps.Pairwise fun earlier later => earlier.stop < later.start := by
  intro source
  have computed : (parse "m.proto" source).toOption.map
      (fun tree => tree.commented.map Commented.comments) = some [some "a\nb", some "c", none] := by
    decide +kernel
  cases parsed : parse "m.proto" source with
  | error failure => simp [parsed, Except.toOption] at computed
  | ok tree =>
      rw [parsed] at computed
      rcases attached_of_parse parsed with ⟨gaps, attached, apart⟩
      exact ⟨tree, gaps, rfl, Option.some.inj computed, attached, apart⟩

end ProtoSchema.Syntax
