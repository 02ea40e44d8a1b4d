import ProtoSchema.Proofs.Syntax.Recovery
import ProtoSchema.Syntax.Event
/-! # Declarations of a tree

A walk through a file leaves each of its declarations once, at any depth, a message after
those inside it. In an accepted source each of them is written as the grammar says, and is
valid.
-/

namespace ProtoSchema.Syntax

/-! ## What a walk leaves -/

namespace Event

def message? : Event → Option Message
  | exitMessage message => some message
  | _ => none

def enum? : Event → Option Enum
  | exitEnum enum => some enum
  | _ => none

def extend? : Event → Option Extend
  | exitExtend extend => some extend
  | _ => none

end Event

namespace File

/-- The messages of a file in the order in which their bodies end. -/
def messages (file : File) : List Message :=
  file.events.filterMap Event.message?

/-- The enums of a file in the order in which their bodies end. -/
def enums (file : File) : List Enum :=
  file.events.filterMap Event.enum?

/-- The extend blocks of a file in the order in which their bodies end. -/
def extends_ (file : File) : List Extend :=
  file.events.filterMap Event.extend?

def services (file : File) : List Service :=
  file.items.filterMap fun
    | .service declared => some declared
    | _ => none

end File

/-- The fields that a declaration in a message gives to the message. -/
def MessageItem.fields : MessageItem → List Field
  | .field declared => [declared]
  | .oneof declared => declared.fields
  | .message _ | .enum _ | .extend _ => []

def MessageItem.oneof? : MessageItem → Option Oneof
  | .oneof declared => some declared
  | _ => none

/-- The fields of a message with those of its oneofs, in the order of the source. -/
def Message.fields (message : Message) : List Field :=
  message.items.flatMap MessageItem.fields

def Message.oneofs (message : Message) : List Oneof :=
  message.items.filterMap MessageItem.oneof?

/-! ## Sentences in a source -/

/-- Some of the lexemes are a sentence that stands for a value. -/
def Grammar.StandsIn {α : Type} (lexemes : List Lexeme) (production : Production α) (value : α) :
    Prop :=
  ∃ sentence, sentence <:+: lexemes ∧ production sentence value

namespace Grammar

variable {α : Type} {lexemes sentence : List Lexeme}

theorem Many.exists_of_mem {element : Production α} {values : List α}
    (many : Many element sentence values) {value : α} (member : value ∈ values) :
    ∃ part, part <:+: sentence ∧ element part value := by
  induction many with
  | none => cases member
  | @more front back first values here others induction =>
      rcases List.mem_cons.mp member with rfl | member
      · exact ⟨front, (List.prefix_append front back).isInfix, here⟩
      · rcases induction member with ⟨part, inside, written⟩
        exact ⟨part, inside.trans (List.suffix_append front back).isInfix, written⟩

/-- An entry of a body is a sentence inside the braces. -/
theorem Body.exists_of_mem {entry : Production Parser.Entry} {entries : List Parser.Entry}
    (body : Body entry sentence entries) {value : Parser.Entry} (member : value ∈ entries)
    (written : value ≠ .blank) :
    ∃ part, part <:+: sentence ∧ part.length < sentence.length ∧ entry part value := by
  rcases body with @⟨open_, close, inside, _, -, many, -⟩
  rcases many.exists_of_mem member with ⟨part, infix_, element⟩
  have shorter := infix_.length_le
  refine ⟨part, infix_.trans ⟨[open_], [close], rfl⟩, ?_, ?_⟩
  · simp only [List.length_cons, List.length_append]
    omega
  · cases element with
    | blank => exact absurd rfl written
    | entry inner => exact inner

end Grammar

/-! ## Walks -/

/-- What is asked of the declarations of each kind. -/
structure Asked where
  message : Message → Prop
  enum : Enum → Prop
  extend : Extend → Prop
  service : Service → Prop

/-- If an event leaves a declaration, this is as asked. -/
def Event.Meets (asked : Asked) : Event → Prop
  | exitMessage message => asked.message message
  | exitEnum enum => asked.enum enum
  | exitExtend extend => asked.extend extend
  | exitService service => asked.service service
  | _ => True

variable {asked : Asked}

theorem Oneof.events_meet (oneof : Oneof) : ∀ event ∈ oneof.events, event.Meets asked := by
  simp only [Oneof.events, List.forall_mem_append, List.forall_mem_cons, List.not_mem_nil, false_implies,
    List.forall_mem_map, Event.Meets, implies_true, and_true]

theorem Enum.events_meet_iff (enum : Enum) :
    (∀ event ∈ enum.events, event.Meets asked) ↔ asked.enum enum := by
  simp only [Enum.events, List.forall_mem_append, List.forall_mem_cons, List.not_mem_nil, false_implies,
    List.forall_mem_map, Event.Meets, implies_true, true_and, and_true]

theorem Extend.events_meet_iff (extend : Extend) :
    (∀ event ∈ extend.events, event.Meets asked) ↔ asked.extend extend := by
  simp only [Extend.events, List.forall_mem_append, List.forall_mem_cons, List.not_mem_nil, false_implies,
    List.forall_mem_map, Event.Meets, implies_true, true_and, and_true]

theorem Service.events_meet_iff (service : Service) :
    (∀ event ∈ service.events, event.Meets asked) ↔ asked.service service := by
  simp only [Service.events, Method.events, List.forall_mem_append, List.forall_mem_cons,
    List.not_mem_nil, false_implies, List.forall_mem_map, List.forall_mem_flatMap, Event.Meets, implies_true,
    true_and, and_true]

theorem MessageItem.eventsOfAll_eq (items : List MessageItem) :
    MessageItem.eventsOfAll items = items.flatMap MessageItem.events := by
  induction items with
  | nil => rw [MessageItem.eventsOfAll, List.flatMap_nil]
  | cons item items induction => rw [MessageItem.eventsOfAll, induction, List.flatMap_cons]

theorem Message.events_eq (message : Message) :
    message.events = .enterMessage message :: message.options.map .option ++
      message.items.flatMap MessageItem.events ++ [.exitMessage message] := by
  rcases message with ⟨name, items, options, extensions, reserved, comments, span⟩
  rw [Message.events, MessageItem.eventsOfAll_eq]

/-- A walk leaves a message after what is inside it. -/
theorem Message.left_events (message : Message) :
    message.events.filterMap Event.message? =
        (message.items.flatMap MessageItem.events).filterMap Event.message? ++ [message] ∧
      message.events.filterMap Event.enum? =
        (message.items.flatMap MessageItem.events).filterMap Event.enum? ∧
      message.events.filterMap Event.extend? =
        (message.items.flatMap MessageItem.events).filterMap Event.extend? := by
  rw [Message.events_eq]
  simp [List.filterMap_cons, Event.message?, Event.enum?, Event.extend?]

theorem Oneof.left_events (oneof : Oneof) :
    oneof.events.filterMap Event.message? = [] ∧ oneof.events.filterMap Event.enum? = [] ∧
      oneof.events.filterMap Event.extend? = [] := by
  simp [Oneof.events, List.filterMap_cons, Event.message?, Event.enum?, Event.extend?]

theorem Enum.left_events (enum : Enum) :
    enum.events.filterMap Event.message? = [] ∧ enum.events.filterMap Event.enum? = [enum] ∧
      enum.events.filterMap Event.extend? = [] := by
  simp [Enum.events, List.filterMap_cons, Function.comp_def, Event.message?, Event.enum?,
    Event.extend?]

theorem Extend.left_events (extend : Extend) :
    extend.events.filterMap Event.message? = [] ∧ extend.events.filterMap Event.enum? = [] ∧
      extend.events.filterMap Event.extend? = [extend] := by
  simp [Extend.events, List.filterMap_cons, Function.comp_def, Event.message?, Event.enum?,
    Event.extend?]

theorem Service.left_events (service : Service) :
    service.events.filterMap Event.message? = [] ∧ service.events.filterMap Event.enum? = [] ∧
      service.events.filterMap Event.extend? = [] := by
  simp [Service.events, Method.events, List.filterMap_cons, List.filterMap_flatMap, Event.message?,
    Event.enum?, Event.extend?]

/-- A walk through a file leaves what the walks through its declarations leave. -/
theorem File.left_events (file : File) :
    file.events.filterMap Event.message? =
        (file.items.flatMap FileItem.events).filterMap Event.message? ∧
      file.events.filterMap Event.enum? =
        (file.items.flatMap FileItem.events).filterMap Event.enum? ∧
      file.events.filterMap Event.extend? =
        (file.items.flatMap FileItem.events).filterMap Event.extend? := by
  simp [File.events, List.filterMap_cons, Event.message?, Event.enum?, Event.extend?]

theorem Message.events_meet_iff (message : Message) :
    (∀ event ∈ message.events, event.Meets asked) ↔
      (∀ item ∈ message.items, ∀ event ∈ item.events, event.Meets asked) ∧
        asked.message message := by
  rw [Message.events_eq]
  simp only [List.forall_mem_append, List.forall_mem_cons, List.not_mem_nil, false_implies,
    List.forall_mem_map, List.forall_mem_flatMap, Event.Meets, implies_true, true_and, and_true]

/-- All declarations that are left in a walk through a file are as asked. -/
theorem File.events_meet_iff (file : File) :
    (∀ event ∈ file.events, event.Meets asked) ↔
      ∀ item ∈ file.items, ∀ event ∈ item.events, event.Meets asked := by
  simp only [File.events, List.forall_mem_append, List.forall_mem_cons, List.not_mem_nil, false_implies,
    List.forall_mem_map, List.forall_mem_flatMap, Event.Meets, implies_true, true_and, and_true]

theorem File.forall_mem_messages {file : File}
    (meets : ∀ event ∈ file.events, event.Meets asked) :
    ∀ message ∈ file.messages, asked.message message := by
  intro message member
  rcases List.mem_filterMap.mp member with ⟨event, inFile, left⟩
  have met := meets event inFile
  cases event <;> cases left
  exact met

theorem File.forall_mem_enums {file : File} (meets : ∀ event ∈ file.events, event.Meets asked) :
    ∀ enum ∈ file.enums, asked.enum enum := by
  intro enum member
  rcases List.mem_filterMap.mp member with ⟨event, inFile, left⟩
  have met := meets event inFile
  cases event <;> cases left
  exact met

theorem File.forall_mem_extends {file : File}
    (meets : ∀ event ∈ file.events, event.Meets asked) :
    ∀ extend ∈ file.extends_, asked.extend extend := by
  intro extend member
  rcases List.mem_filterMap.mp member with ⟨event, inFile, left⟩
  have met := meets event inFile
  cases event <;> cases left
  exact met

theorem File.forall_mem_services {file : File}
    (meets : ∀ event ∈ file.events, event.Meets asked) :
    ∀ service ∈ file.services, asked.service service := by
  intro service member
  rcases List.mem_filterMap.mp member with ⟨item, inFile, left⟩
  have met := file.events_meet_iff.mp meets item inFile
  cases item <;> cases left
  exact (Service.events_meet_iff service).mp met

/-! ## Sentences of declarations -/

/-- Every declaration stands among some lexemes. -/
def standing (lexemes : List Lexeme) : Asked where
  message := Grammar.StandsIn lexemes Grammar.Message
  enum := Grammar.StandsIn lexemes Grammar.Enum
  extend := Grammar.StandsIn lexemes Grammar.Extend
  service := Grammar.StandsIn lexemes Grammar.Service

namespace Grammar

variable {lexemes sentence : List Lexeme}

/-- What is inside a message stands where the message does. -/
theorem Message.standing {message : Syntax.Message} (written : Message sentence message)
    (inside : sentence <:+: lexemes) :
    ∀ event ∈ message.events, event.Meets (standing lexemes) := by
  revert inside
  apply Message.induction_on_length ?_ written
  intro sentence message written induction inside
  rw [Message.events_meet_iff]
  refine ⟨fun item member => ?_, sentence, inside, written⟩
  rcases written with @⟨keyword, named, rest, _, _, word, called, body, _, rfl⟩
  rcases List.mem_filterMap.mp member with ⟨entry, inBody, isItem⟩
  rcases body.exists_of_mem inBody (by rintro rfl; cases isItem) with
    ⟨part, inRest, less, sentence⟩
  have stands : part <:+: lexemes :=
    inRest.trans ((List.suffix_append (keyword :: named) rest).isInfix.trans inside)
  simp only [List.length_cons, List.length_append] at induction
  cases sentence with
  | message inner =>
      cases isItem
      exact induction part _ (by omega) inner stands
  | enum inner =>
      cases isItem
      exact (Enum.events_meet_iff _).mpr ⟨part, stands, inner⟩
  | extend inner =>
      cases isItem
      exact (Extend.events_meet_iff _).mpr ⟨part, stands, inner⟩
  | oneof inner =>
      cases isItem
      exact Oneof.events_meet _
  | field inner =>
      cases isItem
      simp [MessageItem.events, Event.Meets]
  | option | reserved | extensions => cases isItem

theorem Statement.standing {item : FileItem} (written : Statement sentence (.item item))
    (inside : sentence <:+: lexemes) :
    ∀ event ∈ item.events, event.Meets (standing lexemes) := by
  cases written with
  | message inner => exact inner.standing inside
  | enum inner => exact (Enum.events_meet_iff _).mpr ⟨sentence, inside, inner⟩
  | extend inner => exact (Extend.events_meet_iff _).mpr ⟨sentence, inside, inner⟩
  | service inner => exact (Service.events_meet_iff _).mpr ⟨sentence, inside, inner⟩

/-- The statements of a file stand among its lexemes. -/
theorem Source.exists_of_mem {outline : Outline} (source : Source sentence outline)
    {statement : Parser.Statement} (member : statement ∈ outline.statements) :
    StandsIn sentence Statement statement := by
  cases source with
  | plain many => exact many.exists_of_mem member
  | @versioned front back _ _ first many =>
      rcases many.exists_of_mem member with ⟨part, inside, written⟩
      exact ⟨part, inside.trans (List.suffix_append front back).isInfix, written⟩

theorem Source.standing {outline : Outline} (source : Source sentence outline) :
    ∀ event ∈ outline.file.events, event.Meets (standing sentence) := by
  rw [File.events_meet_iff]
  intro item member
  rcases List.mem_filterMap.mp member with ⟨statement, inOutline, isItem⟩
  rcases source.exists_of_mem inOutline with ⟨part, inside, written⟩
  cases statement <;> cases isItem
  exact written.standing inside

end Grammar

/-! ## Valid declarations -/

/-- Every declaration is valid. -/
def valid (version : Version) : Asked where
  message := Message.Valid version
  enum := Enum.Valid
  extend := Extend.Valid version
  service _ := True

mutual

theorem Message.valid_events (version : Version) (message : Message)
    (holds : message.Valid version) :
    ∀ event ∈ message.events, event.Meets (valid version) := by
  rcases message with ⟨name, items, options, extensions, reserved, comments, span⟩
  rw [Message.events_meet_iff]
  exact ⟨MessageItem.valid_eventsOfAll version items ((Message.valid_iff version _).mp holds).1,
    holds⟩

theorem MessageItem.valid_events (version : Version) (item : MessageItem)
    (holds : item.Valid version) : ∀ event ∈ item.events, event.Meets (valid version) := by
  cases item with
  | field declared => simp [MessageItem.events, Event.Meets]
  | oneof declared => exact Oneof.events_meet declared
  | message declared =>
      exact Message.valid_events version declared ((MessageItem.valid_message declared).mp holds)
  | enum declared =>
      exact (Enum.events_meet_iff declared).mpr ((MessageItem.valid_enum declared).mp holds)
  | extend declared =>
      exact (Extend.events_meet_iff declared).mpr ((MessageItem.valid_extend declared).mp holds)

theorem MessageItem.valid_eventsOfAll (version : Version) (items : List MessageItem)
    (holds : ∀ item ∈ items, item.Valid version) :
    ∀ item ∈ items, ∀ event ∈ item.events, event.Meets (valid version) := by
  cases items with
  | nil => simp
  | cons item items =>
      rw [List.forall_mem_cons] at holds ⊢
      exact ⟨MessageItem.valid_events version item holds.1,
        MessageItem.valid_eventsOfAll version items holds.2⟩

end

theorem Outline.valid_events {outline : Outline} (holds : outline.Valid) :
    ∀ event ∈ outline.file.events, event.Meets (valid outline.file.version) := by
  rw [File.events_meet_iff]
  intro item member
  have declared := holds.items item member
  cases item with
  | message inner => exact Message.valid_events _ inner ((FileItem.valid_message inner).mp declared)
  | enum inner => exact (Enum.events_meet_iff inner).mpr ((FileItem.valid_enum inner).mp declared)
  | service inner => exact (Service.events_meet_iff inner).mpr trivial
  | extend inner =>
      exact (Extend.events_meet_iff inner).mpr ((FileItem.valid_extend inner).mp declared)

/-! ## Accepted sources -/

variable {name source : String} {tree : File}

/-- In an accepted source every declaration is a sentence. -/
theorem standing_of_parse (parsed : parse name source = .ok tree) :
    ∀ event ∈ tree.events, event.Meets (standing (lex source).lexemes) := by
  rcases exists_outline_of_parse parsed with ⟨-, outline, derivation, rfl, -⟩
  exact derivation.standing

/-- In an accepted source every declaration is valid. -/
theorem valid_of_parse (parsed : parse name source = .ok tree) :
    ∀ event ∈ tree.events, event.Meets (valid tree.version) := by
  rcases exists_outline_of_parse parsed with ⟨-, outline, -, rfl, holds⟩
  exact Outline.valid_events holds

end ProtoSchema.Syntax
