import ProtoSchema.Proofs.Syntax.Grammar
/-! # Valid trees

What the language asks of a tree beyond its grammar: bounds of numbers, the order of
ranges, the spelling of quoted names and file names, and which labels and map types a
field may have.
-/

namespace ProtoSchema.Syntax

/-! ## Names in quotes -/

/-- An ASCII letter or an underscore, and after it letters, digits and underscores. -/
def IsIdentifier (name : String) : Prop :=
  ∃ first rest, name.toList = first :: rest ∧ (first.isAlpha ∨ first = '_') ∧
    ∀ character ∈ rest, character.isAlphanum ∨ character = '_'

/-- A name of a file below an include directory. -/
structure IsImportPath (path : String) : Prop where
  written : path ≠ ""
  forward : '\\' ∉ path.toList
  relative : path.toList.head? ≠ some '/'
  parts : ∀ part ∈ path.toList.splitOn '/', part ≠ [] ∧ part ≠ ['.'] ∧ part ≠ ['.', '.']

/-! ## Numbers -/

/-- The number of a field, or a bound of field numbers. -/
def IntLiteral.IsFieldNumber (literal : IntLiteral) : Prop :=
  1 ≤ literal.value ∧ literal.value ≤ 536870911

/-- The number of an enum value, or a bound of such numbers. It has 32 bits. -/
def IntLiteral.IsEnumNumber (literal : IntLiteral) : Prop :=
  -2147483648 ≤ literal.value ∧ literal.value ≤ 2147483647

/-- The written bounds of a range are bounds of some kind, in their order. -/
structure NumberRange.Valid (Bound : IntLiteral → Prop) (range : NumberRange) : Prop where
  start : Bound range.start
  stop : ∀ stop, range.stop = .int stop → Bound stop ∧ range.start.value ≤ stop.value

/-- What a `reserved` statement names are ranges with bounds of some kind, or
identifiers. -/
inductive Reserved.Valid (Bound : IntLiteral → Prop) : Reserved → Prop
  | ranges {ranges : List NumberRange} (all : ∀ range ∈ ranges, range.Valid Bound) :
      Reserved.Valid Bound (.ranges ranges)
  | names {names : List Ident} (all : ∀ name ∈ names, IsIdentifier name.name) :
      Reserved.Valid Bound (.names names)

def ExtensionRanges.Valid (extensions : ExtensionRanges) : Prop :=
  ∀ range ∈ extensions.ranges, range.Valid IntLiteral.IsFieldNumber

/-! ## Fields -/

/-- A host and a version allow a label, or that there is none; the host `none` stands for
a message. -/
structure LabelAllowed (version : Version) (host : Option FieldHost)
    (label : Option FieldLabel) : Prop where
  oneof : host = some .oneof → label = none
  extend : host = some .extend → label ≠ some .required
  version : version = .proto3 → label ≠ some .required

/-- What a host asks of a field. Only messages hold fields with a map type. -/
structure Field.Valid (version : Version) (host : Option FieldHost) (field : Field) : Prop where
  label : LabelAllowed version host (field.label.map Prod.fst)
  map : field.type.isMap = true → field.label = none ∧ host = none
  number : field.number.IsFieldNumber

/-! ## Declarations -/

structure Oneof.Valid (version : Version) (oneof : Oneof) : Prop where
  fields : ∀ field ∈ oneof.fields, field.Valid version (some .oneof)
  inhabited : oneof.fields ≠ []

def Extend.Valid (version : Version) (extend : Extend) : Prop :=
  ∀ field ∈ extend.fields, field.Valid version (some .extend)

structure Enum.Valid (enum : Enum) : Prop where
  values : ∀ value ∈ enum.values, value.number.IsEnumNumber
  reserved : ∀ reserved ∈ enum.reserved, reserved.Valid IntLiteral.IsEnumNumber

mutual

/-- A message is valid with everything inside it, at any depth. -/
inductive Message.Valid (version : Version) : Message → Prop
  | intro {message : Message} (items : ∀ item ∈ message.items, MessageItem.Valid version item)
      (extensions : ∀ extensions ∈ message.extensions, extensions.Valid)
      (reserved : ∀ reserved ∈ message.reserved, reserved.Valid IntLiteral.IsFieldNumber) :
      Message.Valid version message

inductive MessageItem.Valid (version : Version) : MessageItem → Prop
  | field {field : Field} (valid : field.Valid version none) :
      MessageItem.Valid version (.field field)
  | oneof {oneof : Oneof} (valid : oneof.Valid version) : MessageItem.Valid version (.oneof oneof)
  | message {message : Message} (valid : Message.Valid version message) :
      MessageItem.Valid version (.message message)
  | enum {enum : Enum} (valid : enum.Valid) : MessageItem.Valid version (.enum enum)
  | extend {extend : Extend} (valid : extend.Valid version) :
      MessageItem.Valid version (.extend extend)

end

inductive FileItem.Valid (version : Version) : FileItem → Prop
  | message {message : Message} (valid : message.Valid version) :
      FileItem.Valid version (.message message)
  | enum {enum : Enum} (valid : enum.Valid) : FileItem.Valid version (.enum enum)
  | service {service : Service} : FileItem.Valid version (.service service)
  | extend {extend : Extend} (valid : extend.Valid version) :
      FileItem.Valid version (.extend extend)

/-- What is asked of a file: a known version, one package at most, and valid imports and
declarations. -/
structure Outline.Valid (outline : Outline) : Prop where
  version : ∀ version, outline.version = some version →
    version.1 = "proto2" ∨ version.1 = "proto3"
  package : (outline.statements.filterMap Parser.Statement.package?).length ≤ 1
  imports : ∀ statement ∈ outline.file.imports, IsImportPath statement.file
  items : ∀ item ∈ outline.file.items, item.Valid outline.file.version

/-! ## Ranges -/

namespace NumberRange

variable {Bound : IntLiteral → Prop}

theorem valid_single (start : IntLiteral) :
    NumberRange.Valid Bound ⟨start, .single⟩ ↔ Bound start :=
  ⟨fun valid => valid.start, fun bound => ⟨bound, fun _ written => (by cases written)⟩⟩

theorem valid_max (start : IntLiteral) (span : Span) :
    NumberRange.Valid Bound ⟨start, .max span⟩ ↔ Bound start :=
  ⟨fun valid => valid.start, fun bound => ⟨bound, fun _ written => (by cases written)⟩⟩

theorem valid_int (start stop : IntLiteral) :
    NumberRange.Valid Bound ⟨start, .int stop⟩ ↔
      Bound start ∧ Bound stop ∧ start.value ≤ stop.value := by
  constructor
  · intro valid
    exact ⟨valid.start, valid.stop stop rfl⟩
  · rintro ⟨lower, upper⟩
    exact ⟨lower, fun _ written => (by cases written; exact upper)⟩

end NumberRange

/-! ## Declarations inside others -/

namespace MessageItem

variable {version : Version}

@[simp] theorem valid_field (field : Field) :
    MessageItem.Valid version (.field field) ↔ field.Valid version none :=
  ⟨fun | .field valid => valid, .field⟩

@[simp] theorem valid_oneof (oneof : Oneof) :
    MessageItem.Valid version (.oneof oneof) ↔ oneof.Valid version :=
  ⟨fun | .oneof valid => valid, .oneof⟩

@[simp] theorem valid_message (message : Message) :
    MessageItem.Valid version (.message message) ↔ message.Valid version :=
  ⟨fun | .message valid => valid, .message⟩

@[simp] theorem valid_enum (enum : Enum) :
    MessageItem.Valid version (.enum enum) ↔ enum.Valid :=
  ⟨fun | .enum valid => valid, .enum⟩

@[simp] theorem valid_extend (extend : Extend) :
    MessageItem.Valid version (.extend extend) ↔ extend.Valid version :=
  ⟨fun | .extend valid => valid, .extend⟩

end MessageItem

namespace FileItem

variable {version : Version}

@[simp] theorem valid_message (message : Message) :
    FileItem.Valid version (.message message) ↔ message.Valid version :=
  ⟨fun | .message valid => valid, .message⟩

@[simp] theorem valid_enum (enum : Enum) : FileItem.Valid version (.enum enum) ↔ enum.Valid :=
  ⟨fun | .enum valid => valid, .enum⟩

@[simp] theorem valid_service (service : Service) : FileItem.Valid version (.service service) :=
  .service

@[simp] theorem valid_extend (extend : Extend) :
    FileItem.Valid version (.extend extend) ↔ extend.Valid version :=
  ⟨fun | .extend valid => valid, .extend⟩

end FileItem

theorem Message.valid_iff (version : Version) (message : Message) :
    message.Valid version ↔ (∀ item ∈ message.items, item.Valid version) ∧
      (∀ extensions ∈ message.extensions, extensions.Valid) ∧
      ∀ reserved ∈ message.reserved, reserved.Valid IntLiteral.IsFieldNumber := by
  constructor
  · rintro ⟨items, extensions, reserved⟩
    exact ⟨items, extensions, reserved⟩
  · rintro ⟨items, extensions, reserved⟩
    exact .intro items extensions reserved

/-! ## The checks of the parser -/

theorem isIdentStart_iff (character : Char) :
    Lexer.isIdentStart character = true ↔ character.isAlpha ∨ character = '_' := by
  have letters : character.isAlpha = (character.isUpper || character.isLower) := rfl
  have small : character.isLower =
      (decide (character.val ≥ 'a'.val) && decide (character.val ≤ 'z'.val)) := rfl
  have capital : character.isUpper =
      decide (character.val ≥ 'A'.val ∧ character.val ≤ 'Z'.val) := rfl
  simp only [Lexer.isIdentStart, letters, small, capital, Bool.or_eq_true,
    Bool.and_eq_true, decide_eq_true_eq, beq_iff_eq, Char.le_def]
  exact or_congr_left or_comm

theorem isIdentRest_iff (character : Char) :
    Lexer.isIdentRest character = true ↔ character.isAlphanum ∨ character = '_' := by
  rw [Lexer.isIdentRest, Bool.or_eq_true, isIdentStart_iff, Char.isAlphanum, Bool.or_eq_true,
    or_right_comm]
  rfl

theorem isIdentifier_iff {name : String} {first : Char} {rest : List Char}
    (text : name.toList = first :: rest) :
    IsIdentifier name ↔
      Lexer.isIdentStart first = true ∧ ∀ character ∈ rest, Lexer.isIdentRest character = true := by
  simp only [isIdentStart_iff, isIdentRest_iff]
  constructor
  · rintro ⟨other, more, sameText, named⟩
    cases text.symm.trans sameText
    exact named
  · intro named
    exact ⟨first, rest, text, named⟩

theorem join_eq_intercalate (separator : Char) (pieces : List (List Char)) :
    Text.join separator pieces = [separator].intercalate pieces := by
  fun_induction Text.join separator pieces with
  | case1 => rfl
  | case2 piece => simp
  | case3 piece pieces several induction =>
      cases pieces with
      | nil => exact absurd rfl several
      | cons next rest => simp [induction, List.intercalate_cons_cons]

theorem split_eq_splitOn (separator : Char) (characters : List Char) :
    Text.split separator characters = characters.splitOn separator := by
  have joined : [separator].intercalate (Text.split separator characters) = characters := by
    rw [← join_eq_intercalate, Text.join_split]
  calc
    Text.split separator characters =
        ([separator].intercalate (Text.split separator characters)).splitOn separator :=
      (List.splitOn_intercalate separator (fun _ => Text.not_mem_of_mem_split)
        (Text.split_ne_nil separator characters)).symm
    _ = characters.splitOn separator := by rw [joined]

theorem ofList_ne_iff (characters : List Char) (text : String) :
    (String.ofList characters != text) = true ↔ characters ≠ text.toList := by
  rw [bne_iff_ne, ne_eq, ne_eq, ← String.toList_inj, String.toList_ofList]

/-- A file name without empty parts is not empty and does not begin with a slash. -/
theorem isImportName_iff (path : String) :
    Parser.isImportName path = true ↔ IsImportPath path := by
  have checked : Parser.isImportName path = true ↔ '\\' ∉ path.toList ∧
      ∀ part ∈ path.toList.splitOn '/', part ≠ [] ∧ part ≠ ['.'] ∧ part ≠ ['.', '.'] := by
    simp only [Parser.isImportName, Text.splitString, split_eq_splitOn, Bool.and_eq_true,
      Bool.not_eq_true', List.contains_eq_mem, decide_eq_false_iff_not, List.all_map,
      List.all_eq_true, Function.comp_apply, ofList_ne_iff, and_assoc]
    rfl
  rw [checked]
  constructor
  · rintro ⟨forward, parts⟩
    have filled : [] ∉ path.toList.splitOn '/' := fun member => (parts [] member).1 rfl
    refine ⟨?_, forward, ?_, parts⟩
    · rintro rfl
      exact filled List.mem_cons_self
    · intro leading
      rcases List.head?_eq_some_iff.mp leading with ⟨rest, sameText⟩
      rw [sameText, ← split_eq_splitOn, Text.split, if_pos rfl] at filled
      exact filled List.mem_cons_self
  · intro valid
    exact ⟨valid.forward, valid.parts⟩

end ProtoSchema.Syntax
