import Mathlib.Data.List.Basic
import ProtoSchema.Proofs.Syntax.Validity
/-! # Bare trees

A tree without its spans and comments. They have no part in whether a tree is valid.
-/

namespace ProtoSchema.Syntax

/-- The span in the place of any other one. -/
def nowhere : Span :=
  ⟨0, 0⟩

/-! ## Names and values -/

def Ident.bare (ident : Ident) : Ident :=
  { ident with span := nowhere }

def DottedName.bare (name : DottedName) : DottedName :=
  ⟨name.first.bare, name.rest.map Ident.bare⟩

def TypeName.bare (type : TypeName) : TypeName :=
  ⟨type.leadingDot.map fun _ => nowhere, type.name.bare⟩

def IntLiteral.bare (literal : IntLiteral) : IntLiteral :=
  { literal with span := nowhere }

def Constant.bare : Constant → Constant
  | ident name => ident name.bare
  | int literal => int literal.bare
  | float value _ => float value nowhere
  | string value _ => string value nowhere

def OptionEntry.bare (entry : OptionEntry) : OptionEntry :=
  ⟨entry.name, nowhere, entry.value.bare, nowhere⟩

/-- A name has its text from what is left of it. -/
theorem DottedName.text_congr {name other : DottedName} (same : name.bare = other.bare) :
    name.text = other.text := by
  have text (name : DottedName) : name.bare.text = name.text := by
    simp [DottedName.text, DottedName.parts, DottedName.bare, Ident.bare, Function.comp_def]
  rw [← text name, same, text other]

/-! ## Ranges -/

def RangeEnd.bare : RangeEnd → RangeEnd
  | single => single
  | int literal => int literal.bare
  | max _ => max nowhere

def NumberRange.bare (range : NumberRange) : NumberRange :=
  ⟨range.start.bare, range.stop.bare⟩

def Reserved.bare : Reserved → Reserved
  | ranges written => ranges (written.map NumberRange.bare)
  | names written => names (written.map Ident.bare)

def ExtensionRanges.bare (extensions : ExtensionRanges) : ExtensionRanges :=
  ⟨extensions.ranges.map NumberRange.bare, extensions.options.map OptionEntry.bare, nowhere⟩

/-! ## Declarations -/

def FieldType.bare : FieldType → FieldType
  | named name => named name.bare
  | map key value _ => map key.bare value.bare nowhere

def Field.bare (field : Field) : Field :=
  { label := field.label.map fun label => (label.1, nowhere)
    type := field.type.bare
    name := field.name.bare
    number := field.number.bare
    options := field.options.map OptionEntry.bare
    comments := none
    span := nowhere }

def Oneof.bare (oneof : Oneof) : Oneof :=
  { name := oneof.name.bare
    fields := oneof.fields.map Field.bare
    options := oneof.options.map OptionEntry.bare
    comments := none
    span := nowhere }

def Extend.bare (extend : Extend) : Extend :=
  { extendee := extend.extendee.bare
    fields := extend.fields.map Field.bare
    comments := none
    span := nowhere }

def EnumValue.bare (value : EnumValue) : EnumValue :=
  { name := value.name.bare
    number := value.number.bare
    options := value.options.map OptionEntry.bare
    comments := none
    span := nowhere }

def Enum.bare (enum : Enum) : Enum :=
  { name := enum.name.bare
    values := enum.values.map EnumValue.bare
    options := enum.options.map OptionEntry.bare
    reserved := enum.reserved.map Reserved.bare
    comments := none
    span := nowhere }

def Method.bare (method : Method) : Method :=
  { method with
    name := method.name.bare
    input := method.input.bare
    output := method.output.bare
    options := method.options.map OptionEntry.bare
    comments := none
    span := nowhere }

def Service.bare (service : Service) : Service :=
  { name := service.name.bare
    methods := service.methods.map Method.bare
    options := service.options.map OptionEntry.bare
    comments := none
    span := nowhere }

mutual

def Message.bare : Message → Message
  | ⟨name, items, options, extensions, reserved, _, _⟩ =>
      { name := name.bare
        items := MessageItem.bareAll items
        options := options.map OptionEntry.bare
        extensions := extensions.map ExtensionRanges.bare
        reserved := reserved.map Reserved.bare
        comments := none
        span := nowhere }

def MessageItem.bare : MessageItem → MessageItem
  | .field declared => .field declared.bare
  | .oneof declared => .oneof declared.bare
  | .message declared => .message declared.bare
  | .enum declared => .enum declared.bare
  | .extend declared => .extend declared.bare

def MessageItem.bareAll : List MessageItem → List MessageItem
  | [] => []
  | item :: items => item.bare :: MessageItem.bareAll items

end

theorem MessageItem.bareAll_eq_map (items : List MessageItem) :
    MessageItem.bareAll items = items.map MessageItem.bare := by
  induction items with
  | nil => rfl
  | cons item items induction => rw [MessageItem.bareAll, induction, List.map_cons]

/-! ## Files -/

def Import.bare (statement : Import) : Import :=
  ⟨statement.modifier, statement.file, nowhere, nowhere⟩

def Package.bare (package : Package) : Package :=
  ⟨package.name.bare, nowhere⟩

def FileItem.bare : FileItem → FileItem
  | message declared => message declared.bare
  | enum declared => enum declared.bare
  | service declared => service declared.bare
  | extend declared => extend declared.bare

/-- A file without all spans and comments. Whether it has a statement that tells the version is
left. -/
def File.bare (file : File) : File :=
  { version := file.version
    versionSpan := file.versionSpan.map fun _ => nowhere
    package := file.package.map Package.bare
    imports := file.imports.map Import.bare
    options := file.options.map OptionEntry.bare
    items := file.items.map FileItem.bare }

/-! ## Statements -/

namespace Parser

def Entry.bare : Entry → Entry
  | blank => blank
  | option entry => option entry.bare
  | reserved statement => reserved statement.bare
  | extensions statement => extensions statement.bare
  | item declared => item declared.bare
  | field declared => field declared.bare
  | value declared => value declared.bare
  | method declared => method declared.bare

def Statement.bare : Statement → Statement
  | blank => blank
  | package statement => package statement.bare
  | import_ statement => import_ statement.bare
  | option statement => option statement.bare
  | item declared => item declared.bare

end Parser

section

variable {α β : Type} {select : α → Option β} {bare : α → α} {bareOne : β → β}

/-- What is selected from bare values is what is selected from the values, made bare. -/
theorem filterMap_bare (commutes : ∀ value, select (bare value) = (select value).map bareOne)
    (values : List α) :
    (values.map bare).filterMap select = (values.filterMap select).map bareOne := by
  rw [List.map_filterMap, List.filterMap_map]
  exact List.filterMap_congr fun value _ => commutes value

theorem filterMap_congr_bare
    (commutes : ∀ value, select (bare value) = (select value).map bareOne) {values others : List α}
    (same : values.map bare = others.map bare) :
    (values.filterMap select).map bareOne = (others.filterMap select).map bareOne := by
  rw [← filterMap_bare commutes, same, filterMap_bare commutes]

end

namespace Parser.Entry

theorem option?_bare (entry : Entry) : entry.bare.option? = entry.option?.map OptionEntry.bare := by
  cases entry <;> rfl

theorem reserved?_bare (entry : Entry) :
    entry.bare.reserved? = entry.reserved?.map Reserved.bare := by
  cases entry <;> rfl

theorem extensions?_bare (entry : Entry) :
    entry.bare.extensions? = entry.extensions?.map ExtensionRanges.bare := by
  cases entry <;> rfl

theorem item?_bare (entry : Entry) : entry.bare.item? = entry.item?.map MessageItem.bare := by
  cases entry <;> rfl

theorem field?_bare (entry : Entry) : entry.bare.field? = entry.field?.map Field.bare := by
  cases entry <;> rfl

theorem value?_bare (entry : Entry) : entry.bare.value? = entry.value?.map EnumValue.bare := by
  cases entry <;> rfl

theorem method?_bare (entry : Entry) : entry.bare.method? = entry.method?.map Method.bare := by
  cases entry <;> rfl

end Parser.Entry

namespace Parser.Statement

theorem package?_bare (statement : Statement) :
    statement.bare.package? = statement.package?.map Package.bare := by
  cases statement <;> rfl

theorem import?_bare (statement : Statement) :
    statement.bare.import? = statement.import?.map Import.bare := by
  cases statement <;> rfl

theorem option?_bare (statement : Statement) :
    statement.bare.option? = statement.option?.map OptionEntry.bare := by
  cases statement <;> rfl

theorem item?_bare (statement : Statement) :
    statement.bare.item? = statement.item?.map FileItem.bare := by
  cases statement <;> rfl

end Parser.Statement

def Outline.bare (outline : Outline) : Outline :=
  ⟨outline.version.map fun version => (version.1, nowhere),
    outline.statements.map Parser.Statement.bare⟩

theorem Outline.fileVersion_bare (outline : Outline) :
    outline.bare.fileVersion = outline.fileVersion := by
  rw [fileVersion, bare, Option.map_map]
  rfl

theorem Outline.file_bare (outline : Outline) : outline.bare.file = outline.file.bare := by
  rw [Outline.file, fileVersion_bare, File.bare, Outline.file]
  simp only [Outline.bare, filterMap_bare Parser.Statement.package?_bare,
    filterMap_bare Parser.Statement.import?_bare, filterMap_bare Parser.Statement.option?_bare,
    filterMap_bare Parser.Statement.item?_bare, List.head?_map, Option.map_map, Function.comp_def]

/-! ## Valid trees -/

section

variable {Bound : IntLiteral → Prop} {version : Version}

theorem IntLiteral.isFieldNumber_bare (literal : IntLiteral) :
    literal.bare.IsFieldNumber ↔ literal.IsFieldNumber :=
  Iff.rfl

theorem IntLiteral.isEnumNumber_bare (literal : IntLiteral) :
    literal.bare.IsEnumNumber ↔ literal.IsEnumNumber :=
  Iff.rfl

theorem NumberRange.valid_bare (bound : ∀ literal, Bound literal.bare ↔ Bound literal)
    (range : NumberRange) : range.bare.Valid Bound ↔ range.Valid Bound := by
  rcases range with ⟨start, _ | stop | span⟩
  · exact ((valid_single start.bare).trans (bound start)).trans (valid_single start).symm
  · refine ((valid_int start.bare stop.bare).trans ?_).trans (valid_int start stop).symm
    exact and_congr (bound start) (and_congr (bound stop) Iff.rfl)
  · exact ((valid_max start.bare nowhere).trans (bound start)).trans (valid_max start span).symm

theorem Reserved.valid_bare (bound : ∀ literal, Bound literal.bare ↔ Bound literal)
    (reserved : Reserved) : reserved.bare.Valid Bound ↔ reserved.Valid Bound := by
  cases reserved with
  | ranges written =>
      have all : (∀ range ∈ written.map NumberRange.bare, range.Valid Bound) ↔
          ∀ range ∈ written, range.Valid Bound := by
        simp only [List.forall_mem_map, NumberRange.valid_bare bound]
      exact ⟨fun | .ranges valid => .ranges (all.mp valid),
        fun | .ranges valid => .ranges (all.mpr valid)⟩
  | names written =>
      have all : (∀ name ∈ written.map Ident.bare, IsIdentifier name.name) ↔
          ∀ name ∈ written, IsIdentifier name.name :=
        List.forall_mem_map
      exact ⟨fun | .names valid => .names (all.mp valid),
        fun | .names valid => .names (all.mpr valid)⟩

theorem ExtensionRanges.valid_bare (extensions : ExtensionRanges) :
    extensions.bare.Valid ↔ extensions.Valid := by
  simp only [ExtensionRanges.Valid, ExtensionRanges.bare, List.forall_mem_map,
    NumberRange.valid_bare IntLiteral.isFieldNumber_bare]

theorem Field.valid_bare (host : Option FieldHost) (field : Field) :
    field.bare.Valid version host ↔ field.Valid version host := by
  have label : field.bare.label.map Prod.fst = field.label.map Prod.fst := by
    rw [Field.bare, Option.map_map]
    rfl
  have map : field.bare.type.isMap = field.type.isMap := by
    cases type : field.type <;> simp [Field.bare, type, FieldType.bare, FieldType.isMap]
  have without : field.bare.label = none ↔ field.label = none := Option.map_eq_none_iff
  constructor
  · rintro ⟨allowed, mapped, number⟩
    rw [label] at allowed
    rw [map, without] at mapped
    exact ⟨allowed, mapped, number⟩
  · rintro ⟨allowed, mapped, number⟩
    rw [← label] at allowed
    rw [← map, ← without] at mapped
    exact ⟨allowed, mapped, number⟩

theorem Oneof.valid_bare (oneof : Oneof) : oneof.bare.Valid version ↔ oneof.Valid version := by
  have fields : (∀ field ∈ oneof.bare.fields, field.Valid version (some .oneof)) ↔
      ∀ field ∈ oneof.fields, field.Valid version (some .oneof) := by
    simp only [Oneof.bare, List.forall_mem_map, Field.valid_bare]
  have inhabited : oneof.bare.fields ≠ [] ↔ oneof.fields ≠ [] :=
    not_congr List.map_eq_nil_iff
  exact ⟨fun valid => ⟨fields.mp valid.fields, inhabited.mp valid.inhabited⟩,
    fun valid => ⟨fields.mpr valid.fields, inhabited.mpr valid.inhabited⟩⟩

theorem Extend.valid_bare (extend : Extend) :
    extend.bare.Valid version ↔ extend.Valid version := by
  simp only [Extend.Valid, Extend.bare, List.forall_mem_map, Field.valid_bare]

theorem Enum.valid_bare (enum : Enum) : enum.bare.Valid ↔ enum.Valid := by
  have values : (∀ value ∈ enum.bare.values, value.number.IsEnumNumber) ↔
      ∀ value ∈ enum.values, value.number.IsEnumNumber :=
    List.forall_mem_map
  have reserved : (∀ reserved ∈ enum.bare.reserved, reserved.Valid IntLiteral.IsEnumNumber) ↔
      ∀ reserved ∈ enum.reserved, reserved.Valid IntLiteral.IsEnumNumber := by
    simp only [Enum.bare, List.forall_mem_map,
      Reserved.valid_bare IntLiteral.isEnumNumber_bare]
  exact ⟨fun valid => ⟨values.mp valid.values, reserved.mp valid.reserved⟩,
    fun valid => ⟨values.mpr valid.values, reserved.mpr valid.reserved⟩⟩

mutual

theorem Message.valid_bare (message : Message) :
    message.bare.Valid version ↔ message.Valid version := by
  rcases message with ⟨name, items, options, extensions, reserved, comments, span⟩
  rw [Message.valid_iff, Message.valid_iff, Message.bare]
  refine and_congr (MessageItem.valid_bareAll items) (and_congr ?_ ?_)
  · simp only [List.forall_mem_map, ExtensionRanges.valid_bare]
  · simp only [List.forall_mem_map, Reserved.valid_bare IntLiteral.isFieldNumber_bare]

theorem MessageItem.valid_bare (item : MessageItem) :
    item.bare.Valid version ↔ item.Valid version := by
  cases item with
  | field declared => simp only [MessageItem.bare, MessageItem.valid_field, Field.valid_bare]
  | oneof declared => simp only [MessageItem.bare, MessageItem.valid_oneof, Oneof.valid_bare]
  | message declared =>
      rw [MessageItem.bare, MessageItem.valid_message, MessageItem.valid_message]
      exact Message.valid_bare declared
  | enum declared => simp only [MessageItem.bare, MessageItem.valid_enum, Enum.valid_bare]
  | extend declared => simp only [MessageItem.bare, MessageItem.valid_extend, Extend.valid_bare]

theorem MessageItem.valid_bareAll (items : List MessageItem) :
    (∀ item ∈ MessageItem.bareAll items, item.Valid version) ↔
      ∀ item ∈ items, item.Valid version := by
  cases items with
  | nil => rw [MessageItem.bareAll]
  | cons item items =>
      rw [MessageItem.bareAll, List.forall_mem_cons, List.forall_mem_cons]
      exact and_congr (MessageItem.valid_bare item) (MessageItem.valid_bareAll items)

end

theorem FileItem.valid_bare (item : FileItem) : item.bare.Valid version ↔ item.Valid version := by
  cases item with
  | message declared => simp only [FileItem.bare, FileItem.valid_message, Message.valid_bare]
  | enum declared => simp only [FileItem.bare, FileItem.valid_enum, Enum.valid_bare]
  | service declared => exact iff_of_true .service .service
  | extend declared => simp only [FileItem.bare, FileItem.valid_extend, Extend.valid_bare]

end

theorem Outline.valid_bare (outline : Outline) : outline.bare.Valid ↔ outline.Valid := by
  have version : (∀ version, outline.bare.version = some version →
        version.1 = "proto2" ∨ version.1 = "proto3") ↔
      ∀ version, outline.version = some version →
        version.1 = "proto2" ∨ version.1 = "proto3" := by
    cases written : outline.version <;> simp [Outline.bare, written]
  have package : (outline.bare.statements.filterMap Parser.Statement.package?).length =
      (outline.statements.filterMap Parser.Statement.package?).length := by
    rw [Outline.bare, filterMap_bare Parser.Statement.package?_bare, List.length_map]
  have imports : (∀ statement ∈ outline.bare.file.imports, IsImportPath statement.file) ↔
      ∀ statement ∈ outline.file.imports, IsImportPath statement.file := by
    rw [file_bare]
    exact List.forall_mem_map
  have items : (∀ item ∈ outline.bare.file.items, item.Valid outline.bare.file.version) ↔
      ∀ item ∈ outline.file.items, item.Valid outline.file.version := by
    simp only [file_bare, File.bare, List.forall_mem_map, FileItem.valid_bare]
  constructor
  · intro valid
    exact ⟨version.mp valid.version, package ▸ valid.package, imports.mp valid.imports,
      items.mp valid.items⟩
  · intro valid
    exact ⟨version.mpr valid.version, package ▸ valid.package, imports.mpr valid.imports,
      items.mpr valid.items⟩

/-- Whether a file is valid, its spans and comments do not tell. -/
theorem Outline.valid_congr {outline other : Outline} (same : outline.bare = other.bare) :
    outline.Valid ↔ other.Valid := by
  rw [← outline.valid_bare, same, other.valid_bare]

end ProtoSchema.Syntax
