import Mathlib.Data.List.Forall2
import ProtoSchema.Proofs.Draft.Contents
import ProtoSchema.Proofs.Draft.Correspondence
import ProtoSchema.Proofs.Syntax.Recovery
import ProtoSchema.Proofs.Syntax.Written
/-! # Numbers of drafts

Of an accepted source a model has exactly the numbers that are written. The bounds that the
parser checks are narrow enough for the numbers of fields, enum values and ranges to have 32
bits; an option keeps an integer with its sign.
-/

namespace ProtoSchema

/-! ## Lists one by one -/

theorem forall₂_map_of_mem {α β : Type} {Kept : α → β → Prop} {drawn : α → β} {declared : List α}
    (each : ∀ value ∈ declared, Kept value (drawn value)) :
    List.Forall₂ Kept declared (declared.map drawn) :=
  List.forall₂_map_right_iff.mpr (List.forall₂_same.mpr each)

theorem forall₂_of_mem {α β : Type} {Valid : α → Prop} {Drawn Kept : α → β → Prop}
    {declared : List α} {own : List β} (valid : ∀ value ∈ declared, Valid value)
    (drawn : List.Forall₂ Drawn declared own)
    (each : ∀ value other, Drawn value other → Valid value → Kept value other) :
    List.Forall₂ Kept declared own :=
  ((List.forall₂_and_left _ _).mpr ⟨valid, drawn⟩).imp fun value other both =>
    each value other both.2 both.1

namespace Syntax

/-! ## Bounds -/

theorem IntLiteral.IsFieldNumber.isEnumNumber {literal : IntLiteral}
    (bounds : literal.IsFieldNumber) : literal.IsEnumNumber := by
  rcases bounds with ⟨lower, upper⟩
  exact ⟨by omega, by omega⟩

theorem NumberRange.Valid.mono {Bound Wider : IntLiteral → Prop} {range : NumberRange}
    (valid : range.Valid Bound) (wider : ∀ literal, Bound literal → Wider literal) :
    range.Valid Wider where
  start := wider _ valid.start
  stop stop written := (valid.stop stop written).imp_left (wider stop)

theorem Reserved.Valid.numbers {Bound : IntLiteral → Prop} {reserved : Reserved}
    (valid : reserved.Valid Bound) : ∀ range ∈ reserved.numbers, range.Valid Bound := by
  cases valid with
  | ranges all => exact all
  | names => exact nofun

/-- The fields of a valid message, those of its oneofs among them, have numbers of fields. -/
theorem Message.Valid.fields {version : Version} {message : Message}
    (valid : message.Valid version) : ∀ field ∈ message.fields, field.number.IsFieldNumber := by
  intro field member
  rcases valid with ⟨items, -, -⟩
  rcases List.mem_flatMap.mp member with ⟨item, inMessage, inItem⟩
  cases items item inMessage with
  | field valid =>
      cases List.mem_singleton.mp inItem
      exact valid.number
  | oneof valid => exact (valid.fields field inItem).number
  | message | enum | extend => cases inItem

theorem Message.Valid.extensionRanges {version : Version} {message : Message}
    (valid : message.Valid version) :
    ∀ range ∈ message.extensions.flatMap ExtensionRanges.ranges,
      range.Valid IntLiteral.IsEnumNumber := by
  intro range member
  rcases List.mem_flatMap.mp member with ⟨statement, inMessage, inStatement⟩
  rcases valid with ⟨-, extensions, -⟩
  exact (extensions statement inMessage range inStatement).mono fun _ bounds => bounds.isEnumNumber

end Syntax

namespace Draft

/-! ## What is kept -/

theorem narrow_eq {literal : Syntax.IntLiteral} (bounds : literal.IsEnumNumber) :
    narrow literal = literal.value := by
  rcases bounds with ⟨lower, upper⟩
  rw [narrow]
  omega

/-- An option has the name and, if its value is an integer, the value that are written. The
integer is signed if a minus sign is written before it; from `-2 ^ 63` on it has 64 bits. -/
structure OptionKept (entry : Syntax.OptionEntry) (own : String × OptionValue) : Prop where
  name : own.1 = entry.name
  unsigned : ∀ literal, entry.value = .int literal → literal.negative = false →
    own.2 = .unsigned literal.magnitude
  signed : ∀ literal, entry.value = .int literal → literal.negative = true →
    -2 ^ 63 ≤ literal.value → own.2 = .signed literal.value

def OptionsKept (entries : List Syntax.OptionEntry) (own : Options) : Prop :=
  List.Forall₂ OptionKept entries own.entries

/-- A range has the bounds that are written. The first one is also the last one of a single
number, and `max` stands for the greatest number of a field. -/
inductive RangeKept : Syntax.NumberRange → TagRange → Prop
  | single (start : Syntax.IntLiteral) : RangeKept ⟨start, .single⟩ ⟨start.value, start.value⟩
  | int (start stop : Syntax.IntLiteral) : RangeKept ⟨start, .int stop⟩ ⟨start.value, stop.value⟩
  | max (start : Syntax.IntLiteral) (span : Span) :
      RangeKept ⟨start, .max span⟩ ⟨start.value, maxTag⟩

structure FieldKept (declared : Syntax.Field) (own : Field) : Prop where
  name : own.name = declared.name.name
  span : own.span = declared.name.span
  number : own.number = declared.number.value
  options : OptionsKept declared.options own.options

structure EnumValueKept (declared : Syntax.EnumValue) (own : EnumValue) : Prop where
  name : own.name = declared.name.name
  number : own.number = declared.number.value
  options : OptionsKept declared.options own.options

structure MessageKept (declared : Syntax.Message) (own : Message) : Prop where
  name : own.name = declared.name.name
  fields : List.Forall₂ FieldKept declared.fields own.fields
  oneofs : List.Forall₂ (fun oneof other => OptionsKept oneof.options other.options)
    declared.oneofs own.oneofs
  extensionRanges : List.Forall₂ RangeKept
    (declared.extensions.flatMap Syntax.ExtensionRanges.ranges) own.extensionRanges
  reservedRanges : List.Forall₂ RangeKept
    (declared.reserved.flatMap Syntax.Reserved.numbers) own.reservedRanges
  options : OptionsKept declared.options own.options

structure EnumKept (declared : Syntax.Enum) (own : Enum) : Prop where
  name : own.name = declared.name.name
  values : List.Forall₂ EnumValueKept declared.values own.values
  reservedRanges : List.Forall₂ RangeKept
    (declared.reserved.flatMap Syntax.Reserved.numbers) own.reservedRanges
  options : OptionsKept declared.options own.options

def ExtensionKept (declared : Syntax.Extend) (own : Extension) : Prop :=
  List.Forall₂ FieldKept declared.fields own.fields

structure ServiceKept (declared : Syntax.Service) (own : Service) : Prop where
  name : own.name = declared.name.name
  methods : List.Forall₂ (fun method other => OptionsKept method.options other.options)
    declared.methods own.methods
  options : OptionsKept declared.options own.options

/-- A model has the declarations of a tree, at any depth, with the numbers that are written
in them. -/
structure NumbersKept (tree : Syntax.File) (file : ProtoFile) : Prop where
  messages : List.Forall₂ MessageKept tree.messages file.allMessages.toList
  enums : List.Forall₂ EnumKept tree.enums file.allEnums.toList
  extensions : List.Forall₂ ExtensionKept tree.extends_ file.allExtensions.toList
  services : List.Forall₂ ServiceKept tree.services file.allServices.toList
  options : OptionsKept tree.options file.options

/-! ## Options -/

theorem optionKept (entry : Syntax.OptionEntry) :
    OptionKept entry (entry.name, optionValue entry.value) where
  name := rfl
  unsigned literal written plain := by
    rw [written, optionValue, plain]
    rfl
  signed literal written minus bound := by
    have small : 2 * literal.magnitude ≤ UInt64.size := by
      rw [Syntax.IntLiteral.value, minus, if_pos rfl] at bound
      have size : UInt64.size = 2 * 2 ^ 63 := rfl
      omega
    rw [written, optionValue, minus, if_pos rfl, if_pos small]

theorem optionsKept (entries : List Syntax.OptionEntry) :
    OptionsKept entries (options entries) :=
  forall₂_map_of_mem fun entry _ => optionKept entry

/-! ## Ranges -/

theorem rangeKept {range : Syntax.NumberRange}
    (valid : range.Valid Syntax.IntLiteral.IsEnumNumber) : RangeKept range (tagRange range) := by
  rcases range with ⟨start, stop⟩
  have lower : narrow start = start.value := narrow_eq valid.start
  cases stop with
  | single =>
      rw [tagRange, lower]
      exact .single start
  | int stop =>
      have upper : narrow stop = stop.value := narrow_eq (valid.stop stop rfl).1
      change RangeKept _ ⟨narrow start, narrow stop⟩
      rw [lower, upper]
      exact .int start stop
  | max span =>
      rw [tagRange, lower]
      exact .max start span

theorem rangesKept {ranges : List Syntax.NumberRange}
    (valid : ∀ range ∈ ranges, range.Valid Syntax.IntLiteral.IsEnumNumber) :
    List.Forall₂ RangeKept ranges (ranges.map tagRange) :=
  forall₂_map_of_mem fun range member => rangeKept (valid range member)

theorem reservedRanges_eq (statements : List Syntax.Reserved) :
    reservedRanges statements = (statements.flatMap Syntax.Reserved.numbers).map tagRange := by
  rw [reservedRanges, List.map_flatMap]
  congr 1
  funext statement
  cases statement <;> rfl

theorem reservedRangesKept {Bound : Syntax.IntLiteral → Prop}
    {statements : List Syntax.Reserved} (valid : ∀ reserved ∈ statements, reserved.Valid Bound)
    (small : ∀ literal, Bound literal → literal.IsEnumNumber) :
    List.Forall₂ RangeKept (statements.flatMap Syntax.Reserved.numbers)
      (reservedRanges statements) := by
  rw [reservedRanges_eq]
  refine rangesKept fun range member => ?_
  rcases List.mem_flatMap.mp member with ⟨reserved, inStatements, inReserved⟩
  exact ((valid reserved inStatements).numbers range inReserved).mono small

/-! ## Declarations -/

variable {place : Place}

theorem fieldKept {source : Source} {declared : Syntax.Field} {own : Field}
    (drawn : FieldDrawn source declared own) (bounds : declared.number.IsFieldNumber) :
    FieldKept declared own := by
  rcases drawn with ⟨oneof, rfl⟩
  exact
    { name := rfl
      span := rfl
      number := narrow_eq bounds.isEnumNumber
      options := optionsKept declared.options }

theorem fieldsKept {source : Source} {declared : List Syntax.Field} {own : List Field}
    (drawn : List.Forall₂ (FieldDrawn source) declared own)
    (bounds : ∀ field ∈ declared, field.number.IsFieldNumber) :
    List.Forall₂ FieldKept declared own :=
  forall₂_of_mem bounds drawn fun _ _ => fieldKept

theorem messageKept {Around : Syntax.Message → Prop} {source : Source} {version : Syntax.Version}
    {declared : Syntax.Message} {own : Message}
    (drawn : MessageDrawn Around source place declared own) (valid : declared.Valid version) :
    MessageKept declared own := by
  rcases drawn with ⟨inner, scope, contents, -, rfl, fields, oneofs⟩
  have bounds := valid.fields
  have ranges := valid.extensionRanges
  rcases valid with ⟨-, -, reserved⟩
  exact
    { name := rfl
      fields := fieldsKept fields bounds
      oneofs := oneofs.imp fun oneof other same => same ▸ optionsKept oneof.options
      extensionRanges := by
        rw [message, ← List.map_flatMap]
        exact rangesKept ranges
      reservedRanges := reservedRangesKept reserved fun _ bounds => bounds.isEnumNumber
      options := optionsKept declared.options }

theorem enumKept {Around : Syntax.Message → Prop} {source : Source} {declared : Syntax.Enum}
    {own : Enum} (drawn : EnumDrawn Around source place declared own) (valid : declared.Valid) :
    EnumKept declared own := by
  rcases drawn with ⟨inner, -, rfl⟩
  refine
    { name := rfl
      values := forall₂_map_of_mem fun value member => ?_
      reservedRanges := reservedRangesKept valid.reserved fun _ => id
      options := optionsKept declared.options }
  exact
    { name := rfl
      number := narrow_eq (valid.values value member)
      options := optionsKept value.options }

theorem extensionKept {Around : Syntax.Message → Prop} {source : Source}
    {version : Syntax.Version} {declared : Syntax.Extend} {own : Extension}
    (drawn : ExtensionDrawn Around source place declared own) (valid : declared.Valid version) :
    ExtensionKept declared own := by
  rcases drawn with ⟨inner, -, rfl⟩
  have fields : List.Forall₂ (FieldDrawn source) declared.fields
      (declared.fields.map (field source.locate)) :=
    forall₂_map_of_mem fun _ _ => ⟨none, rfl⟩
  exact fieldsKept fields fun field member => (valid field member).number

theorem serviceKept (source : Source) (declared : Syntax.Service) :
    ServiceKept declared (service source place declared) where
  name := rfl
  methods := forall₂_map_of_mem fun method _ => optionsKept method.options
  options := optionsKept declared.options

/-! ## Whole files -/

variable {name source : String} {tree : Syntax.File}

theorem numbersKept (parsed : Syntax.parse name source = .ok tree) (id : FileId) :
    NumbersKept tree (ofTree id name source tree).file := by
  have drawn := fileDrawn_ofTree id name source tree
  have valid := Syntax.valid_of_parse parsed
  have messages := Syntax.File.forall_mem_messages valid
  have enums := Syntax.File.forall_mem_enums valid
  have extensions := Syntax.File.forall_mem_extends valid
  exact
    { messages := forall₂_of_mem messages drawn.messages fun _ _ => messageKept
      enums := forall₂_of_mem enums drawn.enums fun _ _ => enumKept
      extensions := forall₂_of_mem extensions drawn.extensions fun _ _ => extensionKept
      services := by
        rw [drawn.services]
        exact forall₂_map_of_mem fun declared _ => serviceKept _ declared
      options := optionsKept tree.options }

/-- The field numbers of an extend block are within the bounds of the grammar. -/
theorem bounded_of_mem_allExtensions (parsed : Syntax.parse name source = .ok tree)
    (id : FileId) {extension : Extension}
    (member : extension ∈ (ofTree id name source tree).file.allExtensions) {field : Field}
    (inBlock : field ∈ extension.fields) : 1 ≤ field.number ∧ field.number ≤ 536870911 := by
  have drawn := (fileDrawn_ofTree id name source tree).extensions
  rcases exists_of_mem_forall₂ drawn (Array.mem_toList_iff.mpr member) with
    ⟨declared, inTree, place, -, rfl⟩
  rcases List.mem_map.mp inBlock with ⟨written, inDeclared, rfl⟩
  have valid := Syntax.File.forall_mem_extends (Syntax.valid_of_parse parsed) declared inTree
  have bounds := (valid written inDeclared).number
  have same : narrow written.number = written.number.value := narrow_eq bounds.isEnumNumber
  rw [Draft.field, same]
  exact bounds

end Draft

end ProtoSchema
