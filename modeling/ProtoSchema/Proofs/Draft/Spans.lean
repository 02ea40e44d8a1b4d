import ProtoSchema.Proofs.Draft.Contents
import ProtoSchema.Proofs.Draft.Correspondence
import ProtoSchema.Proofs.Syntax.Faithful
import ProtoSchema.Proofs.Syntax.Tiling
/-! # Spans of drafts

A draft keeps the spans of its tree at which problems may be found later: those of names, of the
types of fields, and of the other types that declarations refer to. In a draft of an accepted
source they are places of the source.
-/

namespace ProtoSchema

namespace Syntax

variable {source : String}

/-! ## Layouts at places -/

theorem StandsAt.placed {span : Span} {text : List Char} (stands : StandsAt source span text)
    (filled : text ≠ []) : Placed source span := by
  rcases stands with ⟨after, stands⟩
  exact TextAt.placed stands filled

/-- The layouts directly inside another one. -/
def Layout.parts : Layout → List Layout
  | part _ inner => inner
  | word _ _ => []
  | entry _ inner => inner
  | statement _ _ _ inner => inner.flatten

namespace Layout.Faithful

variable {layout : Layout}

theorem placed (faithful : layout.Faithful source) : Placed source layout.span := by
  cases faithful with
  | part stands filled => exact stands.placed filled
  | word stands filled =>
      exact stands.placed fun empty => filled (String.toList_eq_nil_iff.mp empty)
  | entry stands _ stops =>
      refine stands.placed ?_
      rintro rfl
      cases stops
  | statement stands _ stops =>
      refine stands.placed fun empty => ?_
      rw [empty] at stops
      cases stops

theorem of_mem_parts (faithful : layout.Faithful source) :
    ∀ part ∈ layout.parts, part.Faithful source := by
  cases faithful with
  | part _ _ _ faithful => exact faithful
  | word => exact nofun
  | entry _ _ _ _ faithful => exact faithful
  | statement _ _ _ _ _ faithful =>
      intro part member
      rcases List.mem_flatten.mp member with ⟨list, inside, here⟩
      exact faithful list inside part here

end Layout.Faithful

/-- A sentence of a source stands where it is laid out. -/
theorem LaidOut.faithful_inside {sentence : List Lexeme} {layout : Layout}
    (laidOut : LaidOut source sentence [layout]) (inside : sentence <:+: (lex source).lexemes) :
    layout.Faithful source := by
  rcases inside with ⟨front, back, split⟩
  have run := run_lexemes source
  rw [← split, Run.append_iff] at run
  rcases run with ⟨stop, run, -⟩
  rcases Run.append_iff.mp run with ⟨start, -, own⟩
  exact (laidOut start stop own).2 layout (List.mem_singleton_self layout)

/-! ## Declarations of a tree -/

/-- All spans of a declaration are those of a source. -/
def laid (source : String) : Asked where
  message message := message.layout.Faithful source
  enum enum := enum.layout.Faithful source
  extend extend := extend.layout.Faithful source
  service service := service.layout.Faithful source

theorem laid_of_parse {name : String} {tree : File} (parsed : parse name source = .ok tree) :
    ∀ event ∈ tree.events, event.Meets (laid source) := by
  intro event member
  have stands := standing_of_parse parsed event member
  cases event with
  | exitMessage message =>
      rcases stands with ⟨sentence, inside, written⟩
      exact (Grammar.Message.laidOut written).faithful_inside inside
  | exitEnum enum =>
      rcases stands with ⟨sentence, inside, written⟩
      exact (Grammar.Enum.laidOut written).faithful_inside inside
  | exitExtend extend =>
      rcases stands with ⟨sentence, inside, written⟩
      exact (Grammar.Extend.laidOut written).faithful_inside inside
  | exitService service =>
      rcases stands with ⟨sentence, inside, written⟩
      exact (Grammar.Service.laidOut written).faithful_inside inside
  | _ => trivial

/-- A field of a message stands inside the message, perhaps in a oneof. -/
theorem Message.faithful_fields {message : Message} (faithful : message.layout.Faithful source) :
    message.name.layout.Faithful source ∧
      ∀ field ∈ message.fields, field.layout.Faithful source := by
  rcases message with ⟨name, items, options, extensions, reserved, comments, span⟩
  rw [Message.layout, Grammar.layouts_eq_map] at faithful
  have parts := faithful.of_mem_parts
  simp only [Layout.parts, List.flatten_cons, List.forall_mem_append, List.forall_mem_singleton,
    List.forall_mem_map] at parts
  refine ⟨parts.1, fun field member => ?_⟩
  rcases List.mem_flatMap.mp member with ⟨item, inside, own⟩
  have whole := parts.2.1 item inside
  cases item with
  | field declared =>
      cases List.mem_singleton.mp own
      exact whole
  | oneof declared =>
      have oneof : declared.layout.Faithful source := whole
      have inner := oneof.of_mem_parts
      simp only [Oneof.layout, Layout.parts, List.flatten_cons, List.forall_mem_append,
        List.forall_mem_map] at inner
      exact inner.2.1 field own
  | message | enum | extend => cases own

theorem Extend.faithful_fields {extend : Extend} (faithful : extend.layout.Faithful source) :
    extend.extendee.layout.Faithful source ∧
      ∀ field ∈ extend.fields, field.layout.Faithful source := by
  have parts := faithful.of_mem_parts
  simpa only [Extend.layout, Layout.parts, List.flatten_cons, List.flatten_nil, List.append_nil,
    List.forall_mem_cons, List.forall_mem_map] using parts

theorem Enum.faithful_name {enum : Enum} (faithful : enum.layout.Faithful source) :
    enum.name.layout.Faithful source :=
  faithful.of_mem_parts _ (by simp [Enum.layout, Layout.parts])

theorem Method.faithful_types {method : Method} (faithful : method.layout.Faithful source) :
    method.input.layout.Faithful source ∧ method.output.layout.Faithful source :=
  ⟨faithful.of_mem_parts _ (by simp [Method.layout, Layout.parts]),
    faithful.of_mem_parts _ (by simp [Method.layout, Layout.parts])⟩

theorem Service.faithful_methods {service : Service}
    (faithful : service.layout.Faithful source) :
    service.name.layout.Faithful source ∧
      ∀ method ∈ service.methods, method.layout.Faithful source := by
  have parts := faithful.of_mem_parts
  simp only [Service.layout, Layout.parts, List.flatten_cons, List.forall_mem_append,
    List.forall_mem_singleton, List.forall_mem_map] at parts
  exact ⟨parts.1, parts.2.1⟩

theorem FieldType.span_layout (type : FieldType) : type.layout.span = type.span := by
  cases type <;> rfl

/-- The name and the type of a field. -/
theorem Field.placed {field : Field} (faithful : field.layout.Faithful source) :
    Placed source field.name.span ∧ Placed source field.type.span := by
  have parts := faithful.of_mem_parts
  simp only [Field.layout, Layout.parts, List.forall_mem_append, List.forall_mem_cons] at parts
  rw [← field.type.span_layout]
  exact ⟨parts.2.2.1.placed, parts.2.1.placed⟩

end Syntax

/-! ## Declarations of a draft -/

/-- What a field keeps are places of a source. -/
structure Field.SpansIn (source : String) (field : Field) : Prop where
  span : Syntax.Placed source field.span
  typeSpan : Syntax.Placed source field.typeSpan

structure Message.SpansIn (source : String) (message : Message) : Prop where
  span : Syntax.Placed source message.span
  fields : ∀ field ∈ message.fields, field.SpansIn source

structure Extension.SpansIn (source : String) (extension : Extension) : Prop where
  extendeeSpan : Syntax.Placed source extension.extendeeSpan
  fields : ∀ field ∈ extension.fields, field.SpansIn source

structure Service.SpansIn (source : String) (service : Service) : Prop where
  span : Syntax.Placed source service.span
  methods : ∀ method ∈ service.methods,
    Syntax.Placed source method.inputSpan ∧ Syntax.Placed source method.outputSpan

/-- What all declarations of a file keep are places of a source. -/
structure ProtoFile.SpansIn (source : String) (file : ProtoFile) : Prop where
  messages : ∀ message ∈ file.allMessages.toList, message.SpansIn source
  enums : ∀ enum ∈ file.allEnums.toList, Syntax.Placed source enum.span
  extensions : ∀ extension ∈ file.allExtensions.toList, extension.SpansIn source
  services : ∀ service ∈ file.allServices.toList, service.SpansIn source

namespace Draft

variable {source : String}

theorem FieldDrawn.spansIn {origin : Source} {declared : Syntax.Field} {drawn : Field}
    (draws : FieldDrawn origin declared drawn) (faithful : declared.layout.Faithful source) :
    drawn.SpansIn source := by
  rcases draws with ⟨oneof, rfl⟩
  rcases Syntax.Field.placed faithful with ⟨name, type⟩
  exact ⟨name, type⟩

theorem spansIn_ofTree {name : String} {tree : Syntax.File}
    (parsed : Syntax.parse name source = .ok tree) (id : FileId) :
    (ofTree id name source tree).file.SpansIn source := by
  have laid := Syntax.laid_of_parse parsed
  have drawn := fileDrawn_ofTree id name source tree
  constructor
  · intro message member
    rcases exists_of_mem_forall₂ drawn.messages member with
      ⟨declared, inTree, place, scope, contents, -, rfl, fields, -⟩
    rcases Syntax.Message.faithful_fields (Syntax.File.forall_mem_messages laid declared inTree)
      with ⟨called, faithful⟩
    refine ⟨called.placed, fun field own => ?_⟩
    rcases exists_of_mem_forall₂ fields own with ⟨written, inside, draws⟩
    exact draws.spansIn (faithful written inside)
  · intro enum member
    rcases exists_of_mem_forall₂ drawn.enums member with ⟨declared, inTree, place, -, rfl⟩
    exact (Syntax.Enum.faithful_name (Syntax.File.forall_mem_enums laid declared inTree)).placed
  · intro extension member
    rcases exists_of_mem_forall₂ drawn.extensions member with ⟨declared, inTree, place, -, rfl⟩
    rcases Syntax.Extend.faithful_fields (Syntax.File.forall_mem_extends laid declared inTree)
      with ⟨called, faithful⟩
    refine ⟨called.placed, List.forall_mem_map.mpr fun written inside => ?_⟩
    have draws : FieldDrawn (fileSource id name source) written
        (field (fileSource id name source).locate written) := ⟨none, rfl⟩
    exact draws.spansIn (faithful written inside)
  · rw [drawn.services, List.forall_mem_map]
    intro declared inTree
    rcases Syntax.Service.faithful_methods (Syntax.File.forall_mem_services laid declared inTree)
      with ⟨called, faithful⟩
    refine ⟨called.placed, List.forall_mem_map.mpr fun method inside => ?_⟩
    rcases Syntax.Method.faithful_types (faithful method inside) with ⟨input, output⟩
    exact ⟨input.placed, output.placed⟩

end Draft

namespace ProtoFile.SpansIn

variable {source : String} {file : ProtoFile}

/-! ## Names and references -/

theorem declaredNames (spans : file.SpansIn source) :
    ∀ declared ∈ file.declaredNames, Syntax.Placed source declared.span := by
  intro declared member
  simp only [ProtoFile.declaredNames, List.mem_append, List.mem_map] at member
  rcases member with (⟨entry, inside, rfl⟩ | ⟨entry, inside, rfl⟩) | ⟨entry, inside, rfl⟩
  · exact (spans.messages entry.1 (List.fst_mem_of_mem_zipIdx inside)).span
  · exact spans.enums entry.1 (List.fst_mem_of_mem_zipIdx inside)
  · exact (spans.services entry.1 (List.fst_mem_of_mem_zipIdx inside)).span

theorem references (spans : file.SpansIn source) :
    ∀ reference ∈ file.references, Syntax.Placed source reference.span := by
  intro reference member
  simp only [ProtoFile.references, List.mem_append, List.mem_flatMap] at member
  rcases member with (⟨service, inside, method, own, here⟩ | ⟨message, inside, here⟩) |
    ⟨extension, inside, here⟩
  · rcases (spans.services service inside).methods method own with ⟨input, output⟩
    simp only [Draft.methodReferences, List.mem_cons, List.not_mem_nil, or_false] at here
    rcases here with rfl | rfl
    · exact input
    · exact output
  · rcases List.mem_map.mp here with ⟨field, own, rfl⟩
    exact ((spans.messages message inside).fields field own).typeSpan
  · rcases spans.extensions extension inside with ⟨extendee, fields⟩
    rcases List.mem_cons.mp here with rfl | here
    · exact extendee
    · rcases List.mem_map.mp here with ⟨field, own, rfl⟩
      exact (fields field own).typeSpan

end ProtoFile.SpansIn

namespace Draft

variable {name source : String} {tree : Syntax.File}

/-- Every name that a file declares is at its place. -/
theorem placed_of_mem_names (parsed : Syntax.parse name source = .ok tree) (id : FileId) :
    ∀ declared ∈ (ofTree id name source tree).names, Syntax.Placed source declared.span :=
  fun declared member => (spansIn_ofTree parsed id).declaredNames declared
    ((ofTree_names_perm id name source tree).mem_iff.mp member)

theorem placed_of_mem_references (parsed : Syntax.parse name source = .ok tree) (id : FileId) :
    ∀ reference ∈ (ofTree id name source tree).references, Syntax.Placed source reference.span :=
  fun reference member => (spansIn_ofTree parsed id).references reference
    ((ofTree_references_perm id name source tree).mem_iff.mp member)

end Draft

end ProtoSchema
