import ProtoSchema.Proofs.Compiler.Locations
import ProtoSchema.Proofs.Text.Lines
/-! # Lines of errors and of declarations

A file and the errors about it number lines alike: an error is located in the line in which the
model has the declarations that begin in the same line of the source.
-/

namespace ProtoSchema

/-- A span that is not empty lies inside a source. -/
def Span.Within (span : Span) (source : String) : Prop :=
  span.start < span.stop ∧ span.stop ≤ source.toUTF8.toList.length

instance (span : Span) (source : String) : Decidable (span.Within source) :=
  inferInstanceAs (Decidable (_ ∧ _))

theorem Syntax.Placed.within {source : String} {span : Span} (placed : Syntax.Placed source span) :
    span.Within source := by
  refine ⟨placed.filled, ?_⟩
  rw [Utf8.toUTF8_toList, Utf8.length_encode]
  exact placed.stop.le

/-- The line that some line feeds before a place lead to. -/
def Text.lineFed (source : String) (place : Nat) : Nat :=
  feedsBefore source.toUTF8.toList place + 1

theorem LoadError.lineOf?_eq {source : String} (paired : Text.ReturnsPaired source.toUTF8.toList)
    {span : Span} (within : span.Within source) :
    lineOf? source span = some (Text.lineFed source span.start) := by
  rcases Text.exists_position paired within.1 within.2 with ⟨position, found, line⟩
  rw [lineOf?, found, Option.map_some, line]
  rfl

/-! ## Declarations -/

namespace Syntax

/-- The spans of a message, and of the fields and oneofs in it. -/
def Message.declaredSpans (message : Message) : List Span :=
  message.span :: (message.fields.map Field.span ++ message.oneofs.map Oneof.span)

def Enum.declaredSpans (enum : Enum) : List Span :=
  enum.span :: enum.values.map EnumValue.span

def Extend.declaredSpans (extend : Extend) : List Span :=
  extend.span :: extend.fields.map Field.span

def Service.declaredSpans (service : Service) : List Span :=
  service.span :: service.methods.map Method.span

/-- The spans of all declarations of a file. -/
def File.declaredSpans (file : File) : List Span :=
  file.messages.flatMap Message.declaredSpans ++ file.enums.flatMap Enum.declaredSpans ++
    file.extends_.flatMap Extend.declaredSpans ++ file.services.flatMap Service.declaredSpans

end Syntax

/-- The locations of a message, and of the fields and oneofs in it. -/
def Message.locations (message : Message) : List Location :=
  message.location :: (message.fields.map Field.location ++ message.oneofs.map Oneof.location)

def Enum.locations (enum : Enum) : List Location :=
  enum.location :: enum.values.map EnumValue.location

def Extension.locations (extension : Extension) : List Location :=
  extension.location :: extension.fields.map Field.location

def Service.locations (service : Service) : List Location :=
  service.location :: service.methods.map Method.location

/-- The locations of all declarations of a file, in the order of `Syntax.File.declaredSpans`. -/
def ProtoFile.locations (file : ProtoFile) : List Location :=
  file.allMessages.toList.flatMap Message.locations ++
    file.allEnums.toList.flatMap Enum.locations ++
    file.allExtensions.toList.flatMap Extension.locations ++
    file.allServices.toList.flatMap Service.locations

namespace Draft

variable {source : Source} {place : Place} {Around : Syntax.Message → Prop}

/-- A declaration is located by its span. -/
def LocatedBy (source : Source) (span : Span) (location : Location) : Prop :=
  location = source.locate span

theorem MessageDrawn.located {declared : Syntax.Message} {drawn : Message}
    (draws : MessageDrawn Around source place declared drawn) :
    List.Forall₂ (LocatedBy source) declared.declaredSpans drawn.locations := by
  rcases draws with ⟨inner, scope, contents, -, rfl, fields, oneofs⟩
  refine .cons rfl (List.rel_append (List.rel_map ?_ fields) (List.rel_map ?_ oneofs))
  · rintro own value ⟨oneof, rfl⟩
    exact rfl
  · rintro own value rfl
    exact rfl

theorem EnumDrawn.located {declared : Syntax.Enum} {drawn : Enum}
    (draws : EnumDrawn Around source place declared drawn) :
    List.Forall₂ (LocatedBy source) declared.declaredSpans drawn.locations := by
  rcases draws with ⟨inner, -, rfl⟩
  refine .cons rfl ?_
  rw [drawnEnum, List.forall₂_map_left_iff, List.map_map, List.forall₂_map_right_iff,
    List.forall₂_same]
  exact fun _ _ => rfl

theorem ExtensionDrawn.located {declared : Syntax.Extend} {drawn : Extension}
    (draws : ExtensionDrawn Around source place declared drawn) :
    List.Forall₂ (LocatedBy source) declared.declaredSpans drawn.locations := by
  rcases draws with ⟨inner, -, rfl⟩
  refine .cons rfl ?_
  rw [drawnExtension, List.forall₂_map_left_iff, List.map_map, List.forall₂_map_right_iff,
    List.forall₂_same]
  exact fun _ _ => rfl

theorem located_service (source : Source) (place : Place) (declared : Syntax.Service) :
    List.Forall₂ (LocatedBy source) declared.declaredSpans
      (service source place declared).locations := by
  refine .cons rfl ?_
  rw [service, List.forall₂_map_left_iff, List.map_map, List.forall₂_map_right_iff,
    List.forall₂_same]
  exact fun _ _ => rfl

/-- A file has its declarations where their spans are. -/
theorem located_ofTree (id : FileId) (name source : String) (tree : Syntax.File) :
    List.Forall₂ (LocatedBy (fileSource id name source)) tree.declaredSpans
      (ofTree id name source tree).file.locations := by
  have drawn := fileDrawn_ofTree id name source tree
  refine List.rel_append (List.rel_append (List.rel_append ?_ ?_) ?_) ?_
  · exact List.rel_flatMap drawn.messages fun _ _ => MessageDrawn.located
  · exact List.rel_flatMap drawn.enums fun _ _ => EnumDrawn.located
  · exact List.rel_flatMap drawn.extensions fun _ _ => ExtensionDrawn.located
  · rw [drawn.services]
    refine @List.rel_flatMap _ _ _ _ (fun declared drawn =>
      drawn = service (fileSource id name source) (filePlace id tree) declared) _ _ _ ?_ _ _ ?_
    · rw [List.forall₂_map_right_iff, List.forall₂_same]
      exact fun _ _ => rfl
    · rintro declared _ rfl
      exact located_service _ _ declared

end Draft

/-- Linking moves nothing. -/
theorem Link.locations_linkAll (resolve : Resolution) (file : ProtoFile) :
    (linkAll resolve file).locations = file.locations := by
  have messages (message : Message) :
      (linkMessageFields resolve message).locations = message.locations := by
    simp [Message.locations, linkMessageFields, linkField, Function.comp_def]
  have extensions (extension : Extension) :
      (linkExtension resolve extension).locations = extension.locations := by
    simp [Extension.locations, linkExtension, linkField, Function.comp_def]
  have services (service : Service) :
      (linkService resolve (packageScope file.package) service).locations = service.locations := by
    simp [Service.locations, linkService, linkMethod, Function.comp_def]
  simp [ProtoFile.locations, linkAll, List.flatMap_map, messages, extensions, services]

/-! ## Models -/

/-- A model of a source file: its draft, or what some rules link it to. -/
inductive SourceFile.ModelledBy (file : SourceFile) : ProtoFile → Prop
  | drawn (id : FileId) :
      ModelledBy file (Draft.ofTree id file.name file.source file.tree).file
  | linked {rules : Rules} {schema : Schema} {isRoot : Bool} {loaded : LoadedFile}
      (link : rules.link schema file isRoot = .ok loaded) : ModelledBy file loaded.file

theorem SourceFile.ModelledBy.located {file : SourceFile} {model : ProtoFile}
    (modelled : file.ModelledBy model) :
    List.Forall₂ (fun span location => location = ⟨file.name, Text.lineFed file.source span.start⟩)
      file.tree.declaredSpans model.locations := by
  have drawn (id : FileId) := (Draft.located_ofTree id file.name file.source file.tree).imp
    fun span location located => located.trans
      (congrArg (Location.mk file.name) (Text.lineNumber_eq file.source.toUTF8.toList span.start))
  cases modelled with
  | drawn id => exact drawn id
  | @linked rules schema isRoot loaded link =>
      rw [(Rules.link_eq_ok link).file_eq, Link.locations_linkAll]
      exact drawn schema.files.size

/-! ## Errors -/

/-- The two ways to number lines agree: each counts the line feeds before a place. So an error has
the line of every declaration that begins in the line of the error. -/
theorem lines_agree (source : String) (paired : Text.ReturnsPaired source.toUTF8.toList) :
    (∀ span : Span, span.Within source →
      Text.lineNumber source.toUTF8.toList span.start = Text.lineFed source span.start ∧
        LoadError.lineOf? source span = some (Text.lineFed source span.start)) ∧
    (∀ failure : Syntax.SyntaxFailure, failure.source = source →
      ∀ span : Span, failure.first.span? = some span → span.Within source →
        failure.line? = some (Text.lineFed source span.start)) ∧
    (∀ (compiler : Compiler) path fault name,
      compiler.rules.validators ⊆ ({} : Rules).validators → compiler.resolver.Points →
        (compiler.openFile path).1 = .error (.check fault name source) →
        fault.span.Within source) ∧
    ∀ (file : SourceFile) (model : ProtoFile), file.source = source → file.ModelledBy model →
      List.Forall₂ (fun span location => ∀ fault : CheckError, fault.span.Within source →
          Text.lineFed source fault.span.start = Text.lineFed source span.start →
          (LoadError.check fault file.name source).location? = some location)
        file.tree.declaredSpans model.locations := by
  refine ⟨fun span within => ?_, fun failure same span lies within => ?_, ?_, ?_⟩
  · exact ⟨Text.lineNumber_eq _ _, LoadError.lineOf?_eq paired within⟩
  · subst same
    rcases Text.exists_position paired within.1 within.2 with ⟨position, found, line⟩
    have bytes : Text.position? failure.bytes span = some position := found
    rw [Syntax.SyntaxFailure.line?, lies, Option.bind_eq_bind, Option.bind_some, bytes,
      Option.bind_eq_bind, Option.bind_some, line]
    rfl
  · intro compiler path fault name standard points failed
    exact (Compiler.locates_openFile standard points failed).placed.within
  · rintro file model rfl modelled
    refine modelled.located.imp fun span location located fault within sameLine => ?_
    rw [LoadError.location?, LoadError.lineOf?_eq paired within, sameLine, located]
    rfl

/-- A field of an unknown type in the second line, behind a return and a feed. -/
theorem lines_agree_second_line :
    let source := "message A\x7b\r\nB b=1;\x7d"
    let fault : CheckError := ⟨.typeNotFound "B", ⟨12, 13⟩⟩
    Text.ReturnsPaired source.toUTF8.toList ∧ fault.span.Within source ∧
      LoadError.lineOf? source fault.span = some 2 ∧
      ∃ file : SourceFile, file.source = source ∧
        file.tree.declaredSpans = [⟨0, 19⟩, ⟨12, 18⟩] ∧
        ∃ message field, (Draft.ofTree 0 file.name file.source file.tree).file.locations =
            [message, field] ∧
          (LoadError.check fault file.name source).location? = some field := by
  intro source fault
  have paired : Text.ReturnsPaired source.toUTF8.toList := by decide +kernel
  have within : fault.span.Within source := by decide +kernel
  have second : Text.lineFed source 12 = 2 := by decide +kernel
  have computed : (Syntax.parse "m.proto" source).toOption.map Syntax.File.declaredSpans =
      some [⟨0, 19⟩, ⟨12, 18⟩] := by
    decide +kernel
  rcases lines_agree source paired with ⟨spans, -, -, models⟩
  refine ⟨paired, within, (spans fault.span within).2.trans (congrArg some second), ?_⟩
  rcases Option.map_eq_some_iff.mp computed with ⟨tree, accepted, declared⟩
  cases parsed : Syntax.parse "m.proto" source with
  | error failure => simp [parsed, Except.toOption] at accepted
  | ok other =>
      rw [parsed] at accepted
      cases accepted
      let file : SourceFile := ⟨"m.proto", none, source, tree, parsed⟩
      have located := models file _ rfl (.drawn 0)
      refine ⟨file, rfl, declared, ?_⟩
      generalize (Draft.ofTree 0 file.name file.source file.tree).file.locations = locations
        at located
      rw [show file.tree.declaredSpans = _ from declared] at located
      rcases located with _ | ⟨-, _ | ⟨field, ⟨⟩⟩⟩
      exact ⟨_, _, rfl, field fault within rfl⟩

end ProtoSchema
