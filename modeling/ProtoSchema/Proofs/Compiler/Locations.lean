import ProtoSchema.Proofs.Compiler.MissingImports
import ProtoSchema.Proofs.Draft.Spans
import ProtoSchema.Proofs.Syntax.Labels
/-! # Locations of errors

What is wrong with a file whose syntax is right is told at a span of the file: at a name that it
declares, at a type that it refers to, or at one of its fields. So every such error has a location,
as have the faults that are found while a source is read.
-/

namespace ProtoSchema

/-! ## Linking -/

namespace Link

/-- A name cannot be registered because of the place where it is declared. -/
theorem exists_of_registerNames {schema : Schema} {strict : Bool} {loaded : LoadedFile}
    {names : List DeclaredName} {error : CheckError}
    (failed : registerNames schema strict loaded names = .error error) :
    ∃ declared ∈ names, error.span = declared.span := by
  induction names generalizing loaded with
  | nil => cases failed
  | cons declared names induction =>
      rw [registerNames, List.foldlM_cons] at failed
      cases first : registerName schema strict loaded declared with
      | ok middle =>
          rw [first] at failed
          rcases induction failed with ⟨other, member, same⟩
          exact ⟨other, List.mem_cons_of_mem declared member, same⟩
      | error fault =>
          rw [first] at failed
          cases failed
          refine ⟨declared, List.mem_cons_self, ?_⟩
          rw [registerName.eq_def] at first
          dsimp only at first
          split at first
          · cases first
            rfl
          · cases first

theorem span_of_referenceError? {resolve : Resolution} {reference : Reference}
    {error : CheckError} (wrong : referenceError? resolve reference = some error) :
    error.span = reference.span := by
  rcases Option.map_eq_some_iff.mp wrong with ⟨problem, -, rfl⟩
  rfl

/-- Linking keeps all spans. -/
theorem spansIn_linkAll {source : String} {file : ProtoFile} (spans : file.SpansIn source)
    (resolve : Resolution) : (linkAll resolve file).SpansIn source where
  messages := by
    rw [linkAll, Array.toList_map, List.forall_mem_map]
    intro message member
    rcases spans.messages message member with ⟨span, fields⟩
    refine ⟨span, List.forall_mem_map.mpr fun field own => ?_⟩
    exact ⟨(fields field own).span, (fields field own).typeSpan⟩
  enums := spans.enums
  extensions := by
    rw [linkAll, Array.toList_map, List.forall_mem_map]
    intro extension member
    rcases spans.extensions extension member with ⟨extendee, fields⟩
    refine ⟨extendee, List.forall_mem_map.mpr fun field own => ?_⟩
    exact ⟨(fields field own).span, (fields field own).typeSpan⟩
  services := by
    rw [linkAll, Array.toList_map, List.forall_mem_map]
    intro service member
    rcases spans.services service member with ⟨span, methods⟩
    exact ⟨span, List.forall_mem_map.mpr methods⟩

end Link

namespace Rules

variable {rules : Rules} {schema : Schema} {file : SourceFile} {isRoot : Bool}

/-- A file that cannot be linked is told at one of its names or references. -/
theorem placed_of_link {fault : CheckError}
    (failed : rules.link schema file isRoot = .error fault) :
    Syntax.Placed file.source fault.span := by
  rw [link_eq] at failed
  cases registration : Link.registerNames schema rules.strictNames
      (nextDraft schema file isRoot) (draftOf schema.files.size file).names with
  | error other =>
      rw [registration] at failed
      cases failed
      rcases Link.exists_of_registerNames registration with ⟨declared, member, same⟩
      rw [same]
      exact Draft.placed_of_mem_names file.parsed _ declared member
  | ok registered =>
      rw [registration] at failed
      cases wrong : referenceError? schema schema.files.size file registered with
      | none =>
          have linked := linkRegistered_eq_ok_iff.mpr ⟨wrong, rfl⟩
          rw [Except.bind, linked] at failed
          cases failed
      | some other =>
          rw [Except.bind, linkRegistered_of_error wrong] at failed
          cases failed
          rcases List.exists_of_findSome?_eq_some wrong with ⟨reference, member, found⟩
          rw [Link.span_of_referenceError? found]
          exact Draft.placed_of_mem_references file.parsed _ reference member

theorem LinkedAs.spansIn {loaded : LoadedFile} (linked : LinkedAs schema file isRoot loaded) :
    loaded.file.SpansIn file.source := by
  rcases Draft.spansIn_ofTree file.parsed schema.files.size with
    ⟨messages, enums, extensions, services⟩
  have spans : ProtoFile.SpansIn file.source
      { (draftOf schema.files.size file).file with imports := loaded.file.imports } :=
    ⟨messages, enums, extensions, services⟩
  rw [linked.file_eq]
  exact Link.spansIn_linkAll spans _

end Rules

/-! ## Validators -/

namespace Check

/-- A message is wrong because of one of its fields. -/
theorem exists_of_fieldError? {message : Message} {earlier fields : List Field}
    {fault : CheckError} (wrong : fieldError? message earlier fields = some fault) :
    ∃ field ∈ fields, fault.span = field.span := by
  induction fields generalizing earlier with
  | nil => cases wrong
  | cons field fields induction =>
      rw [fieldError?] at wrong
      split at wrong
      · cases wrong
        exact ⟨field, List.mem_cons_self, rfl⟩
      · rcases induction wrong with ⟨other, member, same⟩
        exact ⟨other, List.mem_cons_of_mem field member, same⟩

theorem exists_of_rangeError? {schema : Schema} {extension : Extension} {fault : CheckError}
    (wrong : rangeError? schema extension = some fault) :
    ∃ field ∈ extension.fields, fault.span = field.span := by
  simp only [rangeError?, Option.bind_eq_bind, Option.bind_eq_some_iff] at wrong
  rcases wrong with ⟨extendee, -, field, found, same⟩
  cases same
  exact ⟨field, List.mem_of_find?_eq_some found, rfl⟩

theorem exists_of_numberError? {schema : Schema} {id : ExtensionId} {extension : Extension}
    {fault : CheckError} (wrong : numberError? schema id extension = some fault) :
    ∃ field ∈ extension.fields, fault.span = field.span := by
  simp only [numberError?, Option.bind_eq_bind, Option.bind_eq_some_iff] at wrong
  rcases wrong with ⟨extendee, -, found⟩
  rcases List.exists_of_findSome?_eq_some found with ⟨⟨field, position⟩, member, taken⟩
  rcases Option.map_eq_some_iff.mp taken with ⟨other, -, rfl⟩
  exact ⟨field, List.fst_mem_of_mem_zipIdx member, rfl⟩

end Check

namespace Validator

/-- A search finds something at places of a source if the file that is searched keeps such
places. -/
def FindsPlaces (search : Schema → LoadedFile → Option CheckError) : Prop :=
  ∀ {schema loaded source fault}, loaded.file.SpansIn source → search schema loaded = some fault →
    Syntax.Placed source fault.span

/-- The standard validators tell of the fields of a file. -/
theorem exists_search_of_standard {validator : Validator}
    (standard : validator ∈ ({} : Rules).validators) :
    ∃ search, validator = ofSearch search ∧ FindsPlaces search := by
  simp only [List.mem_cons, List.not_mem_nil, or_false] at standard
  rcases standard with rfl | rfl | rfl
  · refine ⟨_, rfl, fun spans wrong => ?_⟩
    rcases List.exists_of_findSome?_eq_some wrong with ⟨message, member, wrong⟩
    rcases Check.exists_of_fieldError? wrong with ⟨field, own, same⟩
    rw [same]
    exact ((spans.messages message member).fields field own).span
  · refine ⟨_, rfl, fun spans wrong => ?_⟩
    rcases List.exists_of_findSome?_eq_some wrong with ⟨extension, member, wrong⟩
    rcases Check.exists_of_rangeError? wrong with ⟨field, own, same⟩
    rw [same]
    exact ((spans.extensions extension member).fields field own).span
  · refine ⟨_, rfl, fun spans wrong => ?_⟩
    rcases List.exists_of_findSome?_eq_some wrong with ⟨entry, member, wrong⟩
    rcases Check.exists_of_numberError? wrong with ⟨field, own, same⟩
    have inFile := List.fst_mem_of_mem_zipIdx member
    rw [same]
    exact ((spans.extensions entry.1 inFile).fields field own).span

end Validator

namespace Rules

variable {rules : Rules}

/-- A file that cannot be added is told at a place of its source. -/
theorem exists_placed_of_commit (standard : rules.validators ⊆ ({} : Rules).validators)
    {schema after : Schema} {file : SourceFile} {isRoot : Bool} {error : LoadError}
    (failed : rules.commit schema file isRoot = (.error error, after)) :
    ∃ fault, error = .check fault file.name file.source ∧ Syntax.Placed file.source fault.span := by
  rcases commit_cases rules schema file isRoot with ⟨next, -, result⟩ | ⟨other, added, result⟩
  · rw [result] at failed
    cases failed
  rw [result] at failed
  cases failed
  rcases add_eq_error added with ⟨fault, link, same⟩ | ⟨loaded, link, validator, member, rejects⟩
  · exact ⟨fault, same, placed_of_link link⟩
  · have linked := link_eq_ok link
    rcases Validator.exists_search_of_standard (standard member) with ⟨search, rfl, finds⟩
    have present := Schema.getElem?_push_size schema loaded
    rcases (Validator.ofSearch_eq_error_iff present).mp rejects with ⟨fault, found, same⟩
    rw [linked.name_eq, linked.source_eq] at same
    exact ⟨fault, same, finds linked.spansIn found⟩

end Rules

/-! ## Opening a file -/

/-- An importing file makes no check errors. -/
theorem LoadError.eq_of_ofImport {error : LoadError} {importer text : String} {span : Span}
    {fault : CheckError} {file source : String}
    (same : error.ofImport importer text span = .check fault file source) :
    error = .check fault file source := by
  cases error <;> first | exact same | cases same

/-- Check errors that a resolver passes on, from another compiler, point into their sources. -/
def Resolver.Points (resolver : Resolver) : Prop :=
  ∀ name fault file source, resolver.openFile name = .error (.check fault file source) →
    Syntax.Placed source fault.span

namespace Resolver

theorem points_chain {resolvers : List Resolver}
    (each : ∀ resolver ∈ resolvers, resolver.Points) : (chain resolvers).Points := by
  intro name fault file source failed
  change openFirst name resolvers = _ at failed
  induction resolvers with
  | nil => cases failed
  | cons resolver resolvers induction =>
      rw [List.forall_mem_cons] at each
      rw [openFirst] at failed
      split at failed
      · cases failed
      · next error own =>
          split at failed
          · exact induction each.2 failed
          · cases failed
            exact each.1 name fault file source own

/-- Reading a file of a disk finds no check errors. -/
theorem points_ofDirectories (disk : Disk) (directories : List Path) :
    (ofDirectories disk directories).Points := by
  refine points_chain (List.forall_mem_map.mpr fun directory _ name fault file source failed => ?_)
  rcases SourceFile.cases_of_read_eq_error failed with
    ⟨-, same⟩ | ⟨-, same⟩ | ⟨_, -, same | same | ⟨_, same⟩⟩ <;> cases same

theorem points_ofMemory (sources : List (String × String)) : (ofMemory { sources }).Points := by
  intro name fault file source failed
  simp only [ofMemory, List.lookup_nil] at failed
  split at failed
  · next impossible => cases impossible
  · rcases SourceFile.exists_of_ofSource_eq_error failed with ⟨_, same⟩
    cases same
  · cases failed

end Resolver

namespace Compiler

variable {compiler : Compiler} {fault : CheckError} {file source : String}

/-- What a check error tells: a place of a source, which is the text of the file that it names,
unless the resolver passes the error on. -/
structure Locates (compiler : Compiler) (fault : CheckError) (file source : String) : Prop where
  placed : Syntax.Placed source fault.span
  named : (∃ asked opened, compiler.resolver.openFile asked = .ok opened ∧ opened.name = file ∧
      opened.source = source) ∨
    ∃ asked, compiler.resolver.openFile asked = .error (.check fault file source)

theorem Locates.of_opened {asked : String} {opened : SourceFile}
    (opens : compiler.resolver.openFile asked = .ok opened)
    (found : ∃ other, LoadError.check fault file source = .check other opened.name opened.source ∧
      Syntax.Placed opened.source other.span) : compiler.Locates fault file source := by
  rcases found with ⟨other, same, placed⟩
  cases same
  exact ⟨placed, .inl ⟨asked, opened, opens, rfl, rfl⟩⟩

theorem Locates.of_passed (points : compiler.resolver.Points) {asked : String}
    (fails : compiler.resolver.openFile asked = .error (.check fault file source)) :
    compiler.Locates fault file source :=
  ⟨points asked fault file source fails, .inr ⟨asked, fails⟩⟩

theorem Locates.of_failsItself (standard : compiler.rules.validators ⊆ ({} : Rules).validators)
    (points : compiler.resolver.Points) {call : Rules.Call} {after : Schema}
    (fails : call.FailsItself compiler.rules compiler.resolver (.check fault file source) after) :
    compiler.Locates fault file source := by
  cases fails with
  | unreadable _ _ opened => exact .of_passed points opened
  | rejected _ _ opened _ failed =>
      exact .of_opened opened (Rules.exists_placed_of_commit standard failed)

theorem locates_openFile (standard : compiler.rules.validators ⊆ ({} : Rules).validators)
    (points : compiler.resolver.Points) {path : Path}
    (failed : (compiler.openFile path).1 = .error (.check fault file source)) :
    compiler.Locates fault file source := by
  have fails := fails_openFile failed
  generalize (compiler.openFile path).2.schema = after at fails
  cases fails with
  | unreadable target opened => exact .of_passed points opened
  | loading target opened fresh run =>
      rw [Rules.loadRoot_eq, Option.map_eq_some_iff] at run
      rcases run with ⟨⟨outcome, middle⟩, imports, same⟩
      cases outcome with
      | ok _ => exact .of_opened opened (Rules.exists_placed_of_commit standard same)
      | error error =>
          cases same
          rcases Rules.load_fails.2 _ _ _ _ _ imports compiler.schema [] _ _ rfl
            (Rules.loadImports_nil _) rfl with ⟨site, call, own, -, fails, blamed⟩
          rw [LoadError.eq_of_ofImport blamed.symm] at fails
          exact .of_failsItself standard points fails

/-- A place of the source is a location. -/
theorem Locates.exists_location (locates : compiler.Locates fault file source) :
    ∃ line, (LoadError.check fault file source).location? = some ⟨file, line⟩ := by
  rcases Option.isSome_iff_exists.mp locates.placed.isSome_position? with ⟨position, found⟩
  refine ⟨position.line, ?_⟩
  simp only [LoadError.location?, LoadError.lineOf?, found, Option.map_some]

end Compiler

/-- Every diagnostic points into its source, whether it is found while the source is read, or while
a file is loaded with the standard validators. Only that a source ends, or is too large, has no
place. -/
theorem diagnostics_point :
    (∀ name source failure, Syntax.parse name source = .error failure →
      failure.PointsInto source) ∧
    ∀ compiler : Compiler, compiler.rules.validators ⊆ ({} : Rules).validators →
      compiler.resolver.Points → ∀ path fault file source,
        (compiler.openFile path).1 = .error (.check fault file source) →
        compiler.Locates fault file source ∧
          ∃ line, (LoadError.check fault file source).location? = some ⟨file, line⟩ := by
  refine ⟨fun _ _ _ => Syntax.pointsInto_of_parse, ?_⟩
  intro compiler standard points path fault file source failed
  have locates := Compiler.locates_openFile standard points failed
  exact ⟨locates, locates.exists_location⟩

/-- A second package statement, and a field whose type is not declared. -/
theorem diagnostics_point_package_field :
    let twice := "package a;package b;"
    let undeclared := "message A\x7bB b=1;\x7d"
    let compiler : Compiler :=
      { resolver := .ofMemory { sources := [("m.proto", undeclared)] } }
    let fault : CheckError := ⟨.typeNotFound "B", ⟨10, 11⟩⟩
    (∃ failure, Syntax.parse "p.proto" twice = .error failure ∧ failure.PointsInto twice) ∧
      (compiler.rules.validators ⊆ ({} : Rules).validators ∧ compiler.resolver.Points) ∧
      (compiler.openFile ⟨"m.proto"⟩).1 = .error (.check fault "m.proto" undeclared) ∧
      compiler.Locates fault "m.proto" undeclared ∧
      ∃ line, (LoadError.check fault "m.proto" undeclared).location? = some ⟨"m.proto", line⟩ := by
  intro twice undeclared compiler fault
  have standard : compiler.rules.validators ⊆ ({} : Rules).validators := List.Subset.refl _
  have points : compiler.resolver.Points := Resolver.points_ofMemory _
  have failed : (compiler.openFile ⟨"m.proto"⟩).1 =
      .error (.check fault "m.proto" undeclared) :=
    @Compiler.openFile_of_computed
      (fun result => result.1 = .error (.check fault "m.proto" undeclared))
      _ 1 compiler ⟨"m.proto"⟩ (by decide +kernel)
  have faulty : (Syntax.readSource twice).2 ≠ [] := by decide +kernel
  rcases Syntax.exists_parse_eq_error faulty "p.proto" with ⟨failure, parsed⟩
  exact ⟨⟨failure, parsed, diagnostics_point.1 "p.proto" twice failure parsed⟩,
    ⟨standard, points⟩, failed,
    diagnostics_point.2 compiler standard points ⟨"m.proto"⟩ fault "m.proto" undeclared failed⟩

/-- A source that is too large is refused without a line, though this is not because it ends. -/
theorem not_line_spaces :
    ∃ failure, Syntax.parse "spaces.proto" (Syntax.spaces 2147483648) = .error failure ∧
      (∀ expected, failure.first ≠ .unexpectedEnd expected) ∧ failure.line? = none :=
  ⟨_, Syntax.parse_spaces (by decide) "spaces.proto", nofun, rfl⟩

end ProtoSchema
