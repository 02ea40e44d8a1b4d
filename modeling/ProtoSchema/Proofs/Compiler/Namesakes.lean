import ProtoSchema.Proofs.Compiler.ExtensionPairs
import ProtoSchema.Proofs.Compiler.FieldRules
import ProtoSchema.Proofs.Compiler.Resolution
/-! # Messages with one name

The extend blocks that a file sees are found by the full name of their message. So where files
declare messages of one name, an extension field may clash with one for another message. This
takes two blocks in different files, and messages in different files: within a file a name
means one message.
-/

namespace ProtoSchema

namespace Schema

/-! ## What a clash is about -/

variable (schema : Schema)

/-- The extension field at a place has a number, and extends a message with a full name. -/
def ExtensionAt (place : ExtensionId × Nat) (target : MessageId) (number : Int)
    (fullName : String) (span : Span) : Prop :=
  ∃ block field, schema.HasField place block field ∧ block.extendee = some target ∧
    schema.fullName? (.message target) = some fullName ∧ field.number = number ∧
    field.span = span

/-- A number is in use for a message, apart from the field at a place: by a field of the
message or by an extension field for it, under this name. -/
inductive UsedFor (place : ExtensionId × Nat) (target : MessageId) (number : Int) : String → Prop
  | declared {message : Message} {field : Field} (found : schema.message? target = some message)
      (member : field ∈ message.fields) (same : field.number = number) :
      UsedFor place target number (message.fullName ++ "." ++ field.name)
  | extension {other : ExtensionId × Nat} {block : Extension} {field : Field}
      (different : other ≠ place) (held : schema.HasField other block field)
      (extendee : block.extendee = some target) (same : field.number = number) :
      UsedFor place target number (block.fieldFullName field)

/-- A number is in use by an extension field for another message, which has the name of the
first one: the messages stand in different files, and so do the fields. The file of the first
field gathers the other one. -/
inductive UsedForNamesake (place : ExtensionId × Nat) (target : MessageId) (number : Int) :
    String → Prop
  | extension {other : ExtensionId × Nat} {block : Extension} {field : Field}
      {namesake : MessageId} (held : schema.HasField other block field)
      (extendee : block.extendee = some namesake) (same : field.number = number)
      (sameName : schema.fullName? (.message namesake) = schema.fullName? (.message target))
      (gathers : schema.Gathers place.1.file other.1.file)
      (otherBlock : other.1.file ≠ place.1.file) (otherMessage : namesake.file ≠ target.file) :
      UsedForNamesake place target number (block.fieldFullName field)

variable {schema}

/-! ## Names and their files -/

namespace Settled

variable {Opened : SourceFile → Prop} (settled : schema.Settled Opened)
include settled

/-- A file sees the message of its extend block under the full name of the message. -/
theorem visible?_of_extendee {block : ExtensionId} {extension : Extension}
    (held : schema.extension? block = some extension) {target : MessageId}
    (extendee : extension.extendee = some target) {fullName : String}
    (named : schema.fullName? (.message target) = some fullName) :
    schema.visible? block.file fullName = some (.message target) := by
  rcases mem_of_extension? held with ⟨loaded, present, member⟩
  rcases settled.files present with ⟨file, -, own⟩
  rcases own.exists_of_extendee member extendee with ⟨name, found⟩
  have same := (settled.sees_of_visible? found).2
  cases Option.some.inj (named.symm.trans same)
  exact found

/-- Two messages of one name that blocks extend are the same if the blocks stand in one file,
or the messages do. -/
theorem extendee_eq {first second : ExtensionId} {firstBlock secondBlock : Extension}
    {target other : MessageId} {fullName : String}
    (heldFirst : schema.extension? first = some firstBlock)
    (extendsFirst : firstBlock.extendee = some target)
    (namedFirst : schema.fullName? (.message target) = some fullName)
    (heldSecond : schema.extension? second = some secondBlock)
    (extendsSecond : secondBlock.extendee = some other)
    (namedSecond : schema.fullName? (.message other) = some fullName)
    (oneFile : second.file = first.file ∨ other.file = target.file) : other = target := by
  have seenFirst := settled.visible?_of_extendee heldFirst extendsFirst namedFirst
  have seenSecond := settled.visible?_of_extendee heldSecond extendsSecond namedSecond
  have same : UserType.message other = .message target := by
    rcases oneFile with sameBlocks | sameMessages
    · rw [sameBlocks, seenFirst] at seenSecond
      exact (Option.some.inj seenSecond).symm
    · rcases settled.find?_of_visible? seenFirst with ⟨-, loaded, present, found⟩
      rcases settled.find?_of_visible? seenSecond with ⟨-, again, presentAgain, foundAgain⟩
      simp only [UserType.file] at present presentAgain
      rw [sameMessages, present] at presentAgain
      cases presentAgain
      exact Option.some.inj (foundAgain.symm.trans found)
  exact UserType.message.inj same

end Settled

/-- What has the number of an extension field is there for its message, or for a namesake. -/
theorem Settled.used_of_taken (settled : schema.Settled fun _ => True)
    {place : ExtensionId × Nat} {block : Extension} {field : Field} {target : MessageId}
    {message : Message} (held : schema.HasField place block field)
    (extendee : block.extendee = some target) (found : schema.message? target = some message)
    {name : String} (taken : schema.Taken message place field.number name) :
    schema.UsedFor place target field.number name ∨
      schema.UsedForNamesake place target field.number name := by
  cases taken with
  | declared order same first => exact .inl (.declared found (by simp [order]) same)
  | @extension front back other otherBlock otherField undeclared order heldOther sameNumber
      notLater first =>
      have linked : block.extendee.bind schema.message? = some message := by
        rw [extendee, Option.bind_some, found]
      have visible : other.1 ∈ schema.extensions place.1.file message.fullName := by simp [order]
      rw [extensions, settled.qualify_fullName linked,
        settled.mem_visibleExtensions_iff (lt_size_of_extension? held.1)] at visible
      rcases visible with
        ⟨gathers, again, namesake, otherMessage, heldAgain, otherExtendee, otherFound, sameName⟩
      cases Option.some.inj (heldOther.1.symm.trans heldAgain)
      have named : schema.fullName? (.message target) = some message.fullName := by
        rw [fullName?, found, Option.map_some]
      have otherNamed : schema.fullName? (.message namesake) = some message.fullName := by
        rw [fullName?, otherFound, Option.map_some, sameName]
      have sameMessage :=
        settled.extendee_eq held.1 extendee named heldOther.1 otherExtendee otherNamed
      by_cases same : namesake = target
      · rcases same with rfl
        refine .inl (.extension ?_ heldOther otherExtendee sameNumber)
        rintro rfl
        exact not_notLater_self _ notLater
      · right
        exact .extension heldOther otherExtendee sameNumber (otherNamed.trans named.symm) gathers
          (fun oneFile => same (sameMessage (.inl oneFile)))
          (fun oneFile => same (sameMessage (.inr oneFile)))

/-- An extension field of a file has a number that is in use already. -/
def Clashes (schema : Schema) (id : FileId) (number : Int) (fullName name : String)
    (span : Span) : Prop :=
  ∃ place target, place.1.file = id ∧ schema.ExtensionAt place target number fullName span ∧
    (schema.UsedFor place target number name ∨ schema.UsedForNamesake place target number name)

end Schema

/-! ## Other errors -/

section Kinds

variable {number : Int} {fullName name : String} {span : Span}

theorem Mention.Fails.problem_ne {mention : Mention} {resolve : Link.Resolution}
    {error : CheckError} (fails : mention.Fails resolve error) :
    error.problem ≠ .duplicateExtensionNumber number fullName name := by
  cases fails with
  | lost | lostKey => simp
  | mismatched => cases mention.usage <;> simp [Usage.mismatch]

/-- No file fails to be linked because of numbers of extensions. -/
theorem Rules.problem_ne_of_link {rules : Rules} {schema : Schema} {file : SourceFile}
    {isRoot : Bool} {error : CheckError} (failed : rules.link schema file isRoot = .error error) :
    error.problem ≠ .duplicateExtensionNumber number fullName name := by
  by_cases clear : rules.strictNames = false ∨ nextConflicts schema file isRoot = []
  · rw [link_of_clear clear] at failed
    generalize Link.withNames _ _ _ = registered at failed
    cases wrong : referenceError? schema schema.files.size file registered with
    | none =>
        rw [linkRegistered_eq_ok_iff.mpr ⟨wrong, rfl⟩] at failed
        cases failed
    | some fault =>
        rw [linkRegistered_of_error wrong] at failed
        cases failed
        rcases List.exists_of_findSome?_eq_some wrong with ⟨reference, -, wrong⟩
        rw [Link.referenceError?_eq_findSome?] at wrong
        rcases List.exists_of_findSome?_eq_some wrong with ⟨mention, -, wrong⟩
        exact (Mention.error?_eq_some_iff.mp wrong).problem_ne
  · rw [not_or, Bool.not_eq_false] at clear
    rcases link_strict clear.1 clear.2 with ⟨declared, other, place, strictly⟩
    rw [strictly] at failed
    cases failed
    simp

variable {schema : Schema} {id : FileId} {loaded : LoadedFile}
  (present : schema.files[id]? = some loaded) {file source : String}
include present

theorem Validator.messages_ne_clash :
    messages schema id ≠
      .error (.check ⟨.duplicateExtensionNumber number fullName name, span⟩ file source) := by
  intro failed
  rcases (ofSearch_eq_error_iff present).mp failed with ⟨fault, found, same⟩
  cases same
  rcases List.exists_of_findSome?_eq_some found with ⟨message, -, wrong⟩
  rcases Check.messageError?_eq_some_iff.mp wrong with ⟨_, _, _, problem, -, -, faults, same⟩
  cases same
  rcases faults with ⟨_, rule, _, -, broken, -⟩
  cases broken

theorem Validator.extensionRanges_ne_clash :
    extensionRanges schema id ≠
      .error (.check ⟨.duplicateExtensionNumber number fullName name, span⟩ file source) := by
  intro failed
  rcases (ofSearch_eq_error_iff present).mp failed with ⟨fault, found, same⟩
  cases same
  rcases List.exists_of_findSome?_eq_some found with ⟨block, -, wrong⟩
  simp only [Check.rangeError?, Option.bind_eq_bind, Option.bind_eq_some_iff, Option.pure_def,
    Option.some.injEq] at wrong
  rcases wrong with ⟨message, -, field, -, same⟩
  cases same

end Kinds

namespace Rules

variable {rules : Rules} {resolver : Resolver} {schema : Schema}

/-! ## One file -/

/-- A file that is not added because of a number of an extension has a clash. -/
theorem clashes_of_add_eq_error (settled : schema.Settled fun _ => True)
    (standard : rules.validators ⊆ ({} : Rules).validators) {file : SourceFile} {isRoot : Bool}
    {number : Int} {fullName name other source : String} {span : Span}
    (failed : rules.add schema file isRoot =
      .error (.check ⟨.duplicateExtensionNumber number fullName name, span⟩ other source)) :
    ∃ loaded, (schema.push loaded).Settled (fun _ => True) ∧ loaded.file.name = other ∧
      loaded.source = source ∧
      (schema.push loaded).Clashes schema.files.size number fullName name span := by
  rcases add_eq_error failed with ⟨fault, link, same⟩ | ⟨loaded, link, validator, member, rejects⟩
  · cases same
    exact absurd rfl (problem_ne_of_link link)
  have next : (schema.push loaded).Settled fun _ => True := settled.add trivial (link_eq_ok link)
  have present := Schema.getElem?_push_size schema loaded
  have member := standard member
  simp only [List.mem_cons, List.not_mem_nil, or_false] at member
  rcases member with rfl | rfl | rfl
  · exact absurd rejects (Validator.messages_ne_clash present)
  · exact absurd rejects (Validator.extensionRanges_ne_clash present)
  · rcases (Validator.extensionNumbers_eq_error_iff next present).mp rejects with
      ⟨place, field, message, taker, inFile, ⟨block, target, held, extendee, found⟩, taken, -, same⟩
    cases same
    have named : (schema.push loaded).fullName? (.message target) = some message.fullName := by
      rw [Schema.fullName?, found, Option.map_some]
    exact ⟨loaded, next, rfl, rfl, place, target, inFile,
      ⟨block, field, held, extendee, named, rfl, rfl⟩, next.used_of_taken held extendee found taken⟩

/-! ## Loadings -/

/-- After a loading the schema is settled, and an error of a source comes from the resolver or
from a file that could not be added to the files that are left. -/
structure Traces (rules : Rules) (resolver : Resolver)
    (result : Except LoadError Unit × Schema) : Prop where
  settled : result.2.Settled fun _ => True
  origin : ∀ fault file source, result.1 = .error (.check fault file source) →
    (∃ asked, resolver.openFile asked = .error (.check fault file source)) ∨
    ∃ middle failing isRoot, middle.Settled (fun _ => True) ∧ middle.files = result.2.files ∧
      rules.add middle failing isRoot = .error (.check fault file source)

theorem traces_ok (settled : schema.Settled fun _ => True) :
    rules.Traces resolver (.ok (), schema) where
  settled := settled
  origin _ _ _ failed := by cases failed

theorem traces_commit (settled : schema.Settled fun _ => True) (file : SourceFile)
    (isRoot : Bool) : rules.Traces resolver (rules.commit schema file isRoot) where
  settled := settled.commit trivial
  origin fault name source failed := by
    rcases commit_cases rules schema file isRoot with ⟨next, -, result⟩ | ⟨error, added, result⟩
    · rw [result] at failed
      cases failed
    · rw [result] at failed ⊢
      cases failed
      exact .inr ⟨schema, file, isRoot, settled, rfl, added⟩

/-- An importing file passes the errors of sources on as they are. -/
theorem Traces.ofImport {error : LoadError} {after : Schema}
    (traces : rules.Traces resolver (.error error, after)) (file source : String) (span : Span) :
    rules.Traces resolver (.error (error.ofImport file source span), after) where
  settled := traces.settled
  origin fault name text failed := by
    cases error with
    | check other otherFile otherSource => exact traces.origin fault name text failed
    | _ => cases failed

theorem load_traces (rules : Rules) (resolver : Resolver) :
    (∀ importers schema name result,
      rules.load resolver importers schema name = some result →
      (schema.Settled fun _ => True) → rules.Traces resolver result) ∧
    ∀ importers file statements schema result,
      rules.loadImports resolver importers file statements schema = some result →
      (schema.Settled fun _ => True) → rules.Traces resolver result := by
  apply load_induction rules resolver
  case circular =>
    intro importers schema name cyclic settled
    exact ⟨settled, fun _ _ _ failed => by cases failed⟩
  case present =>
    intro importers schema name cyclic known settled
    exact traces_ok settled
  case unreadable =>
    intro importers schema name error cyclic fresh opened settled
    refine ⟨settled, fun fault file source failed => ?_⟩
    cases failed
    exact .inl ⟨name, opened⟩
  case importFailed =>
    intro importers schema name file error after cyclic fresh opened run induction
    exact induction
  case committed =>
    intro importers schema name file after cyclic fresh opened run induction settled
    exact traces_commit (induction settled).settled file false
  case finished =>
    intro importers file schema settled
    exact traces_ok settled
  case failed =>
    intro importers file statement statements schema error after run induction settled
    exact (induction settled).ofImport file.name file.source statement.fileSpan
  case loaded =>
    intro importers file statement statements schema middle result run restRun first rest settled
    exact rest (first settled).settled

theorem loadRoot_traces (settled : schema.Settled fun _ => True) {name : String}
    {file : SourceFile} {result : Except LoadError Unit × Schema}
    (run : rules.loadRoot resolver schema name file = some result) :
    rules.Traces resolver result := by
  rw [loadRoot_eq, Option.map_eq_some_iff] at run
  rcases run with ⟨⟨outcome, middle⟩, importsRun, rfl⟩
  have traces := (load_traces rules resolver).2 _ _ _ _ _ importsRun settled
  cases outcome with
  | error error => exact traces
  | ok _ => exact traces_commit traces.settled file true

end Rules

/-! ## Sessions -/

namespace Compiler

/-- An error of a source comes from the resolver, or from a file that could not be added to the
files that are left. -/
theorem openFile_origin {compiler : Compiler} (settled : compiler.schema.Settled fun _ => True)
    {path : Path} {fault : CheckError} {file source : String}
    (failed : (compiler.openFile path).1 = .error (.check fault file source)) :
    (∃ asked, compiler.resolver.openFile asked = .error (.check fault file source)) ∨
    ∃ middle failing isRoot, middle.Settled (fun _ => True) ∧
      middle.files = (compiler.openFile path).2.schema.files ∧
      compiler.rules.add middle failing isRoot = .error (.check fault file source) := by
  have fails := fails_openFile failed
  generalize (compiler.openFile path).2.schema = after at fails ⊢
  cases fails with
  | unreadable target opened => exact .inl ⟨_, opened⟩
  | loading target opened fresh run =>
      exact (Rules.loadRoot_traces settled run).origin fault file source rfl

end Compiler

namespace Session

/-- In a session with the standard validators, opening a file fails because of a number of an
extension only if a file has an extension field with a number that is in use: by a field of its
message, by another extension field for the message, or by one for a namesake in another file. -/
theorem clashes_run (resolver : Resolver) (operations : List Operation)
    (standard : (run resolver operations).compiler.rules.validators ⊆ ({} : Rules).validators)
    {path : Path} {number : Int} {fullName name file source : String} {span : Span}
    (failed : ((run resolver operations).compiler.openFile path).1 =
      .error (.check ⟨.duplicateExtensionNumber number fullName name, span⟩ file source)) :
    (∃ asked, (run resolver operations).compiler.resolver.openFile asked =
      .error (.check ⟨.duplicateExtensionNumber number fullName name, span⟩ file source)) ∨
    ∃ (judged : Schema) (loaded : LoadedFile),
      judged.files = ((run resolver operations).compiler.openFile path).2.schema.files.push
        loaded ∧
      judged.Settled (fun _ => True) ∧ loaded.file.name = file ∧ loaded.source = source ∧
      judged.Clashes ((run resolver operations).compiler.openFile path).2.schema.files.size
        number fullName name span := by
  have settled := Schema.settled_run resolver operations
  rcases Compiler.openFile_origin settled failed with
    supplied | ⟨middle, failing, isRoot, before, left, rejected⟩
  · exact .inl supplied
  · right
    rcases Rules.clashes_of_add_eq_error before standard rejected with
      ⟨loaded, next, named, written, clashes⟩
    rw [← left]
    exact ⟨middle.push loaded, loaded, rfl, next, named, written, clashes⟩

end Session

/-! ## Two namesakes -/

/-- Neither a field of a message nor an extension field for it has a full name. -/
def Schema.lacksName (schema : Schema) (target : MessageId) (fullName : String) : Bool :=
  ((schema.message? target).all fun message =>
    message.fields.all (message.fullName ++ "." ++ ·.name != fullName)) &&
  schema.files.all fun loaded => loaded.file.allExtensions.all fun block =>
    block.extendee != some target || block.fields.all (block.fieldFullName · != fullName)

theorem Schema.not_usedFor_of_lacksName {schema : Schema} {place : ExtensionId × Nat}
    {target : MessageId} {number : Int} {name : String}
    (lacks : schema.lacksName target name = true) :
    ¬ schema.UsedFor place target number name := by
  simp only [lacksName, Bool.and_eq_true, Option.all_eq_true, List.all_eq_true,
    Array.all_eq_true_iff_forall_mem, Bool.or_eq_true, bne_iff_ne] at lacks
  rintro (⟨found, member, -⟩ | ⟨-, held, extendee, -⟩)
  · exact lacks.1 _ found _ member rfl
  · rcases mem_of_extension? held.1 with ⟨loaded, present, member⟩
    rcases lacks.2 loaded (Array.mem_of_getElem? present) _ member with other | different
    · exact other extendee
    · exact different _ (List.mem_of_getElem? held.2) rfl

namespace Session

/-- A file that declares the message of the file that it imports once more, and extends it. -/
def namesakeSource : String :=
  "import \"a.proto\"; message M \x7b extensions 100 to 199; \x7d " ++
    "extend M \x7b optional int32 b = 100; \x7d"

/-- Two files that extend messages of one name, each its own. -/
def namesakes : Resolver :=
  .ofMemory
    { sources := [
      ("a.proto", "message M \x7b extensions 100 to 199; \x7d " ++
        "extend M \x7b optional int32 a = 100; \x7d"),
      ("b.proto", namesakeSource)] }

theorem namesakes_ne_check {asked file source : String} {fault : CheckError} :
    namesakes.openFile asked ≠ .error (.check fault file source) := by
  simp only [namesakes, Resolver.ofMemory, List.lookup_nil]
  split
  · simp_all
  · rw [SourceFile.ofSource]
    split <;> simp
  · simp

/-- What comes of opening the second file. -/
def namesakesRun : Except LoadError Unit × Compiler :=
  (run namesakes []).compiler.openFile ⟨"b.proto"⟩

/-- The second file does not open. When it is linked, nothing for its own message has the name
that the error tells. -/
theorem openFile_namesakes :
    namesakesRun.1 = .error
        (.check ⟨.duplicateExtensionNumber 100 ".M" ".a", ⟨81, 82⟩⟩ "b.proto" namesakeSource) ∧
      ∃ file loaded, namesakes.openFile "b.proto" = .ok file ∧
        ({} : Rules).link namesakesRun.2.schema file true = .ok loaded ∧
        ((namesakesRun.2.schema.push loaded).extension? ⟨1, 0⟩).map (fun block =>
            (block.extendee, block.fields.map fun field => (field.number, field.span))) =
          some (some ⟨1, 0⟩, [(100, ⟨81, 82⟩)]) ∧
        (namesakesRun.2.schema.push loaded).fullName? (.message ⟨1, 0⟩) = some ".M" ∧
        (namesakesRun.2.schema.push loaded).lacksName ⟨1, 0⟩ ".a" = true := by
  have computed := @Compiler.openFile_of_computed
    (fun result => result.1 = .error
        (.check ⟨.duplicateExtensionNumber 100 ".M" ".a", ⟨81, 82⟩⟩ "b.proto" namesakeSource) ∧
      ((namesakes.openFile "b.proto").toOption.bind fun file =>
        (({} : Rules).link result.2.schema file true).toOption).any (fun loaded =>
          ((result.2.schema.push loaded).extension? ⟨1, 0⟩).map (fun block =>
              (block.extendee, block.fields.map fun field => (field.number, field.span))) =
            some (some ⟨1, 0⟩, [(100, ⟨81, 82⟩)]) ∧
          (result.2.schema.push loaded).fullName? (.message ⟨1, 0⟩) = some ".M" ∧
          (result.2.schema.push loaded).lacksName ⟨1, 0⟩ ".a" = true) = true)
    _ 2 { resolver := namesakes } ⟨"b.proto"⟩ (by decide +kernel)
  exact ⟨computed.1, Rules.link_of_computed computed.2⟩

theorem clashes_run_namesakes :
    (run namesakes []).compiler.rules.validators ⊆ ({} : Rules).validators ∧
      namesakesRun.1 = .error
        (.check ⟨.duplicateExtensionNumber 100 ".M" ".a", ⟨81, 82⟩⟩ "b.proto" namesakeSource) ∧
      ∃ (judged : Schema) (loaded : LoadedFile),
        judged.files = namesakesRun.2.schema.files.push loaded ∧ judged.Settled (fun _ => True) ∧
        loaded.file.name = "b.proto" ∧ loaded.source = namesakeSource ∧
        judged.Clashes namesakesRun.2.schema.files.size 100 ".M" ".a" ⟨81, 82⟩ := by
  have failed := openFile_namesakes.1
  have standard : (run namesakes []).compiler.rules.validators ⊆ ({} : Rules).validators :=
    List.Subset.refl _
  rcases clashes_run namesakes [] standard failed with ⟨asked, supplied⟩ | clash
  · exact absurd supplied namesakes_ne_check
  · exact ⟨standard, failed, clash⟩

/-- For the message that the field at fault extends, the number is not in use under the name that
the error tells. -/
theorem not_usedFor_namesakes :
    namesakesRun.1 = .error
        (.check ⟨.duplicateExtensionNumber 100 ".M" ".a", ⟨81, 82⟩⟩ "b.proto" namesakeSource) ∧
      ∃ file loaded, namesakes.openFile "b.proto" = .ok file ∧
        ({} : Rules).link namesakesRun.2.schema file true = .ok loaded ∧
        (namesakesRun.2.schema.push loaded).ExtensionAt (⟨1, 0⟩, 0) ⟨1, 0⟩ 100 ".M" ⟨81, 82⟩ ∧
        ¬ (namesakesRun.2.schema.push loaded).UsedFor (⟨1, 0⟩, 0) ⟨1, 0⟩ 100 ".a" := by
  rcases openFile_namesakes with ⟨failed, file, loaded, opened, linked, held, named, lacks⟩
  refine ⟨failed, file, loaded, opened, linked, ?_, Schema.not_usedFor_of_lacksName lacks⟩
  rcases Option.map_eq_some_iff.mp held with ⟨block, present, same⟩
  rw [Prod.mk.injEq, List.map_eq_singleton_iff] at same
  rcases same with ⟨extendee, field, single, same⟩
  rw [Prod.mk.injEq] at same
  exact ⟨block, field, ⟨present, by rw [single]; rfl⟩, extendee, named, same.1, same.2⟩

end Session

end ProtoSchema
