import ProtoSchema.Proofs.Compiler.Cycles
import ProtoSchema.Proofs.Compiler.Evaluation
import ProtoSchema.Proofs.Compiler.Opening
import ProtoSchema.Proofs.Compiler.Termination
/-! # Import cycles

A file is loaded only if the imports behind it do not run in a circle. If they do, the
error tells the way from the opened file into the circle and once around it. Every other
error has an origin of its own.
-/

namespace ProtoSchema

/-! ## Where errors come from -/

/-- The names that the source of a file imports. -/
def Resolver.importsOf (resolver : Resolver) (name : String) : List String :=
  match resolver.openFile name with
  | .ok file => file.tree.imports.map Syntax.Import.file
  | .error _ => []

theorem Resolver.importsOf_of_opened {resolver : Resolver} {name : String} {file : SourceFile}
    (opened : resolver.openFile name = .ok file) :
    resolver.importsOf name = file.tree.imports.map Syntax.Import.file := by
  simp only [importsOf, opened]

/-- The imports of a settled file are those in its source. -/
theorem LoadedFile.Settled.importNames_eq {schema : Schema} {id : FileId} {file : SourceFile}
    {loaded : LoadedFile} (own : loaded.Settled schema id file) :
    loaded.file.imports.map Import.name = file.tree.imports.map Syntax.Import.file := by
  have written := congrArg (List.map Import.name) own.imports_eq
  rw [List.map_map] at written
  apply written.trans
  change (file.tree.imports.map Draft.importStatement).map Import.name = _
  rw [List.map_map]
  rfl

namespace Rules

/-- The resolver or a validator gives an error by itself. -/
def Supplies (rules : Rules) (resolver : Resolver) (error : LoadError) : Prop :=
  (∃ name, resolver.openFile name = .error error) ∨
    ∃ validator ∈ rules.validators, ∃ schema id, validator schema id = .error error

/-- The errors with which a root and what it leads to may fail to load. -/
inductive Blames (rules : Rules) (resolver : Resolver) (edge : String → String → Prop)
    (root : String) : LoadError → Prop
  | circle {name : String} {chain : List String} (way : CycleFrom edge root name chain) :
      Blames rules resolver edge root (.circularImport name chain)
  | source (error : CheckError) (file source : String) :
      Blames rules resolver edge root (.check error file source)
  | missing (name file source : String) (span : Span) :
      Blames rules resolver edge root (.importNotFound name file source span)
  | supplied {error : LoadError} (supplies : rules.Supplies resolver error) :
      Blames rules resolver edge root error

variable {rules : Rules} {resolver : Resolver} {next : String → List String} {root : String}

/-- An importing file passes the errors of its imports on. -/
theorem Blames.ofImport {edge : String → String → Prop} {error : LoadError}
    (blames : rules.Blames resolver edge root error) (file source : String) (span : Span) :
    rules.Blames resolver edge root (error.ofImport file source span) := by
  cases blames with
  | circle way => exact .circle way
  | source error other text => exact .source error other text
  | missing name other text place => exact .missing name other text place
  | supplied supplies =>
      cases error with
      | fileNotFound name => exact .missing name file source span
      | _ => exact .supplied supplies

theorem blames_commit {edge : String → String → Prop} {schema : Schema} {file : SourceFile}
    {isRoot : Bool} {error : LoadError}
    (failed : (rules.commit schema file isRoot).1 = .error error) :
    rules.Blames resolver edge root error := by
  rcases commit_cases rules schema file isRoot with ⟨after, -, result⟩ | ⟨other, failure, result⟩
  · rw [result] at failed
    cases failed
  · rw [result] at failed
    cases failed
    rcases add_eq_error failure with ⟨fault, -, rfl⟩ | ⟨loaded, -, validator, member, rejects⟩
    · exact .source fault file.name file.source
    · exact .supplied (.inr ⟨validator, member, _, _, rejects⟩)

/-! ## The way to a file -/

/-- A step from a file to one that its source imports, where the source is the one that
counts for the schema. -/
def ImportEdge (resolver : Resolver) (next : String → List String) (source target : String) :
    Prop :=
  target ∈ resolver.importsOf source ∧ target ∈ next source

/-- The files on the way from a root follow its imports, and none is met twice. -/
structure OnWay (resolver : Resolver) (next : String → List String) (root : String)
    (importers : List String) (schema : Schema) : Prop
    extends Underway resolver next importers schema where
  head?_eq : importers.head? = some root
  nodup : importers.Nodup

/-- The way goes on to a name. -/
def GoesTo (resolver : Resolver) (next : String → List String) (importers : List String)
    (name : String) : Prop :=
  (importers ++ [name]).IsChain (ImportEdge resolver next)

theorem OnWay.append_singleton {importers : List String} {schema : Schema} {name : String}
    (way : OnWay resolver next root importers schema) (noCycle : name ∉ importers)
    (fresh : schema.fileNamed? name = none) :
    OnWay resolver next root (importers ++ [name]) schema where
  toUnderway := way.toUnderway.append_singleton fresh
  head?_eq := by rw [List.head?_append, way.head?_eq, Option.some_or]
  nodup := by
    rw [← List.concat_eq_append]
    exact way.nodup.concat noCycle

/-- From a file the way goes on to its imports. -/
theorem GoesTo.imports {importers : List String} {name : String} {schema : Schema}
    {file : SourceFile} (goes : GoesTo resolver next importers name)
    (underway : Underway resolver next importers schema)
    (fresh : schema.fileNamed? name = none) (opened : resolver.openFile name = .ok file) :
    ∀ statement ∈ file.tree.imports,
      GoesTo resolver next (importers ++ [name]) statement.file := by
  intro statement member
  have written : statement.file ∈ file.tree.imports.map Syntax.Import.file :=
    List.mem_map_of_mem member
  have edge : ImportEdge resolver next name statement.file := by
    constructor
    · rwa [Resolver.importsOf_of_opened opened]
    · rwa [underway.next_eq name file fresh opened]
  rw [GoesTo, List.append_assoc]
  exact List.isChain_append_cons_cons.mpr ⟨goes, edge, .singleton _⟩

/-- Every error of a loading has its origin, and a circle is one that the way to it ran
into. -/
theorem load_blames (names : resolver.NamesFiles) :
    (∀ importers schema name result,
      rules.load resolver importers schema name = some result →
      OnWay resolver next root importers schema → GoesTo resolver next importers name →
      ∀ error, result.1 = .error error →
        rules.Blames resolver (ImportEdge resolver next) root error) ∧
    ∀ importers file statements schema result,
      rules.loadImports resolver importers file statements schema = some result →
      OnWay resolver next root importers schema →
      (∀ statement ∈ statements, GoesTo resolver next importers statement.file) →
      ∀ error, result.1 = .error error →
        rules.Blames resolver (ImportEdge resolver next) root error := by
  apply load_induction rules resolver
  case circular =>
    intro importers schema name cyclic way goes error failed
    cases failed
    exact .circle (.of_mem way.head?_eq way.nodup goes cyclic)
  case present =>
    intro importers schema name cyclic known way goes error failed
    cases failed
  case unreadable =>
    intro importers schema name fault cyclic fresh opened way goes error failed
    cases failed
    exact .supplied (.inl ⟨name, opened⟩)
  case importFailed =>
    intro importers schema name file fault after cyclic fresh opened run induction way goes
    exact induction (way.append_singleton cyclic fresh)
      (goes.imports way.toUnderway fresh opened)
  case committed =>
    intro importers schema name file after cyclic fresh opened run induction way goes error
    exact blames_commit
  case finished =>
    intro importers file schema way goes error failed
    cases failed
  case failed =>
    intro importers file statement statements schema fault after run induction way goes error
      failed
    cases failed
    have blames := induction way (goes statement List.mem_cons_self) fault rfl
    exact blames.ofImport file.name file.source statement.fileSpan
  case loaded =>
    intro importers file statement statements schema middle result run restRun first rest way goes
    have loads := load_steps.1 _ _ _ _ run fun _ => way.lacks
    have between := way.toUnderway.steps names loads.steps (loads.lacks names)
    apply rest { way with toUnderway := between }
    intro other member
    exact goes other (List.mem_cons_of_mem statement member)

theorem loadRoot_blames (names : resolver.NamesFiles) {schema : Schema} {file : SourceFile}
    {result : Except LoadError Unit × Schema}
    (run : rules.loadRoot resolver schema root file = some result)
    (opened : resolver.openFile root = .ok file) (fresh : schema.fileNamed? root = none)
    (underway : Underway resolver next [root] schema) {error : LoadError}
    (failed : result.1 = .error error) :
    rules.Blames resolver (ImportEdge resolver next) root error := by
  rw [loadRoot_eq, Option.map_eq_some_iff] at run
  rcases run with ⟨⟨outcome, middle⟩, importsRun, rfl⟩
  have way : OnWay resolver next root [root] schema :=
    { underway with head?_eq := rfl, nodup := List.nodup_singleton root }
  have goes : GoesTo resolver next [] root := .singleton root
  have outside : Underway resolver next [] schema :=
    { underway with lacks := fun _ member => absurd member List.not_mem_nil }
  have blames := (load_blames names).2 _ _ _ _ _ importsRun way (goes.imports outside fresh opened)
  cases outcome with
  | error fault => exact blames error failed
  | ok _ => exact blames_commit failed

end Rules

namespace Compiler

variable {compiler : Compiler} {opened : List String}

/-! ## Opening a file -/

/-- The errors with which a file may fail to open. -/
inductive Blames (compiler : Compiler) (path : Path) : LoadError → Prop
  | notIncluded (other : Path) : Blames compiler path (.notIncluded other)
  | shadowed (name : String) (found shadow : Path) :
      Blames compiler path (.shadowed name found shadow)
  | loading {root : String} {included : Bool} {error : LoadError}
      (target : compiler.target? path = some (root, included))
      (blames : compiler.rules.Blames compiler.resolver
        (Rules.ImportEdge compiler.resolver compiler.importsOf) root error) :
      Blames compiler path error

/-- A file that does not open is to blame itself, or what it leads to. -/
theorem openFile_blames (names : compiler.resolver.NamesFiles)
    (finite : compiler.resolver.OpensFinitely) (wellFormed : compiler.schema.WellFormed opened)
    {path : Path} {error : LoadError} (failed : (compiler.openFile path).1 = .error error) :
    compiler.Blames path error := by
  have fails := fails_openFile failed
  generalize (compiler.openFile path).2.schema = after at fails
  cases fails with
  | notIncluded => exact .notIncluded path
  | shadowed name found shadow => exact .shadowed name found shadow
  | unreadable target opened => exact .loading target (.supplied (.inl ⟨_, opened⟩))
  | @endless name file run =>
      have ends : (compiler.rules.loadRoot compiler.resolver compiler.schema name file).isSome :=
        Rules.isSome_loadRoot finite compiler.schema name file
      rw [run] at ends
      cases ends
  | loading target opened fresh run =>
      exact .loading target
        (Rules.loadRoot_blames names run opened fresh (underway wellFormed fresh) rfl)

/-! ## Loaded files -/

/-- Loaded files import earlier ones, so that no way goes on forever. -/
theorem acc_of_loaded (wellFormed : compiler.schema.WellFormed opened) :
    ∀ name ∈ compiler.schema.fileNames,
      Acc (fun target source => target ∈ compiler.importsOf source) name := by
  have all : ∀ (id : FileId) loaded, compiler.schema.files[id]? = some loaded →
      Acc (fun target source => target ∈ compiler.importsOf source) loaded.file.name := by
    intro id
    induction id using Nat.strongRecOn with
    | ind id induction =>
        intro loaded present
        apply Acc.intro
        intro target edge
        have named := wellFormed.fileNamed?_eq_some_iff.mpr ⟨loaded, present, rfl⟩
        rw [importsOf_of_loaded named present] at edge
        rcases List.mem_map.mp edge with ⟨statement, listed, rfl⟩
        rcases (wellFormed.wellPlaced present).imports_linked statement listed with
          ⟨other, imported, -, earlier, presentOther, sameName⟩
        rw [← sameName]
        exact induction other earlier imported presentOther
  intro name member
  rcases Schema.mem_fileNames.mp member with ⟨id, loaded, present, rfl⟩
  exact all id loaded present

theorem importsOf_of_missing {name : String}
    (missing : compiler.schema.fileNamed? name = none) :
    compiler.importsOf name = compiler.resolver.importsOf name := by
  cases found : compiler.resolver.openFile name <;>
    simp only [importsOf, missing, Resolver.importsOf, found]

/-- While the files do not change, the imports of a loaded file are those in its source. -/
theorem importsOf_eq (settled : compiler.schema.Settled
      fun file => compiler.resolver.openFile file.name = .ok file)
    (name : String) : compiler.importsOf name = compiler.resolver.importsOf name := by
  cases named : compiler.schema.fileNamed? name with
  | none => exact importsOf_of_missing named
  | some id =>
      rcases settled.indexed name id named with ⟨loaded, present, rfl⟩
      rcases settled.files present with ⟨file, opened, own⟩
      rw [importsOf_of_loaded named present, own.name_eq, Resolver.importsOf_of_opened opened,
        own.importNames_eq]

/-! ## Circles of imports -/

/-- Opening a file comes to an end and finds every circle of imports behind the file,
but no circle that is not there. -/
structure FindsCircles (compiler : Compiler) (path : Path) : Prop where
  /-- Files that can be opened at all are loaded or fail. -/
  ends : ∀ name file, compiler.resolver.openFile name = .ok file →
    ∃ result, compiler.rules.loadRoot compiler.resolver compiler.schema name file = some result
  /-- A circle that is reported is there in the sources. -/
  reported : ∀ name chain,
    (compiler.openFile path).1 = .error (.circularImport name chain) →
    compiler.rules.Supplies compiler.resolver (.circularImport name chain) ∨
      (LoadError.circularImport name chain).message =
          "import cycle detected: " ++ " -> ".intercalate chain ∧
        ∃ root included, compiler.target? path = some (root, included) ∧
          CycleFrom (fun source target => target ∈ compiler.resolver.importsOf source) root name
            chain
  /-- Behind a file that opens there is no circle. -/
  acyclic : (compiler.openFile path).1 = .ok () →
    ∃ root included, compiler.target? path = some (root, included) ∧
      Acyclic compiler.importsOf root
  /-- Without a circle none is reported. -/
  silent : ∀ root included, compiler.target? path = some (root, included) →
    Acyclic compiler.importsOf root → ∀ name chain,
      (compiler.openFile path).1 = .error (.circularImport name chain) →
      compiler.rules.Supplies compiler.resolver (.circularImport name chain)

theorem findsCircles_openFile (names : compiler.resolver.NamesFiles)
    (finite : compiler.resolver.OpensFinitely) (wellFormed : compiler.schema.WellFormed opened)
    (settled : compiler.schema.Settled fun _ => True) (path : Path) :
    compiler.FindsCircles path where
  ends name file _ :=
    Option.isSome_iff_exists.mp (Rules.isSome_loadRoot finite compiler.schema name file)
  reported name chain failed := by
    cases openFile_blames names finite wellFormed failed with
    | loading target blames =>
        cases blames with
        | circle way => exact .inr ⟨rfl, _, _, target, way.mono fun _ _ edge => edge.1⟩
        | supplied supplies => exact .inl supplies
  acyclic succeeded := by
    rcases (opensExactly_openFile names wellFormed settled path).succeeded succeeded with
      ⟨root, included, order, target, -, visits, -⟩
    have accessible := visits.acc (acc_of_loaded wellFormed) root List.mem_cons_self
    exact ⟨root, included, target, acyclic_of_acc accessible⟩
  silent root included found acyclic name chain failed := by
    cases openFile_blames names finite wellFormed failed with
    | loading target blames =>
        cases blames with
        | circle way =>
            rw [found] at target
            cases target
            exact absurd (way.mono fun _ _ edge => edge.2) acyclic.not_cycleFrom
        | supplied supplies => exact supplies

end Compiler

/-! ## Sessions -/

namespace Session

/-- In a session in which the files do not change, the imports of all files are those in
their sources. -/
theorem importsOf_run {resolver : Resolver} (names : resolver.NamesFiles)
    {operations : List Operation}
    (unchanged : ∀ operation ∈ operations, operation.Respects (· = resolver)) (name : String) :
    (run resolver operations).compiler.importsOf name = resolver.importsOf name := by
  have same : (run resolver operations).compiler.resolver = resolver :=
    @allowed_resolver_run (· = resolver) resolver rfl operations unchanged
  have settled : (run resolver operations).compiler.schema.Settled
      fun file => resolver.openFile file.name = .ok file := by
    refine @run_induction (· = resolver) (fun schema _ => schema.Settled _) .empty ?_ resolver rfl
      operations unchanged
    intro session path rfl settled
    apply settled.openFile
    intro name file opened
    rw [names name file opened]
    exact opened
  rw [Compiler.importsOf_eq (by rwa [same]), same]

/-- A resolver that opens only finitely many files, each under its own name. -/
def IsFinite (resolver : Resolver) : Prop :=
  resolver.NamesFiles ∧ resolver.OpensFinitely

/-- After every session, opening a file ends and finds the circles of imports behind it;
and as long as the files do not change, these imports are those in the sources. -/
theorem findsCircles_run {resolver : Resolver} (finite : IsFinite resolver)
    {operations : List Operation}
    (respect : ∀ operation ∈ operations, operation.Respects IsFinite) (path : Path) :
    (run resolver operations).compiler.FindsCircles path ∧
      ((∀ operation ∈ operations, operation.Respects (· = resolver)) → ∀ name,
        (run resolver operations).compiler.importsOf name = resolver.importsOf name) := by
  have allowed := allowed_resolver_run finite respect
  have wellFormed := Schema.WellFormed.run (fun _ => And.left) finite respect
  have settled := Schema.settled_run resolver operations
  exact ⟨Compiler.findsCircles_openFile allowed.1 allowed.2 wellFormed settled path,
    fun unchanged => importsOf_run finite.1 unchanged⟩

/-- The circle lies behind the file that is opened. -/
theorem findsCircles_run_circle :
    let circle := Resolver.ofMemory
      { sources := [("a.proto", "import \"b.proto\";"), ("b.proto", "import \"c.proto\";"),
        ("c.proto", "import \"b.proto\";"), ("d.proto", "message D \x7b\x7d")] }
    let operations : List Operation := [.openFile ⟨"d.proto"⟩]
    (IsFinite circle ∧ ∀ operation ∈ operations, operation.Respects IsFinite) ∧
      (run circle operations).compiler.FindsCircles ⟨"a.proto"⟩ ∧
      ((run circle operations).compiler.openFile ⟨"a.proto"⟩).1 =
        .error (.circularImport "b.proto" ["a.proto", "b.proto", "c.proto", "b.proto"]) := by
  intro circle operations
  have finite : IsFinite circle :=
    ⟨Resolver.namesFiles_ofMemory _, Resolver.opensFinitely_ofMemory _⟩
  have respect : ∀ operation ∈ operations, operation.Respects IsFinite := by
    simp only [operations, List.forall_mem_singleton, Operation.Respects]
  have second : ((run circle operations).compiler.openFileWithin 4 ⟨"a.proto"⟩).any
      (fun result => result.1 = .error (.circularImport "b.proto"
        ["a.proto", "b.proto", "c.proto", "b.proto"])) = true :=
    @Compiler.openFile_of_computed
      (fun first => (first.2.openFileWithin 4 ⟨"a.proto"⟩).any
        (fun result => result.1 = .error (.circularImport "b.proto"
          ["a.proto", "b.proto", "c.proto", "b.proto"])) = true)
      _ 4 { resolver := circle } ⟨"d.proto"⟩ (by decide +kernel)
  exact ⟨⟨finite, respect⟩, (findsCircles_run finite respect ⟨"a.proto"⟩).1,
    @Compiler.openFile_of_computed
      (fun result => result.1 = .error (.circularImport "b.proto"
        ["a.proto", "b.proto", "c.proto", "b.proto"]))
      _ 4 (run circle operations).compiler ⟨"a.proto"⟩ second⟩

end Session

end ProtoSchema
