import ProtoSchema.Proofs.Compiler.ImportCycles
/-! # Files that are yielded

With imports included a compiler yields all loaded files. These are the files that were
opened with what they lead to, and besides what failed openings have left behind: an opening
that fails keeps the imports that it has loaded before.
-/

namespace ProtoSchema

namespace Compiler

variable {compiler : Compiler} {opened : List String}

/-! ## Imports that stay the same -/

/-- Opening a file changes no imports: what is loaded by it has the imports of its source. -/
theorem importsOf_openFile (names : compiler.resolver.NamesFiles)
    (wellFormed : compiler.schema.WellFormed opened)
    (settled : compiler.schema.Settled fun _ => True) (path : Path) :
    (compiler.openFile path).2.importsOf = compiler.importsOf := by
  have sameResolver : (compiler.openFile path).2.resolver = compiler.resolver := by
    rw [openFile_eq]
  have afterWellFormed := Schema.WellFormed.openFile ⟨compiler, opened⟩ path names wellFormed
  have effect := opensExactly_openFile names wellFormed settled path
  -- A source is that of an earlier file, or the resolver has found it.
  have origins : compiler.schema.Settled fun file =>
      compiler.resolver.openFile file.name = .ok file ∨
        (compiler.schema.fileNamed? file.name).isSome :=
    { indexed := settled.indexed
      files := by
        intro id loaded present
        rcases settled.files present with ⟨file, -, own⟩
        refine ⟨file, .inr ?_, own⟩
        rw [← own.name_eq, wellFormed.fileNamed?_eq_some_iff.mpr ⟨loaded, present, rfl⟩]
        rfl }
  have afterOrigins := origins.openFile
    (fun name file found => .inl ((names name file found).symm ▸ found)) path
  funext name
  cases known : compiler.schema.fileNamed? name with
  | some id =>
      rcases wellFormed.fileNamed?_eq_some_iff.mp known with ⟨loaded, present, named⟩
      rcases effect.kept id loaded present with ⟨mark, presentAfter, -⟩
      have knownAfter := afterWellFormed.fileNamed?_eq_some_iff.mpr ⟨_, presentAfter, named⟩
      exact (importsOf_of_loaded knownAfter presentAfter).trans
        (importsOf_of_loaded known present).symm
  | none =>
      rw [importsOf_of_missing known]
      cases knownAfter : (compiler.openFile path).2.schema.fileNamed? name with
      | none => rw [importsOf_of_missing knownAfter, sameResolver]
      | some id =>
          rcases afterWellFormed.fileNamed?_eq_some_iff.mp knownAfter with
            ⟨loaded, presentAfter, rfl⟩
          rcases afterOrigins.files presentAfter with ⟨file, origin, own⟩
          rw [importsOf_of_loaded knownAfter presentAfter, own.importNames_eq, own.name_eq]
          rw [own.name_eq] at known
          rw [known] at origin
          exact (Resolver.importsOf_of_opened (origin.resolve_right Bool.false_ne_true)).symm

/-- What a loaded file leads to is loaded, and whoever has the same files leads to it. -/
theorem leadsTo_of_loaded {other : Compiler} (wellFormed : compiler.schema.WellFormed opened)
    (same : other.schema = compiler.schema) {root name : String}
    (loaded : root ∈ compiler.schema.fileNames) (leads : LeadsTo compiler.importsOf root name) :
    name ∈ compiler.schema.fileNames ∧ LeadsTo other.importsOf root name := by
  induction leads with
  | refl => exact ⟨loaded, .refl⟩
  | @tail source target _ edge induction =>
      rcases induction with ⟨inside, leads⟩
      refine ⟨importsOf_closed wellFormed source inside target edge, leads.tail ?_⟩
      rcases Option.isSome_iff_exists.mp (wellFormed.mem_fileNames_iff.mp inside) with ⟨id, named⟩
      rcases wellFormed.fileNamed?_eq_some_iff.mp named with ⟨loaded, present, -⟩
      rw [importsOf_of_loaded named present] at edge
      rw [← same] at named present
      rw [importsOf_of_loaded named present]
      exact edge

end Compiler

/-! ## Openings -/

/-- The opening of a file by a compiler. -/
structure Opening where
  compiler : Compiler
  path : Path

namespace Opening

def outcome (opening : Opening) : Except LoadError Unit :=
  (opening.compiler.openFile opening.path).1

def after (opening : Opening) : Schema :=
  (opening.compiler.openFile opening.path).2.schema

/-- An opening fails, and yet it has loaded a file that was missing before. -/
structure LeavesBehind (opening : Opening) (name : String) : Prop where
  failed : opening.outcome ≠ .ok ()
  missing : name ∉ opening.compiler.schema.fileNames
  loaded : name ∈ opening.after.fileNames

/-- The file that was to be opened leads to a file, which is not the same. -/
def Needs (opening : Opening) (name : String) : Prop :=
  ∃ root included, opening.compiler.target? opening.path = some (root, included) ∧
    name ≠ root ∧ LeadsTo opening.compiler.importsOf root name

theorem needs_of_leavesBehind {opening : Opening}
    (effect : opening.compiler.OpensExactly opening.path opening.outcome opening.after)
    {name : String} (leaves : opening.LeavesBehind name) : opening.Needs name := by
  rcases Schema.mem_fileNames.mp leaves.loaded with ⟨id, loaded, present, rfl⟩
  have isNew : opening.compiler.schema.files.size ≤ id := by
    by_contra early
    have held := Array.getElem?_eq_getElem (Nat.lt_of_not_le early)
    rcases effect.kept id _ held with ⟨mark, kept, -⟩
    cases present.symm.trans kept
    exact leaves.missing (Schema.mem_fileNames.mpr ⟨id, _, held, rfl⟩)
  rcases effect.appended id loaded isNew present with ⟨root, included, target, leads, -, -⟩
  refine ⟨root, included, target, ?_, leads⟩
  intro same
  cases outcome : opening.outcome with
  | ok _ => exact leaves.failed outcome
  | error error =>
      have fails : opening.compiler.FailsDuring opening.path root := .opened target outcome
      exact effect.failed root fails (same ▸ leaves.missing) (same ▸ leaves.loaded)

end Opening

/-- The paths that an operation is to open. -/
def Operation.paths : Operation → List Path
  | .openFile path => [path]
  | .openFiles paths => paths
  | _ => []

namespace Session

/-- The single openings in an attempt to open several files, up to the first failure. -/
def attempts (session : Session) : List Path → List Opening
  | [] => []
  | path :: paths =>
      ⟨session.compiler, path⟩ ::
        match (session.compiler.openFile path).1 with
        | .ok () => (session.openFile path).attempts paths
        | .error _ => []

/-- The single openings in the course of some operations. -/
def openings (session : Session) : List Operation → List Opening
  | [] => []
  | operation :: operations =>
      session.attempts operation.paths ++ (session.apply operation).openings operations

theorem opened_of_ok {session : Session} {path : Path} {root : String} {included : Bool}
    (outcome : (session.compiler.openFile path).1 = .ok ())
    (target : session.compiler.target? path = some (root, included)) :
    (session.openFile path).opened = session.opened ++ [root] := by
  rw [openFile, target]
  simp only [outcome]
  rfl

theorem opened_of_error {session : Session} {path : Path} {error : LoadError}
    (outcome : (session.compiler.openFile path).1 = .error error) :
    (session.openFile path).opened = session.opened := by
  rw [openFile]
  simp only [outcome, List.append_nil]

/-! ## Accounts of sessions -/

/-- Every loaded file is accounted for: an opened file leads to it, or a failed opening has
left it behind. -/
structure Accounted (session : Session) (openings : List Opening) : Prop where
  names : session.compiler.resolver.NamesFiles
  wellFormed : session.compiler.schema.WellFormed session.opened
  settled : session.compiler.schema.Settled fun _ => True
  origin : ∀ name ∈ session.compiler.schema.fileNames,
    (∃ root ∈ session.opened, LeadsTo session.compiler.importsOf root name) ∨
      ∃ opening ∈ openings, opening.LeavesBehind name
  kept : ∀ opening ∈ openings, ∀ name, opening.LeavesBehind name →
    opening.Needs name ∧ name ∈ session.compiler.schema.fileNames

namespace Accounted

variable {session : Session} {openings : List Opening}

theorem start {resolver : Resolver} (names : resolver.NamesFiles) :
    ({ compiler := { resolver } } : Session).Accounted [] where
  names := names
  wellFormed := .empty
  settled := .empty
  origin _ member := by cases member
  kept _ member := by cases member

/-- One opening accounts for the files that it loads. -/
theorem openFile (accounted : session.Accounted openings) (path : Path) :
    (session.openFile path).Accounted (openings ++ [⟨session.compiler, path⟩]) := by
  have effect := Compiler.opensExactly_openFile accounted.names accounted.wellFormed
    accounted.settled path
  have sameImports : (session.openFile path).compiler.importsOf = session.compiler.importsOf :=
    Compiler.importsOf_openFile accounted.names accounted.wellFormed accounted.settled path
  have stays : ∀ name ∈ session.compiler.schema.fileNames,
      name ∈ (session.openFile path).compiler.schema.fileNames := by
    intro name member
    rcases Schema.mem_fileNames.mp member with ⟨id, loaded, present, rfl⟩
    rcases effect.kept id loaded present with ⟨mark, kept, -⟩
    exact Schema.mem_fileNames.mpr ⟨id, _, kept, rfl⟩
  exact
    { names := by
        rw [resolver_openFile]
        exact accounted.names
      wellFormed := accounted.wellFormed.openFile session path accounted.names
      settled := accounted.settled.openFile (fun _ _ _ => trivial) path
      origin := by
        intro name member
        rw [sameImports]
        by_cases known : name ∈ session.compiler.schema.fileNames
        · rcases accounted.origin name known with ⟨root, isRoot, leads⟩ | ⟨opening, listed, left⟩
          · exact .inl ⟨root, List.mem_append_left _ isRoot, leads⟩
          · exact .inr ⟨opening, List.mem_append_left _ listed, left⟩
        · cases outcome : (session.compiler.openFile path).1 with
          | error error =>
              refine .inr ⟨_, List.mem_append_right _ (List.mem_singleton_self _), ?_⟩
              have failed : Opening.outcome ⟨session.compiler, path⟩ ≠ .ok () := by
                rw [Opening.outcome, outcome]
                exact nofun
              exact ⟨failed, known, member⟩
          | ok _ =>
              rcases effect.succeeded outcome with
                ⟨root, included, order, target, appended, -, -, ordered, -⟩
              have inOrder : name ∈ order := by
                have listed := appended ▸ member
                exact (List.mem_append.mp listed).resolve_left known
              rw [opened_of_ok outcome target]
              exact .inl ⟨root, List.mem_append_right _ (List.mem_singleton_self root),
                ((ordered name).mp inOrder).1⟩
      kept := by
        intro opening member name left
        rcases List.mem_append.mp member with listed | new
        · rcases accounted.kept opening listed name left with ⟨needs, loaded⟩
          exact ⟨needs, stays name loaded⟩
        · cases List.mem_singleton.mp new
          exact ⟨Opening.needs_of_leavesBehind effect left, left.loaded⟩ }

theorem openFiles (accounted : session.Accounted openings) (paths : List Path) :
    (session.openFiles paths).Accounted (openings ++ session.attempts paths) := by
  induction paths generalizing session openings with
  | nil =>
      rw [attempts, List.append_nil]
      exact accounted
  | cons path paths induction =>
      have next := accounted.openFile path
      rw [Session.openFiles, attempts]
      cases (session.compiler.openFile path).1 with
      | error _ => exact next
      | ok _ =>
          have rest := induction next
          rw [List.append_assoc] at rest
          exact rest

/-- What leaves the files alone leaves the account as it is. -/
theorem change (accounted : session.Accounted openings) {compiler : Compiler}
    (names : compiler.resolver.NamesFiles) (same : compiler.schema = session.compiler.schema) :
    ({ session with compiler } : Session).Accounted openings where
  names := names
  wellFormed := by
    rw [same]
    exact accounted.wellFormed
  settled := by
    rw [same]
    exact accounted.settled
  origin := by
    intro name member
    rw [same] at member
    rcases accounted.origin name member with ⟨root, isRoot, leads⟩ | left
    · have loaded := accounted.wellFormed.mem_fileNames_iff.mpr
        (accounted.wellFormed.opened_loaded root isRoot)
      exact .inl ⟨root, isRoot,
        (Compiler.leadsTo_of_loaded accounted.wellFormed same loaded leads).2⟩
    · exact .inr left
  kept := by
    rw [same]
    exact accounted.kept

theorem apply (accounted : session.Accounted openings) {operation : Operation}
    (respects : operation.Respects Resolver.NamesFiles) :
    (session.apply operation).Accounted (openings ++ session.attempts operation.paths) := by
  have unchanged {compiler : Compiler} (names : compiler.resolver.NamesFiles)
      (same : compiler.schema = session.compiler.schema) :
      ({ session with compiler } : Session).Accounted (openings ++ session.attempts []) := by
    rw [attempts, List.append_nil]
    exact accounted.change names same
  cases operation with
  | openFile path =>
      have next := accounted.openFiles [path]
      have same : session.openFiles [path] = session.openFile path := by
        rw [Session.openFiles]
        split <;> rfl
      rw [same] at next
      exact next
  | openFiles paths => exact accounted.openFiles paths
  | changeFiles resolver => exact unchanged respects rfl
  | _ => exact unchanged accounted.names rfl

theorem foldl (accounted : session.Accounted openings) {operations : List Operation}
    (respect : ∀ operation ∈ operations, operation.Respects Resolver.NamesFiles) :
    (operations.foldl Session.apply session).Accounted
      (openings ++ session.openings operations) := by
  induction operations generalizing session openings with
  | nil =>
      rw [Session.openings, List.append_nil]
      exact accounted
  | cons operation operations induction =>
      rw [List.forall_mem_cons] at respect
      have rest := induction (accounted.apply respect.1) respect.2
      rw [List.append_assoc] at rest
      exact rest

/-- What opened files lead to is loaded. -/
theorem mem_fileNames_iff (accounted : session.Accounted openings) (name : String) :
    name ∈ session.compiler.schema.fileNames ↔
      (∃ root ∈ session.opened, LeadsTo session.compiler.importsOf root name) ∨
        ∃ opening ∈ openings, opening.LeavesBehind name := by
  constructor
  · exact accounted.origin name
  · rintro (⟨root, isRoot, leads⟩ | ⟨opening, listed, left⟩)
    · have loaded := accounted.wellFormed.mem_fileNames_iff.mpr
        (accounted.wellFormed.opened_loaded root isRoot)
      exact (Compiler.leadsTo_of_loaded accounted.wellFormed rfl loaded leads).1
    · exact (accounted.kept opening listed name left).2

end Accounted

/-! ## Yielded files -/

/-- In every session, with imports included, all loaded files are yielded in their order and
each once: those that opened files lead to, and those that failed openings have left behind,
which are files that the file to be opened needs. -/
theorem files_run {resolver : Resolver} (names : resolver.NamesFiles)
    {operations : List Operation}
    (respect : ∀ operation ∈ operations, operation.Respects Resolver.NamesFiles)
    (included : (run resolver operations).compiler.includeImports = true) :
    let session := run resolver operations
    let openings := openings { compiler := { resolver } } operations
    session.compiler.files = session.compiler.schema.files.toList ∧
      (session.compiler.files.map (·.file.name)).Nodup ∧
      (∀ name, name ∈ session.compiler.files.map (·.file.name) ↔
        (∃ root ∈ session.opened, LeadsTo session.compiler.importsOf root name) ∨
          ∃ opening ∈ openings, opening.LeavesBehind name) ∧
      ∀ opening ∈ openings, ∀ name, opening.LeavesBehind name → opening.Needs name := by
  intro session openings
  have accounted : session.Accounted openings := (Accounted.start names).foldl respect
  have all : session.compiler.files = session.compiler.schema.files.toList := by
    rw [Compiler.files, included]
    exact List.filter_true _
  rw [all]
  exact ⟨rfl, accounted.wellFormed.nodup_fileNames, accounted.mem_fileNames_iff,
    fun opening listed name left => (accounted.kept opening listed name left).1⟩

/-- A file is opened and another one fails, both of which import a third one. -/
theorem files_run_failing :
    let failing := Resolver.ofMemory
      { sources := [("a.proto", "message A \x7b\x7d"), ("b.proto", "import \"a.proto\";"),
        ("c.proto", "import \"a.proto\"; import \"d.proto\"; message"),
        ("d.proto", "message D \x7b\x7d")] }
    let operations : List Operation :=
      [.openFiles [⟨"b.proto"⟩, ⟨"c.proto"⟩], .includeImports true]
    let session := run failing operations
    let openings := openings { compiler := { resolver := failing } } operations
    (failing.NamesFiles ∧ (∀ operation ∈ operations, operation.Respects Resolver.NamesFiles) ∧
      session.compiler.includeImports = true) ∧
      ∀ name, name ∈ session.compiler.files.map (·.file.name) ↔
        (∃ root ∈ session.opened, LeadsTo session.compiler.importsOf root name) ∨
          ∃ opening ∈ openings, opening.LeavesBehind name := by
  intro failing operations session openings
  have names : failing.NamesFiles := Resolver.namesFiles_ofMemory _
  have respect : ∀ operation ∈ operations, operation.Respects Resolver.NamesFiles := by
    simp only [operations, List.forall_mem_cons, Operation.Respects]
    exact ⟨trivial, trivial, by simp⟩
  exact ⟨⟨names, respect, rfl⟩, (files_run names respect rfl).2.2.1⟩

/-- An opening that fails leaves an import behind, to which no opened file leads. -/
theorem files_run_left_behind :
    let failing := Resolver.ofMemory
      { sources := [("dep.proto", "message Dep \x7b\x7d"),
        ("bad.proto",
          "import \"dep.proto\"; message Bad \x7b optional Missing m = 1; \x7d")] }
    let session := run failing [.includeImports true, .openFile ⟨"bad.proto"⟩]
    session.opened = [] ∧ session.compiler.files.map (·.file.name) = ["dep.proto"] ∧
      ¬ ∀ name, name ∈ session.compiler.files.map (·.file.name) ↔
        ∃ root ∈ session.opened, LeadsTo session.compiler.importsOf root name := by
  intro failing session
  let compiler : Compiler := { resolver := failing, includeImports := true }
  have computed : (compiler.openFile ⟨"bad.proto"⟩).1.toBool = false ∧
      session.compiler.files.map (·.file.name) = ["dep.proto"] :=
    @Compiler.openFile_of_computed
      (fun result => result.1.toBool = false ∧
        result.2.files.map (fun loaded : LoadedFile => loaded.file.name) = ["dep.proto"])
      _ 2 compiler ⟨"bad.proto"⟩ (by decide +kernel)
  rcases computed with ⟨failed, yielded⟩
  have unopened : session.opened = [] := by
    cases outcome : (compiler.openFile ⟨"bad.proto"⟩).1 with
    | ok _ =>
        rw [outcome] at failed
        cases failed
    | error error => exact @opened_of_error { compiler } _ error outcome
  refine ⟨unopened, yielded, fun same => ?_⟩
  rw [yielded, unopened] at same
  rcases (same "dep.proto").mp (List.mem_singleton_self _) with ⟨root, none, -⟩
  exact List.not_mem_nil none

end Session

end ProtoSchema
