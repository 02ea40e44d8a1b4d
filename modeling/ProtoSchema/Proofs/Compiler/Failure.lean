import ProtoSchema.Proofs.Compiler.Session
/-! # Files that fail

A file that cannot be loaded makes every file fail that is being loaded because of it.
Nothing is loaded after the first failure, and none of these files is in the schema in
the end.
-/

namespace ProtoSchema

namespace Rules

/-- A loading: the files on the way to it, the schema at its beginning, and the name. -/
structure Call where
  importers : List String
  schema : Schema
  name : String

variable (rules : Rules) (resolver : Resolver)

namespace Call

/-- The loading ends in an error and leaves a schema. -/
def FailsWith (call : Call) (error : LoadError) (after : Schema) : Prop :=
  rules.load resolver call.importers call.schema call.name = some (.error error, after)

/-- Loading the imports of a file comes to a statement, all before it being loaded. -/
def ComesFrom (call : Call) (importers : List String) (schema : Schema) (file : SourceFile) :
    Prop :=
  ∃ front statement back, file.tree.imports = front ++ statement :: back ∧
    rules.loadImports resolver importers file front schema = some (.ok (), call.schema) ∧
    call.importers = importers ∧ call.name = statement.file

/-- A loading brings about another one. -/
def Starts (outer inner : Call) : Prop :=
  outer.name ∉ outer.importers ∧ outer.schema.fileNamed? outer.name = none ∧
    ∃ file, resolver.openFile outer.name = .ok file ∧
      inner.ComesFrom rules resolver (outer.importers ++ [outer.name]) outer.schema file

end Call

variable {rules : Rules} {resolver : Resolver}

/-! ## Errors go through -/

theorem loadImports_of_fails {importers : List String} {file : SourceFile}
    {front back : List Syntax.Import} {statement : Syntax.Import}
    {schema middle after : Schema} {error : LoadError}
    (before : rules.loadImports resolver importers file front schema = some (.ok (), middle))
    (fails : rules.load resolver importers middle statement.file = some (.error error, after)) :
    ∃ error, rules.loadImports resolver importers file (front ++ statement :: back) schema =
      some (.error error, after) := by
  induction front generalizing schema with
  | nil =>
      rw [loadImports] at before
      cases before
      rw [List.nil_append, loadImports, fails]
      exact ⟨_, rfl⟩
  | cons first front induction =>
      rw [loadImports] at before
      rw [List.cons_append, loadImports]
      simp only [Option.bind_eq_bind, Option.bind_eq_some_iff] at before ⊢
      rcases before with ⟨⟨outcome, between⟩, firstRun, before⟩
      cases outcome with
      | error other => cases before
      | ok _ =>
          rcases induction before with ⟨error, run⟩
          exact ⟨error, ⟨_, firstRun, run⟩⟩

theorem Call.ComesFrom.loadImports_eq {call : Call} {importers : List String} {schema : Schema}
    {file : SourceFile} (comes : call.ComesFrom rules resolver importers schema file)
    {error : LoadError} {after : Schema} (fails : call.FailsWith rules resolver error after) :
    ∃ error, rules.loadImports resolver importers file file.tree.imports schema =
      some (.error error, after) := by
  rcases comes with ⟨front, statement, back, imports, before, rfl, name⟩
  rw [Call.FailsWith, name] at fails
  rw [imports]
  exact loadImports_of_fails before fails

/-- A loading fails if one that it brings about fails, and leaves the same schema. -/
theorem Call.Starts.failsWith {outer inner : Call} (starts : outer.Starts rules resolver inner)
    {error : LoadError} {after : Schema} (fails : inner.FailsWith rules resolver error after) :
    ∃ error, outer.FailsWith rules resolver error after := by
  rcases starts with ⟨acyclic, fresh, file, opened, comes⟩
  rcases comes.loadImports_eq fails with ⟨error, importsRun⟩
  refine ⟨error, ?_⟩
  rw [Call.FailsWith, load, if_neg acyclic, fresh]
  simp [opened, importsRun]

theorem Call.failsWith_of_starts {outer inner : Call}
    (starts : Relation.ReflTransGen (Call.Starts rules resolver) outer inner) {error : LoadError}
    {after : Schema} (fails : inner.FailsWith rules resolver error after) :
    ∃ error, outer.FailsWith rules resolver error after := by
  induction starts using Relation.ReflTransGen.head_induction_on with
  | refl => exact ⟨error, fails⟩
  | head start _ induction =>
      rcases induction with ⟨error, fails⟩
      exact start.failsWith fails

/-! ## Failed files are not kept -/

theorem Call.ComesFrom.lacks {call : Call} {importers : List String} {schema : Schema}
    {file : SourceFile} (comes : call.ComesFrom rules resolver importers schema file)
    (names : resolver.NamesFiles) (lacks : schema.Lacks importers) :
    call.schema.Lacks call.importers := by
  rcases comes with ⟨front, statement, back, -, before, rfl, -⟩
  exact (load_steps.2 _ _ _ _ _ before fun _ => lacks).lacks names

theorem Call.lacks_of_starts {outer inner : Call}
    (starts : Relation.ReflTransGen (Call.Starts rules resolver) outer inner)
    (names : resolver.NamesFiles) (lacks : outer.schema.Lacks outer.importers) :
    inner.schema.Lacks inner.importers := by
  induction starts with
  | refl => exact lacks
  | tail _ start induction =>
      rcases start with ⟨-, fresh, file, -, comes⟩
      exact comes.lacks names (induction.append_singleton fresh)

theorem commit_error_fileNamed? {schema after : Schema} {file : SourceFile} {isRoot : Bool}
    {error : LoadError} (failed : rules.commit schema file isRoot = (.error error, after))
    (fresh : schema.fileNamed? file.name = none) : after.fileNamed? file.name = none := by
  rcases commit_cases rules schema file isRoot with ⟨next, -, result⟩ | ⟨other, -, result⟩
  · rw [result] at failed
    cases failed
  · rw [result, Schema.forget_of_fresh fresh] at failed
    cases failed
    exact fresh

/-- When the loading of a file fails, the file is not in the schema. -/
theorem Call.FailsWith.fileNamed? {call : Call} {error : LoadError} {after : Schema}
    (fails : call.FailsWith rules resolver error after) (names : resolver.NamesFiles)
    (lacks : call.schema.Lacks call.importers) : after.fileNamed? call.name = none := by
  have outcomes := (@load_induction rules resolver
    (fun importers schema name result =>
      schema.Lacks importers → result.1 ≠ .ok () → result.2.fileNamed? name = none)
    (fun _ _ _ _ _ => True) ?circular ?present ?unreadable ?importFailed ?committed
    ?finished ?failed ?loaded).1
  · exact outcomes _ _ _ _ fails lacks nofun
  case circular => exact fun importers schema name cyclic lacks _ => lacks name cyclic
  case present => exact fun importers schema name _ _ _ failed => absurd rfl failed
  case unreadable => exact fun importers schema name error _ fresh _ _ _ => fresh
  case importFailed =>
    intro importers schema name file error after cyclic fresh opened run _ lacks _
    have loads := load_steps.2 _ _ _ _ _ run fun _ => lacks.append_singleton fresh
    exact loads.lacks names name (List.mem_append_right importers (List.mem_singleton_self name))
  case committed =>
    intro importers schema name file after cyclic fresh opened run _ lacks failed
    have loads := load_steps.2 _ _ _ _ _ run fun _ => lacks.append_singleton fresh
    have awaits := loads.awaits names opened
      (List.mem_append_right importers (List.mem_singleton_self name))
    rw [← names name file opened]
    cases result : rules.commit after file false with
    | mk outcome final =>
        rw [result] at failed
        cases outcome with
        | ok _ => exact absurd rfl failed
        | error error => exact commit_error_fileNamed? result awaits.fresh
  case finished => exact fun _ _ _ => trivial
  case failed => exact fun _ _ _ _ _ _ _ _ _ => trivial
  case loaded => exact fun _ _ _ _ _ _ _ _ _ _ _ => trivial

/-! ## Files that are opened themselves -/

theorem loadRoot_of_fails {schema after : Schema} {name : String} {file : SourceFile}
    {call : Call} {error : LoadError}
    (comes : call.ComesFrom rules resolver [name] schema file)
    (fails : call.FailsWith rules resolver error after) :
    ∃ error, rules.loadRoot resolver schema name file = some (.error error, after) := by
  rcases comes.loadImports_eq fails with ⟨error, importsRun⟩
  refine ⟨error, ?_⟩
  rw [loadRoot_eq, importsRun]
  rfl

/-- A file that was opened itself is not in the schema if it fails. -/
theorem loadRoot_error_fileNamed? {schema after : Schema} {name : String} {file : SourceFile}
    {error : LoadError} (names : resolver.NamesFiles)
    (run : rules.loadRoot resolver schema name file = some (.error error, after))
    (opened : resolver.openFile name = .ok file) (fresh : schema.fileNamed? name = none) :
    after.fileNamed? name = none := by
  rw [loadRoot_eq, Option.map_eq_some_iff] at run
  rcases run with ⟨⟨outcome, middle⟩, importsRun, run⟩
  have loads := load_steps.2 _ _ _ _ _ importsRun fun _ => Schema.lacks_singleton fresh
  cases outcome with
  | error other =>
      cases run
      exact loads.lacks names name (List.mem_singleton_self name)
  | ok _ =>
      have awaits := loads.awaits names opened (List.mem_singleton_self name)
      rw [← names name file opened]
      exact commit_error_fileNamed? run awaits.fresh

end Rules

namespace Compiler

/-- While the file at a path is opened, the file with a name fails: it is the one that was
to be opened, or its loading fails in the course of the opening. -/
inductive FailsDuring (compiler : Compiler) (path : Path) : String → Prop
  | opened {name : String} {included : Bool} {error : LoadError}
      (target : compiler.target? path = some (name, included))
      (failed : (compiler.openFile path).1 = .error error) : FailsDuring compiler path name
  | imported {root : String} {included : Bool} {file : SourceFile} {first call : Rules.Call}
      {error : LoadError} {after : Schema}
      (target : compiler.target? path = some (root, included))
      (fresh : compiler.schema.fileNamed? root = none)
      (opened : compiler.resolver.openFile root = .ok file)
      (comes : first.ComesFrom compiler.rules compiler.resolver [root] compiler.schema file)
      (starts : Relation.ReflTransGen (Rules.Call.Starts compiler.rules compiler.resolver)
        first call)
      (fails : call.FailsWith compiler.rules compiler.resolver error after) :
      FailsDuring compiler path call.name

/-- A file that was not loaded before is not in the schema when it fails. -/
theorem FailsDuring.fileNamed?_eq_none {compiler : Compiler} {path : Path} {name : String}
    (fails : compiler.FailsDuring path name) (names : compiler.resolver.NamesFiles)
    (missing : compiler.schema.fileNamed? name = none) :
    (compiler.openFile path).2.schema.fileNamed? name = none := by
  have opens := compiler.opens_openFile path
  cases fails with
  | @opened _ included error target failed =>
      generalize compiler.openFile path = result at opens failed
      cases opens with
      | refused error => exact missing
      | reopened => cases failed
      | @loaded other _ file result middle sameTarget opened loads fresh run =>
          rw [target] at sameTarget
          cases sameTarget
          rcases result with ⟨outcome, after⟩
          cases failed
          exact Rules.loadRoot_error_fileNamed? names run opened missing
  | @imported root included file first call error after target fresh opened comes starts fails =>
      rcases Rules.Call.failsWith_of_starts starts fails with ⟨firstError, firstFails⟩
      rcases Rules.loadRoot_of_fails comes firstFails with ⟨rootError, rootRun⟩
      have lacks := Rules.Call.lacks_of_starts starts names
        (comes.lacks names (Schema.lacks_singleton fresh))
      generalize compiler.openFile path = result at opens
      cases opens with
      | refused error => exact missing
      | reopened sameTarget named =>
          rw [target] at sameTarget
          cases sameTarget
          rw [fresh] at named
          cases named
      | @loaded other _ otherFile result middle sameTarget otherOpened loads _ run =>
          rw [target] at sameTarget
          cases sameTarget
          rw [opened] at otherOpened
          cases otherOpened
          rw [rootRun] at run
          cases run
          exact fails.fileNamed? names lacks

end Compiler

end ProtoSchema
