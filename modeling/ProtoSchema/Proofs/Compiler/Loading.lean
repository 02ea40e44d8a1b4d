import Mathlib.Logic.Relation
import ProtoSchema.Proofs.Compiler.Addition
import ProtoSchema.Proofs.Resolver
/-! # Loading files with their imports

The rules of loading as a principle of induction, and what a loading does to the
schema: it adds files one by one, each after its imports, and none that is still on the
way. A file that fails leaves the schema as it was.
-/

namespace ProtoSchema

/-! ## Files that are still missing -/

namespace Schema

/-- No file on the way is in the schema. -/
def Lacks (schema : Schema) (names : List String) : Prop :=
  ∀ name ∈ names, schema.fileNamed? name = none

theorem Lacks.append_singleton {schema : Schema} {names : List String} {name : String}
    (lacks : schema.Lacks names) (fresh : schema.fileNamed? name = none) :
    schema.Lacks (names ++ [name]) := by
  intro other member
  rcases List.mem_append.mp member with member | member
  · exact lacks other member
  · rw [List.mem_singleton.mp member]
    exact fresh

theorem lacks_singleton {schema : Schema} {name : String}
    (fresh : schema.fileNamed? name = none) : schema.Lacks [name] := by
  intro other member
  rw [List.mem_singleton.mp member]
  exact fresh

/-- A schema is ready for a file: it has the imports of the file, but not the file. -/
structure Awaits (resolver : Resolver) (schema : Schema) (file : SourceFile) : Prop where
  opened : resolver.openFile file.name = .ok file
  fresh : schema.fileNamed? file.name = none
  imported : ∀ statement ∈ file.tree.imports, (schema.fileNamed? statement.file).isSome

end Schema

namespace Rules

/-! ## Induction -/

/-- What holds in each case of loading a file and of loading imports, as far as it
holds of the loadings inside, holds of every loading that has an outcome. -/
theorem load_induction (rules : Rules) (resolver : Resolver)
    {OnFile : List String → Schema → String → Except LoadError Unit × Schema → Prop}
    {OnImports : List String → SourceFile → List Syntax.Import → Schema →
      Except LoadError Unit × Schema → Prop}
    (circular : ∀ importers schema name, name ∈ importers →
      OnFile importers schema name
        (.error (.circularImport name (importers ++ [name])), schema))
    (present : ∀ importers schema name, name ∉ importers → (schema.fileNamed? name).isSome →
      OnFile importers schema name (.ok (), schema))
    (unreadable : ∀ importers schema name error, name ∉ importers →
      schema.fileNamed? name = none → resolver.openFile name = .error error →
      OnFile importers schema name (.error error, schema))
    (importFailed : ∀ importers schema name file error after, name ∉ importers →
      schema.fileNamed? name = none → resolver.openFile name = .ok file →
      rules.loadImports resolver (importers ++ [name]) file file.tree.imports schema =
        some (.error error, after) →
      OnImports (importers ++ [name]) file file.tree.imports schema (.error error, after) →
      OnFile importers schema name (.error error, after))
    (committed : ∀ importers schema name file after, name ∉ importers →
      schema.fileNamed? name = none → resolver.openFile name = .ok file →
      rules.loadImports resolver (importers ++ [name]) file file.tree.imports schema =
        some (.ok (), after) →
      OnImports (importers ++ [name]) file file.tree.imports schema (.ok (), after) →
      OnFile importers schema name (rules.commit after file false))
    (finished : ∀ importers file schema, OnImports importers file [] schema (.ok (), schema))
    (failed : ∀ importers file statement statements schema error after,
      rules.load resolver importers schema statement.file = some (.error error, after) →
      OnFile importers schema statement.file (.error error, after) →
      OnImports importers file (statement :: statements) schema
        (.error (error.ofImport file.name file.source statement.fileSpan), after))
    (loaded : ∀ importers file statement statements schema middle result,
      rules.load resolver importers schema statement.file = some (.ok (), middle) →
      rules.loadImports resolver importers file statements middle = some result →
      OnFile importers schema statement.file (.ok (), middle) →
      OnImports importers file statements middle result →
      OnImports importers file (statement :: statements) schema result) :
    (∀ importers schema name result, rules.load resolver importers schema name = some result →
      OnFile importers schema name result) ∧
      ∀ importers file statements schema result,
        rules.loadImports resolver importers file statements schema = some result →
        OnImports importers file statements schema result := by
  -- The induction speaks of approximations; that they agree with the loadings
  -- themselves is carried along.
  have both := load.mutual_partial_correctness rules resolver
    (fun importers schema name result =>
      rules.load resolver importers schema name = some result ∧
        OnFile importers schema name result)
    (fun importers file statements schema result =>
      rules.loadImports resolver importers file statements schema = some result ∧
        OnImports importers file statements schema result)
    ?file ?imports
  · exact ⟨fun importers schema name result run => (both.1 importers schema name result run).2,
      fun importers file statements schema result run =>
        (both.2 importers file statements schema result run).2⟩
  case file =>
    intro approximation inside importers schema name result run
    rw [load]
    by_cases cyclic : name ∈ importers
    · rw [if_pos cyclic] at run ⊢
      cases run
      exact ⟨rfl, circular importers schema name cyclic⟩
    rw [if_neg cyclic] at run ⊢
    by_cases known : (schema.fileNamed? name).isSome
    · rw [if_pos known] at run ⊢
      cases run
      exact ⟨rfl, present importers schema name cyclic known⟩
    rw [if_neg known] at run ⊢
    have fresh : schema.fileNamed? name = none := by simpa using known
    cases opened : resolver.openFile name with
    | error error =>
        rw [opened] at run
        cases run
        exact ⟨rfl, unreadable importers schema name error cyclic fresh opened⟩
    | ok file =>
        rw [opened] at run
        simp only [Option.bind_eq_bind, Option.bind_eq_some_iff] at run ⊢
        rcases run with ⟨⟨outcome, after⟩, importsRun, run⟩
        rcases inside _ _ _ _ _ importsRun with ⟨importsRun, holds⟩
        cases outcome with
        | error error =>
            cases run
            exact ⟨⟨_, importsRun, rfl⟩,
              importFailed importers schema name file error after cyclic fresh opened
                importsRun holds⟩
        | ok _ =>
            cases run
            exact ⟨⟨_, importsRun, rfl⟩,
              committed importers schema name file after cyclic fresh opened importsRun holds⟩
  case imports =>
    intro fileApproximation importsApproximation onFile onImports importers file statements
      schema result run
    rw [loadImports.eq_def]
    cases statements with
    | nil =>
        cases run
        exact ⟨rfl, finished importers file schema⟩
    | cons statement statements =>
        simp only [Option.bind_eq_bind, Option.bind_eq_some_iff] at run ⊢
        rcases run with ⟨⟨outcome, middle⟩, firstRun, run⟩
        rcases onFile _ _ _ _ firstRun with ⟨firstRun, first⟩
        cases outcome with
        | error error =>
            cases run
            exact ⟨⟨_, firstRun, rfl⟩,
              failed importers file statement statements schema error middle firstRun first⟩
        | ok _ =>
            rcases onImports _ _ _ _ _ run with ⟨restRun, rest⟩
            exact ⟨⟨_, firstRun, restRun⟩,
              loaded importers file statement statements schema middle result firstRun restRun
                first rest⟩

/-! ## The cases of a loading -/

section Cases

variable {rules : Rules} {resolver : Resolver} {importers : List String} {schema : Schema}

theorem load_of_cyclic {name : String} (cyclic : name ∈ importers) :
    rules.load resolver importers schema name =
      some (.error (.circularImport name (importers ++ [name])), schema) := by
  rw [load, if_pos cyclic]

theorem load_of_present {name : String} (noCycle : name ∉ importers)
    (found : (schema.fileNamed? name).isSome) :
    rules.load resolver importers schema name = some (.ok (), schema) := by
  rw [load, if_neg noCycle, if_pos found]

theorem load_of_unreadable {name : String} {error : LoadError} (noCycle : name ∉ importers)
    (fresh : schema.fileNamed? name = none) (opened : resolver.openFile name = .error error) :
    rules.load resolver importers schema name = some (.error error, schema) := by
  rw [load, if_neg noCycle, if_neg (by rw [fresh]; exact Bool.false_ne_true), opened]

/-- What the loading of a file comes to once its imports are loaded. -/
def afterImports (rules : Rules) (file : SourceFile) (isRoot : Bool) :
    Except LoadError Unit × Schema → Except LoadError Unit × Schema
  | (.error error, schema) => (.error error, schema)
  | (.ok (), schema) => rules.commit schema file isRoot

theorem load_of_fresh {name : String} {file : SourceFile} (noCycle : name ∉ importers)
    (fresh : schema.fileNamed? name = none) (opened : resolver.openFile name = .ok file) :
    rules.load resolver importers schema name =
      (rules.loadImports resolver (importers ++ [name]) file file.tree.imports schema).map
        (rules.afterImports file false) := by
  rw [load, if_neg noCycle, if_neg (by rw [fresh]; exact Bool.false_ne_true), opened]
  cases imports : rules.loadImports resolver (importers ++ [name]) file file.tree.imports
      schema with
  | none => simp [imports]
  | some result =>
      rcases result with ⟨error | _, after⟩ <;> simp [imports, afterImports]

theorem loadRoot_eq (rules : Rules) (resolver : Resolver) (schema : Schema) (name : String)
    (file : SourceFile) :
    rules.loadRoot resolver schema name file =
      (rules.loadImports resolver [name] file file.tree.imports schema).map
        (rules.afterImports file true) := by
  rw [loadRoot]
  cases imports : rules.loadImports resolver [name] file file.tree.imports schema with
  | none => rfl
  | some result => rcases result with ⟨error | _, after⟩ <;> rfl

theorem loadImports_nil (file : SourceFile) :
    rules.loadImports resolver importers file [] schema = some (.ok (), schema) := by
  rw [loadImports]

theorem loadImports_of_error {file : SourceFile} {statement : Syntax.Import}
    (statements : List Syntax.Import) {error : LoadError} {middle : Schema}
    (run : rules.load resolver importers schema statement.file = some (.error error, middle)) :
    rules.loadImports resolver importers file (statement :: statements) schema =
      some (.error (error.ofImport file.name file.source statement.fileSpan), middle) := by
  rw [loadImports, run]
  rfl

theorem loadImports_of_ok {file : SourceFile} {statement : Syntax.Import}
    {statements : List Syntax.Import} {middle : Schema}
    (run : rules.load resolver importers schema statement.file = some (.ok (), middle)) :
    rules.loadImports resolver importers file (statement :: statements) schema =
      rules.loadImports resolver importers file statements middle := by
  rw [loadImports, run]
  rfl

end Cases

/-! ## Steps of loading -/

/-- A file whose imports are in the schema is added to it. -/
structure Adds (rules : Rules) (resolver : Resolver) (isRoot : Bool) (schema : Schema)
    (file : SourceFile) (next : Schema) : Prop where
  opened : ∃ name, resolver.openFile name = .ok file
  awaits : resolver.NamesFiles → schema.Awaits resolver file
  added : rules.add schema file isRoot = .ok next

/-- The ways in which loading changes a schema: a file is added, or a file that failed is
taken out again. -/
inductive Step (rules : Rules) (resolver : Resolver) (isRoot : Bool) :
    Schema → Schema → Prop
  | added {schema next : Schema} {file : SourceFile}
      (adds : Adds rules resolver isRoot schema file next) :
      Step rules resolver isRoot schema next
  | withdrawn {schema : Schema} {file : SourceFile} {error : LoadError}
      (failed : rules.add schema file isRoot = .error error)
      (fresh : resolver.NamesFiles → schema.fileNamed? file.name = none) :
      Step rules resolver isRoot schema (schema.forget file.name)

/-- The steps that load imports. -/
abbrev Steps (rules : Rules) (resolver : Resolver) : Schema → Schema → Prop :=
  Relation.ReflTransGen (Step rules resolver false)

variable {rules : Rules} {resolver : Resolver} {isRoot : Bool}

theorem Adds.fileNamed?_of_some {schema next : Schema} {file : SourceFile}
    (adds : Adds rules resolver isRoot schema file next) (names : resolver.NamesFiles)
    {name : String} {id : FileId} (named : schema.fileNamed? name = some id) :
    next.fileNamed? name = some id := by
  rcases exists_of_add_eq_ok adds.added with ⟨loaded, linked, -, rfl⟩
  apply Schema.fileNamed?_push_of_some _ named
  rw [linked.name_eq]
  exact (adds.awaits names).fresh

theorem Step.fileNamed?_of_some {schema next : Schema}
    (step : Step rules resolver isRoot schema next) (names : resolver.NamesFiles)
    {name : String} {id : FileId} (named : schema.fileNamed? name = some id) :
    next.fileNamed? name = some id := by
  cases step with
  | added adds => exact adds.fileNamed?_of_some names named
  | withdrawn failed fresh =>
      rw [Schema.forget_of_fresh (fresh names)]
      exact named

/-- A name that was found once is found in the same place from then on. -/
theorem Steps.fileNamed?_of_some {schema after : Schema}
    (steps : Steps rules resolver schema after) (names : resolver.NamesFiles)
    {name : String} {id : FileId} (named : schema.fileNamed? name = some id) :
    after.fileNamed? name = some id := by
  induction steps with
  | refl => exact named
  | tail _ step induction => exact step.fileNamed?_of_some names induction

/-! ## Loading as a sequence of steps -/

/-- What loading the files of some names guarantees, if `importers` are on the way. -/
structure Loads (rules : Rules) (resolver : Resolver) (importers wanted : List String)
    (schema : Schema) (result : Except LoadError Unit × Schema) : Prop where
  steps : Steps rules resolver schema result.2
  lacks : resolver.NamesFiles → result.2.Lacks importers
  present : resolver.NamesFiles → result.1 = .ok () →
    ∀ name ∈ wanted, (result.2.fileNamed? name).isSome

/-- When its imports have been loaded, the schema is ready for a file. -/
theorem Loads.awaits {importers : List String} {schema after : Schema} {name : String}
    {file : SourceFile}
    (loads : Loads rules resolver importers (file.tree.imports.map Syntax.Import.file) schema
      (.ok (), after)) (names : resolver.NamesFiles) (opened : resolver.openFile name = .ok file)
    (onWay : name ∈ importers) : after.Awaits resolver file := by
  have named := names name file opened
  exact
    { opened := by rw [named]; exact opened
      fresh := by
        rw [named]
        exact loads.lacks names name onWay
      imported := fun statement member =>
        loads.present names rfl statement.file (List.mem_map_of_mem member) }

/-- Adding a file after its imports. -/
theorem commit_step {schema : Schema} {file : SourceFile}
    (opened : ∃ name, resolver.openFile name = .ok file)
    (awaits : resolver.NamesFiles → schema.Awaits resolver file) :
    Step rules resolver isRoot schema (rules.commit schema file isRoot).2 := by
  rcases commit_cases rules schema file isRoot with
    ⟨next, added, result⟩ | ⟨error, failed, result⟩
  · rw [result]
    exact .added ⟨opened, awaits, added⟩
  · rw [result]
    exact .withdrawn failed fun names => (awaits names).fresh

theorem commit_fileNamed?_of_ne {schema : Schema} {file : SourceFile} {name : String}
    (fresh : schema.fileNamed? file.name = none) (different : name ≠ file.name) :
    (rules.commit schema file isRoot).2.fileNamed? name = schema.fileNamed? name := by
  rcases commit_cases rules schema file isRoot with ⟨next, added, result⟩ | ⟨error, -, result⟩
  · rcases exists_of_add_eq_ok added with ⟨loaded, linked, -, rfl⟩
    rw [result, Schema.fileNamed?_push, if_neg]
    rw [linked.name_eq]
    exact different
  · rw [result, Schema.forget_of_fresh fresh]

theorem commit_fileNamed?_self {schema : Schema} {file : SourceFile}
    (succeeded : (rules.commit schema file isRoot).1 = .ok ()) :
    (rules.commit schema file isRoot).2.fileNamed? file.name = some schema.files.size := by
  rcases commit_cases rules schema file isRoot with ⟨next, added, result⟩ | ⟨error, -, result⟩
  · rcases exists_of_add_eq_ok added with ⟨loaded, linked, -, rfl⟩
    rw [result, ← linked.name_eq]
    exact Schema.fileNamed?_push_self schema loaded
  · rw [result] at succeeded
    cases succeeded

/-- If the files on the way are not in the schema, loading takes steps, after which they
still are not there. -/
theorem load_steps :
    (∀ importers schema name result, rules.load resolver importers schema name = some result →
      (resolver.NamesFiles → schema.Lacks importers) →
      Loads rules resolver importers [name] schema result) ∧
    ∀ importers file statements schema result,
      rules.loadImports resolver importers file statements schema = some result →
      (resolver.NamesFiles → schema.Lacks importers) →
      Loads rules resolver importers (statements.map Syntax.Import.file) schema result := by
  apply load_induction rules resolver
  case circular =>
    intro importers schema name cyclic lacks
    exact { steps := .refl, lacks, present := fun _ failed => by cases failed }
  case present =>
    intro importers schema name cyclic known lacks
    exact { steps := .refl, lacks, present := fun _ _ => by simpa using known }
  case unreadable =>
    intro importers schema name error cyclic fresh opened lacks
    exact { steps := .refl, lacks, present := fun _ failed => by cases failed }
  case importFailed =>
    intro importers schema name file error after cyclic fresh opened run induction lacks
    have loads := induction fun names => (lacks names).append_singleton fresh
    exact
      { steps := loads.steps
        lacks := fun names importer member =>
          loads.lacks names importer (List.mem_append_left [name] member)
        present := fun _ failed => by cases failed }
  case committed =>
    intro importers schema name file after cyclic fresh opened run induction lacks
    have loads := induction fun names => (lacks names).append_singleton fresh
    have awaits : resolver.NamesFiles → after.Awaits resolver file := fun names =>
      loads.awaits names opened (List.mem_append_right importers (List.mem_singleton_self name))
    exact
      { steps := .tail loads.steps (commit_step ⟨name, opened⟩ awaits)
        lacks := fun names importer member => by
          have different : importer ≠ file.name := by
            rw [names name file opened]
            intro equal
            exact cyclic (equal ▸ member)
          rw [commit_fileNamed?_of_ne (awaits names).fresh different]
          exact loads.lacks names importer (List.mem_append_left [name] member)
        present := fun names succeeded wanted member => by
          rw [List.mem_singleton.mp member, ← names name file opened,
            commit_fileNamed?_self succeeded, Option.isSome_some] }
  case finished =>
    intro importers file schema lacks
    exact { steps := .refl, lacks, present := fun _ _ name member => by cases member }
  case failed =>
    intro importers file statement statements schema error after run induction lacks
    have loads := induction lacks
    exact
      { steps := loads.steps
        lacks := loads.lacks
        present := fun _ failed => by cases failed }
  case loaded =>
    intro importers file statement statements schema middle result run restRun first rest lacks
    have firstLoads := first lacks
    have restLoads := rest firstLoads.lacks
    exact
      { steps := firstLoads.steps.trans restLoads.steps
        lacks := restLoads.lacks
        present := fun names succeeded wanted member => by
          rcases List.mem_cons.mp member with equal | member
          · have found := firstLoads.present names rfl wanted (by simp [equal])
            rcases Option.isSome_iff_exists.mp found with ⟨id, named⟩
            rw [restLoads.steps.fileNamed?_of_some names named, Option.isSome_some]
          · exact restLoads.present names succeeded wanted member }

/-! ## Files that are opened themselves -/

/-- What happens to the schema when a file that is not in it yet is opened. -/
structure LoadsRoot (rules : Rules) (resolver : Resolver) (schema : Schema)
    (file : SourceFile) (result : Except LoadError Unit × Schema) (middle : Schema) :
    Prop where
  steps : Steps rules resolver schema middle
  outcome : (∃ error, result = (.error error, middle)) ∨
    result = rules.commit middle file true ∧
      (resolver.NamesFiles → middle.Awaits resolver file)

theorem loadRoot_eq_some {schema : Schema} {name : String} {file : SourceFile}
    {result : Except LoadError Unit × Schema}
    (run : rules.loadRoot resolver schema name file = some result)
    (opened : resolver.openFile name = .ok file) (fresh : schema.fileNamed? name = none) :
    ∃ middle, LoadsRoot rules resolver schema file result middle := by
  rw [loadRoot_eq, Option.map_eq_some_iff] at run
  rcases run with ⟨⟨outcome, middle⟩, importsRun, rfl⟩
  have loads := load_steps.2 _ _ _ _ _ importsRun fun _ => Schema.lacks_singleton fresh
  cases outcome with
  | error error => exact ⟨middle, loads.steps, .inl ⟨error, rfl⟩⟩
  | ok _ =>
      refine ⟨middle, loads.steps, .inr ⟨rfl, fun names => ?_⟩⟩
      exact loads.awaits names opened (List.mem_singleton_self name)

end Rules

end ProtoSchema
