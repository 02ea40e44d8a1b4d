import ProtoSchema.Proofs.Compiler.Loading
/-! # Sessions

A session is a sequence of operations on a new compiler, between which the files that
it finds may change. Opening a file ends in one of three ways, and what they do to the
schema is all that ever happens to it.
-/

namespace ProtoSchema

/-! ## Opening a file -/

namespace Compiler

/-- How opening a file can end. -/
inductive Opens (compiler : Compiler) (path : Path) : Except LoadError Unit × Compiler → Prop
  | refused (error : LoadError) : Opens compiler path (.error error, compiler)
  | reopened {name : String} {included : Bool} {id : FileId}
      (target : compiler.target? path = some (name, included))
      (named : compiler.schema.fileNamed? name = some id) :
      Opens compiler path (.ok (), { compiler with schema := compiler.schema.markRoot id })
  | loaded {name : String} {included : Bool} {file : SourceFile}
      {result : Except LoadError Unit × Schema} {middle : Schema}
      (target : compiler.target? path = some (name, included))
      (opened : compiler.resolver.openFile name = .ok file)
      (loads : Rules.LoadsRoot compiler.rules compiler.resolver compiler.schema file result
        middle)
      (fresh : compiler.schema.fileNamed? name = none)
      (run : compiler.rules.loadRoot compiler.resolver compiler.schema name file = some result) :
      Opens compiler path (result.1, { compiler with schema := result.2 })

theorem opens_reopen {compiler : Compiler} {path : Path} {name : String} {included : Bool}
    {id : FileId} (target : compiler.target? path = some (name, included))
    (named : compiler.schema.fileNamed? name = some id) :
    Opens compiler path (compiler.reopen id name included path) := by
  simp only [reopen]
  split
  · exact .refused _
  · exact .reopened target named

theorem opens_openNew {compiler : Compiler} {path : Path} {name : String} {included : Bool}
    (target : compiler.target? path = some (name, included))
    (fresh : compiler.schema.fileNamed? name = none) :
    Opens compiler path (compiler.openNew name included path) := by
  rw [openNew]
  cases opened : compiler.resolver.openFile name with
  | error error => exact .refused _
  | ok file =>
      dsimp only
      split
      · exact .refused _
      split
      · next result schema run =>
          rcases Rules.loadRoot_eq_some run opened fresh with ⟨middle, loads⟩
          exact .loaded target opened loads fresh run
      · exact .refused _

theorem opens_openFile (compiler : Compiler) (path : Path) :
    Opens compiler path (compiler.openFile path) := by
  rw [openFile]
  cases target : compiler.target? path with
  | none => exact .refused _
  | some found =>
      rcases found with ⟨name, included⟩
      dsimp only
      cases named : compiler.schema.fileNamed? name with
      | some id => exact opens_reopen target named
      | none => exact opens_openNew target named

/-- Why opening a file can fail, and which schema is left then. -/
inductive Fails (compiler : Compiler) (path : Path) : LoadError → Schema → Prop
  | notIncluded : Fails compiler path (.notIncluded path) compiler.schema
  | shadowed (name : String) (found shadow : Path) :
      Fails compiler path (.shadowed name found shadow) compiler.schema
  | unreadable {name : String} {included : Bool} {error : LoadError}
      (target : compiler.target? path = some (name, included))
      (opened : compiler.resolver.openFile name = .error error) :
      Fails compiler path error compiler.schema
  | endless {name : String} {file : SourceFile}
      (run : compiler.rules.loadRoot compiler.resolver compiler.schema name file = none) :
      Fails compiler path (.importsTooDeep name) compiler.schema
  | loading {name : String} {included : Bool} {file : SourceFile} {error : LoadError}
      {after : Schema} (target : compiler.target? path = some (name, included))
      (opened : compiler.resolver.openFile name = .ok file)
      (fresh : compiler.schema.fileNamed? name = none)
      (run : compiler.rules.loadRoot compiler.resolver compiler.schema name file =
        some (.error error, after)) :
      Fails compiler path error after

theorem exists_of_checkShadow_eq_error {name : String} {found : Option Path} {path : Path}
    {error : LoadError} (failed : checkShadow name found path = .error error) :
    ∃ other, error = .shadowed name path other := by
  cases found with
  | none => cases failed
  | some other =>
      change (if other.isSame path then Except.ok () else _) = _ at failed
      split at failed
      · cases failed
      · cases failed
        exact ⟨other, rfl⟩

theorem fails_openNew {compiler : Compiler} {path : Path} {name : String} {included : Bool}
    (target : compiler.target? path = some (name, included))
    (fresh : compiler.schema.fileNamed? name = none) {error : LoadError}
    (failed : (compiler.openNew name included path).1 = .error error) :
    compiler.Fails path error (compiler.openNew name included path).2.schema := by
  rw [openNew] at failed ⊢
  cases opened : compiler.resolver.openFile name with
  | error fault =>
      simp only [opened] at failed ⊢
      cases failed
      split
      · exact .notIncluded
      · exact .unreadable target opened
  | ok file =>
      simp only [opened] at failed ⊢
      cases shadow : checkShadow name (if included then file.path else none) path with
      | error fault =>
          simp only [shadow] at failed ⊢
          cases failed
          rcases exists_of_checkShadow_eq_error shadow with ⟨other, rfl⟩
          exact .shadowed name path other
      | ok _ =>
          simp only [shadow] at failed ⊢
          cases run : compiler.rules.loadRoot compiler.resolver compiler.schema name file with
          | none =>
              simp only [run] at failed ⊢
              cases failed
              exact .endless run
          | some result =>
              rcases result with ⟨outcome, after⟩
              simp only [run] at failed ⊢
              cases failed
              exact .loading target opened fresh run

theorem fails_openFile {compiler : Compiler} {path : Path} {error : LoadError}
    (failed : (compiler.openFile path).1 = .error error) :
    compiler.Fails path error (compiler.openFile path).2.schema := by
  rw [openFile] at failed ⊢
  cases target : compiler.target? path with
  | none =>
      simp only [target] at failed ⊢
      cases failed
      exact .notIncluded
  | some found =>
      rcases found with ⟨name, included⟩
      simp only [target] at failed ⊢
      cases known : compiler.schema.fileNamed? name with
      | none =>
          simp only [known] at failed ⊢
          exact fails_openNew target known failed
      | some id =>
          simp only [known, reopen] at failed ⊢
          split at failed
          · next fault shadow =>
              cases failed
              rcases exists_of_checkShadow_eq_error shadow with ⟨other, rfl⟩
              exact .shadowed name path other
          · cases failed

/-- Opening a file changes the schema only. -/
theorem openFile_eq (compiler : Compiler) (path : Path) :
    (compiler.openFile path).2 =
      { compiler with schema := (compiler.openFile path).2.schema } := by
  have opens := opens_openFile compiler path
  generalize compiler.openFile path = result at opens
  cases opens <;> rfl

end Compiler

/-! ## Operations -/

/-- What can happen to a compiler. -/
inductive Operation
  | openFile (path : Path)
  | openFiles (paths : List Path)
  | includeImports (included : Bool)
  | strictNames (strict : Bool)
  | addValidator (validator : Validator)
  | changeFiles (resolver : Resolver)

/-- After the operation the files are found by an allowed resolver, if they were. -/
def Operation.Respects (Allowed : Resolver → Prop) : Operation → Prop
  | .changeFiles resolver => Allowed resolver
  | _ => True

/-- A compiler, and the names of the files that were opened with success. -/
structure Session where
  compiler : Compiler
  opened : List String := []

namespace Session

/-- Opens a file, and notes its name in case of success. -/
def openFile (session : Session) (path : Path) : Session :=
  let (result, compiler) := session.compiler.openFile path
  let names := match result with
    | .ok () => ((session.compiler.target? path).map (·.1)).toList
    | .error _ => []
  { compiler, opened := session.opened ++ names }

/-- Opens several files, up to the first one that fails. -/
def openFiles (session : Session) : List Path → Session
  | [] => session
  | path :: paths =>
      match (session.compiler.openFile path).1 with
      | .ok () => (session.openFile path).openFiles paths
      | .error _ => session.openFile path

/-- The session after one more operation. -/
def apply (session : Session) : Operation → Session
  | .openFile path => session.openFile path
  | .openFiles paths => session.openFiles paths
  | .includeImports included =>
      { session with compiler := { session.compiler with includeImports := included } }
  | .strictNames strict =>
      { session with compiler := session.compiler.setStrictNames strict }
  | .addValidator validator =>
      { session with compiler := session.compiler.addValidator validator }
  | .changeFiles resolver => { session with compiler := { session.compiler with resolver } }

/-- The session that operations on a new compiler lead to. -/
def run (resolver : Resolver) (operations : List Operation) : Session :=
  operations.foldl apply { compiler := { resolver } }

/-- The compiler of a session is the one that opened the files. -/
theorem compiler_openFiles (session : Session) (paths : List Path) :
    (session.openFiles paths).compiler = (session.compiler.openFiles paths).2 := by
  induction paths generalizing session with
  | nil => rfl
  | cons path paths induction =>
      rw [openFiles, Compiler.openFiles]
      have first : (session.openFile path).compiler = (session.compiler.openFile path).2 := rfl
      cases result : session.compiler.openFile path with
      | mk outcome next =>
          rw [result] at first
          cases outcome with
          | ok _ =>
              dsimp only
              rw [induction, first]
          | error error => exact first

@[simp] theorem resolver_openFile (session : Session) (path : Path) :
    (session.openFile path).compiler.resolver = session.compiler.resolver := by
  have kept := congrArg Compiler.resolver (session.compiler.openFile_eq path)
  exact kept

/-! ## Invariants -/

theorem openFiles_induction {Holds : Session → Prop}
    (opening : ∀ (session : Session) path, Holds session → Holds (session.openFile path))
    {session : Session} (holds : Holds session) (paths : List Path) :
    Holds (session.openFiles paths) := by
  induction paths generalizing session with
  | nil => exact holds
  | cons path paths induction =>
      have next := opening session path holds
      rw [openFiles]
      split
      · exact induction next
      · exact next

theorem apply_induction {Allowed : Resolver → Prop} {Holds : Session → Prop}
    (opening : ∀ (session : Session) path, Holds session → Holds (session.openFile path))
    (setting : ∀ (session : Session) rules includeImports, Holds session →
      Holds { session with compiler := { session.compiler with rules, includeImports } })
    (changing : ∀ (session : Session) resolver, Allowed resolver → Holds session →
      Holds { session with compiler := { session.compiler with resolver } })
    {session : Session} (holds : Holds session) {operation : Operation}
    (respects : operation.Respects Allowed) : Holds (session.apply operation) := by
  cases operation with
  | openFile path => exact opening session path holds
  | openFiles paths => exact openFiles_induction opening holds paths
  | includeImports included => exact setting session session.compiler.rules included holds
  | strictNames strict =>
      exact setting session { session.compiler.rules with strictNames := strict } _ holds
  | addValidator validator =>
      exact setting session
        { session.compiler.rules with
          validators := session.compiler.rules.validators ++ [validator] } _ holds
  | changeFiles resolver => exact changing session resolver respects holds

/-- What opening a file preserves, whatever the rules are, holds after all
operations. -/
theorem run_induction {Allowed : Resolver → Prop} {Holds : Schema → List String → Prop}
    (start : Holds {} [])
    (opening : ∀ (session : Session) path, Allowed session.compiler.resolver →
      Holds session.compiler.schema session.opened →
      Holds (session.openFile path).compiler.schema (session.openFile path).opened)
    {resolver : Resolver} (allowed : Allowed resolver) {operations : List Operation}
    (respect : ∀ operation ∈ operations, operation.Respects Allowed) :
    Holds (run resolver operations).compiler.schema (run resolver operations).opened := by
  have all : ∀ session : Session,
      Allowed session.compiler.resolver ∧ Holds session.compiler.schema session.opened →
      Allowed (operations.foldl apply session).compiler.resolver ∧
        Holds (operations.foldl apply session).compiler.schema
          (operations.foldl apply session).opened := by
    induction operations with
    | nil => exact fun _ holds => holds
    | cons operation operations induction =>
        intro session holds
        apply induction fun other member => respect other (List.mem_cons_of_mem operation member)
        refine @apply_induction Allowed
          (fun session => Allowed session.compiler.resolver ∧
            Holds session.compiler.schema session.opened)
          ?_ (fun _ _ _ holds => holds) (fun _ _ found holds => ⟨found, holds.2⟩)
          session holds operation (respect operation List.mem_cons_self)
        rintro session path ⟨found, holds⟩
        refine ⟨?_, opening session path found holds⟩
        rw [resolver_openFile]
        exact found
  exact (all { compiler := { resolver } } ⟨allowed, start⟩).2

/-- What opening a file preserves with any resolver holds after all operations. -/
theorem run_induction_of_all {Holds : Schema → Prop} (start : Holds {})
    (opening : ∀ (compiler : Compiler) path, Holds compiler.schema →
      Holds (compiler.openFile path).2.schema)
    (resolver : Resolver) (operations : List Operation) :
    Holds (run resolver operations).compiler.schema := by
  refine @run_induction (fun _ => True) (fun schema _ => Holds schema) start ?_ resolver trivial
    operations ?_
  · intro session path _ holds
    exact opening session.compiler path holds
  · intro operation _
    cases operation <;> trivial

end Session

/-! ## Invariants of the files -/

/-- Whatever compilers with certain rules do to a schema preserves a property. -/
structure Rules.Preserve (rules : Rules) (Holds : Schema → Prop) : Prop where
  added : ∀ {schema next : Schema} {file : SourceFile} {isRoot : Bool}, Holds schema →
    rules.add schema file isRoot = .ok next → Holds next
  marked : ∀ {schema : Schema} (root : FileId), Holds schema → Holds (schema.markRoot root)
  forgotten : ∀ {schema : Schema} (name : String), Holds schema → Holds (schema.forget name)

namespace Rules.Preserve

variable {rules : Rules} {Holds : Schema → Prop} {resolver : Resolver} {schema : Schema}

theorem step {isRoot : Bool} {next : Schema} (preserve : rules.Preserve Holds)
    (holds : Holds schema) (step : Step rules resolver isRoot schema next) : Holds next := by
  cases step with
  | added adds => exact preserve.added holds adds.added
  | withdrawn _ _ => exact preserve.forgotten _ holds

theorem steps {after : Schema} (preserve : rules.Preserve Holds) (holds : Holds schema)
    (steps : Steps rules resolver schema after) : Holds after := by
  induction steps with
  | refl => exact holds
  | tail _ step induction => exact preserve.step induction step

theorem commit (preserve : rules.Preserve Holds) (holds : Holds schema) (file : SourceFile)
    (isRoot : Bool) : Holds (rules.commit schema file isRoot).2 := by
  rcases commit_cases rules schema file isRoot with ⟨next, added, result⟩ | ⟨error, -, result⟩
  · rw [result]
    exact preserve.added holds added
  · rw [result]
    exact preserve.forgotten file.name holds

theorem openFile {compiler : Compiler} (preserve : compiler.rules.Preserve Holds)
    (holds : Holds compiler.schema) (path : Path) :
    Holds (compiler.openFile path).2.schema := by
  have opens := compiler.opens_openFile path
  generalize compiler.openFile path = result at opens
  cases opens with
  | refused error => exact holds
  | reopened target named => exact preserve.marked _ holds
  | @loaded name _ file _ middle _ opened loads =>
      have before := preserve.steps holds loads.steps
      rcases loads.outcome with ⟨error, rfl⟩ | ⟨rfl, -⟩
      · exact before
      · exact preserve.commit before file true

end Rules.Preserve

/-- The rules after an operation. -/
def Operation.rules (rules : Rules) : Operation → Rules
  | .strictNames strict => { rules with strictNames := strict }
  | .addValidator validator => { rules with validators := rules.validators ++ [validator] }
  | _ => rules

namespace Session

theorem rules_openFile (session : Session) (path : Path) :
    (session.openFile path).compiler.rules = session.compiler.rules := by
  have kept := congrArg Compiler.rules (session.compiler.openFile_eq path)
  exact kept

/-- If an operation keeps to good rules, and these preserve a property of the files, the
operation preserves it. -/
theorem apply_preserves {Good : Rules → Prop} {Holds : Schema → Prop}
    (preserve : ∀ rules, Good rules → rules.Preserve Holds) {operation : Operation}
    (keeps : ∀ rules, Good rules → Good (operation.rules rules)) {session : Session}
    (holds : Good session.compiler.rules ∧ Holds session.compiler.schema) :
    Good (session.apply operation).compiler.rules ∧
      Holds (session.apply operation).compiler.schema := by
  have opening : ∀ (session : Session) path,
      Good session.compiler.rules ∧ Holds session.compiler.schema →
      Good (session.openFile path).compiler.rules ∧
        Holds (session.openFile path).compiler.schema := by
    intro session path holds
    rw [rules_openFile]
    exact ⟨holds.1, (preserve _ holds.1).openFile holds.2 path⟩
  cases operation with
  | openFile path => exact opening session path holds
  | openFiles paths =>
      have all := @openFiles_induction
        (fun session => Good session.compiler.rules ∧ Holds session.compiler.schema)
        opening session holds paths
      exact all
  | includeImports included => exact holds
  | strictNames strict => exact ⟨keeps _ holds.1, holds.2⟩
  | addValidator validator => exact ⟨keeps _ holds.1, holds.2⟩
  | changeFiles resolver => exact holds

/-- What good rules preserve holds after all operations that keep to them. -/
theorem foldl_preserves {Good : Rules → Prop} {Holds : Schema → Prop}
    (preserve : ∀ rules, Good rules → rules.Preserve Holds) {operations : List Operation}
    (keeps : ∀ operation ∈ operations, ∀ rules, Good rules → Good (operation.rules rules))
    {session : Session} (good : Good session.compiler.rules)
    (holds : Holds session.compiler.schema) :
    Holds (operations.foldl apply session).compiler.schema := by
  induction operations generalizing session with
  | nil => exact holds
  | cons operation operations induction =>
      have next := apply_preserves preserve (keeps operation List.mem_cons_self) ⟨good, holds⟩
      apply induction _ next.1 next.2
      intro other member
      exact keeps other (List.mem_cons_of_mem operation member)

/-- What all compilers with one of the default validators preserve holds after all
operations, since validators are only added. -/
theorem run_preserves {validator : Validator} {Holds : Schema → Prop}
    (default : validator ∈ ({} : Rules).validators)
    (preserve : ∀ rules : Rules, validator ∈ rules.validators → rules.Preserve Holds)
    (empty : Holds {}) (resolver : Resolver) (operations : List Operation) :
    Holds (run resolver operations).compiler.schema := by
  refine foldl_preserves preserve ?_ default empty
  intro operation _ rules validates
  cases operation with
  | addValidator validator => exact List.mem_append_left _ validates
  | _ => exact validates

end Session

end ProtoSchema
