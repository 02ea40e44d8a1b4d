import ProtoSchema.Proofs.Compiler.Loading
/-! # Loading by computation

Loading has no bound that its definition could follow. With a bound on how far imports may
lead from file to file it can be computed, and what the computation finds is true of the
loading itself.
-/

namespace ProtoSchema

namespace Rules

variable {rules : Rules} {resolver : Resolver}

/-! ## Loading to a certain depth -/

/-- Loads the imports of a file in order, given how each of them is loaded. -/
def importsWithin (loadOne : Schema → String → Loading) (file : SourceFile) :
    List Syntax.Import → Schema → Loading
  | [], schema => some (.ok (), schema)
  | statement :: statements, schema =>
      match loadOne schema statement.file with
      | none => none
      | some (.error error, middle) =>
          some (.error (error.ofImport file.name file.source statement.fileSpan), middle)
      | some (.ok (), middle) => importsWithin loadOne file statements middle

/-- Loads a file, as long as imports lead no more than so many files deep. -/
def loadWithin (rules : Rules) (resolver : Resolver) :
    Nat → List String → Schema → String → Loading
  | 0, _, _, _ => none
  | depth + 1, importers, schema, name =>
      if name ∈ importers then some (.error (.circularImport name (importers ++ [name])), schema)
      else if (schema.fileNamed? name).isSome then some (.ok (), schema)
      else
        match resolver.openFile name with
        | .error error => some (.error error, schema)
        | .ok file =>
            (importsWithin (rules.loadWithin resolver depth (importers ++ [name])) file
              file.tree.imports schema).map (rules.afterImports file false)

theorem loadImports_of_within {loadOne : Schema → String → Loading} {importers : List String}
    (agrees : ∀ schema name result, loadOne schema name = some result →
      rules.load resolver importers schema name = some result)
    {file : SourceFile} {statements : List Syntax.Import} {schema : Schema}
    {result : Except LoadError Unit × Schema}
    (computed : importsWithin loadOne file statements schema = some result) :
    rules.loadImports resolver importers file statements schema = some result := by
  induction statements generalizing schema with
  | nil => rwa [loadImports_nil]
  | cons statement statements induction =>
      rw [importsWithin] at computed
      split at computed
      · cases computed
      · next error middle first =>
          rw [loadImports_of_error statements (agrees _ _ _ first)]
          exact computed
      · next middle first =>
          rw [loadImports_of_ok (agrees _ _ _ first)]
          exact induction computed

theorem load_of_within {depth : Nat} {importers : List String} {schema : Schema}
    {name : String} {result : Except LoadError Unit × Schema}
    (computed : rules.loadWithin resolver depth importers schema name = some result) :
    rules.load resolver importers schema name = some result := by
  induction depth generalizing importers schema name result with
  | zero => cases computed
  | succ depth induction =>
      rw [loadWithin] at computed
      by_cases cyclic : name ∈ importers
      · rw [if_pos cyclic] at computed
        rwa [load_of_cyclic cyclic]
      rw [if_neg cyclic] at computed
      cases known : schema.fileNamed? name with
      | some id =>
          rw [if_pos (by rw [known, Option.isSome_some])] at computed
          rwa [load_of_present cyclic (by rw [known, Option.isSome_some])]
      | none =>
          rw [if_neg (by rw [known]; exact Bool.false_ne_true)] at computed
          cases opened : resolver.openFile name with
          | error error =>
              rw [opened] at computed
              rwa [load_of_unreadable cyclic known opened]
          | ok file =>
              rw [opened] at computed
              rcases Option.map_eq_some_iff.mp computed with ⟨after, inner, rfl⟩
              have imports := loadImports_of_within (fun _ _ _ found => induction found) inner
              rw [load_of_fresh cyclic known opened, imports, Option.map_some]

/-- Loads a file that was opened itself, as long as imports lead no deeper. -/
def loadRootWithin (rules : Rules) (resolver : Resolver) (depth : Nat) (schema : Schema)
    (name : String) (file : SourceFile) : Loading :=
  (importsWithin (rules.loadWithin resolver depth [name]) file file.tree.imports schema).map
    (rules.afterImports file true)

theorem loadRoot_of_within {depth : Nat} {schema : Schema} {name : String} {file : SourceFile}
    {result : Except LoadError Unit × Schema}
    (computed : rules.loadRootWithin resolver depth schema name file = some result) :
    rules.loadRoot resolver schema name file = some result := by
  rcases Option.map_eq_some_iff.mp computed with ⟨after, inner, rfl⟩
  have imports := loadImports_of_within (fun _ _ _ found => load_of_within found) inner
  rw [loadRoot_eq, imports, Option.map_some]

end Rules

namespace Compiler

/-! ## Opening a file -/

/-- Opens a file, as long as its imports lead no deeper. -/
def openFileWithin (depth : Nat) (compiler : Compiler) (path : Path) :
    Option (Except LoadError Unit × Compiler) :=
  match compiler.target? path with
  | none => some (.error (.notIncluded path), compiler)
  | some (name, included) =>
      match compiler.schema.fileNamed? name with
      | some id => some (compiler.reopen id name included path)
      | none =>
          match compiler.resolver.openFile name with
          | .error error =>
              some (.error (if error.isFileNotFound then .notIncluded path else error), compiler)
          | .ok file =>
              match checkShadow name (if included then file.path else none) path with
              | .error error => some (.error error, compiler)
              | .ok () =>
                  (compiler.rules.loadRootWithin compiler.resolver depth compiler.schema name
                    file).map fun (result, schema) => (result, { compiler with schema })

theorem openFile_of_within {depth : Nat} {compiler : Compiler} {path : Path}
    {result : Except LoadError Unit × Compiler}
    (computed : compiler.openFileWithin depth path = some result) :
    compiler.openFile path = result := by
  rw [openFileWithin] at computed
  rw [openFile]
  cases target : compiler.target? path with
  | none =>
      rw [target] at computed
      exact Option.some.inj computed
  | some found =>
      rcases found with ⟨name, included⟩
      simp only [target] at computed ⊢
      cases known : compiler.schema.fileNamed? name with
      | some id =>
          simp only [known] at computed
          exact Option.some.inj computed
      | none =>
          simp only [known, openNew] at computed ⊢
          cases opened : compiler.resolver.openFile name with
          | error error =>
              simp only [opened] at computed
              exact Option.some.inj computed
          | ok file =>
              simp only [opened] at computed ⊢
              cases shadow : checkShadow name (if included then file.path else none) path with
              | error error =>
                  simp only [shadow] at computed ⊢
                  exact Option.some.inj computed
              | ok _ =>
                  simp only [shadow] at computed ⊢
                  rcases Option.map_eq_some_iff.mp computed with ⟨loaded, run, equal⟩
                  rw [Rules.loadRoot_of_within run]
                  exact equal

/-- What is computed to be so is so. -/
theorem openFile_of_computed {Holds : Except LoadError Unit × Compiler → Prop}
    [DecidablePred Holds] (depth : Nat) {compiler : Compiler} {path : Path}
    (computed : (compiler.openFileWithin depth path).any (Holds ·) = true) :
    Holds (compiler.openFile path) := by
  rcases (Option.any_eq_true _ _).mp computed with ⟨result, found, holds⟩
  rw [openFile_of_within found]
  exact of_decide_eq_true holds

end Compiler

/-! ## Linking a file -/

/-- What is computed of a linked file is so. -/
theorem Rules.link_of_computed {Holds : LoadedFile → Prop} [DecidablePred Holds]
    {opened : Except LoadError SourceFile} {schema : Schema} {isRoot : Bool}
    (computed : (opened.toOption.bind fun file =>
      (({} : Rules).link schema file isRoot).toOption).any (Holds ·) = true) :
    ∃ file loaded, opened = .ok file ∧ ({} : Rules).link schema file isRoot = .ok loaded ∧
      Holds loaded := by
  rcases (Option.any_eq_true _ _).mp computed with ⟨loaded, found, holds⟩
  rcases Option.bind_eq_some_iff.mp found with ⟨file, read, linked⟩
  refine ⟨file, loaded, ?_, ?_, of_decide_eq_true holds⟩
  · cases opened <;> simp_all [Except.toOption]
  · cases link : ({} : Rules).link schema file isRoot <;> simp_all [Except.toOption]

end ProtoSchema
