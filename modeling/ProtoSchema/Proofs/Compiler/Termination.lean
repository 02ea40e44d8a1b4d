import ProtoSchema.Proofs.Compiler.Loading
/-! # Loading ends

The files on the way to a file are all different. If only finitely many files can be
opened at all, the way cannot grow forever, and every loading has an outcome.
-/

namespace ProtoSchema

namespace Resolver

/-- No files can be opened but those with the listed names. -/
def OpensOnly (resolver : Resolver) (names : List String) : Prop :=
  ∀ name file, resolver.openFile name = .ok file → name ∈ names

/-- Only finitely many files can be opened. -/
def OpensFinitely (resolver : Resolver) : Prop :=
  ∃ names, resolver.OpensOnly names

theorem opensFinitely_ofMemory (memory : Memory) : (ofMemory memory).OpensFinitely := by
  refine ⟨memory.sources.map (·.1), fun name file opened => ?_⟩
  simp only [ofMemory] at opened
  split at opened
  · cases opened
  · next source _ found =>
      rcases List.lookup_eq_some_iff.mp found with ⟨front, back, sources, -⟩
      rw [sources]
      simp
  · cases opened

end Resolver

namespace Rules

variable {rules : Rules} {resolver : Resolver}

/-! ## Names that are still free -/

/-- The listed names that are not on the way. -/
def offTheWay (names importers : List String) : List String :=
  names.filter fun name => !importers.contains name

theorem length_offTheWay_append_lt {names importers : List String} {name : String}
    (listed : name ∈ names) (noCycle : name ∉ importers) :
    (offTheWay names (importers ++ [name])).length < (offTheWay names importers).length := by
  have fewer : offTheWay names (importers ++ [name]) =
      (offTheWay names importers).filter (· != name) := by
    simp only [offTheWay, List.filter_filter]
    apply List.filter_congr
    intro other _
    by_cases equal : other = name <;> simp [equal]
  rw [fewer]
  apply List.length_filter_lt_length_iff_exists.mpr
  exact ⟨name, by simp [offTheWay, listed, noCycle], by simp⟩

/-! ## Outcomes -/

/-- If every file that is loaded on a way has an outcome, so have all imports of a file. -/
theorem isSome_loadImports {importers : List String}
    (loads : ∀ schema name, (rules.load resolver importers schema name).isSome)
    (file : SourceFile) (statements : List Syntax.Import) (schema : Schema) :
    (rules.loadImports resolver importers file statements schema).isSome := by
  induction statements generalizing schema with
  | nil =>
      rw [loadImports_nil]
      rfl
  | cons statement statements induction =>
      cases run : rules.load resolver importers schema statement.file with
      | none =>
          have loaded := loads schema statement.file
          rw [run] at loaded
          cases loaded
      | some result =>
          rcases result with ⟨outcome, middle⟩
          cases outcome with
          | error error =>
              rw [loadImports_of_error statements run]
              rfl
          | ok _ =>
              rw [loadImports_of_ok run]
              exact induction middle

/-- The way to a file gets longer with each import, and its free names get fewer. -/
theorem isSome_load {names : List String} (only : resolver.OpensOnly names)
    (importers : List String) (schema : Schema) (name : String) :
    (rules.load resolver importers schema name).isSome := by
  induction free : (offTheWay names importers).length using Nat.strongRecOn
    generalizing importers schema name with
  | ind free induction =>
      subst free
      by_cases cyclic : name ∈ importers
      · rw [load_of_cyclic cyclic]
        rfl
      cases known : schema.fileNamed? name with
      | some id =>
          rw [load_of_present cyclic (by rw [known, Option.isSome_some])]
          rfl
      | none =>
          cases opened : resolver.openFile name with
          | error error =>
              rw [load_of_unreadable cyclic known opened]
              rfl
          | ok file =>
              have shorter := length_offTheWay_append_lt (only name file opened) cyclic
              have loads : ∀ schema other,
                  (rules.load resolver (importers ++ [name]) schema other).isSome :=
                fun schema other => induction _ shorter (importers ++ [name]) schema other rfl
              have imports := isSome_loadImports loads file file.tree.imports schema
              rwa [load_of_fresh cyclic known opened, Option.isSome_map]

theorem isSome_loadRoot (finite : resolver.OpensFinitely) (schema : Schema) (name : String)
    (file : SourceFile) : (rules.loadRoot resolver schema name file).isSome := by
  rcases finite with ⟨names, only⟩
  have loads : ∀ schema other, (rules.load resolver [name] schema other).isSome :=
    isSome_load only [name]
  have imports := isSome_loadImports loads file file.tree.imports schema
  rwa [loadRoot_eq, Option.isSome_map]

end Rules

end ProtoSchema
