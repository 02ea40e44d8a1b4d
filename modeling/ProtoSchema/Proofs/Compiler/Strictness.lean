import ProtoSchema.Proofs.Compiler.Conflicts
import ProtoSchema.Proofs.Compiler.Evaluation
import ProtoSchema.Proofs.Compiler.StrictLoading
/-! # Strict names

In strict mode a file opens if and only if it opens otherwise and brings no conflicts, and
then with the same schema. In a session that is strict from the start, no two declarations
have one full name.
-/

namespace ProtoSchema

namespace Compiler

/-! ## Opening a file -/

/-- What opening a file comes to, without regard to the rules. -/
def outcome (compiler : Compiler) (path : Path) : Except LoadError Unit × Schema :=
  ((compiler.openFile path).1, (compiler.openFile path).2.schema)

/-- Opening a file has the same outcome by all rules, and no file is loaded; or it depends
on the rules by the loading of one file only. -/
theorem outcome_cases (compiler : Compiler) (path : Path) :
    (∃ result : Except LoadError Unit × Schema,
      result.2.files.size = compiler.schema.files.size ∧
        ∀ strict, (compiler.setStrictNames strict).outcome path = result) ∨
    ∃ name file, ∀ strict, (compiler.setStrictNames strict).outcome path =
      ((compiler.rules.setStrict strict).loadRoot compiler.resolver compiler.schema name
        file).getD (.error (.importsTooDeep name), compiler.schema) := by
  have sameTarget : ∀ strict, (compiler.setStrictNames strict).target? path =
      compiler.target? path := fun _ => rfl
  have sameSchema : ∀ strict, (compiler.setStrictNames strict).schema = compiler.schema :=
    fun _ => rfl
  have sameResolver : ∀ strict, (compiler.setStrictNames strict).resolver = compiler.resolver :=
    fun _ => rfl
  simp only [outcome, openFile, sameTarget]
  cases compiler.target? path with
  | none => exact .inl ⟨(.error (.notIncluded path), compiler.schema), rfl, fun _ => rfl⟩
  | some found =>
      rcases found with ⟨name, included⟩
      simp only [sameSchema]
      cases compiler.schema.fileNamed? name with
      | some id =>
          left
          simp only [reopen, sameSchema]
          cases checkShadow name _ path with
          | error error => exact ⟨(.error error, compiler.schema), rfl, fun _ => rfl⟩
          | ok _ =>
              exact ⟨(.ok (), compiler.schema.markRoot id), by simp [Schema.markRoot],
                fun _ => rfl⟩
      | none =>
          simp only [openNew, sameResolver]
          cases compiler.resolver.openFile name with
          | error error =>
              exact .inl ⟨(.error (if error.isFileNotFound then .notIncluded path else error),
                compiler.schema), rfl, fun _ => rfl⟩
          | ok file =>
              dsimp only
              cases checkShadow name _ path with
              | error error =>
                  exact .inl ⟨(.error error, compiler.schema), rfl, fun _ => rfl⟩
              | ok _ =>
                  right
                  refine ⟨name, file, fun strict => ?_⟩
                  have sameRules : (compiler.setStrictNames strict).rules =
                      compiler.rules.setStrict strict := rfl
                  rw [sameRules, sameSchema]
                  cases (compiler.rules.setStrict strict).loadRoot compiler.resolver
                    compiler.schema name file <;> rfl

/-- Where duplicate names are allowed and a file opens, strict mode follows. -/
theorem outcome_follows {compiler : Compiler} {path : Path} {after : Schema}
    (opened : (compiler.setStrictNames false).outcome path = (.ok (), after)) :
    Rules.Follows compiler.schema (.ok (), after)
      ((compiler.setStrictNames true).outcome path) := by
  rcases compiler.outcome_cases path with ⟨result, size, same⟩ | ⟨name, file, loads⟩
  · rw [same] at opened ⊢
    subst opened
    exact .same (.of_size_le (Nat.le_of_eq size))
  · rw [loads] at opened ⊢
    cases run : (compiler.rules.setStrict false).loadRoot compiler.resolver compiler.schema name
        file with
    | none =>
        rw [run] at opened
        cases opened
    | some result =>
        rw [run, Option.getD_some] at opened
        subst opened
        rcases Rules.loadRoot_follows run with ⟨strict, strictRun, follows⟩
        rwa [strictRun]

/-- In strict mode a file opens or fails as it does otherwise, or fails because of a
duplicate name. -/
theorem outcome_strict (compiler : Compiler) (path : Path) :
    (compiler.setStrictNames true).outcome path = (compiler.setStrictNames false).outcome path ∨
      ∃ error, ((compiler.setStrictNames true).outcome path).1 = .error error ∧
        error.IsDuplicate := by
  rcases compiler.outcome_cases path with ⟨result, -, same⟩ | ⟨name, file, loads⟩
  · rw [same, same]
    exact .inl rfl
  · rw [loads, loads]
    cases strictRun : (compiler.rules.setStrict true).loadRoot compiler.resolver compiler.schema
        name file with
    | some strict =>
        rcases Rules.loadRoot_endsLike strictRun with same | duplicate
        · rw [same]
          exact .inl rfl
        · exact .inr duplicate
    | none =>
        cases run : (compiler.rules.setStrict false).loadRoot compiler.resolver compiler.schema
            name file with
        | none => exact .inl rfl
        | some result =>
            rcases Rules.loadRoot_follows run with ⟨strict, found, -⟩
            rw [strictRun] at found
            cases found

/-- A file opens in strict mode if and only if it opens without a conflict. -/
theorem outcome_eq_ok_iff (compiler : Compiler) (path : Path) (after : Schema) :
    (compiler.setStrictNames true).outcome path = (.ok (), after) ↔
      (compiler.setStrictNames false).outcome path = (.ok (), after) ∧
        compiler.schema.GrowsClear after := by
  constructor
  · intro strict
    have lenient : (compiler.setStrictNames false).outcome path = (.ok (), after) := by
      rcases compiler.outcome_strict path with same | ⟨error, failed, -⟩
      · rw [← same, strict]
      · rw [strict] at failed
        cases failed
    have follows := outcome_follows lenient
    rw [strict] at follows
    exact ⟨lenient, (follows.eq_of_ok rfl).2⟩
  · rintro ⟨lenient, clear⟩
    exact (outcome_follows lenient).eq_of_clear rfl clear

end Compiler

/-! ## Strict sessions -/

/-- The full names of all messages, enums and services of a schema. -/
def Schema.declaredFullNames (schema : Schema) : List String :=
  schema.files.toList.flatMap fun loaded => loaded.file.declaredNames.map DeclaredName.fullName

namespace Schema

/-- A schema that records conflicts and has none. -/
structure WithoutConflicts (schema : Schema) : Prop extends ConflictsRecorded schema where
  clear : ∀ {id : FileId} {loaded : LoadedFile}, schema.files[id]? = some loaded →
    loaded.symbols.conflicts = []

theorem WithoutConflicts.preserved {rules : Rules} (strict : rules.strictNames = true) :
    rules.Preserve WithoutConflicts where
  added := by
    intro schema next file isRoot without added
    have recorded := (ConflictsRecorded.preserved rules).added without.toConflictsRecorded added
    refine ⟨recorded, fun present => ?_⟩
    rcases Rules.add_eq_ok_iff.mp added with ⟨loaded, link, -, rfl⟩
    rcases getElem?_push_cases present with present | ⟨rfl, rfl⟩
    · exact without.clear present
    · rw [(Rules.conflicts_of_link link).1]
      apply (Rules.clear_of_link_eq_ok link).resolve_left
      rw [strict]
      exact Bool.noConfusion
  marked := by
    intro schema root without
    have recorded := (ConflictsRecorded.preserved rules).marked root without.toConflictsRecorded
    refine ⟨recorded, fun present => ?_⟩
    rcases getElem?_markRoot_cases present with ⟨original, mark, held, rfl⟩
    have clear := without.clear held
    exact clear
  forgotten := by
    intro schema name without
    have recorded :=
      (ConflictsRecorded.preserved rules).forgotten name without.toConflictsRecorded
    exact ⟨recorded, fun present => without.clear present⟩

theorem WithoutConflicts.empty : ({} : Schema).WithoutConflicts where
  toConflictsRecorded := .empty
  clear present := by simp at present

/-- Without conflicts a file declares a name at most once, and not if an earlier file
declares it. -/
theorem WithoutConflicts.timesDeclared {schema : Schema} (without : schema.WithoutConflicts)
    {id : FileId} {loaded : LoadedFile} (present : schema.files[id]? = some loaded)
    (name : String) :
    loaded.file.timesDeclared name ≤ 1 ∧
      ((∃ source < id, schema.Declares source name) → loaded.file.timesDeclared name = 0) := by
  have exact := without.toConflictsRecorded.exact present
  have none : loaded.symbols.conflicts.countP (·.name == name) = 0 := by
    rw [without.clear present]
    rfl
  by_cases declared : ∃ source < id, schema.Declares source name
  · have times := exact.count_of_declared name declared
    omega
  · have times := exact.count_of_fresh name declared
    exact ⟨by omega, fun impossible => absurd impossible declared⟩

theorem WithoutConflicts.nodup {schema : Schema} (without : schema.WithoutConflicts) :
    schema.declaredFullNames.Nodup := by
  have counted : ∀ (loaded : LoadedFile) name,
      (loaded.file.declaredNames.map DeclaredName.fullName).count name =
        loaded.file.timesDeclared name := by
    intro loaded name
    rw [List.count_eq_countP, List.countP_map]
    rfl
  rw [declaredFullNames, List.nodup_flatMap]
  constructor
  · intro loaded member
    rcases List.getElem?_of_mem member with ⟨id, present⟩
    rw [List.nodup_iff_count_le_one]
    intro name
    rw [counted]
    exact (without.timesDeclared (by simpa using present) name).1
  · rw [List.pairwise_iff_getElem]
    intro first second firstBound secondBound before
    have presentFirst : schema.files[first]? = some (schema.files.toList[first]) := by
      rw [← Array.getElem?_toList, List.getElem?_eq_getElem firstBound]
    have presentSecond : schema.files[second]? = some (schema.files.toList[second]) := by
      rw [← Array.getElem?_toList, List.getElem?_eq_getElem secondBound]
    intro name inFirst inSecond
    rcases List.mem_map.mp inFirst with ⟨declared, member, rfl⟩
    rcases without.settled.files presentFirst with ⟨file, -, own⟩
    have named := fullName?_of_mem_declaredNames presentFirst own.id_eq member
    have never := (without.timesDeclared presentSecond declared.fullName).2
      ⟨first, before, declared.target, named⟩
    rw [← counted] at never
    exact List.count_eq_zero.mp never inSecond

end Schema

namespace Session

/-- An operation does not switch strict mode off. -/
def StaysStrict : Operation → Prop
  | .strictNames strict => strict = true
  | _ => True

theorem nodup_declaredFullNames_run (resolver : Resolver) {operations : List Operation}
    (strict : ∀ operation ∈ operations, StaysStrict operation) :
    (run resolver (.strictNames true :: operations)).compiler.schema.declaredFullNames.Nodup := by
  have keeps : ∀ operation ∈ operations, ∀ rules : Rules, rules.strictNames = true →
      (operation.rules rules).strictNames = true := by
    intro operation member rules holds
    have stays := strict operation member
    cases operation with
    | strictNames mode => exact stays
    | _ => exact holds
  have without := @foldl_preserves (fun rules => rules.strictNames = true)
    Schema.WithoutConflicts (fun _ => Schema.WithoutConflicts.preserved) operations keeps
    (apply { compiler := { resolver } } (.strictNames true)) rfl .empty
  exact without.nodup

/-- Strict mode is the other mode without conflicts. A file opens in strict mode if and
only if it opens otherwise and none of the files that it adds has a conflict, and then with
the same schema; if it fails otherwise, it fails in strict mode with the same error or
because of a duplicate name. In a session that is strict from the start, all full names
are different. -/
theorem strictNames_exact :
    (∀ (compiler : Compiler) path after,
      (compiler.setStrictNames true).outcome path = (.ok (), after) ↔
        (compiler.setStrictNames false).outcome path = (.ok (), after) ∧
          compiler.schema.GrowsClear after) ∧
    (∀ (compiler : Compiler) path error after,
      (compiler.setStrictNames false).outcome path = (.error error, after) →
      (compiler.setStrictNames true).outcome path = (.error error, after) ∨
        ∃ duplicate, ((compiler.setStrictNames true).outcome path).1 = .error duplicate ∧
          duplicate.IsDuplicate) ∧
    ∀ resolver operations, (∀ operation ∈ operations, StaysStrict operation) →
      (run resolver
        (.strictNames true :: operations)).compiler.schema.declaredFullNames.Nodup := by
  refine ⟨Compiler.outcome_eq_ok_iff, ?_, fun resolver _ => nodup_declaredFullNames_run resolver⟩
  intro compiler path error after failed
  rw [← failed]
  exact compiler.outcome_strict path

/-- A file declares a name of its import again, which strict mode does not let pass. -/
theorem strictNames_exact_twice :
    let twice := Resolver.ofMemory
      { sources := [("a.proto", "message A \x7b\x7d"),
        ("b.proto", "import \"a.proto\"; message A \x7b\x7d")] }
    let compiler : Compiler := { resolver := twice }
    let operations : List Operation := [.openFile ⟨"a.proto"⟩, .openFile ⟨"b.proto"⟩]
    ((compiler.setStrictNames false).outcome ⟨"b.proto"⟩).1 = .ok () ∧
      (∀ after, (compiler.setStrictNames true).outcome ⟨"b.proto"⟩ ≠ (.ok (), after)) ∧
      (∀ operation ∈ operations, StaysStrict operation) ∧
      (run twice (.strictNames true :: operations)).compiler.schema.declaredFullNames.Nodup := by
  intro twice compiler operations
  have opens : ((compiler.setStrictNames false).outcome ⟨"b.proto"⟩).1 = .ok () ∧
      (((compiler.setStrictNames false).outcome ⟨"b.proto"⟩).2.files[1]?).any
        (!·.symbols.conflicts.isEmpty) = true :=
    @Compiler.openFile_of_computed
      (fun result => result.1 = .ok () ∧
        (result.2.schema.files[1]?).any
          (fun loaded : LoadedFile => !loaded.symbols.conflicts.isEmpty) = true)
      _ 2 (compiler.setStrictNames false) ⟨"b.proto"⟩ (by decide +kernel)
  have stays : ∀ operation ∈ operations, StaysStrict operation := by
    simp only [operations, List.forall_mem_cons, StaysStrict]
    simp
  refine ⟨opens.1, ?_, stays, strictNames_exact.2.2 twice operations stays⟩
  intro after strict
  rcases (strictNames_exact.1 compiler ⟨"b.proto"⟩ after).mp strict with ⟨lenient, clear⟩
  rw [lenient] at opens
  rcases (Option.any_eq_true _ _).mp opens.2 with ⟨loaded, present, conflicts⟩
  rw [clear 1 loaded (Nat.zero_le 1) present] at conflicts
  cases conflicts

end Session

end ProtoSchema
