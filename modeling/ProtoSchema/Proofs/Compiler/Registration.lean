import Mathlib.Data.List.Basic
import ProtoSchema.Proofs.Compiler.Addition
/-! # Registered names and their conflicts

The names of a file are registered in order. Which of them were declared before depends on
the names before them in the file and on what names mean outside; each such name is a
conflict, or an error in strict mode.
-/

namespace ProtoSchema

namespace Link

/-! ## Conflicts of a list of names -/

/-- The conflicts of names that are declared in order. `entries` are those declared before
them, the newest first, and `outside` tells what names mean elsewhere. -/
def conflictsOf (outside : String → Option UserType) :
    List (String × UserType) → List (String × UserType) → List Conflict
  | _, [] => []
  | entries, (name, target) :: names =>
      (((entries.lookup name).or (outside name)).map (⟨name, ·, target⟩)).toList ++
        conflictsOf outside ((name, target) :: entries) names

variable {outside : String → Option UserType}

theorem countP_toList_map (name other : String) (target : UserType) (found : Option UserType) :
    (found.map (⟨other, ·, target⟩ : UserType → Conflict)).toList.countP (·.name == name) =
      if other = name ∧ found.isSome then 1 else 0 := by
  cases found <;> simp

/-- Every declaration of a name conflicts, apart from the first one if the name was not
declared before. -/
theorem countP_conflictsOf (entries names : List (String × UserType)) (name : String) :
    (conflictsOf outside entries names).countP (·.name == name) =
      if ((entries.lookup name).or (outside name)).isSome then names.countP (·.1 == name)
      else names.countP (·.1 == name) - 1 := by
  induction names generalizing entries with
  | nil => simp [conflictsOf]
  | cons declared names induction =>
      rcases declared with ⟨other, target⟩
      rw [conflictsOf, List.countP_append, countP_toList_map, induction, List.countP_cons]
      by_cases equal : other = name
      · subst equal
        simp only [List.lookup_cons_self, Option.some_or, Option.isSome_some, if_true, true_and,
          beq_self_eq_true]
        split <;> omega
      · have different : name ≠ other := fun same => equal same.symm
        have passed : ((other, target) :: entries).lookup name = entries.lookup name := by
          rw [List.lookup_cons, beq_false_of_ne different]
        rw [passed]
        simp [equal]

/-- A conflict is between a declaration and one before it, or one elsewhere. -/
theorem exists_of_mem_conflictsOf {entries names : List (String × UserType)}
    {conflict : Conflict} (member : conflict ∈ conflictsOf outside entries names) :
    ∃ front back, names = front ++ (conflict.name, conflict.current) :: back ∧
      ((conflict.name, conflict.previous) ∈ entries ++ front ∨
        outside conflict.name = some conflict.previous) := by
  induction names generalizing entries with
  | nil => cases member
  | cons declared names induction =>
      rcases declared with ⟨name, target⟩
      rw [conflictsOf] at member
      rcases List.mem_append.mp member with first | later
      · rcases Option.map_eq_some_iff.mp (Option.mem_toList.mp first) with ⟨before, found, rfl⟩
        refine ⟨[], names, rfl, ?_⟩
        rcases Option.or_eq_some_iff.mp found with inside | ⟨-, elsewhere⟩
        · rcases List.lookup_eq_some_iff.mp inside with ⟨newer, older, split, -⟩
          exact .inl (by simp [split])
        · exact .inr elsewhere
      · rcases induction later with ⟨front, back, rfl, origin⟩
        refine ⟨(name, target) :: front, back, rfl, ?_⟩
        simpa [or_assoc, or_comm, or_left_comm] using origin

/-! ## Registration -/

/-- What a name means outside a file that is not in the schema yet. -/
def outside? (schema : Schema) (loaded : LoadedFile) (name : String) : Option UserType :=
  (schema.imported? loaded name).or (schema.newest? name)

theorem previous?_eq (schema : Schema) (loaded : LoadedFile) (name : String) :
    previous? schema loaded name =
      (loaded.symbols.find? name).or (outside? schema loaded name) := by
  simp only [previous?, Schema.seenBy?, Option.orElse_eq_orElse, Option.orElse_eq_or,
    Option.or_assoc]
  rfl

variable {schema : Schema} {loaded : LoadedFile}

/-- The conflicts of some names that a file declares after those in its table. -/
def newConflicts (schema : Schema) (loaded : LoadedFile) (names : List DeclaredName) :
    List Conflict :=
  conflictsOf (outside? schema loaded) loaded.symbols.entries (names.map entryOf)

theorem newConflicts_cons (declared : DeclaredName) (names : List DeclaredName) :
    newConflicts schema loaded (declared :: names) =
      ((previous? schema loaded declared.fullName).map
          (⟨declared.fullName, ·, declared.target⟩)).toList ++
        newConflicts schema
          { loaded with
            symbols := loaded.symbols.insert declared.fullName declared.target
              (previous? schema loaded declared.fullName) } names := by
  rw [previous?_eq]
  rfl

theorem registerName_of_clear {strict : Bool} {declared : DeclaredName}
    (clear : strict = false ∨ previous? schema loaded declared.fullName = none) :
    registerName schema strict loaded declared =
      .ok { loaded with
        symbols := loaded.symbols.insert declared.fullName declared.target
          (previous? schema loaded declared.fullName) } := by
  rw [registerName.eq_def]
  rcases clear with rfl | fresh
  · cases previous? schema loaded declared.fullName <;> rfl
  · rw [fresh]

/-- The file with some names in its table. -/
def withNames (schema : Schema) (loaded : LoadedFile) (names : List DeclaredName) :
    LoadedFile :=
  { loaded with
    symbols :=
      { entries := (names.map entryOf).reverse ++ loaded.symbols.entries
        conflicts := loaded.symbols.conflicts ++ newConflicts schema loaded names } }

/-- Names that may be declared twice, or are not, are registered. -/
theorem registerNames_of_clear {strict : Bool} {names : List DeclaredName}
    (clear : strict = false ∨ newConflicts schema loaded names = []) :
    registerNames schema strict loaded names = .ok (withNames schema loaded names) := by
  induction names generalizing loaded with
  | nil => simp [registerNames, withNames, newConflicts, conflictsOf, pure, Except.pure]
  | cons declared names induction =>
      have first : strict = false ∨ previous? schema loaded declared.fullName = none := by
        apply clear.imp_right
        intro none
        rw [newConflicts_cons] at none
        simpa using (List.append_eq_nil_iff.mp none).1
      have rest := clear.imp_right fun none => by
        rw [newConflicts_cons] at none
        exact (List.append_eq_nil_iff.mp none).2
      rw [registerNames, List.foldlM_cons, registerName_of_clear first]
      refine (induction rest).trans ?_
      simp [withNames, newConflicts_cons, SymbolTable.insert, entryOf]

/-- In strict mode the first conflict is an error. -/
theorem registerNames_strict {names : List DeclaredName}
    (conflicts : newConflicts schema loaded names ≠ []) :
    ∃ declared ∈ names, ∃ file, registerNames schema true loaded names =
      .error ⟨.duplicateName declared.fullName file, declared.span⟩ := by
  induction names generalizing loaded with
  | nil => exact absurd rfl conflicts
  | cons declared names induction =>
      cases found : previous? schema loaded declared.fullName with
      | some target =>
          refine ⟨declared, List.mem_cons_self, fileNameOf schema loaded target, ?_⟩
          have first : registerName schema true loaded declared =
              .error ⟨.duplicateName declared.fullName (fileNameOf schema loaded target),
                declared.span⟩ := by
            rw [registerName.eq_def, found]
          rw [registerNames, List.foldlM_cons, first]
          rfl
      | none =>
          have later := conflicts
          rw [newConflicts_cons, found] at later
          rcases induction later with ⟨culprit, member, file, failed⟩
          refine ⟨culprit, List.mem_cons_of_mem declared member, file, ?_⟩
          rw [registerNames, List.foldlM_cons, registerName_of_clear (.inr found), found]
          exact failed

end Link

namespace Rules

/-! ## Linking -/

/-- The conflicts of the next file of a schema. -/
def nextConflicts (schema : Schema) (file : SourceFile) (isRoot : Bool) : List Conflict :=
  Link.newConflicts schema (nextDraft schema file isRoot) (draftOf schema.files.size file).names

variable {rules : Rules} {schema : Schema} {file : SourceFile} {isRoot : Bool}

theorem link_of_clear
    (clear : rules.strictNames = false ∨ nextConflicts schema file isRoot = []) :
    rules.link schema file isRoot = linkRegistered schema file
      (Link.withNames schema (nextDraft schema file isRoot)
        (draftOf schema.files.size file).names) := by
  rw [link_eq, Link.registerNames_of_clear clear]
  rfl

theorem link_strict (strict : rules.strictNames = true)
    (conflicts : nextConflicts schema file isRoot ≠ []) :
    ∃ name other span, rules.link schema file isRoot =
      .error ⟨.duplicateName name other, span⟩ := by
  rcases Link.registerNames_strict conflicts with ⟨declared, -, other, failed⟩
  refine ⟨declared.fullName, other, declared.span, ?_⟩
  rw [link_eq, strict, failed]
  rfl

/-- A file is linked in strict mode only if it has no conflicts. -/
theorem clear_of_link_eq_ok {loaded : LoadedFile}
    (result : rules.link schema file isRoot = .ok loaded) :
    rules.strictNames = false ∨ nextConflicts schema file isRoot = [] := by
  by_contra both
  rw [not_or, Bool.not_eq_false] at both
  rcases link_strict both.1 both.2 with ⟨name, other, span, failed⟩
  rw [failed] at result
  cases result

/-- A linked file keeps the conflicts of its names. -/
theorem conflicts_of_link {loaded : LoadedFile}
    (result : rules.link schema file isRoot = .ok loaded) :
    loaded.symbols.conflicts = nextConflicts schema file isRoot ∧
      loaded.symbols.conflicts =
        Link.conflictsOf (Link.outside? schema loaded) [] loaded.symbols.entries.reverse := by
  rw [link_of_clear (clear_of_link_eq_ok result)] at result
  rcases linkRegistered_eq_ok_iff.mp result with ⟨-, rfl⟩
  constructor
  · rfl
  · simp only [Link.withNames, nextDraft, draftLoaded, List.append_nil, List.reverse_reverse,
      List.nil_append]
    rfl

end Rules

end ProtoSchema
