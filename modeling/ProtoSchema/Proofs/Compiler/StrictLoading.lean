import ProtoSchema.Proofs.Compiler.Loading
import ProtoSchema.Proofs.Compiler.Registration
/-! # Strict loading

A loading in strict mode follows the loading that allows duplicate names, until it comes
to the first of them.
-/

namespace ProtoSchema

namespace Schema

/-! ## New files -/

/-- A later schema has the files of an earlier one in their places. -/
def Keeps (before after : Schema) : Prop :=
  ∀ (id : FileId) loaded, before.files[id]? = some loaded → after.files[id]? = some loaded

theorem Keeps.refl (schema : Schema) : schema.Keeps schema :=
  fun _ _ present => present

theorem Keeps.trans {before middle after : Schema} (first : before.Keeps middle)
    (second : middle.Keeps after) : before.Keeps after :=
  fun id loaded present => second id loaded (first id loaded present)

theorem Keeps.size_le {before after : Schema} (keeps : before.Keeps after) :
    before.files.size ≤ after.files.size := by
  by_contra fewer
  have earlier := Nat.lt_of_not_le fewer
  have present := lt_size_of_getElem? (keeps _ _ (Array.getElem?_eq_getElem earlier))
  exact Nat.lt_irrefl _ present

/-- None of the files that a later schema has besides those of an earlier one records a
conflict. -/
def GrowsClear (before after : Schema) : Prop :=
  ∀ (id : FileId) loaded, before.files.size ≤ id → after.files[id]? = some loaded →
    loaded.symbols.conflicts = []

namespace GrowsClear

theorem of_size_le {before after : Schema} (noMore : after.files.size ≤ before.files.size) :
    before.GrowsClear after := by
  intro id loaded later present
  have bound := Nat.lt_of_lt_of_le (lt_size_of_getElem? present) noMore
  exact absurd bound (Nat.not_lt.mpr later)

theorem refl (schema : Schema) : schema.GrowsClear schema :=
  of_size_le (Nat.le_refl _)

theorem push {schema : Schema} {loaded : LoadedFile} (clear : loaded.symbols.conflicts = []) :
    schema.GrowsClear (schema.push loaded) := by
  intro id other later present
  rcases getElem?_push_cases present with present | ⟨rfl, rfl⟩
  · exact absurd (lt_size_of_getElem? present) (Nat.not_lt.mpr later)
  · exact clear

variable {before middle after : Schema}

theorem trans (first : before.GrowsClear middle) (second : middle.GrowsClear after)
    (keeps : middle.Keeps after) : before.GrowsClear after := by
  intro id loaded later present
  by_cases bound : id < middle.files.size
  · have held := Array.getElem?_eq_getElem bound
    rw [keeps id _ held] at present
    cases present
    exact first id _ later held
  · exact second id loaded (Nat.le_of_not_lt bound) present

theorem left (clear : before.GrowsClear after) (keeps : middle.Keeps after) :
    before.GrowsClear middle :=
  fun id loaded later present => clear id loaded later (keeps id loaded present)

theorem right (clear : before.GrowsClear after) (keeps : before.Keeps middle) :
    middle.GrowsClear after :=
  fun id loaded later present => clear id loaded (Nat.le_trans keeps.size_le later) present

end GrowsClear

end Schema

/-- The error of a name that is declared twice. -/
def LoadError.IsDuplicate (error : LoadError) : Prop :=
  ∃ name other span file source, error = .check ⟨.duplicateName name other, span⟩ file source

theorem LoadError.IsDuplicate.ofImport_eq {error : LoadError} (duplicate : error.IsDuplicate)
    (file source : String) (span : Span) : error.ofImport file source span = error := by
  rcases duplicate with ⟨name, other, place, holder, text, rfl⟩
  rfl

namespace Rules

variable {rules : Rules} {resolver : Resolver}

/-! ## One file -/

/-- The rules with names that may be declared only once, or not. -/
def setStrict (rules : Rules) (strictNames : Bool) : Rules :=
  { rules with strictNames }

theorem add_of_clear {schema : Schema} {file : SourceFile} {isRoot : Bool}
    (clear : nextConflicts schema file isRoot = []) :
    (rules.setStrict true).add schema file isRoot =
      (rules.setStrict false).add schema file isRoot := by
  rw [add, add, link_of_clear (.inr clear), link_of_clear (.inr clear)]
  rfl

theorem add_strict {schema : Schema} {file : SourceFile} {isRoot : Bool}
    (conflicts : nextConflicts schema file isRoot ≠ []) :
    ∃ error, error.IsDuplicate ∧
      (rules.setStrict true).add schema file isRoot = .error error := by
  have strict : (rules.setStrict true).strictNames = true := rfl
  rcases link_strict strict conflicts with ⟨name, other, span, failed⟩
  exact ⟨_, ⟨name, other, span, file.name, file.source, rfl⟩, add_of_link_eq_error failed⟩

/-- An added file keeps its conflicts. -/
theorem exists_conflicts_of_add {schema next : Schema} {file : SourceFile} {isRoot : Bool}
    (added : rules.add schema file isRoot = .ok next) :
    ∃ loaded, next = schema.push loaded ∧
      loaded.symbols.conflicts = nextConflicts schema file isRoot := by
  rcases add_eq_ok_iff.mp added with ⟨loaded, link, -, rfl⟩
  exact ⟨_, rfl, (conflicts_of_link link).1⟩

theorem commit_keeps (rules : Rules) (schema : Schema) (file : SourceFile) (isRoot : Bool) :
    schema.Keeps (rules.commit schema file isRoot).2 := by
  rcases commit_cases rules schema file isRoot with ⟨next, added, result⟩ | ⟨error, -, result⟩
  · rcases exists_conflicts_of_add added with ⟨loaded, rfl, -⟩
    rw [result]
    exact fun id other present => Schema.getElem?_push_of_getElem? loaded present
  · rw [result]
    exact fun id other present => present

theorem afterImports_keeps (rules : Rules) (file : SourceFile) (isRoot : Bool)
    (imports : Except LoadError Unit × Schema) :
    imports.2.Keeps (rules.afterImports file isRoot imports).2 := by
  rcases imports with ⟨error | _, after⟩
  · exact .refl after
  · exact commit_keeps rules after file isRoot

/-! ## Following a loading -/

/-- How strict loading can end where the other one ends in a certain way: in the same way
without a conflict, or at a duplicate name, in which case the other one ends without an
error only if it has a conflict. -/
inductive Follows (before : Schema) (lenient : Except LoadError Unit × Schema) :
    Except LoadError Unit × Schema → Prop
  | same (clear : before.GrowsClear lenient.2) : Follows before lenient lenient
  | stopped {error : LoadError} {after : Schema} (duplicate : error.IsDuplicate)
      (spoiled : lenient.1 = .ok () → ¬ before.GrowsClear lenient.2) :
      Follows before lenient (.error error, after)

theorem follows_commit (rules : Rules) (schema : Schema) (file : SourceFile) (isRoot : Bool) :
    Follows schema ((rules.setStrict false).commit schema file isRoot)
      ((rules.setStrict true).commit schema file isRoot) := by
  by_cases clear : nextConflicts schema file isRoot = []
  · have same : (rules.setStrict true).commit schema file isRoot =
        (rules.setStrict false).commit schema file isRoot := by
      rw [commit, commit, add_of_clear clear]
    rw [same]
    apply Follows.same
    rcases commit_cases (rules.setStrict false) schema file isRoot with
      ⟨next, added, result⟩ | ⟨error, -, result⟩
    · rcases exists_conflicts_of_add added with ⟨loaded, rfl, conflicts⟩
      rw [result]
      exact .push (conflicts.trans clear)
    · rw [result]
      exact .of_size_le (Nat.le_refl _)
  · rcases @add_strict rules _ _ _ clear with ⟨error, duplicate, failed⟩
    have stopped : (rules.setStrict true).commit schema file isRoot =
        (.error error, schema.forget file.name) := by
      rw [commit, failed]
    rw [stopped]
    apply Follows.stopped duplicate
    intro succeeded grows
    rcases commit_cases (rules.setStrict false) schema file isRoot with
      ⟨next, added, result⟩ | ⟨error, -, result⟩
    · rcases exists_conflicts_of_add added with ⟨loaded, rfl, conflicts⟩
      rw [result] at grows
      apply clear
      rw [← conflicts]
      exact grows schema.files.size loaded (Nat.le_refl _) (Schema.getElem?_push_size schema loaded)
    · rw [result] at succeeded
      cases succeeded

theorem Follows.eq_of_ok {before : Schema} {lenient strict : Except LoadError Unit × Schema}
    (follows : Follows before lenient strict) (succeeded : strict.1 = .ok ()) :
    strict = lenient ∧ before.GrowsClear lenient.2 := by
  cases follows with
  | same clear => exact ⟨rfl, clear⟩
  | stopped duplicate spoiled => cases succeeded

theorem Follows.eq_of_clear {before : Schema} {lenient strict : Except LoadError Unit × Schema}
    (follows : Follows before lenient strict) (succeeded : lenient.1 = .ok ())
    (clear : before.GrowsClear lenient.2) : strict = lenient := by
  cases follows with
  | same _ => rfl
  | stopped duplicate spoiled => exact absurd clear (spoiled succeeded)

/-- After a loading without conflicts the next one is followed. -/
theorem Follows.after {before middle : Schema} {lenient strict : Except LoadError Unit × Schema}
    (follows : Follows middle lenient strict) (clear : before.GrowsClear middle)
    (keeps : before.Keeps middle) (later : middle.Keeps lenient.2) :
    Follows before lenient strict := by
  cases follows with
  | same rest => exact .same (clear.trans rest later)
  | stopped duplicate spoiled =>
      exact .stopped duplicate fun succeeded grows => spoiled succeeded (grows.right keeps)

/-- A loading that has stopped does not follow what comes later. -/
theorem Follows.stop {before middle after : Schema} {lenient : Except LoadError Unit × Schema}
    {error : LoadError} (duplicate : error.IsDuplicate)
    (spoiled : ¬ before.GrowsClear middle) (later : middle.Keeps lenient.2) :
    Follows before lenient (.error error, after) :=
  .stopped duplicate fun _ grows => spoiled (grows.left later)

/-- If the loading of imports is followed, so is that of the file. -/
theorem Follows.afterImports {schema : Schema} {imports strict : Except LoadError Unit × Schema}
    (follows : Follows schema imports strict) (keeps : schema.Keeps imports.2)
    (file : SourceFile) (isRoot : Bool) :
    Follows schema ((rules.setStrict false).afterImports file isRoot imports)
      ((rules.setStrict true).afterImports file isRoot strict) := by
  have later := afterImports_keeps (rules.setStrict false) file isRoot imports
  rcases imports with ⟨error | _, after⟩
  · cases follows with
    | same clear => exact .same clear
    | stopped duplicate spoiled => exact .stopped duplicate nofun
  · cases follows with
    | same clear => exact (follows_commit rules after file isRoot).after clear keeps later
    | stopped duplicate spoiled => exact .stop duplicate (spoiled rfl) later

/-! ## Loading files with their imports -/

theorem load_keeps :
    (∀ importers schema name result, rules.load resolver importers schema name = some result →
      schema.Keeps result.2) ∧
    ∀ importers file statements schema result,
      rules.loadImports resolver importers file statements schema = some result →
      schema.Keeps result.2 := by
  apply load_induction rules resolver
  case circular => exact fun _ schema _ _ => .refl schema
  case present => exact fun _ schema _ _ _ => .refl schema
  case unreadable => exact fun _ schema _ _ _ _ _ => .refl schema
  case importFailed => exact fun _ _ _ _ _ _ _ _ _ _ imports => imports
  case committed =>
    exact fun _ _ _ file after _ _ _ _ imports =>
      imports.trans (commit_keeps rules after file false)
  case finished => exact fun _ _ schema => .refl schema
  case failed => exact fun _ _ _ _ _ _ _ _ first => first
  case loaded => exact fun _ _ _ _ _ _ _ _ _ first rest => first.trans rest

/-- A loading ends as another one does, or at a duplicate name. -/
def EndsLike (lenient : Loading) (strict : Except LoadError Unit × Schema) : Prop :=
  lenient = some strict ∨ ∃ error, strict.1 = .error error ∧ error.IsDuplicate

theorem EndsLike.eq_of_ok {lenient : Loading} {after : Schema}
    (like : EndsLike lenient (.ok (), after)) : lenient = some (.ok (), after) := by
  rcases like with same | ⟨error, failed, -⟩
  · exact same
  · cases failed

theorem Follows.endsLike {before : Schema} {lenient strict : Except LoadError Unit × Schema}
    (follows : Follows before lenient strict) : EndsLike (some lenient) strict := by
  cases follows with
  | same _ => exact .inl rfl
  | stopped duplicate _ => exact .inr ⟨_, rfl, duplicate⟩

theorem EndsLike.afterImports {lenient : Loading} {strict : Except LoadError Unit × Schema}
    (like : EndsLike lenient strict) (file : SourceFile) (isRoot : Bool) :
    EndsLike (lenient.map ((rules.setStrict false).afterImports file isRoot))
      ((rules.setStrict true).afterImports file isRoot strict) := by
  rcases strict with ⟨error | _, after⟩
  · rcases like with rfl | duplicate
    · exact .inl rfl
    · exact .inr duplicate
  · rw [like.eq_of_ok]
    exact (follows_commit rules after file isRoot).endsLike

/-- Strict loading ends as the other one does, or at a duplicate name. -/
theorem load_endsLike :
    (∀ importers schema name result,
      (rules.setStrict true).load resolver importers schema name = some result →
      EndsLike ((rules.setStrict false).load resolver importers schema name) result) ∧
    ∀ importers file statements schema result,
      (rules.setStrict true).loadImports resolver importers file statements schema =
        some result →
      EndsLike ((rules.setStrict false).loadImports resolver importers file statements schema)
        result := by
  apply load_induction (rules.setStrict true) resolver
  case circular => exact fun _ _ _ cyclic => .inl (load_of_cyclic cyclic)
  case present => exact fun _ _ _ noCycle known => .inl (load_of_present noCycle known)
  case unreadable =>
    exact fun _ _ _ _ noCycle fresh opened => .inl (load_of_unreadable noCycle fresh opened)
  case importFailed =>
    intro importers schema name file error after noCycle fresh opened run imports
    rw [load_of_fresh noCycle fresh opened]
    exact imports.afterImports file false
  case committed =>
    intro importers schema name file after noCycle fresh opened run imports
    rw [load_of_fresh noCycle fresh opened]
    exact imports.afterImports file false
  case finished => exact fun _ file _ => .inl (loadImports_nil file)
  case failed =>
    intro importers file statement statements schema error after run first
    rcases first with same | ⟨fault, failed, duplicate⟩
    · exact .inl (loadImports_of_error statements same)
    · cases failed
      exact .inr ⟨error, by rw [duplicate.ofImport_eq], duplicate⟩
  case loaded =>
    intro importers file statement statements schema middle result run restRun first rest
    rwa [loadImports_of_ok first.eq_of_ok]

/-- What strict loading comes to follows what the other one comes to. -/
theorem load_follows :
    (∀ importers schema name result,
      (rules.setStrict false).load resolver importers schema name = some result →
      ∃ strict, (rules.setStrict true).load resolver importers schema name = some strict ∧
        Follows schema result strict) ∧
    ∀ importers file statements schema result,
      (rules.setStrict false).loadImports resolver importers file statements schema =
        some result →
      ∃ strict, (rules.setStrict true).loadImports resolver importers file statements schema =
          some strict ∧ Follows schema result strict := by
  apply load_induction (rules.setStrict false) resolver
  case circular =>
    intro importers schema name cyclic
    exact ⟨_, load_of_cyclic cyclic, .same (.refl schema)⟩
  case present =>
    intro importers schema name noCycle known
    exact ⟨_, load_of_present noCycle known, .same (.refl schema)⟩
  case unreadable =>
    intro importers schema name error noCycle fresh opened
    exact ⟨_, load_of_unreadable noCycle fresh opened, .same (.refl schema)⟩
  case importFailed =>
    intro importers schema name file error after noCycle fresh opened run imports
    rcases imports with ⟨strict, strictRun, follows⟩
    rw [load_of_fresh noCycle fresh opened, strictRun]
    exact ⟨_, rfl, follows.afterImports (load_keeps.2 _ _ _ _ _ run) file false⟩
  case committed =>
    intro importers schema name file after noCycle fresh opened run imports
    rcases imports with ⟨strict, strictRun, follows⟩
    rw [load_of_fresh noCycle fresh opened, strictRun]
    exact ⟨_, rfl, follows.afterImports (load_keeps.2 _ _ _ _ _ run) file false⟩
  case finished =>
    intro importers file schema
    exact ⟨_, loadImports_nil file, .same (.refl schema)⟩
  case failed =>
    intro importers file statement statements schema error after run first
    rcases first with ⟨strict, strictRun, follows⟩
    cases follows with
    | same clear => exact ⟨_, loadImports_of_error statements strictRun, .same clear⟩
    | stopped duplicate spoiled =>
        refine ⟨_, loadImports_of_error statements strictRun, ?_⟩
        rw [duplicate.ofImport_eq]
        exact .stopped duplicate nofun
  case loaded =>
    intro importers file statement statements schema middle result run restRun first rest
    rcases first with ⟨strict, strictRun, follows⟩
    have keeps := load_keeps.1 _ _ _ _ run
    have later := load_keeps.2 _ _ _ _ _ restRun
    cases follows with
    | same clear =>
        rcases rest with ⟨last, lastRun, lastFollows⟩
        refine ⟨last, ?_, lastFollows.after clear keeps later⟩
        rw [loadImports_of_ok strictRun, lastRun]
    | stopped duplicate spoiled =>
        refine ⟨_, loadImports_of_error statements strictRun, ?_⟩
        rw [duplicate.ofImport_eq]
        exact .stop duplicate (spoiled rfl) later

theorem loadRoot_endsLike {schema : Schema} {name : String} {file : SourceFile}
    {result : Except LoadError Unit × Schema}
    (run : (rules.setStrict true).loadRoot resolver schema name file = some result) :
    EndsLike ((rules.setStrict false).loadRoot resolver schema name file) result := by
  rw [loadRoot_eq, Option.map_eq_some_iff] at run
  rcases run with ⟨strict, importsRun, rfl⟩
  rw [loadRoot_eq]
  exact (load_endsLike.2 _ _ _ _ _ importsRun).afterImports file true

theorem loadRoot_follows {schema : Schema} {name : String} {file : SourceFile}
    {result : Except LoadError Unit × Schema}
    (run : (rules.setStrict false).loadRoot resolver schema name file = some result) :
    ∃ strict, (rules.setStrict true).loadRoot resolver schema name file = some strict ∧
      Follows schema result strict := by
  rw [loadRoot_eq, Option.map_eq_some_iff] at run
  rcases run with ⟨imports, importsRun, rfl⟩
  rcases load_follows.2 _ _ _ _ _ importsRun with ⟨strict, strictRun, follows⟩
  rw [loadRoot_eq, strictRun]
  exact ⟨_, rfl, follows.afterImports (load_keeps.2 _ _ _ _ _ importsRun) file true⟩

end Rules

end ProtoSchema
