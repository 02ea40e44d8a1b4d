import ProtoSchema.Proofs.Schema.ImportOrder
/-! # Adding one file

When a file can be added, and what it looks like in the schema then.
-/

namespace ProtoSchema

namespace Link

/-! ## Registered names -/

/-- The entry of a name in a symbol table. -/
def entryOf (declared : DeclaredName) : String × UserType :=
  (declared.fullName, declared.target)

theorem registerName_eq_ok {schema : Schema} {strict : Bool} {loaded registered : LoadedFile}
    {declared : DeclaredName}
    (result : registerName schema strict loaded declared = .ok registered) :
    ∃ conflicts, registered =
      { loaded with symbols := ⟨entryOf declared :: loaded.symbols.entries, conflicts⟩ } := by
  rw [registerName.eq_def] at result
  dsimp only at result
  split at result
  · cases result
  · cases result
    exact ⟨_, rfl⟩

/-- Registration changes the symbol table only, in which the newest name comes first. -/
theorem registerNames_eq_ok {schema : Schema} {strict : Bool} {loaded registered : LoadedFile}
    {names : List DeclaredName}
    (result : registerNames schema strict loaded names = .ok registered) :
    ∃ conflicts, registered =
      { loaded with
        symbols := ⟨(names.map entryOf).reverse ++ loaded.symbols.entries, conflicts⟩ } := by
  induction names generalizing loaded with
  | nil =>
      cases result
      exact ⟨registered.symbols.conflicts, rfl⟩
  | cons declared names induction =>
      rw [registerNames, List.foldlM_cons] at result
      cases first : registerName schema strict loaded declared with
      | error error =>
          rw [first] at result
          cases result
      | ok middle =>
          rw [first] at result
          rcases registerName_eq_ok first with ⟨conflicts, rfl⟩
          rcases induction result with ⟨conflicts, rfl⟩
          exact ⟨conflicts, by simp⟩

end Link

namespace Rules

/-! ## Linked files -/

/-- The draft of a file at a place of a schema. -/
def draftOf (id : FileId) (file : SourceFile) : Draft :=
  Draft.ofTree id file.name file.source file.tree

/-- A file as the next one of a schema, which has its imports: the imports are found by
name, and the names of the file are registered. -/
structure Registered (schema : Schema) (id : FileId) (file : SourceFile)
    (loaded : LoadedFile) : Prop where
  imports_eq : loaded.file.imports = (draftOf id file).file.imports.map
    fun statement => { statement with file := schema.fileNamed? statement.name }
  reexports_eq : loaded.reexports =
    (loaded.file.imports.filter Import.isReexport).filterMap Import.file
  privates_eq : loaded.privates =
    (loaded.file.imports.filter fun statement => !statement.isReexport).filterMap Import.file
  entries_eq : loaded.symbols.entries = ((draftOf id file).names.map Link.entryOf).reverse

/-- What linking a file, the imports of which are in the schema, has made of it. -/
structure LinkedAs (schema : Schema) (file : SourceFile) (isRoot : Bool)
    (loaded : LoadedFile) : Prop extends Registered schema schema.files.size file loaded where
  file_eq : loaded.file = Link.linkAll (schema.seenBy? loaded)
    { (draftOf schema.files.size file).file with imports := loaded.file.imports }
  references_sound : (draftOf schema.files.size file).references.findSome?
    (Link.referenceError? (schema.seenBy? loaded)) = none
  extended_eq : loaded.extended = extendedNames (schema.push loaded) loaded.file
  isRoot_eq : loaded.isRoot = isRoot
  path_eq : loaded.path = file.path
  source_eq : loaded.source = file.source

/-- The extend blocks are listed by what the files of a schema declare. -/
theorem extendedNames_congr {left right : Schema} (same : left.file? = right.file?)
    (file : ProtoFile) : extendedNames left file = extendedNames right file := by
  have sameMessage : left.message? = right.message? := by
    funext id
    rw [Schema.message?, Schema.message?, same]
  rw [extendedNames, extendedNames, sameMessage]

theorem extendedNames_push_extended (schema : Schema) (loaded : LoadedFile)
    (extended : List (String × ExtensionId)) :
    extendedNames (schema.push { loaded with extended }) loaded.file =
      extendedNames (schema.push loaded) loaded.file := by
  have same := @Schema.file?_push_congr schema { loaded with extended } loaded rfl
  exact extendedNames_congr same loaded.file

/-- A file whose imports are in the schema, with the number that it is going to get. -/
def nextDraft (schema : Schema) (file : SourceFile) (isRoot : Bool) : LoadedFile :=
  draftLoaded schema file isRoot (draftOf schema.files.size file)

/-- Linking a file whose names have been registered. -/
def linkRegistered (schema : Schema) (file : SourceFile) (registered : LoadedFile) :
    Except CheckError LoadedFile := do
  let linked ← Link.linkFile (schema.seenBy? registered)
    (draftOf schema.files.size file).references registered.file
  return { registered with
    file := linked
    extended := extendedNames (schema.push { registered with file := linked }) linked }

theorem link_eq (rules : Rules) (schema : Schema) (file : SourceFile) (isRoot : Bool) :
    rules.link schema file isRoot =
      (Link.registerNames schema rules.strictNames (nextDraft schema file isRoot)
        (draftOf schema.files.size file).names).bind (linkRegistered schema file) :=
  rfl

/-- What is wrong with the references of a registered file. -/
def referenceError? (schema : Schema) (id : FileId) (file : SourceFile)
    (registered : LoadedFile) : Option CheckError :=
  (draftOf id file).references.findSome? (Link.referenceError? (schema.seenBy? registered))

theorem linkRegistered_of_error {schema : Schema} {file : SourceFile} {registered : LoadedFile}
    {error : CheckError}
    (wrong : referenceError? schema schema.files.size file registered = some error) :
    linkRegistered schema file registered = .error error := by
  rw [referenceError?] at wrong
  simp [linkRegistered, Link.linkFile, wrong, bind, Except.bind]

/-- A registered file can be linked if nothing is wrong with its references. -/
theorem linkRegistered_eq_ok_iff {schema : Schema} {file : SourceFile}
    {registered loaded : LoadedFile} :
    linkRegistered schema file registered = .ok loaded ↔
      referenceError? schema schema.files.size file registered = none ∧
        loaded =
          { registered with
            file := Link.linkAll (schema.seenBy? registered) registered.file
            extended := extendedNames
              (schema.push
                { registered with
                  file := Link.linkAll (schema.seenBy? registered) registered.file })
              (Link.linkAll (schema.seenBy? registered) registered.file) } := by
  cases wrong : referenceError? schema schema.files.size file registered with
  | some error => simp [linkRegistered_of_error wrong]
  | none =>
      rw [referenceError?] at wrong
      simp [linkRegistered, Link.linkFile, wrong, bind, Except.bind, pure, Except.pure, eq_comm]

theorem link_eq_ok {rules : Rules} {schema : Schema} {file : SourceFile} {isRoot : Bool}
    {loaded : LoadedFile} (result : rules.link schema file isRoot = .ok loaded) :
    LinkedAs schema file isRoot loaded := by
  rw [link_eq] at result
  cases registration : Link.registerNames schema rules.strictNames
      (nextDraft schema file isRoot) (draftOf schema.files.size file).names with
  | error error =>
      rw [registration] at result
      cases result
  | ok registered =>
      rw [registration] at result
      rcases linkRegistered_eq_ok_iff.mp result with ⟨sound, rfl⟩
      rcases Link.registerNames_eq_ok registration with ⟨conflicts, rfl⟩
      exact
        { file_eq := rfl
          references_sound := sound
          imports_eq := rfl
          reexports_eq := rfl
          privates_eq := rfl
          entries_eq := by simp [nextDraft, draftLoaded]
          extended_eq := (extendedNames_push_extended schema _ _).symm
          isRoot_eq := rfl
          path_eq := rfl
          source_eq := rfl }

/-! ## Additions -/

theorem mapError_ok {error other value : Type} (change : error → other) (result : value) :
    (Except.ok result).mapError change = .ok result :=
  rfl

theorem mapError_error {error other value : Type} (change : error → other) (fault : error) :
    (Except.error fault : Except error value).mapError change = .error (change fault) :=
  rfl

theorem forM_eq_ok_iff {error value : Type} {check : value → Except error Unit}
    {values : List value} :
    values.forM check = .ok () ↔ ∀ value ∈ values, check value = .ok () := by
  induction values with
  | nil => simp [List.forM, pure, Except.pure]
  | cons value values induction =>
      rw [List.forM, List.forall_mem_cons, ← induction]
      cases check value <;> simp [bind, Except.bind]

/-- A file is added if it can be linked and every validator lets it pass. -/
theorem add_eq_ok_iff {rules : Rules} {schema next : Schema} {file : SourceFile}
    {isRoot : Bool} :
    rules.add schema file isRoot = .ok next ↔
      ∃ loaded, rules.link schema file isRoot = .ok loaded ∧
        (∀ validator ∈ rules.validators,
          validator (schema.push loaded) schema.files.size = .ok ()) ∧
        next = schema.push { loaded with isComplete := true } := by
  rw [add]
  cases rules.link schema file isRoot with
  | error error => simp [bind, Except.bind, mapError_error]
  | ok loaded =>
      have validation := @forM_eq_ok_iff _ _
        (fun validator : Validator => validator (schema.push loaded) schema.files.size)
        rules.validators
      simp only [bind, Except.bind, mapError_ok, Except.ok.injEq]
      cases outcome : rules.validators.forM fun validator : Validator =>
          validator (schema.push loaded) schema.files.size with
      | error error =>
          rw [outcome] at validation
          have rejected : ¬∀ validator ∈ rules.validators,
              validator (schema.push loaded) schema.files.size = .ok () := by
            simpa using validation
          simp [rejected]
      | ok _ =>
          have accepted := validation.mp outcome
          simp only [pure, Except.pure, Except.ok.injEq, exists_eq_left']
          exact ⟨fun equal => ⟨accepted, equal.symm⟩, fun both => both.2.symm⟩

theorem add_of_link_eq_error {rules : Rules} {schema : Schema} {file : SourceFile}
    {isRoot : Bool} {error : CheckError} (link : rules.link schema file isRoot = .error error) :
    rules.add schema file isRoot = .error (.check error file.name file.source) := by
  rw [add, link]
  rfl

/-- After linking, the validators decide. -/
theorem add_of_link_eq_ok {rules : Rules} {schema : Schema} {file : SourceFile} {isRoot : Bool}
    {loaded : LoadedFile} (link : rules.link schema file isRoot = .ok loaded) :
    (rules.add schema file isRoot).map (fun _ => ()) =
      rules.validators.forM fun validator => validator (schema.push loaded) schema.files.size := by
  rw [add, link]
  simp only [mapError_ok, bind, Except.bind]
  cases rules.validators.forM fun validator : Validator =>
      validator (schema.push loaded) schema.files.size <;> rfl

theorem exists_of_forM_eq_error {error value : Type} {check : value → Except error Unit}
    {values : List value} {fault : error} (failed : values.forM check = .error fault) :
    ∃ value ∈ values, check value = .error fault := by
  induction values with
  | nil => cases failed
  | cons value values induction =>
      rw [List.forM] at failed
      cases first : check value with
      | error other =>
          rw [first] at failed
          cases failed
          exact ⟨value, List.mem_cons_self, first⟩
      | ok _ =>
          rw [first] at failed
          rcases induction failed with ⟨later, member, found⟩
          exact ⟨later, List.mem_cons_of_mem value member, found⟩

/-- A file that is not added cannot be linked, or a validator rejects it. -/
theorem add_eq_error {rules : Rules} {schema : Schema} {file : SourceFile} {isRoot : Bool}
    {error : LoadError} (failed : rules.add schema file isRoot = .error error) :
    (∃ fault, rules.link schema file isRoot = .error fault ∧
      error = .check fault file.name file.source) ∨
    ∃ loaded, rules.link schema file isRoot = .ok loaded ∧
      ∃ validator ∈ rules.validators,
        validator (schema.push loaded) schema.files.size = .error error := by
  cases link : rules.link schema file isRoot with
  | error fault =>
      rw [add_of_link_eq_error link] at failed
      cases failed
      exact .inl ⟨fault, rfl, rfl⟩
  | ok loaded =>
      have judged := add_of_link_eq_ok link
      rw [failed] at judged
      exact .inr ⟨loaded, rfl, exists_of_forM_eq_error judged.symm⟩

theorem LinkedAs.name_eq {schema : Schema} {file : SourceFile} {isRoot : Bool}
    {loaded : LoadedFile} (linked : LinkedAs schema file isRoot loaded) :
    loaded.file.name = file.name := by
  rw [linked.file_eq]
  rfl

theorem LinkedAs.id_eq {schema : Schema} {file : SourceFile} {isRoot : Bool}
    {loaded : LoadedFile} (linked : LinkedAs schema file isRoot loaded) :
    loaded.file.id = schema.files.size := by
  rw [linked.file_eq]
  rfl

/-- A linked file stays so when it is complete. -/
theorem LinkedAs.complete {schema : Schema} {file : SourceFile} {isRoot : Bool}
    {loaded : LoadedFile} (linked : LinkedAs schema file isRoot loaded) :
    LinkedAs schema file isRoot { loaded with isComplete := true } where
  imports_eq := linked.imports_eq
  reexports_eq := linked.reexports_eq
  privates_eq := linked.privates_eq
  entries_eq := linked.entries_eq
  file_eq := linked.file_eq
  references_sound := linked.references_sound
  extended_eq := by
    have same := @Schema.file?_push_congr schema loaded { loaded with isComplete := true } rfl
    exact linked.extended_eq.trans (extendedNames_congr same loaded.file)
  isRoot_eq := linked.isRoot_eq
  path_eq := linked.path_eq
  source_eq := linked.source_eq

/-- The outcome of an addition that succeeds. -/
theorem exists_of_add_eq_ok {rules : Rules} {schema next : Schema} {file : SourceFile}
    {isRoot : Bool} (added : rules.add schema file isRoot = .ok next) :
    ∃ loaded, LinkedAs schema file isRoot loaded ∧ loaded.isComplete = true ∧
      next = schema.push loaded := by
  rcases add_eq_ok_iff.mp added with ⟨loaded, link, -, equal⟩
  exact ⟨{ loaded with isComplete := true }, (link_eq_ok link).complete, rfl, equal⟩

theorem commit_cases (rules : Rules) (schema : Schema) (file : SourceFile) (isRoot : Bool) :
    (∃ next, rules.add schema file isRoot = .ok next ∧
      rules.commit schema file isRoot = (.ok (), next)) ∨
    ∃ error, rules.add schema file isRoot = .error error ∧
      rules.commit schema file isRoot = (.error error, schema.forget file.name) := by
  rw [commit]
  cases rules.add schema file isRoot with
  | ok next => exact .inl ⟨next, rfl, rfl⟩
  | error error => exact .inr ⟨error, rfl, rfl⟩

end Rules

end ProtoSchema
