import ProtoSchema.Proofs.Compiler.Settled
import ProtoSchema.Schema.Query
/-! # What files see

Which files decide what a name means in a file: those that it reaches by public imports,
and those that these reach by one other import and then public imports again. Within
them the file itself comes first, and its public imports come before its others.
-/

namespace ProtoSchema.Schema

/-! ## Imports as a relation -/

/-- A file imports another one publicly. -/
def PublicImport (schema : Schema) (id next : FileId) : Prop :=
  ∃ loaded statement, schema.files[id]? = some loaded ∧
    statement ∈ loaded.file.imports ∧ statement.kind = .reexport ∧ statement.file = some next

/-- A file imports another one with a plain or a weak import. -/
def PrivateImport (schema : Schema) (id next : FileId) : Prop :=
  ∃ loaded statement, schema.files[id]? = some loaded ∧
    statement ∈ loaded.file.imports ∧ statement.kind ≠ .reexport ∧ statement.file = some next

/-- A file reaches another one by any number of public imports. -/
abbrev Reaches (schema : Schema) : FileId → FileId → Prop :=
  Relation.ReflTransGen schema.PublicImport

/-- The names of a source can be used in a file. -/
def Sees (schema : Schema) (id source : FileId) : Prop :=
  ∃ between, schema.Reaches id between ∧
    (source = between ∨
      ∃ next, schema.PrivateImport between next ∧ schema.Reaches next source)

/-- A file declares something with a full name. -/
def Declares (schema : Schema) (source : FileId) (name : String) : Prop :=
  ∃ target, target.file = source ∧ schema.fullName? target = some name

/-! ## Imports of settled files -/

namespace Settled

variable {Opened : SourceFile → Prop} {schema : Schema}

theorem publicImport_iff (settled : schema.Settled Opened) {id next : FileId}
    {loaded : LoadedFile} (present : schema.files[id]? = some loaded) :
    schema.PublicImport id next ↔ next ∈ loaded.reexports := by
  rcases settled.files present with ⟨file, -, own⟩
  rw [own.reexports_eq, List.mem_filterMap]
  constructor
  · rintro ⟨other, statement, held, member, kind, link⟩
    rw [present] at held
    cases held
    exact ⟨statement, List.mem_filter.mpr ⟨member, by simp [Import.isReexport, kind]⟩, link⟩
  · rintro ⟨statement, member, link⟩
    rcases List.mem_filter.mp member with ⟨member, kind⟩
    exact ⟨loaded, statement, present, member, by simpa [Import.isReexport] using kind, link⟩

theorem privateImport_iff (settled : schema.Settled Opened) {id next : FileId}
    {loaded : LoadedFile} (present : schema.files[id]? = some loaded) :
    schema.PrivateImport id next ↔ next ∈ loaded.privates := by
  rcases settled.files present with ⟨file, -, own⟩
  rw [own.privates_eq, List.mem_filterMap]
  constructor
  · rintro ⟨other, statement, held, member, kind, link⟩
    rw [present] at held
    cases held
    exact ⟨statement, List.mem_filter.mpr ⟨member, by simp [Import.isReexport, kind]⟩, link⟩
  · rintro ⟨statement, member, link⟩
    rcases List.mem_filter.mp member with ⟨member, kind⟩
    exact ⟨loaded, statement, present, member, by simpa [Import.isReexport] using kind, link⟩

theorem publicImport_lt (settled : schema.Settled Opened) {id next : FileId}
    (edge : schema.PublicImport id next) : next < id ∧ id < schema.files.size := by
  rcases edge with ⟨loaded, statement, present, member, kind, link⟩
  have listed := (settled.publicImport_iff present).mp
    ⟨loaded, statement, present, member, kind, link⟩
  exact ⟨settled.ordered.reexport_lt present next listed, lt_size_of_getElem? present⟩

theorem privateImport_lt (settled : schema.Settled Opened) {id next : FileId}
    (edge : schema.PrivateImport id next) : next < id ∧ id < schema.files.size := by
  rcases edge with ⟨loaded, statement, present, member, kind, link⟩
  have listed := (settled.privateImport_iff present).mp
    ⟨loaded, statement, present, member, kind, link⟩
  exact ⟨settled.ordered.private_lt present next listed, lt_size_of_getElem? present⟩

/-! ## Own declarations -/

theorem declares_of_find? (settled : schema.Settled Opened) {id : FileId} {loaded : LoadedFile}
    (present : schema.files[id]? = some loaded) {name : String} {target : UserType}
    (found : loaded.symbols.find? name = some target) :
    target.file = id ∧ schema.fullName? target = some name := by
  rcases settled.files present with ⟨file, -, own⟩
  exact own.fullName?_of_find? present found

/-- A file that declares a name is in the schema and finds the name. -/
theorem find?_of_declares (settled : schema.Settled Opened) {id : FileId} {name : String}
    (declares : schema.Declares id name) :
    ∃ loaded target, schema.files[id]? = some loaded ∧
      loaded.symbols.find? name = some target := by
  rcases declares with ⟨target, rfl, named⟩
  have present := Array.getElem?_eq_getElem (lt_size_of_fullName? named)
  rcases settled.files present with ⟨file, -, own⟩
  rcases Option.isSome_iff_exists.mp (own.isSome_find?_of_fullName? present named) with
    ⟨found, equal⟩
  exact ⟨_, found, present, equal⟩

/-! ## Names that are passed on -/

/-- A name that a file passes on is found in a file that it reaches. -/
theorem find?_of_passedOn? (settled : schema.Settled Opened) {id : FileId} {name : String}
    {target : UserType} (found : schema.passedOn? id name = some target) :
    schema.Reaches id target.file ∧ ∃ loaded, schema.files[target.file]? = some loaded ∧
      loaded.symbols.find? name = some target := by
  induction id using Nat.strongRecOn with
  | ind id induction =>
      cases present : schema.files[id]? with
      | none =>
          rw [passedOn?, present] at found
          cases found
      | some loaded =>
          rw [passedOn?_of_getElem? settled.ordered present, Option.or_eq_some_iff] at found
          rcases found with own | ⟨-, reexported⟩
          · rcases settled.declares_of_find? present own with ⟨rfl, -⟩
            exact ⟨.refl, loaded, present, own⟩
          · rcases List.exists_of_findSome?_eq_some reexported with ⟨next, member, found⟩
            have edge := (settled.publicImport_iff present).mpr member
            rcases induction next (settled.publicImport_lt edge).1 found with ⟨reaches, inFile⟩
            exact ⟨.head edge reaches, inFile⟩

theorem isSome_passedOn?_of_reaches (settled : schema.Settled Opened) {id source : FileId}
    {name : String} (reaches : schema.Reaches id source) (declares : schema.Declares source name) :
    (schema.passedOn? id name).isSome := by
  induction reaches using Relation.ReflTransGen.head_induction_on with
  | refl =>
      rcases settled.find?_of_declares declares with ⟨loaded, target, present, found⟩
      rw [passedOn?_of_getElem? settled.ordered present, found, Option.some_or,
        Option.isSome_some]
  | head edge _ induction =>
      rcases edge with ⟨loaded, statement, present, member, kind, link⟩
      have listed := (settled.publicImport_iff present).mp
        ⟨loaded, statement, present, member, kind, link⟩
      rw [passedOn?_of_getElem? settled.ordered present, Option.isSome_or, Bool.or_eq_true]
      right
      rw [List.isSome_findSome?, List.any_eq_true]
      exact ⟨_, listed, induction⟩

/-! ## Names that are seen -/

theorem sees_self (id : FileId) : schema.Sees id id :=
  ⟨id, .refl, .inl rfl⟩

theorem sees_of_publicImport {id next source : FileId} (edge : schema.PublicImport id next)
    (sees : schema.Sees next source) : schema.Sees id source := by
  rcases sees with ⟨between, reaches, rest⟩
  exact ⟨between, .head edge reaches, rest⟩

/-- A name that a file sees is found in the file of its declaration. -/
theorem find?_of_visible? (settled : schema.Settled Opened) {id : FileId} {name : String}
    {target : UserType} (found : schema.visible? id name = some target) :
    schema.Sees id target.file ∧ ∃ loaded, schema.files[target.file]? = some loaded ∧
      loaded.symbols.find? name = some target := by
  induction id using Nat.strongRecOn with
  | ind id induction =>
      cases present : schema.files[id]? with
      | none =>
          rw [visible?, present] at found
          cases found
      | some loaded =>
          rw [visible?_of_getElem? settled.ordered present, seenBy?_eq, Option.or_eq_some_iff,
            Option.or_eq_some_iff] at found
          rcases found with own | ⟨-, reexported | ⟨-, imported⟩⟩
          · rcases settled.declares_of_find? present own with ⟨rfl, -⟩
            exact ⟨sees_self target.file, loaded, present, own⟩
          · rcases List.exists_of_findSome?_eq_some reexported with ⟨next, member, found⟩
            have edge := (settled.publicImport_iff present).mpr member
            rcases induction next (settled.publicImport_lt edge).1 found with ⟨sees, inFile⟩
            exact ⟨sees_of_publicImport edge sees, inFile⟩
          · rcases List.exists_of_findSome?_eq_some imported with ⟨next, member, found⟩
            have edge := (settled.privateImport_iff present).mpr member
            rcases settled.find?_of_passedOn? found with ⟨reaches, inFile⟩
            exact ⟨⟨id, .refl, .inr ⟨next, edge, reaches⟩⟩, inFile⟩

theorem sees_of_visible? (settled : schema.Settled Opened) {id : FileId} {name : String}
    {target : UserType} (found : schema.visible? id name = some target) :
    schema.Sees id target.file ∧ schema.fullName? target = some name := by
  rcases settled.find?_of_visible? found with ⟨sees, loaded, present, own⟩
  exact ⟨sees, (settled.declares_of_find? present own).2⟩

theorem isSome_visible?_of_sees (settled : schema.Settled Opened) {id source : FileId}
    {name : String} (sees : schema.Sees id source) (declares : schema.Declares source name) :
    (schema.visible? id name).isSome := by
  rcases sees with ⟨between, reaches, last⟩
  induction reaches using Relation.ReflTransGen.head_induction_on with
  | refl =>
      rcases last with rfl | ⟨next, edge, reaches⟩
      · rcases settled.find?_of_declares declares with ⟨loaded, target, present, found⟩
        rw [visible?_of_getElem? settled.ordered present, seenBy?_eq, found, Option.some_or,
          Option.isSome_some]
      · rcases edge with ⟨loaded, statement, present, member, kind, link⟩
        have listed := (settled.privateImport_iff present).mp
          ⟨loaded, statement, present, member, kind, link⟩
        rw [visible?_of_getElem? settled.ordered present, seenBy?_eq, Option.isSome_or,
          Option.isSome_or, Bool.or_eq_true, Bool.or_eq_true]
        right; right
        rw [List.isSome_findSome?, List.any_eq_true]
        exact ⟨next, listed, settled.isSome_passedOn?_of_reaches reaches declares⟩
  | head edge _ induction =>
      rcases edge with ⟨loaded, statement, present, member, kind, link⟩
      have listed := (settled.publicImport_iff present).mp
        ⟨loaded, statement, present, member, kind, link⟩
      rw [visible?_of_getElem? settled.ordered present, seenBy?_eq, Option.isSome_or,
        Option.isSome_or, Bool.or_eq_true, Bool.or_eq_true]
      right; left
      rw [List.isSome_findSome?, List.any_eq_true]
      exact ⟨_, listed, induction⟩

/-! ## Precedence -/

theorem file_eq_of_declares (settled : schema.Settled Opened) {id : FileId} {name : String}
    {target : UserType} (declares : schema.Declares id name)
    (found : schema.visible? id name = some target) : target.file = id := by
  rcases settled.find?_of_declares declares with ⟨loaded, own, present, first⟩
  rw [visible?_of_getElem? settled.ordered present, seenBy?_eq, first, Option.some_or] at found
  cases found
  exact (settled.declares_of_find? present first).1

/-- What is seen through public imports hides what is seen through the others. -/
theorem sees_publicly (settled : schema.Settled Opened) {id next source : FileId}
    {name : String} {target : UserType} (edge : schema.PublicImport id next)
    (sees : schema.Sees next source) (declares : schema.Declares source name)
    (found : schema.visible? id name = some target) :
    target.file = id ∨ ∃ next, schema.PublicImport id next ∧ schema.Sees next target.file := by
  rcases edge with ⟨loaded, statement, present, member, kind, link⟩
  have listed := (settled.publicImport_iff present).mp
    ⟨loaded, statement, present, member, kind, link⟩
  have reexported : (loaded.reexports.findSome? fun next => schema.visible? next name).isSome := by
    rw [List.isSome_findSome?, List.any_eq_true]
    exact ⟨next, listed, settled.isSome_visible?_of_sees sees declares⟩
  rcases Option.isSome_iff_exists.mp reexported with ⟨first, equal⟩
  rw [visible?_of_getElem? settled.ordered present, seenBy?_eq, equal, Option.some_or,
    Option.or_eq_some_iff] at found
  rcases found with own | ⟨-, found⟩
  · exact .inl (settled.declares_of_find? present own).1
  · cases found
    rcases List.exists_of_findSome?_eq_some equal with ⟨between, member, found⟩
    exact .inr ⟨between, (settled.publicImport_iff present).mpr member,
      (settled.sees_of_visible? found).1⟩

end Settled

/-! ## Resolution -/

/-- What a name means in a file is decided by the files that the file sees, and finding
it out follows imports to smaller numbers only. -/
structure ResolvesBySight (schema : Schema) : Prop where
  isSome_iff : ∀ id name, (schema.resolve id name).isSome ↔
    ∃ source, schema.Sees id source ∧ schema.Declares source (qualify name)
  sound : ∀ id name target, schema.resolve id name = some target →
    schema.Sees id target.file ∧ schema.fullName? target = some (qualify name)
  own_first : ∀ id name target, schema.Declares id (qualify name) →
    schema.resolve id name = some target → target.file = id
  public_first : ∀ id next source name target, schema.PublicImport id next →
    schema.Sees next source → schema.Declares source (qualify name) →
    schema.resolve id name = some target →
    target.file = id ∨ ∃ next, schema.PublicImport id next ∧ schema.Sees next target.file
  imports_earlier : ∀ id next, schema.PublicImport id next ∨ schema.PrivateImport id next →
    next < id ∧ id < schema.files.size
  visible?_eq : ∀ id loaded name, schema.files[id]? = some loaded →
    schema.visible? id name =
      (loaded.symbols.find? name).or
        ((loaded.reexports.findSome? fun next => schema.visible? next name).or
          (loaded.privates.findSome? fun next => schema.passedOn? next name)) ∧
    schema.passedOn? id name =
      (loaded.symbols.find? name).or
        (loaded.reexports.findSome? fun next => schema.passedOn? next name) ∧
    ∀ next ∈ loaded.reexports ++ loaded.privates, next < id

theorem Settled.resolvesBySight {Opened : SourceFile → Prop} {schema : Schema}
    (settled : schema.Settled Opened) : schema.ResolvesBySight where
  isSome_iff id name := by
    constructor
    · intro found
      rcases Option.isSome_iff_exists.mp found with ⟨target, found⟩
      rcases settled.sees_of_visible? found with ⟨sees, named⟩
      exact ⟨target.file, sees, target, rfl, named⟩
    · rintro ⟨source, sees, declares⟩
      exact settled.isSome_visible?_of_sees sees declares
  sound id name target found := settled.sees_of_visible? found
  own_first id name target declares found := settled.file_eq_of_declares declares found
  public_first id next source name target edge sees declares found :=
    settled.sees_publicly edge sees declares found
  imports_earlier id next edge := by
    rcases edge with edge | edge
    · exact settled.publicImport_lt edge
    · exact settled.privateImport_lt edge
  visible?_eq id loaded name present := by
    refine ⟨?_, passedOn?_of_getElem? settled.ordered present name, fun next member => ?_⟩
    · rw [visible?_of_getElem? settled.ordered present, seenBy?_eq]
    · rcases List.mem_append.mp member with member | member
      · exact settled.ordered.reexport_lt present next member
      · exact settled.ordered.private_lt present next member

/-- In every session names mean what the import statements of the files make them
mean. -/
theorem resolvesBySight_run (resolver : Resolver) (operations : List Operation) :
    (Session.run resolver operations).compiler.schema.ResolvesBySight :=
  (settled_run resolver operations).resolvesBySight

end ProtoSchema.Schema
