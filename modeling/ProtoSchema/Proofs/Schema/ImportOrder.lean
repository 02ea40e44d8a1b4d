import ProtoSchema.Proofs.Schema.Growth
/-! # Schemas in which imports come first

If every file comes after the files that it imports, both searches for the meaning of a
name follow every import there is: the test that keeps them from going on to later
files never fails. What a name means in a file then depends on the files up to it
only.
-/

namespace ProtoSchema

/-- Two searches that agree on every place find the same. -/
theorem findSome?_congr {α β : Type} {left right : α → Option β} {values : List α}
    (agree : ∀ value ∈ values, left value = right value) :
    values.findSome? left = values.findSome? right := by
  induction values with
  | nil => rfl
  | cons value values induction =>
      rw [List.findSome?_cons, List.findSome?_cons, agree value List.mem_cons_self,
        induction fun other member => agree other (List.mem_cons_of_mem value member)]

/-- What a file contributes to the searches: its names and its imports. -/
def LoadedFile.links (loaded : LoadedFile) : SymbolTable × List FileId × List FileId :=
  (loaded.symbols, loaded.reexports, loaded.privates)

namespace Schema

/-- Every import of a file has a smaller number than the file. -/
structure Ordered (schema : Schema) : Prop where
  reexport_lt : ∀ {id : FileId} {loaded : LoadedFile}, schema.files[id]? = some loaded →
    ∀ next ∈ loaded.reexports, next < id
  private_lt : ∀ {id : FileId} {loaded : LoadedFile}, schema.files[id]? = some loaded →
    ∀ next ∈ loaded.privates, next < id

/-! ## The searches without their tests -/

theorem passedOn?_of_getElem? {schema : Schema} (ordered : schema.Ordered) {id : FileId}
    {loaded : LoadedFile} (present : schema.files[id]? = some loaded) (name : String) :
    schema.passedOn? id name =
      (loaded.symbols.find? name).or
        (loaded.reexports.findSome? fun next => schema.passedOn? next name) := by
  have followed : (loaded.reexports.findSome? fun next =>
      if next < id then schema.passedOn? next name else none) =
      loaded.reexports.findSome? fun next => schema.passedOn? next name :=
    findSome?_congr fun next member => if_pos (ordered.reexport_lt present next member)
  rw [passedOn?]
  simp only [present, followed, Option.orElse_eq_orElse, Option.orElse_eq_or]

/-- A file of the schema sees what it would see as the next file. -/
theorem visible?_of_getElem? {schema : Schema} (ordered : schema.Ordered) {id : FileId}
    {loaded : LoadedFile} (present : schema.files[id]? = some loaded) (name : String) :
    schema.visible? id name = schema.seenBy? loaded name := by
  have followed : (loaded.reexports.findSome? fun next =>
      if next < id then schema.visible? next name else none) =
      loaded.reexports.findSome? fun next => schema.visible? next name :=
    findSome?_congr fun next member => if_pos (ordered.reexport_lt present next member)
  rw [visible?]
  simp only [present, followed, seenBy?, imported?]

theorem seenBy?_eq (schema : Schema) (loaded : LoadedFile) (name : String) :
    schema.seenBy? loaded name =
      (loaded.symbols.find? name).or
        ((loaded.reexports.findSome? fun next => schema.visible? next name).or
          (loaded.privates.findSome? fun next => schema.passedOn? next name)) := by
  simp [seenBy?, imported?]

/-! ## Where names are found -/

/-- Every name of a file means a declaration of the file. -/
def Owned (schema : Schema) : Prop :=
  ∀ (id : FileId) loaded, schema.files[id]? = some loaded →
    ∀ name target, loaded.symbols.find? name = some target → target.file = id

theorem file_le_of_passedOn? {schema : Schema} (owned : schema.Owned) {id : FileId}
    {name : String} {target : UserType} (found : schema.passedOn? id name = some target) :
    target.file ≤ id := by
  induction id using Nat.strongRecOn with
  | ind id induction =>
      rw [passedOn?] at found
      split at found
      · cases found
      next loaded present =>
        simp only [Option.orElse_eq_orElse, Option.orElse_eq_or, Option.or_eq_some_iff] at found
        rcases found with own | ⟨-, imported⟩
        · exact Nat.le_of_eq (owned id loaded present name target own)
        · rcases List.exists_of_findSome?_eq_some imported with ⟨next, -, found⟩
          split at found
          · next before =>
              exact Nat.le_of_lt (Nat.lt_of_le_of_lt (induction next before found) before)
          · cases found

/-- What a file sees is declared in it or in an earlier file. -/
theorem file_le_of_visible? {schema : Schema} (ordered : schema.Ordered) (owned : schema.Owned)
    {id : FileId} {name : String} {target : UserType}
    (found : schema.visible? id name = some target) : target.file ≤ id := by
  induction id using Nat.strongRecOn with
  | ind id induction =>
      cases present : schema.files[id]? with
      | none =>
          rw [visible?, present] at found
          cases found
      | some loaded =>
          rw [visible?_of_getElem? ordered present, seenBy?_eq, Option.or_eq_some_iff,
            Option.or_eq_some_iff] at found
          rcases found with own | ⟨-, reexported | ⟨-, imported⟩⟩
          · exact Nat.le_of_eq (owned id loaded present name target own)
          · rcases List.exists_of_findSome?_eq_some reexported with ⟨next, member, found⟩
            have before := ordered.reexport_lt present next member
            exact Nat.le_of_lt (Nat.lt_of_le_of_lt (induction next before found) before)
          · rcases List.exists_of_findSome?_eq_some imported with ⟨next, member, found⟩
            have before := ordered.private_lt present next member
            exact Nat.le_of_lt (Nat.lt_of_le_of_lt (file_le_of_passedOn? owned found) before)

theorem lt_size_of_visible? {schema : Schema} {id : FileId} {name : String} {target : UserType}
    (found : schema.visible? id name = some target) : id < schema.files.size := by
  rw [visible?] at found
  split at found
  · cases found
  · next present => exact lt_size_of_getElem? present

/-! ## One more file -/

theorem passedOn?_push_of_lt {schema : Schema} (loaded : LoadedFile) (name : String)
    (id : FileId) (earlier : id < schema.files.size) :
    (schema.push loaded).passedOn? id name = schema.passedOn? id name := by
  induction id using Nat.strongRecOn with
  | ind id induction =>
      rw [passedOn?, passedOn?, getElem?_push_of_lt schema loaded earlier]
      split
      · rfl
      · congr 1
        funext _
        refine findSome?_congr fun next _ => ?_
        split
        · next before => exact induction next before (Nat.lt_trans before earlier)
        · rfl

theorem visible?_push_of_lt {schema : Schema} (ordered : schema.Ordered) (loaded : LoadedFile)
    (name : String) (id : FileId) (earlier : id < schema.files.size) :
    (schema.push loaded).visible? id name = schema.visible? id name := by
  induction id using Nat.strongRecOn with
  | ind id induction =>
      have privatesKept : ∀ {own : LoadedFile}, schema.files[id]? = some own →
          (own.privates.findSome? fun next => (schema.push loaded).passedOn? next name) =
            own.privates.findSome? fun next => schema.passedOn? next name := by
        intro own present
        refine findSome?_congr fun next member => ?_
        exact passedOn?_push_of_lt loaded name next
          (Nat.lt_trans (ordered.private_lt present next member) earlier)
      have reexportsKept : ∀ {own : LoadedFile}, schema.files[id]? = some own →
          (own.reexports.findSome? fun next =>
            if next < id then (schema.push loaded).visible? next name else none) =
            own.reexports.findSome? fun next =>
              if next < id then schema.visible? next name else none := by
        intro own present
        refine findSome?_congr fun next _ => ?_
        split
        · next before => exact induction next before (Nat.lt_trans before earlier)
        · rfl
      rw [visible?, visible?, getElem?_push_of_lt schema loaded earlier]
      split
      · rfl
      · next own present => rw [reexportsKept present, privatesKept present]

/-- A file of which every import is in the schema sees there what it sees once another
file was added. -/
theorem seenBy?_push {schema : Schema} (ordered : schema.Ordered) (next own : LoadedFile)
    (reexports : ∀ id ∈ own.reexports, id < schema.files.size)
    (privates : ∀ id ∈ own.privates, id < schema.files.size) (name : String) :
    (schema.push next).seenBy? own name = schema.seenBy? own name := by
  rw [seenBy?_eq, seenBy?_eq,
    findSome?_congr fun id member =>
      visible?_push_of_lt ordered next name id (reexports id member),
    findSome?_congr fun id member => passedOn?_push_of_lt next name id (privates id member)]

theorem Ordered.push {schema : Schema} (ordered : schema.Ordered) {loaded : LoadedFile}
    (reexports : ∀ id ∈ loaded.reexports, id < schema.files.size)
    (privates : ∀ id ∈ loaded.privates, id < schema.files.size) :
    (schema.push loaded).Ordered where
  reexport_lt present := by
    rcases getElem?_push_cases present with present | ⟨rfl, rfl⟩
    · exact ordered.reexport_lt present
    · exact reexports
  private_lt present := by
    rcases getElem?_push_cases present with present | ⟨rfl, rfl⟩
    · exact ordered.private_lt present
    · exact privates

/-! ## Marks and forgotten names -/

theorem passedOn?_congr {left right : Schema}
    (same : ∀ id : FileId,
      left.files[id]?.map LoadedFile.links = right.files[id]?.map LoadedFile.links) :
    left.passedOn? = right.passedOn? := by
  funext id name
  induction id using Nat.strongRecOn with
  | ind id induction =>
      have here := same id
      rw [passedOn?, passedOn?]
      cases foundLeft : left.files[id]? with
      | none =>
          rw [foundLeft] at here
          rw [Option.map_eq_none_iff.mp here.symm]
      | some own =>
          rw [foundLeft] at here
          rcases Option.map_eq_some_iff.mp here.symm with ⟨other, foundRight, equal⟩
          rw [foundRight]
          simp only [LoadedFile.links, Prod.mk.injEq] at equal
          rcases equal with ⟨symbols, reexports, -⟩
          have followed : (own.reexports.findSome? fun next =>
              if next < id then left.passedOn? next name else none) =
              own.reexports.findSome? fun next =>
                if next < id then right.passedOn? next name else none := by
            refine findSome?_congr fun next _ => ?_
            split
            · next before => exact induction next before
            · rfl
          simp only [symbols, reexports, followed]

theorem visible?_congr {left right : Schema}
    (same : ∀ id : FileId,
      left.files[id]?.map LoadedFile.links = right.files[id]?.map LoadedFile.links) :
    left.visible? = right.visible? := by
  have samePassedOn := passedOn?_congr same
  funext id name
  induction id using Nat.strongRecOn with
  | ind id induction =>
      have here := same id
      rw [visible?, visible?]
      cases foundLeft : left.files[id]? with
      | none =>
          rw [foundLeft] at here
          rw [Option.map_eq_none_iff.mp here.symm]
      | some own =>
          rw [foundLeft] at here
          rcases Option.map_eq_some_iff.mp here.symm with ⟨other, foundRight, equal⟩
          rw [foundRight]
          simp only [LoadedFile.links, Prod.mk.injEq] at equal
          rcases equal with ⟨symbols, reexports, privates⟩
          have followed : (own.reexports.findSome? fun next =>
              if next < id then left.visible? next name else none) =
              own.reexports.findSome? fun next =>
                if next < id then right.visible? next name else none := by
            refine findSome?_congr fun next _ => ?_
            split
            · next before => exact induction next before
            · rfl
          simp only [symbols, reexports, privates, followed, samePassedOn]

@[simp] theorem visible?_markRoot (schema : Schema) (root : FileId) :
    (schema.markRoot root).visible? = schema.visible? :=
  visible?_congr fun id => schema.map_getElem?_markRoot root id LoadedFile.links fun _ => rfl

@[simp] theorem visible?_forget (schema : Schema) (name : String) :
    (schema.forget name).visible? = schema.visible? :=
  visible?_congr fun _ => rfl

end Schema

end ProtoSchema
