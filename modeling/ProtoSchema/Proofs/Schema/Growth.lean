import ProtoSchema.Compiler
/-! # Growing schemas

A schema changes in two ways only: one more file is put at its end, or a file of it
becomes a root. What can be looked up in a schema stays as it was, apart from the new
file.
-/

namespace ProtoSchema

namespace Schema

/-! ## One more file -/

@[simp] theorem size_push (schema : Schema) (loaded : LoadedFile) :
    (schema.push loaded).files.size = schema.files.size + 1 := by
  simp [push]

@[simp] theorem getElem?_push_size (schema : Schema) (loaded : LoadedFile) :
    (schema.push loaded).files[schema.files.size]? = some loaded := by
  simp [push]

theorem getElem?_push_of_lt (schema : Schema) (loaded : LoadedFile) {id : FileId}
    (earlier : id < schema.files.size) :
    (schema.push loaded).files[id]? = schema.files[id]? := by
  simp [push, Array.getElem?_push_lt earlier, earlier]

theorem lt_size_of_getElem? {schema : Schema} {id : FileId} {loaded : LoadedFile}
    (present : schema.files[id]? = some loaded) : id < schema.files.size :=
  (Array.getElem?_eq_some_iff.mp present).1

theorem getElem?_push_of_getElem? {schema : Schema} {id : FileId} {loaded : LoadedFile}
    (next : LoadedFile) (present : schema.files[id]? = some loaded) :
    (schema.push next).files[id]? = some loaded := by
  rw [getElem?_push_of_lt schema next (lt_size_of_getElem? present)]
  exact present

/-- A file of the longer schema is a file of the shorter one or the new file. -/
theorem getElem?_push_cases {schema : Schema} {next loaded : LoadedFile} {id : FileId}
    (present : (schema.push next).files[id]? = some loaded) :
    schema.files[id]? = some loaded ∨ id = schema.files.size ∧ loaded = next := by
  have bound := lt_size_of_getElem? present
  rw [size_push] at bound
  rcases Nat.lt_succ_iff_lt_or_eq.mp bound with earlier | last
  · left
    rw [← getElem?_push_of_lt schema next earlier]
    exact present
  · right
    subst last
    rw [getElem?_push_size] at present
    exact ⟨rfl, (Option.some.inj present).symm⟩

theorem file?_push_of_lt (schema : Schema) (loaded : LoadedFile) {id : FileId}
    (earlier : id < schema.files.size) : (schema.push loaded).file? id = schema.file? id := by
  rw [file?, file?, getElem?_push_of_lt schema loaded earlier]

/-- What a new file declares depends on its model only. -/
theorem file?_push_congr (schema : Schema) {left right : LoadedFile}
    (same : left.file = right.file) : (schema.push left).file? = (schema.push right).file? := by
  funext id
  simp only [file?, push, Array.getElem?_push]
  split
  · rw [Option.map_some, Option.map_some, same]
  · rfl

theorem message?_push_of_lt (schema : Schema) (loaded : LoadedFile) {id : MessageId}
    (earlier : id.file < schema.files.size) :
    (schema.push loaded).message? id = schema.message? id := by
  rw [message?, message?, file?_push_of_lt schema loaded earlier]

theorem extension?_push_of_lt (schema : Schema) (loaded : LoadedFile) {id : ExtensionId}
    (earlier : id.file < schema.files.size) :
    (schema.push loaded).extension? id = schema.extension? id := by
  rw [extension?, extension?, file?_push_of_lt schema loaded earlier]

theorem lt_size_of_extension? {schema : Schema} {id : ExtensionId} {extension : Extension}
    (held : schema.extension? id = some extension) : id.file < schema.files.size := by
  rcases Option.bind_eq_some_iff.mp held with ⟨file, found, -⟩
  rcases Option.map_eq_some_iff.mp found with ⟨loaded, present, -⟩
  exact lt_size_of_getElem? present

theorem extension?_of_getElem? {schema : Schema} {id : FileId} {loaded : LoadedFile}
    (present : schema.files[id]? = some loaded) (index : Nat) :
    schema.extension? ⟨id, index⟩ = loaded.file.allExtensions[index]? := by
  rw [extension?, file?, present]
  rfl

/-- The block that a schema holds is one of its file. -/
theorem mem_of_extension? {schema : Schema} {block : ExtensionId} {extension : Extension}
    (held : schema.extension? block = some extension) :
    ∃ loaded, schema.files[block.file]? = some loaded ∧
      extension ∈ loaded.file.allExtensions := by
  have present := Array.getElem?_eq_getElem (lt_size_of_extension? held)
  rw [extension?_of_getElem? present] at held
  exact ⟨_, present, Array.mem_of_getElem? held⟩

theorem fullName?_congr {left right : Schema} {target : UserType}
    (same : left.file? target.file = right.file? target.file) :
    left.fullName? target = right.fullName? target := by
  cases target <;> simp only [UserType.file] at same <;>
    simp only [fullName?, message?, enum?, service?, same]

/-- Whatever has a full name is in a file of the schema. -/
theorem lt_size_of_fullName? {schema : Schema} {target : UserType} {name : String}
    (named : schema.fullName? target = some name) : target.file < schema.files.size := by
  have inFile : (schema.file? target.file).isSome := by
    cases target <;>
      simp only [fullName?, message?, enum?, service?, Option.bind_eq_bind,
        Option.map_eq_some_iff, Option.bind_eq_some_iff] at named <;>
      rcases named with ⟨_, ⟨file, held, _⟩, _⟩ <;>
      simp [UserType.file, held]
  rw [file?, Option.isSome_map] at inFile
  rcases Option.isSome_iff_exists.mp inFile with ⟨loaded, present⟩
  exact lt_size_of_getElem? present

/-! ## Files by name -/

theorem fileNamed?_push (schema : Schema) (loaded : LoadedFile) (name : String) :
    (schema.push loaded).fileNamed? name =
      if name = loaded.file.name then some schema.files.size else schema.fileNamed? name := by
  rw [fileNamed?, push, List.lookup_cons]
  by_cases equal : name = loaded.file.name
  · rw [if_pos equal, beq_iff_eq.mpr equal]
  · rw [if_neg equal, beq_false_of_ne equal]
    rfl

theorem fileNamed?_push_self (schema : Schema) (loaded : LoadedFile) :
    (schema.push loaded).fileNamed? loaded.file.name = some schema.files.size := by
  rw [fileNamed?_push, if_pos rfl]

/-- A name that the new file does not have means what it meant. -/
theorem fileNamed?_push_of_some {schema : Schema} {loaded : LoadedFile} {name : String}
    {id : FileId} (fresh : schema.fileNamed? loaded.file.name = none)
    (named : schema.fileNamed? name = some id) :
    (schema.push loaded).fileNamed? name = some id := by
  have different : name ≠ loaded.file.name := by
    intro equal
    rw [equal, fresh] at named
    cases named
  rw [fileNamed?_push, if_neg different]
  exact named

/-- Every name leads to a file that has it. -/
def Indexed (schema : Schema) : Prop :=
  ∀ name id, schema.fileNamed? name = some id →
    ∃ loaded, schema.files[id]? = some loaded ∧ loaded.file.name = name

theorem Indexed.lt_size {schema : Schema} (indexed : schema.Indexed) {name : String}
    {id : FileId} (named : schema.fileNamed? name = some id) : id < schema.files.size := by
  rcases indexed _ _ named with ⟨loaded, present, -⟩
  exact lt_size_of_getElem? present

theorem Indexed.push {schema : Schema} (indexed : schema.Indexed) (next : LoadedFile) :
    (schema.push next).Indexed := by
  intro name id named
  rw [fileNamed?_push] at named
  split at named
  · next equal =>
      cases named
      exact ⟨next, getElem?_push_size schema next, equal.symm⟩
  · rcases indexed _ _ named with ⟨loaded, present, equal⟩
    exact ⟨loaded, getElem?_push_of_getElem? next present, equal⟩

/-! ## Forgotten names -/

theorem forget_of_fresh {schema : Schema} {name : String}
    (fresh : schema.fileNamed? name = none) : schema.forget name = schema := by
  have kept : schema.names.filter (·.1 != name) = schema.names := by
    rw [List.filter_eq_self]
    intro entry member
    have different := List.lookup_eq_none_iff.mp fresh entry member
    simpa [bne, Bool.beq_comm] using different
  rw [forget, kept]

/-- Without the entries of one name, any other name means what it meant. -/
theorem lookup_of_lookup_filter {α : Type} {entries : List (String × α)}
    {forgotten name : String} {value : α}
    (named : (entries.filter (·.1 != forgotten)).lookup name = some value) :
    entries.lookup name = some value := by
  induction entries with
  | nil => exact named
  | cons entry entries induction =>
      rw [List.filter_cons] at named
      split at named
      · rw [List.lookup_cons] at named ⊢
        split at named
        · exact named
        · exact induction named
      · next dropped =>
          have equal : entry.1 = forgotten := by simpa using dropped
          have absent : (entries.filter (·.1 != forgotten)).lookup forgotten = none := by
            rw [List.lookup_eq_none_iff]
            intro other member
            simpa [bne, Bool.beq_comm] using (List.mem_filter.mp member).2
          have different : name ≠ entry.1 := by
            intro same
            rw [same, equal, absent] at named
            cases named
          rw [List.lookup_cons, beq_false_of_ne different]
          exact induction named

theorem Indexed.forget {schema : Schema} (indexed : schema.Indexed) (name : String) :
    (schema.forget name).Indexed := by
  intro other id named
  exact indexed other id (lookup_of_lookup_filter named)

/-! ## Roots -/

theorem getElem?_markRoot (schema : Schema) (root id : FileId) :
    (schema.markRoot root).files[id]? =
      schema.files[id]?.map fun loaded =>
        if root = id then { loaded with isRoot := true } else loaded := by
  rw [markRoot, Array.getElem?_modify]
  split <;> simp

/-- A file keeps everything but its mark. -/
theorem getElem?_markRoot_cases {schema : Schema} {root id : FileId} {loaded : LoadedFile}
    (present : (schema.markRoot root).files[id]? = some loaded) :
    ∃ original mark, schema.files[id]? = some original ∧
      loaded = { original with isRoot := mark } := by
  rw [getElem?_markRoot, Option.map_eq_some_iff] at present
  rcases present with ⟨original, present, rfl⟩
  split
  · exact ⟨original, true, present, rfl⟩
  · exact ⟨original, original.isRoot, present, rfl⟩

/-- What does not depend on the mark is the same in every file. -/
theorem map_getElem?_markRoot {α : Type} (schema : Schema) (root id : FileId)
    (view : LoadedFile → α) (blind : ∀ loaded, view { loaded with isRoot := true } = view loaded) :
    (schema.markRoot root).files[id]?.map view = schema.files[id]?.map view := by
  rw [getElem?_markRoot, Option.map_map]
  congr 1
  funext loaded
  simp only [Function.comp_apply]
  split
  · exact blind loaded
  · rfl

@[simp] theorem file?_markRoot (schema : Schema) (root : FileId) :
    (schema.markRoot root).file? = schema.file? := by
  funext id
  exact schema.map_getElem?_markRoot root id LoadedFile.file fun _ => rfl

@[simp] theorem fileNamed?_markRoot (schema : Schema) (root : FileId) :
    (schema.markRoot root).fileNamed? = schema.fileNamed? :=
  rfl

theorem Indexed.markRoot {schema : Schema} (indexed : schema.Indexed) (root : FileId) :
    (schema.markRoot root).Indexed := by
  intro name id named
  rcases indexed _ _ named with ⟨loaded, present, equal⟩
  by_cases same : root = id
  · exact ⟨{ loaded with isRoot := true }, by simp [getElem?_markRoot, present, same], equal⟩
  · exact ⟨loaded, by simp [getElem?_markRoot, present, same], equal⟩

end Schema

end ProtoSchema
