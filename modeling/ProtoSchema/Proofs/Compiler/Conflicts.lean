import Mathlib.Data.List.Nodup
import ProtoSchema.Proofs.Compiler.Registration
import ProtoSchema.Proofs.Compiler.Sight
import ProtoSchema.Proofs.Draft.Order
/-! # Conflicts

A file keeps one conflict for each declaration whose name was declared before, in the file
or in one loaded earlier, and none besides. What the declarations of earlier files mean
does not change, so that this can be read off the schema at any later time.
-/

namespace ProtoSchema

/-! ## Declarations of a file -/

/-- The number of declarations of a file with a full name, at any depth. -/
def ProtoFile.timesDeclared (file : ProtoFile) (name : String) : Nat :=
  file.declaredNames.countP (·.fullName == name)

/-- Declarations of a list have the numbers from zero on. -/
theorem nodup_map_zipIdx {α : Type} (entries : List α) (target : Nat → UserType)
    (injective : Function.Injective target) :
    (entries.zipIdx.map fun entry => target entry.2).Nodup := by
  have numbers : (entries.zipIdx.map Prod.snd).Nodup := by
    rw [List.zipIdx_map_snd]
    exact List.nodup_range'
  have mapped := List.Nodup.map injective numbers
  rwa [List.map_map] at mapped

theorem ProtoFile.nodup_targets (file : ProtoFile) :
    (file.declaredNames.map DeclaredName.target).Nodup := by
  have messages := nodup_map_zipIdx file.allMessages.toList
    (fun index => .message ⟨file.id, index⟩) fun _ _ equal => by simpa using equal
  have enums := nodup_map_zipIdx file.allEnums.toList
    (fun index => .enum ⟨file.id, index⟩) fun _ _ equal => by simpa using equal
  have services := nodup_map_zipIdx file.allServices.toList
    (fun index => .service ⟨file.id, index⟩) fun _ _ equal => by simpa using equal
  rw [declaredNames, List.map_append, List.map_append, List.map_map, List.map_map, List.map_map]
  refine List.nodup_append'.mpr ⟨List.nodup_append'.mpr ⟨messages, enums, ?_⟩, services, ?_⟩
  · intro target inMessages inEnums
    rcases List.mem_map.mp inMessages with ⟨_, -, rfl⟩
    rcases List.mem_map.mp inEnums with ⟨_, -, impossible⟩
    cases impossible
  · intro target earlier inServices
    rcases List.mem_map.mp inServices with ⟨_, -, rfl⟩
    rcases List.mem_append.mp earlier with member | member <;>
      rcases List.mem_map.mp member with ⟨_, -, impossible⟩ <;> cases impossible

namespace Schema

/-! ## Earlier files -/

/-- What names mean before the file with a number: each means a declaration of an earlier
file, if an earlier file declares it. -/
structure MeansEarlier (schema : Schema) (id : FileId) (outside : String → Option UserType) :
    Prop where
  sound : ∀ {name target}, outside name = some target →
    target.file < id ∧ schema.fullName? target = some name
  complete : ∀ {name source}, source < id → schema.Declares source name →
    (outside name).isSome

theorem MeansEarlier.congr {before after : Schema} {id : FileId}
    {outside : String → Option UserType} (means : before.MeansEarlier id outside)
    (same : ∀ source < id, after.file? source = before.file? source) :
    after.MeansEarlier id outside where
  sound found := by
    rcases means.sound found with ⟨earlier, named⟩
    exact ⟨earlier, by rwa [fullName?_congr (same _ earlier)]⟩
  complete := by
    intro name source earlier declares
    rcases declares with ⟨target, rfl, named⟩
    rw [fullName?_congr (same _ earlier)] at named
    exact means.complete earlier ⟨target, rfl, named⟩

/-- A file with one conflict for each of its names that was declared before. -/
def RecordsConflicts (schema : Schema) (id : FileId) (loaded : LoadedFile) : Prop :=
  ∃ outside, schema.MeansEarlier id outside ∧
    loaded.symbols.conflicts = Link.conflictsOf outside [] loaded.symbols.entries.reverse

theorem RecordsConflicts.congr {before after : Schema} {id : FileId} {loaded : LoadedFile}
    (records : before.RecordsConflicts id loaded)
    (same : ∀ source < id, after.file? source = before.file? source) :
    after.RecordsConflicts id loaded := by
  rcases records with ⟨outside, means, conflicts⟩
  exact ⟨outside, means.congr same, conflicts⟩

variable {Opened : SourceFile → Prop} {schema : Schema}

theorem Settled.fullName?_of_imported? (settled : schema.Settled Opened) {loaded : LoadedFile}
    {name : String} {target : UserType} (found : schema.imported? loaded name = some target) :
    schema.fullName? target = some name := by
  rw [imported?, Option.orElse_eq_orElse, Option.orElse_eq_or, Option.or_eq_some_iff] at found
  rcases found with reexported | ⟨-, imported⟩
  · rcases List.exists_of_findSome?_eq_some reexported with ⟨next, -, found⟩
    exact (settled.sees_of_visible? found).2
  · rcases List.exists_of_findSome?_eq_some imported with ⟨next, -, found⟩
    rcases settled.find?_of_passedOn? found with ⟨-, _, present, own⟩
    exact (settled.declares_of_find? present own).2

/-- What a name means outside the next file is what it means in the files before. -/
theorem Settled.meansEarlier (settled : schema.Settled Opened) (loaded : LoadedFile) :
    schema.MeansEarlier schema.files.size (Link.outside? schema loaded) where
  sound := by
    intro name target found
    have named : schema.fullName? target = some name := by
      rw [Link.outside?, Option.or_eq_some_iff] at found
      rcases found with imported | ⟨-, newest⟩
      · exact settled.fullName?_of_imported? imported
      · rcases List.exists_of_findSome?_eq_some newest with ⟨other, member, found⟩
        rcases List.getElem?_of_mem (List.mem_reverse.mp member) with ⟨id, present⟩
        exact (settled.declares_of_find? (by simpa using present) found).2
    exact ⟨lt_size_of_fullName? named, named⟩
  complete := by
    intro name source earlier declares
    rcases settled.find?_of_declares declares with ⟨other, target, present, found⟩
    have newest : (schema.newest? name).isSome := by
      rw [newest?, List.isSome_findSome?, List.any_eq_true]
      refine ⟨other, ?_, by rw [found, Option.isSome_some]⟩
      rw [List.mem_reverse]
      exact List.mem_of_getElem? (by simpa using present)
    rw [Link.outside?, Option.isSome_or, newest, Bool.or_true]

/-! ## All files of a schema -/

/-- A settled schema of which every file records its conflicts. -/
structure ConflictsRecorded (schema : Schema) : Prop where
  settled : schema.Settled fun _ => True
  records : ∀ {id : FileId} {loaded : LoadedFile}, schema.files[id]? = some loaded →
    schema.RecordsConflicts id loaded

theorem ConflictsRecorded.preserved (rules : Rules) : rules.Preserve ConflictsRecorded where
  added := by
    intro schema next file isRoot recorded added
    rcases Rules.add_eq_ok_iff.mp added with ⟨loaded, link, -, rfl⟩
    have linked := (Rules.link_eq_ok link).complete
    refine ⟨recorded.settled.add trivial linked, fun present => ?_⟩
    rcases getElem?_push_cases present with present | ⟨rfl, rfl⟩
    · have earlier := lt_size_of_getElem? present
      apply (recorded.records present).congr
      intro source before
      exact file?_push_of_lt schema _ (Nat.lt_trans before earlier)
    · have means := recorded.settled.meansEarlier loaded
      have grown := means.congr fun source earlier => file?_push_of_lt schema
        { loaded with isComplete := true } earlier
      exact ⟨_, grown, (Rules.conflicts_of_link link).2⟩
  marked := by
    intro schema root recorded
    refine ⟨recorded.settled.markRoot root, fun present => ?_⟩
    rcases getElem?_markRoot_cases present with ⟨original, mark, held, rfl⟩
    apply (recorded.records held).congr
    intro source _
    rw [file?_markRoot]
  forgotten := by
    intro schema name recorded
    refine ⟨recorded.settled.forget name, fun present => ?_⟩
    exact (recorded.records present).congr fun _ _ => rfl

theorem ConflictsRecorded.empty : ({} : Schema).ConflictsRecorded where
  settled := .empty
  records present := by simp at present

end Schema

/-! ## Registered declarations -/

/-- What a name means in a table is the first entry of the name. -/
theorem lookup_eq_find? {α : Type} (name : String) (entries : List (String × α)) :
    entries.lookup name = (entries.find? (name == ·.1)).map Prod.snd := by
  induction entries with
  | nil => rfl
  | cons entry entries induction =>
      rw [List.lookup_cons, List.find?_cons, induction]
      cases name == entry.1 <;> rfl

namespace Link

theorem declarationsInside_map {messages : Array Message} {change : Message → Message}
    (same : ∀ message, (change message).enums = message.enums ∧
      (change message).messages = message.messages) (index : Nat) :
    declarationsInside (messages.map change) index = declarationsInside messages index := by
  apply declarationsInside_congr
  intro inner _
  rw [Array.getElem?_map, Option.map_map]
  congr 1
  funext message
  simp [same]

theorem registrationOrder_linkAll (resolve : Resolution) (file : ProtoFile) :
    (linkAll resolve file).registrationOrder = file.registrationOrder := by
  have inside : ∀ index, declarationsInside (file.allMessages.map (linkMessageFields resolve))
      index = declarationsInside file.allMessages index :=
    declarationsInside_map fun _ => ⟨rfl, rfl⟩
  simp only [ProtoFile.registrationOrder, linkAll, inside]

end Link

namespace LoadedFile.Settled

variable {schema : Schema} {id : FileId} {file : SourceFile} {loaded : LoadedFile}

/-- The names that were registered are those of the declarations, in some order. -/
theorem names_perm (settled : loaded.Settled schema id file) :
    (Rules.draftOf id file).names.Perm loaded.file.declaredNames := by
  have listed := Draft.ofTree_names_perm id file.name file.source file.tree
  rw [settled.file_eq, Link.declaredNames_linkAll]
  exact listed

theorem map_snd_entries (settled : loaded.Settled schema id file) :
    loaded.symbols.entries.reverse.map Prod.snd =
      (Rules.draftOf id file).names.map DeclaredName.target := by
  rw [settled.entries_eq, List.reverse_reverse, List.map_map]
  rfl

/-- The names of a file were registered in the order of its declarations. -/
theorem registrationOrder_eq (settled : loaded.Settled schema id file) :
    loaded.file.registrationOrder = loaded.symbols.entries.reverse.map Prod.snd := by
  have order := Draft.targets_ofTree id file.name file.source file.tree
  rw [settled.map_snd_entries, settled.file_eq, Link.registrationOrder_linkAll]
  exact order.symm

theorem nodup_registrationOrder (settled : loaded.Settled schema id file) :
    loaded.file.registrationOrder.Nodup := by
  rw [settled.registrationOrder_eq, settled.map_snd_entries]
  exact (settled.names_perm.map DeclaredName.target).nodup_iff.mpr loaded.file.nodup_targets

/-- A name was registered as often as it is declared. -/
theorem countP_entries (settled : loaded.Settled schema id file) (name : String) :
    loaded.symbols.entries.reverse.countP (·.1 == name) = loaded.file.timesDeclared name := by
  rw [settled.entries_eq, List.reverse_reverse, List.countP_map]
  exact settled.names_perm.countP_eq _

/-- What is registered under a name is declared under it in the file. -/
theorem fullName?_of_mem_entries (settled : loaded.Settled schema id file)
    (present : schema.files[id]? = some loaded) {name : String} {target : UserType}
    (member : (name, target) ∈ loaded.symbols.entries) :
    target.file = id ∧ schema.fullName? target = some name := by
  rcases settled.mem_entries_iff.mp member with ⟨declared, inFile, rfl, rfl⟩
  exact Schema.fullName?_of_mem_declaredNames present settled.id_eq inFile

/-- Exactly the declarations of the file were registered. -/
theorem mem_registrationOrder_iff (settled : loaded.Settled schema id file)
    (present : schema.files[id]? = some loaded) (target : UserType) :
    target ∈ loaded.file.registrationOrder ↔
      target.file = id ∧ (schema.fullName? target).isSome := by
  rw [settled.registrationOrder_eq, List.mem_map]
  constructor
  · rintro ⟨⟨name, _⟩, member, rfl⟩
    rcases settled.fullName?_of_mem_entries present (List.mem_reverse.mp member) with
      ⟨own, named⟩
    exact ⟨own, by rw [named, Option.isSome_some]⟩
  · rintro ⟨rfl, named⟩
    rcases Option.isSome_iff_exists.mp named with ⟨name, named⟩
    have declared := Schema.mem_declaredNames_of_fullName? present settled.id_eq named
    exact ⟨(name, target), List.mem_reverse.mpr (settled.mem_entries_iff.mpr declared), rfl⟩

/-- A name means the declaration that was registered last. -/
theorem find?_eq_getLast? (settled : loaded.Settled schema id file)
    (present : schema.files[id]? = some loaded) (name : String) :
    loaded.symbols.find? name =
      (loaded.file.registrationOrder.filter
        (schema.fullName? · == some name)).getLast? := by
  have sameNames : ∀ entry ∈ loaded.symbols.entries.reverse,
      ((schema.fullName? · == some name) ∘ Prod.snd) entry = (name == entry.1) := by
    rintro ⟨own, target⟩ member
    have named := (settled.fullName?_of_mem_entries present (List.mem_reverse.mp member)).2
    simp [named, eq_comm]
  rw [settled.registrationOrder_eq, List.filter_map, List.getLast?_map,
    List.filter_congr sameNames, List.getLast?_filter, List.reverse_reverse]
  exact lookup_eq_find? name loaded.symbols.entries

end LoadedFile.Settled

/-! ## Exact conflicts -/

/-- The conflicts of a file are exactly those of its declarations with earlier ones, and
its names mean its last declarations. -/
structure LoadedFile.ConflictsExact (schema : Schema) (id : FileId) (loaded : LoadedFile) :
    Prop where
  /-- The declarations of the file are registered one after the other, each of them once. -/
  registered : loaded.file.registrationOrder.Nodup ∧ ∀ target,
    target ∈ loaded.file.registrationOrder ↔
      target.file = id ∧ (schema.fullName? target).isSome
  /-- Every declaration of a name conflicts if an earlier file declares the name. -/
  count_of_declared : ∀ name, (∃ source < id, schema.Declares source name) →
    loaded.symbols.conflicts.countP (·.name == name) = loaded.file.timesDeclared name
  /-- Otherwise all but the first do. -/
  count_of_fresh : ∀ name, (¬ ∃ source < id, schema.Declares source name) →
    loaded.symbols.conflicts.countP (·.name == name) = loaded.file.timesDeclared name - 1
  /-- A conflict is between a declaration of the file and another one of the same name,
  which was registered before. -/
  genuine : ∀ conflict ∈ loaded.symbols.conflicts,
    schema.fullName? conflict.previous = some conflict.name ∧
      schema.fullName? conflict.current = some conflict.name ∧
      conflict.current.file = id ∧ conflict.previous ≠ conflict.current ∧
      (conflict.previous.file < id ∨
        [conflict.previous, conflict.current].Sublist loaded.file.registrationOrder)
  /-- A name means the last declaration of the file that has it, and no other. -/
  last : ∀ name, loaded.symbols.find? name =
    (loaded.file.registrationOrder.filter (schema.fullName? · == some name)).getLast?

namespace Schema

variable {schema : Schema} {id : FileId} {loaded : LoadedFile} {file : SourceFile}

theorem MeansEarlier.isSome_iff {outside : String → Option UserType}
    (means : schema.MeansEarlier id outside) (name : String) :
    (outside name).isSome ↔ ∃ source < id, schema.Declares source name := by
  constructor
  · intro found
    rcases Option.isSome_iff_exists.mp found with ⟨target, found⟩
    rcases means.sound found with ⟨earlier, named⟩
    exact ⟨target.file, earlier, target, rfl, named⟩
  · rintro ⟨source, earlier, declares⟩
    exact means.complete earlier declares

theorem RecordsConflicts.countP (records : schema.RecordsConflicts id loaded)
    (settled : loaded.Settled schema id file) (name : String) :
    ((∃ source < id, schema.Declares source name) →
      loaded.symbols.conflicts.countP (·.name == name) = loaded.file.timesDeclared name) ∧
    ((¬ ∃ source < id, schema.Declares source name) →
      loaded.symbols.conflicts.countP (·.name == name) =
        loaded.file.timesDeclared name - 1) := by
  rcases records with ⟨outside, means, conflicts⟩
  rw [conflicts, Link.countP_conflictsOf, settled.countP_entries, List.lookup_nil,
    Option.none_or, ← means.isSome_iff]
  exact ⟨fun declared => if_pos declared, fun fresh => if_neg fresh⟩

theorem RecordsConflicts.genuine (records : schema.RecordsConflicts id loaded)
    (settled : loaded.Settled schema id file) (present : schema.files[id]? = some loaded)
    {conflict : Conflict} (member : conflict ∈ loaded.symbols.conflicts) :
    schema.fullName? conflict.previous = some conflict.name ∧
      schema.fullName? conflict.current = some conflict.name ∧
      conflict.current.file = id ∧ conflict.previous ≠ conflict.current ∧
      (conflict.previous.file < id ∨
        [conflict.previous, conflict.current].Sublist loaded.file.registrationOrder) := by
  rcases records with ⟨outside, means, conflicts⟩
  rw [conflicts] at member
  rcases Link.exists_of_mem_conflictsOf member with ⟨front, back, split, origin⟩
  have inEntries : ∀ entry ∈ front ++ (conflict.name, conflict.current) :: back,
      entry ∈ loaded.symbols.entries := by
    intro entry member
    rw [← split] at member
    exact List.mem_reverse.mp member
  have current := settled.fullName?_of_mem_entries present
    (inEntries _ (List.mem_append_right front List.mem_cons_self))
  rcases origin with before | elsewhere
  · have before : (conflict.name, conflict.previous) ∈ front := by simpa using before
    have previous := settled.fullName?_of_mem_entries present
      (inEntries _ (List.mem_append_left _ before))
    have inOrder : [conflict.previous, conflict.current].Sublist
        loaded.file.registrationOrder := by
      rw [settled.registrationOrder_eq, split, List.map_append, List.map_cons]
      have first := List.singleton_sublist.mpr (List.mem_map_of_mem (f := Prod.snd) before)
      exact first.append (List.cons_sublist_cons.mpr (List.nil_sublist _))
    have distinct := inOrder.nodup settled.nodup_registrationOrder
    exact ⟨previous.2, current.2, current.1, by simpa using distinct, .inr inOrder⟩
  · rcases means.sound elsewhere with ⟨earlier, named⟩
    refine ⟨named, current.2, current.1, ?_, .inl earlier⟩
    intro equal
    rw [equal, current.1] at earlier
    exact Nat.lt_irrefl id earlier

theorem ConflictsRecorded.exact (recorded : schema.ConflictsRecorded)
    (present : schema.files[id]? = some loaded) : loaded.ConflictsExact schema id := by
  rcases recorded.settled.files present with ⟨file, -, own⟩
  have records := recorded.records present
  exact
    { registered := ⟨own.nodup_registrationOrder, own.mem_registrationOrder_iff present⟩
      count_of_declared := fun name => (records.countP own name).1
      count_of_fresh := fun name => (records.countP own name).2
      genuine := fun _ member => records.genuine own present member
      last := own.find?_eq_getLast? present }

/-- Every session leaves a schema that records conflicts. -/
theorem conflictsRecorded_run (resolver : Resolver) (operations : List Operation) :
    (Session.run resolver operations).compiler.schema.ConflictsRecorded :=
  @Session.foldl_preserves (fun _ => True) ConflictsRecorded
    (fun rules _ => ConflictsRecorded.preserved rules) operations (fun _ _ _ _ => trivial)
    { compiler := { resolver } } trivial .empty

/-- No duplicate name of any file is silent, and none is invented. -/
def ExactConflicts (schema : Schema) : Prop :=
  ∀ (id : FileId) loaded, schema.files[id]? = some loaded → loaded.ConflictsExact schema id

/-- In every session, strict or not, the conflicts of all files are exact. -/
theorem exactConflicts_run (resolver : Resolver) (operations : List Operation) :
    (Session.run resolver operations).compiler.schema.ExactConflicts :=
  fun _ _ present => (conflictsRecorded_run resolver operations).exact present

end Schema

end ProtoSchema
