import ProtoSchema.Proofs.Compiler.Strictness
import ProtoSchema.Proofs.Draft.Names
/-! # Looking up names

If no file has a conflict, different declarations have different full names, and every way
to look up a full name that can come to its declaration does: the getters, which regard all
files, and the files that see the one with the declaration.
-/

namespace ProtoSchema

namespace UserType

def message? : UserType → Option MessageId
  | message id => some id
  | _ => none

def enum? : UserType → Option EnumId
  | enum id => some id
  | _ => none

def service? : UserType → Option ServiceId
  | service id => some id
  | _ => none

end UserType

/-! ## Names with and without their dot -/

theorem Rooted.exists_qualify {name : String} (rooted : Rooted name) :
    ∃ rest, name = "." ++ rest ∧ qualify name = name ∧ qualify rest = name := by
  rcases rooted with ⟨inner, text, undotted⟩
  have split : name = "." ++ String.ofList inner := by
    apply String.toList_inj.mp
    simp [text]
  refine ⟨String.ofList inner, split, ?_, ?_⟩
  · rw [qualify, text, List.head?_cons, if_pos rfl]
  · rw [qualify, String.toList_ofList, if_neg undotted, split]

namespace Schema

variable {schema : Schema}

/-- Every full name in a settled schema is rooted. -/
theorem Settled.rooted {Opened : SourceFile → Prop} (settled : schema.Settled Opened)
    {target : UserType} {name : String} (named : schema.fullName? target = some name) :
    Rooted name := by
  have present := Array.getElem?_eq_getElem (lt_size_of_fullName? named)
  rcases settled.files present with ⟨file, -, own⟩
  rcases mem_declaredNames_of_fullName? present own.id_eq named with ⟨declared, member, rfl, -⟩
  rw [own.file_eq, Link.declaredNames_linkAll] at member
  exact Draft.rooted_of_mem_declaredNames file.parsed target.file member

/-! ## Getters -/

theorem messageNamed?_eq (schema : Schema) (name : String) :
    schema.messageNamed? name = (schema.named? name).bind UserType.message? := by
  rw [messageNamed?]
  rcases schema.named? name with _ | _ | _ | _ <;> rfl

theorem enumNamed?_eq (schema : Schema) (name : String) :
    schema.enumNamed? name = (schema.named? name).bind UserType.enum? := by
  rw [enumNamed?]
  rcases schema.named? name with _ | _ | _ | _ <;> rfl

theorem serviceNamed?_eq (schema : Schema) (name : String) :
    schema.serviceNamed? name = (schema.named? name).bind UserType.service? := by
  rw [serviceNamed?]
  rcases schema.named? name with _ | _ | _ | _ <;> rfl

/-- What the getters find for a name has this full name. -/
theorem Settled.fullName?_of_newest? {Opened : SourceFile → Prop}
    (settled : schema.Settled Opened) {name : String} {target : UserType}
    (found : schema.newest? name = some target) : schema.fullName? target = some name := by
  rcases List.exists_of_findSome?_eq_some found with ⟨loaded, member, found⟩
  rcases List.getElem?_of_mem (List.mem_reverse.mp member) with ⟨id, present⟩
  exact (settled.declares_of_find? (by simpa using present) found).2

theorem Settled.isSome_newest? {Opened : SourceFile → Prop} (settled : schema.Settled Opened)
    {name : String} {target : UserType} (named : schema.fullName? target = some name) :
    (schema.newest? name).isSome := by
  rcases settled.find?_of_declares ⟨target, rfl, named⟩ with ⟨loaded, own, present, found⟩
  rw [newest?, List.isSome_findSome?, List.any_eq_true]
  refine ⟨loaded, ?_, by rw [found, Option.isSome_some]⟩
  rw [List.mem_reverse]
  exact List.mem_of_getElem? (by simpa using present)

/-! ## Without conflicts -/

/-- Without conflicts a full name belongs to one declaration. -/
theorem WithoutConflicts.injective (without : schema.WithoutConflicts) {left right : UserType}
    {name : String} (first : schema.fullName? left = some name)
    (second : schema.fullName? right = some name) : left = right := by
  have held {target : UserType} (named : schema.fullName? target = some name) :
      ∃ declared ∈ schema.files.toList.flatMap (·.file.declaredNames),
        declared.fullName = name ∧ declared.target = target := by
    have present := Array.getElem?_eq_getElem (lt_size_of_fullName? named)
    rcases without.settled.files present with ⟨file, -, own⟩
    rcases mem_declaredNames_of_fullName? present own.id_eq named with ⟨declared, member, same⟩
    exact ⟨declared, List.mem_flatMap.mpr ⟨_, by simp, member⟩, same⟩
  rcases held first with ⟨one, inSchema, oneName, rfl⟩
  rcases held second with ⟨other, otherInSchema, otherName, rfl⟩
  have nodup := without.nodup
  rw [declaredFullNames, ← List.map_flatMap] at nodup
  rw [List.inj_on_of_nodup_map nodup inSchema otherInSchema (oneName.trans otherName.symm)]

theorem WithoutConflicts.named?_eq (without : schema.WithoutConflicts) {target : UserType}
    {name written : String} (named : schema.fullName? target = some name)
    (qualified : qualify written = name) : schema.named? written = some target := by
  rw [Schema.named?, qualified]
  rcases Option.isSome_iff_exists.mp (without.settled.isSome_newest? named) with ⟨other, found⟩
  rw [found, without.injective (without.settled.fullName?_of_newest? found) named]

theorem WithoutConflicts.resolve_eq (without : schema.WithoutConflicts) {id : FileId}
    {target : UserType} {name written : String} (named : schema.fullName? target = some name)
    (sees : schema.Sees id target.file) (qualified : qualify written = name) :
    schema.resolve id written = some target := by
  rw [resolve, qualified]
  have found := without.settled.isSome_visible?_of_sees sees ⟨target, rfl, named⟩
  rcases Option.isSome_iff_exists.mp found with ⟨other, found⟩
  rw [found, without.injective (without.settled.sees_of_visible? found).2 named]

/-! ## Sessions -/

/-- No file has recorded a conflict. -/
def Unambiguous (schema : Schema) : Prop :=
  ∀ (id : FileId) loaded, schema.files[id]? = some loaded → loaded.symbols.conflicts = []

/-- A written name leads to a declaration: by the getter of its kind only, and in every file
that sees the file of the declaration. -/
structure Finds (schema : Schema) (target : UserType) (written : String) : Prop where
  message : schema.messageNamed? written = target.message?
  enum : schema.enumNamed? written = target.enum?
  service : schema.serviceNamed? written = target.service?
  resolve : ∀ id, schema.Sees id target.file → schema.resolve id written = some target

theorem WithoutConflicts.finds (without : schema.WithoutConflicts) {target : UserType}
    {name written : String} (named : schema.fullName? target = some name)
    (qualified : qualify written = name) : schema.Finds target written where
  message := by rw [messageNamed?_eq, without.named?_eq named qualified, Option.bind_some]
  enum := by rw [enumNamed?_eq, without.named?_eq named qualified, Option.bind_some]
  service := by rw [serviceNamed?_eq, without.named?_eq named qualified, Option.bind_some]
  resolve _ sees := without.resolve_eq named sees qualified

/-- In every session without conflicts each full name, with or without the dot at its
beginning, leads to its declaration and to nothing else; a file also sees its own
declarations. What a getter finds for a name always has this full name. -/
theorem finds_run (resolver : Resolver) (operations : List Operation) :
    let schema := (Session.run resolver operations).compiler.schema
    (schema.Unambiguous → ∀ target name, schema.fullName? target = some name →
      ∃ rest, name = "." ++ rest ∧ schema.Finds target name ∧ schema.Finds target rest) ∧
    (∀ id, schema.Sees id id) ∧
    (∀ name id, schema.messageNamed? name = some id →
      schema.fullName? (.message id) = some (qualify name)) ∧
    (∀ name id, schema.enumNamed? name = some id →
      schema.fullName? (.enum id) = some (qualify name)) ∧
    ∀ name id, schema.serviceNamed? name = some id →
      schema.fullName? (.service id) = some (qualify name) := by
  intro schema
  have recorded := conflictsRecorded_run resolver operations
  have settled := recorded.settled
  refine ⟨fun unambiguous target name named => ?_, Settled.sees_self, ?_, ?_, ?_⟩
  · have without : schema.WithoutConflicts := ⟨recorded, unambiguous _ _⟩
    rcases (settled.rooted named).exists_qualify with ⟨rest, split, whole, undotted⟩
    exact ⟨rest, split, without.finds named whole, without.finds named undotted⟩
  · intro name id found
    rw [messageNamed?_eq, Option.bind_eq_some_iff] at found
    rcases found with ⟨target | target | target, found, same⟩ <;> cases same
    exact settled.fullName?_of_newest? found
  · intro name id found
    rw [enumNamed?_eq, Option.bind_eq_some_iff] at found
    rcases found with ⟨target | target | target, found, same⟩ <;> cases same
    exact settled.fullName?_of_newest? found
  · intro name id found
    rw [serviceNamed?_eq, Option.bind_eq_some_iff] at found
    rcases found with ⟨target | target | target, found, same⟩ <;> cases same
    exact settled.fullName?_of_newest? found

/-- An enum inside of a message is found in a file that imports its file. -/
theorem finds_run_nested :
    let nested := Resolver.ofMemory
      { sources := [
        ("a.proto", "package p; message A \x7b enum E \x7b X = 0; \x7d \x7d"),
        ("b.proto", "import \"a.proto\"; service S \x7b\x7d")] }
    let schema := (Session.run nested [.openFile ⟨"b.proto"⟩]).compiler.schema
    schema.Unambiguous ∧ schema.fullName? (.enum ⟨0, 0⟩) = some ".p.A.E" ∧ schema.Sees 1 0 ∧
      schema.enumNamed? "p.A.E" = some ⟨0, 0⟩ ∧ schema.messageNamed? "p.A.E" = none ∧
      schema.serviceNamed? "p.A.E" = none ∧
      schema.resolve 1 ".p.A.E" = some (.enum ⟨0, 0⟩) := by
  intro nested schema
  have computed : schema.files.all (·.symbols.conflicts.isEmpty) = true ∧
      schema.fullName? (.enum ⟨0, 0⟩) = some ".p.A.E" ∧
      (schema.files[1]?).any (fun loaded : LoadedFile =>
        loaded.file.imports.any fun statement : Import =>
          statement.kind != .reexport && statement.file == some 0) = true :=
    @Compiler.openFile_of_computed
      (fun result => result.2.schema.files.all (fun loaded : LoadedFile =>
          loaded.symbols.conflicts.isEmpty) = true ∧
        result.2.schema.fullName? (.enum ⟨0, 0⟩) = some ".p.A.E" ∧
        (result.2.schema.files[1]?).any (fun loaded : LoadedFile =>
          loaded.file.imports.any fun statement : Import =>
            statement.kind != .reexport && statement.file == some 0) = true)
      _ 2 { resolver := nested } ⟨"b.proto"⟩ (by decide +kernel)
  rcases computed with ⟨clear, named, imports⟩
  have unambiguous : schema.Unambiguous := by
    intro id loaded present
    have none := Array.all_eq_true_iff_forall_mem.mp clear loaded (Array.mem_of_getElem? present)
    exact List.isEmpty_iff.mp none
  have sees : schema.Sees 1 0 := by
    rcases (Option.any_eq_true _ _).mp imports with ⟨loaded, present, imported⟩
    rcases List.any_eq_true.mp imported with ⟨statement, member, holds⟩
    simp only [Bool.and_eq_true, bne_iff_ne, beq_iff_eq] at holds
    exact ⟨1, .refl, .inr ⟨0, ⟨loaded, statement, present, member, holds⟩, .refl⟩⟩
  rcases (finds_run nested [.openFile ⟨"b.proto"⟩]).1 unambiguous _ _ named with
    ⟨rest, split, whole, undotted⟩
  have same : rest = "p.A.E" := by
    apply String.toList_inj.mp
    have text := congrArg String.toList split
    rw [String.toList_append] at text
    exact (List.cons.inj text).2.symm
  subst same
  exact ⟨unambiguous, named, sees, undotted.enum, undotted.message, undotted.service,
    whole.resolve 1 sees⟩

end Schema

end ProtoSchema
