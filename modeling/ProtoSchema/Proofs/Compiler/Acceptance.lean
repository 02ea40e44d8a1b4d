import ProtoSchema.Proofs.Compiler.Judging
import ProtoSchema.Proofs.Compiler.Registration
/-! # Accepting a file in two schemas

By the rules of a new compiler a file is accepted by every faithful schema that has its
imports, or refused by all of them with the same error.
-/

namespace ProtoSchema

/-! ## Linking by the rules of a new compiler -/

namespace Rules

/-- A file is registered in any case; then its references decide whether it can be
linked. -/
theorem link_cases (schema : Schema) (file : SourceFile) (isRoot : Bool) :
    ∃ registered, Registered schema schema.files.size file registered ∧
      ((∃ error, referenceError? schema schema.files.size file registered = some error ∧
        ({} : Rules).link schema file isRoot = .error error) ∨
      ∃ loaded, referenceError? schema schema.files.size file registered = none ∧
        ({} : Rules).link schema file isRoot = .ok loaded) := by
  have opened := @link_of_clear {} schema file isRoot (.inl rfl)
  refine ⟨Link.withNames schema (nextDraft schema file isRoot)
    (draftOf schema.files.size file).names, ?_, ?_⟩
  · exact
      { imports_eq := rfl
        reexports_eq := rfl
        privates_eq := rfl
        entries_eq := by simp [Link.withNames, nextDraft, draftLoaded] }
  · rw [opened]
    cases wrong : referenceError? schema schema.files.size file
        (Link.withNames schema (nextDraft schema file isRoot)
          (draftOf schema.files.size file).names) with
    | some error => exact .inl ⟨error, rfl, linkRegistered_of_error wrong⟩
    | none => exact .inr ⟨_, rfl, linkRegistered_eq_ok_iff.mpr ⟨wrong, rfl⟩⟩

theorem forM_congr {error value : Type} {values : List value}
    {left right : value → Except error Unit}
    (agree : ∀ value ∈ values, left value = right value) :
    values.forM left = values.forM right := by
  induction values with
  | nil => rfl
  | cons value values induction =>
      rw [List.forM, List.forM, agree value List.mem_cons_self,
        induction fun other member => agree other (List.mem_cons_of_mem value member)]

theorem references_draftOf (i j : FileId) (file : SourceFile) :
    (draftOf j file).references = (draftOf i file).references :=
  Draft.references_ofTree_renumber (fun _ => j) i file.name file.source file.tree

end Rules

namespace Schema

variable {resolver : Resolver} {left right : Schema} {file : SourceFile}

/-- A file has the same wrong reference in both schemas, or none. -/
theorem referenceError?_translate (leftFaithful : left.Faithful resolver)
    (rightFaithful : right.Faithful resolver) {i j : FileId} {first second : LoadedFile}
    (inLeft : Rules.Registered left i file first)
    (inRight : Rules.Registered right j file second) (same : left.translate right i = j)
    (imports : HaveImports left right file) :
    Rules.referenceError? right j file second = Rules.referenceError? left i file first := by
  have sees := inLeft.seenBy?_renumber inRight same imports
    (fun _ member => corresponds_visible? leftFaithful rightFaithful
      (inLeft.shares_of_mem leftFaithful.settled.indexed imports (.inl member)))
    (fun _ member => corresponds_passedOn? leftFaithful rightFaithful
      (inLeft.shares_of_mem leftFaithful.settled.indexed imports (.inr member)))
  rw [Rules.referenceError?, Rules.referenceError?, Link.referenceError?_eq sees,
    Rules.references_draftOf i j]

/-! ## Adding a file -/

/-- All files have passed the validators of a new compiler. -/
structure Accepted (resolver : Resolver) (schema : Schema) : Prop
    extends schema.Faithful resolver where
  passed : ∀ {id : FileId} {loaded : LoadedFile}, schema.files[id]? = some loaded →
    ∀ validator ∈ ({} : Rules).validators, validator schema id = .ok ()

theorem Faithful.push_link (faithful : left.Faithful resolver)
    (awaits : left.Awaits resolver file) {isRoot : Bool} {loaded : LoadedFile}
    (link : ({} : Rules).link left file isRoot = .ok loaded) :
    (left.push loaded).Faithful resolver ∧ loaded.file.name = file.name := by
  have linked := Rules.link_eq_ok link
  exact ⟨faithful.push awaits linked, linked.name_eq⟩

/-- A file is accepted by both schemas, or refused by both with the same error. -/
theorem add_alike (leftFaithful : left.Faithful resolver)
    (rightFaithful : right.Faithful resolver) (leftAwaits : left.Awaits resolver file)
    (rightAwaits : right.Awaits resolver file) (leftRoot rightRoot : Bool) :
    (({} : Rules).add right file rightRoot).map (fun _ => ()) =
      (({} : Rules).add left file leftRoot).map fun _ => () := by
  rcases Rules.link_cases left file leftRoot with ⟨first, inLeft, leftCases⟩
  rcases Rules.link_cases right file rightRoot with ⟨second, inRight, rightCases⟩
  have sameError := referenceError?_translate leftFaithful rightFaithful inLeft inRight
    (translate_size left right) (haveImports_of_isSome leftFaithful.settled.indexed
      leftAwaits.imported rightAwaits.imported)
  rcases leftCases with ⟨error, wrong, link⟩ | ⟨loaded, sound, link⟩
  · rcases rightCases with ⟨other, otherWrong, otherLink⟩ | ⟨other, otherSound, -⟩
    · rw [sameError, wrong] at otherWrong
      cases otherWrong
      rw [Rules.add_of_link_eq_error link, Rules.add_of_link_eq_error otherLink]
    · rw [sameError, wrong] at otherSound
      cases otherSound
  · rcases rightCases with ⟨other, otherWrong, -⟩ | ⟨other, otherSound, otherLink⟩
    · rw [sameError, sound] at otherWrong
      cases otherWrong
    · rw [Rules.add_of_link_eq_ok link, Rules.add_of_link_eq_ok otherLink]
      rcases leftFaithful.push_link leftAwaits link with ⟨leftNext, name⟩
      rcases rightFaithful.push_link rightAwaits otherLink with ⟨rightNext, otherName⟩
      exact Rules.forM_congr (judged_alike leftNext rightNext (getElem?_push_size left loaded)
        (getElem?_push_size right other) (name.trans otherName.symm))

/-- A file that one schema has is accepted by every other schema that is ready for it. -/
theorem add_of_accepted (leftAccepted : left.Accepted resolver)
    (rightFaithful : right.Faithful resolver) {id : FileId} {first : LoadedFile}
    (inLeft : left.files[id]? = some first) (own : first.Settled left id file)
    (awaits : right.Awaits resolver file) (isRoot : Bool) :
    ∃ next, ({} : Rules).add right file isRoot = .ok next := by
  have leftFaithful := leftAccepted.toFaithful
  have registered := leftFaithful.registered inLeft own
  have absent : left.translate right id = right.files.size := by
    simp only [translate, inLeft, own.name_eq, awaits.fresh, Option.getD_none]
  have imports : HaveImports left right file := by
    apply haveImports_of_isSome leftFaithful.settled.indexed _ awaits.imported
    intro statement member
    rcases leftFaithful.imported inLeft own statement member with ⟨target, named, -⟩
    rw [named, Option.isSome_some]
  have sound : Rules.referenceError? left id file first = none := by
    have sees : left.seenBy? first = left.visible? id := by
      funext name
      exact (visible?_of_getElem? leftFaithful.settled.ordered inLeft name).symm
    rw [Rules.referenceError?, sees]
    exact own.references_sound
  rcases Rules.link_cases right file isRoot with ⟨second, inRight, cases⟩
  have sameError := referenceError?_translate leftFaithful rightFaithful registered inRight absent
    imports
  rcases cases with ⟨error, wrong, -⟩ | ⟨loaded, -, link⟩
  · rw [sameError, sound] at wrong
    cases wrong
  · rcases rightFaithful.push_link awaits link with ⟨next, name⟩
    have judged := judged_alike leftFaithful next inLeft (getElem?_push_size right loaded)
      (own.name_eq.trans name.symm)
    refine ⟨right.push { loaded with isComplete := true }, Rules.add_eq_ok_iff.mpr
      ⟨loaded, link, fun validator member => ?_, rfl⟩⟩
    rw [judged validator member]
    exact leftAccepted.passed inLeft validator member

/-! ## Accepted schemas -/

namespace Accepted

variable {schema : Schema}

theorem empty : ({} : Schema).Accepted resolver where
  toFaithful := .empty
  passed present := by simp at present

theorem add (accepted : schema.Accepted resolver) (awaits : schema.Awaits resolver file)
    {isRoot : Bool} {next : Schema} (added : ({} : Rules).add schema file isRoot = .ok next) :
    next.Accepted resolver := by
  rcases Rules.add_eq_ok_iff.mp added with ⟨loaded, link, passed, rfl⟩
  have linked := Rules.link_eq_ok link
  have before := accepted.toFaithful.push awaits linked
  have after := accepted.toFaithful.push awaits linked.complete
  refine { toFaithful := after, passed := ?_ }
  intro id own present validator member
  rcases getElem?_push_cases present with held | ⟨rfl, rfl⟩
  · rw [judged_alike accepted.toFaithful after held present rfl validator member]
    exact accepted.passed held validator member
  · rw [judged_alike before after (getElem?_push_size schema loaded) present rfl validator member]
    exact passed validator member

theorem markRoot (accepted : schema.Accepted resolver) (root : FileId) :
    (schema.markRoot root).Accepted resolver where
  toFaithful := accepted.toFaithful.markRoot root
  passed present validator member := by
    rcases getElem?_markRoot_cases present with ⟨original, mark, held, rfl⟩
    rw [judged_alike accepted.toFaithful (accepted.toFaithful.markRoot root) held present rfl
      validator member]
    exact accepted.passed held validator member

/-- Loading by the rules of a new compiler keeps a schema accepted. -/
theorem steps (names : resolver.NamesFiles) {after : Schema} (accepted : schema.Accepted resolver)
    (steps : Rules.Steps {} resolver schema after) : after.Accepted resolver := by
  induction steps with
  | refl => exact accepted
  | tail _ step induction =>
      cases step with
      | added adds => exact induction.add (adds.awaits names) adds.added
      | withdrawn failed fresh =>
          rw [forget_of_fresh (fresh names)]
          exact induction

theorem commit (accepted : schema.Accepted resolver) (awaits : schema.Awaits resolver file)
    (isRoot : Bool) : (({} : Rules).commit schema file isRoot).2.Accepted resolver := by
  rcases Rules.commit_cases {} schema file isRoot with ⟨next, added, result⟩ | ⟨error, -, result⟩
  · rw [result]
    exact accepted.add awaits added
  · rw [result, forget_of_fresh awaits.fresh]
    exact accepted

end Accepted

end Schema

end ProtoSchema
