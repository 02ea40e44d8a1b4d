import ProtoSchema.Proofs.Compiler.Registration
import ProtoSchema.Proofs.Draft.Mentions
/-! # Resolution of references

The references of a file are linked unless one of the types that it mentions is not found, or is
of a kind that its place does not permit. The first such mention in the order of a walk is the
one that is reported.
-/

namespace ProtoSchema

/-! ## What is permitted -/

/-- The meaning of a written name: the words for scalar types come first, an absolute name means
itself, and any other name is looked up behind one prefix after the other. -/
inductive Link.Means (resolve : Resolution) (scope : List String) (written : String) :
    Meaning → Prop
  | scalar {scalar : ScalarType} (keyword : ScalarType.ofName? written = some scalar) :
      Means resolve scope written (.scalar scalar)
  | absolute {target : UserType} (noKeyword : ScalarType.ofName? written = none)
      (dot : written.toList.head? = some '.') (found : resolve written = some target) :
      Means resolve scope written (.declared target)
  | relative {target : UserType} {tried later : List String} {namespaceName : String}
      (noKeyword : ScalarType.ofName? written = none)
      (noDot : written.toList.head? ≠ some '.')
      (order : scope = tried ++ namespaceName :: later)
      (failed : ∀ other ∈ tried, resolve (other ++ written) = none)
      (found : resolve (namespaceName ++ written) = some target) :
      Means resolve scope written (.declared target)

namespace ScalarType

/-- The types of whole numbers. -/
def integral : List ScalarType :=
  [int32, int64, uint32, uint64, sint32, sint64, fixed32, fixed64, sfixed32, sfixed64]

theorem isMapKey_iff (scalar : ScalarType) :
    scalar.isMapKey = true ↔ scalar ∈ integral ∨ scalar = .bool ∨ scalar = .string := by
  cases scalar <;> decide

end ScalarType

/-- What a type may be, depending on what it is written for. -/
inductive Usage.Permits : Usage → Link.Meaning → Prop
  | method (direction : Direction) (id : MessageId) :
      Permits (.method direction) (.declared (.message id))
  | extendee (id : MessageId) : Permits .extendee (.declared (.message id))
  | scalarValue (scalar : ScalarType) : Permits .value (.scalar scalar)
  | messageValue (id : MessageId) : Permits .value (.declared (.message id))
  | enumValue (id : EnumId) : Permits .value (.declared (.enum id))
  | key {scalar : ScalarType}
      (allowed : scalar ∈ ScalarType.integral ∨ scalar = .bool ∨ scalar = .string) :
      Permits .key (.scalar scalar)

/-- The problem of a type of another kind than is permitted. -/
def Usage.mismatch (written : String) : Usage → Problem
  | .method direction => .invalidMethodType direction written
  | .extendee => .invalidExtendee written
  | .value => .invalidFieldType written
  | .key => .invalidMapKeyType written

namespace Mention

variable (resolve : Link.Resolution) (mention : Mention)

/-- The type is found, and of a kind that is permitted. -/
def Suits : Prop :=
  ∃ meaning, Link.Means resolve mention.scope mention.written meaning ∧
    mention.usage.Permits meaning

/-- The type is not found, or of a kind that is not permitted. The type of the keys of a map is
always of a wrong kind. -/
inductive Fails : CheckError → Prop
  | lost (noKey : mention.usage ≠ .key)
      (nothing : ∀ meaning, ¬ Link.Means resolve mention.scope mention.written meaning) :
      Fails ⟨.typeNotFound mention.written, mention.span⟩
  | lostKey (key : mention.usage = .key)
      (nothing : ∀ meaning, ¬ Link.Means resolve mention.scope mention.written meaning) :
      Fails ⟨.invalidMapKeyType mention.written, mention.span⟩
  | mismatched {meaning : Link.Meaning}
      (found : Link.Means resolve mention.scope mention.written meaning)
      (forbidden : ¬ mention.usage.Permits meaning) :
      Fails ⟨mention.usage.mismatch mention.written, mention.span⟩

end Mention

/-- What is made of the references of a file: they are linked if every type that a walk meets
suits, and otherwise the first one that does not is reported. -/
structure ProtoFile.ResolvesExactly (resolve : Link.Resolution) (file : ProtoFile)
    (result : Except CheckError ProtoFile) : Prop where
  mentioned : ∃ mentions, file.Mentions mentions
  /-- A walk meets every reference of the file, and each as often as it occurs. -/
  all : ∀ mentions, file.Mentions mentions →
    mentions.Perm (file.references.flatMap Reference.mentions)
  ok_iff : ∀ mentions, file.Mentions mentions →
    ((∃ linked, result = .ok linked) ↔ ∀ mention ∈ mentions, mention.Suits resolve)
  error_iff : ∀ mentions, file.Mentions mentions → ∀ error,
    result = .error error ↔
      ∃ before mention later, mentions = before ++ mention :: later ∧
        (∀ earlier ∈ before, earlier.Suits resolve) ∧ mention.Fails resolve error

/-! ## Meanings -/

namespace Link

variable {resolve : Resolution} {scope : List String} {written : String}

theorem means_iff {meaning : Meaning} :
    Means resolve scope written meaning ↔ meaning? resolve scope written = some meaning := by
  rw [meaning?]
  constructor
  · intro means
    cases means with
    | scalar keyword => rw [keyword]
    | absolute noKeyword dot found => simp [noKeyword, dot, found]
    | relative noKeyword noDot order failed found =>
        have first := List.findSome?_eq_some_iff.mpr
          ⟨_, _, _, order, found, failed⟩
        simp only [noKeyword, if_neg noDot, first, Option.map_some]
  · intro meaning
    split at meaning
    · next keyword =>
        cases meaning
        exact .scalar keyword
    · next noKeyword =>
        split at meaning
        · next dot =>
            rcases Option.map_eq_some_iff.mp meaning with ⟨target, found, rfl⟩
            exact .absolute noKeyword dot found
        · next noDot =>
            rcases Option.map_eq_some_iff.mp meaning with ⟨target, found, rfl⟩
            rcases List.findSome?_eq_some_iff.mp found with
              ⟨tried, namespaceName, later, order, found, failed⟩
            exact .relative noKeyword noDot order failed found

theorem meaning?_eq_none_iff :
    meaning? resolve scope written = none ↔ ∀ meaning, ¬ Means resolve scope written meaning := by
  rw [Option.eq_none_iff_forall_ne_some]
  exact forall_congr' fun meaning => not_congr means_iff.symm

/-- The words for scalar types mean the same everywhere. -/
theorem meaning?_eq_scalar_iff {scalar : ScalarType} :
    meaning? resolve scope written = some (.scalar scalar) ↔
      ScalarType.ofName? written = some scalar := by
  rw [← means_iff]
  constructor
  · rintro (keyword | _ | _)
    exact keyword
  · exact .scalar

/-- Anything else than a message is unsuitable where a message is wanted. -/
theorem linkMessage_of_mismatch {unsuitable : Problem} {meaning : Meaning}
    (found : meaning? resolve scope written = some meaning)
    (other : ∀ id, meaning ≠ .declared (.message id)) :
    linkMessage resolve scope written unsuitable = .error unsuitable := by
  rw [linkMessage, found]
  split
  · next id same => exact absurd (Option.some.inj same) (other id)
  · rfl
  · next same => cases same

/-- The type of the keys of a map is a scalar type that is permitted for them. -/
theorem linkKeyType_of_mismatch
    (other : ∀ scalar, ScalarType.ofName? written = some scalar → scalar.isMapKey = false) :
    linkKeyType written = .error (.invalidMapKeyType written) := by
  rw [linkKeyType]
  cases keyword : ScalarType.ofName? written with
  | none => rfl
  | some scalar => simp [other scalar keyword]

end Link

/-! ## Errors of mentions -/

namespace Mention

/-- What is wrong with a type that is mentioned. -/
def error? (resolve : Link.Resolution) (mention : Mention) : Option CheckError :=
  (match mention.usage with
    | .method direction =>
        Link.problem? (Link.linkMethodType resolve mention.scope direction mention.written)
    | .extendee => Link.problem? (Link.linkExtendee resolve mention.scope mention.written)
    | .value => Link.problem? (Link.linkValueType resolve mention.scope mention.written)
    | .key => Link.problem? (Link.linkKeyType mention.written)).map (⟨·, mention.span⟩)

variable {resolve : Link.Resolution} {mention : Mention} {error : CheckError}

theorem error?_of_suits (suits : mention.Suits resolve) : mention.error? resolve = none := by
  rcases mention with ⟨usage, written, scope, span⟩
  rcases suits with ⟨meaning, found, permitted⟩
  have means := Link.means_iff.mp found
  cases permitted with
  | key allowed =>
      have isMapKey := (ScalarType.isMapKey_iff _).mpr allowed
      have keyword := Link.meaning?_eq_scalar_iff.mp means
      simp [error?, Link.linkKeyType, keyword, isMapKey, Link.problem?]
  | _ =>
      simp only at means
      simp [error?, Link.linkMethodType, Link.linkExtendee, Link.linkMessage,
        Link.linkValueType, means, Link.problem?]

/-- Anything but the type of the keys of a map is not found if it has no meaning. -/
theorem error?_of_lost (noKey : mention.usage ≠ .key)
    (lost : Link.meaning? resolve mention.scope mention.written = none) :
    mention.error? resolve = some ⟨.typeNotFound mention.written, mention.span⟩ := by
  rcases mention with ⟨usage, written, scope, span⟩
  simp only at lost
  cases usage with
  | key => exact absurd rfl noKey
  | _ =>
      simp [error?, Link.linkMethodType, Link.linkExtendee, Link.linkMessage,
        Link.linkValueType, lost, Link.problem?]

theorem error?_of_badKey (key : mention.usage = .key)
    (bad : ∀ scalar, ScalarType.ofName? mention.written = some scalar →
      scalar.isMapKey = false) :
    mention.error? resolve = some ⟨.invalidMapKeyType mention.written, mention.span⟩ := by
  rw [error?, key]
  simp [Link.linkKeyType_of_mismatch bad, Link.problem?]

/-- A type of a kind that is not permitted does not match. -/
theorem error?_of_mismatched {meaning : Link.Meaning}
    (found : Link.meaning? resolve mention.scope mention.written = some meaning)
    (forbidden : ¬ mention.usage.Permits meaning) :
    mention.error? resolve = some ⟨mention.usage.mismatch mention.written, mention.span⟩ := by
  rcases mention with ⟨usage, written, scope, span⟩
  simp only at found forbidden
  cases usage with
  | method direction =>
      have other : ∀ id, meaning ≠ .declared (.message id) :=
        fun id same => forbidden (same ▸ .method direction id)
      simp [error?, Link.linkMethodType, Link.linkMessage_of_mismatch found other,
        Link.problem?, Usage.mismatch]
  | extendee =>
      have other : ∀ id, meaning ≠ .declared (.message id) :=
        fun id same => forbidden (same ▸ .extendee id)
      simp [error?, Link.linkExtendee, Link.linkMessage_of_mismatch found other,
        Link.problem?, Usage.mismatch]
  | value =>
      rcases meaning with scalar | (id | id | id)
      · exact absurd (.scalarValue scalar) forbidden
      · exact absurd (.messageValue id) forbidden
      · exact absurd (.enumValue id) forbidden
      · simp [error?, Link.linkValueType, found, Link.problem?, Usage.mismatch]
  | key =>
      -- A word for a scalar type means that type everywhere, so that type is the forbidden one.
      refine error?_of_badKey rfl fun scalar keyword => ?_
      cases (Link.meaning?_eq_scalar_iff.mpr keyword).symm.trans found
      rw [Bool.eq_false_iff]
      exact fun allowed => forbidden (.key ((ScalarType.isMapKey_iff scalar).mp allowed))

theorem error?_of_fails (fails : mention.Fails resolve error) :
    mention.error? resolve = some error := by
  cases fails with
  | lost noKey nothing => exact error?_of_lost noKey (Link.meaning?_eq_none_iff.mpr nothing)
  | lostKey key nothing =>
      exact error?_of_badKey key fun scalar keyword => absurd (.scalar keyword) (nothing _)
  | mismatched found forbidden =>
      exact error?_of_mismatched (Link.means_iff.mp found) forbidden

theorem suits_or_fails (resolve : Link.Resolution) (mention : Mention) :
    mention.Suits resolve ∨ ∃ error, mention.Fails resolve error := by
  cases means : Link.meaning? resolve mention.scope mention.written with
  | none =>
      have nothing := Link.meaning?_eq_none_iff.mp means
      by_cases key : mention.usage = .key
      · exact .inr ⟨_, .lostKey key nothing⟩
      · exact .inr ⟨_, .lost key nothing⟩
  | some meaning =>
      have found := Link.means_iff.mpr means
      by_cases permitted : mention.usage.Permits meaning
      · exact .inl ⟨meaning, found, permitted⟩
      · exact .inr ⟨_, .mismatched found permitted⟩

theorem error?_eq_none_iff : mention.error? resolve = none ↔ mention.Suits resolve := by
  refine ⟨fun clear => ?_, error?_of_suits⟩
  rcases suits_or_fails resolve mention with suits | ⟨error, fails⟩
  · exact suits
  · rw [error?_of_fails fails] at clear
    cases clear

theorem error?_eq_some_iff :
    mention.error? resolve = some error ↔ mention.Fails resolve error := by
  refine ⟨fun wrong => ?_, error?_of_fails⟩
  rcases suits_or_fails resolve mention with suits | ⟨other, fails⟩
  · rw [error?_of_suits suits] at wrong
    cases wrong
  · rw [error?_of_fails fails] at wrong
    cases wrong
    exact fails

end Mention

/-! ## Files -/

namespace Link

variable {resolve : Resolution}

/-- A reference has the error of the first type that it mentions and that does not suit. -/
theorem referenceError?_eq_findSome? (reference : Reference) :
    referenceError? resolve reference = reference.mentions.findSome? (Mention.error? resolve) := by
  rcases reference with ⟨role, scope, span⟩
  rcases role with ⟨direction, written⟩ | written | (written | ⟨key, value⟩)
  · simp [referenceError?, Reference.mentions, Mention.error?]
  · simp [referenceError?, Reference.mentions, Mention.error?]
  · cases found : linkValueType resolve scope written <;>
      simp [referenceError?, Reference.mentions, WrittenType.mentions, Mention.error?,
        linkFieldType, found, problem?]
  · cases first : linkKeyType key <;> cases second : linkValueType resolve scope value <;>
      simp [referenceError?, Reference.mentions, WrittenType.mentions, Mention.error?,
        linkFieldType, first, second, problem?, bind, Except.bind]

theorem findSome?_mentions (references : List Reference) :
    (references.flatMap Reference.mentions).findSome? (Mention.error? resolve) =
      references.findSome? (referenceError? resolve) := by
  induction references with
  | nil => rfl
  | cons reference references induction =>
      rw [List.flatMap_cons, List.findSome?_append, induction, List.findSome?_cons,
        referenceError?_eq_findSome?]
      cases reference.mentions.findSome? (Mention.error? resolve) <;> rfl

theorem linkFile_eq_error_iff {references : List Reference} {file : ProtoFile}
    {error : CheckError} :
    linkFile resolve references file = .error error ↔
      references.findSome? (referenceError? resolve) = some error := by
  rw [linkFile]
  split
  · next found => simp [found]
  · next none => simp [none]

theorem exists_linkFile_eq_ok_iff {references : List Reference} {file : ProtoFile} :
    (∃ linked, linkFile resolve references file = .ok linked) ↔
      references.findSome? (referenceError? resolve) = none := by
  rw [linkFile]
  split
  · next found => simp [found]
  · next none => simp [none]

end Link

/-- The references of a draft are resolved exactly, whatever names mean in its file and whatever
its imports are. -/
theorem Draft.linkFile_ofTree (resolve : Link.Resolution) (id : FileId) (name source : String)
    (tree : Syntax.File) (imports : List Import) :
    ProtoFile.ResolvesExactly resolve { (ofTree id name source tree).file with imports }
      (Link.linkFile resolve (ofTree id name source tree).references
        { (ofTree id name source tree).file with imports }) := by
  have mentioned := (mentions_ofTree id name source tree).withImports imports
  exact
    { mentioned := ⟨_, mentioned⟩
      all := by
        intro mentions walked
        cases walked.unique mentioned
        exact (ofTree_references_perm id name source tree).flatMap_right _
      ok_iff := by
        intro mentions walked
        cases walked.unique mentioned
        rw [Link.exists_linkFile_eq_ok_iff, ← Link.findSome?_mentions, List.findSome?_eq_none_iff]
        exact forall₂_congr fun mention _ => Mention.error?_eq_none_iff
      error_iff := by
        intro mentions walked error
        cases walked.unique mentioned
        rw [Link.linkFile_eq_error_iff, ← Link.findSome?_mentions, List.findSome?_eq_some_iff]
        simp only [Mention.error?_eq_none_iff, Mention.error?_eq_some_iff]
        exact exists₃_congr fun before mention later => and_congr_right fun _ => and_comm }

namespace Rules

/-- Once the names of a file are registered, its references are resolved exactly. -/
theorem resolvesExactly {schema : Schema} {strictNames isRoot : Bool} {file : SourceFile}
    {registered : LoadedFile}
    (registers : Link.registerNames schema strictNames (nextDraft schema file isRoot)
      (draftOf schema.files.size file).names = .ok registered) :
    registered.file.ResolvesExactly (schema.seenBy? registered)
      (Link.linkFile (schema.seenBy? registered) (draftOf schema.files.size file).references
        registered.file) := by
  rcases Link.registerNames_eq_ok registers with ⟨conflicts, rfl⟩
  exact Draft.linkFile_ofTree _ _ file.name file.source file.tree _

/-- The second field of a message has a type that is not declared, the third one keys that no
map may have. -/
theorem resolvesExactly_missing :
    ∃ file registered,
      SourceFile.ofSource "m.proto" "message M{M m=1;N n=2;map<M,M> p=3;}" = .ok file ∧
      Link.registerNames {} false (nextDraft {} file true) (draftOf 0 file).names =
        .ok registered ∧
      registered.file.ResolvesExactly (({} : Schema).seenBy? registered)
        (Link.linkFile (({} : Schema).seenBy? registered) (draftOf 0 file).references
          registered.file) ∧
      Link.linkFile (({} : Schema).seenBy? registered) (draftOf 0 file).references
        registered.file = .error ⟨.typeNotFound "N", ⟨16, 17⟩⟩ := by
  have computed : (SourceFile.ofSource "m.proto"
      "message M{M m=1;N n=2;map<M,M> p=3;}").toOption.map (fun file =>
        referenceError? {} 0 file
          (Link.withNames {} (nextDraft {} file true) (draftOf 0 file).names)) =
      some (some ⟨.typeNotFound "N", ⟨16, 17⟩⟩) := by
    decide +kernel
  generalize SourceFile.ofSource "m.proto" _ = opened at computed ⊢
  cases opened with
  | error error => cases computed
  | ok file =>
      have registers : Link.registerNames {} false (nextDraft {} file true)
          (draftOf 0 file).names =
          .ok (Link.withNames {} (nextDraft {} file true) (draftOf 0 file).names) :=
        Link.registerNames_of_clear (.inl rfl)
      have failed := @Link.linkFile_eq_error_iff _ _
        (Link.withNames {} (nextDraft {} file true) (draftOf 0 file).names).file _ |>.mpr
        (Option.some.inj computed)
      exact ⟨file, _, rfl, registers, resolvesExactly registers, failed⟩

end Rules

end ProtoSchema
