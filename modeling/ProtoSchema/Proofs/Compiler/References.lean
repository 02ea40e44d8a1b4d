import ProtoSchema.Proofs.Compiler.Sight
import ProtoSchema.Proofs.Draft.Scope
/-! # References of loaded files

Every reference of a loaded file is linked, and to the first declaration that its name
means from the inside to the outside: in the messages around it, then in the packages
of its file.
-/

namespace ProtoSchema

/-! ## What names refer to -/

/-- The prefixes that are tried for the names written in a declaration of a file. -/
def ProtoFile.Prefixes (file : ProtoFile) : Parent → List String → Prop :=
  Nesting file.id file.allMessages (.file file.id) (packagePrefixes file.package)

/-- There is one order of prefixes only. -/
theorem ProtoFile.Prefixes.unique {file : ProtoFile} {parent : Parent}
    {left right : List String} (first : file.Prefixes parent left)
    (second : file.Prefixes parent right) : left = right := by
  induction first generalizing right with
  | here =>
      cases second
      rfl
  | inside present named around induction =>
      cases second with
      | inside presentToo _ aroundToo =>
          rw [present] at presentToo
          cases presentToo
          rw [induction aroundToo]

namespace Schema

/-- The full name by which a written name is found in a file: an absolute name itself,
and otherwise the name behind the first prefix with which it means something. -/
inductive FirstFound (schema : Schema) (id : FileId) (prefixes : List String)
    (written : String) : String → Prop
  | absolute (dot : written.toList.head? = some '.') :
      FirstFound schema id prefixes written written
  | relative {tried later : List String} {namespaceName : String}
      (noDot : written.toList.head? ≠ some '.')
      (order : prefixes = tried ++ namespaceName :: later)
      (failed : ∀ other ∈ tried, schema.resolve id (other ++ written) = none) :
      FirstFound schema id prefixes written (namespaceName ++ written)

/-- A written name that is no scalar keyword refers to a declaration. -/
structure Refers (schema : Schema) (id : FileId) (prefixes : List String) (written : String)
    (target : UserType) : Prop where
  noKeyword : ScalarType.ofName? written = none
  found : ∃ fullName, schema.FirstFound id prefixes written fullName ∧
    schema.resolve id fullName = some target ∧ schema.fullName? target = some fullName
  file_le : target.file ≤ id

/-- A written name refers to the type of a value. -/
inductive RefersToValue (schema : Schema) (id : FileId) (prefixes : List String)
    (written : String) : ValueType → Prop
  | scalar {scalar : ScalarType} (keyword : ScalarType.ofName? written = some scalar) :
      RefersToValue schema id prefixes written (.scalar scalar)
  | message {target : MessageId}
      (refers : schema.Refers id prefixes written (.message target)) :
      RefersToValue schema id prefixes written (.message target)
  | enum {target : EnumId} (refers : schema.Refers id prefixes written (.enum target)) :
      RefersToValue schema id prefixes written (.enum target)

/-- A written type refers to the type of a field. -/
inductive RefersToField (schema : Schema) (id : FileId) (prefixes : List String) :
    WrittenType → FieldType → Prop
  | value {written : String} {type : ValueType}
      (refers : schema.RefersToValue id prefixes written type) :
      RefersToField schema id prefixes (.named written) (.value type)
  | map {key value : String} {keyType : ScalarType} {type : ValueType}
      (keyword : ScalarType.ofName? key = some keyType)
      (refers : schema.RefersToValue id prefixes value type) :
      RefersToField schema id prefixes (.map key value) (.map keyType type)

/-- A name is linked to the message that it refers to. -/
def LinkedMessage (schema : Schema) (id : FileId) (prefixes : List String) (written : String)
    (link : Option MessageId) : Prop :=
  ∃ target, link = some target ∧ schema.Refers id prefixes written (.message target)

/-- All fields are linked to the types that they refer to. -/
def LinkedFields (schema : Schema) (id : FileId) (prefixes : List String)
    (fields : List Field) : Prop :=
  ∀ field ∈ fields, ∃ type, field.type = some type ∧
    schema.RefersToField id prefixes field.written type

/-- All references of a file are linked to what they refer to. -/
structure LinkedFile (schema : Schema) (id : FileId) (file : ProtoFile) : Prop where
  id_eq : file.id = id
  messages : ∀ (index : Nat) message, file.allMessages[index]? = some message →
    ∃ prefixes, file.Prefixes (.message ⟨id, index⟩) prefixes ∧
      schema.LinkedFields id prefixes message.fields
  extensions : ∀ (index : Nat) extension, file.allExtensions[index]? = some extension →
    ∃ prefixes, file.Prefixes extension.parent prefixes ∧
      schema.LinkedMessage id prefixes extension.writtenExtendee extension.extendee ∧
      schema.LinkedFields id prefixes extension.fields
  methods : ∀ (index : Nat) service, file.allServices[index]? = some service →
    ∀ method ∈ service.methods,
      schema.LinkedMessage id (packagePrefixes file.package) method.writtenInput method.input ∧
      schema.LinkedMessage id (packagePrefixes file.package) method.writtenOutput method.output

/-- All references of all files are linked to what they refer to. -/
def ReferencesLinked (schema : Schema) : Prop :=
  ∀ (id : FileId) loaded, schema.files[id]? = some loaded → schema.LinkedFile id loaded.file

/-! ## Meanings -/

section Meanings

variable {Opened : SourceFile → Prop} {schema : Schema} {id : FileId}
  {prefixes : List String} {written : String}

theorem resolve_of_dotted {name : String} (dot : name.toList.head? = some '.') :
    schema.resolve id name = schema.visible? id name := by
  rw [resolve, qualify, if_pos dot]

/-- What a name means in the linking of a file is what it refers to. -/
theorem Settled.refers (settled : schema.Settled Opened)
    (dotted : ∀ namespaceName ∈ prefixes, namespaceName.toList.head? = some '.')
    {target : UserType}
    (meaning : Link.meaning? (schema.visible? id) prefixes written = some (.declared target)) :
    schema.Refers id prefixes written target := by
  rw [Link.meaning?] at meaning
  cases keyword : ScalarType.ofName? written with
  | some scalar =>
      rw [keyword] at meaning
      cases meaning
  | none =>
      rw [keyword] at meaning
      dsimp only at meaning
      have settle : ∀ {fullName}, fullName.toList.head? = some '.' →
          schema.FirstFound id prefixes written fullName →
          schema.visible? id fullName = some target →
          schema.Refers id prefixes written target := by
        intro fullName dot first found
        refine ⟨keyword, ⟨fullName, first, ?_, (settled.sees_of_visible? found).2⟩, ?_⟩
        · rw [resolve_of_dotted dot]
          exact found
        · exact file_le_of_visible? settled.ordered settled.owned found
      split at meaning
      · next dot =>
          rcases Option.map_eq_some_iff.mp meaning with ⟨_, found, equal⟩
          cases equal
          exact settle dot (.absolute dot) found
      · next noDot =>
          rcases Option.map_eq_some_iff.mp meaning with ⟨_, found, equal⟩
          cases equal
          rcases List.findSome?_eq_some_iff.mp found with
            ⟨tried, namespaceName, later, order, found, failed⟩
          have dot := dotted namespaceName (by rw [order]; simp)
          refine settle (dotted_append dot written) (.relative noDot order ?_) found
          intro other member
          rw [resolve_of_dotted (dotted_append (dotted other (by rw [order]; simp [member])) _)]
          exact failed other member

theorem Settled.linkedMessage (settled : schema.Settled Opened)
    (dotted : ∀ namespaceName ∈ prefixes, namespaceName.toList.head? = some '.')
    {unsuitable : Problem}
    (sound : Link.problem?
      (Link.linkMessage (schema.visible? id) prefixes written unsuitable) = none) :
    schema.LinkedMessage id prefixes written
      (Link.value? (Link.linkMessage (schema.visible? id) prefixes written unsuitable)) := by
  cases link : Link.linkMessage (schema.visible? id) prefixes written unsuitable with
  | error problem =>
      rw [link] at sound
      cases sound
  | ok target =>
      exact ⟨target, rfl, settled.refers dotted (Link.linkMessage_eq_ok_iff.mp link)⟩

theorem Settled.refersToValue (settled : schema.Settled Opened)
    (dotted : ∀ namespaceName ∈ prefixes, namespaceName.toList.head? = some '.')
    {type : ValueType}
    (link : Link.linkValueType (schema.visible? id) prefixes written = .ok type) :
    schema.RefersToValue id prefixes written type := by
  rw [Link.linkValueType] at link
  split at link
  · next scalar meaning =>
      cases link
      refine .scalar ?_
      rw [Link.meaning?] at meaning
      split at meaning
      · next keyword =>
          cases meaning
          exact keyword
      · split at meaning <;>
          rcases Option.map_eq_some_iff.mp meaning with ⟨_, _, equal⟩ <;>
          cases equal
  · next target meaning =>
      cases link
      exact .message (settled.refers dotted meaning)
  · next target meaning =>
      cases link
      exact .enum (settled.refers dotted meaning)
  · cases link
  · cases link

theorem Settled.refersToField (settled : schema.Settled Opened)
    (dotted : ∀ namespaceName ∈ prefixes, namespaceName.toList.head? = some '.')
    {type : WrittenType} {linked : FieldType}
    (link : Link.linkFieldType (schema.visible? id) prefixes type = .ok linked) :
    schema.RefersToField id prefixes type linked := by
  cases type with
  | named written =>
      rw [Link.linkFieldType] at link
      cases value : Link.linkValueType (schema.visible? id) prefixes written with
      | error problem =>
          rw [value] at link
          cases link
      | ok type =>
          rw [value] at link
          cases link
          exact .value (settled.refersToValue dotted value)
  | map key written =>
      rw [Link.linkFieldType, Link.linkKeyType] at link
      cases keyword : ScalarType.ofName? key with
      | none =>
          rw [keyword] at link
          cases link
      | some keyType =>
          rw [keyword] at link
          dsimp only at link
          split at link
          · cases value : Link.linkValueType (schema.visible? id) prefixes written with
            | error problem =>
                rw [value] at link
                cases link
            | ok type =>
                rw [value] at link
                cases link
                exact .map keyword (settled.refersToValue dotted value)
          · cases link

theorem Settled.linkedFields (settled : schema.Settled Opened)
    (dotted : ∀ namespaceName ∈ prefixes, namespaceName.toList.head? = some '.')
    {fields : List Field}
    (sound : ∀ field ∈ fields,
      Link.referenceError? (schema.visible? id) (Draft.fieldReference prefixes field) = none) :
    schema.LinkedFields id prefixes
      (fields.map (Link.linkField (schema.visible? id) prefixes)) := by
  intro field member
  rcases List.mem_map.mp member with ⟨draft, inDraft, rfl⟩
  have noError := sound draft inDraft
  rw [Link.referenceError?, Option.map_eq_none_iff] at noError
  simp only [Draft.fieldReference] at noError
  cases link : Link.linkFieldType (schema.visible? id) prefixes draft.written with
  | error problem =>
      rw [link] at noError
      cases noError
  | ok type =>
      refine ⟨type, ?_, settled.refersToField dotted link⟩
      rw [Link.linkField, link]
      rfl

end Meanings

/-! ## Files -/

end Schema

/-- No reference of a settled file has an error. -/
theorem LoadedFile.Settled.referenceError?_eq_none {schema : Schema} {id : FileId}
    {file : SourceFile} {loaded : LoadedFile} (own : loaded.Settled schema id file)
    {reference : Reference} (member : reference ∈ (Rules.draftOf id file).file.references) :
    Link.referenceError? (schema.visible? id) reference = none := by
  have listed := (Draft.ofTree_references_perm id file.name file.source file.tree).mem_iff.mpr
    member
  exact List.findSome?_eq_none_iff.mp own.references_sound reference listed

/-- What stands around a declaration of a draft stands around it in the linked file. -/
theorem LoadedFile.Settled.prefixes {schema : Schema} {id : FileId} {file : SourceFile}
    {loaded : LoadedFile} (own : loaded.Settled schema id file) {parent : Parent}
    {prefixes : List String}
    (nesting : Nesting id (Rules.draftOf id file).file.allMessages (.file id)
      (packageScope (Draft.filePackage file.tree)) parent prefixes) :
    loaded.file.Prefixes parent prefixes := by
  rw [packageScope_eq] at nesting
  have mapped := @Nesting.map _ _ _ _ _ _ nesting
    (Link.linkMessageFields (schema.visible? id)) (fun _ => rfl) (fun _ => rfl) (fun _ => rfl)
  rw [own.file_eq]
  exact mapped

namespace Schema

namespace Settled

variable {Opened : SourceFile → Prop} {schema : Schema} {id : FileId} {file : SourceFile}
  {loaded : LoadedFile}

theorem messages_linked (settled : schema.Settled Opened)
    (own : loaded.Settled schema id file) {index : Nat} {message : Message}
    (present : loaded.file.allMessages[index]? = some message) :
    ∃ prefixes, loaded.file.Prefixes (.message ⟨id, index⟩) prefixes ∧
      schema.LinkedFields id prefixes message.fields := by
  have linked : loaded.file.allMessages = (Rules.draftOf id file).file.allMessages.map
      (Link.linkMessageFields (schema.visible? id)) := by
    rw [own.file_eq]
    rfl
  rw [linked, Array.getElem?_map] at present
  rcases Option.map_eq_some_iff.mp present with ⟨draft, inDraft, rfl⟩
  rcases (Draft.stands_fileState id file.name file.source file.tree).message index draft
    inDraft with absent | ⟨outer, nesting, named, scope⟩
  · simp at absent
  have around : Nesting id (Rules.draftOf id file).file.allMessages (.file id)
      (packageScope (Draft.filePackage file.tree)) (.message ⟨id, index⟩) draft.scope := by
    rw [scope]
    exact .inside inDraft named nesting
  refine ⟨draft.scope, own.prefixes around, ?_⟩
  apply settled.linkedFields (around.dotted (dotted_packageScope _))
  intro field member
  apply own.referenceError?_eq_none
  rw [ProtoFile.references]
  refine List.mem_append_left _ (List.mem_append_right _ (List.mem_flatMap.mpr ⟨draft, ?_, ?_⟩))
  · exact Array.mem_toList_iff.mpr (Array.mem_of_getElem? inDraft)
  · exact List.mem_map_of_mem member

theorem extensions_linked (settled : schema.Settled Opened)
    (own : loaded.Settled schema id file) {index : Nat} {extension : Extension}
    (present : loaded.file.allExtensions[index]? = some extension) :
    ∃ prefixes, loaded.file.Prefixes extension.parent prefixes ∧
      schema.LinkedMessage id prefixes extension.writtenExtendee extension.extendee ∧
      schema.LinkedFields id prefixes extension.fields := by
  have linked : loaded.file.allExtensions = (Rules.draftOf id file).file.allExtensions.map
      (Link.linkExtension (schema.visible? id)) := by
    rw [own.file_eq]
    rfl
  rw [linked, Array.getElem?_map] at present
  rcases Option.map_eq_some_iff.mp present with ⟨draft, inDraft, rfl⟩
  rcases (Draft.stands_fileState id file.name file.source file.tree).extension index draft
    inDraft with absent | nesting
  · simp at absent
  have around : Nesting id (Rules.draftOf id file).file.allMessages (.file id)
      (packageScope (Draft.filePackage file.tree)) draft.parent draft.scope := nesting
  have dotted := around.dotted (dotted_packageScope _)
  have sound : ∀ reference ∈ Draft.extensionReferences draft,
      Link.referenceError? (schema.visible? id) reference = none := by
    intro reference member
    apply own.referenceError?_eq_none
    rw [ProtoFile.references]
    refine List.mem_append_right _ (List.mem_flatMap.mpr ⟨draft, ?_, member⟩)
    exact Array.mem_toList_iff.mpr (Array.mem_of_getElem? inDraft)
  refine ⟨draft.scope, own.prefixes around, ?_, ?_⟩
  · have noError := sound _ List.mem_cons_self
    rw [Link.referenceError?, Option.map_eq_none_iff] at noError
    exact settled.linkedMessage dotted noError
  · apply settled.linkedFields dotted
    intro field member
    exact sound _ (List.mem_cons_of_mem _ (List.mem_map_of_mem member))

theorem methods_linked (settled : schema.Settled Opened)
    (own : loaded.Settled schema id file) {index : Nat} {service : Service}
    (present : loaded.file.allServices[index]? = some service) {method : Method}
    (member : method ∈ service.methods) :
    schema.LinkedMessage id (packagePrefixes loaded.file.package) method.writtenInput
        method.input ∧
      schema.LinkedMessage id (packagePrefixes loaded.file.package) method.writtenOutput
        method.output := by
  have linked : loaded.file.allServices = (Rules.draftOf id file).file.allServices.map
      (Link.linkService (schema.visible? id) (packageScope loaded.file.package)) := by
    rw [own.file_eq]
    rfl
  have package : (Rules.draftOf id file).file.package = loaded.file.package := by
    rw [own.file_eq]
    rfl
  rw [linked, Array.getElem?_map] at present
  rcases Option.map_eq_some_iff.mp present with ⟨draft, inDraft, rfl⟩
  rcases List.mem_map.mp member with ⟨draftMethod, inService, rfl⟩
  have sound : ∀ reference ∈ Draft.methodReferences (packageScope loaded.file.package)
      draftMethod, Link.referenceError? (schema.visible? id) reference = none := by
    intro reference member
    apply own.referenceError?_eq_none
    rw [ProtoFile.references, package]
    refine List.mem_append_left _ (List.mem_append_left _ (List.mem_flatMap.mpr ⟨draft, ?_, ?_⟩))
    · exact Array.mem_toList_iff.mpr (Array.mem_of_getElem? inDraft)
    · exact List.mem_flatMap.mpr ⟨draftMethod, inService, member⟩
  rw [← packageScope_eq]
  have dotted := dotted_packageScope loaded.file.package
  have input := sound _ List.mem_cons_self
  have output := sound _ (List.mem_cons_of_mem _ List.mem_cons_self)
  rw [Link.referenceError?, Option.map_eq_none_iff] at input output
  exact ⟨settled.linkedMessage dotted input, settled.linkedMessage dotted output⟩

end Settled

/-- In every session all references of all loaded files are linked to what they refer
to. -/
theorem referencesLinked_run (resolver : Resolver) (operations : List Operation) :
    (Session.run resolver operations).compiler.schema.ReferencesLinked := by
  intro id loaded present
  have settled := settled_run resolver operations
  rcases settled.files present with ⟨file, -, own⟩
  exact
    { id_eq := own.id_eq
      messages := fun _ _ held => settled.messages_linked own held
      extensions := fun _ _ held => settled.extensions_linked own held
      methods := fun _ _ held _ member => settled.methods_linked own held member }

end Schema

end ProtoSchema
