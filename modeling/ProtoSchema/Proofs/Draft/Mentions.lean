import ProtoSchema.Proofs.Draft.Placement
/-! # Mentions of types

The places of a file at which a type is written. A walk over the declarations meets them service
by service, then message by message, each message before the messages in it, and last in the
extend blocks at the top level. The references of a draft come in this order.
-/

namespace ProtoSchema

/-! ## Mentions -/

/-- What a type is written for. The values of a map are values like those of any field. -/
inductive Usage
  | method (direction : Direction)
  | extendee
  | value
  | key
  deriving DecidableEq, Repr

/-- A type that is written somewhere, and the prefixes that are tried for it. -/
structure Mention where
  usage : Usage
  written : String
  scope : List String
  span : Span
  deriving DecidableEq, Repr

/-- The type of a field. A map has two, both with the span of the whole. -/
def WrittenType.mentions (scope : List String) (span : Span) : WrittenType → List Mention
  | .named written => [⟨.value, written, scope, span⟩]
  | .map key value => [⟨.key, key, scope, span⟩, ⟨.value, value, scope, span⟩]

def Field.mentions (scope : List String) (field : Field) : List Mention :=
  field.written.mentions scope field.typeSpan

def Extension.mentions (scope : List String) (extension : Extension) : List Mention :=
  ⟨.extendee, extension.writtenExtendee, scope, extension.extendeeSpan⟩ ::
    extension.fields.flatMap (Field.mentions scope)

def Method.mentions (scope : List String) (method : Method) : List Mention :=
  [⟨.method .input, method.writtenInput, scope, method.inputSpan⟩,
    ⟨.method .output, method.writtenOutput, scope, method.outputSpan⟩]

def Service.mentions (scope : List String) (service : Service) : List Mention :=
  service.methods.flatMap (Method.mentions scope)

/-! ## Walks -/

/-- The extend blocks with some numbers. -/
def Draft.Numbered.Blocks (numbered : Draft.Numbered) :
    List ExtensionId → List Extension → Prop :=
  List.Forall₂ fun id block => numbered.extensions[id.index]? = some block

/-- A walk over messages in order. In each of them it meets the fields, then the extend blocks,
then the messages. -/
inductive Draft.Numbered.Walks (numbered : Draft.Numbered) :
    List String → List MessageId → List Mention → Prop
  | done (scope : List String) : Walks numbered scope [] []
  | message {scope within : List String} {id : MessageId} {ids : List MessageId}
      {own : Message} {blocks : List Extension} {inner later : List Mention}
      (present : numbered.messages[id.index]? = some own)
      (within_eq : within = (own.fullName ++ ".") :: scope)
      (listed : numbered.Blocks own.extensions blocks)
      (inside : Walks numbered within own.messages inner)
      (rest : Walks numbered scope ids later) :
      Walks numbered scope (id :: ids)
        (own.fields.flatMap (Field.mentions within) ++
          blocks.flatMap (Extension.mentions within) ++ inner ++ later)

/-- All mentions of types in a file, in the order of a walk. -/
inductive ProtoFile.Mentions (file : ProtoFile) : List Mention → Prop
  | intro {scope : List String} {services : List Service} {inner : List Mention}
      {blocks : List Extension}
      (scope_eq : scope = packagePrefixes file.package)
      (served : List.Forall₂ (fun id service => file.allServices[id.index]? = some service)
        file.services services)
      (walks : file.numbered.Walks scope file.messages inner)
      (listed : file.numbered.Blocks file.extensions blocks) :
      Mentions file (services.flatMap (Service.mentions scope) ++ inner ++
        blocks.flatMap (Extension.mentions scope))

namespace Draft.Numbered

variable {numbered after : Numbered} {scope : List String} {ids more : List MessageId}
  {first second later : List Mention}

theorem Blocks.unique {extensions : List ExtensionId} {left right : List Extension}
    (one : numbered.Blocks extensions left) (other : numbered.Blocks extensions right) :
    left = right :=
  List.right_unique_forall₂' (fun _ _ _ here there => Option.some.inj (here.symm.trans there))
    one other

theorem Blocks.keep {extensions : List ExtensionId} {blocks : List Extension}
    (listed : numbered.Blocks extensions blocks) (keeps : Keeps numbered after) :
    after.Blocks extensions blocks :=
  List.Forall₂.imp (fun _ _ present => keeps.extension _ _ present) listed

/-- There is one walk only. -/
theorem Walks.unique (one : numbered.Walks scope ids first)
    (other : numbered.Walks scope ids second) : first = second := by
  induction one generalizing second with
  | done scope =>
      cases other
      rfl
  | message present within_eq listed inside rest insideInduction restInduction =>
      -- The number of a message tells the message, and so what the other walk meets in it.
      cases other with
      | message presentToo withinToo listedToo insideToo restToo =>
          cases present.symm.trans presentToo
          cases within_eq.trans withinToo.symm
          rw [listed.unique listedToo, insideInduction insideToo, restInduction restToo]

theorem Walks.keep (walks : numbered.Walks scope ids first) (keeps : Keeps numbered after) :
    after.Walks scope ids first := by
  induction walks with
  | done scope => exact .done scope
  | message present within_eq listed inside rest insideInduction restInduction =>
      exact .message (keeps.message _ _ present) within_eq (listed.keep keeps) insideInduction
        restInduction

theorem Walks.append (walks : numbered.Walks scope ids first)
    (rest : numbered.Walks scope more later) :
    numbered.Walks scope (ids ++ more) (first ++ later) := by
  induction walks with
  | done scope => exact rest
  | message present within_eq listed inside _ _ restInduction =>
      rw [List.append_assoc]
      exact .message present within_eq listed inside (restInduction rest)

end Draft.Numbered

theorem ProtoFile.Mentions.unique {file : ProtoFile} {left right : List Mention}
    (one : file.Mentions left) (other : file.Mentions right) : left = right := by
  cases one with
  | intro scope_eq served walks listed =>
      cases other with
      | intro scopeToo servedToo walksToo listedToo =>
          cases scope_eq.trans scopeToo.symm
          have services := List.right_unique_forall₂'
            (fun _ _ _ here there => Option.some.inj (here.symm.trans there)) served servedToo
          rw [services, walks.unique walksToo, listed.unique listedToo]

/-- What a file imports does not matter for a walk. -/
theorem ProtoFile.Mentions.withImports {file : ProtoFile} {mentions : List Mention}
    (mentioned : file.Mentions mentions) (imports : List Import) :
    { file with imports }.Mentions mentions := by
  cases mentioned with
  | intro scope_eq served walks listed => exact .intro scope_eq served walks listed

/-! ## References as mentions -/

/-- A reference to a map type mentions two types. -/
def Reference.mentions (reference : Reference) : List Mention :=
  match reference.role with
  | .method direction written => [⟨.method direction, written, reference.scope, reference.span⟩]
  | .extendee written => [⟨.extendee, written, reference.scope, reference.span⟩]
  | .field written => written.mentions reference.scope reference.span

namespace Draft

theorem mentions_fieldReferences (scope : List String) (fields : List Field) :
    (fields.map (fieldReference scope)).flatMap Reference.mentions =
      fields.flatMap (Field.mentions scope) := by
  rw [List.flatMap_map]
  rfl

theorem mentions_extensionReferences (extension : Extension) :
    (extensionReferences extension).flatMap Reference.mentions =
      extension.mentions extension.scope := by
  rw [extensionReferences, List.flatMap_cons, mentions_fieldReferences]
  rfl

theorem mentions_serviceReferences (scope : List String) (services : List Service) :
    (services.flatMap fun service => service.methods.flatMap (methodReferences scope)).flatMap
        Reference.mentions =
      services.flatMap (Service.mentions scope) := by
  simp only [List.flatMap_assoc]
  rfl

/-! ## Walks while a file is drawn up -/

/-- What has been met at a place is what a walk over it meets. -/
structure Walked (scope : List String) (contents : Contents) (numbered : Numbered) : Prop where
  blocks : ∃ blocks, numbered.Blocks contents.extensions blocks ∧
    contents.extensionReferences.flatMap Reference.mentions =
      blocks.flatMap (Extension.mentions scope)
  messages : numbered.Walks scope contents.messages
    (contents.messageReferences.flatMap Reference.mentions)

theorem Walked.none (scope : List String) (numbered : Numbered) : Walked scope {} numbered where
  blocks := ⟨[], .nil, rfl⟩
  messages := .done scope

theorem Walked.keep {scope : List String} {contents : Contents} {numbered after : Numbered}
    (walked : Walked scope contents numbered) (keeps : Keeps numbered after) :
    Walked scope contents after where
  blocks := by
    rcases walked.blocks with ⟨blocks, listed, mentioned⟩
    exact ⟨blocks, listed.keep keeps, mentioned⟩
  messages := walked.messages.keep keeps

/-- An extend block is met after those before it. -/
theorem Walked.pushExtension {scope : List String} {contents : Contents} {numbered : Numbered}
    (walked : Walked scope contents numbered) (file : FileId) {added : Extension}
    (scope_eq : added.scope = scope) :
    Walked scope
      { contents with
        extensions := contents.extensions ++ [⟨file, numbered.extensions.size⟩]
        extensionReferences := contents.extensionReferences ++ extensionReferences added }
      { numbered with extensions := numbered.extensions.push added } where
  blocks := by
    rcases walked.blocks with ⟨blocks, listed, mentioned⟩
    refine ⟨blocks ++ [added], ?_, ?_⟩
    · exact List.rel_append (listed.keep (.pushExtension numbered added))
        (.cons Array.getElem?_push_size .nil)
    · rw [List.flatMap_append, mentioned, mentions_extensionReferences, scope_eq]
      simp
  messages := walked.messages.keep (.pushExtension numbered added)

/-- A message is met after those before it, and before what is in it. -/
theorem Walked.pushMessage {source : Source} {place : Place} {declared : Syntax.Message}
    {contents inner : Contents} {numbered : Numbered}
    (walked : Walked place.scope contents numbered)
    (inside : Walked (placeInside source place declared numbered).scope inner numbered) :
    Walked place.scope (withMessage source place declared contents inner numbered).1
      (withMessage source place declared contents inner numbered).2 := by
  have keeps := Keeps.pushMessage numbered (nextMessage source place declared inner numbered)
  rcases inside.blocks with ⟨blocks, listed, mentioned⟩
  refine ⟨(walked.keep keeps).blocks, ?_⟩
  have own : (withMessage source place declared contents inner numbered).2.Walks place.scope
      [⟨source.file, numbered.messages.size⟩] _ :=
    .message Array.getElem?_push_size rfl (listed.keep keeps) (inside.messages.keep keeps)
      (.done place.scope)
  simp only [withMessage, List.flatMap_append, mentions_fieldReferences, mentioned]
  rw [List.append_nil] at own
  exact (walked.messages.keep keeps).append own

/-- While a file is drawn up, its references come in the order of a walk. -/
theorem Builds.walked {source : Source} {place : Place} {before after : Contents × Numbered}
    (builds : Builds source place before after) (walked : Walked place.scope before.1 before.2) :
    Walked place.scope after.1 after.2 := by
  induction builds with
  | done place state => exact walked
  | next first rest firstInduction restInduction =>
      exact restInduction (firstInduction walked)
  | field place declared contents numbered => exact { walked with }
  | oneof place declared contents numbered => exact { walked with }
  | enum place declared state =>
      rcases state with ⟨contents, numbered⟩
      let added := addEnum source place declared (contents, numbered)
      have kept : Walked place.scope contents added.2 := walked.keep (.pushEnum numbered _)
      exact { kept with }
  | extend place declared state => exact walked.pushExtension source.file rfl
  | message inside induction =>
      exact (walked.keep inside.keeps).pushMessage (induction (.none _ _))

/-! ## Whole files -/

theorem forall₂_range {α : Type} (values : List α) :
    List.Forall₂ (fun index value => values[index]? = some value) (List.range values.length)
      values := by
  rw [List.forall₂_iff_get]
  simp

/-- The references of a draft come in the order in which a walk over its file meets the types
that are mentioned. -/
theorem mentions_ofTree (id : FileId) (name source : String) (tree : Syntax.File) :
    (ofTree id name source tree).file.Mentions
      ((ofTree id name source tree).references.flatMap Reference.mentions) := by
  have walked := (builds_fileState id name source tree).walked (.none _ _)
  rcases walked.blocks with ⟨blocks, listed, mentioned⟩
  rw [references_ofTree, List.flatMap_append, List.flatMap_append, mentions_serviceReferences,
    mentioned]
  refine .intro ?_ ?_ walked.messages listed
  · exact packageScope_eq (filePackage tree)
  · simp only [file_ofTree, List.forall₂_map_left_iff, List.getElem?_toArray]
    exact forall₂_range _

end Draft

end ProtoSchema
