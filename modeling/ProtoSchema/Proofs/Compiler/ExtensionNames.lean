import ProtoSchema.Proofs.Compiler.ExtensionRanges
import ProtoSchema.Proofs.Compiler.NameLookup
/-! # Names of extension fields

A full name leads to the first extension field of this name that a file sees for a message. No
check keeps extension fields apart by their names: two of them share a full name if they have
one name in places of one name, and then only the first of them is found.
-/

namespace ProtoSchema

/-! ## Well-named blocks -/

/-- The namespace of an extend block is rooted and ends with a dot, and its fields have
identifiers for names. -/
structure Extension.WellNamed (extension : Extension) : Prop where
  rooted : Rooted extension.namespaceName
  closed : ∃ outer, extension.namespaceName = outer ++ "."
  names : ∀ field ∈ extension.fields, Syntax.IsIdentifier field.name

theorem Syntax.not_mem_dot_of_isIdentifier {name : String} (identifier : Syntax.IsIdentifier name) :
    '.' ∉ name.toList := by
  rcases identifier with ⟨first, rest, text, starts, others⟩
  rw [text, List.mem_cons, not_or]
  refine ⟨?_, fun member => absurd (others '.' member) (by decide)⟩
  rintro rfl
  exact absurd starts (by decide)

/-- What comes before the last dot of a text, and what comes after it, are determined by the
text. -/
theorem eq_of_append_dot_eq {front otherFront back otherBack : List Char}
    (undotted : '.' ∉ back) (otherUndotted : '.' ∉ otherBack)
    (same : front ++ '.' :: back = otherFront ++ '.' :: otherBack) :
    front = otherFront ∧ back = otherBack := by
  have exact {front otherFront back otherBack : List Char} (undotted : '.' ∉ back)
      {between : List Char} (longer : otherFront = front ++ between)
      (text : '.' :: back = between ++ '.' :: otherBack) :
      front = otherFront ∧ back = otherBack := by
    cases between with
    | nil => exact ⟨by rw [longer, List.append_nil], (List.cons.inj text).2⟩
    | cons mark between => exact absurd (by simp [(List.cons.inj text).2]) undotted
  rcases List.append_eq_append_iff.mp same with
    ⟨between, longer, text⟩ | ⟨between, longer, text⟩
  · exact exact undotted longer text
  · exact (exact otherUndotted longer text).imp Eq.symm Eq.symm

namespace Extension.WellNamed

variable {extension other : Extension}

/-- The full name of a field can be given with and without its dot. -/
theorem rooted_fieldFullName (named : extension.WellNamed) {field : Field}
    (member : field ∈ extension.fields) : Rooted (extension.fieldFullName field) := by
  have rooted := named.rooted.append (named.names field member) ""
  simpa [fieldFullName] using rooted

/-- Fields with one full name have one name, and their blocks have one namespace. -/
theorem eq_of_fieldFullName_eq (named : extension.WellNamed) (otherNamed : other.WellNamed)
    {field otherField : Field} (member : field ∈ extension.fields)
    (otherMember : otherField ∈ other.fields)
    (same : extension.fieldFullName field = other.fieldFullName otherField) :
    extension.namespaceName = other.namespaceName ∧ field.name = otherField.name := by
  rcases named.closed with ⟨outer, closed⟩
  rcases otherNamed.closed with ⟨otherOuter, otherClosed⟩
  rw [fieldFullName, fieldFullName, closed, otherClosed, ← String.toList_inj] at same
  simp only [String.toList_append, List.append_assoc] at same
  rcases eq_of_append_dot_eq (Syntax.not_mem_dot_of_isIdentifier (named.names field member))
    (Syntax.not_mem_dot_of_isIdentifier (otherNamed.names otherField otherMember)) same with
    ⟨outerEqual, nameEqual⟩
  rw [closed, otherClosed, String.toList_inj.mp outerEqual]
  exact ⟨rfl, String.toList_inj.mp nameEqual⟩

end Extension.WellNamed

namespace Draft

/-- Every namespace ends with a dot. -/
theorem Place.Encloses.closed {outermost place : Place} {Around : Syntax.Message → Prop}
    (encloses : outermost.Encloses Around place)
    (closed : ∃ outer, outermost.namespaceName = outer ++ ".") :
    ∃ outer, place.namespaceName = outer ++ "." := by
  cases encloses with
  | here => exact closed
  | inside id around holds => exact ⟨_, rfl⟩

theorem closed_packageNamespace (package : Option String) :
    ∃ outer, packageNamespace package = outer ++ "." := by
  cases package with
  | none => exact ⟨"", rfl⟩
  | some package => exact ⟨"." ++ package, rfl⟩

/-- The extend blocks of an accepted source are well-named. -/
theorem wellNamed_of_mem_allExtensions {name source : String} {tree : Syntax.File}
    (parsed : Syntax.parse name source = .ok tree) (id : FileId) {extension : Extension}
    (member : extension ∈ (ofTree id name source tree).file.allExtensions) :
    extension.WellNamed := by
  have drawn := (fileDrawn_ofTree id name source tree).extensions
  rcases exists_of_mem_forall₂ drawn (Array.mem_toList_iff.mpr member) with
    ⟨declared, inTree, place, encloses, rfl⟩
  refine
    { rooted := encloses.rooted (rooted_filePlace parsed id) fun _ =>
        Syntax.isIdentifier_of_mem_messages parsed
      closed := encloses.closed (closed_packageNamespace _)
      names := ?_ }
  intro drawnField inBlock
  rcases List.mem_map.mp inBlock with ⟨written, inDeclared, rfl⟩
  exact Syntax.isIdentifier_of_mem_extends parsed inTree inDeclared

end Draft

namespace Schema

/-- The extend blocks of a settled schema are well-named. -/
theorem Settled.wellNamed {Opened : SourceFile → Prop} {schema : Schema}
    (settled : schema.Settled Opened) {block : ExtensionId} {extension : Extension}
    (held : schema.extension? block = some extension) : extension.WellNamed := by
  rcases mem_of_extension? held with ⟨loaded, present, member⟩
  rcases settled.files present with ⟨file, -, own⟩
  rw [own.file_eq] at member
  rcases Array.mem_map.mp member with ⟨draft, inDraft, rfl⟩
  have named := Draft.wellNamed_of_mem_allExtensions file.parsed block.file inDraft
  refine ⟨named.rooted, named.closed, ?_⟩
  intro field inBlock
  rcases List.mem_map.mp inBlock with ⟨drawn, inDrawn, rfl⟩
  exact named.names drawn inDrawn

/-! ## Looking up a full name -/

/-- The fields of an extend block, each with its full name. -/
def namedFieldsOf (schema : Schema) (block : ExtensionId) :
    List (String × ExtensionId × Field) :=
  match schema.extension? block with
  | none => []
  | some extension =>
      extension.fields.map fun field => (extension.fieldFullName field, block, field)

/-- The extension fields that a file sees for a message name, each with its full name. -/
def namedFields (schema : Schema) (id : FileId) (extendee : String) :
    List (String × ExtensionId × Field) :=
  (schema.extensions id extendee).flatMap schema.namedFieldsOf

theorem lookup_map_eq {α β : Type} (name : α → String) (entry : α → β) (values : List α)
    (key : String) :
    (values.map fun value => (name value, entry value)).lookup key =
      (values.find? (name · == key)).map entry := by
  induction values with
  | nil => rfl
  | cons value values induction =>
      rw [List.map_cons, List.lookup_cons, List.find?_cons, induction, BEq.comm]
      cases name value == key <;> rfl

/-- A lookup stops at the first block with a field of the name. -/
theorem extensionField?_eq_lookup (schema : Schema) (id : FileId) (extendee fullName : String) :
    schema.extensionField? id extendee fullName =
      (schema.namedFields id extendee).lookup (qualify fullName) := by
  rw [extensionField?, namedFields]
  induction schema.extensions id extendee with
  | nil => rfl
  | cons block blocks induction =>
      rw [List.findSome?_cons, List.flatMap_cons, List.lookup_append, ← induction, namedFieldsOf]
      cases schema.extension? block with
      | none => rfl
      | some extension =>
          simp only [lookup_map_eq, Option.bind_eq_bind, Option.bind_some]
          cases extension.fields.find? (extension.fieldFullName · == qualify fullName) <;> rfl

theorem mem_namedFields_iff {schema : Schema} {id : FileId} {extendee name : String}
    {block : ExtensionId} {field : Field} :
    (name, block, field) ∈ schema.namedFields id extendee ↔
      block ∈ schema.extensions id extendee ∧ ∃ extension,
        schema.extension? block = some extension ∧ field ∈ extension.fields ∧
          extension.fieldFullName field = name := by
  rw [namedFields, List.mem_flatMap]
  constructor
  · rintro ⟨other, listed, inBlock⟩
    rw [namedFieldsOf] at inBlock
    cases held : schema.extension? other with
    | none => simp [held] at inBlock
    | some extension =>
        simp only [held, List.mem_map, Prod.mk.injEq] at inBlock
        rcases inBlock with ⟨field, member, named, rfl, rfl⟩
        exact ⟨listed, extension, held, member, named⟩
  · rintro ⟨listed, extension, held, member, rfl⟩
    refine ⟨block, listed, ?_⟩
    rw [namedFieldsOf, held]
    exact List.mem_map_of_mem member

/-! ## Sessions -/

/-- A full name as it may be given: with the dot at its beginning or without it. -/
def Spells (written fullName : String) : Prop :=
  written = fullName ∨ "." ++ written = fullName

theorem Spells.qualify_eq {written fullName : String} (spells : Spells written fullName)
    (rooted : Rooted fullName) : qualify written = fullName := by
  rcases rooted.exists_qualify with ⟨rest, split, whole, undotted⟩
  rcases spells with rfl | dotted
  · exact whole
  · rw [split, String.append_right_inj] at dotted
    rw [dotted, undotted]

/-- Of the fields of one full name that a file sees for a message, one is found under this name,
however the names are given: the first of them. -/
structure FindsFirst (schema : Schema) (id : FileId) (extendee fullName : String)
    (found : ExtensionId × Field) : Prop where
  first : ∃ before after, schema.namedFields id extendee = before ++ (fullName, found) :: after ∧
    ∀ entry ∈ before, entry.1 ≠ fullName
  lookup : ∀ message name, Spells message extendee → Spells name fullName →
    schema.extensionField? id message name = some found

/-- In every session an extension field is found by its full name if no other field that the
file sees for the message has this full name. Otherwise the first field with this full name is
found, which has the same name and stands in the same namespace. -/
theorem findsFirst_run (resolver : Resolver) (operations : List Operation) :
    let schema := (Session.run resolver operations).compiler.schema
    ∀ id target message block extension field,
      schema.message? target = some message → block ∈ schema.extensions id message.fullName →
      schema.extension? block = some extension → extension.extendee = some target →
      field ∈ extension.fields →
      ∃ found, schema.FindsFirst id message.fullName (extension.fieldFullName field) found ∧
        (∃ other, schema.extension? found.1 = some other ∧ found.2 ∈ other.fields ∧
          other.namespaceName = extension.namespaceName ∧ found.2.name = field.name) ∧
        ((∀ entry ∈ schema.namedFields id message.fullName,
            entry.1 = extension.fieldFullName field → entry.2 = (block, field)) →
          found = (block, field)) := by
  intro schema id target message block extension field loaded listed held extendee member
  have settled : schema.Settled fun _ => True := settled_run resolver operations
  have named := settled.wellNamed held
  have rooted : Rooted message.fullName := by
    have fullName : schema.fullName? (.message target) = some message.fullName := by
      rw [fullName?, loaded, Option.map_some]
    exact settled.rooted fullName
  have inList : (extension.fieldFullName field, block, field) ∈
      schema.namedFields id message.fullName :=
    mem_namedFields_iff.mpr ⟨listed, extension, held, member, rfl⟩
  have isSome : ((schema.namedFields id message.fullName).lookup
      (extension.fieldFullName field)).isSome := by
    rw [List.lookup_isSome_iff]
    exact ⟨_, inList, beq_self_eq_true _⟩
  rcases Option.isSome_iff_exists.mp isSome with ⟨found, lookup⟩
  rcases List.lookup_eq_some_iff.mp lookup with ⟨before, after, split, earlier⟩
  have foundInList : (extension.fieldFullName field, found) ∈
      schema.namedFields id message.fullName := by simp [split]
  refine ⟨found, ⟨⟨before, after, split, ?_⟩, ?_⟩, ?_, fun only => only _ foundInList rfl⟩
  · intro entry inBefore same
    simpa [same] using earlier entry inBefore
  · intro extendeeName name extendeeSpelled spelled
    rw [extensionField?_eq_lookup, spelled.qualify_eq (named.rooted_fieldFullName member)]
    rw [namedFields, extensions, extendeeSpelled.qualify_eq rooted]
    rw [namedFields, extensions, Spells.qualify_eq (.inl rfl) rooted] at lookup
    exact lookup
  · rcases found with ⟨block, field⟩
    rcases mem_namedFields_iff.mp foundInList with ⟨-, other, otherHeld, inOther, same⟩
    rcases (settled.wellNamed otherHeld).eq_of_fieldFullName_eq named inOther member same with
      ⟨sameNamespace, sameName⟩
    exact ⟨other, otherHeld, inOther, sameNamespace, sameName⟩

/-- A block in a message and one in another file give different full names to fields of one
name. -/
theorem findsFirst_run_nested :
    let nested := Resolver.ofMemory
      { sources := [
        ("a.proto",
          "message M \x7b extensions 1 to 9; extend M \x7b optional int32 a = 1; \x7d \x7d"),
        ("b.proto", "import \"a.proto\"; extend M \x7b optional int32 a = 2; \x7d")] }
    let schema := (Session.run nested [.openFile ⟨"b.proto"⟩]).compiler.schema
    ∃ field, field.number = 1 ∧ schema.extensionField? 1 "M" "M.a" = some (⟨0, 0⟩, field) := by
  intro nested schema
  have computed : (schema.message? ⟨0, 0⟩).map Message.fullName = some ".M" ∧
      ⟨0, 0⟩ ∈ schema.extensions 1 ".M" ∧
      (schema.extension? ⟨0, 0⟩).map (fun extension : Extension =>
        (extension.extendee, extension.fields.map fun field : Field =>
          (extension.fieldFullName field, field.number))) =
        some (some ⟨0, 0⟩, [(".M.a", 1)]) ∧
      (schema.namedFields 1 ".M").map Prod.fst = [".a", ".M.a"] :=
    @Compiler.openFile_of_computed
      (fun result => (result.2.schema.message? ⟨0, 0⟩).map Message.fullName = some ".M" ∧
        (⟨0, 0⟩ : ExtensionId) ∈ result.2.schema.extensions 1 ".M" ∧
        (result.2.schema.extension? ⟨0, 0⟩).map (fun extension : Extension =>
          (extension.extendee, extension.fields.map fun field : Field =>
            (extension.fieldFullName field, field.number))) =
          some (some ⟨0, 0⟩, [(".M.a", 1)]) ∧
        (result.2.schema.namedFields 1 ".M").map Prod.fst = [".a", ".M.a"])
      _ 2 { resolver := nested } ⟨"b.proto"⟩ (by decide +kernel)
  rcases computed with ⟨named, listed, block, fullNames⟩
  rcases Option.map_eq_some_iff.mp named with ⟨message, loaded, fullName⟩
  rcases Option.map_eq_some_iff.mp block with ⟨extension, held, facts⟩
  rcases Prod.mk.inj facts with ⟨extendee, fields⟩
  rcases List.map_eq_singleton_iff.mp fields with ⟨field, single, fieldFacts⟩
  rcases Prod.mk.inj fieldFacts with ⟨fieldName, number⟩
  rcases findsFirst_run nested [.openFile ⟨"b.proto"⟩] 1 ⟨0, 0⟩ message ⟨0, 0⟩ extension field
    loaded (fullName ▸ listed) held extendee (by simp [single]) with ⟨found, finds, -, only⟩
  rw [fullName, fieldName] at finds only
  have inList : (".M.a", ⟨0, 0⟩, field) ∈ schema.namedFields 1 ".M" :=
    mem_namedFields_iff.mpr ⟨listed, extension, held, by simp [single], fieldName⟩
  have distinct : ((schema.namedFields 1 ".M").map Prod.fst).Nodup := by simp [fullNames]
  have own : found = (⟨0, 0⟩, field) := only fun entry member same => by
    rw [List.inj_on_of_nodup_map distinct member inList same]
  exact ⟨field, number, own ▸ finds.lookup "M" "M.a" (.inr rfl) (.inr rfl)⟩

/-- Two fields of one block share a full name, and the second of them is not found. -/
theorem exists_hidden_extension_field :
    let shared := Resolver.ofMemory
      { sources := [("a.proto", "message M \x7b extensions 1 to 9; \x7d " ++
          "extend M \x7b optional int32 a = 1; optional int32 a = 2; \x7d")] }
    let result := ({ resolver := shared } : Compiler).openFile ⟨"a.proto"⟩
    let schema := result.2.schema
    result.1 = .ok () ∧ ∃ message extension field,
      schema.message? ⟨0, 0⟩ = some message ∧ message.fullName = ".M" ∧
      ⟨0, 0⟩ ∈ schema.extensions 0 ".M" ∧ schema.extension? ⟨0, 0⟩ = some extension ∧
      extension.extendee = some ⟨0, 0⟩ ∧ field ∈ extension.fields ∧
      extension.fieldFullName field = ".a" ∧
      schema.extensionField? 0 ".M" ".a" ≠ some (⟨0, 0⟩, field) := by
  intro shared result schema
  have computed : result.1 = .ok () ∧
      (schema.message? ⟨0, 0⟩).map Message.fullName = some ".M" ∧
      ⟨0, 0⟩ ∈ schema.extensions 0 ".M" ∧
      (schema.extension? ⟨0, 0⟩).map (fun extension : Extension =>
        (extension.extendee, extension.fields.map fun field : Field =>
          (extension.fieldFullName field, field.number))) =
        some (some ⟨0, 0⟩, [(".a", 1), (".a", 2)]) ∧
      (schema.extensionField? 0 ".M" ".a").map (fun found : ExtensionId × Field =>
        found.2.number) = some 1 :=
    @Compiler.openFile_of_computed
      (fun result => result.1 = .ok () ∧
        (result.2.schema.message? ⟨0, 0⟩).map Message.fullName = some ".M" ∧
        (⟨0, 0⟩ : ExtensionId) ∈ result.2.schema.extensions 0 ".M" ∧
        (result.2.schema.extension? ⟨0, 0⟩).map (fun extension : Extension =>
          (extension.extendee, extension.fields.map fun field : Field =>
            (extension.fieldFullName field, field.number))) =
          some (some ⟨0, 0⟩, [(".a", 1), (".a", 2)]) ∧
        (result.2.schema.extensionField? 0 ".M" ".a").map
          (fun found : ExtensionId × Field => found.2.number) = some 1)
      _ 1 { resolver := shared } ⟨"a.proto"⟩ (by decide +kernel)
  rcases computed with ⟨opened, named, listed, block, firstNumber⟩
  rcases Option.map_eq_some_iff.mp named with ⟨message, loaded, fullName⟩
  rcases Option.map_eq_some_iff.mp block with ⟨extension, held, facts⟩
  rcases Prod.mk.inj facts with ⟨extendee, fields⟩
  have second : (".a", (2 : Int)) ∈ extension.fields.map fun field : Field =>
      (extension.fieldFullName field, field.number) := by simp [fields]
  rcases List.mem_map.mp second with ⟨field, member, fieldFacts⟩
  rcases Prod.mk.inj fieldFacts with ⟨fieldName, number⟩
  refine ⟨opened, message, extension, field, loaded, fullName, listed, held, extendee, member,
    fieldName, ?_⟩
  intro found
  rw [found, Option.map_some, number] at firstNumber
  exact absurd firstNumber (by decide)

end Schema

end ProtoSchema
