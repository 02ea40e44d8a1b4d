import ProtoSchema.Proofs.Draft.Contents
import ProtoSchema.Proofs.Draft.Correspondence
import ProtoSchema.Proofs.Syntax.Tokens
/-! # Full names of drafts

The names in an accepted source are identifiers, so that each full name is one dot and a
text that does not begin with another one.
-/

namespace ProtoSchema

/-! ## Names in a source -/

namespace Syntax

variable {name source : String} {tree : File} {sentence : List Lexeme}

/-- What the grammar calls a name is an identifier. -/
theorem isIdentifier_of_name {ident : Ident} (called : Grammar.Name sentence ident)
    (inside : ∀ lexeme ∈ sentence, lexeme ∈ (lex source).lexemes) : IsIdentifier ident.name := by
  rcases called with ⟨token⟩
  exact isIdentifier_of_mem_lexemes (inside _ List.mem_cons_self) token

theorem isIdentifier_of_mem_messages (parsed : parse name source = .ok tree)
    {message : Message} (member : message ∈ tree.messages) : IsIdentifier message.name.name := by
  rcases File.forall_mem_messages (standing_of_parse parsed) message member with
    ⟨sentence, inside, word, called, body, rfl⟩
  exact isIdentifier_of_name called fun lexeme found => inside.subset (by simp [found])

theorem isIdentifier_of_mem_enums (parsed : parse name source = .ok tree)
    {enum : Enum} (member : enum ∈ tree.enums) : IsIdentifier enum.name.name := by
  rcases File.forall_mem_enums (standing_of_parse parsed) enum member with
    ⟨sentence, inside, word, called, body, rfl⟩
  exact isIdentifier_of_name called fun lexeme found => inside.subset (by simp [found])

theorem isIdentifier_of_mem_services (parsed : parse name source = .ok tree)
    {service : Service} (member : service ∈ tree.services) :
    IsIdentifier service.name.name := by
  rcases File.forall_mem_services (standing_of_parse parsed) service member with
    ⟨sentence, inside, word, called, body, rfl⟩
  exact isIdentifier_of_name called fun lexeme found => inside.subset (by simp [found])

theorem isIdentifier_of_mem_extends (parsed : parse name source = .ok tree)
    {extend : Extend} (member : extend ∈ tree.extends_) {field : Field}
    (inBlock : field ∈ extend.fields) : IsIdentifier field.name.name := by
  rcases File.forall_mem_extends (standing_of_parse parsed) extend member with
    ⟨sentence, inside, word, extended, body, rfl⟩
  have inBody := (List.suffix_append (_ :: _) _).isInfix.trans inside
  rcases List.mem_filterMap.mp inBlock with ⟨entry, inEntries, isField⟩
  rcases body.exists_of_mem inEntries (by rintro rfl; cases isField) with
    ⟨part, stands, -, ⟨derivation⟩⟩
  cases isField
  rcases derivation with ⟨-, -, -, called, -, -, -, -, rfl⟩
  exact isIdentifier_of_name called fun lexeme found =>
    inBody.subset (stands.subset (by simp [found]))

/-- The name of a package begins with an identifier. -/
theorem isIdentifier_of_package (parsed : parse name source = .ok tree) {package : Package}
    (stated : tree.package = some package) : IsIdentifier package.name.first.name := by
  rcases exists_outline_of_parse parsed with ⟨-, outline, derivation, rfl, -⟩
  rcases List.mem_filterMap.mp (List.mem_of_mem_head? stated) with ⟨statement, member, isPackage⟩
  rcases derivation.exists_of_mem member with ⟨sentence, inside, written⟩
  cases written with
  | package inner =>
      cases isPackage
      rcases inner with ⟨word, ⟨called, more⟩, closes⟩
      exact isIdentifier_of_name called fun lexeme found => inside.subset (by simp [found])
  | _ => cases isPackage

end Syntax

/-! ## Rooted names -/

/-- A text begins with a dot, and not with two. -/
def Rooted (name : String) : Prop :=
  ∃ inner, name.toList = '.' :: inner ∧ inner.head? ≠ some '.'

theorem head?_of_isIdentifier {name : String} (identifier : Syntax.IsIdentifier name)
    (rest : List Char) : (name.toList ++ rest).head? ≠ some '.' := by
  rcases identifier with ⟨first, more, text, starts, -⟩
  rw [text]
  rintro ⟨⟩
  exact absurd starts (by decide)

/-- A name in a namespace is rooted if the namespace is. -/
theorem Rooted.append {namespaceName name : String} (rooted : Rooted namespaceName)
    (identifier : Syntax.IsIdentifier name) (rest : String) :
    Rooted (namespaceName ++ name ++ rest) := by
  rcases rooted with ⟨inner, text, undotted⟩
  refine ⟨inner ++ (name.toList ++ rest.toList), by simp [text], ?_⟩
  cases inner with
  | nil => exact head?_of_isIdentifier identifier rest.toList
  | cons first inner => exact undotted

theorem rooted_dot : Rooted "." :=
  ⟨[], rfl, by simp⟩

/-- A dotted name begins as its first part does. -/
theorem exists_text_eq (name : Syntax.DottedName) : ∃ rest, name.text = name.first.name ++ rest := by
  rcases name with ⟨first, _ | ⟨second, others⟩⟩
  · exact ⟨"", by simp [Syntax.DottedName.text, Syntax.DottedName.parts]⟩
  · refine ⟨"." ++ ".".intercalate (second.name :: others.map Syntax.Ident.name), ?_⟩
    simp [Syntax.DottedName.text, Syntax.DottedName.parts, String.intercalate_cons_cons,
      String.append_assoc]

namespace Draft

variable {name source : String} {tree : Syntax.File}

theorem rooted_filePlace (parsed : Syntax.parse name source = .ok tree) (id : FileId) :
    Rooted (filePlace id tree).namespaceName := by
  rw [filePlace, filePackage]
  cases stated : tree.package with
  | none => exact rooted_dot
  | some package =>
      rcases exists_text_eq package.name with ⟨rest, text⟩
      have rooted := rooted_dot.append (Syntax.isIdentifier_of_package parsed stated) (rest ++ ".")
      rw [Option.map_some, packageNamespace, text]
      simpa only [String.append_assoc] using rooted

/-- Every namespace inside of a rooted one is rooted. -/
theorem Place.Encloses.rooted {outermost place : Place} {Around : Syntax.Message → Prop}
    (encloses : outermost.Encloses Around place) (rooted : Rooted outermost.namespaceName)
    (identifiers : ∀ message, Around message → Syntax.IsIdentifier message.name.name) :
    Rooted place.namespaceName := by
  induction encloses with
  | here => exact rooted
  | inside id around holds induction => exact induction.append (identifiers _ holds) "."

/-- Every full name that an accepted source declares is rooted. -/
theorem rooted_of_mem_declaredNames (parsed : Syntax.parse name source = .ok tree) (id : FileId)
    {declared : DeclaredName} (member : declared ∈ (ofTree id name source tree).file.declaredNames) :
    Rooted declared.fullName := by
  have drawn := fileDrawn_ofTree id name source tree
  have places {place : Place} (encloses : (filePlace id tree).Encloses (· ∈ tree.messages) place)
      {short : String} (identifier : Syntax.IsIdentifier short) :
      Rooted (place.namespaceName ++ short) := by
    have rooted := encloses.rooted (rooted_filePlace parsed id) fun message member =>
      Syntax.isIdentifier_of_mem_messages parsed member
    simpa using rooted.append identifier ""
  rw [ProtoFile.declaredNames, List.mem_append, List.mem_append] at member
  rcases member with (member | member) | member <;>
    rcases List.mem_map.mp member with ⟨⟨entry, index⟩, inList, rfl⟩ <;>
    have held := List.mem_of_getElem? (List.mk_mem_zipIdx_iff_getElem?.mp inList)
  · rcases exists_of_mem_forall₂ drawn.messages held with
      ⟨own, inTree, place, scope, contents, encloses, rfl, -⟩
    exact places encloses (Syntax.isIdentifier_of_mem_messages parsed inTree)
  · rcases exists_of_mem_forall₂ drawn.enums held with ⟨own, inTree, place, encloses, rfl⟩
    exact places encloses (Syntax.isIdentifier_of_mem_enums parsed inTree)
  · rw [drawn.services] at held
    rcases List.mem_map.mp held with ⟨own, inTree, rfl⟩
    exact places .here (Syntax.isIdentifier_of_mem_services parsed inTree)

end Draft

end ProtoSchema
