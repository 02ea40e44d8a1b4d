import ProtoSchema.Proofs.Compiler.Settled
import ProtoSchema.Proofs.Draft.Placement
/-! # Nesting in loaded files

Linking changes neither the names nor the places of declarations. So in every file of a schema
names, parents and namespaces follow the nesting, and the symbol table of the file has exactly
the full names that come of it.
-/

namespace ProtoSchema

/-! ## Linked files -/

theorem getElem?_map_of_some {α β : Type} {values : Array α} {index : Nat} {own : α}
    (present : values[index]? = some own) (change : α → β) :
    (values.map change)[index]? = some (change own) := by
  rw [Array.getElem?_map, present, Option.map_some]

section

variable {file : ProtoFile} (resolve : Link.Resolution) (imports : List Import)

theorem Draft.Placed.linkAll {parent : Parent} {nested : Bool} {namespaceName : String}
    {listed : Draft.Listed}
    (placed : Draft.Placed file.id file.numbered parent nested namespaceName listed) :
    Draft.Placed file.id (Link.linkAll resolve { file with imports }).numbered parent nested
      namespaceName listed where
  message id member := by
    rcases placed.message id member with ⟨inFile, own, present, stands⟩
    exact ⟨inFile, Link.linkMessageFields resolve own, getElem?_map_of_some present _, stands⟩
  enum := placed.enum
  extension id member := by
    rcases placed.extension id member with ⟨inFile, own, present, stands⟩
    exact ⟨inFile, Link.linkExtension resolve own, getElem?_map_of_some present _, stands⟩

theorem ProtoFile.Leads.linkAll {parent : Parent} (leads : file.Leads parent) :
    (Link.linkAll resolve { file with imports }).Leads parent := by
  induction leads with
  | file => exact .file
  | @message index own present around induction =>
      have linked : (Link.linkAll resolve { file with imports }).allMessages[index]? =
          some (Link.linkMessageFields resolve own) :=
        getElem?_map_of_some present _
      exact .message linked induction

/-- Linking the references of a file leaves its declarations where they stand. -/
theorem ProtoFile.Nests.linkAll (nests : file.Nests) :
    (Link.linkAll resolve { file with imports }).Nests where
  top := nests.top.linkAll resolve imports
  inside := by
    intro index own present
    rcases Option.map_eq_some_iff.mp (Array.getElem?_map.symm.trans present) with
      ⟨drawn, drawnPresent, rfl⟩
    exact (nests.inside index drawn drawnPresent).linkAll resolve imports
  service id member := by
    rcases nests.service id member with ⟨inFile, own, present, named⟩
    exact ⟨inFile, Link.linkService resolve (packageScope file.package) own,
      getElem?_map_of_some present _, named⟩
  serviceIds := by
    rw [Link.linkAll, Array.size_map]
    exact nests.serviceIds
  listed := by
    have listed := nests.listed
    simp only [ProtoFile.numbers, Link.linkAll, Array.size_map, Array.toList_map,
      List.flatMap_map]
    exact listed
  distinct := Draft.nodup_numbers _
  named := by
    rw [Link.declaredNames_linkAll]
    exact nests.named
  messageLeads := by
    intro own member
    rcases Array.mem_map.mp member with ⟨drawn, drawnMember, rfl⟩
    exact (nests.messageLeads drawn drawnMember).linkAll resolve imports
  enumLeads own member := (nests.enumLeads own member).linkAll resolve imports
  extensionLeads := by
    intro own member
    rcases Array.mem_map.mp member with ⟨drawn, drawnMember, rfl⟩
    exact (nests.extensionLeads drawn drawnMember).linkAll resolve imports

end

/-! ## Schemas -/

/-- Names, parents and namespaces in a loaded file follow the nesting, and its symbol table has
exactly the full names of its declarations, each for the declaration that got it. -/
structure LoadedFile.FollowsNesting (loaded : LoadedFile) : Prop where
  nests : loaded.file.Nests
  entries : loaded.symbols.entries.Perm (loaded.file.declaredNames.map Link.entryOf)
  keys : ∀ name, (loaded.symbols.find? name).isSome ↔
    ∃ declared ∈ loaded.file.declaredNames, declared.fullName = name

theorem LoadedFile.Settled.followsNesting {schema : Schema} {id : FileId} {file : SourceFile}
    {loaded : LoadedFile} (settled : loaded.Settled schema id file) :
    loaded.FollowsNesting where
  nests := by
    rw [settled.file_eq]
    exact (Draft.nests_ofTree id file.name file.source file.tree).linkAll _ _
  entries := by
    have listed := Draft.ofTree_names_perm id file.name file.source file.tree
    rw [settled.entries_eq, settled.file_eq, Link.declaredNames_linkAll]
    exact (List.reverse_perm _).trans (listed.map Link.entryOf)
  keys name := by
    rw [SymbolTable.find?, List.lookup_isSome_iff]
    constructor
    · rintro ⟨⟨entry, target⟩, member, same⟩
      rcases settled.mem_entries_iff.mp member with ⟨declared, inFile, named, -⟩
      exact ⟨declared, inFile, named.trans (eq_of_beq same).symm⟩
    · rintro ⟨declared, inFile, named⟩
      have entry := settled.mem_entries_iff.mpr ⟨declared, inFile, named, rfl⟩
      exact ⟨(name, declared.target), entry, beq_self_eq_true name⟩

/-- In every loaded file names, parents and namespaces follow the nesting. -/
def Schema.FollowsNesting (schema : Schema) : Prop :=
  ∀ (id : FileId) loaded, schema.files[id]? = some loaded →
    loaded.file.id = id ∧ loaded.FollowsNesting

theorem Schema.followsNesting_run (resolver : Resolver) (operations : List Operation) :
    (Session.run resolver operations).compiler.schema.FollowsNesting := by
  intro id loaded present
  rcases (Schema.settled_run resolver operations).files present with ⟨file, -, settled⟩
  exact ⟨settled.id_eq, settled.followsNesting⟩

end ProtoSchema
