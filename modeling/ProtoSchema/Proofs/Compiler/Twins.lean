import ProtoSchema.Proofs.Compiler.Faithful
import ProtoSchema.Proofs.Renumber.Draft
import ProtoSchema.Proofs.Renumber.Link
import ProtoSchema.Proofs.Schema.Aggregation
/-! # The same files in two schemas

Two schemas that are faithful to one resolver may have loaded different files in
different orders. A file that both have is the same in both, apart from the numbers of
files, and the same names mean the same in it.
-/

namespace ProtoSchema

/-! ## Translation of numbers -/

namespace Schema

/-- The number in the right schema of a file of the left one; a file that is missing
there gets the next free number. -/
def translate (left right : Schema) (id : FileId) : FileId :=
  match left.files[id]? with
  | some loaded => (right.fileNamed? loaded.file.name).getD right.files.size
  | none => right.files.size

/-- A file of the left schema is in the right one too. -/
def Shares (left right : Schema) (id : FileId) : Prop :=
  ∃ loaded, left.files[id]? = some loaded ∧ (right.fileNamed? loaded.file.name).isSome

theorem translate_of_getElem? {left right : Schema} {id other : FileId} {loaded : LoadedFile}
    (present : left.files[id]? = some loaded)
    (named : right.fileNamed? loaded.file.name = some other) :
    left.translate right id = other := by
  simp only [translate, present, named, Option.getD_some]

theorem translate_size (left right : Schema) :
    left.translate right left.files.size = right.files.size := by
  simp [translate]

/-- The imports that are written in a file are in both schemas. -/
def HaveImports (left right : Schema) (file : SourceFile) : Prop :=
  ∀ statement ∈ file.tree.imports, ∃ target, left.fileNamed? statement.file = some target ∧
    right.fileNamed? statement.file = some (left.translate right target)

theorem haveImports_of_isSome {left right : Schema} (indexed : left.Indexed) {file : SourceFile}
    (inLeft : ∀ statement ∈ file.tree.imports, (left.fileNamed? statement.file).isSome)
    (inRight : ∀ statement ∈ file.tree.imports, (right.fileNamed? statement.file).isSome) :
    HaveImports left right file := by
  intro statement member
  rcases Option.isSome_iff_exists.mp (inLeft statement member) with ⟨target, named⟩
  rcases Option.isSome_iff_exists.mp (inRight statement member) with ⟨other, namedRight⟩
  rcases indexed _ _ named with ⟨loaded, present, name⟩
  refine ⟨target, named, ?_⟩
  rw [← name] at namedRight
  rw [translate_of_getElem? present namedRight, ← name, namedRight]

end Schema

/-! ## Registered files -/

namespace Rules.Registered

variable {left right : Schema} {i j : FileId} {file : SourceFile} {first second : LoadedFile}

theorem imports_renumber (inLeft : Registered left i file first)
    (inRight : Registered right j file second) (imports : Schema.HaveImports left right file) :
    second.file.imports = first.file.imports.map (Import.renumber (left.translate right)) := by
  have written (id : FileId) : (draftOf id file).file.imports =
      file.tree.imports.map Draft.importStatement := rfl
  rw [inLeft.imports_eq, inRight.imports_eq, written, written]
  simp only [List.map_map]
  apply List.map_congr_left
  intro statement member
  rcases imports statement member with ⟨target, named, namedRight⟩
  simp only [Function.comp_apply, Import.renumber, Draft.importStatement, named, namedRight,
    Option.map_some]

theorem filterMap_renumber {move : FileId → FileId} (imports : List Import)
    {condition : Import → Bool}
    (blind : ∀ statement, condition (statement.renumber move) = condition statement) :
    ((imports.map (Import.renumber move)).filter condition).filterMap Import.file =
      ((imports.filter condition).filterMap Import.file).map move := by
  have unmoved : condition ∘ Import.renumber move = condition := by
    funext statement
    exact blind statement
  rw [List.filter_map, unmoved, List.filterMap_map, List.map_filterMap]
  rfl

theorem reexports_renumber (inLeft : Registered left i file first)
    (inRight : Registered right j file second) (imports : Schema.HaveImports left right file) :
    second.reexports = first.reexports.map (left.translate right) := by
  rw [inRight.reexports_eq, inLeft.reexports_eq, inLeft.imports_renumber inRight imports]
  exact filterMap_renumber first.file.imports fun _ => rfl

theorem privates_renumber (inLeft : Registered left i file first)
    (inRight : Registered right j file second) (imports : Schema.HaveImports left right file) :
    second.privates = first.privates.map (left.translate right) := by
  rw [inRight.privates_eq, inLeft.privates_eq, inLeft.imports_renumber inRight imports]
  exact filterMap_renumber first.file.imports fun _ => rfl

theorem entries_renumber (inLeft : Registered left i file first)
    (inRight : Registered right j file second) (same : left.translate right i = j) :
    second.symbols.entries = first.symbols.entries.map fun (name, target) =>
      (name, target.renumber (left.translate right)) := by
  have names : (draftOf j file).names =
      (draftOf i file).names.map (DeclaredName.renumber (left.translate right)) := by
    rw [← same]
    exact Draft.names_ofTree_renumber _ i file.name file.source file.tree
  rw [inRight.entries_eq, inLeft.entries_eq, names, List.map_reverse, List.map_map, List.map_map]
  rfl

theorem lookup_renumber (move : FileId → FileId) (entries : List (String × UserType))
    (name : String) :
    (entries.map fun (name, target) => (name, target.renumber move)).lookup name =
      (entries.lookup name).map (UserType.renumber move) := by
  induction entries with
  | nil => rfl
  | cons entry entries induction =>
      rw [List.map_cons, List.lookup_cons, List.lookup_cons]
      split
      · rfl
      · exact induction

theorem find?_renumber (inLeft : Registered left i file first)
    (inRight : Registered right j file second) (same : left.translate right i = j)
    (name : String) :
    second.symbols.find? name =
      (first.symbols.find? name).map (UserType.renumber (left.translate right)) := by
  rw [SymbolTable.find?, inLeft.entries_renumber inRight same, lookup_renumber]
  rfl

/-- The imports of a file are shared if the written ones are in both schemas. -/
theorem shares_of_mem (inLeft : Registered left i file first) (indexed : left.Indexed)
    (imports : Schema.HaveImports left right file) {next : FileId}
    (member : next ∈ first.reexports ∨ next ∈ first.privates) : left.Shares right next := by
  have linked : ∃ statement ∈ first.file.imports, statement.file = some next := by
    rw [inLeft.reexports_eq, inLeft.privates_eq, List.mem_filterMap, List.mem_filterMap] at member
    rcases member with ⟨statement, member, link⟩ | ⟨statement, member, link⟩
    · exact ⟨statement, (List.mem_filter.mp member).1, link⟩
    · exact ⟨statement, (List.mem_filter.mp member).1, link⟩
  rcases linked with ⟨statement, member, link⟩
  rw [inLeft.imports_eq] at member
  rcases List.mem_map.mp member with ⟨written, inDraft, rfl⟩
  have inTree : written ∈ file.tree.imports.map Draft.importStatement := inDraft
  rcases List.mem_map.mp inTree with ⟨source, isSource, rfl⟩
  rcases imports source isSource with ⟨target, named, namedRight⟩
  have same : target = next := Option.some.inj (named.symm.trans link)
  subst same
  rcases indexed _ _ named with ⟨loaded, present, name⟩
  exact ⟨loaded, present, by rw [name, namedRight, Option.isSome_some]⟩

/-- A file sees the same in both schemas if its imports do. -/
theorem seenBy?_renumber (inLeft : Registered left i file first)
    (inRight : Registered right j file second) (same : left.translate right i = j)
    (imports : Schema.HaveImports left right file)
    (visible : ∀ next ∈ first.reexports, Link.Corresponds (left.translate right)
      (left.visible? next) (right.visible? (left.translate right next)))
    (passedOn : ∀ next ∈ first.privates, Link.Corresponds (left.translate right)
      (left.passedOn? next) (right.passedOn? (left.translate right next))) :
    Link.Corresponds (left.translate right) (left.seenBy? first) (right.seenBy? second) := by
  intro name
  rw [Schema.seenBy?_eq, Schema.seenBy?_eq, inLeft.find?_renumber inRight same,
    inLeft.reexports_renumber inRight imports, inLeft.privates_renumber inRight imports,
    Option.map_or, Option.map_or, List.map_findSome?, List.map_findSome?, List.findSome?_map,
    List.findSome?_map]
  congr 2
  · exact findSome?_congr fun next member => visible next member name
  · exact findSome?_congr fun next member => passedOn next member name

end Rules.Registered

/-! ## Twins -/

namespace Schema

/-- A file with the same source in both schemas. -/
structure Twins (left right : Schema) (id : FileId) (file : SourceFile)
    (first second : LoadedFile) : Prop where
  inLeft : left.files[id]? = some first
  inRight : right.files[left.translate right id]? = some second
  leftSettled : first.Settled left id file
  rightSettled : second.Settled right (left.translate right id) file

variable {resolver : Resolver} {left right : Schema}

/-- A file that both schemas have comes from the same source. -/
theorem exists_twins (leftFaithful : left.Faithful resolver)
    (rightFaithful : right.Faithful resolver) {id : FileId} (shares : left.Shares right id) :
    ∃ file first second, Twins left right id file first second ∧
      resolver.openFile file.name = .ok file := by
  rcases shares with ⟨first, inLeft, found⟩
  rcases Option.isSome_iff_exists.mp found with ⟨other, named⟩
  rcases rightFaithful.settled.indexed _ _ named with ⟨second, inRight, name⟩
  rcases leftFaithful.settled.files inLeft with ⟨file, opened, leftSettled⟩
  rcases rightFaithful.settled.files inRight with ⟨otherFile, otherOpened, rightSettled⟩
  have sameName : otherFile.name = file.name := by
    rw [← rightSettled.name_eq, name, leftSettled.name_eq]
  rw [sameName, opened] at otherOpened
  cases otherOpened
  have moved := translate_of_getElem? inLeft named
  exact ⟨file, first, second,
    { inLeft
      inRight := by rw [moved]; exact inRight
      leftSettled
      rightSettled := by rw [moved]; exact rightSettled }, opened⟩

namespace Twins

variable {id : FileId} {file : SourceFile} {first second : LoadedFile}

theorem haveImports (twins : Twins left right id file first second)
    (leftFaithful : left.Faithful resolver) (rightFaithful : right.Faithful resolver) :
    HaveImports left right file := by
  apply haveImports_of_isSome leftFaithful.settled.indexed
  · intro statement member
    rcases leftFaithful.imported twins.inLeft twins.leftSettled statement member with
      ⟨target, named, -⟩
    rw [named, Option.isSome_some]
  · intro statement member
    rcases rightFaithful.imported twins.inRight twins.rightSettled statement member with
      ⟨target, named, -⟩
    rw [named, Option.isSome_some]

theorem leftRegistered (twins : Twins left right id file first second)
    (leftFaithful : left.Faithful resolver) : Rules.Registered left id file first :=
  leftFaithful.registered twins.inLeft twins.leftSettled

theorem rightRegistered (twins : Twins left right id file first second)
    (rightFaithful : right.Faithful resolver) :
    Rules.Registered right (left.translate right id) file second :=
  rightFaithful.registered twins.inRight twins.rightSettled

theorem shares (twins : Twins left right id file first second)
    (rightFaithful : right.Faithful resolver) : left.Shares right id := by
  have named := rightFaithful.named twins.inRight
  rw [twins.rightSettled.name_eq, ← twins.leftSettled.name_eq] at named
  exact ⟨first, twins.inLeft, by rw [named, Option.isSome_some]⟩

/-- The imports of a shared file are shared. -/
theorem shares_of_mem (twins : Twins left right id file first second)
    (leftFaithful : left.Faithful resolver) (rightFaithful : right.Faithful resolver)
    {next : FileId} (member : next ∈ first.reexports ∨ next ∈ first.privates) :
    left.Shares right next :=
  (twins.leftRegistered leftFaithful).shares_of_mem leftFaithful.settled.indexed
    (twins.haveImports leftFaithful rightFaithful) member

end Twins

/-! ## Meanings in shared files -/

theorem corresponds_passedOn? (leftFaithful : left.Faithful resolver)
    (rightFaithful : right.Faithful resolver) {id : FileId} (shares : left.Shares right id) :
    Link.Corresponds (left.translate right) (left.passedOn? id)
      (right.passedOn? (left.translate right id)) := by
  induction id using Nat.strongRecOn with
  | ind id induction =>
      intro name
      rcases exists_twins leftFaithful rightFaithful shares with
        ⟨file, first, second, twins, -⟩
      have imports := twins.haveImports leftFaithful rightFaithful
      have inLeft := twins.leftRegistered leftFaithful
      have inRight := twins.rightRegistered rightFaithful
      rw [passedOn?_of_getElem? leftFaithful.settled.ordered twins.inLeft,
        passedOn?_of_getElem? rightFaithful.settled.ordered twins.inRight,
        inLeft.find?_renumber inRight rfl, inLeft.reexports_renumber inRight imports,
        Option.map_or, List.map_findSome?, List.findSome?_map]
      congr 1
      refine findSome?_congr fun next member => ?_
      have before := leftFaithful.settled.ordered.reexport_lt twins.inLeft next member
      exact induction next before
        (twins.shares_of_mem leftFaithful rightFaithful (.inl member)) name

theorem corresponds_visible? (leftFaithful : left.Faithful resolver)
    (rightFaithful : right.Faithful resolver) {id : FileId} (shares : left.Shares right id) :
    Link.Corresponds (left.translate right) (left.visible? id)
      (right.visible? (left.translate right id)) := by
  induction id using Nat.strongRecOn with
  | ind id induction =>
      intro name
      rcases exists_twins leftFaithful rightFaithful shares with
        ⟨file, first, second, twins, -⟩
      have imports := twins.haveImports leftFaithful rightFaithful
      rw [visible?_of_getElem? leftFaithful.settled.ordered twins.inLeft,
        visible?_of_getElem? rightFaithful.settled.ordered twins.inRight]
      refine (twins.leftRegistered leftFaithful).seenBy?_renumber
        (twins.rightRegistered rightFaithful) rfl imports ?_ ?_ name
      · intro next member
        have before := leftFaithful.settled.ordered.reexport_lt twins.inLeft next member
        exact induction next before
          (twins.shares_of_mem leftFaithful rightFaithful (.inl member))
      · intro next member
        exact corresponds_passedOn? leftFaithful rightFaithful
          (twins.shares_of_mem leftFaithful rightFaithful (.inr member))

/-- A file has the same model in both schemas, apart from the numbers of files. -/
theorem Twins.file_eq {id : FileId} {file : SourceFile} {first second : LoadedFile}
    (twins : Twins left right id file first second) (leftFaithful : left.Faithful resolver)
    (rightFaithful : right.Faithful resolver) :
    second.file = first.file.renumber (left.translate right) := by
  have same := corresponds_visible? leftFaithful rightFaithful (twins.shares rightFaithful)
  have imports := (twins.leftRegistered leftFaithful).imports_renumber
    (twins.rightRegistered rightFaithful) (twins.haveImports leftFaithful rightFaithful)
  have draft : (Rules.draftOf (left.translate right id) file).file =
      (Rules.draftOf id file).file.renumber (left.translate right) :=
    Draft.file_ofTree_renumber _ id file.name file.source file.tree
  rw [twins.rightSettled.file_eq, twins.leftSettled.file_eq, ← Link.linkAll_renumber same, draft,
    imports]
  rfl

/-! ## Declarations of shared files -/

/-- A file that is moved to a file of the right schema is shared. -/
theorem shares_of_getElem?_translate {id : FileId} {loaded : LoadedFile}
    (present : right.files[left.translate right id]? = some loaded) : left.Shares right id := by
  have bound := lt_size_of_getElem? present
  rw [translate] at bound
  split at bound
  · next first inLeft =>
      refine ⟨first, inLeft, ?_⟩
      cases named : right.fileNamed? first.file.name with
      | none =>
          rw [named, Option.getD_none] at bound
          exact absurd bound (Nat.lt_irrefl _)
      | some other => rfl
  · exact absurd bound (Nat.lt_irrefl _)

/-- What a shared file sees is declared in shared files. -/
theorem shares_of_visible? (leftFaithful : left.Faithful resolver)
    (rightFaithful : right.Faithful resolver) {id : FileId} (shares : left.Shares right id)
    {name : String} {target : UserType} (found : left.visible? id name = some target) :
    left.Shares right target.file := by
  have moved := corresponds_visible? leftFaithful rightFaithful shares name
  rw [found, Option.map_some] at moved
  have bound := file_le_of_visible? rightFaithful.settled.ordered rightFaithful.settled.owned moved
  have inside := Nat.lt_of_le_of_lt bound (lt_size_of_visible? moved)
  rw [UserType.file_renumber] at inside
  exact shares_of_getElem?_translate (Array.getElem?_eq_getElem inside)

theorem file?_translate (leftFaithful : left.Faithful resolver)
    (rightFaithful : right.Faithful resolver) {id : FileId} (shares : left.Shares right id) :
    right.file? (left.translate right id) =
      (left.file? id).map (ProtoFile.renumber (left.translate right)) := by
  rcases exists_twins leftFaithful rightFaithful shares with ⟨file, first, second, twins, -⟩
  rw [file?, file?, twins.inLeft, twins.inRight, Option.map_some, Option.map_some,
    Option.map_some, twins.file_eq leftFaithful rightFaithful]

theorem message?_translate (leftFaithful : left.Faithful resolver)
    (rightFaithful : right.Faithful resolver) {id : MessageId}
    (shares : left.Shares right id.file) :
    right.message? (id.renumber (left.translate right)) =
      (left.message? id).map (Message.renumber (left.translate right)) := by
  rw [message?, message?, DeclarationId.renumber, file?_translate leftFaithful rightFaithful shares]
  cases left.file? id.file with
  | none => rfl
  | some file => simp [ProtoFile.renumber]

theorem extension?_translate (leftFaithful : left.Faithful resolver)
    (rightFaithful : right.Faithful resolver) {id : ExtensionId}
    (shares : left.Shares right id.file) :
    right.extension? (id.renumber (left.translate right)) =
      (left.extension? id).map (Extension.renumber (left.translate right)) := by
  rw [extension?, extension?, DeclarationId.renumber,
    file?_translate leftFaithful rightFaithful shares]
  cases left.file? id.file with
  | none => rfl
  | some file => simp [ProtoFile.renumber]

/-- The message that a block of a shared file extends is in a shared file. -/
theorem Twins.shares_extendee {id : FileId} {file : SourceFile} {first second : LoadedFile}
    (twins : Twins left right id file first second) (leftFaithful : left.Faithful resolver)
    (rightFaithful : right.Faithful resolver) {extension : Extension}
    (member : extension ∈ first.file.allExtensions) {target : MessageId}
    (extendee : extension.extendee = some target) : left.Shares right target.file := by
  rcases twins.leftSettled.exists_of_extendee member extendee with ⟨fullName, found⟩
  exact shares_of_visible? leftFaithful rightFaithful (twins.shares rightFaithful) found

/-! ## Extend blocks -/

theorem Twins.extended_eq {id : FileId} {file : SourceFile} {first second : LoadedFile}
    (twins : Twins left right id file first second) (leftFaithful : left.Faithful resolver)
    (rightFaithful : right.Faithful resolver) :
    second.extended = first.extended.map fun (name, extension) =>
      (name, extension.renumber (left.translate right)) := by
  rw [twins.rightSettled.extended_eq, twins.leftSettled.extended_eq,
    twins.file_eq leftFaithful rightFaithful, Rules.extendedNames, Rules.extendedNames,
    List.map_filterMap]
  simp only [ProtoFile.renumber, Array.toList_map, List.zipIdx_map, List.filterMap_map]
  apply List.filterMap_congr
  rintro ⟨extension, index⟩ member
  have inFile : extension ∈ first.file.allExtensions := by
    rw [← Array.mem_toList_iff]
    exact List.mem_of_getElem? (List.mk_mem_zipIdx_iff_getElem?.mp member)
  cases extendee : extension.extendee with
  | none => simp [Extension.renumber, extendee]
  | some target =>
      have shares := twins.shares_extendee leftFaithful rightFaithful inFile extendee
      have moved := message?_translate leftFaithful rightFaithful shares
      cases found : left.message? target with
      | none =>
          rw [found] at moved
          simp [Extension.renumber, extendee, found, moved]
      | some message =>
          rw [found] at moved
          simp only [Function.comp_apply, Prod.map_apply, Extension.renumber, extendee,
            Option.map_some, Option.bind_eq_bind, Option.bind_some, moved, found]
          rfl

theorem Twins.localExtensions_eq {id : FileId} {file : SourceFile} {first second : LoadedFile}
    (twins : Twins left right id file first second) (leftFaithful : left.Faithful resolver)
    (rightFaithful : right.Faithful resolver) (extendee : String) :
    second.localExtensions extendee =
      (first.localExtensions extendee).map (DeclarationId.renumber (left.translate right)) := by
  rw [LoadedFile.localExtensions, LoadedFile.localExtensions,
    twins.extended_eq leftFaithful rightFaithful, List.filter_map, List.map_map, List.map_map]
  rfl

/-- Shared files are not confused. -/
theorem translate_injective (leftFaithful : left.Faithful resolver)
    (rightFaithful : right.Faithful resolver) {id other : FileId} (shares : left.Shares right id)
    (otherShares : left.Shares right other)
    (same : left.translate right id = left.translate right other) : id = other := by
  rcases exists_twins leftFaithful rightFaithful shares with ⟨file, first, second, twins, -⟩
  rcases exists_twins leftFaithful rightFaithful otherShares with
    ⟨otherFile, otherFirst, otherSecond, otherTwins, -⟩
  have equal := twins.inRight
  rw [same, otherTwins.inRight] at equal
  cases equal
  have sameName : first.file.name = otherFirst.file.name := by
    rw [twins.leftSettled.name_eq, otherTwins.leftSettled.name_eq, ← twins.rightSettled.name_eq,
      otherTwins.rightSettled.name_eq]
  have named := leftFaithful.named twins.inLeft
  rw [sameName, leftFaithful.named otherTwins.inLeft] at named
  exact (Option.some.inj named).symm

/-! ## Visible extend blocks -/

theorem mem_map_translate (leftFaithful : left.Faithful resolver)
    (rightFaithful : right.Faithful resolver) {id : FileId} {visited : List FileId}
    (shares : left.Shares right id) (allShare : ∀ other ∈ visited, left.Shares right other) :
    left.translate right id ∈ visited.map (left.translate right) ↔ id ∈ visited := by
  constructor
  · intro member
    rcases List.mem_map.mp member with ⟨other, member, same⟩
    rw [← translate_injective leftFaithful rightFaithful (allShare other member) shares same]
    exact member
  · exact List.mem_map_of_mem

/-- The same shared files are reached in the same order. -/
theorem reached_translate (leftFaithful : left.Faithful resolver)
    (rightFaithful : right.Faithful resolver) (visited queue : List FileId)
    (visitedShare : ∀ id ∈ visited, left.Shares right id)
    (queueShare : ∀ id ∈ queue, left.Shares right id) :
    right.reached (visited.map (left.translate right)) (queue.map (left.translate right)) =
        (left.reached visited queue).map (left.translate right) ∧
      ∀ id ∈ left.reached visited queue, left.Shares right id := by
  induction visited, queue using reached.induct left with
  | case1 visited => simp [reached]
  | case2 visited id queue fresh absent induction =>
      rcases queueShare id List.mem_cons_self with ⟨loaded, present, -⟩
      rw [absent] at present
      cases present
  | case3 visited id queue fresh loaded present induction =>
      have shares := queueShare id List.mem_cons_self
      rcases exists_twins leftFaithful rightFaithful shares with
        ⟨file, first, second, twins, -⟩
      have same : first = loaded := Option.some.inj (twins.inLeft.symm.trans present)
      subst same
      have reexports := (twins.leftRegistered leftFaithful).reexports_renumber
        (twins.rightRegistered rightFaithful) (twins.haveImports leftFaithful rightFaithful)
      have freshRight : left.translate right id ∉ visited.map (left.translate right) := by
        rw [mem_map_translate leftFaithful rightFaithful shares visitedShare]
        exact fresh
      have rest := induction
        (by
          intro other member
          rcases List.mem_cons.mp member with rfl | member
          · exact shares
          · exact visitedShare other member)
        (by
          intro other member
          rcases List.mem_append.mp member with member | member
          · exact queueShare other (List.mem_cons_of_mem id member)
          · exact twins.shares_of_mem leftFaithful rightFaithful (.inl member))
      rw [List.map_cons, reached_cons_of_getElem? fresh present,
        reached_cons_of_getElem? freshRight twins.inRight, reexports, ← List.map_append,
        ← List.map_cons, rest.1]
      refine ⟨rfl, fun other member => ?_⟩
      rcases List.mem_cons.mp member with rfl | member
      · exact shares
      · exact rest.2 other member
  | case4 visited id queue known induction =>
      have known : id ∈ visited := not_not.mp known
      have shares := queueShare id List.mem_cons_self
      have knownRight := (mem_map_translate leftFaithful rightFaithful shares visitedShare).mpr
        known
      rw [List.map_cons, reached_cons_of_mem left known, reached_cons_of_mem right knownRight]
      exact induction visitedShare fun other member =>
        queueShare other (List.mem_cons_of_mem id member)

/-- A shared file has the same sources of extend blocks, all of them shared. -/
theorem extensionSources_translate (leftFaithful : left.Faithful resolver)
    (rightFaithful : right.Faithful resolver) {id : FileId} (shares : left.Shares right id) :
    right.extensionSources (left.translate right id) =
        (left.extensionSources id).map (left.translate right) ∧
      ∀ source ∈ left.extensionSources id, left.Shares right source := by
  rcases exists_twins leftFaithful rightFaithful shares with ⟨file, first, second, twins, -⟩
  have imports := twins.haveImports leftFaithful rightFaithful
  have inLeft := twins.leftRegistered leftFaithful
  have inRight := twins.rightRegistered rightFaithful
  have reached := reached_translate leftFaithful rightFaithful [id]
    (first.reexports ++ first.privates)
    (by
      intro other member
      rw [List.mem_singleton.mp member]
      exact shares)
    (by
      intro other member
      exact twins.shares_of_mem leftFaithful rightFaithful (List.mem_append.mp member))
  simp only [extensionSources, twins.inLeft, twins.inRight,
    inLeft.reexports_renumber inRight imports, inLeft.privates_renumber inRight imports]
  rw [← List.map_append, List.map_cons]
  refine ⟨congrArg (left.translate right id :: ·) reached.1, fun source member => ?_⟩
  rcases List.mem_cons.mp member with rfl | member
  · exact shares
  · exact reached.2 source member

theorem visibleExtensions_translate (leftFaithful : left.Faithful resolver)
    (rightFaithful : right.Faithful resolver) {id : FileId} (shares : left.Shares right id)
    (extendee : String) :
    right.visibleExtensions (left.translate right id) extendee =
        (left.visibleExtensions id extendee).map
          (DeclarationId.renumber (left.translate right)) ∧
      ∀ extension ∈ left.visibleExtensions id extendee, left.Shares right extension.file := by
  rcases extensionSources_translate leftFaithful rightFaithful shares with ⟨sources, allShare⟩
  constructor
  · rw [visibleExtensions, visibleExtensions, sources, List.flatMap_map, List.map_flatMap]
    apply List.flatMap_congr
    intro source member
    rcases exists_twins leftFaithful rightFaithful (allShare source member) with
      ⟨file, first, second, twins, -⟩
    simp only [twins.inLeft, twins.inRight]
    exact twins.localExtensions_eq leftFaithful rightFaithful extendee
  · intro extension member
    rcases List.mem_flatMap.mp member with ⟨source, inSources, member⟩
    rcases exists_twins leftFaithful rightFaithful (allShare source inSources) with
      ⟨file, first, second, twins, -⟩
    simp only [twins.inLeft] at member
    rw [twins.leftSettled.file_of_mem_localExtensions member]
    exact allShare source inSources

end Schema

end ProtoSchema
