import Mathlib.Data.List.Nodup
import Mathlib.Logic.Relation
import ProtoSchema.Proofs.Schema.ImportOrder
import ProtoSchema.Schema.Query
/-! # Collecting extend blocks

Which files the search for extend blocks visits, and in which order: level by level,
each level in the order in which the level before it names its files, and no file a
second time.
-/

namespace ProtoSchema

/-- What a file contributes to the search: its imports and its extend blocks. -/
def LoadedFile.collected (loaded : LoadedFile) :
    List FileId × List FileId × List (String × ExtensionId) :=
  (loaded.reexports, loaded.privates, loaded.extended)

/-! ## Breadth-first order -/

/-- The members of a list that were not seen before, each at its first place. -/
def unseen (seen frontier : List FileId) : List FileId :=
  (frontier.filter fun id => id ∉ seen).eraseDups

/-- What is visited from a frontier, level by level. Each level lists what the level
before it leads to and what was not seen before. -/
inductive BreadthFirst (next : FileId → List FileId) :
    List FileId → List FileId → List FileId → Prop
  | done {seen frontier : List FileId} (known : ∀ id ∈ frontier, id ∈ seen) :
      BreadthFirst next seen frontier []
  | level {seen frontier deeper : List FileId} (fresh : unseen seen frontier ≠ [])
      (rest : BreadthFirst next (seen ++ unseen seen frontier)
        ((unseen seen frontier).flatMap next) deeper) :
      BreadthFirst next seen frontier (unseen seen frontier ++ deeper)

theorem mem_unseen {seen frontier : List FileId} {id : FileId} :
    id ∈ unseen seen frontier ↔ id ∈ frontier ∧ id ∉ seen := by
  simp [unseen]

theorem unseen_cons_of_mem {seen frontier : List FileId} {id : FileId} (known : id ∈ seen) :
    unseen seen (id :: frontier) = unseen seen frontier := by
  rw [unseen, unseen, List.filter_cons_of_neg (by simpa using known)]

theorem unseen_cons_of_not_mem {seen frontier : List FileId} {id : FileId}
    (fresh : id ∉ seen) :
    unseen seen (id :: frontier) = id :: unseen (id :: seen) frontier := by
  rw [unseen, unseen, List.filter_cons_of_pos (by simpa using fresh), List.eraseDups_cons,
    List.filter_filter]
  congr 2
  refine List.filter_congr fun other _ => ?_
  by_cases equal : other = id <;> simp [equal]

theorem nodup_unseen (seen frontier : List FileId) : (unseen seen frontier).Nodup := by
  induction frontier generalizing seen with
  | nil => exact List.nodup_nil
  | cons id frontier induction =>
      by_cases known : id ∈ seen
      · rw [unseen_cons_of_mem known]
        exact induction seen
      · rw [unseen_cons_of_not_mem known, List.nodup_cons]
        exact ⟨fun member => (mem_unseen.mp member).2 List.mem_cons_self, induction _⟩

theorem unseen_eq_nil_iff {seen frontier : List FileId} :
    unseen seen frontier = [] ↔ ∀ id ∈ frontier, id ∈ seen := by
  simp only [List.eq_nil_iff_forall_not_mem, mem_unseen, not_and, not_not]

namespace BreadthFirst

variable {next : FileId → List FileId} {seen frontier order : List FileId}

/-- Nothing is visited twice, and nothing that was seen before. -/
theorem nodup_and_fresh (visits : BreadthFirst next seen frontier order) :
    order.Nodup ∧ ∀ id ∈ order, id ∉ seen := by
  induction visits with
  | done known => simp
  | @level seen frontier deeper fresh rest induction =>
      rcases induction with ⟨nodup, later⟩
      refine ⟨List.nodup_append'.mpr ⟨nodup_unseen seen frontier, nodup, ?_⟩, ?_⟩
      · intro id member deep
        exact later id deep (List.mem_append_right seen member)
      · intro id member known
        rcases List.mem_append.mp member with member | member
        · exact (mem_unseen.mp member).2 known
        · exact later id member (List.mem_append_left _ known)

/-- Whatever is visited can be reached from the frontier. -/
theorem exists_reaches (visits : BreadthFirst next seen frontier order) {id : FileId}
    (member : id ∈ order) :
    ∃ start ∈ frontier, Relation.ReflTransGen (fun source target => target ∈ next source)
      start id := by
  induction visits with
  | done known => cases member
  | level fresh rest induction =>
      rcases List.mem_append.mp member with member | member
      · exact ⟨id, (mem_unseen.mp member).1, .refl⟩
      · rcases induction member with ⟨start, inLevel, reaches⟩
        rcases List.mem_flatMap.mp inLevel with ⟨source, inLevel, edge⟩
        exact ⟨source, (mem_unseen.mp inLevel).1, .head edge reaches⟩

/-- The frontier is seen in the end, and so is whatever the visited files lead to. -/
theorem closed (visits : BreadthFirst next seen frontier order) :
    (∀ id ∈ frontier, id ∈ seen ++ order) ∧
      ∀ id ∈ order, ∀ target ∈ next id, target ∈ seen ++ order := by
  induction visits with
  | done known => simpa using known
  | @level seen frontier deeper fresh rest induction =>
      rcases induction with ⟨covered, followed⟩
      rw [← List.append_assoc]
      constructor
      · intro id member
        by_cases known : id ∈ seen
        · simp [known]
        · simp [mem_unseen.mpr ⟨member, known⟩]
      · intro id member target edge
        rcases List.mem_append.mp member with member | member
        · exact covered target (List.mem_flatMap.mpr ⟨id, member, edge⟩)
        · exact followed id member target edge

end BreadthFirst

namespace Schema

/-! ## The search -/

theorem reached_cons_of_mem (schema : Schema) {visited : List FileId} {id : FileId}
    (known : id ∈ visited) (queue : List FileId) :
    schema.reached visited (id :: queue) = schema.reached visited queue := by
  rw [reached, dif_neg (not_not.mpr known)]

theorem reached_cons_of_eq_none {schema : Schema} {visited : List FileId} {id : FileId}
    (fresh : id ∉ visited) (absent : schema.files[id]? = none) (queue : List FileId) :
    schema.reached visited (id :: queue) = schema.reached visited queue := by
  rw [reached, dif_pos fresh]
  split
  · rfl
  · next found =>
      rw [absent] at found
      cases found

theorem reached_cons_of_getElem? {schema : Schema} {visited : List FileId} {id : FileId}
    (fresh : id ∉ visited) {loaded : LoadedFile} (present : schema.files[id]? = some loaded)
    (queue : List FileId) :
    schema.reached visited (id :: queue) =
      id :: schema.reached (id :: visited) (queue ++ loaded.reexports) := by
  rw [reached, dif_pos fresh]
  split
  · next absent =>
      rw [present] at absent
      cases absent
  · next found =>
      rw [present] at found
      cases found
      rfl

/-- The public imports of a file. -/
def reexportsOf (schema : Schema) (id : FileId) : List FileId :=
  ((schema.files[id]?).map LoadedFile.reexports).getD []

theorem reexportsOf_of_getElem? {schema : Schema} {id : FileId} {loaded : LoadedFile}
    (present : schema.files[id]? = some loaded) : schema.reexportsOf id = loaded.reexports := by
  rw [reexportsOf, present, Option.map_some, Option.getD_some]

/-- In an ordered schema public imports lead to files of the schema. -/
theorem Ordered.lt_size_of_mem_reexportsOf {schema : Schema} (ordered : schema.Ordered)
    {id next : FileId} (member : next ∈ schema.reexportsOf id) : next < schema.files.size := by
  cases present : schema.files[id]? with
  | none =>
      rw [reexportsOf, present] at member
      cases member
  | some loaded =>
      rw [reexportsOf_of_getElem? present] at member
      exact Nat.lt_trans (ordered.reexport_lt present next member) (lt_size_of_getElem? present)

/-- It does not matter in which order the visited files are listed. -/
theorem reached_congr (schema : Schema) {visited other : List FileId}
    (same : ∀ id, id ∈ visited ↔ id ∈ other) (queue : List FileId) :
    schema.reached visited queue = schema.reached other queue := by
  induction visited, queue using reached.induct schema generalizing other with
  | case1 visited => simp [reached]
  | case2 visited id queue fresh absent induction =>
      have freshOther : id ∉ other := fun member => fresh ((same id).mpr member)
      rw [reached_cons_of_eq_none fresh absent, reached_cons_of_eq_none freshOther absent]
      exact induction same
  | case3 visited id queue fresh loaded present induction =>
      have freshOther : id ∉ other := fun member => fresh ((same id).mpr member)
      have sameCons : ∀ member, member ∈ id :: visited ↔ member ∈ id :: other := by
        intro member
        rw [List.mem_cons, List.mem_cons, same member]
      rw [reached_cons_of_getElem? fresh present, reached_cons_of_getElem? freshOther present,
        induction sameCons]
  | case4 visited id queue known induction =>
      have known : id ∈ visited := not_not.mp known
      rw [reached_cons_of_mem schema known, reached_cons_of_mem schema ((same id).mp known)]
      exact induction same

/-- The search works off the level at the front of its queue, while it collects the next
level behind it. -/
theorem reached_append (schema : Schema) {visited front : List FileId}
    (present : ∀ id ∈ front, id < schema.files.size) (back : List FileId) :
    schema.reached visited (front ++ back) =
      unseen visited front ++ schema.reached (visited ++ unseen visited front)
        (back ++ (unseen visited front).flatMap schema.reexportsOf) := by
  induction front generalizing visited back with
  | nil => simp [unseen]
  | cons id front induction =>
      have presentFront : ∀ other ∈ front, other < schema.files.size :=
        fun other member => present other (List.mem_cons_of_mem id member)
      rw [List.cons_append]
      by_cases known : id ∈ visited
      · rw [reached_cons_of_mem schema known, unseen_cons_of_mem known]
        exact induction presentFront back
      · have found := Array.getElem?_eq_getElem (present id List.mem_cons_self)
        have sameVisited : ∀ other,
            other ∈ id :: visited ++ unseen (id :: visited) front ↔
              other ∈ visited ++ id :: unseen (id :: visited) front := by
          intro other
          simp only [List.cons_append, List.mem_cons, List.mem_append]
          tauto
        rw [reached_cons_of_getElem? known found, unseen_cons_of_not_mem known,
          List.append_assoc, induction presentFront, schema.reached_congr sameVisited,
          List.flatMap_cons, reexportsOf_of_getElem? found, List.append_assoc,
          List.cons_append]

theorem length_unvisited_append_lt (schema : Schema) {visited frontier : List FileId}
    (present : ∀ id ∈ frontier, id < schema.files.size)
    (fresh : unseen visited frontier ≠ []) :
    (schema.unvisited (visited ++ unseen visited frontier)).length <
      (schema.unvisited visited).length := by
  have remaining : schema.unvisited (visited ++ unseen visited frontier) =
      (schema.unvisited visited).filter fun id => id ∉ unseen visited frontier := by
    simp only [unvisited, List.filter_filter]
    refine List.filter_congr fun id _ => ?_
    rw [Bool.and_comm]
    simp
  rcases List.exists_mem_of_ne_nil _ fresh with ⟨id, member⟩
  rcases mem_unseen.mp member with ⟨inFrontier, notVisited⟩
  rw [remaining]
  refine List.length_filter_lt_length_iff_exists.mpr ⟨id, ?_, by simpa using member⟩
  simp [unvisited, present id inFrontier, notVisited]

/-- The search visits files in breadth-first order. -/
theorem breadthFirst_reached {schema : Schema} (ordered : schema.Ordered)
    (visited : List FileId) {frontier : List FileId}
    (present : ∀ id ∈ frontier, id < schema.files.size) :
    BreadthFirst schema.reexportsOf visited frontier (schema.reached visited frontier) := by
  have levels := @reached_append schema visited frontier present []
  rw [List.append_nil, List.nil_append] at levels
  rw [levels]
  by_cases fresh : unseen visited frontier = []
  · rw [fresh, List.append_nil, List.flatMap_nil, reached, List.append_nil]
    exact .done (unseen_eq_nil_iff.mp fresh)
  · refine .level fresh (breadthFirst_reached ordered _ fun id member => ?_)
    rcases List.mem_flatMap.mp member with ⟨source, -, edge⟩
    exact ordered.lt_size_of_mem_reexportsOf edge
  termination_by (schema.unvisited visited).length
  decreasing_by exact schema.length_unvisited_append_lt present fresh

/-! ## Schemas that agree -/

/-- Two schemas agree on the files of a kind, which import files of the kind only: on
their imports and on their extend blocks. -/
structure Agree (left right : Schema) (Kind : FileId → Prop) : Prop where
  collected_eq : ∀ id, Kind id →
    left.files[id]?.map LoadedFile.collected = right.files[id]?.map LoadedFile.collected
  closed : ∀ (id : FileId) loaded, Kind id → left.files[id]? = some loaded →
    ∀ next ∈ loaded.reexports ++ loaded.privates, Kind next

namespace Agree

variable {left right : Schema} {Kind : FileId → Prop}

theorem eq_none (agree : Agree left right Kind) {id : FileId} (kind : Kind id)
    (absent : left.files[id]? = none) : right.files[id]? = none := by
  have same := agree.collected_eq id kind
  rw [absent] at same
  exact Option.map_eq_none_iff.mp same.symm

theorem exists_getElem? (agree : Agree left right Kind) {id : FileId} (kind : Kind id)
    {loaded : LoadedFile} (present : left.files[id]? = some loaded) :
    ∃ other, right.files[id]? = some other ∧ other.reexports = loaded.reexports ∧
      other.privates = loaded.privates ∧ other.extended = loaded.extended := by
  have same := agree.collected_eq id kind
  rw [present] at same
  rcases Option.map_eq_some_iff.mp same.symm with ⟨other, found, equal⟩
  simp only [LoadedFile.collected, Prod.mk.injEq] at equal
  exact ⟨other, found, equal⟩

theorem reached_eq (agree : Agree left right Kind) (visited queue : List FileId)
    (kinds : ∀ id ∈ queue, Kind id) :
    left.reached visited queue = right.reached visited queue := by
  induction visited, queue using reached.induct left with
  | case1 visited => simp [reached]
  | case2 visited id queue fresh absent induction =>
      rcases List.forall_mem_cons.mp kinds with ⟨kind, kinds⟩
      rw [reached_cons_of_eq_none fresh absent,
        reached_cons_of_eq_none fresh (agree.eq_none kind absent)]
      exact induction kinds
  | case3 visited id queue fresh loaded present induction =>
      rcases List.forall_mem_cons.mp kinds with ⟨kind, kinds⟩
      rcases agree.exists_getElem? kind present with ⟨other, found, reexports, -, -⟩
      have kindsLater : ∀ next ∈ queue ++ loaded.reexports, Kind next := by
        intro next member
        rcases List.mem_append.mp member with member | member
        · exact kinds next member
        · exact agree.closed id loaded kind present next (List.mem_append_left _ member)
      rw [reached_cons_of_getElem? fresh present, reached_cons_of_getElem? fresh found,
        reexports, induction kindsLater]
  | case4 visited id queue known induction =>
      rcases List.forall_mem_cons.mp kinds with ⟨-, kinds⟩
      have known : id ∈ visited := not_not.mp known
      rw [reached_cons_of_mem left known, reached_cons_of_mem right known]
      exact induction kinds

theorem kind_of_mem_reached (agree : Agree left right Kind) (visited queue : List FileId)
    (kinds : ∀ id ∈ queue, Kind id) : ∀ id ∈ left.reached visited queue, Kind id := by
  induction visited, queue using reached.induct left with
  | case1 visited => simp [reached]
  | case2 visited id queue fresh absent induction =>
      rw [reached_cons_of_eq_none fresh absent]
      exact induction (List.forall_mem_cons.mp kinds).2
  | case3 visited id queue fresh loaded present induction =>
      rcases List.forall_mem_cons.mp kinds with ⟨kind, kinds⟩
      rw [reached_cons_of_getElem? fresh present]
      refine List.forall_mem_cons.mpr ⟨kind, induction fun next member => ?_⟩
      rcases List.mem_append.mp member with member | member
      · exact kinds next member
      · exact agree.closed id loaded kind present next (List.mem_append_left _ member)
  | case4 visited id queue known induction =>
      rw [reached_cons_of_mem left (not_not.mp known)]
      exact induction (List.forall_mem_cons.mp kinds).2

theorem visibleExtensions_eq (agree : Agree left right Kind) {id : FileId} (kind : Kind id)
    (extendee : String) :
    left.visibleExtensions id extendee = right.visibleExtensions id extendee := by
  rw [visibleExtensions, visibleExtensions, extensionSources, extensionSources]
  cases present : left.files[id]? with
  | none =>
      rw [agree.eq_none kind present]
      rfl
  | some loaded =>
      rcases agree.exists_getElem? kind present with ⟨other, found, reexports, privates, -⟩
      have kinds := agree.closed id loaded kind present
      have visited := agree.kind_of_mem_reached [id] _ kinds
      rw [found]
      dsimp only
      rw [reexports, privates, ← agree.reached_eq [id] _ kinds]
      refine List.flatMap_congr fun source member => ?_
      have sourceKind : Kind source := by
        rcases List.mem_cons.mp member with rfl | member
        · exact kind
        · exact visited source member
      cases presentSource : left.files[source]? with
      | none => rw [agree.eq_none sourceKind presentSource]
      | some own =>
          rcases agree.exists_getElem? sourceKind presentSource with
            ⟨other, foundSource, -, -, extended⟩
          rw [foundSource]
          dsimp only
          rw [LoadedFile.localExtensions, LoadedFile.localExtensions, extended]

end Agree

/-! ## What stays when a schema changes -/

/-- What a file sees stays when another file is added. -/
theorem visibleExtensions_push_of_lt {schema : Schema} (ordered : schema.Ordered)
    (loaded : LoadedFile) {id : FileId} (earlier : id < schema.files.size)
    (extendee : String) :
    (schema.push loaded).visibleExtensions id extendee =
      schema.visibleExtensions id extendee := by
  have agree : Agree schema (schema.push loaded) (· < schema.files.size) :=
    { collected_eq := fun id earlier => by rw [getElem?_push_of_lt schema loaded earlier]
      closed := fun id own earlier present next member => by
        rcases List.mem_append.mp member with member | member
        · exact Nat.lt_trans (ordered.reexport_lt present next member) earlier
        · exact Nat.lt_trans (ordered.private_lt present next member) earlier }
  exact (agree.visibleExtensions_eq earlier extendee).symm

/-- Extend blocks are collected from imports and lists of extend blocks only. -/
theorem visibleExtensions_congr {left right : Schema}
    (same : ∀ id : FileId,
      left.files[id]?.map LoadedFile.collected = right.files[id]?.map LoadedFile.collected) :
    left.visibleExtensions = right.visibleExtensions := by
  have agree : Agree left right fun _ => True :=
    { collected_eq := fun id _ => same id
      closed := fun _ _ _ _ _ _ => trivial }
  funext id extendee
  exact agree.visibleExtensions_eq trivial extendee

/-- What is seen next to a new file depends on what is collected from it only. -/
theorem visibleExtensions_push_congr (schema : Schema) {left right : LoadedFile}
    (same : left.collected = right.collected) :
    (schema.push left).visibleExtensions = (schema.push right).visibleExtensions := by
  apply visibleExtensions_congr
  intro id
  simp only [push, Array.getElem?_push]
  split
  · exact congrArg some same
  · rfl

@[simp] theorem visibleExtensions_markRoot (schema : Schema) (root : FileId) :
    (schema.markRoot root).visibleExtensions = schema.visibleExtensions :=
  visibleExtensions_congr fun id =>
    schema.map_getElem?_markRoot root id LoadedFile.collected fun _ => rfl

@[simp] theorem visibleExtensions_forget (schema : Schema) (name : String) :
    (schema.forget name).visibleExtensions = schema.visibleExtensions :=
  visibleExtensions_congr fun _ => rfl

end Schema

end ProtoSchema
