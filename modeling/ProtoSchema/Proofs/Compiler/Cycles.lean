import Mathlib.Data.List.Chain
import ProtoSchema.Proofs.Compiler.PostOrder
/-! # Circles in a graph of names

A chain of names that comes back to itself, and graphs that have none. Names that are
listed in post-order lead into no circle.
-/

namespace ProtoSchema

/-! ## Chains that return -/

/-- No name that a start leads to leads back to itself. -/
def Acyclic (next : String → List String) (start : String) : Prop :=
  ∀ name, LeadsTo next start name →
    ¬ Relation.TransGen (fun source target => target ∈ next source) name name

/-- A chain of names follows the edges from a root to a name that it has met before. Up
to this name it meets none twice. -/
structure CycleFrom (edge : String → String → Prop) (root name : String)
    (chain : List String) : Prop where
  head?_eq : chain.head? = some root
  getLast?_eq : chain.getLast? = some name
  edges : chain.IsChain edge
  nodup : chain.dropLast.Nodup
  returns : name ∈ chain.dropLast

theorem CycleFrom.mono {edge other : String → String → Prop} {root name : String}
    {chain : List String} (circle : CycleFrom edge root name chain)
    (implies : ∀ source target, edge source target → other source target) :
    CycleFrom other root name chain :=
  { circle with edges := circle.edges.imp implies }

/-- A way that meets no name twice is closed to a circle by a name that is on it. -/
theorem CycleFrom.of_mem {edge : String → String → Prop} {root name : String}
    {front : List String} (starts : front.head? = some root) (nodup : front.Nodup)
    (edges : (front ++ [name]).IsChain edge) (met : name ∈ front) :
    CycleFrom edge root name (front ++ [name]) where
  head?_eq := by rw [List.head?_append, starts, Option.some_or]
  getLast?_eq := List.getLast?_concat
  edges := edges
  nodup := by rwa [List.dropLast_concat]
  returns := by rwa [List.dropLast_concat]

/-- A chain leads from its first name to its last. -/
theorem leadsTo_of_isChain {edge : String → String → Prop} {first last : String}
    {inner : List String} (edges : (first :: inner ++ [last]).IsChain edge) :
    Relation.TransGen edge first last := by
  induction inner generalizing first with
  | nil => exact .single (List.isChain_pair.mp edges)
  | cons second inner induction =>
      rw [List.cons_append, List.cons_append, List.isChain_cons_cons] at edges
      exact .head edges.1 (induction edges.2)

/-- In a graph without circles no chain returns. -/
theorem Acyclic.not_cycleFrom {next : String → List String} {root name : String}
    {chain : List String} (acyclic : Acyclic next root) :
    ¬ CycleFrom (fun source target => target ∈ next source) root name chain := by
  intro circle
  rcases List.append_of_mem circle.returns with ⟨front, back, split⟩
  have whole : chain = front ++ (name :: back ++ [name]) := by
    have closed := List.dropLast_append_getLast? name circle.getLast?_eq
    rw [← closed, split, List.append_assoc]
  have edges := circle.edges
  rw [whole] at edges
  have around := leadsTo_of_isChain edges.right_of_append
  apply acyclic name _ around
  have starts := circle.head?_eq
  rw [whole] at starts
  cases front with
  | nil =>
      cases starts
      exact .refl
  | cons first front =>
      cases starts
      have there := (List.isChain_cons_split.mp edges).1
      exact (leadsTo_of_isChain there).to_reflTransGen

/-! ## Ways that end -/

/-- A name from which no way goes on forever is on no circle. -/
theorem not_transGen_of_acc {edge : String → String → Prop} {name : String}
    (accessible : Acc (fun target source => edge source target) name) :
    ¬ Relation.TransGen edge name name := by
  intro circle
  have back := Relation.transGen_swap.mpr circle
  have below := acc_transGen_iff.mpr accessible
  clear circle accessible
  induction below with
  | intro name _ induction => exact induction name back back

theorem acyclic_of_acc {next : String → List String} {start : String}
    (accessible : Acc (fun target source => target ∈ next source) start) :
    Acyclic next start := by
  intro name leads
  apply not_transGen_of_acc
  induction leads with
  | refl => exact accessible
  | tail _ edge induction => exact induction.inv edge

/-- In post-order no way goes on forever: it comes to what was seen before. -/
theorem PostOrder.acc {next : String → List String} {seen names order : List String}
    (visits : PostOrder next seen names order)
    (before : ∀ name ∈ seen, Acc (fun target source => target ∈ next source) name) :
    ∀ name ∈ names ++ order, Acc (fun target source => target ∈ next source) name := by
  induction visits with
  | done seen => exact fun _ member => absurd member List.not_mem_nil
  | known member _ induction =>
      exact List.forall_mem_cons.mpr ⟨before _ member, induction before⟩
  | @visited seen names inner order name _ _ _ inside rest =>
      have behind := inside before
      have visited : Acc (fun target source => target ∈ next source) name :=
        .intro name fun target edge => behind target (List.mem_append_left inner edge)
      have later := rest fun other member => by
        rcases List.mem_append.mp member with member | member
        · rcases List.mem_append.mp member with member | member
          · exact before other member
          · exact behind other (List.mem_append_right (next name) member)
        · rw [List.mem_singleton.mp member]
          exact visited
      intro other member
      simp only [List.cons_append, List.mem_cons, List.mem_append] at member
      rcases member with rfl | listed | inInner | rfl | inOrder
      · exact visited
      · exact later other (List.mem_append_left order listed)
      · exact behind other (List.mem_append_right (next name) inInner)
      · exact visited
      · exact later other (List.mem_append_right names inOrder)

end ProtoSchema
