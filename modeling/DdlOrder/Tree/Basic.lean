import DdlOrder.Node

/-!
# Trees of nodes

A statement's syntax tree keeps its nodes in the order in which they were added,
and a node's place in that order is its id. Every entry knows its parent and its
children; a node is added after its parent, so ids grow on the way down.

* `Tree.parent?_lt`, `Tree.children_gt`: parents have smaller ids, children larger;
* `Tree.mem_ancestors`: the ancestors of a node are its parent and the ancestors
  of its parent.
-/

namespace DdlOrder

/-- A node with its place in the tree. -/
structure Tree.Entry where
  node : Node
  parent : Option Nat
  children : List Nat
  deriving DecidableEq, Repr

/-- Nodes in the order in which they were added, the root first. -/
structure Tree where
  entries : Array Tree.Entry
  parent_lt : ∀ {i p : Nat} {e : Tree.Entry}, entries[i]? = some e → e.parent = some p → p < i
  children_gt : ∀ {i c : Nat} {e : Tree.Entry},
    entries[i]? = some e → c ∈ e.children → i < c ∧ c < entries.size

namespace Tree

/-- The tree without nodes. -/
def empty : Tree where
  entries := #[]
  parent_lt h := by simp at h
  children_gt h := by simp at h

/-- The number of nodes. -/
def size (t : Tree) : Nat := t.entries.size

/-- The node with this id. -/
def node? (t : Tree) (i : Nat) : Option Node := t.entries[i]?.map (·.node)

/-- The kind of the node with this id. -/
def kind? (t : Tree) (i : Nat) : Option Kind := (t.node? i).map (·.kind)

/-- The value of the node with this id. -/
def value? (t : Tree) (i : Nat) : Option String := (t.node? i).bind (·.value)

/-- The parent of the node with this id. The root has none. -/
def parent? (t : Tree) (i : Nat) : Option Nat := t.entries[i]?.bind (·.parent)

/-- The children of the node with this id, in the order in which they were added. -/
def children (t : Tree) (i : Nat) : List Nat :=
  match t.entries[i]? with
  | some e => e.children
  | none => []

theorem parent?_lt {t : Tree} {i p : Nat} (h : t.parent? i = some p) : p < i := by
  obtain ⟨e, he, hp⟩ := Option.bind_eq_some_iff.1 h
  exact t.parent_lt he hp

theorem lt_size_of_parent? {t : Tree} {i p : Nat} (h : t.parent? i = some p) : i < t.size := by
  obtain ⟨e, he, -⟩ := Option.bind_eq_some_iff.1 h
  exact (Array.getElem?_eq_some_iff.1 he).1

theorem lt_of_mem_children {t : Tree} {i c : Nat} (h : c ∈ t.children i) :
    i < c ∧ c < t.size := by
  unfold children at h
  split at h
  · rename_i e he
    exact t.children_gt he h
  · simp at h

/-! ## Adding nodes -/

/-- The tree of a single node. -/
def singleton (n : Node) : Tree where
  entries := #[{ node := n, parent := none, children := [] }]
  parent_lt {i p e} h hp := by
    cases i <;> simp at h
    subst h
    cases hp
  children_gt {i c e} h hc := by
    cases i <;> simp at h
    subst h
    cases hc

/-- The entry with one more child. -/
def Entry.addChild (c : Nat) (e : Entry) : Entry := { e with children := e.children ++ [c] }

/-- The tree with a new last child of node `p`. The new node gets the next id. -/
def addChild (t : Tree) (p : Nat) (hp : p < t.size) (n : Node) : Tree where
  entries := (t.entries.modify p (Entry.addChild t.size)).push
    { node := n, parent := some p, children := [] }
  parent_lt {i q e} h hq := by
    simp only [Array.getElem?_push, Array.size_modify, Array.getElem?_modify] at h
    split at h
    · cases h
      cases hq
      simp only [size] at hp
      omega
    · split at h
      · obtain ⟨e', he', rfl⟩ := Option.map_eq_some_iff.1 h
        exact t.parent_lt he' hq
      · exact t.parent_lt h hq
  children_gt {i c e} h hc := by
    simp only [Array.getElem?_push, Array.size_modify, Array.getElem?_modify, Array.size_push]
      at h ⊢
    split at h
    · cases h
      simp at hc
    · split at h
      · rename_i hpi
        subst hpi
        obtain ⟨e', he', rfl⟩ := Option.map_eq_some_iff.1 h
        rcases List.mem_append.1 hc with hc | hc
        · have := t.children_gt he' hc
          omega
        · simp only [List.mem_singleton] at hc
          subst hc
          simp only [size] at hp ⊢
          omega
      · have := t.children_gt h hc
        omega

@[simp] theorem size_singleton (n : Node) : (singleton n).size = 1 := rfl

@[simp] theorem size_addChild (t : Tree) (p : Nat) (hp : p < t.size) (n : Node) :
    (t.addChild p hp n).size = t.size + 1 := by
  simp [addChild, size]

/-! ## Climbing -/

/-- The nodes above node `i`, the nearest first. -/
def ancestors (t : Tree) (i : Nat) : List Nat :=
  match _h : t.parent? i with
  | none => []
  | some p => p :: t.ancestors p
termination_by i
decreasing_by exact parent?_lt _h

theorem mem_ancestors {t : Tree} {i a : Nat} :
    a ∈ t.ancestors i ↔ ∃ p, t.parent? i = some p ∧ (a = p ∨ a ∈ t.ancestors p) := by
  rw [ancestors]
  split <;> simp_all

theorem lt_of_mem_ancestors {t : Tree} {i a : Nat} (h : a ∈ t.ancestors i) : a < i := by
  induction i using Nat.strongRecOn with
  | ind i ih =>
    obtain ⟨p, hp, rfl | ha⟩ := mem_ancestors.1 h
    · exact parent?_lt hp
    · exact Nat.lt_trans (ih p (parent?_lt hp) ha) (parent?_lt hp)

/-- The nearest node of this kind above node `i`. -/
def nearestAncestor? (t : Tree) (i : Nat) (kind : Kind) : Option Nat :=
  (t.ancestors i).find? fun a => t.kind? a == some kind

/-- Whether the parent of node `i` is of this kind. -/
def parentIs (t : Tree) (i : Nat) (kind : Kind) : Bool :=
  (t.parent? i).any fun p => t.kind? p == some kind

/-- The place of node `i` among the children of its parent. -/
def childPosition? (t : Tree) (i : Nat) : Option Nat :=
  (t.parent? i).bind fun p => (t.children p).findIdx? (· == i)

/-! ## Walking down -/

/-- The nodes below node `i`, each before the nodes below it. -/
def descendants (t : Tree) (i : Nat) : List Nat :=
  (t.children i).attach.flatMap fun ⟨c, _h⟩ => c :: t.descendants c
termination_by t.size - i
decreasing_by
  have := lt_of_mem_children _h
  omega

theorem descendants_eq (t : Tree) (i : Nat) :
    t.descendants i = (t.children i).flatMap fun c => c :: t.descendants c := by
  rw [descendants]
  conv => rhs; rw [← List.attach_map_subtype_val (t.children i)]
  rw [List.flatMap_map]

/-- All nodes, each before the nodes below it. -/
def walk (t : Tree) : List Nat :=
  if t.size = 0 then [] else 0 :: t.descendants 0

end Tree

end DdlOrder
