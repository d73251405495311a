import DdlOrder.Proofs.Tree.Climbing
import DdlOrder.Proofs.Tree.Growth
import DdlOrder.Proofs.Tree.Linked
import DdlOrder.Proofs.Tree.Subtree
import Mathlib.Order.Bounds.Basic

/-!
# Down and up a tree

Two ways lead through a tree. A walk with a stack goes down (`Tree.Walks`), and a climb from
parent to parent goes up, until it comes to a node of some kind (`Tree.Climbs`). Both are given
step by step here and come to an end (`Tree.walks_iff`, `Tree.climbs_iff`).

In the tree of a dump they tell the same: below a node are those that have it on their way up
(`Tree.Above`), and these follow it without a gap. So the nearest node of a kind on the way up
is the one with the largest id (`ofDump_down_and_up`).
-/

namespace DdlOrder

namespace Tree

open Relation (TransGen)

variable {t : Tree} {i j a : Nat} {kind : Kind} {stack met : List Nat} {found : Option Nat}

/-! ## Walking down -/

/-- A walk with a stack: the topmost node is met and its children take its place, the first of
them on top. The walk ends when nothing is left on the stack. -/
inductive Walks (t : Tree) : List Nat → List Nat → Prop where
  | done : Walks t [] []
  | meet {i : Nat} {stack met : List Nat} :
    Walks t (t.children i ++ stack) met → Walks t (i :: stack) (i :: met)

theorem walks_preOrder (t : Tree) (stack : List Nat) : t.Walks stack (t.preOrder stack) := by
  fun_induction preOrder t stack with
  | case1 => exact .done
  | case2 i stack ih => exact .meet ih

/-- A walk ends, and there is one way to walk. -/
theorem walks_iff : t.Walks stack met ↔ met = t.preOrder stack := by
  refine ⟨fun h => ?_, fun h => h ▸ t.walks_preOrder stack⟩
  induction h with
  | done => rw [preOrder]
  | meet _ ih => rw [preOrder, ih]

/-! ## Climbing up -/

/-- Node `a` is on the way up from node `i`: its parent, or the parent of one on that way. -/
def Above (t : Tree) (a i : Nat) : Prop := TransGen (fun c p => t.parent? c = some p) i a

theorem mem_ancestors_iff_above : a ∈ t.ancestors i ↔ t.Above a i := by
  constructor
  · intro ha
    induction i using Nat.strongRecOn with
    | ind i ih =>
      obtain ⟨p, hp, rfl | ha⟩ := mem_ancestors.1 ha
      · exact .single hp
      · exact .head hp (ih p (parent?_lt hp) ha)
  · intro ha
    induction ha using TransGen.head_induction_on with
    | single hp => exact mem_ancestors.2 ⟨a, hp, .inl rfl⟩
    | head hp _ ih => exact mem_ancestors.2 ⟨_, hp, .inr ih⟩

/-- A climb for a node of a kind: it looks at the parent and stops if that is of the kind, else
it goes on from there. It finds none if it comes to a node without a parent. -/
inductive Climbs (t : Tree) (kind : Kind) : Nat → Option Nat → Prop where
  | top {i : Nat} : t.parent? i = none → Climbs t kind i none
  | stop {i p : Nat} : t.parent? i = some p → t.kind? p = some kind → Climbs t kind i (some p)
  | goOn {i p : Nat} {found : Option Nat} : t.parent? i = some p → t.kind? p ≠ some kind →
    Climbs t kind p found → Climbs t kind i found

theorem nearestAncestor?_of_parent?_eq_none (h : t.parent? i = none) :
    t.nearestAncestor? i kind = none := by
  rw [nearestAncestor?, ancestors_of_parent?_eq_none h, List.find?_nil]

theorem nearestAncestor?_of_parent? {p : Nat} (h : t.parent? i = some p) :
    t.nearestAncestor? i kind =
      if t.kind? p = some kind then some p else t.nearestAncestor? p kind := by
  rw [nearestAncestor?, ancestors_of_parent? h, List.find?_cons, ← nearestAncestor?]
  by_cases hp : t.kind? p = some kind
  · rw [if_pos hp, hp, beq_self_eq_true]
  · rw [if_neg hp, beq_eq_false_iff_ne.2 hp]

theorem climbs_nearestAncestor? (t : Tree) (kind : Kind) (i : Nat) :
    t.Climbs kind i (t.nearestAncestor? i kind) := by
  induction i using ancestors.induct t with
  | case1 i hparent =>
    rw [nearestAncestor?_of_parent?_eq_none hparent]
    exact .top hparent
  | case2 i p hparent ih =>
    rw [nearestAncestor?_of_parent? hparent]
    split
    · rename_i hkind
      exact .stop hparent hkind
    · rename_i hkind
      exact .goOn hparent hkind ih

/-- A climb ends, and there is one way to climb. -/
theorem climbs_iff : t.Climbs kind i found ↔ found = t.nearestAncestor? i kind := by
  refine ⟨fun h => ?_, fun h => h ▸ t.climbs_nearestAncestor? kind i⟩
  induction h with
  | top hparent => rw [nearestAncestor?_of_parent?_eq_none hparent]
  | stop hparent hkind => rw [nearestAncestor?_of_parent? hparent, if_pos hkind]
  | goOn hparent hkind _ ih => rw [nearestAncestor?_of_parent? hparent, if_neg hkind, ih]

theorem nearest_iff_isGreatest :
    t.Nearest kind a i ↔ IsGreatest {b | t.Above b i ∧ t.kind? b = some kind} a := by
  constructor
  · intro h
    exact ⟨⟨mem_ancestors_iff_above.1 h.above, h.kind_eq⟩, fun b ⟨hb, hkind⟩ =>
      h.le b (mem_ancestors_iff_above.2 hb) hkind⟩
  · rintro ⟨⟨habove, hkind⟩, hle⟩
    exact ⟨mem_ancestors_iff_above.2 habove, hkind, fun b hb hbkind =>
      hle ⟨mem_ancestors_iff_above.1 hb, hbkind⟩⟩

theorem nearestAncestor?_eq_none_iff :
    t.nearestAncestor? i kind = none ↔ ∀ b, t.Above b i → t.kind? b ≠ some kind := by
  rw [← Option.not_isSome_iff_eq_none, isSome_nearestAncestor?_iff]
  push Not
  simp only [mem_ancestors_iff_above]

/-! ## The two ways compared -/

/-- What is below a node, as walks find it, and what is above, as climbs find it. -/
structure DownAndUp (t : Tree) : Prop where
  /-- A walk from the children of a node ends, and it ends with the node's descendants. -/
  walks_iff : ∀ i met, t.Walks (t.children i) met ↔ met = t.descendants i
  /-- The descendants of a node are listed child by child, each child before its own descendants. -/
  preorder : ∀ i, t.descendants i = (t.children i).flatMap fun c => c :: t.descendants c
  nodup : ∀ i, (t.descendants i).Nodup
  /-- The descendants of a node are the nodes that have it on their way up. -/
  mem_descendants_iff : ∀ i j, j ∈ t.descendants i ↔ t.Above i j
  /-- The descendants of a node have the ids that follow its own, without a gap. -/
  block : ∀ i < t.size, ∃ k, i + k < t.size ∧ t.descendants i = List.range' (i + 1) k
  /-- A climb ends, and it ends with the nearest ancestor of the kind or with none. -/
  climbs_iff : ∀ i kind found, t.Climbs kind i found ↔ found = t.nearestAncestor? i kind
  /-- The nearest ancestor of a kind is the one with the greatest id. -/
  nearest_iff : ∀ i kind a, t.nearestAncestor? i kind = some a ↔
    IsGreatest {b | t.Above b i ∧ t.kind? b = some kind} a
  /-- There is no nearest ancestor of a kind exactly if no ancestor is of that kind. -/
  none_iff : ∀ i kind, t.nearestAncestor? i kind = none ↔
    ∀ b, t.Above b i → t.kind? b ≠ some kind
  /-- A node stands at its position among the children of its parent. -/
  childPosition_iff : ∀ i k, t.childPosition? i = some k ↔
    ∃ p, t.parent? i = some p ∧ (t.children p)[k]? = some i

end Tree

/-- Walks down the tree of a dump and climbs up it tell the same of its nodes. -/
theorem ofDump_down_and_up {query : String} {lines : List String} {t : Tree}
    (h : Tree.ofDump query lines = .ok t) : t.DownAndUp where
  walks_iff i met := by rw [Tree.walks_iff, Tree.descendants_eq_preOrder]
  preorder := t.descendants_eq
  nodup i := ((Tree.nested_ofDump h).pairwise_descendants i).imp Nat.ne_of_lt
  mem_descendants_iff i j :=
    (Tree.nested_ofDump h).mem_descendants_iff.trans Tree.mem_ancestors_iff_above
  block i hi := by
    have hnested := Tree.nested_ofDump h
    have hle := hnested.add_length_descendants_le hi
    exact ⟨(t.descendants i).length, by omega, hnested.descendants_eq_range' i⟩
  climbs_iff _ _ _ := Tree.climbs_iff
  nearest_iff _ _ _ := Tree.nearestAncestor?_eq_some_iff.trans Tree.nearest_iff_isGreatest
  none_iff _ _ := Tree.nearestAncestor?_eq_none_iff
  childPosition_iff _ _ := (Tree.nested_ofDump h).childPosition?_eq_some_iff

/-- A view that fills a table: the two nodes of the target stand below the node of the view and
before the query. Above the last table identifier stand two queries, of which the second is
nearer. -/
theorem ofDump_down_and_up_view :
    let query := "create materialized view v to d.t as select a from (select a from s)"
    let lines := ["CreateQuery  v (children 1)", " SelectQuery (children 2)",
      "  Identifier a", "  SelectQuery (children 1)", "   TableIdentifier s"]
    ∃ t, Tree.ofDump query lines = .ok t ∧ t.descendants 0 = [1, 2, 3, 4, 5, 6] ∧
      t.descendants 3 = [4, 5, 6] ∧ t.nearestAncestor? 6 .selectQuery = some 5 ∧
      t.nearestAncestor? 2 .selectQuery = none ∧ t.childPosition? 3 = some 1 ∧ t.DownAndUp := by
  intro query lines
  have hrun : (match Tree.ofDump query lines with
      | .ok t => t.descendants 0 == [1, 2, 3, 4, 5, 6] && t.descendants 3 == [4, 5, 6] &&
          t.nearestAncestor? 6 .selectQuery == some 5 &&
          t.nearestAncestor? 2 .selectQuery == none && t.childPosition? 3 == some 1
      | .error _ => false) = true := by decide +kernel
  split at hrun
  · rename_i t h
    simp only [Bool.and_eq_true, beq_iff_eq] at hrun
    obtain ⟨⟨⟨⟨hroot, hselect⟩, hnearest⟩, hnone⟩, hposition⟩ := hrun
    exact ⟨t, h, hroot, hselect, hnearest, hnone, hposition, ofDump_down_and_up h⟩
  · cases hrun

end DdlOrder
