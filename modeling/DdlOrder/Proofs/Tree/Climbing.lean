import DdlOrder.Proofs.Tree.Nested

/-!
# Climbing up

Climbing from a node one meets the nodes above it with falling ids
(`Tree.pairwise_ancestors`), so the nearest node of a kind is the one of that kind with the
largest id (`Tree.Nearest`, `Tree.nearestAncestor?_eq_some_iff`). On the way a node is found among
the children of its parent, where it has one place (`Tree.ChildAt`,
`Tree.Nested.childPosition?_eq_some_iff`).
-/

namespace DdlOrder

namespace Tree

variable {t : Tree} {i a b : Nat} {kind : Kind}

theorem parentIs_eq_false_iff :
    t.parentIs i kind = false ↔ ∀ p, t.parent? i = some p → t.kind? p ≠ some kind := by
  rw [parentIs]
  cases t.parent? i <;> simp

/-- The ids fall on the way up. -/
theorem pairwise_ancestors (t : Tree) (i : Nat) : (t.ancestors i).Pairwise (· > ·) := by
  induction i using ancestors.induct t with
  | case1 i hp =>
    rw [ancestors_of_parent?_eq_none hp]
    exact .nil
  | case2 i p hp ih =>
    rw [ancestors_of_parent? hp]
    exact List.pairwise_cons.2 ⟨fun _ => lt_of_mem_ancestors, ih⟩

/-- Node `a` is the nearest node of a kind above node `i`: the others of that kind are above it,
too, and so have smaller ids. -/
structure Nearest (t : Tree) (kind : Kind) (a i : Nat) : Prop where
  above : a ∈ t.ancestors i
  kind_eq : t.kind? a = some kind
  le : ∀ b ∈ t.ancestors i, t.kind? b = some kind → b ≤ a

theorem Nearest.eq (ha : t.Nearest kind a i) (hb : t.Nearest kind b i) : a = b :=
  Nat.le_antisymm (hb.le a ha.above ha.kind_eq) (ha.le b hb.above hb.kind_eq)

theorem isSome_nearestAncestor?_iff :
    (t.nearestAncestor? i kind).isSome ↔ ∃ a ∈ t.ancestors i, t.kind? a = some kind := by
  simp only [nearestAncestor?, List.find?_isSome, beq_iff_eq]

theorem nearestAncestor?_eq_some_iff : t.nearestAncestor? i kind = some a ↔ t.Nearest kind a i := by
  have hfound : ∀ {a}, t.nearestAncestor? i kind = some a → t.Nearest kind a i := by
    intro a h
    obtain ⟨hkind, nearer, farther, hsplit, hnearer⟩ := List.find?_eq_some_iff_append.1 h
    refine ⟨hsplit ▸ List.mem_append_right _ List.mem_cons_self, eq_of_beq hkind,
      fun b hb hbkind => ?_⟩
    rw [hsplit, List.mem_append, List.mem_cons] at hb
    rcases hb with hb | rfl | hb
    · have := hnearer b hb
      simp [hbkind] at this
    · exact Nat.le_refl _
    · have hsorted := t.pairwise_ancestors i
      rw [hsplit, List.pairwise_append, List.pairwise_cons] at hsorted
      exact Nat.le_of_lt (hsorted.2.1.1 b hb)
  refine ⟨hfound, fun h => ?_⟩
  have hsome := isSome_nearestAncestor?_iff.2 ⟨a, h.above, h.kind_eq⟩
  obtain ⟨b, hb⟩ := Option.isSome_iff_exists.1 hsome
  rw [hb, (hfound hb).eq h]

/-- There is a nearest node of a kind above a node as soon as there is one at all. -/
theorem exists_nearest_iff :
    (∃ a, t.Nearest kind a i) ↔ ∃ a ∈ t.ancestors i, t.kind? a = some kind := by
  rw [← isSome_nearestAncestor?_iff, Option.isSome_iff_exists]
  exact exists_congr fun a => nearestAncestor?_eq_some_iff.symm

/-! ## Places among children -/

/-- Node `i` has the place `k` among the children of its parent. -/
def ChildAt (t : Tree) (k i : Nat) : Prop := ∃ p, t.parent? i = some p ∧ (t.children p)[k]? = some i

variable {k l : Nat}

/-- A child has one place only. -/
theorem Nested.childAt_unique (h : t.Nested) (hk : t.ChildAt k i) (hl : t.ChildAt l i) : k = l := by
  obtain ⟨p, hp, hpk⟩ := hk
  obtain ⟨q, hq, hql⟩ := hl
  obtain rfl : p = q := Option.some.inj (hp.symm.trans hq)
  obtain ⟨hlt, heq⟩ := List.getElem?_eq_some_iff.1 hpk
  obtain ⟨hlt', heq'⟩ := List.getElem?_eq_some_iff.1 hql
  have hnodup : (t.children p).Nodup := (h.pairwise_children p).imp Nat.ne_of_lt
  exact (hnodup.getElem_inj_iff).1 (heq.trans heq'.symm)

theorem Nested.childPosition?_eq_some_iff (h : t.Nested) :
    t.childPosition? i = some k ↔ t.ChildAt k i := by
  have hfound : ∀ {k}, t.childPosition? i = some k → t.ChildAt k i := by
    intro k hk
    obtain ⟨p, hp, hfind⟩ := Option.bind_eq_some_iff.1 hk
    obtain ⟨hlt, hchild, -⟩ := List.findIdx?_eq_some_iff_getElem.1 hfind
    exact ⟨p, hp, List.getElem?_eq_some_iff.2 ⟨hlt, eq_of_beq hchild⟩⟩
  refine ⟨hfound, fun hk => ?_⟩
  obtain ⟨p, hp, hpk⟩ := hk
  have hsome : (t.childPosition? i).isSome := by
    rw [childPosition?, hp, Option.bind_some, List.findIdx?_isSome, List.any_eq_true]
    exact ⟨i, List.mem_of_getElem? hpk, beq_self_eq_true i⟩
  obtain ⟨l, hl⟩ := Option.isSome_iff_exists.1 hsome
  rw [hl, h.childAt_unique (hfound hl) ⟨p, hp, hpk⟩]

end Tree

end DdlOrder
