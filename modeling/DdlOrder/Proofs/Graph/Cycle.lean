import DdlOrder.Proofs.Graph.Placing
import Mathlib.Data.Fintype.Pigeonhole
import Mathlib.Data.List.Perm.Subperm
import Mathlib.Logic.Relation

/-!
# Cycles, and what lies behind them

A position can be placed exactly if it does not lie on a cycle and cannot be reached
from one. So an order of the whole graph is found unless there is a cycle, and the
positions left over are those on the cycles and behind them.

* `behindCycle_of_forall_exists`: in a finite set where everything has a predecessor,
  everything lies behind a cycle;
* `Graph.mem_placed_iff`, `Graph.mem_stuck_iff`: which positions are placed and which
  are left over;
* `Graph.sort_of_not_cyclic`, `Graph.sort_of_cyclic`: what `Graph.sort` gives.
-/

namespace DdlOrder

open Relation (TransGen ReflTransGen)

/-! ## Cycles of a relation -/

section Relation

variable {α : Type} {r : α → α → Prop}

/-- Some element can be reached from itself in one or more steps. -/
def Cyclic (r : α → α → Prop) : Prop := ∃ a, TransGen r a a

/-- The element lies on a cycle or can be reached from one. -/
def BehindCycle (r : α → α → Prop) (a : α) : Prop := ∃ c, TransGen r c c ∧ ReflTransGen r c a

theorem BehindCycle.cyclic {a : α} (h : BehindCycle r a) : Cyclic r := by
  obtain ⟨c, hc, -⟩ := h
  exact ⟨c, hc⟩

theorem Cyclic.exists_behindCycle (h : Cyclic r) : ∃ a, BehindCycle r a := by
  obtain ⟨c, hc⟩ := h
  exact ⟨c, c, hc, .refl⟩

/-- A map that keeps all steps takes cycles to cycles. -/
theorem Cyclic.lift {β : Type} {s : β → β → Prop} (f : α → β)
    (hf : ∀ a b, r a b → s (f a) (f b)) (h : Cyclic r) : Cyclic s := by
  obtain ⟨c, hc⟩ := h
  exact ⟨f c, TransGen.lift f hf c c hc⟩

/-- What lies behind a cycle is taken behind a cycle. -/
theorem BehindCycle.lift {β : Type} {s : β → β → Prop} (f : α → β)
    (hf : ∀ a b, r a b → s (f a) (f b)) {a : α} (h : BehindCycle r a) : BehindCycle s (f a) := by
  obtain ⟨c, hc, hca⟩ := h
  exact ⟨f c, TransGen.lift f hf c c hc, ReflTransGen.lift f hf c a hca⟩

/-- Going from predecessor to predecessor in a finite set, one comes back to an
element that was there before. -/
theorem behindCycle_of_forall_exists [Finite α] {s : α → Prop}
    (h : ∀ a, s a → ∃ b, s b ∧ r b a) {a : α} (ha : s a) : BehindCycle r a := by
  choose! pred hs hr using h
  have hmem : ∀ k, s (pred^[k] a) := by
    intro k
    induction k with
    | zero => exact ha
    | succ k ih =>
      rw [Function.iterate_succ_apply']
      exact hs _ ih
  have hstep : ∀ k, r (pred^[k + 1] a) (pred^[k] a) := by
    intro k
    rw [Function.iterate_succ_apply']
    exact hr _ (hmem k)
  have hback : ∀ k m, ReflTransGen r (pred^[k + m] a) (pred^[k] a) := by
    intro k m
    induction m with
    | zero => exact .refl
    | succ m ih => exact .head (hstep (k + m)) ih
  have hloop : ∀ k l, k < l → pred^[k] a = pred^[l] a → BehindCycle r a := by
    intro k l hkl heq
    obtain ⟨m, rfl⟩ := Nat.exists_eq_add_of_lt hkl
    have hcycle : TransGen r (pred^[k + m + 1] a) (pred^[k] a) :=
      .head' (hstep (k + m)) (hback k m)
    rw [← heq] at hcycle
    refine ⟨pred^[k] a, hcycle, ?_⟩
    simpa using hback 0 k
  obtain ⟨k, l, hkl, heq⟩ := Finite.exists_ne_map_eq_of_infinite fun k => pred^[k] a
  rcases Nat.lt_or_gt_of_ne hkl with hlt | hlt
  · exact hloop k l hlt heq
  · exact hloop l k hlt heq.symm

end Relation

/-! ## What is placed and what is left over -/

namespace Graph

variable {n : Nat} {g : Graph n} {i j : Fin n}

/-- The positions that become ready, in the order in which they are placed. -/
def placed (g : Graph n) : List (Fin n) := (g.place g.start).1

/-- The positions that never become ready, in ascending order. -/
def stuck (g : Graph n) : List (Fin n) :=
  (List.finRange n).filter fun i => 0 < (g.place g.start).2.get i

theorem Mirrored.placing_placed (hg : g.Mirrored) :
    g.Placing g.placed { ready := [], waiting := (g.place g.start).2 } :=
  (Placing.start g).place hg

theorem Mirrored.nodup_placed (hg : g.Mirrored) : g.placed.Nodup := by
  simpa using hg.placing_placed.nodup

theorem Mirrored.mem_placed_of_edge (hg : g.Mirrored) (hij : g.Edge i j) (hj : j ∈ g.placed) :
    i ∈ g.placed :=
  hg.placing_placed.mem_done_of_edge hg hij (by simpa using hj)

theorem Mirrored.idxOf_placed_lt (hg : g.Mirrored) (hij : g.Edge i j) (hj : j ∈ g.placed) :
    g.placed.idxOf i < g.placed.idxOf j :=
  hg.placing_placed.ordered hij hj

/-- What is left over still waits for something that is left over as well. -/
theorem Mirrored.exists_edge_of_notMem_placed (hg : g.Mirrored) (hj : j ∉ g.placed) :
    ∃ i, i ∉ g.placed ∧ g.Edge i j := by
  have h := hg.placing_placed
  have hpos : 0 < (g.place g.start).2.get j := by
    refine Nat.pos_of_ne_zero fun h0 => hj ?_
    simpa using (h.mem_iff j).2 h0
  have hcount := h.waiting_eq j
  simp only at hcount
  rw [hcount, List.countP_pos_iff] at hpos
  obtain ⟨i, hi, hnot⟩ := hpos
  exact ⟨i, by simpa using hnot, hg.mem_parents.1 hi⟩

theorem Mirrored.mem_placed_of_reflTransGen (hg : g.Mirrored) (h : ReflTransGen g.Edge i j)
    (hj : j ∈ g.placed) : i ∈ g.placed := by
  induction h using ReflTransGen.head_induction_on with
  | refl => exact hj
  | head hik _ ih => exact hg.mem_placed_of_edge hik ih

theorem Mirrored.idxOf_placed_lt_of_transGen (hg : g.Mirrored) (h : TransGen g.Edge i j)
    (hj : j ∈ g.placed) : g.placed.idxOf i < g.placed.idxOf j := by
  induction h with
  | single hik => exact hg.idxOf_placed_lt hik hj
  | tail _ hkl ih =>
    exact Nat.lt_trans (ih (hg.mem_placed_of_edge hkl hj)) (hg.idxOf_placed_lt hkl hj)

theorem mem_placed_iff (hg : g.Mirrored) : i ∈ g.placed ↔ ¬ BehindCycle g.Edge i := by
  constructor
  · rintro hi ⟨c, hc, hci⟩
    have hplaced := hg.mem_placed_of_reflTransGen hci hi
    exact Nat.lt_irrefl _ (hg.idxOf_placed_lt_of_transGen hc hplaced)
  · intro hi
    by_contra hnot
    refine hi (behindCycle_of_forall_exists (s := (· ∉ g.placed)) (fun k hk => ?_) hnot)
    exact hg.exists_edge_of_notMem_placed hk

theorem mem_stuck_iff (hg : g.Mirrored) : i ∈ g.stuck ↔ BehindCycle g.Edge i := by
  have h := hg.placing_placed.mem_iff i
  simp only [List.append_nil] at h
  rw [stuck, List.mem_filter, decide_eq_true_eq, Nat.pos_iff_ne_zero, ne_eq, ← h,
    mem_placed_iff hg, not_not]
  simp

theorem stuck_sorted (g : Graph n) : g.stuck.Pairwise (· < ·) :=
  (List.pairwise_lt_finRange n).filter _

/-! ## The outcome of sorting -/

theorem perm_finRange_of_nodup {l : List (Fin n)} (hl : l.Nodup) (h : n ≤ l.length) :
    l.Perm (List.finRange n) :=
  (List.subperm_of_subset hl fun i _ => List.mem_finRange i).perm_of_length_le
    (by rwa [List.length_finRange])

theorem perm_placed (hg : g.Mirrored) (h : ¬ Cyclic g.Edge) :
    g.placed.Perm (List.finRange n) := by
  refine (List.perm_ext_iff_of_nodup hg.nodup_placed (List.nodup_finRange n)).2 fun i => ?_
  rw [mem_placed_iff hg]
  exact iff_of_true (fun hi => h hi.cyclic) (List.mem_finRange i)

theorem length_placed_lt_iff (hg : g.Mirrored) : g.placed.length < n ↔ Cyclic g.Edge := by
  constructor
  · intro hlt
    by_contra h
    have := (perm_placed hg h).length_eq
    rw [List.length_finRange] at this
    omega
  · intro h
    obtain ⟨a, ha⟩ := h.exists_behindCycle
    refine Nat.lt_of_not_le fun hle => (mem_placed_iff hg).1 ?_ ha
    exact (perm_finRange_of_nodup hg.nodup_placed hle).mem_iff.2 (List.mem_finRange a)

theorem sort_of_not_cyclic (hg : g.Mirrored) (texts : List String) (h : ¬ Cyclic g.Edge) :
    g.sort texts = .ok g.placed :=
  if_neg (mt (length_placed_lt_iff hg).1 h)

theorem sort_of_cyclic (hg : g.Mirrored) (texts : List String) (h : Cyclic g.Edge) :
    g.sort texts = .error (.cycle (g.stuck.filterMap fun i => texts[i.val]?)) :=
  if_pos ((length_placed_lt_iff hg).2 h)

/-- An order that is found is one of all positions. -/
theorem sort_eq_ok_iff (hg : g.Mirrored) {texts : List String} {order : List (Fin n)} :
    g.sort texts = .ok order ↔ ¬ Cyclic g.Edge ∧ order = g.placed := by
  by_cases h : Cyclic g.Edge
  · rw [sort_of_cyclic hg texts h]
    simp [h]
  · rw [sort_of_not_cyclic hg texts h]
    simp [h, eq_comm]

theorem sort_eq_error_iff (hg : g.Mirrored) {texts : List String} {e : Error} :
    g.sort texts = .error e ↔
      Cyclic g.Edge ∧ e = .cycle (g.stuck.filterMap fun i => texts[i.val]?) := by
  by_cases h : Cyclic g.Edge
  · rw [sort_of_cyclic hg texts h]
    simp [h, eq_comm]
  · rw [sort_of_not_cyclic hg texts h]
    simp [h]

end Graph

end DdlOrder
