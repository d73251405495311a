import DdlOrder.Proofs.Graph.Cycle
import Mathlib.Data.Prod.Lex

/-!
# Which order is found

A position is released by the last of the positions before it. The order that is found
places positions by their release, and those with the same release as they stand in the
input (`Graph.FirstReadyFirst`). No other order does so.

* `Graph.release_le_iff`: the release is the greatest place of a parent;
* `Graph.InTurn.pop`, `Graph.Mirrored.turns_placed`: what is placed or ready stands in turn,
  after one step and at the end;
* `Graph.FirstReadyFirst.unique`: a graph without cycles has one such order;
* `sort_first_ready_first`: sorting finds it.
-/

namespace DdlOrder

namespace Graph

variable {n : Nat} {g : Graph n} {order : List (Fin n)} {x y : Fin n}

/-- The place in `order` of the last parent of `x`, or −1 if `x` has no parent. -/
def release (g : Graph n) (order : List (Fin n)) (x : Fin n) : Int :=
  ((g.parents.get x).map fun p => (order.idxOf p : Int)).foldr max (-1)

/-- What decides where `x` stands: its release and then its own position. -/
def turn (g : Graph n) (order : List (Fin n)) (x : Fin n) : ℤ ×ₗ Fin n :=
  toLex (g.release order x, x)

/-- The order lists every position, and in their turn. -/
structure FirstReadyFirst (g : Graph n) (order : List (Fin n)) : Prop where
  perm : order.Perm (List.finRange n)
  idxOf_lt_iff : ∀ x y, order.idxOf x < order.idxOf y ↔ g.turn order x < g.turn order y

/-! ## Releases -/

theorem foldr_max_le_iff {a k : Int} {l : List Int} :
    l.foldr max a ≤ k ↔ a ≤ k ∧ ∀ b ∈ l, b ≤ k := by
  induction l with
  | nil => simp
  | cons b l ih =>
    rw [List.foldr_cons, max_le_iff, ih, List.forall_mem_cons]
    exact and_left_comm

theorem release_le_iff {k : Int} :
    g.release order x ≤ k ↔ -1 ≤ k ∧ ∀ p ∈ g.parents.get x, (order.idxOf p : Int) ≤ k := by
  rw [release, foldr_max_le_iff, List.forall_mem_map]

theorem release_lt_iff {k : Nat} :
    g.release order x < k ↔ ∀ p ∈ g.parents.get x, order.idxOf p < k := by
  rw [← Int.le_sub_one_iff, release_le_iff]
  have hle : ∀ p, (order.idxOf p : Int) ≤ k - 1 ↔ order.idxOf p < k := fun p => by omega
  simp only [hle]
  exact and_iff_right (by omega)

/-- The release depends on the places of the parents and on nothing else. -/
theorem release_congr {other : List (Fin n)}
    (hparents : ∀ p, p ∈ g.parents.get x ↔ p ∈ g.parents.get y)
    (hplaces : ∀ p ∈ g.parents.get x, order.idxOf p = other.idxOf p) :
    g.release order x = g.release other y := by
  refine eq_of_forall_ge_iff fun k => ?_
  rw [release_le_iff, release_le_iff]
  refine and_congr_right fun _ => ?_
  refine ⟨fun h p hp => ?_, fun h p hp => ?_⟩
  · have hp := (hparents p).2 hp
    exact hplaces p hp ▸ h p hp
  · exact hplaces p hp ▸ h p ((hparents p).1 hp)

/-- Positions released at the same place have their turns as they stand in the input. -/
theorem turn_lt_of_release_eq (h : g.release order x = g.release order y) (hxy : x < y) :
    g.turn order x < g.turn order y :=
  Prod.Lex.toLex_lt_toLex.2 (.inr ⟨h, hxy⟩)

theorem release_le_of_turn_lt (h : g.turn order x < g.turn order y) :
    g.release order x ≤ g.release order y := by
  rcases Prod.Lex.toLex_lt_toLex.1 h with hlt | ⟨heq, -⟩
  · exact hlt.le
  · exact heq.le

/-! ## The order that is found -/

namespace Placing

variable {done rest : List (Fin n)} {q : Queue n} {i : Fin n}

/-- What is placed or ready keeps its turn when further positions are placed. -/
theorem turn_append (h : g.Placing done q) (hg : g.Mirrored) (hx : x ∈ done ++ q.ready)
    (placed : List (Fin n)) : g.turn (done ++ placed) x = g.turn done x := by
  have hrelease : g.release (done ++ placed) x = g.release done x := by
    refine release_congr (fun p => Iff.rfl) fun p hp => ?_
    exact List.idxOf_append_of_mem (h.mem_done_of_edge hg (hg.mem_parents.1 hp) hx)
  rw [turn, turn, hrelease]

/-- What is placed or ready has been released before. -/
theorem release_lt_length (h : g.Placing done q) (hg : g.Mirrored) (hx : x ∈ done ++ q.ready) :
    g.release done x < done.length :=
  release_lt_iff.2 fun _ hp =>
    List.idxOf_lt_length_iff.2 (h.mem_done_of_edge hg (hg.mem_parents.1 hp) hx)

/-- What becomes ready with a position is released by it. -/
theorem release_eq_length (h : g.Placing done q) (hg : g.Mirrored) (hq : q.ready = i :: rest)
    (hx : x ∈ (q.pop g i rest).ready) (hix : g.Edge i x) :
    g.release (done ++ [i]) x = done.length := by
  have hlt := (h.pop hg hq).release_lt_length hg (List.mem_append_right _ hx)
  have hplace : (done ++ [i]).idxOf i = done.length := by
    rw [List.idxOf_append_of_notMem (h.notMem_done_of_ready hq), List.idxOf_cons_self]
    rfl
  have hge := (release_le_iff.1 (le_refl (g.release (done ++ [i]) x))).2 i (hg.mem_parents.2 hix)
  rw [List.length_append, List.length_singleton] at hlt
  omega

end Placing

/-- What holds while positions are placed, and what is placed or ready stands in turn. -/
structure InTurn (g : Graph n) (done : List (Fin n)) (q : Queue n) : Prop
    extends Placing g done q where
  turns : (done ++ q.ready).Pairwise fun x y => g.turn done x < g.turn done y

namespace InTurn

variable {done rest : List (Fin n)} {q : Queue n} {i : Fin n}

theorem start (g : Graph n) : g.InTurn [] g.start where
  toPlacing := Placing.start g
  turns := by
    rw [List.nil_append]
    refine ((List.pairwise_lt_finRange n).filter _).imp_of_mem fun {x y} hx hy hxy => ?_
    have hnone : ∀ z ∈ g.start.ready, g.release [] z = -1 := fun z hz => by
      have := of_decide_eq_true (List.mem_filter.1 hz).2
      rw [release, List.length_eq_zero_iff.1 this]
      rfl
    exact turn_lt_of_release_eq ((hnone x hx).trans (hnone y hy).symm) hxy

/-- Placing the first ready position leaves those placed or ready in turn: what it
releases comes behind the others, in ascending order. -/
theorem pop (h : g.InTurn done q) (hg : g.Mirrored) (hq : q.ready = i :: rest) :
    g.InTurn (done ++ [i]) (q.pop g i rest) where
  toPlacing := h.toPlacing.pop hg hq
  turns := by
    have hnew : ∀ x ∈ (g.dependents.get i).filter fun j => q.waiting.get j = 1,
        g.release (done ++ [i]) x = done.length := fun x hx => by
      refine h.release_eq_length hg hq ?_ (List.mem_filter.1 hx).1
      rw [Placing.ready_pop hg]
      exact List.mem_append_right _ hx
    rw [Placing.concat_append_ready_pop hg, ← hq, List.pairwise_append]
    refine ⟨h.turns.imp_of_mem fun hx hy hxy => ?_, ?_, fun x hx y hy => ?_⟩
    · rwa [h.turn_append hg hx, h.turn_append hg hy]
    · refine ((hg.dependents_sorted i).filter _).imp_of_mem fun hx hy hxy => ?_
      exact turn_lt_of_release_eq ((hnew _ hx).trans (hnew _ hy).symm) hxy
    · rw [h.turn_append hg hx, turn, turn, hnew y hy]
      exact Prod.Lex.toLex_lt_toLex.2 (.inl (h.release_lt_length hg hx))

end InTurn

/-- All that is placed stands in turn. -/
theorem Mirrored.turns_placed (hg : g.Mirrored) :
    g.placed.Pairwise fun x y => g.turn g.placed x < g.turn g.placed y := by
  have h : g.InTurn ([] ++ g.placed) { ready := [], waiting := (g.place g.start).2 } :=
    place_induction (fun hq h => InTurn.pop h hg hq) (InTurn.start g)
  simpa using h.turns

theorem idxOf_lt_iff_of_pairwise {α β : Type} [DecidableEq α] [Preorder β] {f : α → β}
    {l : List α} (h : l.Pairwise fun a b => f a < f b) {a b : α} (ha : a ∈ l) (hb : b ∈ l) :
    l.idxOf a < l.idxOf b ↔ f a < f b := by
  have hlt : ∀ {a b}, a ∈ l → b ∈ l → l.idxOf a < l.idxOf b → f a < f b := by
    intro a b ha hb hab
    have := List.pairwise_iff_getElem.1 h _ _ (List.idxOf_lt_length_of_mem ha)
      (List.idxOf_lt_length_of_mem hb) hab
    simpa using this
  refine ⟨hlt ha hb, fun hab => ?_⟩
  rcases Nat.lt_trichotomy (l.idxOf a) (l.idxOf b) with hidx | hidx | hidx
  · exact hidx
  · rw [List.idxOf_inj ha |>.1 hidx] at hab
    exact absurd hab (lt_irrefl _)
  · exact absurd hab (hlt hb ha hidx).asymm

theorem firstReadyFirst_placed (hg : g.Mirrored) (h : ¬ Cyclic g.Edge) :
    g.FirstReadyFirst g.placed where
  perm := perm_placed hg h
  idxOf_lt_iff x y := by
    have hmem : ∀ z, z ∈ g.placed := fun z => (perm_placed hg h).mem_iff.2 (List.mem_finRange z)
    exact idxOf_lt_iff_of_pairwise hg.turns_placed (hmem x) (hmem y)

/-! ## There is no other -/

namespace FirstReadyFirst

variable {other : List (Fin n)}

theorem mem (h : g.FirstReadyFirst order) (x : Fin n) : x ∈ order :=
  h.perm.mem_iff.2 (List.mem_finRange x)

theorem nodup (h : g.FirstReadyFirst order) : order.Nodup :=
  h.perm.nodup_iff.2 (List.nodup_finRange n)

theorem idxOf_lt (h : g.FirstReadyFirst order) (x : Fin n) : order.idxOf x < n := by
  have := List.idxOf_lt_length_of_mem (h.mem x)
  rwa [h.perm.length_eq, List.length_finRange] at this

theorem exists_idxOf_eq (h : g.FirstReadyFirst order) {k : Nat} (hk : k < n) :
    ∃ y, order.idxOf y = k := by
  have hlen : k < order.length := by rwa [h.perm.length_eq, List.length_finRange]
  exact ⟨order[k], h.nodup.idxOf_getElem k hlen⟩

theorem idxOf_inj (h : g.FirstReadyFirst order) : order.idxOf x = order.idxOf y ↔ x = y :=
  List.idxOf_inj (h.mem x)

/-- Without cycles, what stands in turn follows its parents. For if the last parent of `x`
stood behind `x`, so would a parent of everything behind `x`. -/
theorem idxOf_lt_of_edge (h : g.FirstReadyFirst order) (hg : g.Mirrored)
    (hacyclic : ¬ Cyclic g.Edge) (hxy : g.Edge x y) : order.idxOf x < order.idxOf y := by
  by_contra hle
  refine hacyclic (behindCycle_of_forall_exists (s := fun z => order.idxOf y ≤ order.idxOf z)
    (fun z hz => ?_) (le_refl _)).cyclic
  have hlast : ¬ g.release order z < order.idxOf y := by
    rcases Nat.eq_or_lt_of_le hz with heq | hlt
    · rw [← h.idxOf_inj.1 heq, release_lt_iff]
      exact fun hparents => hle (hparents x (hg.mem_parents.2 hxy))
    · intro hz
      have hyz := release_le_of_turn_lt ((h.idxOf_lt_iff y z).1 hlt)
      exact hle (release_lt_iff.1 (lt_of_le_of_lt hyz hz) x (hg.mem_parents.2 hxy))
  rw [release_lt_iff] at hlast
  push Not at hlast
  obtain ⟨p, hp, hplace⟩ := hlast
  exact ⟨p, hplace, hg.mem_parents.1 hp⟩

/-- Orders that agree up to some place agree there as well: in each of the two, what stands
there has its turn before what stands there in the other. -/
theorem idxOf_eq_of_forall_lt (h : g.FirstReadyFirst order) (hother : g.FirstReadyFirst other)
    (hg : g.Mirrored) (hacyclic : ¬ Cyclic g.Edge) {k : Nat}
    (hagree : ∀ m < k, ∀ z, order.idxOf z = m ↔ other.idxOf z = m) (hx : order.idxOf x = k) :
    other.idxOf x = k := by
  obtain ⟨y, hy⟩ := hother.exists_idxOf_eq (hx ▸ h.idxOf_lt x)
  by_contra hne
  have hneq : order.idxOf y ≠ k := fun e => hne (h.idxOf_inj.1 (e.trans hx.symm) ▸ hy)
  have hxy : order.idxOf x < order.idxOf y := by
    have : ¬ order.idxOf y < k := fun hlt => by
      have := (hagree _ hlt y).1 rfl
      omega
    omega
  have hyx : other.idxOf y < other.idxOf x := by
    have : ¬ other.idxOf x < k := fun hlt => by
      have := (hagree _ hlt x).2 rfl
      omega
    omega
  have hturn : ∀ z, (∀ p ∈ g.parents.get z, order.idxOf p < k ∨ other.idxOf p < k) →
      g.turn order z = g.turn other z := by
    intro z hz
    have : g.release order z = g.release other z := by
      refine release_congr (fun p => Iff.rfl) fun p hp => ?_
      rcases hz p hp with hlt | hlt
      · exact ((hagree _ hlt p).1 rfl).symm
      · exact (hagree _ hlt p).2 rfl
    rw [turn, turn, this]
  have hturnx := hturn x fun p hp =>
    .inl (hx ▸ h.idxOf_lt_of_edge hg hacyclic (hg.mem_parents.1 hp))
  have hturny := hturn y fun p hp =>
    .inr (hy ▸ hother.idxOf_lt_of_edge hg hacyclic (hg.mem_parents.1 hp))
  have hlt := (h.idxOf_lt_iff x y).1 hxy
  rw [hturnx, hturny] at hlt
  exact hlt.asymm ((hother.idxOf_lt_iff y x).1 hyx)

theorem unique (h : g.FirstReadyFirst order) (hother : g.FirstReadyFirst other)
    (hg : g.Mirrored) (hacyclic : ¬ Cyclic g.Edge) : other = order := by
  have hagree : ∀ k z, order.idxOf z = k ↔ other.idxOf z = k := by
    intro k
    induction k using Nat.strongRecOn with
    | ind k ih =>
      intro z
      exact ⟨h.idxOf_eq_of_forall_lt hother hg hacyclic ih,
        hother.idxOf_eq_of_forall_lt h hg hacyclic fun m hm z => (ih m hm z).symm⟩
  have hlen : other.length = order.length := hother.perm.length_eq.trans h.perm.length_eq.symm
  refine List.ext_getElem hlen fun k hk hk' => ?_
  have hplace := h.nodup.idxOf_getElem k hk'
  have hplace' := hother.nodup.idxOf_getElem k hk
  exact h.idxOf_inj.1 (((hagree k _).2 hplace').trans hplace.symm)

end FirstReadyFirst

/-! ## Sorting -/

/-- An order that sorting finds has every position in its turn and is the only such order.
So positions with the same parents keep their input order. -/
theorem sort_first_ready_first {edges : List (Fin n × Fin n)} {texts : List String}
    (h : (ofEdges n edges).sort texts = .ok order) :
    (ofEdges n edges).FirstReadyFirst order ∧
      (∀ other, (ofEdges n edges).FirstReadyFirst other → other = order) ∧
      ∀ x y, (∀ p, (p, x) ∈ edges ↔ (p, y) ∈ edges) → x < y →
        order.idxOf x < order.idxOf y := by
  have hg := mirrored_ofEdges n edges
  obtain ⟨hacyclic, rfl⟩ := (sort_eq_ok_iff hg).1 h
  have hfirst := firstReadyFirst_placed hg hacyclic
  refine ⟨hfirst, fun other hother => hfirst.unique hother hg hacyclic, fun x y hparents hxy => ?_⟩
  refine (hfirst.idxOf_lt_iff x y).2 (turn_lt_of_release_eq ?_ hxy)
  refine release_congr (fun p => ?_) fun _ _ => rfl
  rw [hg.mem_parents, hg.mem_parents, edge_ofEdges, edge_ofEdges]
  exact hparents p

/-- Position 0 waits for 4 and comes last, although it is the first of the input; 1 and 3
wait for 2 and keep their order. -/
theorem sort_first_ready_first_five :
    let edges : List (Fin 5 × Fin 5) := [(4, 0), (2, 3), (2, 1), (2, 3)]
    (ofEdges 5 edges).sort [] = .ok [2, 4, 1, 3, 0] ∧
      (ofEdges 5 edges).FirstReadyFirst [2, 4, 1, 3, 0] ∧
      (∀ other, (ofEdges 5 edges).FirstReadyFirst other → other = [2, 4, 1, 3, 0]) ∧
      ∀ x y, (∀ p, (p, x) ∈ edges ↔ (p, y) ∈ edges) → x < y →
        [2, 4, 1, 3, 0].idxOf x < [2, 4, 1, 3, 0].idxOf y := by
  intro edges
  have hsort : (ofEdges 5 edges).sort [] = .ok [2, 4, 1, 3, 0] := by decide +kernel
  exact ⟨hsort, sort_first_ready_first hsort⟩

end Graph

end DdlOrder
