import DdlOrder.Graph.Sort
import DdlOrder.Proofs.Graph.Mirror
import Mathlib.Data.List.Nodup
import Mathlib.Order.Fin.Basic

/-!
# Placing positions, step by step

What holds while the positions of a graph are placed (`Graph.Placing`): those placed
or ready are listed once and are the ones that wait for nothing, every other
position waits for as many as come before it and are not placed, and what is placed
follows everything that comes before it.

* `Graph.Queue.waiting_foldl_release`, `Graph.Queue.ready_foldl_release`: what one
  placed position releases;
* `Graph.Placing.start`, `Graph.Placing.pop`, `Graph.Placing.place`: this holds at the
  start, after every step and at the end.
-/

namespace DdlOrder

namespace Graph

variable {n : Nat}

/-! ## One step -/

namespace Queue

theorem waiting_release (q : Queue n) (i j : Fin n) :
    (q.release i).waiting.get j = if j = i then q.waiting.get j - 1 else q.waiting.get j := by
  simp only [release, get_eq_getElem, Vector.getElem_set, Fin.val_inj, eq_comm (a := j)]
  split
  · rename_i h
    rw [h]
  · rfl

theorem waiting_foldl_release (q : Queue n) {l : List (Fin n)} (hl : l.Nodup) (j : Fin n) :
    (l.foldl release q).waiting.get j = if j ∈ l then q.waiting.get j - 1 else q.waiting.get j := by
  induction l generalizing q with
  | nil => simp
  | cons i l ih =>
    obtain ⟨hi, hl⟩ := List.nodup_cons.1 hl
    rw [List.foldl_cons, ih _ hl, waiting_release]
    by_cases hj : j = i
    · subst hj
      simp [hi]
    · simp [hj]

/-- Of the positions that are released, those that waited for nothing else become ready, in the
order in which they are released. -/
theorem ready_foldl_release (q : Queue n) {l : List (Fin n)} (hl : l.Nodup) :
    (l.foldl release q).ready = q.ready ++ l.filter fun j => q.waiting.get j = 1 := by
  induction l generalizing q with
  | nil => simp
  | cons i l ih =>
    obtain ⟨hi, hl⟩ := List.nodup_cons.1 hl
    have hrest : (l.filter fun j => (q.release i).waiting.get j = 1) =
        l.filter fun j => q.waiting.get j = 1 := by
      refine List.filter_congr fun j hj => ?_
      have hji : j ≠ i := fun e => hi (by rwa [e] at hj)
      rw [waiting_release, if_neg hji]
    rw [List.foldl_cons, ih _ hl, hrest, List.filter_cons, release]
    by_cases h : q.waiting.get i = 1
    · simp only [h, ↓reduceIte, decide_true, List.append_assoc, List.singleton_append]
    · simp only [h, ↓reduceIte, decide_false, Bool.false_eq_true]

/-- The queue after position `i` has been taken from it, which leaves `rest`. -/
def pop (g : Graph n) (q : Queue n) (i : Fin n) (rest : List (Fin n)) : Queue n :=
  (g.dependents.get i).foldl release { q with ready := rest }

end Queue

theorem place_of_ready_nil (g : Graph n) {q : Queue n} (h : q.ready = []) :
    g.place q = ([], q.waiting) := by
  rw [place]
  split
  · rfl
  · rename_i i rest hr
    rw [h] at hr
    cases hr

theorem place_of_ready_cons (g : Graph n) {q : Queue n} {i : Fin n} {rest : List (Fin n)}
    (h : q.ready = i :: rest) :
    g.place q = (i :: (g.place (q.pop g i rest)).1, (g.place (q.pop g i rest)).2) := by
  rw [place]
  split
  · rename_i hr
    rw [h] at hr
    cases hr
  · rename_i i' rest' hr
    obtain ⟨rfl, rfl⟩ := List.cons.inj (h.symm.trans hr)
    rfl

/-- What every step keeps holds of all that was placed, once nothing is ready any more. -/
theorem place_induction {g : Graph n} {P : List (Fin n) → Queue n → Prop}
    (hpop : ∀ {done q i rest}, q.ready = i :: rest → P done q → P (done ++ [i]) (q.pop g i rest))
    {done : List (Fin n)} {q : Queue n} (h : P done q) :
    P (done ++ (g.place q).1) { ready := [], waiting := (g.place q).2 } := by
  induction hload : q.load using Nat.strongRecOn generalizing done q with
  | ind load ih =>
    cases hq : q.ready with
    | nil =>
      rw [place_of_ready_nil g hq, List.append_nil]
      obtain ⟨waiting, ready⟩ := q
      cases hq
      exact h
    | cons i rest =>
      have hlt : (q.pop g i rest).load < load := by
        refine Nat.lt_of_le_of_lt (Queue.load_foldl_release_le _ _) ?_
        rw [← hload]
        simp only [Queue.load, hq, List.length_cons]
        omega
      have := ih _ hlt (hpop hq h) rfl
      rw [place_of_ready_cons g hq]
      rw [List.append_assoc] at this
      exact this

/-! ## The invariant -/

/-- What holds once `done` has been placed, in this order, and `q` is left. -/
structure Placing (g : Graph n) (done : List (Fin n)) (q : Queue n) : Prop where
  nodup : (done ++ q.ready).Nodup
  /-- Each position waits for those before it that are not placed. -/
  waiting_eq : ∀ j : Fin n, q.waiting.get j = (g.parents.get j).countP (· ∉ done)
  /-- Placed or ready are those that wait for nothing. -/
  mem_iff : ∀ j : Fin n, j ∈ done ++ q.ready ↔ q.waiting.get j = 0
  /-- What is placed follows everything that comes before it. -/
  ordered : ∀ {i j : Fin n}, g.Edge i j → j ∈ done → done.idxOf i < done.idxOf j

/-- With one more position placed, one less is waited for where it comes before. -/
theorem countP_notMem_concat {l done : List (Fin n)} (hl : l.Nodup) {i : Fin n} (hi : i ∉ done) :
    l.countP (· ∉ done) = l.countP (· ∉ done ++ [i]) + if i ∈ l then 1 else 0 := by
  induction l with
  | nil => simp
  | cons a l ih =>
    obtain ⟨ha, hl⟩ := List.nodup_cons.1 hl
    have ih := ih hl
    rw [List.countP_cons, List.countP_cons]
    by_cases hai : a = i
    · subst hai
      rw [if_neg ha] at ih
      rw [ih]
      simp [hi]
    · have hmem : a ∈ done ++ [i] ↔ a ∈ done := by simp [hai]
      have hia : i ∈ a :: l ↔ i ∈ l := by simp [Ne.symm hai]
      simp only [hmem, hia, ih]
      omega

namespace Placing

variable {g : Graph n} {done rest : List (Fin n)} {q : Queue n} {i j : Fin n}

theorem start (g : Graph n) : g.Placing [] g.start where
  nodup := by
    rw [List.nil_append]
    exact (List.nodup_finRange n).filter _
  waiting_eq j := by simp [Graph.start, get_eq_getElem]
  mem_iff j := by simp [Graph.start, get_eq_getElem]
  ordered _ h := by cases h

theorem notMem_done_of_ready (h : g.Placing done q) (hq : q.ready = i :: rest) : i ∉ done := by
  intro hi
  have := h.nodup
  rw [hq] at this
  exact (List.disjoint_of_nodup_append this) hi List.mem_cons_self

/-- What is placed or ready has everything that comes before it placed. -/
theorem mem_done_of_edge (h : g.Placing done q) (hg : g.Mirrored) (hij : g.Edge i j)
    (hj : j ∈ done ++ q.ready) : i ∈ done := by
  have h0 := (h.mem_iff j).1 hj
  rw [h.waiting_eq, List.countP_eq_zero] at h0
  simpa using h0 i (hg.mem_parents.2 hij)

/-- A position still waits for one that is ready. -/
theorem waiting_pos (h : g.Placing done q) (hg : g.Mirrored) (hq : q.ready = i :: rest)
    (hij : g.Edge i j) : 0 < q.waiting.get j := by
  refine Nat.pos_of_ne_zero fun h0 => h.notMem_done_of_ready hq ?_
  exact h.mem_done_of_edge hg hij ((h.mem_iff j).2 h0)

theorem waiting_pop (hg : g.Mirrored) (q : Queue n) (i : Fin n) (rest : List (Fin n))
    (j : Fin n) :
    (q.pop g i rest).waiting.get j = q.waiting.get j - if g.Edge i j then 1 else 0 := by
  rw [Queue.pop, Queue.waiting_foldl_release _ (hg.dependents_nodup i)]
  show (if g.Edge i j then _ else _) = _
  split <;> rfl

theorem ready_pop (hg : g.Mirrored) (q : Queue n) (i : Fin n) (rest : List (Fin n)) :
    (q.pop g i rest).ready = rest ++ (g.dependents.get i).filter fun j => q.waiting.get j = 1 :=
  Queue.ready_foldl_release _ (hg.dependents_nodup i)

/-- The positions that a placed one releases come behind all that were placed or ready. -/
theorem concat_append_ready_pop (hg : g.Mirrored) (done : List (Fin n)) (q : Queue n) (i : Fin n)
    (rest : List (Fin n)) :
    done ++ [i] ++ (q.pop g i rest).ready =
      (done ++ i :: rest) ++ (g.dependents.get i).filter fun j => q.waiting.get j = 1 := by
  rw [ready_pop hg]
  simp

/-- Placing the first ready position keeps the invariant. -/
theorem pop (h : g.Placing done q) (hg : g.Mirrored) (hq : q.ready = i :: rest) :
    g.Placing (done ++ [i]) (q.pop g i rest) := by
  have hi := h.notMem_done_of_ready hq
  have hmem := h.mem_iff
  have hnodup := h.nodup
  rw [hq] at hmem hnodup
  have hsplit := concat_append_ready_pop hg done q i rest
  refine ⟨?_, fun j => ?_, fun j => ?_, fun {a b} hab hb => ?_⟩
  · rw [hsplit]
    refine hnodup.append ((hg.dependents_nodup i).filter _) fun j hj hnew => ?_
    have h1 := (List.mem_filter.1 hnew).2
    rw [decide_eq_true_eq, (hmem j).1 hj] at h1
    cases h1
  · have hcount := countP_notMem_concat (hg.parents_nodup j) hi
    simp only [hg.mem_parents] at hcount
    rw [waiting_pop hg, h.waiting_eq, hcount]
    omega
  · rw [hsplit, List.mem_append, hmem, List.mem_filter, waiting_pop hg, decide_eq_true_eq]
    show _ ∨ g.Edge i j ∧ _ ↔ _
    by_cases hij : g.Edge i j
    · have := h.waiting_pos hg hq hij
      simp only [hij, true_and, ↓reduceIte]
      omega
    · simp [hij]
  · rcases List.mem_append.1 hb with hb | hb
    · have ha := h.mem_done_of_edge hg hab (List.mem_append_left _ hb)
      rw [List.idxOf_append_of_mem ha, List.idxOf_append_of_mem hb]
      exact h.ordered hab hb
    · have hbi : b = i := List.mem_singleton.1 hb
      have ha : a ∈ done := by
        refine h.mem_done_of_edge hg hab ?_
        rw [hq, hbi]
        exact List.mem_append_right _ List.mem_cons_self
      rw [List.idxOf_append_of_mem ha, hbi, List.idxOf_append_of_notMem hi]
      exact Nat.lt_of_lt_of_le (List.idxOf_lt_length_iff.2 ha) (Nat.le_add_right _ _)

/-- When nothing is ready any more, the invariant holds of all that was placed. -/
theorem place (h : g.Placing done q) (hg : g.Mirrored) :
    g.Placing (done ++ (g.place q).1) { ready := [], waiting := (g.place q).2 } :=
  place_induction (fun hq h => h.pop hg hq) h

end Placing

end Graph

end DdlOrder
