import DdlOrder.Proofs.Graph.Mirror
import DdlOrder.Proofs.Graph.Placing
import Mathlib.Algebra.GroupWithZero.Nat
import Mathlib.Algebra.Order.BigOperators.Group.List
import Mathlib.Algebra.Order.Group.Nat
import Mathlib.Data.List.Perm.Subperm

/-!
# Counting down

The sort goes in small steps: a position is taken from the queue, and then what waits for it is
counted down, one position after the other (`Graph.Step`). At each moment that is reached this way
(`Graph.Reached`) every position waits for as many as are still to be taken or to release it
(`Graph.Moment.Balanced`). So nothing is counted down that is zero already, and no position comes
into the queue twice, be there cycles or not.

* `Graph.Moment.Balanced.release`, `Graph.Moment.Balanced.take`: each step keeps the counts right;
* `Graph.Reached.steps_le`: no more steps are made than there are positions and edges;
* `Graph.exists_reached_last`, `Graph.Reached.eq_last`, `Graph.sort_eq_answer_last`: the only moment
  in which the sort can end is the one that `Graph.place` tells of and that `Graph.sort` answers
  from;
* `edges_recorded_once_and_counted_down`: all this of the graphs that are built edge by edge.
-/

namespace DdlOrder

namespace Graph

variable {n : Nat}

/-! ## Moments -/

/-- A moment of the sort: the positions taken from the queue, those that the last of them has
still to release, and the queue. -/
structure Moment (n : Nat) where
  taken : List (Fin n)
  releasing : List (Fin n)
  queue : Queue n

/-- The positions that have been put in the queue so far, one after the other: those taken from
it and those still in it. -/
def Moment.queued (m : Moment n) : List (Fin n) := m.taken ++ m.queue.ready

/-- One step of the sort. -/
inductive Step (g : Graph n) : Moment n → Moment n → Prop where
  /-- What `j` waits for is counted down. -/
  | release {taken releasing : List (Fin n)} {j : Fin n} {queue : Queue n} :
    Step g { taken, releasing := j :: releasing, queue }
      { taken, releasing, queue := queue.release j }
  /-- With nothing left to release, the next position is taken. -/
  | take {taken rest : List (Fin n)} {i : Fin n} {waiting : Vector Nat n} :
    Step g { taken, releasing := [], queue := { waiting, ready := i :: rest } }
      { taken := taken ++ [i], releasing := g.dependents.get i,
        queue := { waiting, ready := rest } }

/-- The moments that the sort comes to, each after so many steps. -/
inductive Reached (g : Graph n) : Nat → Moment n → Prop where
  | start : Reached g 0 { taken := [], releasing := [], queue := g.start }
  | step {k : Nat} {m m' : Moment n} (h : Reached g k m) (hstep : g.Step m m') :
    Reached g (k + 1) m'

variable {g : Graph n} {m m' : Moment n} {k : Nat} {taken releasing rest : List (Fin n)}
  {i j : Fin n} {queue : Queue n} {waiting : Vector Nat n}

theorem ready_release (queue : Queue n) (j : Fin n) :
    (queue.release j).ready = queue.ready ++ if queue.waiting.get j = 1 then [j] else [] := by
  simp only [Queue.release]
  split <;> simp

/-- A step puts at most one position in the queue, behind all that have been put there. -/
theorem Step.queued_eq (h : g.Step m m') :
    ∃ new, m'.queued = m.queued ++ new ∧ new.length ≤ 1 := by
  cases h with
  | @release taken releasing j queue =>
    refine ⟨if queue.waiting.get j = 1 then [j] else [], ?_, ?_⟩
    · simp only [Moment.queued, ready_release, List.append_assoc]
    · split <;> simp
  | take => exact ⟨[], by simp [Moment.queued], Nat.zero_le 1⟩

theorem Step.unique {a b : Moment n} (ha : g.Step m a) (hb : g.Step m b) : a = b := by
  cases ha with
  | release => cases hb with | release => rfl
  | take => cases hb with | take => rfl

theorem Reached.unique (h : g.Reached k m) (h' : g.Reached k m') : m = m' := by
  induction h generalizing m' with
  | start => cases h' with | start => rfl
  | step _ hstep ih =>
    cases h' with
    | step h' hstep' =>
      obtain rfl := ih h'
      exact hstep.unique hstep'

/-- From a moment that is not the last to be reached, a step is made. -/
theorem Reached.exists_step {k' : Nat} (h : g.Reached k m) (h' : g.Reached k' m') (hlt : k < k') :
    ∃ next, g.Step m next := by
  induction h' with
  | start => exact absurd hlt (Nat.not_lt_zero k)
  | step h' hstep ih =>
    rcases Nat.lt_succ_iff_lt_or_eq.1 hlt with hlt | rfl
    · exact ih hlt
    · rw [h.unique h']
      exact ⟨_, hstep⟩

/-! ## What the counters say -/

/-- Each position waits for those before it that are not taken and for the one that is taken but
has not released it yet. Those that have been put in the queue are the ones that wait for
nothing, and each of them has been put there once. -/
structure Moment.Balanced (g : Graph n) (m : Moment n) : Prop where
  queued_nodup : m.queued.Nodup
  releasing_nodup : m.releasing.Nodup
  waiting_eq : ∀ j : Fin n, m.queue.waiting.get j =
    (g.parents.get j).countP (· ∉ m.taken) + if j ∈ m.releasing then 1 else 0
  mem_queued_iff : ∀ j : Fin n, j ∈ m.queued ↔ m.queue.waiting.get j = 0

namespace Moment.Balanced

theorem start (g : Graph n) :
    Moment.Balanced g { taken := [], releasing := [], queue := g.start } where
  queued_nodup := (Placing.start g).nodup
  releasing_nodup := .nil
  waiting_eq j := by simpa using (Placing.start g).waiting_eq j
  mem_queued_iff := (Placing.start g).mem_iff

/-- A position that is to be released waits for something. -/
theorem waiting_pos (h : m.Balanced g) (hj : j ∈ m.releasing) : 0 < m.queue.waiting.get j := by
  rw [h.waiting_eq, if_pos hj]
  exact Nat.succ_pos _

theorem release (h : Moment.Balanced g { taken, releasing := j :: releasing, queue }) :
    Moment.Balanced g { taken, releasing, queue := queue.release j } := by
  have hpos : 0 < queue.waiting.get j := h.waiting_pos List.mem_cons_self
  have hmem : ∀ a, a ∈ taken ++ queue.ready ↔ queue.waiting.get a = 0 := h.mem_queued_iff
  have hcount : ∀ a, queue.waiting.get a =
      (g.parents.get a).countP (· ∉ taken) + if a ∈ j :: releasing then 1 else 0 := h.waiting_eq
  obtain ⟨hrest, hnodup⟩ := List.nodup_cons.1 h.releasing_nodup
  refine ⟨?_, hnodup, fun a => ?_, fun a => ?_⟩
  · show (taken ++ (queue.release j).ready).Nodup
    rw [ready_release, ← List.append_assoc]
    refine List.Nodup.append h.queued_nodup (by split <;> simp) fun a ha hnew => ?_
    split at hnew
    · rw [List.mem_singleton.1 hnew, hmem] at ha
      omega
    · cases hnew
  · show (queue.release j).waiting.get a = _
    rw [Queue.waiting_release, hcount]
    by_cases haj : a = j
    · subst haj
      simp [hrest]
    · simp [haj]
  · show a ∈ taken ++ (queue.release j).ready ↔ _
    rw [ready_release, ← List.append_assoc, List.mem_append, hmem, Queue.waiting_release]
    by_cases haj : a = j
    · subst haj
      by_cases hone : queue.waiting.get a = 1
      · simp [hone]
      · simp only [hone, ↓reduceIte, List.not_mem_nil, or_false]
        omega
    · have hnew : a ∉ if queue.waiting.get j = 1 then [j] else [] := by
        split <;> simp [haj]
      simp [hnew, haj]

theorem take (hg : g.Mirrored)
    (h : Moment.Balanced g { taken, releasing := [], queue := { waiting, ready := i :: rest } }) :
    Moment.Balanced g
      { taken := taken ++ [i], releasing := g.dependents.get i,
        queue := { waiting, ready := rest } } := by
  have hqueued : Moment.queued
      { taken := taken ++ [i], releasing := g.dependents.get i,
        queue := { waiting, ready := rest } } = taken ++ i :: rest := by
    simp [Moment.queued]
  have hi : i ∉ taken := fun hi =>
    (List.disjoint_of_nodup_append h.queued_nodup) hi List.mem_cons_self
  refine ⟨hqueued ▸ h.queued_nodup, hg.dependents_nodup i, fun j => ?_,
    fun j => hqueued ▸ h.mem_queued_iff j⟩
  have hcount := countP_notMem_concat (hg.parents_nodup j) hi
  have hwaiting : waiting.get j = (g.parents.get j).countP (· ∉ taken) := by
    simpa using h.waiting_eq j
  show waiting.get j = _
  rw [hwaiting, hcount]
  simp only [hg.mem_parents]
  rfl

theorem step (hg : g.Mirrored) (h : m.Balanced g) (hstep : g.Step m m') : m'.Balanced g := by
  cases hstep with
  | release => exact h.release
  | take => exact h.take hg

end Moment.Balanced

theorem Reached.balanced (hg : g.Mirrored) (h : g.Reached k m) : m.Balanced g := by
  induction h with
  | start => exact .start g
  | step _ hstep ih => exact ih.step hg hstep

/-! ## How long it takes -/

/-- So far each taken position has cost one step and, but for what it has still to release, one
step for each edge that leaves it. -/
theorem Reached.steps_eq (h : g.Reached k m) :
    k + m.releasing.length =
      m.taken.length + (m.taken.map fun i => (g.dependents.get i).length).sum := by
  induction h with
  | start => rfl
  | step _ hstep ih =>
    cases hstep with
    | release =>
      simp only [List.length_cons] at ih ⊢
      omega
    | take =>
      simp only [List.length_nil, List.length_append, List.length_singleton, List.map_append,
        List.sum_append, List.map_singleton, List.sum_singleton] at ih ⊢
      omega

/-- Nothing is taken twice, so no more steps are made than there are positions and edges. -/
theorem Reached.steps_le (hg : g.Mirrored) (h : g.Reached k m) : k ≤ n + g.edgeCount := by
  have hnodup : m.taken.Nodup := (h.balanced hg).queued_nodup.of_append_left
  have htaken : m.taken.Subperm (List.finRange n) :=
    List.subperm_of_subset hnodup fun i _ => List.mem_finRange i
  have hlength := htaken.length_le
  rw [List.length_finRange] at hlength
  have hleaving : (m.taken.map fun i => (g.dependents.get i).length).sum ≤ g.edgeCount := by
    obtain ⟨l, hperm, hsub⟩ := htaken
    rw [edgeCount_eq, edges, List.length_flatMap, ← (hperm.map _).sum_eq]
    simp only [List.length_map]
    exact (hsub.map _).sum_le_sum fun _ _ => Nat.zero_le _
  have := h.steps_eq
  omega

/-- All that is to be released is released. -/
theorem Reached.foldl_release (h : g.Reached k { taken, releasing, queue }) :
    g.Reached (k + releasing.length)
      { taken, releasing := [], queue := releasing.foldl Queue.release queue } := by
  induction releasing generalizing k queue with
  | nil => exact h
  | cons j releasing ih =>
    have := ih (h.step .release)
    rwa [Nat.add_assoc, Nat.add_comm 1] at this

/-- The moment in which nothing is left to release and the queue is empty. -/
def last (g : Graph n) : Moment n where
  taken := (g.place g.start).1
  releasing := []
  queue := { waiting := (g.place g.start).2, ready := [] }

theorem not_step_last (g : Graph n) (m : Moment n) : ¬ g.Step g.last m := by
  rintro ⟨⟩

/-- The sort comes to its last moment. -/
theorem exists_reached_last (g : Graph n) : ∃ k, g.Reached k g.last := by
  have hpop : ∀ {done : List (Fin n)} {q : Queue n} {i : Fin n} {rest : List (Fin n)},
      q.ready = i :: rest → (∃ k, g.Reached k { taken := done, releasing := [], queue := q }) →
        ∃ k, g.Reached k { taken := done ++ [i], releasing := [], queue := q.pop g i rest } := by
    rintro done ⟨waiting, ready⟩ i rest rfl ⟨k, h⟩
    exact ⟨_, (h.step .take).foldl_release⟩
  exact place_induction
    (P := fun taken queue => ∃ k, g.Reached k { taken, releasing := [], queue }) hpop ⟨0, .start⟩

/-- There is but one moment in which the sort can end. -/
theorem Reached.eq_last (h : g.Reached k m) (hend : ∀ next, ¬ g.Step m next) : m = g.last := by
  obtain ⟨k', hlast⟩ := exists_reached_last g
  rcases Nat.lt_trichotomy k k' with hlt | rfl | hlt
  · obtain ⟨next, hstep⟩ := h.exists_step hlast hlt
    exact absurd hstep (hend next)
  · exact h.unique hlast
  · obtain ⟨next, hstep⟩ := hlast.exists_step h hlt
    exact absurd hstep (not_step_last g next)

/-- What the sort answers if it ends in this moment: the positions in the order in which they were
taken or, where some are missing, the texts of those that still wait. -/
def Moment.answer (m : Moment n) (texts : List String) : Except Error (List (Fin n)) :=
  if m.taken.length < n then
    .error (.cycle (((List.finRange n).filter fun i => 0 < m.queue.waiting.get i).filterMap
      fun i => texts[i.val]?))
  else .ok m.taken

theorem sort_eq_answer_last (g : Graph n) (texts : List String) :
    g.sort texts = g.last.answer texts :=
  rfl

end Graph

/-- A graph that is built edge by edge holds at every moment exactly the edges that were added, on
both sides and each of them once, whatever edges they are; a further one is added exactly if it
is new. So the sort counts down nothing that is zero already, puts no position in the queue twice,
and ends after no more steps than there are positions and edges, always in the same moment, from
which it answers. -/
theorem edges_recorded_once_and_counted_down (n : Nat) (edges : List (Fin n × Fin n)) :
    let g := Graph.ofEdges n edges
    (∀ i j : Fin n, (j ∈ g.dependents.get i ↔ (i, j) ∈ edges) ∧
        (i ∈ g.parents.get j ↔ (i, j) ∈ edges) ∧ ((i, j) ∈ g.edges ↔ (i, j) ∈ edges) ∧
        (g.isNew i j = true ↔ (i, j) ∉ edges) ∧ (g.addEdge i j).added = g.isNew i j ∧
        (g.addEdge i j).graph = Graph.ofEdges n (edges ++ [(i, j)])) ∧
      (∀ i j : Nat, g.hasEdge i j = true ↔ ∃ e ∈ edges, e.1.val = i ∧ e.2.val = j) ∧
      g.edgeCount = edges.dedup.length ∧ g.edgeCount = g.edges.length ∧
      g.edges.Pairwise Graph.Earlier ∧
      (∀ k m, g.Reached k m → (∀ j ∈ m.releasing, 0 < m.queue.waiting.get j) ∧ m.queued.Nodup ∧
        (∀ m', g.Step m m' → ∃ new, m'.queued = m.queued ++ new ∧ new.length ≤ 1) ∧
        k ≤ n + g.edgeCount) ∧
      (∃ k, g.Reached k g.last) ∧ (∀ m, ¬ g.Step g.last m) ∧
      (∀ k m, g.Reached k m → (∀ m', ¬ g.Step m m') → m = g.last) ∧
      ∀ texts, g.sort texts = g.last.answer texts := by
  intro g
  have hg : g.Mirrored := Graph.mirrored_ofEdges n edges
  have hedge : ∀ {i j}, g.Edge i j ↔ (i, j) ∈ edges := Graph.edge_ofEdges
  refine ⟨fun i j => ⟨hedge, hg.mem_parents.trans hedge, Graph.mem_edges_iff.trans hedge, ?_,
      hg.added_addEdge i j, ?_⟩,
    fun i j => ?_, Graph.edgeCount_ofEdges edges, Graph.edgeCount_eq g, hg.pairwise_edges,
    fun k m h => ⟨fun j => (h.balanced hg).waiting_pos, (h.balanced hg).queued_nodup,
      fun m' => Graph.Step.queued_eq, h.steps_le hg⟩,
    Graph.exists_reached_last g, Graph.not_step_last g, fun k m => Graph.Reached.eq_last,
    g.sort_eq_answer_last⟩
  · rw [Graph.isNew, Bool.not_eq_true', Bool.eq_false_iff, ne_eq, Graph.hasEdge_iff, hedge]
  · rw [Graph.ofEdges, List.foldl_append]
    rfl
  · rw [Graph.hasEdge_eq_true_iff]
    constructor
    · rintro ⟨hi, hj, h⟩
      exact ⟨_, hedge.1 h, rfl, rfl⟩
    · rintro ⟨⟨i, j⟩, h, rfl, rfl⟩
      exact ⟨i.isLt, j.isLt, hedge.2 h⟩

end DdlOrder
