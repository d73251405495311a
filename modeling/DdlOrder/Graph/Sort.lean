import DdlOrder.Error
import DdlOrder.Graph.Basic

/-!
# Placing positions in order

Positions are placed one after the other. A position is ready as soon as every
position before it has been placed, and those that are ready are placed in the
order in which they became so; at the start these are the positions that nothing
comes before, in ascending order. Positions that never become ready lie on a
cycle or behind one.

* `Graph.length_place_le`: no more positions are placed than were ready or waiting.
-/

namespace DdlOrder

namespace Graph

variable {n : Nat}

/-- How many positions before each one are still to be placed, and the positions
that are ready, in order. -/
structure Queue (n : Nat) where
  waiting : Vector Nat n
  ready : List (Fin n)

/-- How many positions are ready or still wait. -/
def Queue.load (q : Queue n) : Nat := q.ready.length + q.waiting.countP (0 < ·)

/-- One position before `j` has been placed. With the last of them `j` becomes
ready. -/
def Queue.release (q : Queue n) (j : Fin n) : Queue n where
  waiting := q.waiting.set j (q.waiting.get j - 1) j.isLt
  ready := if q.waiting.get j = 1 then q.ready ++ [j] else q.ready

theorem Queue.load_release_le (q : Queue n) (j : Fin n) : (q.release j).load ≤ q.load := by
  simp only [load, release, Vector.countP_set, get_eq_getElem]
  by_cases h : q.waiting[j.val] = 1
  · have hpos : 0 < q.waiting.countP (0 < ·) :=
      Vector.countP_pos_iff.2 ⟨q.waiting[j.val], Vector.getElem_mem _, by simp [h]⟩
    simp only [h, ↓reduceIte, List.length_append, List.length_cons, List.length_nil]
    simp
    omega
  · simp only [h, ↓reduceIte]
    by_cases h0 : q.waiting[j.val] = 0
    · simp [h0]
    · have hpos : 0 < q.waiting.countP (0 < ·) :=
        Vector.countP_pos_iff.2 ⟨q.waiting[j.val], Vector.getElem_mem _, by simp; omega⟩
      have h1 : 0 < q.waiting[j.val] - 1 := by omega
      have h2 : 0 < q.waiting[j.val] := by omega
      simp only [h1, h2, decide_true, ↓reduceIte]
      omega

theorem Queue.load_foldl_release_le (q : Queue n) (l : List (Fin n)) :
    (l.foldl release q).load ≤ q.load := by
  induction l generalizing q with
  | nil => exact Nat.le_refl _
  | cons j l ih => exact Nat.le_trans (ih _) (q.load_release_le j)

/-- Places the positions that are ready or become so. The second part counts
what the others still wait for. -/
def place (g : Graph n) (q : Queue n) : List (Fin n) × Vector Nat n :=
  match _h : q.ready with
  | [] => ([], q.waiting)
  | i :: rest =>
    let placed := g.place ((g.dependents.get i).foldl Queue.release { q with ready := rest })
    (i :: placed.1, placed.2)
termination_by q.load
decreasing_by
  refine Nat.lt_of_le_of_lt (Queue.load_foldl_release_le _ _) ?_
  simp only [Queue.load, _h, List.length_cons]
  omega

theorem length_place_le (g : Graph n) (q : Queue n) : (g.place q).1.length ≤ q.load := by
  fun_induction place g q with
  | case1 => simp
  | case2 q i rest h placed ih =>
    have := Queue.load_foldl_release_le { q with ready := rest } (g.dependents.get i)
    simp only [Queue.load, h, List.length_cons, placed] at this ih ⊢
    omega

/-- The queue before anything has been placed. -/
def start (g : Graph n) : Queue n where
  waiting := g.parents.map List.length
  ready := (List.finRange n).filter fun i => (g.parents.get i).length = 0

/-- All positions in order. If some position never becomes ready, the texts of
those positions are reported, as far as they have one. -/
def sort (g : Graph n) (texts : List String) : Except Error (List (Fin n)) :=
  let placed := g.place g.start
  if placed.1.length < n then
    .error (.cycle (((List.finRange n).filter fun i => 0 < placed.2.get i).filterMap fun i =>
      texts[i.val]?))
  else .ok placed.1

end Graph

end DdlOrder
