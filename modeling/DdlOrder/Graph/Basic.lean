/-!
# Graphs of positions

A graph on `n` positions records which position comes before which, at most once
for each ordered pair. Every position knows the positions before it and those
after it, both in ascending order.

* `mem_insertOnce`, `added_insertOnce`: inserting a position adds it and nothing
  else, and says whether it was not there;
* `Graph.mem_dependents_addEdge`, `Graph.mem_parents_addEdge`: an edge is recorded
  on both sides and no other edge is touched.
-/

namespace DdlOrder

/-- The ascending list with one more position, which is added only once, and whether
it was added. -/
def insertOnce {n : Nat} (a : Fin n) : List (Fin n) → List (Fin n) × Bool
  | [] => ([a], true)
  | b :: l =>
    if a < b then (a :: b :: l, true)
    else if a = b then (b :: l, false)
    else
      let inserted := insertOnce a l
      (b :: inserted.1, inserted.2)

theorem mem_insertOnce {n : Nat} {a b : Fin n} {l : List (Fin n)} :
    b ∈ (insertOnce a l).1 ↔ b = a ∨ b ∈ l := by
  induction l with
  | nil => simp [insertOnce]
  | cons c l ih =>
    rw [insertOnce]
    split
    · simp
    · split
      · simp_all
      · simp only [List.mem_cons, ih]
        exact or_left_comm

theorem pairwise_insertOnce {n : Nat} {a : Fin n} {l : List (Fin n)} (h : l.Pairwise (· < ·)) :
    (insertOnce a l).1.Pairwise (· < ·) := by
  induction l with
  | nil => simp [insertOnce]
  | cons c l ih =>
    rw [insertOnce]
    have hc := List.pairwise_cons.1 h
    split
    · rename_i hac
      refine List.pairwise_cons.2 ⟨fun b hb => ?_, h⟩
      rcases List.mem_cons.1 hb with rfl | hb
      · exact hac
      · exact Nat.lt_trans hac (hc.1 b hb)
    · split
      · exact h
      · refine List.pairwise_cons.2 ⟨fun b hb => ?_, ih hc.2⟩
        rcases mem_insertOnce.1 hb with rfl | hb
        · simp only [Fin.lt_def, Fin.ext_iff] at *
          omega
        · exact hc.1 b hb

theorem added_insertOnce_of_notMem {n : Nat} {a : Fin n} {l : List (Fin n)} (h : a ∉ l) :
    (insertOnce a l).2 = true := by
  induction l with
  | nil => rfl
  | cons c l ih =>
    obtain ⟨hac, hl⟩ := not_or.1 (mt List.mem_cons.2 h)
    rw [insertOnce, if_neg hac]
    split
    · rfl
    · exact ih hl

theorem added_insertOnce {n : Nat} {a : Fin n} {l : List (Fin n)} (h : l.Pairwise (· < ·)) :
    (insertOnce a l).2 = true ↔ a ∉ l := by
  refine ⟨fun hadded hmem => ?_, added_insertOnce_of_notMem⟩
  induction l with
  | nil => cases hmem
  | cons c l ih =>
    have hc := List.pairwise_cons.1 h
    rcases List.mem_cons.1 hmem with rfl | hmem
    · simp [insertOnce] at hadded
    · -- The list is ascending, so the search goes on behind its first position.
      have hac : ¬ a < c ∧ a ≠ c := by
        have := hc.1 a hmem
        simp only [Fin.lt_def, ne_eq, Fin.ext_iff] at *
        omega
      rw [insertOnce, if_neg hac.1, if_neg hac.2] at hadded
      exact ih hc.2 hadded hmem

theorem get_eq_getElem {α : Type} {n : Nat} (v : Vector α n) (i : Fin n) : v.get i = v[i.val] :=
  rfl

/-- Which of `n` positions come before which. -/
structure Graph (n : Nat) where
  /-- For each position, those that come before it. -/
  parents : Vector (List (Fin n)) n
  /-- For each position, those that come after it. -/
  dependents : Vector (List (Fin n)) n
  deriving DecidableEq, Repr

namespace Graph

variable {n : Nat}

/-- The graph without edges. -/
def empty (n : Nat) : Graph n where
  parents := Vector.replicate n []
  dependents := Vector.replicate n []

/-- What comes of adding an edge: the graph that has it, and whether it was added or
there already. -/
structure Addition (n : Nat) where
  graph : Graph n
  added : Bool
  deriving DecidableEq, Repr

/-- An addition can stand for its graph. -/
instance : Coe (Addition n) (Graph n) := ⟨Addition.graph⟩

/-- Makes `i` come before `j`. -/
def addEdge (g : Graph n) (i j : Fin n) : Addition n :=
  let after := insertOnce j g.dependents[i]
  { graph :=
      { parents := g.parents.set j (insertOnce i g.parents[j]).1
        dependents := g.dependents.set i after.1 }
    added := after.2 }

/-- The graph with these edges, added one after the other. -/
def ofEdges (n : Nat) (edges : List (Fin n × Fin n)) : Graph n :=
  edges.foldl (fun g e => g.addEdge e.1 e.2) (empty n)

/-- Whether position `i` comes before position `j`. No position beyond the last
comes before any. -/
def hasEdge (g : Graph n) (i j : Nat) : Bool :=
  if h : i < n then g.dependents[i].any fun d => d.val == j else false

/-- Whether position `i` does not come before position `j` yet. -/
def isNew (g : Graph n) (i j : Fin n) : Bool := !g.hasEdge i j

/-- The edges, ascending by their first and then by their second end. -/
def edges (g : Graph n) : List (Fin n × Fin n) :=
  (List.finRange n).flatMap fun i => g.dependents[i].map fun j => (i, j)

/-- The number of edges. -/
def edgeCount (g : Graph n) : Nat :=
  g.dependents.toList.foldl (fun count after => count + after.length) 0

theorem mem_dependents_addEdge {g : Graph n} {i j a b : Fin n} :
    b ∈ (g.addEdge i j).graph.dependents[a] ↔ (a = i ∧ b = j) ∨ b ∈ g.dependents[a] := by
  simp only [addEdge, Fin.getElem_fin, Vector.getElem_set, Fin.val_inj]
  split
  · rename_i h
    subst h
    simp [mem_insertOnce]
  · rename_i h
    simp [Ne.symm h]

theorem mem_parents_addEdge {g : Graph n} {i j a b : Fin n} :
    a ∈ (g.addEdge i j).graph.parents[b] ↔ (a = i ∧ b = j) ∨ a ∈ g.parents[b] := by
  simp only [addEdge, Fin.getElem_fin, Vector.getElem_set, Fin.val_inj]
  split
  · rename_i h
    subst h
    simp [mem_insertOnce]
  · rename_i h
    simp [Ne.symm h]

end Graph

end DdlOrder
