import DdlOrder.Graph.Basic
import Mathlib.Data.List.Dedup
import Mathlib.Data.List.FinRange
import Mathlib.Data.List.Sort

/-!
# Graphs that are built edge by edge

The two tables of a graph that is built by adding edges hold the same edges, each
list of positions strictly ascending (`Graph.Mirrored`):

* `Graph.mirrored_empty`, `Graph.Mirrored.addEdge`: this holds at the start and
  after every further edge, hence of `Graph.ofEdges` (`Graph.mirrored_ofEdges`);
* `Graph.Mirrored.added_addEdge`: adding an edge tells whether it is new;
* `Graph.edge_ofEdges`: the edges of such a graph are those that were added;
* `Graph.hasEdge_iff`, `Graph.hasEdge_eq_true_iff`, `Graph.mem_edges_iff`: three ways of asking
  for an edge;
* `Graph.pairwise_rows`, `Graph.Mirrored.pairwise_edges`: the edges are listed in order, by their
  first and then by their second end (`Graph.Earlier`), so each of them once;
* `Graph.edgeCount_eq`, `Graph.edgeCount_ofEdges`: the number of edges is the length of the list,
  and the number of different edges that were added.
-/

namespace DdlOrder

namespace Graph

variable {n : Nat}

/-- There is an edge from position `i` to position `j`. -/
def Edge (g : Graph n) (i j : Fin n) : Prop := j ∈ g.dependents.get i

instance (g : Graph n) (i j : Fin n) : Decidable (g.Edge i j) :=
  inferInstanceAs (Decidable (j ∈ g.dependents.get i))

/-- Both tables hold the same edges, in ascending order and each once. -/
structure Mirrored (g : Graph n) : Prop where
  mem_parents : ∀ {i j : Fin n}, i ∈ g.parents.get j ↔ g.Edge i j
  parents_sorted : ∀ j : Fin n, (g.parents.get j).Pairwise (· < ·)
  dependents_sorted : ∀ i : Fin n, (g.dependents.get i).Pairwise (· < ·)

theorem nodup_of_sorted {l : List (Fin n)} (h : l.Pairwise (· < ·)) : l.Nodup :=
  h.imp fun hab => Fin.ne_of_lt hab

theorem Mirrored.parents_nodup {g : Graph n} (h : g.Mirrored) (j : Fin n) :
    (g.parents.get j).Nodup :=
  nodup_of_sorted (h.parents_sorted j)

theorem Mirrored.dependents_nodup {g : Graph n} (h : g.Mirrored) (i : Fin n) :
    (g.dependents.get i).Nodup :=
  nodup_of_sorted (h.dependents_sorted i)

theorem hasEdge_iff {g : Graph n} {i j : Fin n} : g.hasEdge i j = true ↔ g.Edge i j := by
  simp only [hasEdge, i.isLt, ↓reduceDIte, Edge, get_eq_getElem, List.any_eq_true, beq_iff_eq,
    Fin.val_inj]
  exact exists_eq_right

/-- Beyond the last position there are no edges. -/
theorem hasEdge_eq_true_iff {g : Graph n} {i j : Nat} :
    g.hasEdge i j = true ↔ ∃ (hi : i < n) (hj : j < n), g.Edge ⟨i, hi⟩ ⟨j, hj⟩ := by
  constructor
  · intro h
    obtain ⟨hi, hany⟩ : ∃ hi : i < n, (g.dependents[i].any fun d => d.val == j) = true := by
      simpa [hasEdge] using h
    obtain ⟨d, -, hd⟩ := List.any_eq_true.1 hany
    obtain rfl : d.val = j := eq_of_beq hd
    exact ⟨hi, d.isLt, hasEdge_iff.1 h⟩
  · rintro ⟨hi, hj, h⟩
    exact hasEdge_iff.2 h

theorem mem_edges_iff {g : Graph n} {i j : Fin n} : (i, j) ∈ g.edges ↔ g.Edge i j := by
  simp only [edges, List.mem_flatMap, List.mem_finRange, true_and, List.mem_map, Prod.mk.injEq]
  exact ⟨fun ⟨_, _, hb, ha, hj⟩ => ha ▸ hj ▸ hb, fun h => ⟨i, j, h, rfl, rfl⟩⟩

theorem not_edge_empty (i j : Fin n) : ¬ (empty n).Edge i j := by
  simp [Edge, empty, get_eq_getElem]

theorem edge_addEdge {g : Graph n} {i j a b : Fin n} :
    (g.addEdge i j).graph.Edge a b ↔ (a = i ∧ b = j) ∨ g.Edge a b :=
  mem_dependents_addEdge

theorem mirrored_empty (n : Nat) : (empty n).Mirrored where
  mem_parents := by simp [Edge, empty, get_eq_getElem]
  parents_sorted := by simp [empty, get_eq_getElem]
  dependents_sorted := by simp [empty, get_eq_getElem]

/-- An edge is recorded on both sides, in its place. -/
theorem Mirrored.addEdge {g : Graph n} (h : g.Mirrored) (i j : Fin n) :
    (g.addEdge i j).graph.Mirrored where
  mem_parents := by
    intro a b
    rw [edge_addEdge, ← h.mem_parents]
    exact mem_parents_addEdge
  parents_sorted := by
    intro b
    simp only [Graph.addEdge, get_eq_getElem, Fin.getElem_fin, Vector.getElem_set]
    split
    · exact pairwise_insertOnce (h.parents_sorted j)
    · exact h.parents_sorted b
  dependents_sorted := by
    intro a
    simp only [Graph.addEdge, get_eq_getElem, Fin.getElem_fin, Vector.getElem_set]
    split
    · exact pairwise_insertOnce (h.dependents_sorted i)
    · exact h.dependents_sorted a

/-- An edge is added exactly if it is not there yet. -/
theorem Mirrored.added_addEdge {g : Graph n} (h : g.Mirrored) (i j : Fin n) :
    (g.addEdge i j).added = g.isNew i j := by
  rw [Bool.eq_iff_iff, isNew, Bool.not_eq_true', Bool.eq_false_iff, ne_eq, hasEdge_iff]
  exact added_insertOnce (h.dependents_sorted i)

theorem Mirrored.foldl_addEdge {g : Graph n} (h : g.Mirrored) (edges : List (Fin n × Fin n)) :
    (edges.foldl (fun g e => (g.addEdge e.1 e.2).graph) g).Mirrored := by
  induction edges generalizing g with
  | nil => exact h
  | cons e edges ih => exact ih (h.addEdge e.1 e.2)

theorem edge_foldl_addEdge {g : Graph n} {edges : List (Fin n × Fin n)} {a b : Fin n} :
    (edges.foldl (fun g e => (g.addEdge e.1 e.2).graph) g).Edge a b ↔
      (a, b) ∈ edges ∨ g.Edge a b := by
  induction edges generalizing g with
  | nil => simp
  | cons e edges ih =>
    rw [List.foldl_cons, ih, edge_addEdge, List.mem_cons, ← or_assoc, or_comm (a := (a, b) ∈ edges)]
    simp only [Prod.ext_iff]

theorem mirrored_ofEdges (n : Nat) (edges : List (Fin n × Fin n)) : (ofEdges n edges).Mirrored :=
  (mirrored_empty n).foldl_addEdge edges

theorem edge_ofEdges {edges : List (Fin n × Fin n)} {a b : Fin n} :
    (ofEdges n edges).Edge a b ↔ (a, b) ∈ edges := by
  rw [ofEdges, edge_foldl_addEdge]
  exact or_iff_left (not_edge_empty a b)

/-! ## The list of edges -/

variable {g : Graph n}

/-- The order in which edges are listed: by their first and then by their second end. -/
def Earlier (e f : Fin n × Fin n) : Prop := e.1 < f.1 ∨ (e.1 = f.1 ∧ e.2 < f.2)

instance : Std.Irrefl (Earlier (n := n)) where
  irrefl e h := by
    simp only [Earlier, Fin.lt_def] at h
    omega

instance : Std.Antisymm (Earlier (n := n)) where
  antisymm e f hef hfe := by
    simp only [Earlier, Fin.lt_def, Fin.ext_iff] at hef hfe
    omega

/-- Ascending rows one after the other list their pairs in order. -/
theorem pairwise_rows {rows : Fin n → List (Fin n)} (h : ∀ i, (rows i).Pairwise (· < ·)) :
    ((List.finRange n).flatMap fun i => (rows i).map fun j => (i, j)).Pairwise Earlier := by
  refine List.pairwise_flatMap.2 ⟨fun i _ => ?_, ?_⟩
  · exact List.pairwise_map.2 ((h i).imp fun hab => .inr ⟨rfl, hab⟩)
  · refine (List.pairwise_lt_finRange n).imp fun {i j} hij e he f hf => .inl ?_
    obtain ⟨a, -, rfl⟩ := List.mem_map.1 he
    obtain ⟨b, -, rfl⟩ := List.mem_map.1 hf
    exact hij

theorem Mirrored.pairwise_edges (h : g.Mirrored) : g.edges.Pairwise Earlier :=
  pairwise_rows fun i => get_eq_getElem g.dependents i ▸ h.dependents_sorted i

theorem Mirrored.nodup_edges (h : g.Mirrored) : g.edges.Nodup := h.pairwise_edges.nodup

theorem edgeCount_eq (g : Graph n) : g.edgeCount = g.edges.length := by
  have hrows : g.dependents.toList = (List.finRange n).map fun i => g.dependents[i] := by
    refine List.ext_getElem (by simp) fun i hi _ => ?_
    simp
  rw [edgeCount, edges, List.length_flatMap, List.sum_eq_foldl, hrows, List.foldl_map,
    List.foldl_map]
  simp only [List.length_map]

theorem edgeCount_ofEdges (edges : List (Fin n × Fin n)) :
    (ofEdges n edges).edgeCount = edges.dedup.length := by
  have hedges := (mirrored_ofEdges n edges).nodup_edges
  have hperm : (ofEdges n edges).edges.Perm edges.dedup := by
    refine (List.perm_ext_iff_of_nodup hedges (List.nodup_dedup edges)).2 fun ⟨i, j⟩ => ?_
    rw [mem_edges_iff, edge_ofEdges, List.mem_dedup]
  rw [edgeCount_eq, hperm.length_eq]

end Graph

end DdlOrder
