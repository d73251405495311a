import DdlOrder.Proofs.Graph.Mirror
import DdlOrder.Proofs.Graph.OfStatements
import DdlOrder.Proofs.Rule

/-!
# The dependencies that are noted

The pairs of a batch's statements are compared one after the other, each of them once. So an edge
that is to be added is never there already, and a dependency is noted for each edge, in the order
in which the graph lists its edges (`Relating.map_ends_dependencies`). The rule that it is noted
with is the first that holds (`Rule.Decides`).
-/

namespace DdlOrder

/-- The positions that a dependency is between. -/
def Dependency.ends {n : Nat} (d : Dependency n) : Fin n × Fin n := (d.before, d.after)

namespace Relating

variable {n : Nat} {m : Matching} {facts : Vector Facts n} {pair : Fin n × Fin n}

/-- The dependency, if any, of the second statement of a pair on the first. -/
def dependency? (m : Matching) (facts : Vector Facts n) (pair : Fin n × Fin n) :
    Option (Dependency n) :=
  if pair.1 = pair.2 then none
  else (Rule.firstBetween? m (facts.get pair.1) (facts.get pair.2)).map fun rule =>
    { before := pair.1, after := pair.2, rule }

theorem dependency?_eq_some_iff {d : Dependency n} :
    dependency? m facts pair = some d ↔
      d.ends = pair ∧ d.before ≠ d.after ∧
        Rule.firstBetween? m (facts.get d.before) (facts.get d.after) = some d.rule := by
  obtain ⟨i, j⟩ := pair
  obtain ⟨before, after, rule⟩ := d
  simp only [dependency?, Dependency.ends, Prod.mk.injEq, Option.ite_none_left_eq_some,
    Option.map_eq_some_iff, Dependency.mk.injEq]
  constructor
  · rintro ⟨hne, rule, hrule, rfl, rfl, rfl⟩
    exact ⟨⟨rfl, rfl⟩, hne, hrule⟩
  · rintro ⟨⟨rfl, rfl⟩, hne, hrule⟩
    exact ⟨hne, rule, hrule, rfl, rfl, rfl⟩

theorem isSome_dependency?_iff {i j : Fin n} :
    (dependency? m facts (i, j)).isSome ↔ Relates m facts i j := by
  unfold dependency? Relates
  split
  · rename_i h
    exact iff_of_false (by simp) fun hrelates => hrelates.1 h
  · rename_i h
    rw [Option.isSome_map]
    exact (Rule.firstBetween?_isSome m _ _).trans (and_iff_right h).symm

/-- Comparing a pair whose edge is not there yet notes its dependency. -/
theorem dependencies_consider {r : Relating n} (hnew : ¬ r.graph.Edge pair.1 pair.2) :
    (r.consider m facts pair).dependencies =
      r.dependencies ++ (dependency? m facts pair).toList := by
  have hadded : (r.graph.addEdge pair.1 pair.2).added = true := added_insertOnce_of_notMem hnew
  simp only [consider, dependency?, hadded, ↓reduceIte]
  split
  · simp
  · cases Rule.firstBetween? m facts[pair.1] facts[pair.2] with
    | none => simp
    | some rule => rfl

/-- Different pairs whose edges are not there yet are noted one after the other. -/
theorem dependencies_foldl_consider {pairs : List (Fin n × Fin n)} (hpairs : pairs.Nodup)
    {r : Relating n} (hnew : ∀ pair ∈ pairs, ¬ r.graph.Edge pair.1 pair.2) :
    (pairs.foldl (consider m facts) r).dependencies =
      r.dependencies ++ pairs.filterMap (dependency? m facts) := by
  induction pairs generalizing r with
  | nil => simp
  | cons pair pairs ih =>
    obtain ⟨hpair, hpairs⟩ := List.nodup_cons.1 hpairs
    obtain ⟨hfirst, hothers⟩ := List.forall_mem_cons.1 hnew
    have hstill : ∀ other ∈ pairs, ¬ (r.consider m facts pair).graph.Edge other.1 other.2 := by
      intro other hother hedge
      rcases (edge_consider r pair other.1 other.2).1 hedge with hold | ⟨rfl, -⟩
      · exact hothers other hother hold
      · exact hpair hother
    rw [List.foldl_cons, ih hpairs hstill, dependencies_consider hfirst, List.append_assoc,
      List.filterMap_cons]
    cases dependency? m facts pair <;> simp

theorem pairwise_pairs (n : Nat) : (pairs n).Pairwise Graph.Earlier :=
  Graph.pairwise_rows fun _ => List.pairwise_lt_finRange n

theorem dependencies_ofFacts (m : Matching) (facts : Vector Facts n) :
    (ofFacts m facts).dependencies = (pairs n).filterMap (dependency? m facts) := by
  rw [ofFacts, dependencies_foldl_consider (pairwise_pairs n).nodup fun pair _ =>
    Graph.not_edge_empty pair.1 pair.2]
  rfl

/-- A dependency is noted for each edge, in the order in which the edges are listed. -/
theorem map_ends_dependencies (m : Matching) (facts : Vector Facts n) :
    (ofFacts m facts).dependencies.map Dependency.ends = (ofFacts m facts).graph.edges := by
  have hends : ∀ {pair d}, dependency? m facts pair = some d → d.ends = pair := fun h =>
    (dependency?_eq_some_iff.1 h).1
  rw [dependencies_ofFacts]
  have hsorted : (((pairs n).filterMap (dependency? m facts)).map Dependency.ends).Pairwise
      Graph.Earlier := by
    rw [List.pairwise_map, List.pairwise_filterMap]
    refine (pairwise_pairs n).imp fun {p q} hpq d hd e he => ?_
    rwa [hends hd, hends he]
  refine hsorted.eq_of_mem_iff (mirrored_ofFacts m facts).pairwise_edges fun ⟨i, j⟩ => ?_
  rw [Graph.mem_edges_iff, edge_ofFacts, ← isSome_dependency?_iff, Option.isSome_iff_exists,
    List.mem_map]
  constructor
  · rintro ⟨d, hd, hij⟩
    obtain ⟨pair, -, hpair⟩ := List.mem_filterMap.1 hd
    rw [← hij, hends hpair]
    exact ⟨d, hpair⟩
  · rintro ⟨d, hd⟩
    exact ⟨d, List.mem_filterMap.2 ⟨(i, j), mem_pairs i j, hd⟩, hends hd⟩

/-- A dependency is noted with the rule that decides. -/
theorem decides_of_mem_dependencies {d : Dependency n} (h : d ∈ (ofFacts m facts).dependencies) :
    Rule.Decides m (facts.get d.before) (facts.get d.after) d.rule := by
  rw [dependencies_ofFacts] at h
  obtain ⟨pair, -, hpair⟩ := List.mem_filterMap.1 h
  exact Rule.decides_of_firstBetween? (dependency?_eq_some_iff.1 hpair).2.2

end Relating

end DdlOrder
