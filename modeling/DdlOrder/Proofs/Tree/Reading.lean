import DdlOrder.Proofs.Result
import DdlOrder.Proofs.Tree.Linked
import DdlOrder.Tree.Dump

/-!
# Reading a dump, line by line

What one line of a dump does to the tree that is being read, and what follows from it
for the tree of the whole dump:

* `Tree.ofDump_induction`: what holds of single nodes and is kept by adding a child
  holds of every tree that is read; so such a tree is linked (`Tree.linked_ofDump`);
* `Tree.nodes_ofDump`: its nodes are those that the kept lines describe, in order, each
  CREATE node followed by the table that the statement names as its target.
-/

namespace DdlOrder

namespace Tree

namespace Growing

variable {target : Option (List Char)} {g : Growing} {g' : Option Growing} {line : String}

/-! ## One line -/

theorem add_eq_ok_iff {n : Node} {g' : Growing} :
    g.add target n = .ok g' ↔
      ∃ p, g.parentFor n = .ok p ∧
        ∃ h, g' = withTarget target (g.tree.addChild p p.isLt n) g.tree.size h n := by
  unfold add
  cases g.parentFor n with
  | error e => simp
  | ok p => simp [eq_comm]

theorem readLine_none_eq_ok_iff :
    readLine target none line = .ok g' ↔
      ∃ n, Line.parse line = .ok n ∧ g' = some (start target n) := by
  rw [readLine, bind_eq_ok_iff]
  exact exists_congr fun n => and_congr_right fun _ => pure_eq_ok_iff

theorem readLine_some_eq_ok_iff :
    readLine target (some g) line = .ok g' ↔
      ∃ n, Line.parse line = .ok n ∧ ∃ g₁, g.add target n = .ok g₁ ∧ g' = some g₁ := by
  rw [readLine, bind_eq_ok_iff]
  refine exists_congr fun n => and_congr_right fun _ => bind_eq_ok_iff.trans ?_
  exact exists_congr fun g₁ => and_congr_right fun _ => pure_eq_ok_iff

/-! ## What is kept by adding nodes -/

section Induction

variable {P : Tree → Prop} (hsingle : ∀ n, P (singleton n))
  (hchild : ∀ t p (hp : p < t.size) n, P t → P (t.addChild p hp n))

include hchild in
theorem withTarget_induction {t : Tree} {i : Nat} (hi : i < t.size) (n : Node) (h : P t) :
    P (withTarget target t i hi n).tree := by
  unfold withTarget
  split
  · split
    · exact hchild _ t.size (by simp) _ (hchild t i hi _ h)
    · exact h
  · exact h

include hsingle hchild in
theorem readLine_induction {g : Option Growing} (hg : ∀ s ∈ g, P s.tree)
    (h : readLine target g line = .ok g') : ∀ s ∈ g', P s.tree := by
  rintro s hs
  cases g with
  | none =>
    obtain ⟨n, -, rfl⟩ := readLine_none_eq_ok_iff.1 h
    cases hs
    exact withTarget_induction hchild _ n (hsingle n)
  | some g =>
    obtain ⟨n, -, g₁, hadd, rfl⟩ := readLine_some_eq_ok_iff.1 h
    cases hs
    obtain ⟨p, -, -, rfl⟩ := add_eq_ok_iff.1 hadd
    exact withTarget_induction hchild _ n (hchild _ _ _ _ (hg g rfl))

end Induction

/-! ## The nodes that are read -/

/-- The nodes for the target table of a materialized view, below the node that creates
the view. -/
def targetNodes (target : Option (List Char)) (n : Node) : List Node :=
  match target with
  | some target =>
    if n.kind = .createQuery then
      [targetNode n.indent target,
        { targetNode n.indent target with kind := .tableIdentifier, indent := n.indent + 2 }]
    else []
  | none => []

/-- The nodes of the tree so far. -/
def readNodes (g : Option Growing) : List Node := g.elim [] (·.tree.nodes)

theorem nodes_withTarget {t : Tree} {i : Nat} (hi : i < t.size) (n : Node) :
    (withTarget target t i hi n).tree.nodes = t.nodes ++ targetNodes target n := by
  unfold withTarget targetNodes
  split
  · split
    · simp only [addTarget, nodes_addChild, List.append_assoc]
      rfl
    · exact (List.append_nil _).symm
  · exact (List.append_nil _).symm

theorem readNodes_readLine {g : Option Growing} (h : readLine target g line = .ok g') :
    ∃ n, Line.parse line = .ok n ∧ readNodes g' = readNodes g ++ n :: targetNodes target n := by
  cases g with
  | none =>
    obtain ⟨n, hn, rfl⟩ := readLine_none_eq_ok_iff.1 h
    exact ⟨n, hn, nodes_withTarget _ n⟩
  | some g =>
    obtain ⟨n, hn, g₁, hadd, rfl⟩ := readLine_some_eq_ok_iff.1 h
    obtain ⟨p, -, -, rfl⟩ := add_eq_ok_iff.1 hadd
    refine ⟨n, hn, (nodes_withTarget _ n).trans ?_⟩
    rw [nodes_addChild, List.append_assoc]
    rfl

theorem readNodes_foldlM {lines : List String}
    (h : lines.foldlM (readLine target) none = .ok g') :
    ∃ ns, lines.mapM Line.parse = .ok ns ∧
      readNodes g' = ns.flatMap fun n => n :: targetNodes target n := by
  refine foldlM_induction (P := fun lines g => ∃ ns, lines.mapM Line.parse = .ok ns ∧
    readNodes g = ns.flatMap fun n => n :: targetNodes target n) ?_ ⟨[], rfl, rfl⟩ h
  rintro before line g g₁ - ⟨ns, hns, hnodes⟩ hline
  obtain ⟨n, hn, hnode⟩ := readNodes_readLine hline
  refine ⟨ns ++ [n], ?_, ?_⟩
  · rw [List.mapM_append, hns, List.mapM_cons, hn]
    rfl
  · rw [hnode, hnodes, List.flatMap_append, List.flatMap_singleton]

end Growing

/-! ## The whole dump -/

variable {query : String} {lines : List String} {t : Tree}

theorem ofDump_eq_ok_iff :
    ofDump query lines = .ok t ↔
      ∃ g, (keptLines lines).foldlM (Growing.readLine (viewTarget? query)) none = .ok (some g) ∧
        t = g.tree := by
  rw [ofDump, bind_eq_ok_iff]
  constructor
  · rintro ⟨g, hg, h⟩
    cases g with
    | none => cases h
    | some g =>
      cases h
      exact ⟨g, hg, rfl⟩
  · rintro ⟨g, hg, rfl⟩
    exact ⟨some g, hg, rfl⟩

/-- A property of trees that single nodes have and that further children keep is one of
every tree that is read from a dump. -/
theorem ofDump_induction {P : Tree → Prop} (hsingle : ∀ n, P (singleton n))
    (hchild : ∀ t p (hp : p < t.size) n, P t → P (t.addChild p hp n))
    (h : ofDump query lines = .ok t) : P t := by
  obtain ⟨g, hg, rfl⟩ := ofDump_eq_ok_iff.1 h
  exact foldlM_induction (P := fun _ s => ∀ g ∈ s, P g.tree)
    (fun _ _ _ _ _ hs hline => Growing.readLine_induction hsingle hchild hs hline)
    (fun _ hs => by cases hs) hg g rfl

theorem linked_ofDump (h : ofDump query lines = .ok t) : t.Linked :=
  ofDump_induction linked_singleton (fun _ _ hp n ht => ht.addChild hp n) h

theorem nodes_ofDump (h : ofDump query lines = .ok t) :
    ∃ ns, (keptLines lines).mapM Line.parse = .ok ns ∧
      t.nodes = ns.flatMap fun n => n :: Growing.targetNodes (viewTarget? query) n := by
  obtain ⟨g, hg, rfl⟩ := ofDump_eq_ok_iff.1 h
  exact Growing.readNodes_foldlM hg

/-- The node that a kept line describes is in the tree, and the walk meets it. -/
theorem exists_mem_walk_of_mem {line : String} (h : ofDump query lines = .ok t)
    (hline : line ∈ lines) (hkept : isKept line = true) :
    ∃ n, Line.parse line = .ok n ∧ ∃ i ∈ t.walk, t.node? i = some n := by
  obtain ⟨ns, hns, hnodes⟩ := nodes_ofDump h
  obtain ⟨n, hn, hparse⟩ :=
    exists_of_mem_of_forall₂ (mapM_eq_ok_iff.1 hns) (List.mem_filter.2 ⟨hline, hkept⟩)
  have hmem : n ∈ t.nodes := by
    rw [hnodes]
    exact List.mem_flatMap.2 ⟨n, hn, List.mem_cons_self⟩
  obtain ⟨i, hi, hnode⟩ := mem_nodes_iff.1 hmem
  exact ⟨n, hparse, i, (linked_ofDump h).mem_walk_iff.2 hi, hnode⟩

end Tree

end DdlOrder
