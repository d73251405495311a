import DdlOrder.Proofs.Tree.Reading

/-!
# What a tree takes from the statement's text

Of a statement's text the tree of a dump shows the names in the target of a view, as qualifier
and value, and nothing else. So two texts have the same tree for every dump exactly if their
targets have the same names (`Tree.ofDump_eq_iff`).
-/

namespace DdlOrder

/-- Qualifier and value in the target of a view. -/
def targetNames (target : List Char) : Option String × Option String :=
  Line.splitValue "MaterializedViewToTable".toList target

/-- Qualifier and value in the target that a statement names for a view. -/
def targetNames? (query : String) : Option (Option String × Option String) :=
  (viewTarget? query).map targetNames

namespace Tree

namespace Growing

variable {target target' : Option (List Char)}

theorem targetNode_congr {a b : List Char} (h : targetNames a = targetNames b) (indent : Nat) :
    targetNode indent a = targetNode indent b := by
  rw [targetNames, targetNames] at h
  simp only [targetNode, h]

theorem withTarget_congr (h : target.map targetNames = target'.map targetNames) :
    withTarget target = withTarget target' := by
  funext t i hi n
  cases target with
  | none =>
    cases target' with
    | none => rfl
    | some b => cases h
  | some a =>
    cases target' with
    | none => cases h
    | some b =>
      simp only [withTarget, addTarget, targetNode_congr (Option.some.inj h)]

theorem readLine_congr (h : target.map targetNames = target'.map targetNames) :
    readLine target = readLine target' := by
  funext g line
  cases g <;> simp only [readLine, start, add, withTarget_congr h]

theorem nodes_start (n : Node) : (start target n).tree.nodes = n :: targetNodes target n :=
  nodes_withTarget _ n

/-- The names of a target can be read off the nodes that show it. -/
theorem targetNodes_injective {n : Node} (hn : n.kind = .createQuery)
    (h : targetNodes target n = targetNodes target' n) :
    target.map targetNames = target'.map targetNames := by
  cases target with
  | none =>
    cases target' with
    | none => rfl
    | some b =>
      rw [targetNodes, targetNodes, if_pos hn] at h
      cases h
  | some a =>
    cases target' with
    | none =>
      rw [targetNodes, targetNodes, if_pos hn] at h
      cases h
    | some b =>
      rw [targetNodes, targetNodes, if_pos hn, if_pos hn, List.cons.injEq, targetNode,
        targetNode, Node.mk.injEq] at h
      exact congrArg some (Prod.ext h.1.2.2.1 h.1.2.1)

end Growing

variable {query query' : String}

theorem ofDump_congr (h : targetNames? query = targetNames? query') (lines : List String) :
    ofDump query lines = ofDump query' lines := by
  simp only [ofDump, Growing.readLine_congr h]

/-- The tree for the dump of a single CREATE node. -/
theorem ofDump_createQuery (query : String) :
    ofDump query ["CreateQuery"] =
      .ok (Growing.start (viewTarget? query)
        { kind := .createQuery, indent := 0, raw := "CreateQuery" }).tree := by
  have hkept : keptLines ["CreateQuery"] = ["CreateQuery"] := by decide +kernel
  have hparse : Line.parse "CreateQuery" =
      .ok { kind := .createQuery, indent := 0, raw := "CreateQuery" } := by decide +kernel
  rw [ofDump, hkept, List.foldlM_cons, Growing.readLine, hparse]
  rfl

theorem targetNames?_eq_of_ofDump
    (h : ofDump query ["CreateQuery"] = ofDump query' ["CreateQuery"]) :
    targetNames? query = targetNames? query' := by
  rw [ofDump_createQuery, ofDump_createQuery] at h
  have hnodes := congrArg nodes (Except.ok.inj h)
  rw [Growing.nodes_start, Growing.nodes_start] at hnodes
  exact Growing.targetNodes_injective rfl (List.tail_eq_of_cons_eq hnodes)

/-- Two texts have the same tree for every dump exactly if their targets have the same names. -/
theorem ofDump_eq_iff :
    (∀ lines, ofDump query lines = ofDump query' lines) ↔
      targetNames? query = targetNames? query' :=
  ⟨fun h => targetNames?_eq_of_ofDump (h ["CreateQuery"]), ofDump_congr⟩

end Tree

end DdlOrder
