import DdlOrder.Proofs.Tree.Nested
import DdlOrder.Proofs.Tree.Reading

/-!
# Growing by a line

What is known of a tree once some lines have been read (`Tree.Growing.After`): it is in
document order, and its root and its last node stand as deep as the first and the last of
these lines. From this follows which line may come next:

* `Tree.Growing.After.exists_parentFor`, `Tree.Growing.After.parentFor_eq_indentJump`,
  `Tree.Growing.After.parentFor_eq_noEnclosingNode`: there is a place for a node that is
  deeper than the root and at most one level below the last node, and for no other;
* `Tree.Growing.Reads.readLine`, `Tree.Growing.Reads.of_foldlM`: this is kept by one more line
  and holds after all of them, so the tree of a dump is in document order
  (`Tree.nested_ofDump`).
-/

namespace DdlOrder

/-! ## Lines that can be read -/

namespace Line

variable {line : String} {n : Node} {e : Error}

/-- How many spaces the line begins with. -/
def indent (line : String) : Nat := (line.toList.takeWhile (· == ' ')).length

theorem parse_eq_ok_iff : parse line = .ok n ↔ parse? line = some n := by
  rw [parse]
  cases parse? line <;> simp

theorem parse_eq_error_iff :
    parse line = .error e ↔ parse? line = none ∧ e = .unrecognizedLine line := by
  rw [parse]
  cases parse? line <;> simp [eq_comm]

theorem exists_node_of_parse? (h : parse? line = some n) :
    ∃ tag body, n = node line (indent line) tag body := by
  simp only [parse?, Option.ite_none_left_eq_some, Option.map_eq_some_iff] at h
  obtain ⟨-, body, -, rfl⟩ := h
  exact ⟨_, body, rfl⟩

theorem indent_of_parse (h : parse line = .ok n) : n.indent = indent line := by
  obtain ⟨tag, body, rfl⟩ := exists_node_of_parse? (parse_eq_ok_iff.1 h)
  rfl

theorem raw_of_parse (h : parse line = .ok n) : n.raw = line := by
  obtain ⟨tag, body, rfl⟩ := exists_node_of_parse? (parse_eq_ok_iff.1 h)
  rfl

theorem line?_of_parse (h : parse line = .ok n) (hline : line ≠ "") : n.line? = some line := by
  rw [Node.line?, raw_of_parse h, if_neg hline]

end Line

namespace Tree

/-! ## Trees that contain another -/

/-- The nodes of `t` are nodes of `t'`, by the same ids. -/
structure Within (t t' : Tree) : Prop where
  size_le : t.size ≤ t'.size
  indent?_eq : ∀ j < t.size, t'.indent? j = t.indent? j
  line?_eq : ∀ j < t.size, t'.line? j = t.line? j

namespace Within

variable {t t' t'' : Tree} {p : Nat}

theorem refl (t : Tree) : t.Within t := ⟨Nat.le_refl _, fun _ _ => rfl, fun _ _ => rfl⟩

theorem trans (h : t.Within t') (h' : t'.Within t'') : t.Within t'' where
  size_le := Nat.le_trans h.size_le h'.size_le
  indent?_eq j hj :=
    (h'.indent?_eq j (Nat.lt_of_lt_of_le hj h.size_le)).trans (h.indent?_eq j hj)
  line?_eq j hj := (h'.line?_eq j (Nat.lt_of_lt_of_le hj h.size_le)).trans (h.line?_eq j hj)

theorem addChild (h : t.Within t') (hp : p < t'.size) (n : Node) :
    t.Within (t'.addChild p hp n) :=
  h.trans
    { size_le := by rw [size_addChild]; exact Nat.le_succ _
      indent?_eq := fun j hj => by rw [indent?_addChild, if_neg (Nat.ne_of_lt hj)]
      line?_eq := fun j hj => line?_addChild_of_lt hp n hj }

end Within

namespace Growing

variable {target : Option (List Char)} {t : Tree} {i p : Nat} {n : Node} {g : Growing}
  {lines : List String} {line : String}

/-! ## What is known after some lines -/

/-- What is known of a tree once these lines have been read, of which `last` is the node of
the last. -/
structure After (lines : List String) (t : Tree) (last : Nat) : Prop where
  nested : t.Nested
  last_spine : t.OnSpine last
  last_line : t.line? last = lines.getLast?
  root_indent : t.indent? 0 = lines.head?.map Line.indent
  last_indent : t.indent? last = lines.getLast?.map Line.indent

namespace After

theorem exists_last (h : After lines t i) :
    ∃ line, lines.getLast? = some line ∧ t.line? i = some line ∧
      t.indent? i = some (Line.indent line) := by
  obtain ⟨d, hd⟩ := exists_indent? h.last_spine.lt_size
  obtain ⟨line, hline, -⟩ := Option.map_eq_some_iff.1 (h.last_indent.symm.trans hd)
  refine ⟨line, hline, h.last_line.trans hline, ?_⟩
  rw [h.last_indent, hline, Option.map_some]

theorem ne_nil (h : After lines t i) : lines ≠ [] := by
  obtain ⟨line, hline, -⟩ := h.exists_last
  rintro rfl
  cases hline

theorem exists_first (h : After lines t i) :
    ∃ line, lines.head? = some line ∧ t.indent? 0 = some (Line.indent line) := by
  obtain ⟨d, hd⟩ := exists_indent? h.nested.size_pos
  obtain ⟨line, hline, -⟩ := Option.map_eq_some_iff.1 (h.root_indent.symm.trans hd)
  refine ⟨line, hline, ?_⟩
  rw [h.root_indent, hline, Option.map_some]

/-- What the last node and those above it have in common: they were read from lines, and
further nodes may go below them. -/
theorem line?_isSome (h : After lines t i) (hp : p = i ∨ p ∈ t.ancestors i) :
    (t.line? p).isSome := by
  obtain ⟨line, -, hline, -⟩ := h.exists_last
  have hlast : (t.line? i).isSome := by rw [hline, Option.isSome_some]
  rcases hp with rfl | hp
  · exact hlast
  · exact h.nested.line?_isSome_of_mem_ancestors hp hlast

theorem onSpine (h : After lines t i) (hp : p = i ∨ p ∈ t.ancestors i) : t.OnSpine p := by
  rcases hp with rfl | hp
  · exact h.last_spine
  · exact h.last_spine.of_mem_ancestors hp

theorem singleton (hn : Line.parse line = .ok n) (hline : line ≠ "") :
    After [line] (singleton n) 0 where
  nested := nested_singleton n
  last_spine := onSpine_singleton n
  last_line := Line.line?_of_parse hn hline
  root_indent := congrArg some (Line.indent_of_parse hn)
  last_indent := congrArg some (Line.indent_of_parse hn)

/-- A further line's node belongs below the last one or a node above that. -/
theorem addChild (h : After lines t i) (hn : Line.parse line = .ok n) (hline : line ≠ "")
    (hp : p < t.size) (hup : p = i ∨ p ∈ t.ancestors i)
    (hindent : some n.indent = (t.indent? p).map (· + 1)) :
    After (lines ++ [line]) (t.addChild p hp n) t.size where
  nested := h.nested.addChild (h.onSpine hup) n hindent fun _ => h.line?_isSome hup
  last_spine := onSpine_addChild_size hp n
  last_line := by rw [line?_addChild_size, Line.line?_of_parse hn hline, List.getLast?_concat]
  root_indent := by
    obtain ⟨first, hfirst, hroot⟩ := h.exists_first
    rw [indent?_addChild, if_neg (Nat.ne_of_lt h.nested.size_pos), hroot, List.head?_append, hfirst]
    rfl
  last_indent := by
    rw [indent?_addChild, if_pos rfl, List.getLast?_concat, Line.indent_of_parse hn]
    rfl

/-- The nodes for the target table of a view go below the view's, which stays the last. -/
theorem withTarget (h : After lines t i) (hi : i < t.size) (hn : t.indent? i = some n.indent) :
    After lines (withTarget target t i hi n).tree (withTarget target t i hi n).last := by
  unfold Growing.withTarget
  split
  · rename_i target
    split
    · have hfirst : (t.addChild i hi (targetNode n.indent target)).Nested :=
        h.nested.addChild h.last_spine _ (by rw [hn]; rfl) fun hline => by cases hline
      have hwithin : t.Within (addTarget t i hi n.indent target) :=
        ((Within.refl t).addChild hi _).addChild (by simp) _
      refine ⟨hfirst.addChild (onSpine_addChild_size hi _) _ ?_ (fun hline => by cases hline),
        onSpine_addChild (by simp) _ (.inr ?_), ?_, ?_, ?_⟩
      · rw [indent?_addChild, if_pos rfl]
        rfl
      · rw [ancestors_addChild_size]
        exact List.mem_cons_self
      · exact (hwithin.line?_eq i hi).trans h.last_line
      · exact (hwithin.indent?_eq 0 h.nested.size_pos).trans h.root_indent
      · exact (hwithin.indent?_eq i hi).trans h.last_indent
    · exact h
  · exact h

end After

/-! ## Where a node may go -/

theorem indent?_last (g : Growing) (h : g.last < g.tree.entries.size) :
    g.tree.indent? g.last = some g.tree.entries[g.last].node.indent := by
  rw [indent?, node?, Array.getElem?_eq_getElem h]
  rfl

/-- Whether a node stands one level above another is a question of its indent. -/
theorem any_indent_eq (d : Nat) :
    ((t.node? i).any fun above => above.indent + 1 == d) = true ↔
      some d = (t.indent? i).map (· + 1) := by
  rw [indent?]
  cases t.node? i with
  | none => simp
  | some m =>
    simp only [Option.any_some, beq_iff_eq, Option.map_some, Option.some.injEq]
    exact eq_comm

/-- The parent of a new node is the last node or above it, and one level up. -/
theorem parentFor_eq_ok {p : Fin g.tree.size} (h : g.parentFor n = .ok p) :
    (p.val = g.last ∨ p.val ∈ g.tree.ancestors g.last) ∧
      some n.indent = (g.tree.indent? p).map (· + 1) := by
  simp only [parentFor] at h
  split at h
  · split at h
    · rename_i hindent
      cases h
      exact ⟨.inl rfl, by rw [hindent, indent?_last g g.last_lt, Option.map_some]⟩
    · cases h
  · split at h
    · rename_i a ha
      cases h
      have hlevel := List.find?_some ha
      exact ⟨.inr (List.mem_of_find?_eq_some ha), (any_indent_eq _).1 hlevel⟩
    · cases h

variable {first last : String}

/-- There is a place for a node that is deeper than the root and at most one level below
the last node. -/
theorem After.exists_parentFor (h : After lines g.tree g.last) (hfirst : lines.head? = some first)
    (hlast : lines.getLast? = some last) (hroot : Line.indent first < n.indent)
    (hnear : n.indent ≤ Line.indent last + 1) : ∃ p, g.parentFor n = .ok p := by
  have hr : g.tree.indent? 0 = some (Line.indent first) := by rw [h.root_indent, hfirst]; rfl
  have hd : g.tree.indent? g.last = some (Line.indent last) := by rw [h.last_indent, hlast]; rfl
  have hentry := Option.some.inj ((indent?_last g g.last_lt).symm.trans hd)
  simp only [parentFor, hentry]
  split
  · exact ⟨_, if_pos (by omega)⟩
  · split
    · exact ⟨_, rfl⟩
    · rename_i hle hnone
      obtain ⟨a, ha, hac⟩ := h.nested.exists_mem_ancestors (c := n.indent - 1) hr hd (by omega)
        (by omega)
      refine absurd ((any_indent_eq _).2 ?_) (List.find?_eq_none.1 hnone a ha)
      rw [hac, Option.map_some, Nat.sub_add_cancel (by omega)]

/-- There is no place for a node that stands too deep. -/
theorem After.parentFor_eq_indentJump (h : After lines g.tree g.last)
    (hlast : lines.getLast? = some last) (hfar : Line.indent last + 1 < n.indent) :
    g.parentFor n = .error (.indentJump n.raw (n.indent - Line.indent last)) := by
  have hd : g.tree.indent? g.last = some (Line.indent last) := by rw [h.last_indent, hlast]; rfl
  have hentry := Option.some.inj ((indent?_last g g.last_lt).symm.trans hd)
  simp only [parentFor, hentry]
  rw [if_pos (by omega), if_neg (by omega)]

/-- There is no place for a node that does not stand deeper than the root. -/
theorem After.parentFor_eq_noEnclosingNode (h : After lines g.tree g.last)
    (hfirst : lines.head? = some first) (hlast : lines.getLast? = some last)
    (hroot : n.indent ≤ Line.indent first) :
    g.parentFor n = .error (.noEnclosingNode n.raw n.indent) := by
  have hr : g.tree.indent? 0 = some (Line.indent first) := by rw [h.root_indent, hfirst]; rfl
  have hd : g.tree.indent? g.last = some (Line.indent last) := by rw [h.last_indent, hlast]; rfl
  have hentry := Option.some.inj ((indent?_last g g.last_lt).symm.trans hd)
  have hle := h.nested.root_indent?_le hr hd
  simp only [parentFor, hentry]
  rw [if_neg (by omega)]
  split
  · rename_i a ha
    have hlevel := List.find?_some ha
    obtain ⟨c, hc, hn⟩ := Option.map_eq_some_iff.1 ((any_indent_eq _).1 hlevel).symm
    have := h.nested.root_indent?_le hr hc
    omega
  · rfl

/-! ## One more line -/

/-- Nothing has been read yet, or what is known after these lines holds. -/
def Reads (lines : List String) : Option Growing → Prop
  | none => lines = []
  | some g => After lines g.tree g.last

theorem Reads.readLine {g g' : Option Growing} (h : Reads lines g) (hline : line ≠ "")
    (hread : readLine target g line = .ok g') : Reads (lines ++ [line]) g' := by
  cases g with
  | none =>
    obtain ⟨n, hn, rfl⟩ := readLine_none_eq_ok_iff.1 hread
    rw [h, List.nil_append]
    exact (After.singleton hn hline).withTarget _ rfl
  | some g =>
    obtain ⟨n, hn, g₁, hadd, rfl⟩ := readLine_some_eq_ok_iff.1 hread
    obtain ⟨p, hp, hsize, rfl⟩ := add_eq_ok_iff.1 hadd
    obtain ⟨hup, hindent⟩ := parentFor_eq_ok hp
    refine (After.addChild h hn hline p.isLt hup hindent).withTarget hsize ?_
    rw [indent?_addChild, if_pos rfl]

theorem Reads.of_foldlM {g : Option Growing} (hlines : ∀ line ∈ lines, line ≠ "")
    (hread : lines.foldlM (Growing.readLine target) none = .ok g) : Reads lines g := by
  have hstart : Reads [] none := rfl
  refine foldlM_induction (fun before line g g₁ hmem hbefore hline => ?_) hstart hread
  exact hbefore.readLine (hlines line hmem) hline

end Growing

/-! ## The whole dump -/

theorem ne_empty_of_mem_keptLines {lines : List String} {line : String}
    (h : line ∈ keptLines lines) : line ≠ "" := by
  rintro rfl
  exact absurd (List.mem_filter.1 h).2 (by decide)

theorem nested_ofDump {query : String} {lines : List String} {t : Tree}
    (h : ofDump query lines = .ok t) : t.Nested := by
  obtain ⟨g, hg, rfl⟩ := ofDump_eq_ok_iff.1 h
  have hreads : Growing.Reads (keptLines lines) (some g) :=
    Growing.Reads.of_foldlM (fun _ hline => ne_empty_of_mem_keptLines hline) hg
  exact hreads.nested

end Tree

end DdlOrder
