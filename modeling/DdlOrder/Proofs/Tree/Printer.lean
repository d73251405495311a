import DdlOrder.Proofs.Kdl.Escape
import DdlOrder.Proofs.Tree.Growth
import DdlOrder.Text.Basic
import DdlOrder.Tree.Printer

/-!
# What a printed tree tells

A printed tree has one line for each node, in document order, and lines that close blocks. From
these lines the tree can be told:

* `Tree.Nested.parent?_eq_of_depth_eq`: in trees in document order the numbers of nodes above
  decide which node belongs below which;
* `Tree.properties_append_inj`, `Tree.nodeLine_inj`: the line of a node tells how many nodes are
  above it and what the node says, as its texts are escaped;
* `Tree.Nested.filter_textLines_print`: the lines of nodes can be told from those that close
  blocks.

So two trees of dumps are printed alike exactly if they have the same nodes in the same places,
apart from their indents and the lines they were read from (`Tree.Alike`, `print_eq_print_iff`).
-/

namespace DdlOrder

/-- The nodes have the same tag, value, qualifier, alias and note. -/
structure Node.SaysSame (n n' : Node) : Prop where
  tag_eq : n.kind.tag = n'.kind.tag
  value_eq : n.value = n'.value
  qualifier_eq : n.qualifier = n'.qualifier
  aliasName_eq : n.aliasName = n'.aliasName
  note_eq : n.note = n'.note

namespace Tree

variable {t t' : Tree} {i a p k : Nat}

/-! ## How deep a node stands -/

/-- How many nodes are above the node with this id. -/
def depth (t : Tree) (i : Nat) : Nat := (t.ancestors i).length

theorem depth_zero (t : Tree) : t.depth 0 = 0 := by
  rw [depth, ancestors_of_parent?_eq_none t.parent?_zero, List.length_nil]

theorem depth_of_parent? (h : t.parent? i = some p) : t.depth i = t.depth p + 1 := by
  rw [depth, ancestors_of_parent? h, List.length_cons, depth]

theorem depth_lt_of_mem_ancestors (h : a ∈ t.ancestors i) : t.depth a < t.depth i := by
  induction i using ancestors.induct t with
  | case1 i hp =>
    rw [ancestors_of_parent?_eq_none hp] at h
    cases h
  | case2 i p hp ih =>
    rw [ancestors_of_parent? hp, List.mem_cons] at h
    rw [depth_of_parent? hp]
    rcases h with rfl | h
    · exact Nat.lt_succ_self _
    · exact Nat.lt_succ_of_lt (ih h)

namespace Nested

/-- What stands between a node and its parent is below the parent. -/
theorem depth_lt_of_between (h : t.Nested) (hp : t.parent? i = some p) (hpk : p < k) (hki : k < i) :
    t.depth p < t.depth k := by
  have hbelow := h.mem_ancestors_of_le (mem_ancestors.2 ⟨p, hp, .inl rfl⟩) hpk (Nat.le_of_lt hki)
  exact depth_lt_of_mem_ancestors hbelow

/-- Where nodes stand equally deep they have the same parents: a parent that came later in one
tree than in the other would not be deep enough there. -/
theorem parent?_eq_of_depth_eq (h : t.Nested) (h' : t'.Nested) (hsize : t.size = t'.size)
    (hdepth : ∀ j < t.size, t.depth j = t'.depth j) (i : Nat) : t.parent? i = t'.parent? i := by
  rcases Nat.eq_zero_or_pos i with rfl | hpos
  · rw [t.parent?_zero, t'.parent?_zero]
  rcases Nat.lt_or_ge i t.size with hi | hi
  · obtain ⟨p, hp⟩ := h.exists_parent hpos hi
    obtain ⟨q, hq⟩ := h'.exists_parent hpos (hsize ▸ hi)
    have hpi := parent?_lt hp
    have hqi := parent?_lt hq
    have hdepths := hdepth i hi
    rw [depth_of_parent? hp, depth_of_parent? hq] at hdepths
    have hdp := hdepth p (Nat.lt_trans hpi hi)
    have hdq := hdepth q (Nat.lt_trans hqi hi)
    rcases Nat.lt_trichotomy p q with hpq | rfl | hqp
    · have := h.depth_lt_of_between hp hpq hqi
      omega
    · rw [hp, hq]
    · have := h'.depth_lt_of_between hq hqp hpi
      omega
  · rw [parent?_eq_none hi, parent?_eq_none (hsize ▸ hi)]

end Nested

theorem Linked.children_eq_of_parent?_eq (h : t.Linked) (h' : t'.Linked) (hsize : t.size = t'.size)
    (hparent : ∀ i, t.parent? i = t'.parent? i) (i : Nat) : t.children i = t'.children i := by
  rw [h.children_eq, h'.children_eq, hsize]
  exact List.filter_congr fun c _ => by rw [hparent]

/-! ## What a header tells -/

theorem header_eq_of_saysSame {n n' : Node} (h : n.SaysSame n') : header n = header n' := by
  rw [header, header, h.tag_eq, h.value_eq, h.qualifier_eq, h.aliasName_eq, h.note_eq]

/-- What of a node is printed as a property, by its key. -/
def fields (n : Node) : List (String × Option String) :=
  [("value", n.value), ("qualifier", n.qualifier), ("alias", n.aliasName), ("meta", n.note)]

/-- The properties, one behind the other. -/
def properties (fs : List (String × Option String)) : String :=
  String.join (fs.map fun f => property f.1 f.2)

theorem properties_cons (f : String × Option String) (fs : List (String × Option String)) :
    properties (f :: fs) = property f.1 f.2 ++ properties fs := by
  simp [properties, String.join_cons]

theorem header_eq (n : Node) : header n = stringLiteral n.kind.tag ++ properties (fields n) := by
  simp only [header, properties, fields, List.map_cons, List.map_nil, String.join_cons,
    String.join_nil, String.append_empty, String.append_assoc]

/-- What a property with this key is recognized by: the character behind its leading space. -/
def mark (key : String) : Option Char := (key.toList ++ ['=']).head?

theorem mark_property (key s r : String) : (property key (some s) ++ r).toList[1]? = mark key := by
  have htext : (property key (some s) ++ r).toList =
      ' ' :: (key.toList ++ '=' :: (stringLiteral s ++ r).toList) := by
    simp [property]
  rw [htext, mark]
  cases key.toList <;> rfl

theorem properties_append_ne {fs : List (String × Option String)} {r : String} {m : Option Char}
    (hfs : ∀ f ∈ fs, mark f.1 ≠ m) (hr : r.toList[1]? ≠ m) :
    (properties fs ++ r).toList[1]? ≠ m := by
  induction fs with
  | nil => simpa [properties] using hr
  | cons f fs ih =>
    obtain ⟨key, v⟩ := f
    obtain ⟨hkey, hothers⟩ := List.forall_mem_cons.1 hfs
    rw [properties_cons, String.append_assoc]
    cases v with
    | none => simpa [property] using ih hothers
    | some s => rwa [mark_property]

/-- A property tells its value, and whether there is one. -/
theorem property_append_inj {key r r' : String} {v v' : Option String}
    (hr : r.toList[1]? ≠ mark key) (hr' : r'.toList[1]? ≠ mark key)
    (h : property key v ++ r = property key v' ++ r') : v = v' ∧ r = r' := by
  have hnone : ∀ r, property key none ++ r = r := fun r => String.empty_append
  cases v with
  | none =>
    rw [hnone] at h
    cases v' with
    | none => exact ⟨rfl, h.trans (hnone r')⟩
    | some s => exact absurd (h ▸ mark_property key s r') hr
  | some s =>
    cases v' with
    | none =>
      rw [hnone] at h
      exact absurd (h ▸ mark_property key s r) hr'
    | some s' =>
      simp only [property, String.append_assoc, String.append_right_inj] at h
      obtain ⟨rfl, hrest⟩ := stringLiteral_append_inj h
      exact ⟨rfl, hrest⟩

/-- Properties whose keys begin with different characters tell their values. -/
theorem properties_append_inj {fs fs' : List (String × Option String)} {r r' : String}
    (hkeys : fs.map Prod.fst = fs'.map Prod.fst) (hmarks : (fs.map fun f => mark f.1).Nodup)
    (hr : ∀ f ∈ fs, mark f.1 ≠ r.toList[1]?) (hr' : ∀ f ∈ fs, mark f.1 ≠ r'.toList[1]?)
    (h : properties fs ++ r = properties fs' ++ r') : fs = fs' ∧ r = r' := by
  induction fs generalizing fs' with
  | nil =>
    obtain rfl := List.map_eq_nil_iff.1 hkeys.symm
    rw [String.append_right_inj] at h
    exact ⟨rfl, h⟩
  | cons f fs ih =>
    cases fs' with
    | nil => cases hkeys
    | cons f' fs' =>
      obtain ⟨key, v⟩ := f
      obtain ⟨key', v'⟩ := f'
      rw [List.map_cons, List.map_cons, List.cons.injEq] at hkeys
      obtain ⟨rfl, hkeys⟩ := hkeys
      obtain ⟨hmark, hmarks⟩ := List.nodup_cons.1 hmarks
      obtain ⟨hrkey, hr⟩ := List.forall_mem_cons.1 hr
      obtain ⟨hrkey', hr'⟩ := List.forall_mem_cons.1 hr'
      have hother : ∀ k ∈ fs.map Prod.fst, mark k ≠ mark key := by
        rw [List.forall_mem_map]
        exact fun f hf heq => hmark (List.mem_map.2 ⟨f, hf, heq⟩)
      have hother' := hkeys ▸ hother
      rw [List.forall_mem_map] at hother hother'
      rw [properties_cons, properties_cons, String.append_assoc, String.append_assoc] at h
      obtain ⟨rfl, hothers⟩ : v = v' ∧ properties fs ++ r = properties fs' ++ r' :=
        property_append_inj (properties_append_ne hother hrkey.symm)
          (properties_append_ne hother' hrkey'.symm) h
      obtain ⟨rfl, hrest⟩ := ih hkeys hmarks hr hr' hothers
      exact ⟨rfl, hrest⟩

/-! ## What a line tells -/

/-- What follows the header of the node with this id on its line. -/
def ending (t : Tree) (i : Nat) : String := if (t.children i).isEmpty then "" else " \x7b"

/-- The line of the node with this id. -/
def nodeLine (t : Tree) (i : Nat) : String := pad (t.depth i) ++ t.headerOf i ++ t.ending i

theorem nodeLine_eq {n : Node} (hn : t.node? i = some n) :
    t.nodeLine i = pad (t.depth i) ++
      (stringLiteral n.kind.tag ++ (properties (fields n) ++ t.ending i)) := by
  have hheader : t.headerOf i = header n := by rw [headerOf, hn]; rfl
  rw [nodeLine, hheader, header_eq, String.append_assoc, String.append_assoc]

theorem mark_ne_ending (t : Tree) (i : Nat) (n : Node) :
    ∀ f ∈ fields n, mark f.1 ≠ (t.ending i).toList[1]? := by
  rw [ending]
  split <;> simp only [fields, List.forall_mem_cons, List.not_mem_nil, false_imp_iff,
    implies_true, and_true] <;> decide

theorem toList_pad_append (d : Nat) (s : String) :
    (pad d ++ s).toList = List.replicate (2 * d) ' ' ++ s.toList := by
  rw [String.toList_append, pad, String.toList_ofList]

/-- The spaces in front of a line end where its string begins. -/
theorem pad_append_inj {d d' : Nat} {s s' r r' : String}
    (h : pad d ++ (stringLiteral s ++ r) = pad d' ++ (stringLiteral s' ++ r')) :
    d = d' ∧ stringLiteral s ++ r = stringLiteral s' ++ r' := by
  have hspace : ∀ d, ∀ c ∈ List.replicate (2 * d) ' ', (c == ' ') = true := by simp
  have hquote : ∀ s r, ∀ c ∈ (stringLiteral s ++ r).toList.head?, (c == ' ') = false := by
    intro s r c hc
    rw [toList_stringLiteral_append, List.head?_cons, Option.mem_some] at hc
    subst hc
    decide
  have hlists := congrArg String.toList h
  rw [toList_pad_append, toList_pad_append] at hlists
  obtain ⟨hpad, hrest⟩ := run_append_inj (hspace d) (hquote s r) (hspace d') (hquote s' r') hlists
  have hlength := congrArg List.length hpad
  rw [List.length_replicate, List.length_replicate] at hlength
  exact ⟨by omega, String.toList_inj.1 hrest⟩

/-- The line of a node tells how deep it stands and what it says. -/
theorem nodeLine_inj {n n' : Node} (hn : t.node? i = some n) (hn' : t'.node? i = some n')
    (h : t.nodeLine i = t'.nodeLine i) : t.depth i = t'.depth i ∧ n.SaysSame n' := by
  rw [nodeLine_eq hn, nodeLine_eq hn'] at h
  obtain ⟨hdepth, h⟩ := pad_append_inj h
  obtain ⟨htag, h⟩ := stringLiteral_append_inj h
  have hmarks : ((fields n).map fun f => mark f.1).Nodup := by
    simp only [fields, List.map_cons, List.map_nil]
    decide
  have hkeys : (fields n).map Prod.fst = (fields n').map Prod.fst := rfl
  obtain ⟨hfields, -⟩ := properties_append_inj hkeys hmarks (t.mark_ne_ending i n)
    (t'.mark_ne_ending i n) h
  simp only [fields, List.cons.injEq, Prod.mk.injEq, true_and, and_true] at hfields
  obtain ⟨hvalue, hqualifier, halias, hnote⟩ := hfields
  exact ⟨hdepth, htag, hvalue, hqualifier, halias, hnote⟩

theorem hasControl_pad (d : Nat) : hasControl (pad d) = false := by
  rw [hasControl, pad, String.toList_ofList, List.any_replicate]
  split
  · rfl
  · decide

theorem hasControl_property {key : String} (hkey : hasControl key = false) (v : Option String) :
    hasControl (property key v) = false := by
  cases v with
  | none => rfl
  | some s =>
    rw [property, hasControl_append, hasControl_append, hasControl_append, hkey,
      hasControl_stringLiteral]
    decide

theorem hasControl_headerOf (t : Tree) (i : Nat) : hasControl (t.headerOf i) = false := by
  rw [headerOf]
  cases t.node? i with
  | none => decide
  | some n =>
    rw [Option.map_some, Option.getD_some, header, hasControl_append, hasControl_append,
      hasControl_append, hasControl_append, hasControl_stringLiteral,
      hasControl_property (by decide), hasControl_property (by decide),
      hasControl_property (by decide), hasControl_property (by decide)]
    rfl

theorem hasControl_of_mem_printLines {d : Nat} {line : String} (hline : line ∈ t.printLines i d) :
    hasControl line = false := by
  have hheader : ∀ i d, hasControl (pad d ++ t.headerOf i) = false := fun i d => by
    rw [hasControl_append, hasControl_pad, hasControl_headerOf]
    rfl
  induction i, d using printLines.induct t with
  | case1 i d hleaf =>
    rw [printLines_eq, if_pos hleaf, List.mem_singleton] at hline
    rw [hline, hheader]
  | case2 i d hinner ih =>
    rw [printLines_eq, if_neg hinner, List.cons_append, List.mem_cons, List.mem_append,
      List.mem_flatMap, List.mem_singleton] at hline
    rcases hline with rfl | ⟨c, hc, hline⟩ | rfl
    · rw [hasControl_append, hheader]
      decide
    · exact ih c hc hline
    · rw [hasControl_append, hasControl_pad]
      decide

/-! ## The lines of the nodes -/

/-- Whether the line is that of a node: its first character other than a space is a quote. -/
def showsNode (line : String) : Bool := (line.toList.dropWhile (· == ' ')).head? == some '"'

theorem showsNode_pad_append (d : Nat) {s : String} {c : Char} {rest : List Char}
    (hs : s.toList = c :: rest) (hc : c ≠ ' ') : showsNode (pad d ++ s) = (c == '"') := by
  have hspaces : ∀ c ∈ List.replicate (2 * d) ' ', (c == ' ') = true := by simp
  have hhead : ∀ c ∈ s.toList.head?, (c == ' ') = false := by
    intro c hmem
    rw [hs, List.head?_cons, Option.mem_some] at hmem
    exact hmem ▸ beq_eq_false_iff_ne.2 hc
  rw [showsNode, toList_pad_append, dropWhile_append_of_head? hspaces hhead, hs, List.head?_cons]
  rfl

theorem showsNode_close (d : Nat) : showsNode (pad d ++ "\x7d") = false := by
  have hclose : "\x7d".toList = ['\x7d'] := rfl
  rw [showsNode_pad_append d hclose (by decide)]
  rfl

theorem showsNode_nodeLine (hi : i < t.size) : showsNode (t.nodeLine i) = true := by
  obtain ⟨n, hn⟩ := exists_node? hi
  rw [nodeLine_eq hn, showsNode_pad_append _ (toList_stringLiteral_append _ _) (by decide)]
  rfl

/-- The line of a node comes before those of the nodes below it. -/
theorem printLines_depth (t : Tree) (i : Nat) :
    t.printLines i (t.depth i) =
      t.nodeLine i :: ((t.children i).flatMap (fun c => t.printLines c (t.depth i + 1)) ++
        if (t.children i).isEmpty then [] else [pad (t.depth i) ++ "\x7d"]) := by
  rw [printLines_eq, nodeLine, ending]
  split
  · rename_i hchildren
    rw [List.isEmpty_iff.1 hchildren, String.append_empty, List.flatMap_nil, List.append_nil]
  · rw [List.cons_append]

/-- Among the lines of a node and those below it, the lines of nodes are theirs, in the order of
the walk. -/
theorem Linked.filter_printLines (h : t.Linked) (hi : i < t.size) :
    (t.printLines i (t.depth i)).filter showsNode = (i :: t.descendants i).map t.nodeLine := by
  induction i using descendants.induct t with
  | case1 i ih =>
    have hchildren : ∀ c ∈ t.children i, (t.printLines c (t.depth i + 1)).filter showsNode =
        (c :: t.descendants c).map t.nodeLine := by
      intro c hc
      rw [← depth_of_parent? (h.mem_children_iff.1 hc)]
      exact ih c hc (lt_of_mem_children hc).2
    have hclose : (if (t.children i).isEmpty then [] else [pad (t.depth i) ++ "\x7d"]).filter
        showsNode = [] := by
      split
      · rfl
      · rw [List.filter_singleton, showsNode_close]
        rfl
    rw [printLines_depth, List.filter_cons_of_pos (showsNode_nodeLine hi), List.filter_append,
      hclose, List.append_nil, List.filter_flatMap, List.flatMap_congr hchildren, ← List.map_flatMap,
      ← descendants_eq, List.map_cons]

/-- A printed tree has the lines of its nodes in document order. -/
theorem Nested.filter_textLines_print (h : t.Nested) :
    (textLines t.print).filter showsNode = (List.range t.size).map t.nodeLine := by
  have hwalk : 0 :: t.descendants 0 = List.range t.size := by
    rw [← h.walk_eq_range, walk, if_neg (Nat.ne_of_gt h.size_pos)]
  have hlines := h.filter_printLines h.size_pos
  rw [t.depth_zero, hwalk] at hlines
  rw [print, if_neg (Nat.ne_of_gt h.size_pos),
    textLines_unlines fun _ => hasControl_of_mem_printLines, hlines]

/-! ## Trees that are alike -/

/-- The trees have the same nodes in the same places, apart from the indents of the nodes and
the lines that they were read from. -/
structure Alike (t t' : Tree) : Prop where
  size_eq : t.size = t'.size
  parent?_eq : ∀ i, t.parent? i = t'.parent? i
  children_eq : ∀ i, t.children i = t'.children i
  saysSame : ∀ i n n', t.node? i = some n → t'.node? i = some n' → n.SaysSame n'

namespace Alike

variable (h : t.Alike t')

include h

theorem headerOf_eq (i : Nat) : t.headerOf i = t'.headerOf i := by
  rcases Nat.lt_or_ge i t.size with hi | hi
  · obtain ⟨n, hn⟩ := exists_node? hi
    obtain ⟨n', hn'⟩ := exists_node? (h.size_eq ▸ hi)
    rw [headerOf, headerOf, hn, hn', Option.map_some, Option.map_some,
      header_eq_of_saysSame (h.saysSame i n n' hn hn')]
  · rw [headerOf, headerOf, node?_eq_none hi, node?_eq_none (h.size_eq ▸ hi)]

theorem printLines_eq (i d : Nat) : t.printLines i d = t'.printLines i d := by
  induction i, d using printLines.induct t with
  | case1 i d hleaf =>
    rw [Tree.printLines_eq, Tree.printLines_eq t', ← h.children_eq, ← h.headerOf_eq, if_pos hleaf,
      if_pos hleaf]
  | case2 i d hinner ih =>
    rw [Tree.printLines_eq, Tree.printLines_eq t', ← h.children_eq, ← h.headerOf_eq,
      List.flatMap_congr ih]

theorem print_eq : t.print = t'.print := by
  rw [print, print, h.size_eq, h.printLines_eq]

end Alike

/-- A printed tree in document order tells the tree. -/
theorem Nested.alike_of_print_eq (h : t.Nested) (h' : t'.Nested) (hprint : t.print = t'.print) :
    t.Alike t' := by
  have hlines := congrArg (fun text => (textLines text).filter showsNode) hprint
  simp only [h.filter_textLines_print, h'.filter_textLines_print] at hlines
  have hsize : t.size = t'.size := by simpa using congrArg List.length hlines
  have hline : ∀ i < t.size, t.nodeLine i = t'.nodeLine i := by
    rw [← hsize] at hlines
    exact fun i hi => List.map_inj_left.1 hlines i (List.mem_range.2 hi)
  have hnode : ∀ i n n', t.node? i = some n → t'.node? i = some n' →
      t.depth i = t'.depth i ∧ n.SaysSame n' :=
    fun i n n' hn hn' => nodeLine_inj hn hn' (hline i (lt_size_of_node? hn))
  have hdepth : ∀ i < t.size, t.depth i = t'.depth i := by
    intro i hi
    obtain ⟨n, hn⟩ := exists_node? hi
    obtain ⟨n', hn'⟩ := exists_node? (hsize ▸ hi)
    exact (hnode i n n' hn hn').1
  have hparent := h.parent?_eq_of_depth_eq h' hsize hdepth
  exact {
    size_eq := hsize
    parent?_eq := hparent
    children_eq := h.children_eq_of_parent?_eq h'.toLinked hsize hparent
    saysSame := fun i n n' hn hn' => (hnode i n n' hn hn').2 }

end Tree

/-- Two trees of dumps are printed alike exactly if they have the same nodes in the same
places. -/
theorem print_eq_print_iff {query query' : String} {lines lines' : List String} {t t' : Tree}
    (h : Tree.ofDump query lines = .ok t) (h' : Tree.ofDump query' lines' = .ok t') :
    t.print = t'.print ↔ t.Alike t' :=
  ⟨(Tree.nested_ofDump h).alike_of_print_eq (Tree.nested_ofDump h'), fun hlike => hlike.print_eq⟩

/-- The indent of the root does not matter. A literal whose text reads like an alias does not
look like a literal with an alias. -/
theorem print_eq_print_iff_alias :
    let query := "select '' b"
    ∃ t t' s,
      Tree.ofDump query ["SelectQuery (children 1)", " Literal '\" alias=\"b'"] = .ok t ∧
      Tree.ofDump query ["  SelectQuery (children 1)", "   Literal '\" alias=\"b'"] = .ok t' ∧
      Tree.ofDump query ["SelectQuery (children 1)", " Literal '' (alias b)"] = .ok s ∧
      t.indent? 0 ≠ t'.indent? 0 ∧ t.Alike t' ∧ t.print ≠ s.print ∧ ¬ t.Alike s := by
  intro query
  have hrun : (match Tree.ofDump query ["SelectQuery (children 1)", " Literal '\" alias=\"b'"],
        Tree.ofDump query ["  SelectQuery (children 1)", "   Literal '\" alias=\"b'"],
        Tree.ofDump query ["SelectQuery (children 1)", " Literal '' (alias b)"] with
      | .ok t, .ok t', .ok s =>
          t.indent? 0 != t'.indent? 0 && t.print == t'.print && t.print != s.print
      | _, _, _ => false) = true := by decide +kernel
  split at hrun
  · rename_i t t' s h h' hs
    simp only [Bool.and_eq_true, bne_iff_ne, beq_iff_eq] at hrun
    obtain ⟨⟨hindent, hprint⟩, hother⟩ := hrun
    exact ⟨t, t', s, h, h', hs, hindent, (print_eq_print_iff h h').1 hprint, hother,
      fun halike => hother ((print_eq_print_iff h hs).2 halike)⟩
  · cases hrun

end DdlOrder
