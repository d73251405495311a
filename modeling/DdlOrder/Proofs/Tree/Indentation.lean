import DdlOrder.Proofs.Tree.Shape
import Mathlib.Data.List.Induction

/-!
# Which dumps have a tree

A dump has a tree exactly if it has a line that describes a node, each such line can be
read, and behind the first one each is deeper than the first and at most one level deeper
than the line before it (`Tree.WellIndented`). Then the node of a line belongs below that of
the last line before it that is one level up (`Tree.Encloses`). Otherwise the first line
that breaks the rule decides the error (`Tree.fault`).

* `Tree.Growing.readLine_isOk_iff`, `Tree.Growing.readLine_eq_error`: what one line needs,
  and the error without it;
* `Tree.Growing.foldlM_isOk_iff`, `Tree.Growing.foldlM_eq_error`: the same of all lines;
* `Tree.ofDump_isOk_iff`: what the whole dump needs;
* `Tree.parent?_lineNodes`: where the node of a line belongs;
* `ofDump_accepts_well_indented`: all of this of the whole dump.
-/

namespace DdlOrder

namespace Tree

/-! ## Lines that follow others -/

/-- The line can be read and, if others come before it, is deeper than the first of them and
at most one level deeper than the last. -/
def Fits (before : List String) (line : String) : Prop :=
  (∃ n, Line.parse line = .ok n) ∧
    ∀ first ∈ before.head?, ∀ last ∈ before.getLast?,
      Line.indent first < Line.indent line ∧ Line.indent line ≤ Line.indent last + 1

/-- All lines can be read, and those behind the first are deeper than it and at most one
level deeper than the line before. -/
structure WellIndented (lines : List String) : Prop where
  readable : ∀ line ∈ lines, ∃ n, Line.parse line = .ok n
  indents : ∀ i, (h : i + 1 < lines.length) →
    Line.indent lines[0] < Line.indent lines[i + 1] ∧
      Line.indent lines[i + 1] ≤ Line.indent lines[i] + 1

/-- What is wrong with a line that does not fit behind the lines before it. -/
def fault (before : List String) (line : String) : Error :=
  if Line.parse? line = none then .unrecognizedLine line
  else
    let level := (before.getLast?.map Line.indent).getD 0
    if level + 1 < Line.indent line then .indentJump line (Line.indent line - level)
    else .noEnclosingNode line (Line.indent line)

/-- A line that can be read is at fault for its place in the tree alone. -/
theorem kind_fault (before : List String) (line : String) :
    (fault before line).kind = if Line.parse? line = none then .line else .nesting := by
  unfold fault
  split
  · rfl
  · dsimp only
    split <;> rfl

variable {lines before : List String} {line : String}

theorem wellIndented_nil : WellIndented [] where
  readable _ h := by cases h
  indents _ h := by cases h

/-- Lines are well indented as long as each fits behind those before it. -/
theorem wellIndented_concat :
    WellIndented (before ++ [line]) ↔ WellIndented before ∧ Fits before line := by
  constructor
  · intro h
    refine ⟨⟨fun l hl => h.readable l (List.mem_append_left _ hl), fun i hi => ?_⟩,
      h.readable line (List.mem_append_right _ List.mem_cons_self), fun first hfirst last hlast => ?_⟩
    · have := h.indents i (by rw [List.length_append]; omega)
      rwa [List.getElem_append_left (Nat.lt_of_le_of_lt (Nat.zero_le _) hi),
        List.getElem_append_left hi, List.getElem_append_left (Nat.lt_of_succ_lt hi)] at this
    · rw [List.head?_eq_getElem?] at hfirst
      rw [List.getLast?_eq_getElem?] at hlast
      obtain ⟨hpos, rfl⟩ := List.getElem?_eq_some_iff.1 hfirst
      obtain ⟨hprev, rfl⟩ := List.getElem?_eq_some_iff.1 hlast
      have := h.indents (before.length - 1) (by rw [List.length_append, List.length_singleton]; omega)
      simpa only [Nat.sub_add_cancel hpos, List.getElem_append_left hpos,
        List.getElem_append_left hprev, List.getElem_concat_length] using this
  · rintro ⟨h, hreadable, hfits⟩
    refine ⟨fun l hl => ?_, fun i hi => ?_⟩
    · rcases List.mem_append.1 hl with hl | hl
      · exact h.readable l hl
      · rwa [List.mem_singleton.1 hl]
    · rw [List.length_append, List.length_singleton, Nat.add_lt_add_iff_right] at hi
      have hpos : 0 < before.length := Nat.lt_of_le_of_lt (Nat.zero_le _) hi
      rw [List.getElem_append_left hpos, List.getElem_append_left hi]
      rcases Nat.eq_or_lt_of_le (Nat.succ_le_of_lt hi) with hlen | hlt
      · rw [List.getElem_concat_length hlen]
        refine hfits _ ?_ _ ?_
        · rw [List.head?_eq_getElem?, List.getElem?_eq_getElem hpos]
          rfl
        · rw [List.getLast?_eq_getElem?, ← hlen, Nat.succ_sub_one, List.getElem?_eq_getElem hi]
          rfl
      · rw [List.getElem_append_left hlt]
        exact h.indents i hlt

/-- Well indented lines stay so without those before and behind them, as long as the first that
is left stands above the others. -/
theorem WellIndented.of_infix {after rest : List String} {first : String}
    (h : WellIndented (before ++ (first :: rest ++ after)))
    (hdeeper : ∀ line ∈ rest, Line.indent first < Line.indent line) :
    WellIndented (first :: rest) where
  readable line hline :=
    h.readable line (List.mem_append_right before (List.mem_append_left after hline))
  indents i hi := by
    have hget : ∀ k, (hk : k < (first :: rest).length) →
        (before ++ (first :: rest ++ after))[before.length + k]? = some (first :: rest)[k] := by
      intro k hk
      rw [List.getElem?_append_right (Nat.le_add_right _ _), Nat.add_sub_cancel_left,
        List.getElem?_append_left hk, List.getElem?_eq_getElem hk]
    obtain ⟨hlast, hlastEq⟩ := List.getElem?_eq_some_iff.1 (hget i (Nat.lt_of_succ_lt hi))
    obtain ⟨hnext, hnextEq⟩ := List.getElem?_eq_some_iff.1 (hget (i + 1) hi)
    have hnear := (h.indents (before.length + i) hnext).2
    rw [hlastEq] at hnear
    exact ⟨hdeeper _ (List.getElem_mem _), hnextEq ▸ hnear⟩

namespace Growing

variable {target : Option (List Char)} {e : Error}

/-! ## Reading one line -/

theorem After.parentFor_isOk_iff {g : Growing} {n : Node} {first last : String}
    (h : After before g.tree g.last) (hfirst : before.head? = some first)
    (hlast : before.getLast? = some last) :
    (∃ p, g.parentFor n = .ok p) ↔
      Line.indent first < n.indent ∧ n.indent ≤ Line.indent last + 1 := by
  refine ⟨fun ⟨p, hp⟩ => ?_, fun ⟨hroot, hnear⟩ => h.exists_parentFor hfirst hlast hroot hnear⟩
  constructor
  · by_contra hroot
    cases (h.parentFor_eq_noEnclosingNode hfirst hlast (Nat.le_of_not_lt hroot)).symm.trans hp
  · by_contra hnear
    cases (h.parentFor_eq_indentJump hlast (Nat.lt_of_not_le hnear)).symm.trans hp

theorem After.parentFor_eq_fault {g : Growing} {n : Node} (h : After before g.tree g.last)
    (hn : Line.parse line = .ok n) (he : g.parentFor n = .error e) : e = fault before line := by
  obtain ⟨first, hfirst, -⟩ := h.exists_first
  obtain ⟨last, hlast, -⟩ := h.exists_last
  have hindent := Line.indent_of_parse hn
  have hraw := Line.raw_of_parse hn
  rw [fault, if_neg (by rw [Line.parse_eq_ok_iff.1 hn]; exact Option.some_ne_none n), hlast]
  simp only [Option.map_some, Option.getD_some]
  by_cases hfar : Line.indent last + 1 < n.indent
  · rw [h.parentFor_eq_indentJump hlast hfar, hraw, hindent] at he
    rw [if_pos (hindent ▸ hfar)]
    exact (Except.error.inj he).symm
  · by_cases hroot : n.indent ≤ Line.indent first
    · rw [h.parentFor_eq_noEnclosingNode hfirst hlast hroot, hraw, hindent] at he
      rw [if_neg (hindent ▸ hfar)]
      exact (Except.error.inj he).symm
    · obtain ⟨p, hp⟩ := h.exists_parentFor hfirst hlast (Nat.lt_of_not_le hroot)
        (Nat.le_of_not_lt hfar)
      cases hp.symm.trans he

theorem add_isOk_iff {g : Growing} {n : Node} :
    (∃ g', g.add target n = .ok g') ↔ ∃ p, g.parentFor n = .ok p := by
  simp only [add_eq_ok_iff]
  constructor
  · rintro ⟨_, p, hp, -⟩
    exact ⟨p, hp⟩
  · rintro ⟨p, hp⟩
    exact ⟨_, p, hp, by simp, rfl⟩

theorem add_eq_error_iff {g : Growing} {n : Node} :
    g.add target n = .error e ↔ g.parentFor n = .error e := by
  unfold add
  cases g.parentFor n <;> simp

theorem readLine_isOk_iff {g : Option Growing} (h : Reads before g) :
    (∃ g', readLine target g line = .ok g') ↔ Fits before line := by
  cases g with
  | none =>
    cases h
    simp only [readLine_none_eq_ok_iff]
    exact ⟨fun ⟨_, n, hn, _⟩ => ⟨⟨n, hn⟩, fun _ hfirst => by cases hfirst⟩,
      fun ⟨⟨n, hn⟩, _⟩ => ⟨_, n, hn, rfl⟩⟩
  | some g =>
    obtain ⟨first, hfirst, -⟩ := After.exists_first h
    obtain ⟨last, hlast, -⟩ := After.exists_last h
    have hadd : ∀ n, Line.parse line = .ok n → ((∃ g₁, g.add target n = .ok g₁) ↔
        Line.indent first < Line.indent line ∧ Line.indent line ≤ Line.indent last + 1) :=
      fun n hn => by
        rw [add_isOk_iff, After.parentFor_isOk_iff h hfirst hlast, Line.indent_of_parse hn]
    simp only [readLine_some_eq_ok_iff, Fits, hfirst, hlast, Option.mem_some_iff, forall_eq']
    constructor
    · rintro ⟨_, n, hn, g₁, hg₁, -⟩
      exact ⟨⟨n, hn⟩, (hadd n hn).1 ⟨g₁, hg₁⟩⟩
    · rintro ⟨⟨n, hn⟩, hfits⟩
      obtain ⟨g₁, hg₁⟩ := (hadd n hn).2 hfits
      exact ⟨_, n, hn, g₁, hg₁, rfl⟩

theorem readLine_eq_error {g : Option Growing} (h : Reads before g)
    (he : readLine target g line = .error e) : e = fault before line := by
  rw [readLine] at he
  rcases bind_eq_error_iff.1 he with hparse | ⟨n, hn, he⟩
  · obtain ⟨hnone, rfl⟩ := Line.parse_eq_error_iff.1 hparse
    exact (if_pos hnone).symm
  · cases g with
    | none => cases he
    | some g =>
      rcases bind_eq_error_iff.1 he with hadd | ⟨_, -, he⟩
      · exact After.parentFor_eq_fault h hn (add_eq_error_iff.1 hadd)
      · cases he

/-! ## Reading all lines -/

theorem foldlM_isOk_iff (hlines : ∀ line ∈ lines, line ≠ "") :
    (∃ g, lines.foldlM (readLine target) none = .ok g) ↔ WellIndented lines := by
  induction lines using List.reverseRecOn with
  | nil => exact iff_of_true ⟨none, rfl⟩ wellIndented_nil
  | append_singleton lines line ih =>
    have hbefore : ∀ l ∈ lines, l ≠ "" := fun l hl => hlines l (List.mem_append_left _ hl)
    have hreads : ∀ g, lines.foldlM (readLine target) none = .ok g → Reads lines g :=
      fun g hg => Reads.of_foldlM hbefore hg
    rw [wellIndented_concat, ← ih hbefore, List.foldlM_append]
    simp only [bind_eq_ok_iff, List.foldlM_cons, List.foldlM_nil]
    constructor
    · rintro ⟨_, g, hg, g₁, hline, -⟩
      exact ⟨⟨g, hg⟩, (readLine_isOk_iff (hreads g hg)).1 ⟨g₁, hline⟩⟩
    · rintro ⟨⟨g, hg⟩, hfits⟩
      obtain ⟨g₁, hline⟩ := (readLine_isOk_iff (hreads g hg)).2 hfits
      exact ⟨g₁, g, hg, g₁, hline, rfl⟩

/-- The error is the fault of the first line that does not fit. -/
theorem foldlM_eq_error (hlines : ∀ line ∈ lines, line ≠ "")
    (he : lines.foldlM (readLine target) none = .error e) :
    ∃ before line after, lines = before ++ line :: after ∧ WellIndented before ∧
      ¬ Fits before line ∧ e = fault before line := by
  induction lines using List.reverseRecOn with
  | nil => cases he
  | append_singleton lines line ih =>
    have hbefore : ∀ l ∈ lines, l ≠ "" := fun l hl => hlines l (List.mem_append_left _ hl)
    rw [List.foldlM_append] at he
    rcases bind_eq_error_iff.1 he with he | ⟨g, hg, he⟩
    · obtain ⟨before, first, after, rfl, hrest⟩ := ih hbefore he
      exact ⟨before, first, after ++ [line], by simp, hrest⟩
    · have hreads : Reads lines g := Reads.of_foldlM hbefore hg
      rw [List.foldlM_cons] at he
      rcases bind_eq_error_iff.1 he with he | ⟨_, -, he⟩
      · refine ⟨lines, line, [], rfl, (foldlM_isOk_iff hbefore).1 ⟨g, hg⟩, fun hfits => ?_,
          readLine_eq_error hreads he⟩
        obtain ⟨g₁, hline⟩ : ∃ g₁, readLine target g line = .ok g₁ :=
          (readLine_isOk_iff hreads).2 hfits
        cases hline.symm.trans he
      · cases he

end Growing

/-! ## Which node a line belongs below -/

/-- The nodes that were read from lines, as the walk meets them. -/
def lineNodes (t : Tree) : List Nat := t.walk.filter fun i => (t.line? i).isSome

/-- How deep the line at a place stands. -/
def level? (lines : List String) (i : Nat) : Option Nat := lines[i]?.map Line.indent

/-- Of the lines before that at `i`, the one at `j` is the last that stands one level above. -/
structure Encloses (lines : List String) (j i : Nat) : Prop where
  lt : j < i
  level : ∃ d, level? lines j = some d ∧ level? lines i = some (d + 1)
  latest : ∀ k d, j < k → k < i → level? lines k = some d → level? lines i ≠ some (d + 1)

theorem lt_iff_of_pairwise_lt {l : List Nat} (h : l.Pairwise (· < ·)) {i j a b : Nat}
    (ha : l[i]? = some a) (hb : l[j]? = some b) : i < j ↔ a < b := by
  obtain ⟨hi, rfl⟩ := List.getElem?_eq_some_iff.1 ha
  obtain ⟨hj, rfl⟩ := List.getElem?_eq_some_iff.1 hb
  have hlt := List.pairwise_iff_getElem.1 h
  rcases Nat.lt_trichotomy i j with hij | rfl | hij
  · exact iff_of_true hij (hlt i j hi hj hij)
  · exact iff_of_false (Nat.lt_irrefl _) (Nat.lt_irrefl _)
  · exact iff_of_false (Nat.lt_asymm hij) (Nat.lt_asymm (hlt j i hj hi hij))

section Dump

variable {query : String} {t : Tree} (h : ofDump query lines = .ok t)

include h

/-- The nodes that were read from lines show the kept lines one by one. -/
theorem map_line?_lineNodes : t.lineNodes.map t.line? = (keptLines lines).map some := by
  rw [← filterMap_line?_walk h, List.map_filterMap_some_eq_filter_map_isSome, List.filter_map]
  rfl

theorem pairwise_lineNodes : t.lineNodes.Pairwise (· < ·) := by
  rw [lineNodes, (nested_ofDump h).walk_eq_range]
  exact List.pairwise_lt_range.filter _

theorem mem_lineNodes_iff {a : Nat} : a ∈ t.lineNodes ↔ (t.line? a).isSome := by
  rw [lineNodes, List.mem_filter, (nested_ofDump h).mem_walk_iff]
  exact and_iff_right_of_imp lt_size_of_line?

/-- A line's node stands as deep as the line. -/
theorem indent?_of_line? {a : Nat} {line : String} (ha : t.line? a = some line) :
    t.indent? a = some (Line.indent line) := by
  obtain ⟨n, hn, hline⟩ := Option.bind_eq_some_iff.1 ha
  obtain ⟨ns, hns, hnodes⟩ := nodes_ofDump h
  have hmem : n ∈ t.nodes := List.mem_of_getElem? ((getElem?_nodes t a).trans hn)
  rw [hnodes, List.mem_flatMap] at hmem
  obtain ⟨m, hm, hnm⟩ := hmem
  obtain ⟨line', -, hparse⟩ := exists_of_mem_of_forall₂ (mapM_eq_ok_iff.1 hns).flip hm
  have hnm : n = m := by
    refine (List.mem_cons.1 hnm).resolve_right fun hn => ?_
    rw [Growing.line?_of_mem_targetNodes hn] at hline
    cases hline
  subst hnm
  have hraw := Line.raw_of_parse hparse
  rw [Node.line?, Option.ite_none_left_eq_some, Option.some.injEq, hraw] at hline
  rw [indent?, hn, Option.map_some, Line.indent_of_parse hparse, hline.2]

theorem level?_keptLines {k a : Nat} (ha : t.lineNodes[k]? = some a) :
    level? (keptLines lines) k = t.indent? a := by
  have hlines := congrArg (·[k]?) (map_line?_lineNodes h)
  simp only [List.getElem?_map, ha, Option.map_some] at hlines
  obtain ⟨line, hline, hnode⟩ := Option.map_eq_some_iff.1 hlines.symm
  rw [level?, hline, Option.map_some, indent?_of_line? h hnode.symm]

/-- The node of a line belongs below that of the last line before it that stands one level
above. What stands between the two is below the latter's node, and so at least as deep. -/
theorem parent?_lineNodes {i : Nat} (hpos : 0 < i) (hi : i < (keptLines lines).length) :
    ∃ j, Encloses (keptLines lines) j i ∧
      ∃ a b, t.lineNodes[i]? = some a ∧ t.lineNodes[j]? = some b ∧ t.parent? a = some b := by
  have hnested := nested_ofDump h
  have hsorted := pairwise_lineNodes h
  have hlen : t.lineNodes.length = (keptLines lines).length := by
    simpa using congrArg List.length (map_line?_lineNodes h)
  obtain ⟨a, ha⟩ : ∃ a, t.lineNodes[i]? = some a := ⟨_, List.getElem?_eq_getElem (hlen ▸ hi)⟩
  have hline := (mem_lineNodes_iff h).1 (List.mem_of_getElem? ha)
  have hafter : 0 < a := by
    have hfirst : 0 < t.lineNodes.length := by omega
    exact Nat.lt_of_le_of_lt (Nat.zero_le _)
      ((lt_iff_of_pairwise_lt hsorted (List.getElem?_eq_getElem hfirst) ha).1 hpos)
  have hsize : a < t.size := hnested.mem_walk_iff.1 (List.mem_filter.1 (List.mem_of_getElem? ha)).1
  obtain ⟨b, hb⟩ := hnested.exists_parent hafter hsize
  obtain ⟨j, hj⟩ := List.mem_iff_getElem?.1
    ((mem_lineNodes_iff h).2 (hnested.line?_isSome hb hline))
  obtain ⟨d, hd, hd'⟩ := hnested.exists_indent?_parent hb
  refine ⟨j, ⟨?_, ⟨d, ?_, ?_⟩, fun k e hjk hki hk hlevel => ?_⟩, a, b, ha, hj, hb⟩
  · exact (lt_iff_of_pairwise_lt hsorted hj ha).2 (parent?_lt hb)
  · rw [level?_keptLines h hj, hd]
  · rw [level?_keptLines h ha, hd']
  · obtain ⟨c, hc⟩ : ∃ c, t.lineNodes[k]? = some c :=
      ⟨_, List.getElem?_eq_getElem (by omega)⟩
    have hbc := (lt_iff_of_pairwise_lt hsorted hj hc).1 hjk
    have hca := (lt_iff_of_pairwise_lt hsorted hc ha).1 hki
    have hbelow := hnested.mem_ancestors_of_le (mem_ancestors.2 ⟨b, hb, .inl rfl⟩) hbc
      (Nat.le_of_lt hca)
    rw [level?_keptLines h hc] at hk
    rw [level?_keptLines h ha, hd', Option.some.injEq] at hlevel
    have := hnested.indent?_lt_of_mem_ancestors hbelow hd hk
    omega

end Dump

/-- A dump has a tree exactly if some line is kept and the kept lines are well indented. -/
theorem ofDump_isOk_iff {query : String} :
    (∃ t, ofDump query lines = .ok t) ↔
      keptLines lines ≠ [] ∧ WellIndented (keptLines lines) := by
  have hlines : ∀ line ∈ keptLines lines, line ≠ "" := fun _ => ne_empty_of_mem_keptLines
  have hreads : ∀ g, (keptLines lines).foldlM (Growing.readLine (viewTarget? query)) none = .ok g →
      Growing.Reads (keptLines lines) g := fun g hg => Growing.Reads.of_foldlM hlines hg
  constructor
  · rintro ⟨t, ht⟩
    obtain ⟨g, hg, -⟩ := ofDump_eq_ok_iff.1 ht
    exact ⟨(hreads _ hg).ne_nil, (Growing.foldlM_isOk_iff hlines).1 ⟨_, hg⟩⟩
  · rintro ⟨hne, hindented⟩
    obtain ⟨g, hg⟩ : ∃ g, (keptLines lines).foldlM (Growing.readLine (viewTarget? query)) none =
        .ok g := (Growing.foldlM_isOk_iff hlines).2 hindented
    cases g with
    | none => exact absurd (hreads none hg) hne
    | some g => exact ⟨g.tree, ofDump_eq_ok_iff.2 ⟨g, hg, rfl⟩⟩

theorem ofDump_eq_error_iff {query : String} {e : Error} :
    ofDump query lines = .error e ↔
      (keptLines lines).foldlM (Growing.readLine (viewTarget? query)) none = .error e ∨
        (keptLines lines).foldlM (Growing.readLine (viewTarget? query)) none = .ok none ∧
          e = .emptyDump := by
  rw [ofDump, bind_eq_error_iff]
  refine or_congr_right ?_
  constructor
  · rintro ⟨g, hg, he⟩
    cases g with
    | none =>
      cases he
      exact ⟨hg, rfl⟩
    | some g => cases he
  · rintro ⟨hg, rfl⟩
    exact ⟨none, hg, rfl⟩

theorem kind_of_ofDump_eq_error {query : String} {e : Error}
    (h : ofDump query lines = .error e) : e.kind = .line ∨ e.kind = .nesting := by
  rcases ofDump_eq_error_iff.1 h with h | ⟨-, rfl⟩
  · obtain ⟨before, line, -, -, -, -, rfl⟩ :=
      Growing.foldlM_eq_error (fun _ => ne_empty_of_mem_keptLines) h
    rw [kind_fault]
    split
    · exact .inl rfl
    · exact .inr rfl
  · exact .inr rfl

end Tree

/-- A dump has a tree exactly if some line is kept and the kept lines are well indented. Then
the node of each line but the first belongs below that of the last line before it that
stands one level above. Otherwise the first line that does not fit behind those before it
decides the error: it cannot be read, or there is no place for it. -/
theorem ofDump_accepts_well_indented (query : String) (lines : List String) :
    ((∃ t, Tree.ofDump query lines = .ok t) ↔
      Tree.keptLines lines ≠ [] ∧ Tree.WellIndented (Tree.keptLines lines)) ∧
      (∀ t, Tree.ofDump query lines = .ok t →
        t.lineNodes.map t.line? = (Tree.keptLines lines).map some ∧
          ∀ i, 0 < i → i < (Tree.keptLines lines).length →
            ∃ j, Tree.Encloses (Tree.keptLines lines) j i ∧
              ∃ a b, t.lineNodes[i]? = some a ∧ t.lineNodes[j]? = some b ∧ t.parent? a = some b) ∧
      ∀ e, Tree.ofDump query lines = .error e →
        (Tree.keptLines lines = [] ∧ e = .emptyDump ∧ e.kind = .nesting) ∨
          ∃ before line after, Tree.keptLines lines = before ++ line :: after ∧
            Tree.WellIndented before ∧ ¬ Tree.Fits before line ∧ e = Tree.fault before line ∧
            (Line.parse? line = none → e = .unrecognizedLine line) ∧
            (Line.parse? line ≠ none → e.kind = .nesting) := by
  have hlines : ∀ line ∈ Tree.keptLines lines, line ≠ "" :=
    fun _ => Tree.ne_empty_of_mem_keptLines
  refine ⟨Tree.ofDump_isOk_iff, fun t ht =>
    ⟨Tree.map_line?_lineNodes ht, fun i => Tree.parent?_lineNodes ht⟩, fun e he => ?_⟩
  rcases Tree.ofDump_eq_error_iff.1 he with he | ⟨hg, rfl⟩
  · obtain ⟨before, line, after, hkept, hindented, hfits, rfl⟩ :=
      Tree.Growing.foldlM_eq_error hlines he
    refine .inr ⟨before, line, after, hkept, hindented, hfits, rfl, fun hnone => if_pos hnone,
      fun hsome => ?_⟩
    rw [Tree.kind_fault, if_neg hsome]
  · have hempty : Tree.Growing.Reads (Tree.keptLines lines) none :=
      Tree.Growing.Reads.of_foldlM hlines hg
    exact .inl ⟨hempty, rfl, rfl⟩

end DdlOrder
