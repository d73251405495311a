import Mathlib.Data.List.Forall2

/-!
# Entries of a list

Some elements of a list have an entry, and the entries make a list of their own.

* `find?_filterMap_least`, `filterMap_eq_singleton_iff`: the first and the only element with an
  entry;
* `forall₂_filterMap`: elements with an entry, and their entries;
* `interleaves_filterMap`: entries of two kinds in one list are those of each kind, each in order.
-/

namespace DdlOrder

variable {β : Type} {f : Nat → Option β} {l : List Nat} {e : β}

/-- The first entry that is wanted belongs to the least element whose entry is wanted. -/
theorem find?_filterMap_least {p : β → Bool} (hl : l.Pairwise (· < ·))
    (h : (l.filterMap f).find? p = some e) :
    ∃ j ∈ l, f j = some e ∧ ∀ k ∈ l, ∀ e', f k = some e' → p e' = true → j ≤ k := by
  induction l with
  | nil => cases h
  | cons a l ih =>
    obtain ⟨ha, hl⟩ := List.pairwise_cons.1 hl
    -- an entry of `a` that is not wanted leaves the search to the others
    have hskip : (l.filterMap f).find? p = some e → (∀ e', f a = some e' → p e' = false) →
        ∃ j ∈ a :: l, f j = some e ∧
          ∀ k ∈ a :: l, ∀ e', f k = some e' → p e' = true → j ≤ k := by
      intro h hunwanted
      obtain ⟨j, hj, hje, hleast⟩ := ih hl h
      refine ⟨j, List.mem_cons_of_mem a hj, hje, fun k hk e' hke hp => ?_⟩
      rcases List.mem_cons.1 hk with rfl | hk
      · rw [hunwanted e' hke] at hp
        cases hp
      · exact hleast k hk e' hke hp
    cases hfa : f a with
    | none =>
      rw [List.filterMap_cons_none hfa] at h
      exact hskip h fun e' he' => by cases hfa.symm.trans he'
    | some d =>
      rw [List.filterMap_cons_some hfa, List.find?_cons] at h
      cases hd : p d with
      | true =>
        rw [hd] at h
        cases h
        refine ⟨a, List.mem_cons_self, hfa, fun k hk _ _ _ => ?_⟩
        rcases List.mem_cons.1 hk with rfl | hk
        · exact Nat.le_refl _
        · exact Nat.le_of_lt (ha k hk)
      | false =>
        rw [hd] at h
        refine hskip h fun e' he' => ?_
        cases hfa.symm.trans he'
        exact hd

/-- There is a single entry if a single element has one. -/
theorem filterMap_eq_singleton_iff (hl : l.Nodup) :
    l.filterMap f = [e] ↔ ∃ j ∈ l, f j = some e ∧ ∀ k ∈ l, (f k).isSome → k = j := by
  induction l with
  | nil => simp
  | cons a l ih =>
    obtain ⟨ha, hl⟩ := List.nodup_cons.1 hl
    cases hfa : f a with
    | none =>
      rw [List.filterMap_cons_none hfa, ih hl]
      simp [hfa]
    | some d =>
      rw [List.filterMap_cons_some hfa, List.cons.injEq, List.filterMap_eq_nil_iff]
      constructor
      · rintro ⟨rfl, hnone⟩
        refine ⟨a, List.mem_cons_self, hfa, fun k hk hsome => ?_⟩
        rcases List.mem_cons.1 hk with rfl | hk
        · rfl
        · rw [hnone k hk] at hsome
          cases hsome
      · rintro ⟨j, hj, hje, honly⟩
        obtain rfl : a = j := honly a List.mem_cons_self (by rw [hfa]; rfl)
        refine ⟨Option.some.inj (hfa.symm.trans hje), fun k hk => ?_⟩
        by_contra hne
        obtain rfl := honly k (List.mem_cons_of_mem a hk) (Option.isSome_iff_ne_none.2 hne)
        exact ha hk

/-- Elements with an entry, and their entries. -/
theorem forall₂_filterMap (f : Nat → Option β) (l : List Nat) :
    List.Forall₂ (fun i e => f i = some e) (l.filter fun i => (f i).isSome) (l.filterMap f) := by
  induction l with
  | nil => exact .nil
  | cons a l ih =>
    cases hfa : f a with
    | none =>
      rw [List.filterMap_cons_none hfa, List.filter_cons_of_neg (by simp [hfa])]
      exact ih
    | some d =>
      rw [List.filterMap_cons_some hfa, List.filter_cons_of_pos (by simp [hfa])]
      exact .cons hfa ih

/-! ## Entries of two kinds -/

/-- The third list holds the elements of the first two, those of each in their order. -/
inductive Interleaves {β : Type} : List β → List β → List β → Prop where
  | nil : Interleaves [] [] []
  | left {b : β} {bs cs ds : List β} (h : Interleaves bs cs ds) : Interleaves (b :: bs) cs (b :: ds)
  | right {c : β} {bs cs ds : List β} (h : Interleaves bs cs ds) : Interleaves bs (c :: cs) (c :: ds)

theorem interleaves_filterMap {α β : Type} {f g h : α → Option β} {l : List α}
    (hone : ∀ a ∈ l, (h a = f a ∧ g a = none) ∨ (h a = g a ∧ f a = none)) :
    Interleaves (l.filterMap f) (l.filterMap g) (l.filterMap h) := by
  induction l with
  | nil => exact .nil
  | cons a l ih =>
    obtain ⟨ha, hone⟩ := List.forall_mem_cons.1 hone
    rcases ha with ⟨heq, hnone⟩ | ⟨heq, hnone⟩
    · rw [List.filterMap_cons_none hnone, List.filterMap_cons, List.filterMap_cons, heq]
      cases f a with
      | none => exact ih hone
      | some b => exact .left (ih hone)
    · rw [List.filterMap_cons_none hnone, List.filterMap_cons, List.filterMap_cons, heq]
      cases g a with
      | none => exact ih hone
      | some b => exact .right (ih hone)

end DdlOrder
