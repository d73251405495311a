import Mathlib.Data.List.Forall2

/-!
# Results of several steps

* `bind_eq_ok_iff`, `bind_eq_error_iff`, `map_eq_ok_iff`: steps one after the other succeed
  when each does, and fail with the first that does not;
* `mapM_eq_ok_iff`, `mapM_eq_error_iff`: a step for each element of a list succeeds when all of them
  do, and fails as the first that does not;
* `foldlM_induction`: what each step of a run keeps holds at its end.
-/

namespace DdlOrder

variable {ε α β : Type}

theorem ok_bind (a : α) (f : α → Except ε β) : (Except.ok a >>= f) = f a := rfl

theorem error_bind (e : ε) (f : α → Except ε β) : (Except.error e >>= f) = .error e := rfl

theorem map_bind {γ : Type} (x : Except ε α) (f : α → Except ε β) (g : β → γ) :
    (x >>= f).map g = x >>= fun a => (f a).map g := by
  cases x <;> rfl

theorem bind_eq_ok_iff {x : Except ε α} {f : α → Except ε β} {b : β} :
    (x >>= f) = .ok b ↔ ∃ a, x = .ok a ∧ f a = .ok b := by
  cases x <;> simp [bind, Except.bind]

theorem bind_eq_error_iff {x : Except ε α} {f : α → Except ε β} {e : ε} :
    (x >>= f) = .error e ↔ x = .error e ∨ ∃ a, x = .ok a ∧ f a = .error e := by
  cases x <;> simp [bind, Except.bind]

theorem map_eq_ok_iff {x : Except ε α} {f : α → β} {b : β} :
    x.map f = .ok b ↔ ∃ a, x = .ok a ∧ f a = b := by
  cases x <;> simp [Except.map]

theorem map_eq_error_iff {x : Except ε α} {f : α → β} {e : ε} :
    x.map f = .error e ↔ x = .error e := by
  cases x <;> simp [Except.map]

theorem map_injective {f : α → β} (hf : Function.Injective f) :
    Function.Injective (Except.map f : Except ε α → Except ε β) := by
  rintro (e | a) (e' | a') h
  · cases h
    rfl
  · cases h
  · cases h
  · exact congrArg Except.ok (hf (Except.ok.inj h))

theorem pure_eq_ok_iff {a b : α} : (pure a : Except ε α) = .ok b ↔ b = a := by
  simp [pure, Except.pure, eq_comm]

theorem exists_eq_ok_of_isOk {x : Except ε α} (h : x.isOk = true) : ∃ a, x = .ok a := by
  cases x with
  | error e => cases h
  | ok a => exact ⟨a, rfl⟩

theorem mapM_eq_ok_iff {f : α → Except ε β} {as : List α} {bs : List β} :
    as.mapM f = .ok bs ↔ List.Forall₂ (fun a b => f a = .ok b) as bs := by
  induction as generalizing bs with
  | nil =>
    rw [List.mapM_nil, pure_eq_ok_iff, List.forall₂_nil_left_iff]
  | cons a as ih =>
    rw [List.mapM_cons, bind_eq_ok_iff, List.forall₂_cons_left_iff]
    refine exists_congr fun b => ?_
    rw [bind_eq_ok_iff]
    simp only [ih, pure_eq_ok_iff]
    exact ⟨fun ⟨ha, bs', has, hbs⟩ => ⟨bs', ha, has, hbs⟩, fun ⟨bs', ha, has, hbs⟩ =>
      ⟨ha, bs', has, hbs⟩⟩

theorem exists_mapM_eq_ok_iff {f : α → Except ε β} {as : List α} :
    (∃ bs, as.mapM f = .ok bs) ↔ ∀ a ∈ as, ∃ b, f a = .ok b := by
  simp only [mapM_eq_ok_iff]
  induction as with
  | nil => simp
  | cons a as ih => simp [List.forall₂_cons_left_iff, ← ih]

/-- The steps fail with the first element whose step does. -/
theorem mapM_eq_error_iff {f : α → Except ε β} {as : List α} {e : ε} :
    as.mapM f = .error e ↔ ∃ before a after, as = before ++ a :: after ∧
      (∀ b ∈ before, ∃ c, f b = .ok c) ∧ f a = .error e := by
  constructor
  · intro h
    induction as with
    | nil => cases h
    | cons a as ih =>
      rw [List.mapM_cons] at h
      rcases bind_eq_error_iff.1 h with ha | ⟨c, ha, h⟩
      · exact ⟨[], a, as, rfl, by simp, ha⟩
      · rcases bind_eq_error_iff.1 h with has | ⟨cs, -, h⟩
        · obtain ⟨before, b, after, rfl, hbefore, hb⟩ := ih has
          exact ⟨a :: before, b, after, rfl, List.forall_mem_cons.2 ⟨⟨c, ha⟩, hbefore⟩, hb⟩
        · cases h
  · rintro ⟨before, a, after, rfl, hbefore, ha⟩
    obtain ⟨cs, hcs⟩ := exists_mapM_eq_ok_iff.2 hbefore
    rw [List.mapM_append, hcs, ok_bind, List.mapM_cons, ha]
    rfl

/-- What holds at the start of a run and is kept by each step holds at its end, of all the
elements that the run went through. -/
theorem foldlM_induction {f : β → α → Except ε β} {P : List α → β → Prop} {as : List α}
    {b b' : β} (hstep : ∀ before a b b', a ∈ as → P before b → f b a = .ok b' →
      P (before ++ [a]) b') (hstart : P [] b) (hrun : as.foldlM f b = .ok b') : P as b' := by
  suffices h : ∀ before, P before b → P (before ++ as) b' from h [] hstart
  clear hstart
  induction as generalizing b with
  | nil =>
    intro before hb
    cases hrun
    rwa [List.append_nil]
  | cons a as ih =>
    intro before hb
    obtain ⟨b₁, ha, hrun⟩ := bind_eq_ok_iff.1 (List.foldlM_cons.symm.trans hrun)
    have hb₁ := hstep before a b b₁ List.mem_cons_self hb ha
    have := ih (fun before a b b' h => hstep before a b b' (List.mem_cons_of_mem _ h)) hrun _ hb₁
    rwa [List.append_assoc] at this

theorem exists_of_mem_of_forall₂ {r : α → β → Prop} {as : List α} {bs : List β}
    (h : List.Forall₂ r as bs) {a : α} (ha : a ∈ as) : ∃ b ∈ bs, r a b := by
  obtain ⟨i, hi, rfl⟩ := List.mem_iff_getElem.1 ha
  have hi' : i < bs.length := h.length_eq ▸ hi
  exact ⟨bs[i], List.getElem_mem hi', h.get hi hi'⟩

end DdlOrder
