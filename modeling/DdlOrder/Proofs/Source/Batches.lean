import DdlOrder.Proofs.Result
import DdlOrder.Source

/-!
# Obtaining the statements of a batch

Where what comes of a statement does not depend on what was asked before, the statements of a
batch come to what each of them comes to alone (`result_obtainEach`), and where no statement
asks anything, nothing is asked (`requests_obtainEach`). So it makes no difference whether a
dump is carried or asked from a source that would answer with the same lines
(`orderBatch_eq_orderQueries`).
-/

namespace DdlOrder

section Each

variable {α : Type} {text : α → String} {step : List String → α → Asked Statement}

theorem result_obtainEach_cons {a : α} (h : isBlank (text a) = false)
    (step : List String → α → Asked Statement) (requests : List String) (as : List α) :
    (obtainEach text step requests (a :: as)).result =
      (step requests a).result >>= fun s =>
        (obtainEach text step (step requests a).requests as).result.map (s :: ·) := by
  rw [obtainEach, h, if_neg Bool.false_ne_true]
  cases hfirst : (step requests a).result <;> simp only [hfirst] <;> rfl

theorem result_obtainEach {as : List α} {r : α → Except Error Statement}
    (hstep : ∀ a ∈ as, isBlank (text a) = false → ∀ requests, (step requests a).result = r a)
    (requests : List String) :
    (obtainEach text step requests as).result =
      (as.filter fun a => !isBlank (text a)).mapM r := by
  induction as generalizing requests with
  | nil => rfl
  | cons a as ih =>
    obtain ⟨ha, has⟩ := List.forall_mem_cons.1 hstep
    cases hblank : isBlank (text a) with
    | true =>
      rw [obtainEach_blank hblank, List.filter_cons_of_neg (by simp [hblank]), ih has]
    | false =>
      rw [result_obtainEach_cons hblank, List.filter_cons_of_pos (by simp [hblank]), List.mapM_cons,
        ha hblank, ih has]
      rfl

theorem requests_obtainEach {as : List α}
    (hstep : ∀ a ∈ as, isBlank (text a) = false → ∀ requests, (step requests a).requests = requests)
    (requests : List String) : (obtainEach text step requests as).requests = requests := by
  induction as generalizing requests with
  | nil => rfl
  | cons a as ih =>
    obtain ⟨ha, has⟩ := List.forall_mem_cons.1 hstep
    cases hblank : isBlank (text a) with
    | true => rw [obtainEach_blank hblank, ih has]
    | false =>
      rw [obtainEach, hblank, if_neg Bool.false_ne_true]
      cases hfirst : (step requests a).result <;> simp only [hfirst, ha hblank, ih has]

end Each

/-! ## Dumps that are carried -/

variable {f : String → Except String (List String)} {m : Matching} {batch : Batch}

theorem result_fetch_ofFunction (f : String → Except String (List String)) (requests : List String)
    (query : String) :
    (fetch (.ofFunction f) requests query).result = (fetch (.ofFunction f) [] query).result := by
  unfold fetch
  split <;> rfl

theorem obtain_of_empty {entry : Batch.Entry} (h : entry.lines = []) (source : Source)
    (requests : List String) : obtain source requests entry = fetch source requests entry.query := by
  rw [obtain, h, List.isEmpty_nil, if_pos rfl]

/-- A dump that the source would answer with comes to what asking for it does. -/
theorem result_obtain {entry : Batch.Entry} (hblank : isBlank entry.query = false)
    (hcarried : entry.lines ≠ [] → f (explainRequest entry.query) = .ok entry.lines)
    (requests : List String) :
    (obtain (.ofFunction f) requests entry).result =
      (fetch (.ofFunction f) [] entry.query).result := by
  by_cases hlines : entry.lines = []
  · rw [obtain_of_empty hlines, result_fetch_ofFunction]
  · rw [obtain_carried hlines, result_fetch hblank, hcarried hlines]

/-- If a source answers with the dump that a statement carries wherever one does, carrying the
dumps or asking for all of them gives the same order or the same failure. Blank statements are
passed over, whatever dump they carry. -/
theorem orderBatch_eq_orderQueries (m : Matching)
    (hcarried : ∀ entry ∈ batch, isBlank entry.query = false → entry.lines ≠ [] →
      f (explainRequest entry.query) = .ok entry.lines) :
    (orderBatch (.ofFunction f) m batch).result =
      (orderQueries (.ofFunction f) m (batch.map (·.query))).result := by
  let alone := fun query => (fetch (.ofFunction f) [] query).result
  have hbatch : (obtainEach (·.query) (obtain (.ofFunction f)) [] batch).result =
      (batch.filter fun entry => !isBlank entry.query).mapM fun entry => alone entry.query :=
    result_obtainEach (fun entry hentry hblank =>
      result_obtain hblank (hcarried entry hentry hblank)) []
  have hqueries : (obtainEach id (fetch (.ofFunction f)) [] (batch.map (·.query))).result =
      ((batch.map (·.query)).filter fun query => !isBlank query).mapM alone :=
    result_obtainEach (fun query _ _ requests => result_fetch_ofFunction f requests query) []
  rw [List.filter_map, List.mapM_map] at hqueries
  rw [orderBatch, orderQueries, Asked.ordered, Asked.ordered, hbatch, hqueries]
  rfl

/-- A dump that is carried, one that is asked for, and a blank statement with lines that no
dump has. -/
theorem orderBatch_eq_orderQueries_mixed :
    let create := "-- the table\ncreate table t (a Int64)"
    let read := "select a from t"
    let answer := fun request =>
      if request = explainRequest create then .ok ["CreateQuery  t (children 1)"]
      else if request = explainRequest read then .ok ["SelectQuery (children 1)", " TableIdentifier t"]
      else .error "no dump"
    let batch : Batch :=
      [{ query := read }, { query := " \n", lines := ["  "] },
        { query := create, lines := ["CreateQuery  t (children 1)"] }]
    (orderBatch (.ofFunction answer) .qualified batch).result = .ok [create, read] ∧
      (orderQueries (.ofFunction answer) .qualified [read, " \n", create]).result =
        .ok [create, read] := by
  intro create read answer batch
  have hcarried : ∀ entry ∈ batch, isBlank entry.query = false → entry.lines ≠ [] →
      answer (explainRequest entry.query) = .ok entry.lines := by decide +kernel
  have horder : (orderBatch (.ofFunction answer) .qualified batch).result = .ok [create, read] := by
    decide +kernel
  exact ⟨horder, (orderBatch_eq_orderQueries .qualified hcarried).symm.trans horder⟩

end DdlOrder
