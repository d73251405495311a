import DdlOrder.Proofs.Order.Relation
import DdlOrder.Proofs.Source.Batches
import DdlOrder.Proofs.Tree.Indentation

/-!
# What a batch asks of a source

The statements of a batch that have a text are obtained one after the other. Each of them is
asked for, if it carries no dump, and parsed, and the first that fails ends the run
(`BatchRun.stopped`); only when all have been obtained are they put in order
(`BatchRun.ordered`). What a source answers may depend on all that it was asked before.

* `obtainEach_append`: statements that have been obtained leave the rest of the batch to run
  from the requests made for them;
* `exists_batchRun`: every list of statements, with every source, has a run;
* `orderBatch_eq_iff_batchRun`: ordering a batch is its run, and so is ordering texts that carry
  no dumps; a cycle is found only when all statements have been obtained.
-/

namespace DdlOrder

/-- The statements of a batch that have a text. -/
def withText (batch : Batch) : Batch := batch.filter fun entry => !isBlank entry.query

/-- What is asked for these statements: the explain text of each that carries no dump. -/
def requestsFor (entries : List Batch.Entry) : List String :=
  (entries.filter (·.lines.isEmpty)).map fun entry => explainRequest entry.query

/-- What a statement with a text comes to, given the requests made before it. -/
inductive ComesTo (source : Source) (requests : List String) (entry : Batch.Entry) :
    Except Error Statement → Prop
  /-- The dump that the statement carries is parsed. -/
  | carried (hlines : entry.lines ≠ []) :
      ComesTo source requests entry (Statement.ofDump entry.query entry.lines)
  /-- The dump that the source answers with is parsed. -/
  | answered (hlines : entry.lines = []) {lines : List String}
      (hanswer : source requests (explainRequest entry.query) = .ok lines) :
      ComesTo source requests entry (Statement.ofDump entry.query lines)
  /-- The source cannot answer. -/
  | refused (hlines : entry.lines = []) {reason : String}
      (hanswer : source requests (explainRequest entry.query) = .error reason) :
      ComesTo source requests entry (.error (.fetch reason))

/-- The statements that a list of entries comes to, each given the requests made for those
before it. -/
inductive Obtained (source : Source) : List Batch.Entry → List Statement → Prop
  | nil : Obtained source [] []
  | concat {done : List Batch.Entry} {statements : List Statement} {entry : Batch.Entry}
      {s : Statement} (hdone : Obtained source done statements)
      (hnext : ComesTo source (requestsFor done) entry (.ok s)) :
      Obtained source (done ++ [entry]) (statements ++ [s])

/-- A run over statements that have a text: what was asked, and the order or the failure that
comes of it. -/
inductive BatchRun (source : Source) (m : Matching) (entries : List Batch.Entry) :
    Asked (List String) → Prop
  /-- The statements before one were obtained, that one failed, and nothing further was asked. -/
  | stopped {done rest : List Batch.Entry} {entry : Batch.Entry} {statements : List Statement}
      {e : Error} (hentries : entries = done ++ entry :: rest)
      (hdone : Obtained source done statements)
      (hfails : ComesTo source (requestsFor done) entry (.error e))
      (hkind : e.kind = .fetch ∨ e.kind = .line ∨ e.kind = .nesting) :
      BatchRun source m entries { requests := requestsFor (done ++ [entry]), result := .error e }
  /-- All statements were obtained. -/
  | ordered {statements : List Statement} (hall : Obtained source entries statements) :
      BatchRun source m entries
        { requests := requestsFor entries, result := orderTexts m statements }

variable {source : Source} {m : Matching} {requests : List String}
  {entry : Batch.Entry} {entries done rest : List Batch.Entry} {statements : List Statement}
  {r : Except Error Statement} {asked : Asked (List String)}

theorem requestsFor_append (entries others : List Batch.Entry) :
    requestsFor (entries ++ others) = requestsFor entries ++ requestsFor others := by
  rw [requestsFor, List.filter_append, List.map_append, requestsFor, requestsFor]

/-! ## One statement -/

theorem exists_comesTo (source : Source) (requests : List String) (entry : Batch.Entry) :
    ∃ r, ComesTo source requests entry r := by
  by_cases hlines : entry.lines = []
  · cases hanswer : source requests (explainRequest entry.query) with
    | ok lines => exact ⟨_, .answered hlines hanswer⟩
    | error reason => exact ⟨_, .refused hlines hanswer⟩
  · exact ⟨_, .carried hlines⟩

/-- A statement with a text comes to one thing, and only what it lacks is asked. -/
theorem ComesTo.obtain_eq (h : ComesTo source requests entry r)
    (hblank : isBlank entry.query = false) :
    obtain source requests entry =
      { requests := requests ++ requestsFor [entry], result := r } := by
  by_cases hlines : entry.lines = []
  · have hasked : requestsFor [entry] = [explainRequest entry.query] := by
      simp [requestsFor, hlines]
    rw [obtain_of_empty hlines, fetch, hblank, if_neg Bool.false_ne_true, hasked]
    cases h with
    | carried hcarried => exact absurd hlines hcarried
    | answered _ hanswer => simp only [hanswer]
    | refused _ hanswer => simp only [hanswer]
  · have hunasked : requestsFor [entry] = [] := by simp [requestsFor, hlines]
    rw [obtain_carried hlines, hunasked, List.append_nil]
    cases h with
    | carried => rfl
    | answered hempty => exact absurd hempty hlines
    | refused hempty => exact absurd hempty hlines

theorem ComesTo.kind_of_error {e : Error} (h : ComesTo source requests entry (.error e)) :
    e.kind = .fetch ∨ e.kind = .line ∨ e.kind = .nesting := by
  have hdump : ∀ lines, Statement.ofDump entry.query lines = .error e →
      e.kind = .line ∨ e.kind = .nesting := fun lines hlines =>
    Tree.kind_of_ofDump_eq_error (map_eq_error_iff.1 hlines)
  generalize hr : Except.error e = r at h
  cases h with
  | carried hlines => exact .inr (hdump _ hr.symm)
  | answered hlines hanswer => exact .inr (hdump _ hr.symm)
  | refused hlines hanswer =>
    cases hr
    exact .inl rfl

/-! ## The statements of a batch -/

theorem obtainEach_withText (step : List String → Batch.Entry → Asked Statement)
    (requests : List String) (batch : Batch) :
    obtainEach (·.query) step requests (withText batch) =
      obtainEach (·.query) step requests batch := by
  induction batch generalizing requests with
  | nil => rfl
  | cons entry batch ih =>
    cases hblank : isBlank entry.query with
    | true =>
      rw [withText, List.filter_cons_of_neg (by simp [hblank]), obtainEach_blank hblank]
      exact ih requests
    | false =>
      rw [withText, List.filter_cons_of_pos (by simp [hblank]), obtainEach, obtainEach]
      simp only [hblank, Bool.false_eq_true, ↓reduceIte]
      cases hfirst : (step requests entry).result with
      | error e => rfl
      | ok s => simp only [← ih]; rfl

theorem blank_of_mem_withText {batch : Batch} (h : entry ∈ withText batch) :
    isBlank entry.query = false := by
  simpa using (List.mem_filter.1 h).2

/-- A statement with a text that fails is the last of the run. -/
theorem obtainEach_of_error {e : Error} (hblank : isBlank entry.query = false)
    (h : ComesTo source requests entry (.error e)) :
    obtainEach (·.query) (obtain source) requests (entry :: rest) =
      { requests := requests ++ requestsFor [entry], result := .error e } := by
  rw [obtainEach, h.obtain_eq hblank]
  simp only [hblank, Bool.false_eq_true, ↓reduceIte]

/-- What a list comes to whose first statements have been obtained. -/
def Asked.prepend (statements : List Statement) (others : Asked (List Statement)) :
    Asked (List Statement) :=
  { requests := others.requests, result := others.result.map (statements ++ ·) }

theorem Asked.prepend_nil (others : Asked (List Statement)) : others.prepend [] = others := by
  obtain ⟨requests, result⟩ := others
  cases result <;> rfl

theorem Asked.prepend_concat (statements : List Statement) (s : Statement)
    (others : Asked (List Statement)) :
    others.prepend (statements ++ [s]) = (others.prepend [s]).prepend statements := by
  obtain ⟨requests, result⟩ := others
  cases result <;> simp [Asked.prepend, Except.map]

/-- A statement with a text that is obtained stands before what the rest comes to. -/
theorem obtainEach_of_ok {s : Statement} (hblank : isBlank entry.query = false)
    (h : ComesTo source requests entry (.ok s)) (rest : List Batch.Entry) :
    obtainEach (·.query) (obtain source) requests (entry :: rest) =
      (obtainEach (·.query) (obtain source) (requests ++ requestsFor [entry]) rest).prepend [s] := by
  rw [obtainEach, h.obtain_eq hblank]
  simp only [hblank, Bool.false_eq_true, ↓reduceIte]
  rfl

/-- Statements that are obtained stand before what the rest comes to, given the requests made
for them. -/
theorem obtainEach_append (h : Obtained source done statements)
    (hblank : ∀ entry ∈ done, isBlank entry.query = false) (rest : List Batch.Entry) :
    obtainEach (·.query) (obtain source) [] (done ++ rest) =
      (obtainEach (·.query) (obtain source) (requestsFor done) rest).prepend statements := by
  induction h generalizing rest with
  | nil => exact (Asked.prepend_nil _).symm
  | concat hdone hnext ih =>
    rename_i done statements entry s
    have hbefore : ∀ entry ∈ done, isBlank entry.query = false := fun e he =>
      hblank e (List.mem_append_left _ he)
    have hentry : isBlank entry.query = false :=
      hblank entry (List.mem_append_right _ List.mem_cons_self)
    rw [List.append_assoc, List.singleton_append, ih hbefore, obtainEach_of_ok hentry hnext,
      requestsFor_append, Asked.prepend_concat]

/-! ## Runs -/

theorem exists_batchRun (source : Source) (m : Matching) (entries : List Batch.Entry) :
    ∃ asked, BatchRun source m entries asked := by
  suffices h : (∃ statements, Obtained source entries statements) ∨
      ∃ done entry rest statements e, entries = done ++ entry :: rest ∧
        Obtained source done statements ∧ ComesTo source (requestsFor done) entry (.error e) by
    rcases h with ⟨statements, hall⟩ | ⟨done, entry, rest, statements, e, hentries, hdone, hfails⟩
    · exact ⟨_, .ordered hall⟩
    · exact ⟨_, .stopped hentries hdone hfails hfails.kind_of_error⟩
  -- The last of the entries is taken up only when those before it have been obtained.
  induction entries using List.reverseRecOn with
  | nil => exact .inl ⟨[], .nil⟩
  | append_singleton entries entry ih =>
    rcases ih with ⟨statements, hall⟩ | ⟨done, failing, rest, statements, e, rfl, hdone, hfails⟩
    · obtain ⟨r, hr⟩ := exists_comesTo source (requestsFor entries) entry
      cases r with
      | ok s => exact .inl ⟨_, .concat hall hr⟩
      | error e => exact .inr ⟨entries, entry, [], statements, e, rfl, hall, hr⟩
    · exact .inr ⟨done, failing, rest ++ [entry], statements, e, by simp, hdone, hfails⟩

theorem BatchRun.orderBatch_eq {batch : Batch} (h : BatchRun source m (withText batch) asked) :
    orderBatch source m batch = asked := by
  have hblank : ∀ entry ∈ withText batch, isBlank entry.query = false := fun _ =>
    blank_of_mem_withText
  rw [orderBatch, ← obtainEach_withText]
  cases h with
  | stopped hentries hdone hfails hkind =>
    rename_i done rest entry statements e
    rw [hentries] at hblank ⊢
    obtain ⟨hbefore, hentry, -⟩ := by simpa [or_imp, forall_and] using hblank
    rw [obtainEach_append hdone hbefore, obtainEach_of_error hentry hfails, requestsFor_append]
    rfl
  | ordered hall =>
    have hrun := obtainEach_append hall hblank []
    rw [List.append_nil] at hrun
    rw [hrun]
    simp [obtainEach, Asked.prepend, Asked.ordered, Except.map, Except.bind]

theorem orderBatch_eq_iff (batch : Batch) :
    orderBatch source m batch = asked ↔ BatchRun source m (withText batch) asked := by
  refine ⟨?_, BatchRun.orderBatch_eq⟩
  rintro rfl
  obtain ⟨asked, hrun⟩ := exists_batchRun source m (withText batch)
  rwa [hrun.orderBatch_eq]

/-- Texts alone are a batch whose statements carry no dumps. -/
theorem orderQueries_eq (source : Source) (m : Matching) (queries : List String) :
    orderQueries source m queries = orderBatch source m (queries.map fun query => { query }) := by
  have heach : ∀ requests, obtainEach id (fetch source) requests queries =
      obtainEach (·.query) (obtain source) requests
        (queries.map fun query => ({ query } : Batch.Entry)) := by
    induction queries with
    | nil => exact fun _ => rfl
    | cons query queries ih =>
      intro requests
      have hnext : obtain source requests { query } = fetch source requests query :=
        obtain_of_empty rfl source requests
      rw [List.map_cons, obtainEach, obtainEach, hnext]
      simp only [ih, id]
  rw [orderQueries, orderBatch, heach]

theorem BatchRun.of_cycle {remaining : List String} (h : BatchRun source m entries asked)
    (hcycle : asked.result = .error (.cycle remaining)) :
    asked.requests = requestsFor entries ∧ ∃ statements, Obtained source entries statements := by
  cases h with
  | stopped hentries hdone hfails hkind =>
    cases hcycle
    rcases hkind with hkind | hkind | hkind <;> cases hkind
  | ordered hall => exact ⟨rfl, _, hall⟩

/-- Whatever a source answers, ordering a batch is the run over its statements that have a text,
and ordering texts is the run over those of them that are not blank, without dumps. A run ends
with a cycle only when all its statements have been obtained and asked for as far as they carry
no dump. -/
theorem orderBatch_eq_iff_batchRun (source : Source) (m : Matching) :
    (∀ (batch : Batch) (asked : Asked (List String)),
        orderBatch source m batch = asked ↔ BatchRun source m (withText batch) asked) ∧
      (∀ (queries : List String) (asked : Asked (List String)),
        orderQueries source m queries = asked ↔
          BatchRun source m (withText (queries.map fun query => { query })) asked) ∧
      ∀ entries asked remaining, BatchRun source m entries asked →
        asked.result = .error (.cycle remaining) →
        asked.requests = requestsFor entries ∧
          ∃ statements, Obtained source entries statements := by
  refine ⟨fun batch asked => orderBatch_eq_iff batch, fun queries asked => ?_, ?_⟩
  · rw [orderQueries_eq]
    exact orderBatch_eq_iff _
  · intro entries asked remaining hrun hcycle
    exact hrun.of_cycle hcycle

/-- A source that tires after one answer fails the second statement that it is asked for. -/
example :
    let source : Source := fun requests _ => if requests = [] then .ok ["Asterisk"] else .error "busy"
    let asked := orderBatch source .name
      [{ query := "a" }, { query := " ", lines := ["?"] }, { query := "b", lines := ["Asterisk"] },
        { query := "c" }, { query := "d", lines := [""] }]
    asked.requests = ["explain ast a", "explain ast c"] ∧ asked.result = .error (.fetch "busy") := by
  decide +kernel

end DdlOrder
