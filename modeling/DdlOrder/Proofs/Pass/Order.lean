import DdlOrder.Pass
import DdlOrder.Proofs.Source.Batches

/-!
# The pass that orders statements

A document whose statements all carry their dumps is ordered alike by the pass `order`, which
knows no source of dumps, and as a batch for which a source could be asked
(`orderPass_eq_orderBatch`).
-/

namespace DdlOrder

/-- The statements of a batch all have a text and a dump. -/
def Batch.CarriesDumps (batch : Batch) : Prop :=
  ∀ entry ∈ batch, isBlank entry.query = false ∧ entry.lines ≠ []

namespace Batch.CarriesDumps

variable {batch : Batch}

theorem result_obtainEach (h : Batch.CarriesDumps batch) (source : Source) :
    (obtainEach (·.query) (obtain source) [] batch).result =
      batch.mapM fun entry => Statement.ofDump entry.query entry.lines := by
  have hstep : ∀ entry ∈ batch, isBlank entry.query = false → ∀ requests,
      (obtain source requests entry).result = Statement.ofDump entry.query entry.lines :=
    fun entry hentry _ requests => by rw [obtain_carried (h entry hentry).2]
  have hall : (batch.filter fun entry => !isBlank entry.query) = batch :=
    List.filter_eq_self.2 fun entry hentry => by rw [(h entry hentry).1, Bool.not_false]
  rw [DdlOrder.result_obtainEach hstep, hall]

theorem result_orderBatch (h : Batch.CarriesDumps batch) (source : Source) (m : Matching) :
    (orderBatch source m batch).result =
      (batch.mapM fun entry => Statement.ofDump entry.query entry.lines) >>= orderTexts m :=
  congrArg (·.bind (orderTexts m)) (h.result_obtainEach source)

theorem requests_orderBatch (h : Batch.CarriesDumps batch) (source : Source) (m : Matching) :
    (orderBatch source m batch).requests = [] := by
  have hstep : ∀ entry ∈ batch, isBlank entry.query = false → ∀ requests,
      (obtain source requests entry).requests = requests :=
    fun entry hentry _ requests => by rw [obtain_carried (h entry hentry).2]
  exact requests_obtainEach hstep []

end Batch.CarriesDumps

theorem Pass.find?_order : Pass.find? "order" =
    some { name := "order", help := "Order statements so dependencies run first",
           run := Pass.printOrder } := by
  simp [Pass.find?, Pass.all]

/-- If a document is refused or all its statements have a text and a dump, the pass `order`
prints the order that its batch gets, with whatever source, or fails as reading or ordering
the batch does. The source is asked nothing. -/
theorem orderPass_eq_orderBatch {input : String}
    (hcarried : ∀ batch, Batch.parse input = .ok batch → batch.CarriesDumps) (source : Source) :
    (Pass.find? "order").map (·.run input) =
        some (Batch.parse input >>= fun batch =>
          (orderBatch source .default batch).result.map Batch.print) ∧
      ∀ batch, Batch.parse input = .ok batch →
        (orderBatch source .default batch).requests = [] := by
  refine ⟨?order, fun batch hbatch => (hcarried batch hbatch).requests_orderBatch source .default⟩
  case order =>
    rw [Pass.find?_order, Option.map_some]
    refine congrArg some ?_
    cases hbatch : Batch.parse input with
    | error e => simp only [Pass.printOrder, Pass.statements, hbatch, error_bind]
    | ok batch =>
      simp only [Pass.printOrder, Pass.statements, hbatch, ok_bind,
        (hcarried batch hbatch).result_orderBatch source, map_bind]

/-- The statement that reads the table goes behind the one that creates it, and no source is
asked for a dump. -/
theorem orderPass_eq_orderBatch_two :
    let input := "statement read \x7bline \"TableIdentifier t\"\x7d\n" ++
      "statement make \x7bline \"CreateQuery  t (x)\"\x7d\n"
    let source : Source := fun _ _ => .error "unreachable"
    ∃ batch, Batch.parse input = .ok batch ∧ batch.CarriesDumps ∧
      (Pass.find? "order").map (·.run input) =
        some (.ok "statement \"make\"\nstatement \"read\"\n") ∧
      (orderBatch source .default batch).requests = [] := by
  intro input source
  let batch : Batch :=
    [{ query := "read", lines := ["TableIdentifier t"] },
      { query := "make", lines := ["CreateQuery  t (x)"] }]
  have hbatch : Batch.parse input = .ok batch := by decide +kernel
  have hcarried : batch.CarriesDumps := by
    unfold Batch.CarriesDumps
    decide +kernel
  have horder : (orderBatch source .default batch).result = .ok ["make", "read"] := by
    decide +kernel
  have hprint : Batch.print ["make", "read"] =
      "statement \"make\"\nstatement \"read\"\n" := by decide +kernel
  obtain ⟨hpass, hrequests⟩ := orderPass_eq_orderBatch
    (fun other hother => Except.ok.inj (hbatch.symm.trans hother) ▸ hcarried) source
  refine ⟨batch, hbatch, hcarried, hpass.trans ?_, hrequests batch hbatch⟩
  rw [hbatch, ← hprint]
  exact congrArg (fun result => some (Except.map Batch.print result)) horder

end DdlOrder
