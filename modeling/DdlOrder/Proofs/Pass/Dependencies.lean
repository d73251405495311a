import DdlOrder.Proofs.Batch.Sections
import DdlOrder.Proofs.Order.Relation
import DdlOrder.Proofs.Pass.Order
import DdlOrder.Proofs.Tree.Indentation

/-!
# The pass that lists dependencies

The passes `dependencies` and `order` read their input alike. What the first prints tells the
statements and which of them each has to run after, and the second uses nothing else of them
(`dependencies_determine_order`).

* `Pass.kind_of_statements_eq_error`: the ways in which an input cannot be read;
* `Pass.printDependencies_eq_ok_iff`, `Pass.printOrder_of_statements`: the two passes on an input
  that can be read.
-/

namespace DdlOrder

theorem Batch.kind_of_parse_eq_error {text : String} {e : Error} (h : Batch.parse text = .error e) :
    e.kind = .document := by
  rw [Batch.parse] at h
  split at h
  · cases h
    rfl
  · split at h
    · cases h
    · cases h
      rfl

theorem Graph.fits_parentPositions (m : Matching) (statements : List Statement) :
    Batch.Fits (statements.map (·.query)) (ofStatements m statements).parentPositions where
  length_eq := by rw [length_parentPositions, List.length_map]
  lt_length before hbefore i hi := by
    rw [List.length_map]
    exact lt_of_mem_parentPositions hbefore hi

namespace Pass

variable {input : String} {e : Error} {statements : List Statement}

/-! ## Reading the statements -/

/-- An input is no batch document, or a dump in it has a line that cannot be read or has no place,
or has no lines at all. -/
theorem kind_of_statements_eq_error (h : Pass.statements input = .error e) :
    e.kind ∈ [ErrorKind.document, .line, .nesting] := by
  rcases bind_eq_error_iff.1 h with h | ⟨batch, -, h⟩
  · rw [Batch.kind_of_parse_eq_error h]
    decide
  · obtain ⟨-, entry, -, -, -, hentry⟩ := mapM_eq_error_iff.1 h
    rcases Tree.kind_of_ofDump_eq_error (map_eq_error_iff.1 hentry) with hkind | hkind <;>
      rw [hkind] <;> decide

theorem exists_batch_of_statements (h : Pass.statements input = .ok statements) :
    ∃ batch, Batch.parse input = .ok batch ∧ batch.map (·.query) = statements.map (·.query) := by
  obtain ⟨batch, hbatch, hstatements⟩ := bind_eq_ok_iff.1 h
  refine ⟨batch, hbatch, ?_⟩
  rw [← List.forall₂_eq_eq_eq, List.forall₂_map_left_iff, List.forall₂_map_right_iff]
  exact (mapM_eq_ok_iff.1 hstatements).imp fun entry s hs => (Statement.query_ofDump hs).symm

/-- No two statements of the input have the same text. -/
def HasDistinctTexts (input : String) : Prop :=
  ∀ batch, Batch.parse input = .ok batch → (batch.map (·.query)).Nodup

theorem HasDistinctTexts.nodup (h : HasDistinctTexts input)
    (hstatements : Pass.statements input = .ok statements) : (statements.map (·.query)).Nodup := by
  obtain ⟨batch, hbatch, htexts⟩ := exists_batch_of_statements hstatements
  exact htexts ▸ h batch hbatch

/-! ## The two passes -/

theorem find?_dependencies : Pass.find? "dependencies" =
    some { name := "dependencies", help := "List the statements each statement must run after",
           run := Pass.printDependencies } := by
  simp [Pass.find?, Pass.all]

theorem printDependencies_eq_ok_iff {listing : String} :
    printDependencies input = .ok listing ↔ ∃ ss, Pass.statements input = .ok ss ∧
      Batch.printDependencies (ss.map (·.query))
        (Graph.ofStatements .default ss).parentPositions = listing :=
  map_eq_ok_iff

theorem printOrder_of_statements (h : Pass.statements input = .ok statements) :
    printOrder input = (orderTexts .default statements).map Batch.print := by
  rw [printOrder, h, ok_bind]

/-- Listing dependencies fails for want of statements, ordering also for a cycle. -/
theorem printDependencies_eq_error_iff : printDependencies input = .error e ↔
    printOrder input = .error e ∧ e.kind ∈ [ErrorKind.document, .line, .nesting] := by
  rw [printDependencies, map_eq_error_iff, printOrder, bind_eq_error_iff]
  constructor
  · exact fun h => ⟨.inl h, kind_of_statements_eq_error h⟩
  · rintro ⟨h | ⟨ss, -, h⟩, hkind⟩
    · exact h
    · rw [kind_of_orderTexts_eq_error (map_eq_error_iff.1 h)] at hkind
      exact absurd hkind (by decide)

/-- Of inputs with the same dependencies the statements have the same order, or none. -/
theorem printOrder_congr {input' listing : String} (hdistinct : HasDistinctTexts input)
    (h : printDependencies input = .ok listing) (h' : printDependencies input' = .ok listing) :
    printOrder input = printOrder input' := by
  obtain ⟨ss, hss, hlisting⟩ := printDependencies_eq_ok_iff.1 h
  obtain ⟨ss', hss', hlisting'⟩ := printDependencies_eq_ok_iff.1 h'
  obtain ⟨htexts, hparents⟩ := Batch.printDependencies_inj (hdistinct.nodup hss)
    (Graph.fits_parentPositions .default ss) (Graph.fits_parentPositions .default ss')
    (hlisting.trans hlisting'.symm)
  rw [printOrder_of_statements hss, printOrder_of_statements hss', orderTexts_congr htexts hparents]

/-- What is listed under a statement stands before it in the order. -/
theorem sublist_of_listsBefore {listing ordered p s : String}
    (h : printDependencies input = .ok listing) (hordered : printOrder input = .ok ordered)
    (hlists : Batch.ListsBefore (textLines listing) p s) :
    [Batch.statementLine p, Batch.statementLine s].Sublist (textLines ordered) := by
  obtain ⟨ss, hss, rfl⟩ := printDependencies_eq_ok_iff.1 h
  obtain ⟨texts, htexts, rfl⟩ :=
    map_eq_ok_iff.1 ((printOrder_of_statements hss).symm.trans hordered)
  obtain ⟨i, j, before, hbefore, hi, hp, hs⟩ :=
    hlists.exists_positions (Graph.fits_parentPositions .default ss)
  have htext : ∀ i : Fin ss.length, (ss.map (·.query))[i.val]? = some (ss.get i).query := by simp
  obtain ⟨hj, -⟩ := List.getElem?_eq_some_iff.1 hs
  rw [List.length_map] at hj
  rw [Graph.getElem?_parentPositions _ ⟨j, hj⟩, Option.some.injEq] at hbefore
  subst hbefore
  obtain ⟨k, hk, rfl⟩ := List.mem_map.1 hi
  cases (htext k).symm.trans hp
  cases (htext ⟨j, hj⟩).symm.trans hs
  have hedge := (Graph.mirrored_ofStatements .default ss).mem_parents.1 hk
  rw [Batch.textLines_print]
  exact (sublist_of_edge htexts hedge).map Batch.statementLine

end Pass

/-- An input that cannot be read fails in both passes alike. If no two statements of an input have
the same text, every input for which the pass `dependencies` prints the same gets the same from
the pass `order`, be it an order or the statements that wait for each other. In an order, what is
listed under a statement stands before it. -/
theorem dependencies_determine_order {dependencies order : Pass}
    (hdependencies : Pass.find? "dependencies" = some dependencies)
    (horder : Pass.find? "order" = some order) :
    (∀ input e, dependencies.run input = .error e ↔
        order.run input = .error e ∧ e.kind ∈ [ErrorKind.document, .line, .nesting]) ∧
      (∀ input input' listing, Pass.HasDistinctTexts input →
        dependencies.run input = .ok listing → dependencies.run input' = .ok listing →
        order.run input = order.run input') ∧
      ∀ input listing ordered, dependencies.run input = .ok listing →
        order.run input = .ok ordered → ∀ p s, Batch.ListsBefore (textLines listing) p s →
          [Batch.statementLine p, Batch.statementLine s].Sublist (textLines ordered) := by
  obtain rfl := Option.some.inj (Pass.find?_dependencies.symm.trans hdependencies)
  obtain rfl := Option.some.inj (Pass.find?_order.symm.trans horder)
  exact ⟨fun _ _ => Pass.printDependencies_eq_error_iff,
    fun _ _ _ hdistinct => Pass.printOrder_congr hdistinct,
    fun _ _ _ h hordered _ _ => Pass.sublist_of_listsBefore h hordered⟩

/-- Two inputs in which the second statement creates the table that the first one reads, under
different names. Both passes print the same for both. -/
theorem dependencies_determine_order_two :
    let input := "statement \"r\\n\" \x7bline \"TableIdentifier t\"\x7d\n" ++
      "statement m \x7bline \"CreateQuery  t (x)\"\x7d\n"
    let input' := "statement \"r\\n\" \x7bline \"TableIdentifier u\"\x7d\n" ++
      "statement m \x7bline \"CreateQuery  u (x)\"\x7d\n"
    let listing := "statement \"r\\n\" \x7b\n  after \"m\"\n\x7d\nstatement \"m\"\n"
    let ordered := "statement \"m\"\nstatement \"r\\n\"\n"
    ∃ dependencies order, Pass.find? "dependencies" = some dependencies ∧
      Pass.find? "order" = some order ∧
      Pass.HasDistinctTexts input ∧
      dependencies.run input = .ok listing ∧ dependencies.run input' = .ok listing ∧
      order.run input = .ok ordered ∧ order.run input' = .ok ordered ∧
      Batch.ListsBefore (textLines listing) "m" "r\n" ∧
      [Batch.statementLine "m", Batch.statementLine "r\n"].Sublist (textLines ordered) := by
  intro input input' listing ordered
  let batch (table : String) : Batch :=
    [{ query := "r\n", lines := ["TableIdentifier " ++ table] },
      { query := "m", lines := ["CreateQuery  " ++ table ++ " (x)"] }]
  have hbatch : Batch.parse input = .ok (batch "t") := by decide +kernel
  have hbatch' : Batch.parse input' = .ok (batch "u") := by decide +kernel
  have hdistinct : Pass.HasDistinctTexts input := fun other hother =>
    Except.ok.inj (hbatch.symm.trans hother) ▸ by decide
  have hlisting : Pass.printDependencies input = .ok listing := by
    rw [Pass.printDependencies, Pass.statements, hbatch]
    decide +kernel
  have hlisting' : Pass.printDependencies input' = .ok listing := by
    rw [Pass.printDependencies, Pass.statements, hbatch']
    decide +kernel
  have hordered : Pass.printOrder input = .ok ordered := by
    rw [Pass.printOrder, Pass.statements, hbatch]
    decide +kernel
  have hlists : Batch.ListsBefore (textLines listing) "m" "r\n" :=
    ⟨[], [], ["\x7d", "statement \"m\""], by decide +kernel⟩
  obtain ⟨-, hsame, hbefore⟩ :=
    dependencies_determine_order Pass.find?_dependencies Pass.find?_order
  exact ⟨_, _, Pass.find?_dependencies, Pass.find?_order, hdistinct, hlisting, hlisting', hordered,
    (hsame input input' listing hdistinct hlisting hlisting').symm.trans hordered, hlists,
    hbefore input listing ordered hlisting hordered "m" "r\n" hlists⟩

end DdlOrder
