import Spreadsheet.Proofs.Engine.Requests

-- A consistent engine is determined by its inputs: the graph follows from them, on the cycles the
-- results are fixed, and off the cycles they follow along the reads. So a history leaves nothing
-- behind but the last input of every cell.

set_option autoImplicit false

namespace Spreadsheet

open Formula

theorem value_of_literal (m : Memory) (k : Key) (v : Value)
    (input : m.inputAt k = some (.value v)) : m.value k = v := by
  obtain ⟨c, found, same⟩ := Option.map_eq_some_iff.mp input
  cases c with
  | literal w =>
    obtain rfl : w = v := Input.value.inj same
    simp [Memory.value, found, Cell.value]
  | formula f => cases same

theorem value_of_blank (m : Memory) (k : Key) (input : m.inputAt k = none) :
    m.value k = .empty := by
  simp [Memory.value, Option.map_eq_none_iff.mp input]

theorem value_of_formula (names : Names) (g : Graph) (m : Memory) (k : Key) (source : String)
    (input : m.inputAt k = some (.formula source)) (settled : Settled names g m k) :
    (g.OnCycle k → m.value k = .error .circularReference) ∧
      (¬g.OnCycle k → m.value k = m.computed names k source) := by
  obtain ⟨f, found, rfl⟩ := (input_formula m k source).mp input
  have shown : m.value k = f.result := by simp [Memory.value, found, Cell.value]
  rw [shown]
  exact settled f found

-- Stores with the same inputs, in each of which a formula is settled, have the same values, if they
-- have the same ones in the other cells.
theorem settled_values (names : Names) (m n : Memory) (r : Registry) (step : InStep names m r)
    (sheets : m.sheets = n.sheets) (inputs : ∀ k, m.inputAt k = n.inputAt k)
    (each : ∀ k, m.value k = n.value k ∨
      k ∈ r.formulas ∧ Settled names r.graph m k ∧ Settled names r.graph n k) (k : Key) :
    m.value k = n.value k := by
  have looping (k : Key) (cycle : r.graph.OnCycle k) : m.value k = n.value k := by
    cases each k with
    | inl same => exact same
    | inr settled =>
      obtain ⟨known, first, second⟩ := settled
      obtain ⟨source, input, _⟩ := stored_formula names m r step k known
      rw [(value_of_formula names r.graph m k source input first).1 cycle,
        (value_of_formula names r.graph n k source (inputs k ▸ input) second).1 cycle]
  have free (k : Key) (formula : r.graph.isFormula k = true) (off : ¬r.graph.OnCycle k) :
      m.value k = n.value k := by
    refine Graph.off_cycles_induction r.graph (fun k => m.value k = n.value k)
      (fun k _ off ih => ?_) k formula off
    cases each k with
    | inl same => exact same
    | inr settled =>
      obtain ⟨known, first, second⟩ := settled
      obtain ⟨source, input, _⟩ := stored_formula names m r step k known
      rw [(value_of_formula names r.graph m k source input first).2 off,
        (value_of_formula names r.graph n k source (inputs k ▸ input) second).2 off]
      refine computed_frame names m r n step k source known input sheets fun p edge => ?_
      by_cases formula : r.graph.isFormula p = true
      · by_cases cycle : r.graph.OnCycle p
        · exact looping p cycle
        · exact ih p edge formula cycle
      · exact (each p).resolve_right fun settled =>
          formula ((is_formula_iff names m r step p).mpr settled.1)
  by_cases formula : r.graph.isFormula k = true
  · by_cases cycle : r.graph.OnCycle k
    · exact looping k cycle
    · exact free k formula cycle
  · exact (each k).resolve_right fun settled =>
      formula ((is_formula_iff names m r step k).mpr settled.1)

section Unique

variable (d e : Engine Memory) (first : Consistent d) (second : Consistent e)
  (names : d.options.names = e.options.names) (sheets : d.store.sheets = e.store.sheets)
  (inputs : ∀ k, d.store.inputAt k = e.store.inputAt k)

theorem known_iff (e : Engine Memory) (informed : Informed e) (k : Key) :
    k ∈ e.registry.formulas ↔ ∃ source, e.store.inputAt k = some (.formula source) := by
  constructor
  · intro known
    obtain ⟨source, input, _⟩ := stored_formula _ e.store e.registry informed.step k known
    exact ⟨source, input⟩
  · rintro ⟨source, input⟩
    exact informed.complete k source input

include first second names sheets inputs

theorem graphs_agree (f p : Key) :
    d.registry.graph.reads f p = e.registry.graph.reads f p := by
  have other : InStep d.options.names d.store e.registry := by
    rw [names]
    exact in_step_congr _ e.store e.registry d.store sheets.symm inputs second.step
  refine reads_unique _ d.store d.registry e.registry first.step other (fun k => ?_) f p
  simp only [known_iff d first.toInformed, known_iff e second.toInformed, inputs]

theorem values_agree (k : Key) : d.store.value k = e.store.value k := by
  have edges := graphs_agree d e first second names sheets inputs
  have cycles (k : Key) : d.registry.graph.OnCycle k ↔ e.registry.graph.OnCycle k := by
    simp only [Graph.OnCycle, Graph.DependsOn, edges]
  have other (k : Key) (unknown : k ∉ d.registry.formulas) :
      d.store.value k = e.store.value k := by
    cases input : d.store.inputAt k with
    | none => rw [value_of_blank d.store k input, value_of_blank e.store k (inputs k ▸ input)]
    | some given =>
      cases given with
      | value v =>
        rw [value_of_literal d.store k v input, value_of_literal e.store k v (inputs k ▸ input)]
      | formula source => exact absurd (first.complete k source input) unknown
  refine settled_values d.options.names d.store e.store d.registry first.step sheets inputs
    (fun k => ?_) k
  by_cases known : k ∈ d.registry.formulas
  · refine .inr ⟨known, first.settled k, fun f found => ?_⟩
    rw [cycles k, names]
    exact second.settled k f found
  · exact .inl (other k known)

end Unique

theorem history_independence (sheets : List SheetInfo) (options : Options)
    (clock other : Nat → Nat) (untimed : options.timeout? = none) (first second : List Request)
    (asciiFirst : ∀ r ∈ first, r.Ascii options.names)
    (asciiSecond : ∀ r ∈ second, r.Ascii options.names)
    (same : ∀ k, Request.lastInput first k = Request.lastInput second k) :
    ∃ d e, (Request.performAll first).Returns (Engine.blank sheets options clock) () d ∧
      (Request.performAll second).Returns (Engine.blank sheets options other) () e ∧
      (∀ k, d.store.inputAt k = Request.lastInput first k) ∧
      ∀ k, d.store.value k = e.store.value k := by
  obtain ⟨d, ranFirst, keptFirst, optionsFirst, sheetsFirst, inputsFirst⟩ :=
    blank_performed sheets options clock untimed first asciiFirst
  obtain ⟨e, ranSecond, keptSecond, optionsSecond, sheetsSecond, inputsSecond⟩ :=
    blank_performed sheets options other untimed second asciiSecond
  have names : d.options.names = e.options.names :=
    congrArg Options.names (optionsFirst.trans optionsSecond.symm)
  have inputs (k : Key) : d.store.inputAt k = e.store.inputAt k := by
    rw [inputsFirst k, inputsSecond k, same k]
  exact ⟨d, e, ranFirst, ranSecond, inputsFirst, values_agree d e keptFirst keptSecond names
    (sheetsFirst.trans sheetsSecond.symm) inputs⟩

-- One history goes through a cycle, the other writes the cells in the opposite order.
theorem history_independence_of_cycle :
    let a : Key := ⟨⟨1⟩, ⟨1, 1⟩⟩
    let b : Key := ⟨⟨1⟩, ⟨2, 1⟩⟩
    let sheets : List SheetInfo := [⟨⟨1⟩, ⟨1⟩, "Main"⟩]
    let options : Options := ⟨none, .empty⟩
    let first : List Request := [.edit (.typed a "=A2"), .edit (.typed b "=Main!A1"),
      .edit (.given b (.value (.text "x")))]
    let second : List Request :=
      [.edit (.given b (.value (.text "x"))), .edit (.typed a "=A2")]
    options.timeout? = none ∧ (∀ r ∈ first, r.Ascii options.names) ∧
      (∀ r ∈ second, r.Ascii options.names) ∧
      (∀ k, Request.lastInput first k = Request.lastInput second k) ∧
      ∃ d e, (Request.performAll first).Returns (Engine.blank sheets options id) () d ∧
        (Request.performAll second).Returns (Engine.blank sheets options id) () e ∧
        (∀ k, d.store.inputAt k = Request.lastInput first k) ∧
        ∀ k, d.store.value k = e.store.value k := by
  intro a b sheets options first second
  have asciiFirst : ∀ r ∈ first, r.Ascii options.names := by decide +kernel
  have asciiSecond : ∀ r ∈ second, r.Ascii options.names := by decide +kernel
  have same (k : Key) : Request.lastInput first k = Request.lastInput second k := by
    have apart : a ≠ b := by decide
    simp only [first, second, Request.lastInput, List.foldl_cons, List.foldl_nil,
      Request.inputAfter, Edit.key]
    by_cases here : k = b
    · simp only [here, apart.symm, if_true, if_false]
    · simp only [here, if_false]
      rfl
  exact ⟨rfl, asciiFirst, asciiSecond, same,
    history_independence sheets options id id rfl first second asciiFirst asciiSecond same⟩

end Spreadsheet
