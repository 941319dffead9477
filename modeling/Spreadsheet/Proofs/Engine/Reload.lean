import Spreadsheet.Proofs.Engine.Requests

-- A store filled from outside. Once all its formulas are registered, every recalculation of a
-- sheet settles the formulas of the sheet and keeps those that are settled, so the sheets may
-- come in any order.

set_option autoImplicit false

namespace Spreadsheet

open Formula

theorem perform_append {σ : Type} [CellStore σ] (first second : List Request) :
    (Request.performAll (first ++ second) : Attempt (Engine σ) Unit) =
      Request.performAll first >>= fun _ => Request.performAll second := by
  induction first with
  | nil => simp only [List.nil_append, Request.performAll, pure_bind]
  | cons r rest ih => simp only [List.cons_append, Request.performAll, ih, bind_assoc]

theorem loads_ready (e : Engine Memory) (ready : Ready e) (loads : List SheetId)
    (ascii : ∀ k source, e.store.inputAt k = some (.formula source) →
      (e.compile source).AsciiSheets) :
    ∃ u, (Request.performAll (loads.map .loadSheet)).Returns e () u ∧ Ready u ∧
      u.store = e.store ∧ u.options = e.options ∧
      ∀ k source, e.store.inputAt k = some (.formula source) →
        k ∈ e.registry.formulas ∨ k.sheet ∈ loads → k ∈ u.registry.formulas := by
  induction loads generalizing e with
  | nil => exact ⟨e, returns_pure e (), ready, rfl, rfl, fun k _ _ known => by simpa using known⟩
  | cons sheet rest ih =>
    obtain ⟨count, d, loaded, kept, store, options, known⟩ :=
      Engine.load_sheet_ready e ready sheet fun k source input _ => ascii k source input
    obtain ⟨u, others, after, last, same, registered⟩ := ih d kept fun k source input => by
      rw [Engine.compile, options]
      exact ascii k source (store ▸ input)
    refine ⟨u, returns_bind _ _ e d u () () (returns_map _ _ e d count loaded) others, after,
      last.trans store, same.trans options, fun k source input reason => ?_⟩
    refine registered k source (store.symm ▸ input) ?_
    rw [known k]
    rcases reason with earlier | member
    · exact .inl (.inl earlier)
    · rcases List.mem_cons.mp member with here | later
      · exact .inl (.inr ⟨here, source, input⟩)
      · exact .inr later

theorem recalculations_settle (e : Engine Memory) (informed : Informed e)
    (sheets : List SheetId) :
    ∃ u, (Request.performAll (sheets.map .recalculateSheet)).Returns e () u ∧ Informed u ∧
      Refreshed e u ∧ ∀ k, k.sheet ∈ sheets ∨ SettledIn e k → SettledIn u k := by
  induction sheets generalizing e with
  | nil =>
    exact ⟨e, returns_pure e (), informed, ⟨rfl, rfl, fun _ => rfl⟩, fun k reason => by
      simpa using reason⟩
  | cons sheet rest ih =>
    obtain ⟨report, d, ran, kept, first, settles⟩ :=
      Engine.recalculate_sheet_informed e informed sheet
    obtain ⟨u, others, after, second, settled⟩ := ih d kept
    refine ⟨u, returns_bind _ _ e d u () () (returns_map _ _ e d report ran) others, after,
      ⟨second.options.trans first.options, second.sheets.trans first.sheets,
        fun k => (second.inputs k).trans (first.inputs k)⟩, fun k reason => ?_⟩
    refine settled k ?_
    rcases reason with member | before
    · rcases List.mem_cons.mp member with here | later
      · exact .inr (settles k (.inl here))
      · exact .inl later
    · exact .inr (settles k (.inr before))

-- The sheets to load and the sheets to recalculate are those with formulas, in any two orders.
theorem reload_repairs (m : Memory) (available : m.available = true) (options : Options)
    (clock : Nat → Nat) (untimed : options.timeout? = none)
    (ascii : ∀ (k : Key) (f : FormulaCell), m.cells[k]? = some (.formula f) →
      (Compiled.ofSource options.names f.source).AsciiSheets)
    (loads recalculations : List SheetId)
    (loaded : ∀ (k : Key) (f : FormulaCell), m.cells[k]? = some (.formula f) → k.sheet ∈ loads)
    (recalculated : ∀ (k : Key) (f : FormulaCell),
      m.cells[k]? = some (.formula f) → k.sheet ∈ recalculations) :
    ∃ e, (Request.performAll
        (loads.map .loadSheet ++ recalculations.map .recalculateSheet)).Returns
        (Engine.ofStore m options clock) () e ∧
      (∀ k, e.store.inputAt k = m.inputAt k) ∧
      (∀ k p, e.registry.graph.reads k p = true ↔ e.store.Reads options.names k p) ∧
      ∀ k, Settled options.names e.registry.graph e.store k := by
  have ready := new_engine_ready m available options clock untimed
  obtain ⟨d, performed, kept, store, same, known⟩ :=
    loads_ready _ ready loads fun k source input => by
      obtain ⟨f, found, rfl⟩ := (input_formula m k source).mp input
      exact ascii k f found
  have informed : Informed d := by
    refine ⟨kept, fun k source input => ?_⟩
    rw [store] at input
    obtain ⟨f, found, _⟩ := (input_formula m k source).mp input
    exact known k source input (.inr (loaded k f found))
  obtain ⟨e, ran, after, refreshed, settled⟩ := recalculations_settle d informed recalculations
  have inputs (k : Key) : e.store.inputAt k = m.inputAt k :=
    (refreshed.inputs k).trans (congrArg (Memory.inputAt · k) store)
  have names : e.options.names = options.names :=
    congrArg Options.names (refreshed.options.trans same)
  refine ⟨e, ?_, inputs, ?_, fun k => ?_⟩
  · rw [perform_append]
    exact returns_bind _ _ _ d e () () performed ran
  · rw [← names]
    exact reads_stored _ e.store e.registry after.step after.complete
  · rw [← names]
    refine settled_of_known e after k fun registered => ?_
    obtain ⟨source, input, _⟩ := stored_formula _ e.store e.registry after.step k registered
    obtain ⟨f, found, _⟩ := (input_formula m k source).mp (inputs k ▸ input)
    exact settled k (.inl (recalculated k f found))

-- Formulas that read one another's sheets, with results that were never right.
theorem reload_repairs_two_sheets :
    let a : Key := ⟨⟨1⟩, ⟨1, 1⟩⟩
    let b : Key := ⟨⟨2⟩, ⟨1, 1⟩⟩
    let sheets : List SheetInfo := [⟨⟨1⟩, ⟨1⟩, "Main"⟩, ⟨⟨2⟩, ⟨1⟩, "Rates"⟩]
    let stale (source : String) : Cell := .formula ⟨source, .text "stale", none, []⟩
    let m : Memory := ((⟨sheets, ∅, true⟩ : Memory).put a (stale "=Rates!A1")).put b
      (stale "=Main!A1&Main!A2")
    let options : Options := ⟨none, .empty⟩
    m.available = true ∧ options.timeout? = none ∧
      (∀ (k : Key) (f : FormulaCell), m.cells[k]? = some (.formula f) →
        (Compiled.ofSource options.names f.source).AsciiSheets ∧ k.sheet ∈ [⟨1⟩, ⟨2⟩]) ∧
      ∃ e, (Request.performAll
          ([⟨1⟩, ⟨2⟩].map .loadSheet ++ [⟨2⟩, ⟨1⟩].map .recalculateSheet)).Returns
          (Engine.ofStore m options id) () e ∧
        (∀ k, e.store.inputAt k = m.inputAt k) ∧
        (∀ k p, e.registry.graph.reads k p = true ↔ e.store.Reads options.names k p) ∧
        ∀ k, Settled options.names e.registry.graph e.store k := by
  intro a b sheets stale m options
  have stored (k : Key) (f : FormulaCell) (found : m.cells[k]? = some (.formula f)) :
      (Compiled.ofSource options.names f.source).AsciiSheets ∧ k.sheet ∈ [⟨1⟩, ⟨2⟩] := by
    have readable : (Compiled.ofSource options.names "=Rates!A1").AsciiSheets ∧
        (Compiled.ofSource options.names "=Main!A1&Main!A2").AsciiSheets := by decide +kernel
    simp only [m, Memory.put, lookup_insert] at found
    split at found
    · rename_i here
      cases found
      exact ⟨readable.2, by simp [← here, b]⟩
    · split at found
      · rename_i here
        cases found
        exact ⟨readable.1, by simp [← here, a]⟩
      · simp at found
  refine ⟨rfl, rfl, stored, reload_repairs m rfl options id rfl (fun k f found =>
    (stored k f found).1) _ _ (fun k f found => (stored k f found).2) fun k f found => ?_⟩
  have member := (stored k f found).2
  simp only [List.mem_cons, List.not_mem_nil, or_false] at member ⊢
  exact member.symm

end Spreadsheet
