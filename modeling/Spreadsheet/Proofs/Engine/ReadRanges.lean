import Spreadsheet.Engine.Basic
import Spreadsheet.Proofs.Formula.Evaluation
import Spreadsheet.Proofs.Formula.Substitution
import Spreadsheet.Proofs.Formula.WellFormed
import Spreadsheet.Proofs.Graph.Histories
import Spreadsheet.Proofs.Store.Outcomes

-- The ranges that a formula reads, when it is evaluated and in a graph. Each is one of its
-- references on a sheet, whatever the store answers, so the corners of none are ever reversed.

set_option autoImplicit false

namespace Spreadsheet

open Formula

-- Each of the ranges is that of a reference, on some sheet.
def OnSheets (refs : List Reference) (bound : List SheetRange) : Prop :=
  ∀ x ∈ bound, ∃ r ∈ refs, ∃ sheet, x = r.on sheet

theorem on_sheets_without (r : Reference) (rest : List Reference) (bound : List SheetRange)
    (each : OnSheets rest bound) : OnSheets (r :: rest) bound := by
  intro x member
  obtain ⟨q, inside, known⟩ := each x member
  exact ⟨q, List.mem_cons_of_mem r inside, known⟩

theorem on_sheets_with (r : Reference) (rest : List Reference) (bound : List SheetRange)
    (sheet : SheetId) (each : OnSheets rest bound) :
    OnSheets (r :: rest) (r.on sheet :: bound) :=
  List.forall_mem_cons.mpr
    ⟨⟨r, List.mem_cons_self, sheet, rfl⟩, on_sheets_without r rest bound each⟩

-- References are bound to their own ranges, whatever the store answers.
theorem bind_from_on_sheets {σ : Type} [CellStore σ] (home : SheetId)
    (workbook? : Option (Option WorkbookId)) (refs : List Reference) :
    Attempt.Yields (σ := σ) (Engine.bindFrom home workbook? refs) (OnSheets refs) := by
  induction refs generalizing workbook? with
  | nil =>
    apply yields_pure
    intro x member
    cases member
  | cons r rest ih =>
    cases named : r.sheet? with
    | none =>
      simp only [Engine.bindFrom, named]
      refine yields_bind _ _ _ _ (ih workbook?) fun bound each => ?_
      exact yields_pure _ _ (on_sheets_with r rest bound home each)
    | some name =>
      simp only [Engine.bindFrom, named]
      -- Where the workbook and the sheet come from makes no difference to what follows.
      cases workbook?
      case' some known => refine yields_bind _ _ _ _ (yields_any _) fun workbook _ => ?_
      case' none =>
        refine yields_bind _ _ _ _ (yields_any _) fun info? _ => ?_
        refine yields_bind _ _ _ _ (yields_any _) fun workbook _ => ?_
      all_goals
        cases workbook
        all_goals
          refine yields_bind _ _ _ _ (yields_any _) fun sheet? _ => ?_
          refine yields_bind _ _ _ _ (ih _) fun bound each => ?_
          cases sheet? with
          | some sheet => exact yields_pure _ _ (on_sheets_with r rest bound sheet each)
          | none => exact yields_pure _ _ (on_sheets_without r rest bound each)

-- What is read as a formula has its addresses on a sheet and its ranges from the top left to the
-- bottom right, calls functions by names in capitals, and holds no negative number. So words are
-- enough for its references, for each range that its evaluation asks for, and for each range that
-- it reads in a graph; and none of them begins after its end.
theorem parsed_references_well_formed (names : Names) (text : String) (e : Expr)
    (read : parseWith names text = .ok e) :
    e.WellFormed ∧
    (∀ r ∈ e.references, r.target.extent.Exact) ∧
    (∀ home, (e.evaluate home).Along (fun _ _ => True)
      fun q => ∀ x, q = .range x → x.range.Exact) ∧
    ∀ (σ : Type) [CellStore σ] (s t : σ) (k : Key) (bound : List SheetRange),
      (Engine.bindFrom k.sheet none e.references).Returns s bound t →
      ∀ edits : List Graph.Edit, (Graph.surviving edits)[k]? = some bound →
        ∀ x ∈ (Graph.after edits).precedentsOf k, x.range.Exact := by
  have formed := read_well_formed names text e read
  have exact := references_exact e formed
  refine ⟨formed, exact, fun home => ?_, ?_⟩
  · apply Reading.along_mono _ _ _ _ _ (references_confined e)
    rintro _ covered x rfl
    obtain ⟨r, member, covers⟩ := covered
    obtain ⟨sheet, rfl⟩ := covered_on r x covers
    exact exact r member
  · intro σ _ s t k bound returned edits kept x member
    have registered := (Graph.after_registers edits).precedents k
    rw [kept] at registered
    simp only [Graph.precedentsOf, registered, Option.map_some, Option.getD_some,
      mem_distinct] at member
    have own : OnSheets e.references bound :=
      bind_from_on_sheets k.sheet none e.references s bound t returned
    obtain ⟨r, inside, sheet, rfl⟩ := own x member
    exact exact r inside

-- A defined name for a range on another sheet, its corners crossed, beside a range of the sheet
-- itself from the top right to the bottom left.
theorem parsed_references_well_formed_across_sheets :
    let names := Names.empty.insert "Rates" "=Data!$B$5:A2"
    let rates : Reference := ⟨some "Data", .range ⟨⟨2, 1⟩, ⟨5, 2⟩⟩⟩
    let corner : Reference := ⟨none, .range ⟨⟨1, 2⟩, ⟨3, 3⟩⟩⟩
    let e : Expr := .binary .add
      (.binary .multiply (.call "SUM" [.reference rates, .reference corner]) (.number 2.0))
      (.reference ⟨none, .cell ⟨4, 4⟩⟩)
    let k : Key := ⟨⟨1⟩, ⟨1, 1⟩⟩
    let store := ((Memory.empty.addSheet ⟨1⟩ "Main").2.addSheet ⟨1⟩ "data").2
    let bound : List SheetRange := [rates.on ⟨2⟩, corner.on ⟨1⟩, .ofKey ⟨⟨1⟩, ⟨4, 4⟩⟩]
    parseWith names "=sum(rates,C1:b3)*2+(d4)" = .ok e ∧ e.WellFormed ∧
      (Engine.bindFrom k.sheet none e.references).Returns store bound store ∧
      ∀ x ∈ (Graph.after [.set k bound]).precedentsOf k, x.range.Exact := by
  intro names rates corner e k store bound
  have read : parseWith names "=sum(rates,C1:b3)*2+(d4)" = .ok e := by
    apply Expr.read_of_same
    decide +kernel
  have returned : (Engine.bindFrom k.sheet none e.references).Returns store bound store := rfl
  have kept : (Graph.surviving [.set k bound])[k]? = some bound := by
    simp [Graph.surviving, Graph.leaves]
  obtain ⟨formed, _, _, registered⟩ := parsed_references_well_formed names _ e read
  exact ⟨read, formed, returned, registered Memory store store k bound returned _ kept⟩

end Spreadsheet
