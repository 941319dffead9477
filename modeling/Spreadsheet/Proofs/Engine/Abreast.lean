import Spreadsheet.Engine.Context
import Spreadsheet.Proofs.Store.Answers
import Spreadsheet.Proofs.Store.Outcomes

-- Evaluations side by side, over two stores and with two ways to find the sheet of a name. They
-- stay abreast while their single calls do, so what holds of the calls of a store holds of every
-- evaluation.

set_option autoImplicit false

namespace Spreadsheet

open Formula

namespace Context

-- A way to find the sheet of a name that is read on another sheet.
abbrev Naming (σ : Type) : Type := SheetId → String → Attempt (Context σ) (Option SheetId)

-- The sheets found so far.
abbrev Looked : Type := List ((SheetId × String) × Option SheetId)

section By

variable {σ : Type} [CellStore σ] (naming : Naming σ)

def answerBy (cell : Key → Attempt (Context σ) Value) (path : Path) :
    (q : Query) → Attempt (Context σ) q.Answer
  | .cell k => cell k
  | .range r => rangeWith cell path r
  | .sheet home name => naming home name

def computeBy (cell : Path → Key → Attempt (Context σ) Value) (path : Path) (k : Key) :
    Attempt (Context σ) Value := do
  modify fun c => { c with pending := c.pending.erase k }
  if (← get).isCyclic k then
    modify (·.remember k circular)
    return circular
  else match (← get).formulas[k]? with
    | none => storedValue k
    | some formula =>
      let inner := path.push k
      let v ← (formula.evaluate k.sheet).run (answerBy naming (cell inner) inner)
      let v := if (← get).isCyclic k then circular else v
      modify (·.remember k v)
      return v

def cellAtBy : Nat → Path → Key → Attempt (Context σ) Value
  | 0 => lookupWith fun _ _ => return circular
  | room + 1 => lookupWith (computeBy naming (cellAtBy room))

def evaluateBy (k : Key) : Attempt (Context σ) Value := cellAtBy naming maxNesting .root k

theorem answer_by_sheet_named (cell : Key → Attempt (Context σ) Value) (path : Path) :
    answerBy sheetNamed cell path = answerWith cell path := by
  funext q
  cases q with
  | cell k => rfl
  | range r => rfl
  | sheet home name => rfl

theorem cell_at_by_sheet_named (room : Nat) :
    cellAtBy (σ := σ) sheetNamed room = cellAt room := by
  induction room with
  | zero => rfl
  | succ room ih =>
    have computed : computeBy sheetNamed (cellAtBy (σ := σ) sheetNamed room) =
        computeWith (cellAt room) := by
      funext path k
      simp only [computeBy, answer_by_sheet_named, ih]
      rfl
    funext path k
    rw [cellAtBy, computed]
    rfl

theorem evaluate_by_sheet_named : evaluateBy (σ := σ) sheetNamed = evaluate := by
  funext k
  rw [evaluateBy, cell_at_by_sheet_named]
  rfl

end By

-- A name that a formula of the set puts before a reference.
def Named (formulas : KeyMap Compiled) (home : SheetId) (name : String) : Prop :=
  ∃ (k : Key) (formula : Compiled), formulas[k]? = some formula ∧ k.sheet = home ∧
    ∃ r ∈ formula.references, r.sheet? = some name

section Abreast

variable {σ τ : Type} (formulas : KeyMap Compiled) (link : σ × Looked → τ × Looked → Prop)

-- Contexts that know the same about the formulas of the set; their stores and the sheets found are
-- linked.
structure Beside (c : Context σ) (d : Context τ) : Prop where
  known : c.formulas = formulas
  formulas : d.formulas = c.formulas
  pending : d.pending = c.pending
  cache : d.cache = c.cache
  cyclic : d.cyclic = c.cyclic
  link : link (c.store, c.sheets) (d.store, d.sheets)

variable (frail : Prop)

theorem calling_tied {α : Type} (act : Attempt σ α) (other : Attempt τ α)
    (tied : ∀ x y, act.Tied (fun s t => link (s, x) (t, y)) frail other) :
    Attempt.Tied (Beside formulas link) frail (calling act) (calling other) := by
  intro c d beside
  cases tied c.sheets d.sheets c.store d.store beside.link with
  | inl alike => exact .inl ⟨alike.1, { beside with link := alike.2 }⟩
  | inr failed => exact .inr failed

theorem remember_tied (k : Key) (v : Value) :
    Attempt.Tied (Beside formulas link) frail (modify (·.remember k v)) (modify (·.remember k v)) :=
  tied_modify _ _ _ _ fun _ _ beside =>
    { beside with cache := congrArg (·.insert k v) beside.cache }

variable [CellStore σ] [CellStore τ] (naming : Naming σ) (other : Naming τ)

-- Every call that an evaluation makes is tied.
structure Steps : Prop where
  cell : ∀ k, Attempt.Tied (Beside formulas link) frail (calling (CellStore.cell k))
    (calling (CellStore.cell k))
  range : ∀ r, Attempt.Tied (Beside formulas link) frail (calling (CellStore.range r))
    (calling (CellStore.range r))
  named : ∀ home name, Named formulas home name →
    (naming home name).Tied (Beside formulas link) frail (other home name)

variable (steps : Steps formulas link frail naming other)
include steps

theorem stored_value_tied (k : Key) :
    Attempt.Tied (Beside formulas link) frail (storedValue k) (storedValue k) := by
  apply tied_bind _ _ _ _ _ _ (steps.cell k)
  intro record?
  exact tied_pure _ _ _

theorem lookup_with_tied (compute : Path → Key → Attempt (Context σ) Value)
    (comparison : Path → Key → Attempt (Context τ) Value)
    (computed : ∀ path k, (compute path k).Tied (Beside formulas link) frail (comparison path k))
    (path : Path) (k : Key) :
    Attempt.Tied (Beside formulas link) frail (lookupWith compute path k)
      (lookupWith comparison path k) := by
  apply tied_get
  intro c d beside
  rw [beside.cache, beside.pending]
  cases c.cache[k]? with
  | some v => exact tied_pure _ _ v c d beside
  | none =>
    by_cases looping : path.contains k = true
    · have marked : Beside formulas link (c.markCyclic (path.backTo k))
          (d.markCyclic (path.backTo k)) :=
        { beside with cyclic := by simp only [markCyclic, beside.cyclic] }
      simp only [looping, if_true]
      exact .inl ⟨rfl, marked⟩
    · by_cases waiting : k ∈ c.pending
      · simp only [looping, waiting, Bool.false_eq_true, if_true, if_false]
        exact computed path k c d beside
      · simp only [looping, waiting, Bool.false_eq_true, if_false]
        exact stored_value_tied formulas link frail naming other steps k c d beside

theorem range_with_tied (cell : Key → Attempt (Context σ) Value)
    (comparison : Key → Attempt (Context τ) Value)
    (looked : ∀ k, (cell k).Tied (Beside formulas link) frail (comparison k)) (path : Path)
    (r : SheetRange) :
    Attempt.Tied (Beside formulas link) frail (rangeWith cell path r)
      (rangeWith comparison path r) := by
  apply tied_bind _ _ _ _ _ _ (steps.range r)
  intro records
  apply tied_bind _ _ _ _ _ _ ?_ fun values => tied_pure _ _ _
  apply tied_map_each
  intro record _
  apply tied_get
  intro c d beside
  have live : d.isLive path record.key = c.isLive path record.key := by
    simp only [isLive, beside.cache, beside.pending]
  rw [live]
  cases c.isLive path record.key with
  | false => exact tied_pure _ _ _ c d beside
  | true =>
    exact tied_bind _ _ _ _ _ _ (looked record.key) (fun v => tied_pure _ _ _) c d beside

theorem answer_by_tied (cell : Key → Attempt (Context σ) Value)
    (comparison : Key → Attempt (Context τ) Value)
    (looked : ∀ k, (cell k).Tied (Beside formulas link) frail (comparison k)) (path : Path)
    (q : Query) (named : ∀ home name, q = .sheet home name → Named formulas home name) :
    (answerBy naming cell path q).Tied (Beside formulas link) frail
      (answerBy other comparison path q) := by
  cases q with
  | cell k => exact looked k
  | range r =>
    exact range_with_tied formulas link frail naming other steps cell comparison looked path r
  | sheet home name => exact steps.named home name (named home name rfl)

theorem compute_by_tied (cell : Path → Key → Attempt (Context σ) Value)
    (comparison : Path → Key → Attempt (Context τ) Value)
    (looked : ∀ path k, (cell path k).Tied (Beside formulas link) frail (comparison path k))
    (path : Path) (k : Key) :
    (computeBy naming cell path k).Tied (Beside formulas link) frail
      (computeBy other comparison path k) := by
  apply tied_bind _ _ _ _ _ _ (tied_modify _ _ _ _ fun c d beside => { beside with
    pending := congrArg (·.erase k) beside.pending })
  intro _
  have marks (c : Context σ) (d : Context τ) (beside : Beside formulas link c d) :
      d.isCyclic k = c.isCyclic k := by
    simp only [isCyclic, beside.cyclic]
  apply tied_get
  intro c d beside
  rw [marks c d beside]
  by_cases cyclic : c.isCyclic k = true
  · simp only [cyclic, if_true]
    exact tied_bind _ _ _ _ _ _ (remember_tied formulas link frail k circular)
      (fun _ => tied_pure _ _ circular) c d beside
  · simp only [cyclic, Bool.false_eq_true, if_false]
    apply tied_get _ _ _ _ _ c d beside
    intro c d beside
    rw [beside.formulas]
    cases found : c.formulas[k]? with
    | none => exact stored_value_tied formulas link frail naming other steps k c d beside
    | some formula =>
      have named (home : SheetId) (name : String) (covered : Covered k.sheet (fun _ _ => True)
          formula.references (.sheet home name)) : Named formulas home name := by
        obtain ⟨rfl, listed⟩ := covered
        exact ⟨k, formula, beside.known ▸ found, rfl, listed⟩
      apply tied_bind _ _ _ _ _ _ _ _ c d beside
      · apply Reading.run_tied _ _ _ _ _ _ (Memory.compiled_confined formula k.sheet _)
        intro q covered
        exact answer_by_tied formulas link frail naming other steps _ _ (looked (path.push k)) _ q
          fun home name same => named home name (same ▸ covered)
      · intro v
        apply tied_get
        intro c d beside
        rw [marks c d beside]
        exact tied_bind _ _ _ _ _ _ (remember_tied formulas link frail k _)
          (fun _ => tied_pure _ _ _) c d beside

theorem cell_at_by_tied (room : Nat) (path : Path) (k : Key) :
    (cellAtBy naming room path k).Tied (Beside formulas link) frail
      (cellAtBy other room path k) := by
  induction room generalizing path k with
  | zero =>
    exact lookup_with_tied formulas link frail naming other steps _ _
      (fun _ _ => tied_pure _ _ circular) path k
  | succ room ih =>
    exact lookup_with_tied formulas link frail naming other steps _ _
      (compute_by_tied formulas link frail naming other steps _ _ ih) path k

theorem evaluate_by_tied (k : Key) :
    (evaluateBy naming k).Tied (Beside formulas link) frail (evaluateBy other k) :=
  cell_at_by_tied formulas link frail naming other steps maxNesting .root k

end Abreast

section Calls

variable {σ τ : Type} (tie : σ → τ → Prop) (frail : Prop) (formulas : KeyMap Compiled)

abbrev linked (p : σ × Looked) (q : τ × Looked) : Prop := tie p.1 q.1 ∧ q.2 = p.2

theorem call_tied {α : Type} (act : Attempt σ α) (other : Attempt τ α)
    (tied : act.Tied tie frail other) :
    Attempt.Tied (Beside formulas (linked tie)) frail (calling act) (calling other) := by
  apply calling_tied
  intro x y s t both
  exact (tied s t both.1).imp_left fun ended => ⟨ended.1, ended.2, both.2⟩

variable [CellStore σ] [CellStore τ] (calls : Reads tie frail)
include calls

theorem sheet_named_tied (home : SheetId) (name : String) :
    Attempt.Tied (Beside formulas (linked tie)) frail (sheetNamed home name)
      (sheetNamed home name) := by
  apply tied_get
  intro c d beside
  have same : d.sheets = c.sheets := beside.link.2
  rw [same]
  cases c.sheets.lookup (home, Text.upper name) with
  | some found? => exact tied_pure _ _ found? c d beside
  | none =>
    have noted (found? : Option SheetId) :
        Attempt.Tied (Beside formulas (linked tie)) frail
          (modify (σ := Context σ) fun c =>
            { c with sheets := ((home, Text.upper name), found?) :: c.sheets })
          (modify (σ := Context τ) fun c =>
            { c with sheets := ((home, Text.upper name), found?) :: c.sheets }) := by
      apply tied_modify
      intro c d beside
      exact { beside with
        link := ⟨beside.link.1, congrArg (((home, Text.upper name), found?) :: ·) beside.link.2⟩ }
    apply tied_bind _ _ _ _ _ _ (call_tied tie frail formulas _ _ (calls.sheet home)) _ c d beside
    intro info?
    cases info? with
    | none =>
      exact tied_bind _ _ _ _ _ _ (tied_pure _ _ none) fun found? =>
        tied_bind _ _ _ _ _ _ (noted found?) fun _ => tied_pure _ _ found?
    | some info =>
      exact tied_bind _ _ _ _ _ _
        (call_tied tie frail formulas _ _ (calls.sheetNamed info.workbook name)) fun found? =>
          tied_bind _ _ _ _ _ _ (noted found?) fun _ => tied_pure _ _ found?

theorem steps_of_calls : Steps formulas (linked tie) frail sheetNamed sheetNamed :=
  ⟨fun k => call_tied tie frail formulas _ _ (calls.cell k),
    fun r => call_tied tie frail formulas _ _ (calls.range r),
    fun home name _ => sheet_named_tied tie frail formulas calls home name⟩

theorem evaluate_tied (k : Key) :
    (evaluate k).Tied (Beside formulas (linked tie)) frail (evaluate k) := by
  rw [← evaluate_by_sheet_named, ← evaluate_by_sheet_named]
  exact evaluate_by_tied formulas _ frail _ _ (steps_of_calls tie frail formulas calls) k

end Calls

-- What the store calls of an evaluation keep, the evaluation keeps.
theorem evaluate_keeps {σ : Type} [CellStore σ] (invariant : σ → Prop)
    (calls : Reads (fun s t : σ => s = t ∧ invariant s) False) (formulas : KeyMap Compiled)
    (k : Key) :
    (evaluate k).Keeps fun c : Context σ => c.formulas = formulas ∧ invariant c.store := by
  rintro c ⟨known, holds⟩
  have tied := evaluate_tied _ False formulas calls k c c
    ⟨known, rfl, rfl, rfl, rfl, ⟨rfl, holds⟩, rfl⟩
  have beside := (abreast_alike _ _ _ c c tied).2
  exact ⟨beside.known, beside.link.1.2⟩

end Context

end Spreadsheet
