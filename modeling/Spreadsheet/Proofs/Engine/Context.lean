import Spreadsheet.Engine.Context
import Spreadsheet.Engine.Registry
import Spreadsheet.Proofs.Store.Answers
import Spreadsheet.Proofs.Store.Attempt

-- One evaluation among those of a request. A formula off the cycles comes after the formulas that
-- it reads, so everything that it asks for has its final value, among the kept results or in the
-- store, and no second evaluation begins under the first.

set_option autoImplicit false

namespace Spreadsheet

open Formula

-- Between two evaluations of a plan, with the formulas of `rest` to come.
structure Underway (plan : Plan) (rest : List Key) (m : Memory) (c : Context Memory) : Prop where
  store : c.store = m
  formulas : c.formulas = plan.formulas
  cyclic : ∀ k, k ∈ c.cyclic ↔ k ∈ plan.cyclic
  pending : ∀ k, k ∈ c.pending ↔ k ∈ rest
  fresh : ∀ k ∈ rest, c.cache[k]? = none
  cached : ∀ (k : Key) (v : Value), c.cache[k]? = some v → v = m.value k
  sheets : ∀ (home : SheetId) (name : String) (found? : Option SheetId), Text.IsAscii name →
    c.sheets.lookup (home, Text.upper name) = some found? → found? = m.sheetFrom home name

-- No formula that has been passed is without a kept result.
def Kept {σ : Type} (plan : Plan) (rest : List Key) (c : Context σ) : Prop :=
  ∀ p ∈ plan.formulas, p ∉ rest → p ∈ c.cache

theorem Memory.value_put (m : Memory) (k p : Key) (c : Cell) :
    (m.put k c).value p = if k = p then c.value else m.value p := by
  simp only [value, put, lookup_insert]
  split <;> rfl

namespace Context

section Answers

variable (plan : Plan) (rest : List Key) (m : Memory) (available : m.available = true)
include available

theorem calling_reading_returns {α : Type} (c : Context Memory) (f : Memory → α)
    (store : c.store = m) : (calling (Memory.reading f)).Returns c (f m) c := by
  subst store
  exact returns_within _ _ _ c (f c.store) c.store (Memory.reading_returns c.store available f)

theorem calling_writing_returns (c : Context Memory) (f : Memory → Memory) (store : c.store = m) :
    (calling (Memory.writing f)).Returns c () { c with store := f m } := by
  subst store
  exact returns_within _ _ _ c () (f c.store) (Memory.writing_returns c.store available f)

theorem stored_value_returns (c : Context Memory) (store : c.store = m) (k : Key) :
    (storedValue k).Returns c (m.value k) c := by
  have read := calling_reading_returns m available c (·.recordAt k) store
  have same : ((m.recordAt k).map Record.value).getD .empty = m.value k := by
    simp only [Memory.recordAt, Memory.value, Option.map_map]
    rfl
  rw [← same]
  exact returns_bind _ _ c c c _ _ read (returns_pure c _)

theorem lookup_with_returns (compute : Path → Key → Attempt (Context Memory) Value) (path : Path)
    (c : Context Memory) (underway : Underway plan rest m c) (k : Key) (done : k ∉ rest)
    (off : path.contains k = false) : (lookupWith compute path k).Returns c (m.value k) c := by
  refine returns_bind _ _ c c c c _ (returns_get c) ?_
  cases kept : c.cache[k]? with
  | some v =>
    rw [underway.cached k v kept]
    exact returns_pure c _
  | none =>
    have idle : k ∉ c.pending := mt (underway.pending k).mp done
    simp only [off, idle, if_false, Bool.false_eq_true]
    exact stored_value_returns m available c underway.store k

theorem range_with_returns (compute : Path → Key → Attempt (Context Memory) Value) (path : Path)
    (c : Context Memory) (underway : Underway plan rest m c) (r : SheetRange)
    (done : ∀ k, r.contains k = true → k ∉ rest ∧ path.contains k = false) :
    (rangeWith (lookupWith compute path) path r).Returns c (m.answer (.range r)) c := by
  have read := calling_reading_returns m available c (·.recordsIn r) underway.store
  refine returns_bind _ _ c c c _ _ read ?_
  refine returns_bind _ _ c c c _ _ (returns_map_each _ _ c _ fun record member => ?_)
    (returns_pure c _)
  have inside := ((m.mem_records_in r record).mp member).2
  refine returns_bind _ _ c c c c _ (returns_get c) ?_
  by_cases live : c.isLive path record.key = true
  · rw [if_pos live]
    have known := m.value_of_record_in r record member
    obtain ⟨later, off⟩ := done record.key inside
    have looked := lookup_with_returns plan rest m available compute path c underway record.key
      later off
    rw [known] at looked
    exact returns_bind _ _ c c c _ _ looked (returns_pure c _)
  · rw [if_neg live]
    exact returns_pure c _

theorem sheet_named_returns (c : Context Memory) (underway : Underway plan rest m c)
    (home : SheetId) (name : String) (ascii : Text.IsAscii name) :
    ∃ sheets, (sheetNamed home name).Returns c (m.sheetFrom home name) { c with sheets } ∧
      Underway plan rest m { c with sheets } := by
  cases known : c.sheets.lookup (home, Text.upper name) with
  | some found? =>
    have same := underway.sheets home name found? ascii known
    refine ⟨c.sheets, returns_bind _ _ c c c c _ (returns_get c) ?_, underway⟩
    simp only [known, ← same]
    exact returns_pure c _
  | none =>
    let kept (found? : Option SheetId) : Context Memory :=
      { c with sheets := ((home, Text.upper name), found?) :: c.sheets }
    refine ⟨((home, Text.upper name), m.sheetFrom home name) :: c.sheets,
      returns_bind _ _ c c _ c _ (returns_get c) ?_, ?_⟩
    · simp only [known]
      have placed := calling_reading_returns m available c (·.sheet home) underway.store
      refine returns_bind _ _ c c _ _ _ placed ?_
      cases here : m.sheet home with
      | none =>
        have absent : m.sheetFrom home name = none := by simp [Memory.sheetFrom, here]
        rw [absent]
        exact returns_bind _ _ c c (kept none) none none (returns_pure c none)
          (returns_bind _ _ c _ _ () none (returns_modify _ c) (returns_pure _ none))
      | some info =>
        have asked : m.sheetFrom home name = m.sheetNamed info.workbook name := by
          simp [Memory.sheetFrom, here]
        rw [asked]
        exact returns_bind _ _ c c (kept _) _ _
          (calling_reading_returns m available c (·.sheetNamed info.workbook name) underway.store)
          (returns_bind _ _ c _ _ () _ (returns_modify _ c) (returns_pure _ _))
    · refine { underway with sheets := fun home' name' found? ascii' listed => ?_ }
      simp only [List.lookup_cons] at listed
      by_cases same : (home', Text.upper name') = (home, Text.upper name)
      · obtain ⟨rfl, names⟩ := Prod.mk.inj same
        rw [m.sheet_from_ascii home' name' name ascii' ascii names]
        simpa [names] using listed.symm
      · rw [beq_false_of_ne same] at listed
        exact underway.sheets home' name' found? ascii' listed

-- The answers to what a formula asks on its course, when none of it is still to come. There is
-- nothing left to compute for them.
theorem answer_with_returns (path : Path) (home : SheetId) (formula : Compiled)
    (ascii : formula.AsciiSheets) (done : ∀ r ∈ m.bound home formula.references,
      ∀ k, r.contains k = true → k ∉ rest ∧ path.contains k = false) (c : Context Memory)
    (underway : Underway plan rest m c) (q : Query)
    (accounted : Accounted home m.resolver formula.references q) :
    ∃ sheets, (∀ compute, (answerWith (lookupWith compute path) path q).Returns c (m.answer q)
      { c with sheets }) ∧ Underway plan rest m { c with sheets } := by
  cases q with
  | cell k =>
    obtain ⟨r, member, bound⟩ := accounted
    obtain ⟨later, off⟩ := done _ (List.mem_filterMap.mpr ⟨r, member, bound⟩) k
      ((contains_of_key k k).mpr rfl)
    exact ⟨c.sheets, fun compute => lookup_with_returns plan rest m available compute path c
      underway k later off, underway⟩
  | range x =>
    obtain ⟨r, member, bound⟩ := accounted
    have covered := done x (List.mem_filterMap.mpr ⟨r, member, bound⟩)
    exact ⟨c.sheets, fun compute => range_with_returns plan rest m available compute path c
      underway x covered, underway⟩
  | sheet sheet name =>
    obtain ⟨rfl, r, member, named⟩ := accounted
    obtain ⟨sheets, found, after⟩ := sheet_named_returns plan rest m available c underway sheet
      name (ascii r member name named)
    exact ⟨sheets, fun _ => found, after⟩

end Answers

-- While a formula is evaluated that has nothing under it, only sheets are looked up.
def Aside (plan : Plan) (rest : List Key) (m : Memory) (c d : Context Memory) : Prop :=
  ∃ sheets, d = { c with sheets } ∧ Underway plan rest m { c with sheets }

-- The evaluation of a formula, with `compute` for what it reads that is not evaluated yet.
def evaluateOver {σ : Type} [CellStore σ] (compute : Path → Key → Attempt (Context σ) Value)
    (k : Key) : Attempt (Context σ) Value :=
  lookupWith (computeWith (lookupWith compute)) .root k

theorem evaluate_over {σ : Type} [CellStore σ] (k : Key) :
    evaluate (σ := σ) k = evaluateOver (computeWith (cellAt (maxNesting - 2))) k := rfl

section Evaluate

variable (plan : Plan) (rest : List Key) (m : Memory) (c : Context Memory) (k : Key)
  (underway : Underway plan (k :: rest) m c) (later : k ∉ rest)
include underway

theorem evaluate_begins (compute : Path → Key → Attempt (Context Memory) Value) (v : Value)
    (d : Context Memory)
    (computed : (computeWith (lookupWith compute) .root k).Returns c v d) :
    (evaluateOver compute k).Returns c v d := by
  have waiting : k ∈ c.pending := (underway.pending k).mpr List.mem_cons_self
  refine returns_bind _ _ c c d c v (returns_get c) ?_
  simp only [underway.fresh k List.mem_cons_self, waiting, if_true]
  exact computed

include later

theorem underway_begun : Underway plan rest m { c with pending := c.pending.erase k } := by
  refine { underway with
    pending := fun p => ?_
    fresh := fun p member => underway.fresh p (List.mem_cons_of_mem k member) }
  rw [member_erase, underway.pending p, List.mem_cons]
  constructor
  · rintro ⟨apart, same | member⟩
    · exact absurd same apart
    · exact member
  · exact fun member => ⟨fun same => later (same ▸ member), .inr member⟩

theorem evaluate_cyclic_returns (cyclic : k ∈ plan.cyclic)
    (compute : Path → Key → Attempt (Context Memory) Value) :
    (evaluateOver compute k).Returns c circular
      ({ c with pending := c.pending.erase k }.remember k circular) := by
  let d : Context Memory := { c with pending := c.pending.erase k }
  have begun : Underway plan rest m d := underway_begun plan rest m c k underway later
  refine evaluate_begins plan rest m c k underway compute _ _ ?_
  refine returns_bind _ _ c d _ () _ (returns_modify _ c) ?_
  refine returns_bind _ _ d d _ d _ (returns_get d) ?_
  have marked : d.isCyclic k = true := decide_eq_true ((begun.cyclic k).mpr cyclic)
  rw [if_pos marked]
  exact returns_bind _ _ d _ _ () _ (returns_modify _ d) (returns_pure _ _)

omit underway later in
-- Every question of the formula, once its evaluation has begun, gets the answer of the contents.
theorem answers_underway (available : m.available = true) (formula : Compiled)
    (ascii : formula.AsciiSheets) (done : ∀ r ∈ m.bound k.sheet formula.references,
      ∀ p, r.contains p = true → p ∉ rest ∧ p ≠ k) (q : Query) (s : Context Memory)
    (accounted : Accounted k.sheet m.resolver formula.references q)
    (aside : Aside plan rest m { c with pending := c.pending.erase k } s) :
    ∃ u, (∀ compute, (answerWith (lookupWith compute (Path.root.push k)) (Path.root.push k)
        q).Returns s (m.answer q) u) ∧
      Aside plan rest m { c with pending := c.pending.erase k } u := by
  obtain ⟨sheets, rfl, holds⟩ := aside
  have off (r : SheetRange) (member : r ∈ m.bound k.sheet formula.references) (p : Key)
      (inside : r.contains p = true) : p ∉ rest ∧ (Path.root.push k).contains p = false := by
    have apart := done r member p inside
    refine ⟨apart.1, ?_⟩
    simpa [Path.contains, Path.push, Path.root] using apart.2
  obtain ⟨looked, answered, after⟩ := answer_with_returns plan rest m available _ k.sheet formula
    ascii off _ holds q accounted
  exact ⟨_, answered, looked, rfl, after⟩

theorem evaluate_free_returns (available : m.available = true) (free : k ∉ plan.cyclic)
    (formula : Compiled) (known : plan.formulas[k]? = some formula) (ascii : formula.AsciiSheets)
    (done : ∀ r ∈ m.bound k.sheet formula.references, ∀ p, r.contains p = true →
      p ∉ rest ∧ p ≠ k) :
    ∃ sheets, let d : Context Memory := { c with pending := c.pending.erase k, sheets }
      (∀ compute, (evaluateOver compute k).Returns c ((formula.evaluate k.sheet).value m.answer)
        (d.remember k ((formula.evaluate k.sheet).value m.answer))) ∧ Underway plan rest m d := by
  let b : Context Memory := { c with pending := c.pending.erase k }
  have begun : Underway plan rest m b := underway_begun plan rest m c k underway later
  have unmarked (x : Context Memory) (same : Underway plan rest m x) : x.isCyclic k = false :=
    decide_eq_false (mt (same.cyclic k).mp free)
  obtain ⟨_, evaluated, sheets, rfl, after⟩ := Reading.run_answers m.answer _
    (fun compute => answerWith (lookupWith compute (Path.root.push k)) (Path.root.push k))
    (Aside plan rest m b) (formula.evaluate k.sheet)
    (Memory.compiled_bounded formula k.sheet m.resolver)
    (answers_underway plan rest m c k available formula ascii done) b ⟨c.sheets, rfl, begun⟩
  refine ⟨sheets, fun compute => ?_, after⟩
  let d : Context Memory := { b with sheets }
  refine evaluate_begins plan rest m c k underway compute _ _ ?_
  refine returns_bind _ _ c b _ () _ (returns_modify _ c) ?_
  refine returns_bind _ _ b b _ b _ (returns_get b) ?_
  simp only [unmarked b begun, Bool.false_eq_true, if_false]
  refine returns_bind _ _ b b _ b _ (returns_get b) ?_
  simp only [begun.formulas, known]
  refine returns_bind _ _ b d _ _ _ (evaluated compute) ?_
  refine returns_bind _ _ d d _ d _ (returns_get d) ?_
  simp only [unmarked d after, Bool.false_eq_true, if_false]
  exact returns_bind _ _ d _ _ () _ (returns_modify _ d) (returns_pure _ _)

end Evaluate

-- The result that is kept and the one that is written are the same.
theorem underway_written (plan : Plan) (rest : List Key) (m : Memory) (c : Context Memory)
    (k : Key) (f : FormulaCell) (underway : Underway plan rest m c) (later : k ∉ rest) :
    Underway plan rest (m.put k (.formula f))
      { c.remember k f.result with store := m.put k (.formula f) } := by
  refine { underway with
    store := rfl
    fresh := fun p member => ?_
    cached := fun p v kept => ?_ }
  · have apart : k ≠ p := fun same => later (same ▸ member)
    simpa only [remember, lookup_insert, apart, if_false] using underway.fresh p member
  · simp only [remember, lookup_insert] at kept
    rw [Memory.value_put]
    by_cases here : k = p
    · simpa [here, Cell.value] using kept.symm
    · rw [if_neg here] at kept ⊢
      exact underway.cached p v kept

end Context

end Spreadsheet
