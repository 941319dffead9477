import Spreadsheet.Proofs.Engine.Abreast
import Spreadsheet.Proofs.Engine.Edits
import Spreadsheet.Proofs.Store.Replies

-- Sheet names in formulas. An evaluation remembers the sheets that it has found by the capitals of
-- their names, where a store compares names by their ASCII capitals. Where the names that formulas
-- of one sheet use are not told apart by the store alone, every sheet found is the store's.

set_option autoImplicit false

namespace Spreadsheet

open Formula

namespace Context

-- Names that the formulas of one sheet use and that share their capitals mean one sheet.
def NamesAgree (m : Memory) (formulas : KeyMap Compiled) : Prop :=
  ∀ home name other, Named formulas home name → Named formulas home other →
    Text.upper name = Text.upper other → m.sheetFrom home name = m.sheetFrom home other

-- The sheets remembered for names of the formulas are those of the store.
def Faithful (m : Memory) (formulas : KeyMap Compiled) (looked : Looked) : Prop :=
  ∀ home name found?, Named formulas home name →
    looked.lookup (home, Text.upper name) = some found? → found? = m.sheetFrom home name

-- Finds sheets as an evaluation does, and gives the alarm when one is not the store's.
def checked (m : Memory) (alarm : StoreError) : Naming Memory := fun home name => do
  let found? ← sheetNamed home name
  if found? = m.sheetFrom home name then return found? else throw alarm

-- What a request does in its context: evaluations, and writes of results.
inductive Step where
  | evaluate (k : Key)
  | write (k : Key) (result : FormulaCell)

-- The value that a step gives is the one evaluated or written.
def Step.perform (evaluation : Key → Attempt (Context Memory) Value) :
    Step → Attempt (Context Memory) Value
  | .evaluate k => evaluation k
  | .write k result => do
    calling (CellStore.putFormula k result)
    return result.result

section Names

variable (m : Memory) (formulas : KeyMap Compiled)

theorem names_agree_of_ascii (ascii : ∀ (k : Key) (c : Compiled), formulas[k]? = some c →
    c.AsciiSheets) : NamesAgree m formulas := by
  rintro home name other ⟨k, c, found, _, r, member, named⟩ ⟨p, d, listed, _, s, used, called⟩ same
  exact m.sheet_from_ascii home name other (ascii k c found r member name named)
    (ascii p d listed s used other called) same

theorem faithful_cons (agree : NamesAgree m formulas) (looked : Looked)
    (faithful : Faithful m formulas looked) (home : SheetId) (name : String)
    (named : Named formulas home name) :
    Faithful m formulas (((home, Text.upper name), m.sheetFrom home name) :: looked) := by
  intro place other found? used listed
  rw [List.lookup_cons] at listed
  by_cases same : (place, Text.upper other) = (home, Text.upper name)
  · obtain ⟨rfl, capitals⟩ := Prod.mk.inj same
    rw [agree place other name used named capitals]
    simpa [capitals] using listed.symm
  · rw [beq_false_of_ne same] at listed
    exact faithful place other found? used listed

section Lookup

variable {σ : Type} (invariant : σ → Prop) (frail : Prop)

theorem calling_ends {α : Type} (act : Attempt σ α) (a : α) (tells : act.Tells invariant frail a)
    (c : Context σ) (holds : invariant c.store) :
    (calling act).Ends c fun result d =>
      (∃ store, invariant store ∧ d = { c with store }) ∧ Gives frail a result := by
  apply ends_within
  apply ends_mono _ _ _ _ (tells c.store holds)
  intro result store told
  exact ⟨⟨store, told.1, rfl⟩, told.2⟩

theorem sheet_named_ends [CellStore σ] (agree : NamesAgree m formulas)
    (placed : Placed m invariant frail) (c : Context σ) (holds : invariant c.store)
    (faithful : Faithful m formulas c.sheets)
    (home : SheetId) (name : String) (named : Named formulas home name) :
    (sheetNamed home name).Ends c fun result d =>
      (∃ store looked, invariant store ∧ Faithful m formulas looked ∧
        d = { c with store, sheets := looked }) ∧ Gives frail (m.sheetFrom home name) result := by
  apply ends_get
  cases known : c.sheets.lookup (home, Text.upper name) with
  | some found? =>
    apply ends_pure
    exact ⟨⟨c.store, c.sheets, holds, faithful, rfl⟩, faithful home name found? named known⟩
  | none =>
    have noted (store : σ) (kept : invariant store) (found? : Option SheetId)
        (right : found? = m.sheetFrom home name) :
        Attempt.Ends
          (do
            modify fun c : Context σ =>
              { c with sheets := ((home, Text.upper name), found?) :: c.sheets }
            return found?) { c with store } fun result d =>
          (∃ store looked, invariant store ∧ Faithful m formulas looked ∧
            d = { c with store, sheets := looked }) ∧
              Gives frail (m.sheetFrom home name) result := by
      subst right
      have extended := faithful_cons m formulas agree c.sheets faithful home name named
      exact ⟨⟨store, _, kept, extended, rfl⟩, rfl⟩
    apply ends_bind _ _ c _ _ (calling_ends invariant frail _ _ (placed.sheet home) c holds)
    · rintro info? _ ⟨⟨store, kept, rfl⟩, right⟩
      obtain rfl : info? = m.sheet home := right
      cases here : m.sheet home with
      | none => exact noted store kept none (by simp [Memory.sheetFrom, here])
      | some info =>
        apply ends_bind _ _ _ _ _
          (calling_ends invariant frail _ _ (placed.sheetNamed info.workbook name) _ kept)
        · rintro found? _ ⟨⟨next, still, rfl⟩, given⟩
          apply noted next still
          rw [show found? = m.sheetNamed info.workbook name from given, Memory.sheetFrom, here]
          rfl
        · rintro error _ ⟨⟨next, still, rfl⟩, weak⟩
          exact ⟨⟨next, c.sheets, still, faithful, rfl⟩, weak⟩
    · rintro error _ ⟨⟨store, kept, rfl⟩, weak⟩
      exact ⟨⟨store, c.sheets, kept, faithful, rfl⟩, weak⟩

end Lookup

-- Contexts that are the same, over the sheets of the memory and with faithful names.
abbrev same (p q : Memory × Looked) : Prop :=
  p = q ∧ p.1.sheets = m.sheets ∧ Faithful m formulas p.2

theorem eq_of_beside (c d : Context Memory) (beside : Beside formulas (same m formulas) c d) :
    c = d := by
  obtain ⟨_, formulas, pending, cache, cyclic, link⟩ := beside
  obtain ⟨store, sheets⟩ := Prod.mk.inj link.1
  cases c
  cases d
  simp_all only

theorem checked_tied (agree : NamesAgree m formulas) (alarm : StoreError) (home : SheetId)
    (name : String) (named : Named formulas home name) :
    (checked m alarm home name).Tied (Beside formulas (same m formulas)) False
      (sheetNamed home name) := by
  intro c d beside
  obtain rfl := eq_of_beside m formulas c d beside
  obtain ⟨⟨store, looked, kept, faithful, changed⟩, right⟩ := sheet_named_ends m formulas
    (· = c.store) True agree (m.placed c.store beside.link.2.1) c rfl beside.link.2.2 home name
    named
  have silent : (checked m alarm home name).run.run c = (sheetNamed home name).run.run c := by
    rw [checked, ExceptT.run_bind, StateT.run_bind]
    cases ran : (sheetNamed home name).run.run c with
    | mk result d =>
      rw [ran] at right
      cases result with
      | ok found? =>
        change (if found? = m.sheetFrom home name then pure found? else throw alarm :
          Attempt (Context Memory) (Option SheetId)).run.run d = _
        rw [if_pos (show found? = m.sheetFrom home name from right)]
        rfl
      | error error => rfl
  unfold Attempt.Abreast
  rw [silent, changed, kept]
  exact .inl ⟨rfl, { beside with link := ⟨rfl, beside.link.2.1, faithful⟩ }⟩

theorem steps_checked (agree : NamesAgree m formulas) (alarm : StoreError) :
    Steps formulas (same m formulas) False (checked m alarm) sheetNamed := by
  have kept {α : Type} (f : Memory → α) :
      Attempt.Tied (Beside formulas (same m formulas)) False
        (calling (Memory.reading f)) (calling (Memory.reading f)) := by
    apply calling_tied
    rintro x y s t ⟨both, store, faithful⟩
    obtain ⟨rfl, rfl⟩ := Prod.mk.inj both
    have unchanged : ((Memory.reading f).run.run s).2 = s := by rw [Memory.run_reading]
    refine .inl ⟨rfl, ?_⟩
    rw [unchanged]
    exact ⟨rfl, store, faithful⟩
  exact ⟨fun k => kept _, fun r => kept _, fun home name named =>
    checked_tied m formulas agree alarm home name named⟩

theorem write_checked (k : Key) (result : FormulaCell) :
    Attempt.Tied (Beside formulas (same m formulas)) False
      (calling (CellStore.putFormula (σ := Memory) k result))
      (calling (CellStore.putFormula (σ := Memory) k result)) := by
  apply calling_tied
  rintro x y s t ⟨both, sheets, faithful⟩
  obtain ⟨rfl, rfl⟩ := Prod.mk.inj both
  have kept : ((Memory.writing (·.put k (.formula result))).run.run s).2.sheets = m.sheets := by
    rw [Memory.run_writing]
    split
    · exact sheets
    · exact sheets
  exact .inl ⟨rfl, rfl, kept, faithful⟩

theorem run_checked (agree : NamesAgree m formulas) (alarm : StoreError) (steps : List Step)
    (c : Context Memory) (known : c.formulas = formulas) (sheets : c.store.sheets = m.sheets)
    (faithful : Faithful m formulas c.sheets) :
    (steps.mapM (Step.perform (evaluateBy (checked m alarm)))).run.run c =
      (steps.mapM (Step.perform evaluate)).run.run c := by
  have tied : Attempt.Tied (Beside formulas (same m formulas)) False
      (steps.mapM (Step.perform (evaluateBy (checked m alarm))))
      (steps.mapM (Step.perform evaluate)) := by
    apply tied_map_each
    intro step _
    cases step with
    | evaluate k =>
      rw [← evaluate_by_sheet_named]
      exact evaluate_by_tied formulas _ False _ _ (steps_checked m formulas agree alarm) k
    | write k result =>
      exact tied_bind _ _ _ _ _ _ (write_checked m formulas k result) fun _ => tied_pure _ _ _
  obtain ⟨alike, beside⟩ := abreast_alike _ _ _ c c
    (tied c c ⟨known, rfl, rfl, rfl, rfl, rfl, sheets, faithful⟩)
  exact Prod.ext alike (eq_of_beside m formulas _ _ beside)

end Names

-- No sheet that is found gives the alarm, whatever alarm; and a reference that names its sheet is
-- bound to the sheet of the store.
theorem sheets_found_as_bound (m : Memory) (formulas : KeyMap Compiled) (marks : List Key)
    (agree : NamesAgree m formulas) (steps : List Step) (alarm : StoreError) :
    let start := (ofFormulas m formulas).markCyclic marks
    (steps.mapM (Step.perform (evaluateBy (checked m alarm)))).run.run start =
        (steps.mapM (Step.perform evaluate)).run.run start ∧
      ∀ (home : SheetId) (name : String) (target : Target), m.available = true →
        (Engine.bindFrom home none [⟨some name, target⟩]).Returns m
          ((m.sheetFrom home name).map (Reference.on ⟨some name, target⟩)).toList m := by
  refine ⟨?_, fun home name target available => ?_⟩
  · apply run_checked m formulas agree alarm steps _ rfl rfl
    intro home name found? _ listed
    simp [ofFormulas, markCyclic] at listed
  · have bound := bind_from_returns m available home none [⟨some name, target⟩]
      fun w known => by cases known
    have single : m.bound home [⟨some name, target⟩] =
        ((m.sheetFrom home name).map (Reference.on ⟨some name, target⟩)).toList := by
      simp only [Memory.bound, List.filterMap_cons, List.filterMap_nil, Reference.boundBy,
        Memory.resolver, Memory.answer]
      cases m.sheetFrom home name <;> rfl
    exact single ▸ bound

-- Two spellings of one sheet.
theorem sheets_found_as_bound_in_any_case :
    let a : Key := ⟨⟨1⟩, ⟨1, 1⟩⟩
    let m : Memory := ⟨[⟨⟨1⟩, ⟨1⟩, "Main"⟩, ⟨⟨2⟩, ⟨1⟩, "Rates"⟩], ∅, true⟩
    let formulas := (∅ : KeyMap Compiled).insert a (.ofSource .empty "=rates!A1&RATES!A2")
    let start := (ofFormulas m formulas).markCyclic []
    let steps : List Step := [.evaluate a, .write a (.uncomputed "=rates!A1&RATES!A2")]
    let alarm : StoreError := .unavailable "another sheet"
    NamesAgree m formulas ∧
      (steps.mapM (Step.perform (evaluateBy (checked m alarm)))).run.run start =
          (steps.mapM (Step.perform evaluate)).run.run start ∧
        ∀ (home : SheetId) (name : String) (target : Target),
          (Engine.bindFrom home none [⟨some name, target⟩]).Returns m
            ((m.sheetFrom home name).map (Reference.on ⟨some name, target⟩)).toList m := by
  intro a m formulas start steps alarm
  have readable : (Compiled.ofSource .empty "=rates!A1&RATES!A2").AsciiSheets := by decide +kernel
  have agree : NamesAgree m formulas := by
    apply names_agree_of_ascii
    intro k c found
    simp only [formulas, lookup_insert, Std.ExtTreeMap.getElem?_empty] at found
    split at found
    · exact Option.some.inj found ▸ readable
    · cases found
  obtain ⟨silent, bound⟩ := sheets_found_as_bound m formulas [] agree steps alarm
  exact ⟨agree, silent, fun home name target => bound home name target rfl⟩

-- Two sheets whose names share their capitals, but not their ASCII capitals.
theorem sheets_found_apart :
    let a : Key := ⟨⟨1⟩, ⟨1, 1⟩⟩
    let left : Key := ⟨⟨2⟩, ⟨1, 1⟩⟩
    let right : Key := ⟨⟨3⟩, ⟨1, 1⟩⟩
    let sheets : List SheetInfo := [⟨⟨1⟩, ⟨1⟩, "Main"⟩, ⟨⟨2⟩, ⟨1⟩, "ä"⟩, ⟨⟨3⟩, ⟨1⟩, "Ä"⟩]
    let m : Memory := ((⟨sheets, ∅, true⟩ : Memory).put left (.literal (.text "left"))).put right
      (.literal (.text "right"))
    let source := "='ä'!A1&\"/\"&'Ä'!A1"
    let formulas := (∅ : KeyMap Compiled).insert a (.ofSource .empty source)
    let start := (ofFormulas m formulas).markCyclic []
    let steps : List Step := [.evaluate a]
    let alarm : StoreError := .unavailable "another sheet"
    m.sheetFrom ⟨1⟩ "ä" = some ⟨2⟩ ∧ m.sheetFrom ⟨1⟩ "Ä" = some ⟨3⟩ ∧
      ((evaluate a).run.run start).1.toOption.map Value.toText = some "left/left" ∧
        (m.computed .empty a source).toText = "left/right" ∧
          (steps.mapM (Step.perform (evaluateBy (checked m alarm)))).run.run start ≠
            (steps.mapM (Step.perform evaluate)).run.run start := by
  intro a left right sheets m source formulas start steps alarm
  have found : m.sheetFrom ⟨1⟩ "ä" = some ⟨2⟩ ∧ m.sheetFrom ⟨1⟩ "Ä" = some ⟨3⟩ := by
    decide +kernel
  have shown : ((evaluate a).run.run start).1.toOption.map Value.toText = some "left/left" := by
    decide +kernel
  have meant : (m.computed .empty a source).toText = "left/right" := by decide +kernel
  have stopped :
      ((steps.mapM (Step.perform (evaluateBy (checked m alarm)))).run.run start).1.toOption.isNone ∧
        ((steps.mapM (Step.perform evaluate)).run.run start).1.toOption.isNone = false := by
    decide +kernel
  refine ⟨found.1, found.2, shown, meant, fun same => ?_⟩
  rw [same, stopped.2] at stopped
  cases stopped.1

end Context

end Spreadsheet
