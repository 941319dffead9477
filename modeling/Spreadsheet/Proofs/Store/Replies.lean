import Spreadsheet.Proofs.Store.Answers
import Spreadsheet.Proofs.Store.Faults

-- Stores that tell the truth about one memory. A read gives what the memory holds, or fails where
-- the store is frail, and keeps an invariant of the store. A memory that is switched on never
-- fails, a store with faults may, and from some call on it may have recovered.

set_option autoImplicit false

namespace Spreadsheet

-- The result is `a`, or a failure of something frail.
def Gives {α : Type} (frail : Prop) (a : α) : Except StoreError α → Prop
  | .ok b => b = a
  | .error _ => frail

def Attempt.Tells {σ α : Type} (act : Attempt σ α) (invariant : σ → Prop) (frail : Prop)
    (a : α) : Prop :=
  ∀ s, invariant s → act.Ends s fun result t => invariant t ∧ Gives frail a result

variable {σ : Type} [CellStore σ]

-- The sheets are those of the memory.
structure Placed (m : Memory) (invariant : σ → Prop) (frail : Prop) : Prop where
  sheet : ∀ id, (CellStore.sheet id).Tells invariant frail (m.sheet id)
  sheetNamed : ∀ workbook name,
    (CellStore.sheetNamed workbook name).Tells invariant frail (m.sheetNamed workbook name)

structure Truthful (m : Memory) (invariant : σ → Prop) (frail : Prop) : Prop
    extends Placed m invariant frail where
  cell : ∀ k, (CellStore.cell k).Tells invariant frail (m.recordAt k)
  range : ∀ r, (CellStore.range r).Tells invariant frail (m.recordsIn r)

namespace Memory

variable (m : Memory)

theorem reading_tells {α : Type} (available : m.available = true) (f : Memory → α) :
    (reading f).Tells (· = m) False (f m) := by
  intro s same
  subst same
  unfold Attempt.Ends
  rw [run_reading, available]
  exact ⟨rfl, rfl⟩

theorem truthful (available : m.available = true) : Truthful m (· = m) False where
  sheet id := m.reading_tells available (·.sheet id)
  sheetNamed workbook name := m.reading_tells available (·.sheetNamed workbook name)
  cell k := m.reading_tells available (·.recordAt k)
  range r := m.reading_tells available (·.recordsIn r)

-- Sheets do not depend on the cells, nor on whether the memory is switched on.
theorem placed (n : Memory) (sheets : n.sheets = m.sheets) : Placed m (· = n) True := by
  have told {α : Type} (f : Memory → α) (same : f n = f m) :
      (reading f).Tells (· = n) True (f m) := by
    intro s here
    subst here
    unfold Attempt.Ends
    rw [run_reading]
    cases s.available with
    | true => exact ⟨rfl, same⟩
    | false => exact ⟨rfl, trivial⟩
  exact ⟨fun id => told (·.sheet id) (by simp only [sheet, sheets]),
    fun workbook name => told (·.sheetNamed workbook name) (by simp only [sheetNamed, sheets])⟩

end Memory

namespace Faulty

variable (m : Memory)

theorem truthful : Truthful m (fun s : Faulty => s.memory = m) True := by
  have told {α : Type} (call : StoreCall) (f : Memory → α) :
      (guarded call (Memory.reading f)).Tells (·.memory = m) True (f m) := by
    intro s same
    subst same
    unfold Attempt.Ends
    rw [run_guarded_reading]
    cases s.refusal call with
    | some error => exact ⟨rfl, trivial⟩
    | none => exact ⟨rfl, rfl⟩
  exact ⟨⟨fun _ => told _ _, fun _ _ => told _ _⟩, fun _ => told _ _, fun _ => told _ _⟩

-- The store refuses no call any more.
structure Recovered (s : Faulty) : Prop where
  available : s.memory.available = true
  faultless : ∀ n, s.calls ≤ n → ∀ call, s.fault n call = none

theorem recovered_accepts (s : Faulty) (recovered : s.Recovered) (call : StoreCall) :
    s.refusal call = none := by
  simp [refusal, recovered.available, recovered.faultless s.calls (Nat.le_refl _)]

theorem recovered_truthful :
    Truthful m (fun s : Faulty => s.memory = m ∧ s.Recovered) False := by
  have told {α : Type} (call : StoreCall) (f : Memory → α) :
      (guarded call (Memory.reading f)).Tells (fun s => s.memory = m ∧ s.Recovered) False
        (f m) := by
    intro s holds
    obtain ⟨same, recovered⟩ := holds
    subst same
    unfold Attempt.Ends
    rw [run_guarded_reading, recovered_accepts s recovered]
    have counted : s.counted.Recovered :=
      ⟨recovered.available, fun n later => recovered.faultless n (Nat.le_of_succ_le later)⟩
    exact ⟨⟨rfl, counted⟩, rfl⟩
  exact ⟨⟨fun _ => told _ _, fun _ _ => told _ _⟩, fun _ => told _ _, fun _ => told _ _⟩

end Faulty

end Spreadsheet
