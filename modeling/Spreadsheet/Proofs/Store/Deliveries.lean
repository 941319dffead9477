import Spreadsheet.Proofs.Store.Faults

-- Attempts whose answer is known beforehand: they give it and keep their state calm, or they fail
-- and leave a broken state. The calls that look for sheets and formulas are of this kind, also
-- where a store counts its failures.

set_option autoImplicit false

namespace Spreadsheet

section Delivers

variable {σ α β : Type} (calm broken : σ → Prop)

def Attempt.Delivers (act : Attempt σ α) (a : α) : Prop :=
  ∀ s, calm s → act.Ends s fun result t =>
    match result with
    | .ok b => b = a ∧ calm t
    | .error _ => broken t

theorem delivers_pure (a : α) : Attempt.Delivers calm broken (pure a) a :=
  fun _ holds => ⟨rfl, holds⟩

theorem delivers_bind (act : Attempt σ α) (next : α → Attempt σ β) (a : α) (b : β)
    (first : act.Delivers calm broken a) (later : (next a).Delivers calm broken b) :
    (act >>= next).Delivers calm broken b := by
  intro s holds
  apply ends_bind act next s _ _ (first s holds)
  · rintro _ t ⟨rfl, kept⟩
    exact later t kept
  · exact fun _ _ failed => failed

theorem delivers_get (next : σ → Attempt σ β) (b : β)
    (later : ∀ s, calm s → (next s).Delivers calm broken b) :
    Attempt.Delivers calm broken (get >>= next) b :=
  fun s holds => later s holds s holds

-- Where only one state is calm and none is broken, the attempt returns to that state.
theorem returns_of_delivers (act : Attempt σ α) (s : σ) (a : α) (here : calm s)
    (only : ∀ t, calm t → t = s) (safe : ∀ t, ¬broken t) (delivers : act.Delivers calm broken a) :
    act.Returns s a s := by
  have ended := delivers s here
  unfold Attempt.Ends at ended
  cases ran : act.run.run s with
  | mk result t =>
    rw [ran] at ended
    cases result with
    | ok b =>
      obtain ⟨rfl, kept⟩ := ended
      obtain rfl := only t kept
      exact ran
    | error error => exact absurd ended (safe t)

end Delivers

-- The store knows the sheets and the stored formulas of the memory.
structure Supplies {σ : Type} [CellStore σ] (m : Memory) (calm broken : σ → Prop) : Prop where
  sheet : ∀ id, (CellStore.sheet id).Delivers calm broken (m.sheet id)
  sheetNamed : ∀ workbook name,
    (CellStore.sheetNamed workbook name).Delivers calm broken (m.sheetNamed workbook name)
  formulaCells : ∀ sheet,
    (CellStore.formulaCells sheet).Delivers calm broken (m.formulasOn sheet)

theorem Memory.supplies (m : Memory) (available : m.available = true) :
    Supplies m (· = m) fun _ => False := by
  have read {α : Type} (f : Memory → α) :
      (reading f).Delivers (· = m) (fun _ => False) (f m) := by
    intro s same
    subst same
    unfold Attempt.Ends
    rw [run_reading, if_pos available]
    exact ⟨rfl, rfl⟩
  exact ⟨fun id => read (·.sheet id), fun workbook name => read (·.sheetNamed workbook name),
    fun sheet => read (·.formulasOn sheet)⟩

-- Sheets and formulas do not depend on whether the memory is switched on.
theorem Faulty.supplies (m : Memory) (available : Bool) :
    Supplies (m.setAvailable available) (fun s : Faulty => s.memory = m) fun s => s.memory = m := by
  have read {α : Type} (call : StoreCall) (f : Memory → α)
      (blind : f m = f (m.setAvailable available)) :
      (guarded call (Memory.reading f)).Delivers (·.memory = m) (·.memory = m)
        (f (m.setAvailable available)) := by
    intro s same
    subst same
    unfold Attempt.Ends
    rw [run_guarded_reading]
    cases s.refusal call with
    | some error => rfl
    | none => exact ⟨blind, rfl⟩
  exact ⟨fun id => read (.sheet id) (·.sheet id) rfl,
    fun workbook name => read (.sheetNamed workbook name) (·.sheetNamed workbook name) rfl,
    fun sheet => read (.formulaCells sheet) (·.formulasOn sheet) rfl⟩

-- A store that counts how many of its calls have failed.
structure Watched (σ : Type) where
  store : σ
  failures : Nat

namespace Watched

variable {σ α : Type}

def watching (act : Attempt σ α) : Attempt (Watched σ) α :=
  ExceptT.mk fun w =>
    match act.run.run w.store with
    | (.ok a, store) => (.ok a, ⟨store, w.failures⟩)
    | (.error error, store) => (.error error, ⟨store, w.failures + 1⟩)

instance [CellStore σ] : CellStore (Watched σ) where
  cell k := watching (CellStore.cell k)
  range r := watching (CellStore.range r)
  putValue k v := watching (CellStore.putValue k v)
  putFormula k f := watching (CellStore.putFormula k f)
  sheetNamed workbook name := watching (CellStore.sheetNamed workbook name)
  sheet id := watching (CellStore.sheet id)
  formulaCells sheet := watching (CellStore.formulaCells sheet)

variable (calm broken : σ → Prop) (n : Nat)

-- A store in some state that has seen so many failures.
def Seen (holds : σ → Prop) (w : Watched σ) : Prop := holds w.store ∧ w.failures = n

theorem watching_delivers (act : Attempt σ α) (a : α) (delivers : act.Delivers calm broken a) :
    (watching act).Delivers (Seen n calm) (Seen (n + 1) broken) a := by
  rintro w ⟨holds, count⟩
  have ended := delivers w.store holds
  have watched : (watching act).run.run w =
      match act.run.run w.store with
      | (.ok a, store) => (.ok a, ⟨store, w.failures⟩)
      | (.error error, store) => (.error error, ⟨store, w.failures + 1⟩) := rfl
  unfold Attempt.Ends at ended ⊢
  rw [watched]
  cases ran : act.run.run w.store with
  | mk result t =>
    rw [ran] at ended
    cases result with
    | ok b => exact ⟨ended.1, ended.2, count⟩
    | error error => exact ⟨ended, congrArg (· + 1) count⟩

theorem supplies [CellStore σ] (m : Memory) (supplied : Supplies m calm broken) :
    Supplies m (Seen n calm) (Seen (n + 1) broken) :=
  ⟨fun id => watching_delivers calm broken n _ _ (supplied.sheet id),
    fun workbook name => watching_delivers calm broken n _ _ (supplied.sheetNamed workbook name),
    fun sheet => watching_delivers calm broken n _ _ (supplied.formulaCells sheet)⟩

end Watched

end Spreadsheet
