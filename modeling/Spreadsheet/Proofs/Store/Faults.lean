import Spreadsheet.Store.Faulty
import Spreadsheet.Proofs.Store.Outcomes

-- Store calls under faults. A call is refused and changes nothing, or it does what it does in a
-- memory that is switched on.

set_option autoImplicit false

namespace Spreadsheet

theorem Memory.run_reading {α : Type} (f : Memory → α) (m : Memory) :
    (reading f).run.run m = (if m.available then .ok (f m) else .error switchedOff, m) := by
  change (if m.available then pure (f m) else throw switchedOff : Attempt Memory α).run.run m = _
  cases m.available with
  | true => rfl
  | false => rfl

theorem Memory.run_writing (f : Memory → Memory) (m : Memory) :
    (writing f).run.run m =
      if m.available then (.ok (), f m) else (.error switchedOff, m) := by
  change (if m.available then set (f m) else throw switchedOff : Attempt Memory Unit).run.run m = _
  cases m.available with
  | true => rfl
  | false => rfl

namespace Faulty

-- Why the store refuses its next call, if it does.
def refusal (s : Faulty) (call : StoreCall) : Option StoreError :=
  (s.fault s.calls call).or (if s.memory.available then none else some Memory.switchedOff)

def counted (s : Faulty) : Faulty := { s with calls := s.calls + 1 }

-- The contents as a memory that answers every call.
def plain (s : Faulty) : Memory := s.memory.setAvailable true

-- A store that refuses no call, now or later.
structure Sure (s : Faulty) : Prop where
  available : s.memory.available = true
  faultless : ∀ n call, s.fault n call = none

theorem sure_accepts (s : Faulty) (call : StoreCall) (sure : s.Sure) : s.refusal call = none := by
  simp [refusal, sure.available, sure.faultless]

theorem reliable_sure (m : Memory) (available : m.available = true) : (reliable m).Sure :=
  ⟨available, fun _ _ => rfl⟩

section Calls

variable {α : Type} (call : StoreCall) (s : Faulty)

theorem run_guarded (act : Attempt Memory α) :
    (guarded call act).run.run s =
      match s.fault s.calls call with
      | some error => (.error error, s.counted)
      | none => ((act.run.run s.memory).1,
          { s.counted with memory := (act.run.run s.memory).2 }) := by
  change (match s.fault s.calls call with
    | some error => throw error
    | none => act.within Faulty.memory fun memory t => { t with memory } :
      Attempt Faulty α).run.run s.counted = _
  cases s.fault s.calls call with
  | some error => rfl
  | none => rfl

theorem run_guarded_reading (f : Memory → α) :
    (guarded call (Memory.reading f)).run.run s =
      (match s.refusal call with
        | some error => .error error
        | none => .ok (f s.memory), s.counted) := by
  rw [run_guarded, refusal]
  cases s.fault s.calls call with
  | some error => rfl
  | none =>
    simp only [Memory.run_reading, Option.none_or]
    cases s.memory.available with
    | true => rfl
    | false => rfl

theorem run_guarded_writing (f : Memory → Memory) :
    (guarded call (Memory.writing f)).run.run s =
      match s.refusal call with
      | some error => (.error error, s.counted)
      | none => (.ok (), { s.counted with memory := f s.memory }) := by
  rw [run_guarded, refusal]
  cases s.fault s.calls call with
  | some error => rfl
  | none =>
    simp only [Memory.run_writing, Option.none_or]
    cases s.memory.available with
    | true => rfl
    | false => rfl

theorem reading_ends (f : Memory → α) :
    (guarded call (Memory.reading f)).Ends s fun result t =>
      t = s.counted ∧ ∀ a, result = .ok a → a = f s.memory := by
  unfold Attempt.Ends
  rw [run_guarded_reading]
  refine ⟨rfl, fun a answered => ?_⟩
  cases refused : s.refusal call with
  | some error => simp [refused] at answered
  | none => simpa [refused] using answered.symm

end Calls

-- A store beside a memory with the same contents. Only a frail one may refuse a call.
structure Follows (frail : Prop) (s : Faulty) (m : Memory) : Prop where
  plain : s.plain = m
  sure : frail ∨ s.Sure

section Follows

variable {α : Type} (frail : Prop) (call : StoreCall)

theorem follows_available (s : Faulty) (m : Memory) (follows : Follows frail s m) :
    m.available = true := follows.plain ▸ rfl

theorem frail_of_refused (s : Faulty) (m : Memory) (follows : Follows frail s m)
    (error : StoreError) (refused : s.refusal call = some error) : frail := by
  cases follows.sure with
  | inl weak => exact weak
  | inr sure =>
    rw [sure_accepts s call sure] at refused
    cases refused

theorem reading_follows (f : Memory → α) (blind : ∀ m : Memory, f (m.setAvailable true) = f m) :
    (guarded call (Memory.reading f)).Tied (Follows frail) frail (Memory.reading f) := by
  intro s m follows
  unfold Attempt.Abreast
  rw [run_guarded_reading, Memory.run_reading, follows_available frail s m follows]
  cases refused : s.refusal call with
  | some error => exact .inr ⟨frail_of_refused frail call s m follows error refused, error, rfl⟩
  | none =>
    have same : f s.memory = f m := by rw [← follows.plain, plain, blind]
    exact .inl ⟨congrArg Except.ok same, follows.plain, follows.sure.imp_right
      fun sure => ⟨sure.available, sure.faultless⟩⟩

theorem writing_follows (f : Memory → Memory)
    (blind : ∀ m : Memory, f (m.setAvailable true) = (f m).setAvailable true)
    (available : ∀ m : Memory, (f m).available = m.available) :
    (guarded call (Memory.writing f)).Tied (Follows frail) frail (Memory.writing f) := by
  intro s m follows
  unfold Attempt.Abreast
  rw [run_guarded_writing, Memory.run_writing, follows_available frail s m follows]
  cases refused : s.refusal call with
  | some error => exact .inr ⟨frail_of_refused frail call s m follows error refused, error, rfl⟩
  | none =>
    have same : (f s.memory).setAvailable true = f m := by rw [← follows.plain, plain, blind]
    exact .inl ⟨rfl, same, follows.sure.imp_right
      fun sure => ⟨(available s.memory).trans sure.available, sure.faultless⟩⟩

theorem reads_follow : Reads (Follows frail) frail :=
  ⟨fun k => reading_follows frail (.cell k) _ fun _ => rfl,
    fun r => reading_follows frail (.range r) _ fun _ => rfl,
    fun id => reading_follows frail (.sheet id) _ fun _ => rfl,
    fun workbook name => reading_follows frail (.sheetNamed workbook name) _ fun _ => rfl⟩

end Follows

-- A read only counts.
theorem reads_keep (invariant : Faulty → Prop) (counts : ∀ s, invariant s → invariant s.counted) :
    Reads (fun s t : Faulty => s = t ∧ invariant s) False := by
  have kept {α : Type} (call : StoreCall) (f : Memory → α) :
      (guarded call (Memory.reading f)).Keeps invariant := by
    intro s holds
    apply ends_mono _ s _ _ (reading_ends call s f)
    rintro _ t ⟨rfl, _⟩
    exact counts s holds
  exact ⟨fun k => tied_of_keeps _ False _ (kept (.cell k) _),
    fun r => tied_of_keeps _ False _ (kept (.range r) _),
    fun id => tied_of_keeps _ False _ (kept (.sheet id) _),
    fun workbook name => tied_of_keeps _ False _ (kept (.sheetNamed workbook name) _)⟩

theorem reads_keep_memory (m : Memory) :
    Reads (fun s t : Faulty => s = t ∧ s.memory = m) False :=
  reads_keep (·.memory = m) fun _ same => same

end Faulty

end Spreadsheet
