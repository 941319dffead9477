import Spreadsheet.Proofs.Engine.Outcomes

-- Recalculations over a store with faults beside one without. As long as no call fails they go the
-- same way.

set_option autoImplicit false

namespace Spreadsheet

open Formula

namespace Engine

-- An engine over a store with faults beside one without, unless it is frail they end alike.
def Shadows (frail : Prop) (e : Engine Faulty) (f : Engine Memory) : Prop :=
  e.plain = f ∧ (frail ∨ e.store.Sure)

section Shadows

variable (frail : Prop)

theorem run_from_tied (e : Engine Faulty) (formulas : KeyMap Compiled) (n : Nat)
    (list : List Key) :
    Attempt.Tied (Context.Beside formulas (Context.linked (Faulty.Follows frail))) frail
      (e.runFrom n list) (e.plain.runFrom n list) := by
  induction list generalizing n with
  | nil => exact tied_pure _ _ _
  | cons k rest ih =>
    have clock : e.plain.expired n = e.expired n := rfl
    unfold runFrom
    rw [clock]
    by_cases late : e.expired n = true
    · simp only [late, if_true]
      exact tied_pure _ _ _
    · simp only [late, Bool.false_eq_true, if_false]
      apply tied_bind _ _ _ _ _ _
        (Context.evaluate_tied _ frail formulas (Faulty.reads_follow frail) k)
      intro v
      apply tied_get
      intro c d beside
      rw [beside.formulas]
      cases c.formulas[k]? with
      | none => exact ih (n + 1) c d beside
      | some formula =>
        apply tied_bind _ _ _ _ _ _ _ _ c d beside
        · exact Context.call_tied _ frail formulas _ _
            (Faulty.writing_follows frail (.putFormula k) _ (fun _ => rfl) fun _ => rfl)
        · intro _
          apply tied_bind _ _ _ _ _ _ (ih (n + 1))
          intro report
          exact tied_pure _ _ _

theorem run_tied (seeds : List Key) :
    Attempt.Tied (Shadows frail) frail (run seeds) (run seeds) := by
  rintro e _ ⟨rfl, sure⟩
  have tied := run_from_tied frail e (e.registry.plan seeds).formulas 0
    (e.registry.plan seeds).order (e.started seeds) (e.plain.started seeds)
    ⟨rfl, rfl, rfl, rfl, rfl, ⟨rfl, sure⟩, rfl⟩
  have registry : e.plain.registry = e.registry := rfl
  unfold Attempt.Abreast
  rw [run_eq, run_eq, registry]
  cases tied with
  | inl alike =>
    have follows := alike.2.link.1
    exact .inl ⟨alike.1, congrArg (fun store => { e.plain with store }) follows.plain, follows.sure⟩
  | inr failed => exact .inr failed

theorem holding_tied {α : Type} (sheets : SheetSet) (act : Attempt (Engine Faulty) α)
    (other : Attempt (Engine Memory) α) (tied : act.Tied (Shadows frail) frail other) :
    (holding sheets act).Tied (Shadows frail) frail (holding sheets other) := by
  rintro e _ ⟨rfl, sure⟩
  let release (f : Engine Memory) : Engine Memory := { f with locks := f.locks.release ⟨sheets⟩ }
  cases tied { e with locks := (e.locks.acquire sheets).2 } _ ⟨rfl, sure⟩ with
  | inl alike =>
    obtain ⟨same, shadows, kept⟩ := alike
    exact .inl ⟨same, congrArg release shadows, kept⟩
  | inr failed => exact .inr failed

theorem recalculate_tied (sheet : SheetId) (addresses : List Address) :
    Attempt.Tied (Shadows frail) frail (recalculate sheet addresses)
      (recalculate sheet addresses) := by
  let seeds := addresses.map fun a => (⟨sheet, a⟩ : Key)
  apply tied_get
  rintro e _ ⟨rfl, sure⟩
  have ran := holding_tied frail (e.lockClosure seeds (.ofList (seeds.map Key.sheet))) _ _
    (run_tied frail seeds)
  exact ran e e.plain ⟨rfl, sure⟩

end Shadows

end Engine

end Spreadsheet
