import Spreadsheet.Store.Memory
import Spreadsheet.Proofs.Formula.Reading

-- Attempts that succeed, as a relation between the states before and after. A memory that is
-- switched on answers every call, so whatever is built of its calls succeeds as well.

set_option autoImplicit false

namespace Spreadsheet

-- From the state `s` the attempt succeeds with `a` and leaves `t`.
def Attempt.Returns {σ α : Type} (act : Attempt σ α) (s : σ) (a : α) (t : σ) : Prop :=
  act.run.run s = (.ok a, t)

section Returns

variable {σ τ α β : Type}

theorem returns_pure (s : σ) (a : α) : Attempt.Returns (pure a) s a s := rfl

theorem returns_bind (act : Attempt σ α) (next : α → Attempt σ β) (s t u : σ) (a : α) (b : β)
    (first : act.Returns s a t) (second : (next a).Returns t b u) :
    Attempt.Returns (act >>= next) s b u := by
  unfold Attempt.Returns at *
  rw [ExceptT.run_bind, StateT.run_bind, first]
  exact second

theorem returns_map (act : Attempt σ α) (f : α → β) (s t : σ) (a : α) (first : act.Returns s a t) :
    Attempt.Returns (f <$> act) s (f a) t := by
  rw [map_eq_pure_bind]
  exact returns_bind act _ s t t a (f a) first (returns_pure t (f a))

theorem returns_map_cons (act : α → Attempt σ β) (x : α) (rest : List α) (s t u : σ) (y : β)
    (ys : List β) (first : (act x).Returns s y t) (later : (rest.mapM act).Returns t ys u) :
    ((x :: rest).mapM act).Returns s (y :: ys) u := by
  rw [List.mapM_cons]
  exact returns_bind _ _ s t u y _ first
    (returns_bind _ _ t u u ys _ later (returns_pure u _))

theorem returns_map_each (act : α → Attempt σ β) (f : α → β) (s : σ) (list : List α)
    (each : ∀ x ∈ list, (act x).Returns s (f x) s) :
    (list.mapM act).Returns s (list.map f) s := by
  induction list with
  | nil => exact returns_pure s []
  | cons x rest ih =>
    have first := each x List.mem_cons_self
    have later := ih fun y member => each y (List.mem_cons_of_mem x member)
    exact returns_map_cons act x rest s s s _ _ first later

theorem returns_get (s : σ) : Attempt.Returns get s s s := rfl

theorem returns_modify (f : σ → σ) (s : σ) : Attempt.Returns (modify f) s () (f s) := rfl

theorem returns_within (get : τ → σ) (set : σ → τ → τ) (act : Attempt σ α) (t : τ) (a : α) (s : σ)
    (inner : act.Returns (get t) a s) : (act.within get set).Returns t a (set s t) := by
  exact congrArg (fun outcome => (outcome.1, set outcome.2 t)) inner

-- A reading whose questions are answered as fixed contents would, by attempts that keep an
-- invariant of the state, gives its value under these contents. Attempts that answer alike leave
-- the same state.
theorem Formula.Reading.run_answers {ι : Type} (answer : (q : Formula.Query) → q.Answer)
    (asked : Formula.Query → Prop) (act : ι → (q : Formula.Query) → Attempt σ q.Answer)
    (invariant : σ → Prop) (t : Formula.Reading α)
    (within : t.Within (fun q => .ok (answer q)) asked)
    (replies : ∀ q s, asked q → invariant s →
      ∃ u, (∀ i, (act i q).Returns s (answer q) u) ∧ invariant u) (s : σ) (holds : invariant s) :
    ∃ u, (∀ i, Attempt.Returns (t.run (act i)) s (t.value answer) u) ∧ invariant u := by
  induction t generalizing s with
  | done a => exact ⟨s, fun _ => returns_pure s a, holds⟩
  | ask q next ih =>
    obtain ⟨u, replied, kept⟩ := replies q s within.1 holds
    obtain ⟨v, later, after⟩ := ih (answer q) (within.2 (answer q) rfl) u kept
    exact ⟨v, fun i => returns_bind _ _ s u v _ _ (replied i) (later i), after⟩

end Returns

namespace Memory

variable (m : Memory) (available : m.available = true)
include available

theorem reading_returns {α : Type} (f : Memory → α) : (reading f).Returns m (f m) m := by
  refine returns_bind _ _ m m m m (f m) (returns_get m) ?_
  rw [if_pos available]
  exact returns_pure m (f m)

theorem writing_returns (f : Memory → Memory) : (writing f).Returns m () (f m) := by
  refine returns_bind _ _ m m (f m) m () (returns_get m) ?_
  rw [if_pos available]
  rfl

end Memory

end Spreadsheet
