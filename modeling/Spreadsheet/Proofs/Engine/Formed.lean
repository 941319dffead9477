import Spreadsheet.Engine.Context
import Spreadsheet.Proofs.Store.Replies

-- Contexts as they come to be, also over a store that has failed meanwhile. Only formulas of a
-- context are ever waiting or kept in it, and over a memory that is switched on every cell has a
-- value.

set_option autoImplicit false

namespace Spreadsheet

open Formula

section Lasts

variable {σ τ α β : Type} (invariant : σ → Prop) (frail : Prop)

-- The attempt keeps the invariant, and only a frail one fails.
def Attempt.Lasts (act : Attempt σ α) : Prop :=
  ∀ s, invariant s → act.Ends s fun result t => invariant t ∧ (frail ∨ ∃ a, result = .ok a)

theorem lasts_pure (a : α) : Attempt.Lasts invariant frail (pure a) :=
  fun _ holds => ⟨holds, .inr ⟨a, rfl⟩⟩

theorem lasts_bind (act : Attempt σ α) (next : α → Attempt σ β)
    (first : act.Lasts invariant frail) (later : ∀ a, (next a).Lasts invariant frail) :
    (act >>= next).Lasts invariant frail := by
  intro s holds
  apply ends_bind act next s _ _ (first s holds)
  · exact fun a t ended => later a t ended.1
  · rintro error t ⟨kept, weak | ⟨a, same⟩⟩
    · exact ⟨kept, .inl weak⟩
    · cases same

theorem lasts_get (next : σ → Attempt σ β)
    (later : ∀ s, invariant s → (next s).Lasts invariant frail) :
    Attempt.Lasts invariant frail (get >>= next) := fun s holds => later s holds s holds

theorem lasts_set (t : σ) (holds : invariant t) : Attempt.Lasts invariant frail (set t) :=
  fun _ _ => ⟨holds, .inr ⟨_, rfl⟩⟩

theorem lasts_modify (f : σ → σ) (kept : ∀ s, invariant s → invariant (f s)) :
    Attempt.Lasts invariant frail (modify f) := fun s holds => ⟨kept s holds, .inr ⟨_, rfl⟩⟩

theorem lasts_map_each (act : α → Attempt σ β) (list : List α)
    (each : ∀ x, (act x).Lasts invariant frail) : (list.mapM act).Lasts invariant frail := by
  induction list with
  | nil => exact lasts_pure invariant frail []
  | cons x rest ih =>
    rw [List.mapM_cons]
    apply lasts_bind _ _ _ _ (each x)
    intro y
    apply lasts_bind _ _ _ _ ih
    intro ys
    exact lasts_pure _ _ _

theorem Formula.Reading.run_lasts (act : (q : Query) → Attempt σ q.Answer) (t : Reading α)
    (each : ∀ q, (act q).Lasts invariant frail) :
    Attempt.Lasts invariant frail (t.run act) := by
  induction t with
  | done a => exact lasts_pure invariant frail a
  | ask q next ih => exact lasts_bind _ _ _ _ (each q) ih

theorem lasts_of_tells (act : Attempt σ α) (a : α) (tells : act.Tells invariant frail a) :
    act.Lasts invariant frail := by
  intro s holds
  apply ends_mono _ s _ _ (tells s holds)
  rintro result t ⟨kept, gives⟩
  cases result with
  | ok b => exact ⟨kept, .inr ⟨b, rfl⟩⟩
  | error error => exact ⟨kept, .inl gives⟩

theorem lasts_trivial (act : Attempt σ α) : act.Lasts (fun _ => True) True :=
  fun _ _ => ⟨trivial, .inl trivial⟩

theorem returns_of_lasts (act : Attempt σ α) (lasts : act.Lasts invariant False) (s : σ)
    (holds : invariant s) : ∃ a t, act.Returns s a t ∧ invariant t := by
  obtain ⟨kept, never | ⟨a, same⟩⟩ := lasts s holds
  · exact never.elim
  · exact ⟨a, _, Prod.ext same rfl, kept⟩

-- All reads of the store last.
structure Steady [CellStore σ] : Prop where
  cell : ∀ k, (CellStore.cell k).Lasts invariant frail
  range : ∀ r, (CellStore.range r).Lasts invariant frail
  sheet : ∀ id, (CellStore.sheet id).Lasts invariant frail
  sheetNamed : ∀ workbook name, (CellStore.sheetNamed workbook name).Lasts invariant frail

theorem steady_of_truthful [CellStore σ] (m : Memory) (truthful : Truthful m invariant frail) :
    Steady invariant frail :=
  ⟨fun k => lasts_of_tells _ _ _ _ (truthful.cell k),
    fun r => lasts_of_tells _ _ _ _ (truthful.range r),
    fun id => lasts_of_tells _ _ _ _ (truthful.sheet id),
    fun workbook name => lasts_of_tells _ _ _ _ (truthful.sheetNamed workbook name)⟩

theorem steady_trivial [CellStore σ] : Steady (σ := σ) (fun _ => True) True :=
  ⟨fun _ => lasts_trivial _, fun _ => lasts_trivial _, fun _ => lasts_trivial _,
    fun _ _ => lasts_trivial _⟩

end Lasts

namespace Context

-- Only formulas of the context wait in it or have a kept result.
structure Formed {σ : Type} (sound : σ → Prop) (formulas : KeyMap Compiled) (c : Context σ) :
    Prop where
  store : sound c.store
  planned : c.formulas = formulas
  pending : ∀ k ∈ c.pending, k ∈ formulas
  cached : ∀ k ∈ c.cache, k ∈ formulas

section Formed

variable {σ : Type} (sound : σ → Prop) (frail : Prop) (formulas : KeyMap Compiled)

theorem formed_marked (c : Context σ) (cells : List Key) (formed : Formed sound formulas c) :
    Formed sound formulas (c.markCyclic cells) :=
  ⟨formed.store, formed.planned, formed.pending, formed.cached⟩

theorem formed_remembered (c : Context σ) (k : Key) (v : Value) (known : k ∈ formulas)
    (formed : Formed sound formulas c) : Formed sound formulas (c.remember k v) := by
  refine ⟨formed.store, formed.planned, formed.pending, fun p kept => ?_⟩
  rcases (member_insert_key c.cache k p v).mp kept with rfl | before
  · exact known
  · exact formed.cached p before

theorem calling_lasts {α : Type} (act : Attempt σ α) (lasts : act.Lasts sound frail) :
    (calling act).Lasts (Formed sound formulas) frail := by
  intro c formed
  apply ends_within
  apply ends_mono _ _ _ _ (lasts c.store formed.store)
  rintro result s ⟨kept, answered⟩
  exact ⟨⟨kept, formed.planned, formed.pending, formed.cached⟩, answered⟩

variable [CellStore σ] (steady : Steady sound frail)
include steady

theorem stored_value_lasts (k : Key) : (storedValue k).Lasts (Formed sound formulas) frail := by
  apply lasts_bind _ _ _ _ (calling_lasts sound frail formulas _ (steady.cell k))
  intro record?
  exact lasts_pure _ _ _

theorem sheet_named_lasts (home : SheetId) (name : String) :
    (sheetNamed home name).Lasts (Formed sound formulas) frail := by
  have noted (found? : Option SheetId) : Attempt.Lasts (Formed sound formulas) frail (do
      modify fun c : Context σ =>
        { c with sheets := ((home, Text.upper name), found?) :: c.sheets }
      return found?) := by
    apply lasts_bind
    · apply lasts_modify
      exact fun c formed => ⟨formed.store, formed.planned, formed.pending, formed.cached⟩
    · exact fun _ => lasts_pure _ _ _
  apply lasts_get
  intro c _
  split
  · exact lasts_pure _ _ _
  · apply lasts_bind _ _ _ _ (calling_lasts sound frail formulas _ (steady.sheet home))
    intro info?
    cases info? with
    | none => exact lasts_bind _ _ _ _ (lasts_pure _ _ none) noted
    | some info =>
      have named := calling_lasts sound frail formulas _ (steady.sheetNamed info.workbook name)
      exact lasts_bind _ _ _ _ named noted

theorem range_with_lasts (cell : Key → Attempt (Context σ) Value)
    (each : ∀ k, (cell k).Lasts (Formed sound formulas) frail) (path : Path) (r : SheetRange) :
    (rangeWith cell path r).Lasts (Formed sound formulas) frail := by
  apply lasts_bind _ _ _ _ (calling_lasts sound frail formulas _ (steady.range r))
  intro records
  apply lasts_bind
  · apply lasts_map_each
    intro record
    apply lasts_get
    intro c _
    split
    · exact lasts_bind _ _ _ _ (each record.key) fun v => lasts_pure _ _ _
    · exact lasts_pure _ _ _
  · intro values
    exact lasts_pure _ _ _

theorem answer_with_lasts (cell : Key → Attempt (Context σ) Value)
    (each : ∀ k, (cell k).Lasts (Formed sound formulas) frail) (path : Path) (q : Query) :
    (answerWith cell path q).Lasts (Formed sound formulas) frail := by
  cases q with
  | cell k => exact each k
  | range r => exact range_with_lasts sound frail formulas steady cell each path r
  | sheet home name => exact sheet_named_lasts sound frail formulas steady home name

theorem compute_with_lasts (cell : Path → Key → Attempt (Context σ) Value)
    (each : ∀ path k, (cell path k).Lasts (Formed sound formulas) frail) (path : Path) (k : Key)
    (known : k ∈ formulas) : (computeWith cell path k).Lasts (Formed sound formulas) frail := by
  have remembered (v : Value) : Attempt.Lasts (Formed sound formulas) frail
      (modify fun c => c.remember k v) :=
    lasts_modify _ _ _ fun c formed => formed_remembered sound formulas c k v known formed
  apply lasts_bind
  · apply lasts_modify
    refine fun c formed => ⟨formed.store, formed.planned, fun p waiting => ?_, formed.cached⟩
    exact formed.pending p ((member_erase c.pending k p).mp waiting).2
  · intro _
    apply lasts_get
    intro c _
    split
    · exact lasts_bind _ _ _ _ (remembered circular) fun _ => lasts_pure _ _ _
    · apply lasts_get
      intro d _
      split
      · exact stored_value_lasts sound frail formulas steady k
      · rename_i formula _
        apply lasts_bind _ _ _ _ (Reading.run_lasts _ _ _ _ fun q =>
          answer_with_lasts sound frail formulas steady _ (each _) _ q)
        intro v
        apply lasts_get
        intro _ _
        exact lasts_bind _ _ _ _ (remembered _) fun _ => lasts_pure _ _ _

theorem lookup_with_lasts (compute : Path → Key → Attempt (Context σ) Value) (path : Path)
    (k : Key)
    (computes : k ∈ formulas → (compute path k).Lasts (Formed sound formulas) frail) :
    (lookupWith compute path k).Lasts (Formed sound formulas) frail := by
  apply lasts_get
  intro c formed
  split
  · exact lasts_pure _ _ _
  · split
    · apply lasts_bind _ _ _ _ (lasts_set _ _ _ (formed_marked sound formulas c _ formed))
      intro _
      exact lasts_pure _ _ _
    · split
      · rename_i waiting
        exact computes (formed.pending k waiting)
      · exact stored_value_lasts sound frail formulas steady k

theorem cell_at_lasts (room : Nat) (path : Path) (k : Key) :
    (cellAt room path k).Lasts (Formed sound formulas) frail := by
  induction room generalizing path k with
  | zero => exact lookup_with_lasts sound frail formulas steady _ path k fun _ => lasts_pure _ _ _
  | succ room ih =>
    exact lookup_with_lasts sound frail formulas steady _ path k
      (compute_with_lasts sound frail formulas steady _ ih path k)

theorem answer_lasts (path : Path) (q : Query) :
    (answerWith (cellValue path) path q).Lasts (Formed sound formulas) frail :=
  answer_with_lasts sound frail formulas steady _
    (fun k => cell_at_lasts sound frail formulas steady _ path k) path q

end Formed

-- A context as requests and formulas use it, over a store that may be exchanged meanwhile. What is
-- asked may have failed.
inductive Arisen {σ : Type} [CellStore σ] : Context σ → Prop where
  | new (store : σ) (formulas : KeyMap Compiled) : Arisen (ofFormulas store formulas)
  | marked (c : Context σ) (before : Arisen c) (cells : List Key) : Arisen (c.markCyclic cells)
  | exchanged (c : Context σ) (before : Arisen c) (store : σ) : Arisen { c with store }
  | asked (c : Context σ) (before : Arisen c) (path : Path) (q : Query) :
      Arisen ((answerWith (cellValue path) path q).run.run c).2

theorem arisen_formed {σ : Type} [CellStore σ] (c : Context σ) (arisen : c.Arisen) :
    Formed (fun _ => True) c.formulas c := by
  induction arisen with
  | new store formulas =>
    refine ⟨trivial, rfl, fun k waiting => ?_, fun k kept => ?_⟩
    · simpa [ofFormulas] using waiting
    · simp [ofFormulas] at kept
  | marked c _ cells formed => exact formed_marked _ c.formulas c cells formed
  | exchanged c _ store formed => exact ⟨trivial, rfl, formed.pending, formed.cached⟩
  | asked c _ path q formed =>
    have kept := (answer_lasts _ True c.formulas steady_trivial path q c formed).1
    rw [kept.planned]
    exact kept

end Context

end Spreadsheet
