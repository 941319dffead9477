import Spreadsheet.Proofs.Engine.Touched

-- What holds of a registry through every change of one formula, holds of it after every request,
-- whatever becomes of the request; and every request gives back its locks.

set_option autoImplicit false

namespace Spreadsheet

open Formula

section Sheets

variable (s t : SheetSet) (x : SheetId)

theorem mem_union : x ∈ s.union t ↔ x ∈ s ∨ x ∈ t := by
  rw [SheetSet.union, member_insert_all, Std.ExtTreeSet.mem_toList, or_comm]

theorem mem_difference : x ∈ s.difference t ↔ x ∈ s ∧ x ∉ t := by
  rw [SheetSet.difference, member_erase_all, Std.ExtTreeSet.mem_toList, and_comm]

-- Locks taken where none were held are all given back.
theorem release_acquired (locks : Locks) (free : locks.held = ∅) :
    (locks.acquire s).2.release (locks.acquire s).1 = locks := by
  have none : (locks.held.union s).difference s = locks.held := by
    apply Std.ExtTreeSet.ext_mem
    intro y
    rw [mem_difference, mem_union, free]
    simp
  exact congrArg Locks.mk none

end Sheets

namespace Engine

variable {σ : Type}

-- The registry has a property, and certain locks are held.
structure Stands (holds : Registry → Prop) (locks : Locks) (e : Engine σ) : Prop where
  registry : holds e.registry
  locks : e.locks = locks

section Steps

variable (holds : Registry → Prop) (locks : Locks)

theorem calling_stands {α : Type} (act : Attempt σ α) :
    (calling act).Keeps (Stands holds locks) :=
  fun _ stands => ⟨stands.registry, stands.locks⟩

theorem fold_holds {α : Type} (change : Registry → α → Registry)
    (each : ∀ r a, holds r → holds (change r a)) (list : List α) (r : Registry)
    (first : holds r) : holds (list.foldl change r) := by
  induction list generalizing r with
  | nil => exact first
  | cons a rest ih => exact ih (change r a) (each r a first)

theorem modify_registry_stands (f : Registry → Registry) (each : ∀ r, holds r → holds (f r)) :
    Attempt.Keeps (Stands (σ := σ) holds locks) (modifyRegistry f) :=
  fun e stands => ⟨each e.registry stands.registry, stands.locks⟩

theorem holding_stands {α : Type} (free : locks.held = ∅) (sheets : SheetSet)
    (act : Attempt (Engine σ) α) (inner : ∀ taken, act.Keeps (Stands holds taken)) :
    (holding sheets act).Keeps (Stands holds locks) := by
  intro e stands
  apply holding_ends
  have ran := inner (e.locks.acquire sheets).2 { e with locks := (e.locks.acquire sheets).2 }
    ⟨stands.registry, rfl⟩
  apply ends_mono _ _ _ _ ran
  intro _ u kept
  refine ⟨kept.registry, ?_⟩
  rw [kept.locks, stands.locks]
  exact release_acquired sheets locks free

variable [CellStore σ]

theorem stage_stands (k : Key) (input : Input) :
    Attempt.Keeps (Stands (σ := σ) holds locks) (stage k input) := by
  cases input with
  | value v => exact keeps_pure _ _
  | formula source =>
    apply keeps_get
    intro e
    apply keeps_bind _ _ _ (calling_stands holds locks _)
    intro bound
    exact keeps_pure _ _

theorem run_stands (seeds : List Key) :
    Attempt.Keeps (Stands (σ := σ) holds locks) (run seeds) :=
  fun _ stands => ⟨stands.registry, stands.locks⟩

theorem stage_records_stands (records : List Record) :
    Attempt.Keeps (Stands (σ := σ) holds locks) (stageRecords records) := by
  induction records with
  | nil => exact keeps_pure _ _
  | cons record rest ih =>
    unfold stageRecords
    cases record.cell.source? with
    | none => exact ih
    | some source =>
      apply keeps_get
      intro e
      apply keeps_bind _ _ _ (calling_stands holds locks _)
      intro references
      apply keeps_bind _ _ _ ih
      intro staged
      exact keeps_pure _ _

theorem recalculate_stands (free : locks.held = ∅) (sheet : SheetId) (addresses : List Address) :
    Attempt.Keeps (Stands (σ := σ) holds locks) (recalculate sheet addresses) := by
  apply keeps_get
  intro e
  apply holding_stands holds locks free
  intro taken
  exact run_stands holds taken _

variable (inserted : ∀ r k formula references, holds r → holds (r.insert k formula references))
  (removed : ∀ r k, holds r → holds (r.remove k))
include inserted removed

theorem commit_stands (k : Key) (content : Staged) :
    Attempt.Keeps (Stands (σ := σ) holds locks) (commit k content) := by
  cases content with
  | literal v =>
    apply keeps_bind _ _ _ (calling_stands holds locks _)
    intro _
    exact modify_registry_stands holds locks _ fun r => removed r k
  | formula c references =>
    apply keeps_bind _ _ _ (calling_stands holds locks _)
    intro _
    exact modify_registry_stands holds locks _ fun r => inserted r k c references

variable (free : locks.held = ∅)
include free

theorem apply_edit_stands (k : Key) (input : Input) :
    Attempt.Keeps (Stands (σ := σ) holds locks) (applyEdit k input) := by
  apply keeps_bind _ _ _ (stage_stands holds locks k input)
  intro content
  apply keeps_get
  intro e
  apply holding_stands holds locks free
  intro taken
  apply keeps_bind _ _ _ (commit_stands holds taken inserted removed k content)
  intro _
  exact run_stands holds taken [k]

theorem load_sheet_stands (sheet : SheetId) :
    Attempt.Keeps (Stands (σ := σ) holds locks) (loadSheet sheet) := by
  apply keeps_bind _ _ _ (calling_stands holds locks _)
  intro records
  apply keeps_bind _ _ _ (stage_records_stands holds locks records)
  intro staged
  apply holding_stands holds locks free
  intro taken
  apply keeps_bind
  · apply modify_registry_stands
    intro r first
    apply fold_holds holds _ fun r entry => inserted r _ _ _
    exact fold_holds holds _ removed _ r first
  · intro _
    exact keeps_pure _ _

theorem recalculate_sheet_stands (sheet : SheetId) :
    Attempt.Keeps (Stands (σ := σ) holds locks) (recalculateSheet sheet) := by
  have loaded := load_sheet_stands holds locks inserted removed free (σ := σ) sheet
  apply keeps_bind _ _ _ (keeps_discard _ _ loaded)
  intro _
  apply keeps_get
  intro e
  exact recalculate_stands holds locks free sheet _

end Steps

end Engine

section Histories

variable {σ : Type} [CellStore σ] (holds : Registry → Prop)
  (inserted : ∀ r k formula references, holds r → holds (r.insert k formula references))
  (removed : ∀ r k, holds r → holds (r.remove k))
include inserted removed

theorem request_stands (request : Request) :
    Attempt.Keeps (Engine.Stands (σ := σ) holds .none) request.perform := by
  cases request with
  | edit change =>
    have edited := Engine.apply_edit_stands holds .none inserted removed rfl (σ := σ)
    cases change with
    | typed k text => exact keeps_discard _ _ (edited k (.ofTyped text))
    | given k input => exact keeps_discard _ _ (edited k input)
  | recalculate sheet addresses =>
    exact keeps_discard _ _ (Engine.recalculate_stands holds .none rfl sheet addresses)
  | recalculateSheet sheet =>
    exact keeps_discard _ _
      (Engine.recalculate_sheet_stands holds .none inserted removed rfl sheet)
  | loadSheet sheet =>
    exact keeps_discard _ _ (Engine.load_sheet_stands holds .none inserted removed rfl sheet)

theorem attempts_stand (e : Engine σ) (stands : e.Stands holds .none)
    (history : List (Request × (Nat → Nat))) :
    (Request.attemptAll e history).Stands holds .none := by
  induction history generalizing e with
  | nil => exact stands
  | cons timed rest ih =>
    obtain ⟨request, clock⟩ := timed
    have begun : Engine.Stands holds .none { e with clock } := ⟨stands.registry, stands.locks⟩
    exact ih _ (request_stands holds inserted removed request _ begun)

end Histories

end Spreadsheet
