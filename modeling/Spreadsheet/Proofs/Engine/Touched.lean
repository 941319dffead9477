import Spreadsheet.Proofs.Engine.Outcomes
import Spreadsheet.Proofs.Engine.Requests

-- What requests touch, whatever becomes of them. A request that is cut short at any store call has
-- changed no more than one that is not: the edited cell, the results of formulas that it affects,
-- and the edges of what it registers anew. So registry and store agree after any history.

set_option autoImplicit false

namespace Spreadsheet

open Formula

-- An edit whose write does not take place, because the store refuses it or a call before it.
def Edit.Blocked (e : Engine Faulty) (change : Edit) : Prop :=
  ∀ content d, (Engine.stage change.key change.input).Returns e content d →
    d.store.refusal (content.call change.key) ≠ none

namespace Request

def edited? : Request → Option Key
  | edit change => some change.key
  | _ => none

-- Where a request starts to recalculate, with the registry that it has left.
def seeds (r : Registry) : Request → List Key
  | edit change => [change.key]
  | recalculate sheet addresses => addresses.map (⟨sheet, ·⟩)
  | recalculateSheet sheet => r.graph.formulasOn sheet
  | loadSheet _ => []

-- The cells that a request may register anew.
def Registers (r : Registry) : Request → Key → Prop
  | edit change, k => k = change.key
  | recalculate _ _, _ => False
  | recalculateSheet sheet, k => k.sheet = sheet ∧ k ∈ r.formulas
  | loadSheet sheet, k => k.sheet = sheet ∧ k ∈ r.formulas

end Request

structure Touches (request : Request) (e u : Engine Faulty) : Prop where
  agrees : Agrees u.store.memory u.registry
  cells : ∀ k, request.edited? ≠ some k →
    (∀ s ∈ request.seeds u.registry, ¬u.registry.graph.DependsOn k s) →
    ¬(k ∈ request.seeds u.registry ∧ k ∈ u.registry.formulas) →
    u.store.memory.cells[k]? = e.store.memory.cells[k]?
  inputs : ∀ k, request.edited? ≠ some k → u.store.memory.inputAt k = e.store.memory.inputAt k
  edges : ∀ k : Key, ¬request.Registers e.registry k →
    u.registry.graph.precedents[k]? = e.registry.graph.precedents[k]?

theorem untouched (m : Memory) (r : Registry) (agrees : Agrees m r) (seeds : List Key) (k : Key)
    (free : ∀ s ∈ seeds, ¬r.graph.DependsOn k s) (other : ¬(k ∈ seeds ∧ k ∈ r.formulas)) :
    k ∉ r.affected seeds := by
  rw [r.mem_affected (agrees_whole m r agrees)]
  intro member
  cases member with
  | inl dependent =>
    obtain ⟨s, seed, chain⟩ := dependent
    exact free s seed chain
  | inr seed => exact other seed

section Requests

variable (e u : Engine Faulty) (agrees : Agrees e.store.memory e.registry)
include agrees

theorem unmoved_touches (request : Request) (unmoved : Engine.Unmoved e u) :
    Touches request e u := by
  refine ⟨?_, fun k _ _ _ => ?_, fun k _ => ?_, fun k _ => ?_⟩
  · rw [unmoved.memory, unmoved.registry]
    exact agrees
  · rw [unmoved.memory]
  · rw [unmoved.memory]
  · rw [unmoved.registry]

theorem edits_touch (change : Edit) (edits : Engine.Edits e change.key change.input u) :
    Touches (.edit change) e u := by
  let content := e.plain.staged change.key change.input
  have edited := content.written_edited change.key e.store.memory
  have agreed := content.written_agrees change.key _ _ agrees
  rw [← edits.registry] at agreed
  have after := agrees_refreshed _ _ _ agreed edits.recomputed.inputs
  refine ⟨after, fun k other free apart => ?_, fun k other => ?_, fun k other => ?_⟩
  · have outside := untouched _ _ after _ k free apart
    have distinct : k ≠ change.key := fun same => other (congrArg some same.symm)
    exact (edits.recomputed.outside k outside).trans (edited.others k distinct)
  · have apart : k ≠ change.key := fun same => other (congrArg some same.symm)
    exact (edits.recomputed.inputs k).trans (edited_input _ _ _ edited k apart)
  · have apart : change.key ≠ k := fun same => other same.symm
    rw [edits.registry]
    cases e.plain.staged change.key change.input with
    | literal v =>
      simp only [Staged.registered, Registry.remove, Graph.remove_formula_lookup, if_neg apart]
    | formula c references =>
      simp only [Staged.registered, Registry.insert, Graph.set_formula_lookup, if_neg apart]

theorem loaded_edges (sheet : SheetId) (k : Key)
    (other : ¬(k.sheet = sheet ∧ k ∈ e.registry.formulas))
    (registry : u.registry = e.registry ∨ u.registry = e.loaded sheet) :
    u.registry.graph.precedents[k]? = e.registry.graph.precedents[k]? := by
  cases registry with
  | inl same => rw [same]
  | inr same =>
    rw [same]
    apply entries_lookup
    intro listed
    obtain ⟨entry, member, rfl⟩ := List.mem_map.mp listed
    obtain ⟨home, k, source, input, rfl⟩ := (Engine.mem_entries e.plain sheet entry).mp member
    obtain ⟨f, found, _⟩ := (input_formula e.plain.store k source).mp input
    exact other ⟨home, (agrees.stored k).mpr ⟨f, found⟩⟩

theorem loaded_agrees (sheet : SheetId)
    (inputs : ∀ k, u.store.memory.inputAt k = e.store.memory.inputAt k)
    (registry : u.registry = e.registry ∨ u.registry = e.loaded sheet) :
    Agrees u.store.memory u.registry := by
  apply agrees_refreshed e.store.memory _ _ _ inputs
  cases registry with
  | inl same =>
    rw [same]
    exact agrees
  | inr same =>
    rw [same]
    exact Engine.loaded_agrees e agrees sheet

theorem edit_ends (change : Edit) :
    (Request.edit change).perform.Ends e fun result u =>
      (∃ error, result = .error error) ∧ Engine.Unmoved e u ∨
        Engine.Edits e change.key change.input u := by
  have ended := Engine.apply_edit_ends e agrees change.key change.input
  have mapped : Attempt.Ends (discard (Engine.applyEdit change.key change.input)) e fun result u =>
      (∃ error, result = .error error) ∧ Engine.Unmoved e u ∨
        Engine.Edits e change.key change.input u := by
    apply ends_map
    apply ends_mono _ _ _ _ ended
    intro result u ended
    cases ended with
    | inl stopped =>
      obtain ⟨⟨error, rfl⟩, unmoved⟩ := stopped
      exact .inl ⟨⟨error, rfl⟩, unmoved⟩
    | inr edits => exact .inr edits
  cases change with
  | typed k text => exact mapped
  | given k input => exact mapped

theorem request_touches (request : Request) :
    request.perform.Ends e fun _ u => Touches request e u := by
  cases request with
  | edit change =>
    apply ends_mono _ _ _ _ (edit_ends e agrees change)
    intro _ u ended
    cases ended with
    | inl stopped => exact unmoved_touches e u agrees _ stopped.2
    | inr edits => exact edits_touch e u agrees change edits
  | recalculate sheet addresses =>
    apply ends_discard
    apply ends_mono _ _ _ _ (Engine.recalculate_ends e agrees sheet addresses)
    rintro _ u ⟨_, registry, recomputed⟩
    have after := agrees_refreshed _ _ _ agrees recomputed.inputs
    rw [← registry] at after recomputed
    exact ⟨after, fun k _ free apart => recomputed.outside k (untouched _ _ after _ k free apart),
      fun k _ => recomputed.inputs k, fun k _ => by rw [registry]⟩
  | recalculateSheet sheet =>
    apply ends_discard
    apply ends_mono _ _ _ _ (Engine.recalculate_sheet_ends e agrees sheet)
    rintro _ u ⟨_, registry, recomputed⟩
    have after := loaded_agrees e u agrees sheet recomputed.inputs registry
    exact ⟨after, fun k _ free apart => recomputed.outside k (untouched _ _ after _ k free apart),
      fun k _ => recomputed.inputs k,
      fun k other => loaded_edges e u agrees sheet k other registry⟩
  | loadSheet sheet =>
    apply ends_discard
    apply ends_mono _ _ _ _ (Engine.load_sheet_ends e agrees sheet)
    rintro _ u ⟨_, memory, registry⟩
    exact ⟨loaded_agrees e u agrees sheet (fun k => by rw [memory]) registry,
      fun k _ _ _ => by rw [memory], fun k _ => by rw [memory],
      fun k other => loaded_edges e u agrees sheet k other registry⟩

-- A request with a clock of its own, and the engine that it leaves, whether it fails or not.
def Request.attempt {σ : Type} [CellStore σ] (e : Engine σ) (timed : Request × (Nat → Nat)) :
    Engine σ := (timed.1.perform.run.run { e with clock := timed.2 }).2

def Request.attemptAll {σ : Type} [CellStore σ] (e : Engine σ)
    (history : List (Request × (Nat → Nat))) : Engine σ := history.foldl attempt e

theorem attempts_agree (history : List (Request × (Nat → Nat))) :
    Agrees (Request.attemptAll e history).store.memory
      (Request.attemptAll e history).registry := by
  induction history generalizing e with
  | nil => exact agrees
  | cons timed rest ih =>
    obtain ⟨request, clock⟩ := timed
    exact ih _ (request_touches { e with clock } agrees request).agrees

-- The cells that a request leaves alone and what it keeps of the others; an edit that is blocked
-- leaves everything alone.
theorem only_closure_touched (request : Request) :
    request.perform.Ends e fun result u => Touches request e u ∧
      ∀ change, request = .edit change → change.Blocked e →
        (∃ error, result = .error error) ∧ u.store.memory = e.store.memory ∧
          u.registry = e.registry := by
  apply ends_and _ _ _ _ (request_touches e agrees request)
  rintro change rfl blocked
  cases edit_ends e agrees change with
  | inl stopped => exact ⟨stopped.1, stopped.2.memory, stopped.2.registry⟩
  | inr edits =>
    obtain ⟨d, returned, accepted⟩ := edits.accepted
    exact absurd accepted (blocked _ d returned)

end Requests

-- An edit that is cut short when the formula that reads the cell has been evaluated.
theorem only_closure_touched_cut_short :
    let a : Key := ⟨⟨1⟩, ⟨1, 1⟩⟩
    let b : Key := ⟨⟨1⟩, ⟨2, 1⟩⟩
    let sheets : List SheetInfo := [⟨⟨1⟩, ⟨1⟩, "Main"⟩]
    let m : Memory :=
      (⟨sheets, ∅, true⟩ : Memory).put a (.formula ⟨"=A2", .empty, none, [.ofKey b]⟩)
    let fault : Nat → StoreCall → Option StoreError :=
      fun n _ => if n = 2 then some (.unavailable "timeout") else none
    let e : Engine Faulty :=
      { store := ⟨m, 0, fault⟩, options := ⟨none, .empty⟩,
        registry := Registry.empty.insert a (.ofSource .empty "=A2") [.ofKey b],
        locks := .none, clock := id }
    let request : Request := .edit (.typed b "x")
    Agrees e.store.memory e.registry ∧
      request.perform.Ends e fun result u => Touches request e u ∧
        ∀ change, request = .edit change → change.Blocked e →
          (∃ error, result = .error error) ∧ u.store.memory = e.store.memory ∧
            u.registry = e.registry := by
  intro a b sheets m fault e request
  have input : m.inputAt a = some (.formula "=A2") := (Memory.input_put _ a a _).trans (if_pos rfl)
  have agrees : Agrees m e.registry := agrees_insert _ m _ (empty_agrees sheets true) a
    (edited_put _ a _) (.ofSource .empty "=A2") _ input
  exact ⟨agrees, only_closure_touched e agrees request⟩

-- A new engine over registered sheets without cells, on a store with any pattern of faults.
def Engine.frail (sheets : List SheetInfo) (available : Bool)
    (fault : Nat → StoreCall → Option StoreError) (options : Options) (clock : Nat → Nat) :
    Engine Faulty :=
  .ofStore ⟨⟨sheets, ∅, available⟩, 0, fault⟩ options clock

theorem registry_agrees (sheets : List SheetInfo) (available : Bool)
    (fault : Nat → StoreCall → Option StoreError) (options : Options) (clock : Nat → Nat)
    (history : List (Request × (Nat → Nat))) :
    let e := Request.attemptAll (Engine.frail sheets available fault options clock) history
    Agrees e.store.memory e.registry :=
  attempts_agree _ (empty_agrees sheets available) history

end Spreadsheet
