import Spreadsheet.Proofs.Engine.Touched

-- Engines under faults as engines over what their stores hold. Whatever becomes of a request, its
-- registry stays in step with the store; only results may be stale.

set_option autoImplicit false

namespace Spreadsheet

open Formula

theorem Staged.written_switched (k : Key) (m : Memory) (content : Staged) :
    content.written k (m.setAvailable true) = (content.written k m).setAvailable true := by
  cases content with
  | literal v =>
    simp only [written, Memory.writeValue]
    split
    · rfl
    · rfl
  | formula c references => rfl

theorem recomputed_switched (cells : KeySet) (m n : Memory) (recomputed : Recomputed cells m n) :
    Recomputed cells (m.setAvailable true) (n.setAvailable true) :=
  ⟨recomputed.sheets, rfl, recomputed.inputs, recomputed.outside⟩

-- A run from some cells, carried through or not.
structure Reran (seeds : List Key) (e u : Engine Memory) : Prop where
  options : u.options = e.options
  registry : u.registry = e.registry
  recomputed : Recomputed (e.registry.affected seeds) e.store u.store

section Reran

variable (seeds : List Key) (e u : Engine Memory) (informed : Informed e) (reran : Reran seeds e u)
include informed reran

theorem reran_informed : Informed u := by
  obtain ⟨options, registry, recomputed⟩ := reran
  have step := in_step_congr _ e.store e.registry _ recomputed.sheets recomputed.inputs
    informed.step
  rw [← registry, ← options] at step
  refine ⟨⟨recomputed.available ▸ informed.available, options ▸ informed.untimed, step⟩,
    fun k source found => ?_⟩
  rw [registry]
  exact informed.complete k source ((recomputed.inputs k).symm.trans found)

theorem reran_settled (k : Key) (known : k ∈ e.registry.formulas)
    (outside : k ∉ e.registry.affected seeds) (settled : SettledIn e k) : SettledIn u k := by
  rw [SettledIn, reran.options, reran.registry]
  exact recomputed_settled _ e.store _ e.registry informed.step seeds reran.recomputed k known
    outside settled

end Reran

theorem informed_agrees (e : Engine Memory) (informed : Informed e) :
    Agrees e.store e.registry := by
  apply agrees_of_inputs _ _ informed.step.linked (is_formula_iff _ _ _ informed.step)
  intro k source
  constructor
  · intro input
    have known := informed.complete k source input
    have found := (known_formula _ _ _ informed.step k known source input).1
    simp only [Registry.sourceAt, found]
    rfl
  · intro known
    obtain ⟨c, found, rfl⟩ := Option.map_eq_some_iff.mp known
    obtain ⟨_, source, input, rfl⟩ := informed.step.stored k c found
    exact input

theorem committed_informed (e : Engine Memory) (informed : Informed e) (k : Key) (input : Input)
    (ascii : input.Ascii e.options.names) : Informed (e.committed k (e.staged k input)) := by
  have commits := committed_commits e informed.step k input ascii
  exact ⟨commits_ready e _ informed.toReady k input commits,
    commits_complete e _ k input commits informed.complete⟩

theorem edits_reran (e u : Engine Faulty) (k : Key) (input : Input)
    (edits : Engine.Edits e k input u) :
    Reran [k] (e.plain.committed k (e.plain.staged k input)) u.plain := by
  rw [Engine.committed_eq]
  refine ⟨edits.options, edits.registry, ?_⟩
  have switched := recomputed_switched _ _ _ edits.recomputed
  rw [edits.registry, ← Staged.written_switched] at switched
  exact switched

theorem unmoved_reran (e u : Engine Faulty) (seeds : List Key) (unmoved : Engine.Unmoved e u) :
    Reran seeds e.plain u.plain := by
  refine ⟨unmoved.options, unmoved.registry, ?_⟩
  have same : u.plain.store = e.plain.store := congrArg (Memory.setAvailable · true) unmoved.memory
  rw [same]
  exact recomputed_refl _ _

theorem loaded_informed (e : Engine Memory) (informed : Informed e) (sheet : SheetId) :
    Informed { e with registry :=
      (e.entries (e.store.formulasOn sheet)).foldl Registry.insertEntry e.registry } := by
  have stored := fun entry member => ((e.mem_entries sheet entry).mp member).2
  obtain ⟨step, known⟩ := insert_entries_in_step e.options.names e.store _ e.registry informed.step
    stored fun entry member => by
      obtain ⟨k, source, input, rfl⟩ := stored entry member
      exact (known_formula _ _ _ informed.step k (informed.complete k source input) source input).2
  exact ⟨⟨informed.available, informed.untimed, step⟩,
    fun k source input => (known k).mpr (.inl (informed.complete k source input))⟩

section Histories

variable (e : Engine Faulty) (informed : Informed e.plain)
include informed

theorem request_informed (request : Request) (ascii : request.Ascii e.options.names) :
    request.perform.Ends e fun _ u => Informed u.plain ∧ u.options = e.options := by
  have agrees := agrees_refreshed e.plain.store e.store.memory _ (informed_agrees e.plain informed)
    fun _ => rfl
  have reloaded (sheet : SheetId) (r : Registry) (known : r = e.registry ∨ r = e.loaded sheet) :
      Informed { e.plain with registry := r } := by
    cases known with
    | inl same => exact same ▸ informed
    | inr same => exact same ▸ loaded_informed e.plain informed sheet
  cases request with
  | edit change =>
    apply ends_mono _ _ _ _ (edit_ends e agrees change)
    intro _ u ended
    cases ended with
    | inl stopped =>
      exact ⟨reran_informed [] _ _ informed (unmoved_reran e u [] stopped.2), stopped.2.options⟩
    | inr edits =>
      exact ⟨reran_informed [change.key] _ _
        (committed_informed e.plain informed change.key change.input ascii)
        (edits_reran e u change.key change.input edits), edits.options⟩
  | recalculate sheet addresses =>
    apply ends_discard
    apply ends_mono _ _ _ _ (Engine.recalculate_ends e agrees sheet addresses)
    rintro _ u ⟨options, registry, recomputed⟩
    have reran : Reran _ e.plain u.plain :=
      ⟨options, registry, recomputed_switched _ _ _ recomputed⟩
    exact ⟨reran_informed _ _ _ informed reran, options⟩
  | recalculateSheet sheet =>
    apply ends_discard
    apply ends_mono _ _ _ _ (Engine.recalculate_sheet_ends e agrees sheet)
    rintro _ u ⟨options, registry, recomputed⟩
    have reran : Reran _ { e.plain with registry := u.registry } u.plain :=
      ⟨options, rfl, recomputed_switched _ _ _ recomputed⟩
    exact ⟨reran_informed _ _ _ (reloaded sheet _ registry) reran, options⟩
  | loadSheet sheet =>
    apply ends_discard
    apply ends_mono _ _ _ _ (Engine.load_sheet_ends e agrees sheet)
    rintro _ u ⟨options, memory, registry⟩
    have store : u.plain.store = e.plain.store := congrArg (Memory.setAvailable · true) memory
    have reran : Reran [] { e.plain with registry := u.registry } u.plain :=
      ⟨options, rfl, store ▸ recomputed_refl _ _⟩
    exact ⟨reran_informed _ _ _ (reloaded sheet _ registry) reran, options⟩

theorem attempts_informed (history : List (Request × (Nat → Nat)))
    (ascii : ∀ timed ∈ history, timed.1.Ascii e.options.names) :
    Informed (Request.attemptAll e history).plain := by
  induction history generalizing e with
  | nil => exact informed
  | cons timed rest ih =>
    obtain ⟨request, clock⟩ := timed
    have held : Informed (Engine.plain { e with clock }) :=
      ⟨⟨informed.available, informed.untimed, informed.step⟩, informed.complete⟩
    obtain ⟨after, options⟩ :=
      request_informed { e with clock } held request (ascii _ List.mem_cons_self)
    apply ih _ after
    intro timed member
    exact (congrArg Options.names options).symm ▸ ascii timed (List.mem_cons_of_mem _ member)

end Histories

-- What is consistent after a history under faults is what shows no stale result.
theorem attempts_consistent (sheets : List SheetInfo) (available : Bool)
    (fault : Nat → StoreCall → Option StoreError) (options : Options) (clock : Nat → Nat)
    (untimed : options.timeout? = none) (history : List (Request × (Nat → Nat)))
    (ascii : ∀ timed ∈ history, timed.1.Ascii options.names)
    (settled : ∀ k, SettledIn
      (Request.attemptAll (Engine.frail sheets available fault options clock) history).plain k) :
    Consistent
      (Request.attemptAll (Engine.frail sheets available fault options clock) history).plain := by
  have blank : Informed (Engine.frail sheets available fault options clock).plain :=
    (blank_consistent sheets options clock untimed).toInformed
  exact ⟨attempts_informed _ blank history ascii, settled⟩

end Spreadsheet
