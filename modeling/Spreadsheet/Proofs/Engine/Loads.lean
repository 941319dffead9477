import Spreadsheet.Proofs.Engine.Edits

-- Loads and recalculations. A load registers what is stored on a sheet and writes nothing; a
-- recalculation writes results and registers nothing.

set_option autoImplicit false

namespace Spreadsheet

open Formula

abbrev Entry : Type := Key × Compiled × List SheetRange

def Registry.insertEntry (r : Registry) : Entry → Registry
  | (k, formula, references) => r.insert k formula references

-- The formulas of a sheet that are not among the entries are forgotten, the entries registered.
def Registry.reloaded (r : Registry) (sheet : SheetId) (entries : List Entry) : Registry :=
  let stale := (r.graph.formulasOn sheet).filter fun k => !entries.any (·.1 = k)
  entries.foldl insertEntry (stale.foldl remove r)

def Entry.Stored (names : Names) (m : Memory) (entry : Entry) : Prop :=
  ∃ k source, m.inputAt k = some (.formula source) ∧
    entry = (k, .ofSource names source, m.bound k.sheet (Compiled.ofSource names source).references)

theorem insert_entries_in_step (names : Names) (m : Memory) (entries : List Entry) (r : Registry)
    (step : InStep names m r) (stored : ∀ entry ∈ entries, entry.Stored names m)
    (ascii : ∀ entry ∈ entries, entry.2.1.AsciiSheets) :
    InStep names m (entries.foldl Registry.insertEntry r) ∧
      ∀ k, k ∈ (entries.foldl Registry.insertEntry r).formulas ↔
        k ∈ r.formulas ∨ k ∈ entries.map Prod.fst := by
  induction entries generalizing r with
  | nil => exact ⟨step, fun k => by simp⟩
  | cons entry rest ih =>
    have first : InStep names m (r.insertEntry entry) := by
      have readable := ascii entry List.mem_cons_self
      obtain ⟨key, source, input, rfl⟩ := stored entry List.mem_cons_self
      exact insert_in_step names m m r key (edited_refl key m) step source input readable
    obtain ⟨last, known⟩ := ih (r.insertEntry entry) first
      (fun other member => stored other (List.mem_cons_of_mem entry member))
      (fun other member => ascii other (List.mem_cons_of_mem entry member))
    rw [List.foldl_cons]
    refine ⟨last, fun k => (known k).trans ?_⟩
    simp only [Registry.insertEntry, Registry.insert, Std.ExtTreeMap.mem_insert,
      Std.LawfulEqCmp.compare_eq_iff_eq, List.map_cons, List.mem_cons]
    grind

-- The cells of the entries, where these are the formulas stored on a sheet.
theorem mem_entry_keys (names : Names) (m : Memory) (sheet : SheetId) (entries : List Entry)
    (listed : ∀ entry, entry ∈ entries ↔ entry.1.sheet = sheet ∧ entry.Stored names m) (k : Key) :
    k ∈ entries.map Prod.fst ↔ k.sheet = sheet ∧ ∃ source, m.inputAt k = some (.formula source) := by
  rw [List.mem_map]
  constructor
  · rintro ⟨entry, member, rfl⟩
    obtain ⟨home, k, source, input, rfl⟩ := (listed entry).mp member
    exact ⟨home, source, input⟩
  · rintro ⟨home, source, input⟩
    exact ⟨_, (listed _).mpr ⟨home, k, source, input, rfl⟩, rfl⟩

namespace Engine

def entries (e : Engine Memory) (records : List Record) : List Entry :=
  records.filterMap fun r => r.cell.source?.map fun source =>
    (r.key, e.compile source, e.store.bound r.key.sheet (e.compile source).references)

-- The engine with a store in such a state, and nothing else of it changed.
def Called {σ : Type} (e : Engine σ) (holds : σ → Prop) (u : Engine σ) : Prop :=
  ∃ store, holds store ∧ u = { e with store }

def upon {σ : Type} (e : Engine σ) (m : Memory) : Engine Memory :=
  { store := m, options := e.options, registry := e.registry, locks := e.locks, clock := e.clock }

section Supplied

variable {σ : Type} (e : Engine σ) (m : Memory) (calm broken : σ → Prop)

theorem calling_delivers {α : Type} (act : Attempt σ α) (a : α)
    (delivers : act.Delivers calm broken a) :
    (calling act).Delivers (e.Called calm) (e.Called broken) a := by
  rintro _ ⟨store, holds, rfl⟩
  have ended := delivers store holds
  unfold Attempt.Ends at ended ⊢
  have called : (calling act).run.run { e with store } =
      ((act.run.run store).1, { e with store := (act.run.run store).2 }) := rfl
  rw [called]
  cases ran : act.run.run store with
  | mk result t =>
    rw [ran] at ended
    cases result with
    | ok b => exact ⟨ended.1, t, ended.2, rfl⟩
    | error error => exact ⟨t, ended, rfl⟩

variable [CellStore σ] (supplies : Supplies m calm broken)
include supplies

theorem bind_references_delivers (home : SheetId) (c : Compiled) :
    (bindReferences home c).Delivers (e.Called calm) (e.Called broken)
      (m.bound home c.references) :=
  calling_delivers e calm broken _ _ (bind_from_delivers m calm broken supplies home none
    c.references fun _ same => by cases same)

theorem stage_records_delivers (records : List Record) :
    (stageRecords records).Delivers (e.Called calm) (e.Called broken)
      ((e.upon m).entries records) := by
  induction records with
  | nil => exact delivers_pure _ _ []
  | cons r rest ih =>
    cases here : r.cell.source? with
    | none =>
      have skipped : (e.upon m).entries (r :: rest) = (e.upon m).entries rest := by
        simp [entries, here]
      rw [skipped]
      simpa only [stageRecords, here] using ih
    | some source =>
      let c := e.compile source
      have first : (e.upon m).entries (r :: rest) =
          (r.key, c, m.bound r.key.sheet c.references) :: (e.upon m).entries rest := by
        simp only [entries, List.filterMap_cons, here]
        rfl
      rw [first]
      simp only [stageRecords, here]
      apply delivers_get
      rintro _ ⟨store, _, rfl⟩
      apply delivers_bind _ _ _ _ _ _ (bind_references_delivers e m calm broken supplies _ c)
      exact delivers_bind _ _ _ _ _ _ ih (delivers_pure _ _ _)

-- What a load leaves in the store and in the registry, once it has read what is stored.
structure Loaded (sheet : SheetId) (count : Nat) (u : Engine σ) : Prop where
  store : calm u.store
  options : u.options = e.options
  registry : u.registry =
    e.registry.reloaded sheet ((e.upon m).entries (m.formulasOn sheet))
  count : count = ((e.upon m).entries (m.formulasOn sheet)).length

theorem load_sheet_split (begun : calm e.store) (sheet : SheetId) :
    (loadSheet sheet).Ends e fun result u =>
      match result with
      | .ok count => Loaded e m calm sheet count u
      | .error _ => e.Called broken u := by
  have read := calling_delivers e calm broken _ _ (supplies.formulaCells sheet)
  have staged := stage_records_delivers e m calm broken supplies (m.formulasOn sheet)
  apply ends_bind _ _ e _ _ (read e ⟨e.store, begun, rfl⟩)
  · rintro _ d ⟨rfl, reached⟩
    apply ends_bind _ _ d _ _ (staged d reached)
    · rintro _ _ ⟨rfl, store, kept, rfl⟩
      exact ⟨kept, rfl, rfl, rfl⟩
    · exact fun _ _ failed => failed
  · exact fun _ _ failed => failed

end Supplied

theorem mem_entries (e : Engine Memory) (sheet : SheetId) (entry : Entry) :
    entry ∈ e.entries (e.store.formulasOn sheet) ↔
      entry.1.sheet = sheet ∧ entry.Stored e.options.names e.store := by
  simp only [entries, List.mem_filterMap, Memory.formulasOn, List.mem_filter, Memory.mem_records,
    Option.map_eq_some_iff, Bool.and_eq_true, decide_eq_true_eq]
  constructor
  · rintro ⟨⟨k, c⟩, ⟨found, home, _⟩, source, sourced, rfl⟩
    cases c with
    | literal v => cases sourced
    | formula f =>
      obtain rfl : f.source = source := Option.some.inj sourced
      exact ⟨home, k, f.source, (input_formula e.store k f.source).mpr ⟨f, found, rfl⟩, rfl⟩
  · rintro ⟨home, k, source, input, rfl⟩
    obtain ⟨f, found, rfl⟩ := (input_formula e.store k source).mp input
    exact ⟨⟨k, .formula f⟩, ⟨found, home, rfl⟩, f.source, rfl, rfl⟩

theorem mem_formulas_on (e : Engine Memory) (step : InStep e.options.names e.store e.registry)
    (sheet : SheetId) (k : Key) :
    k ∈ e.registry.graph.formulasOn sheet ↔ k.sheet = sheet ∧ k ∈ e.registry.formulas := by
  rw [← is_formula_iff _ e.store e.registry step k]
  exact Graph.mem_formulas_on_sheet _ step.linked sheet k

-- Where every registered formula is stored, a load forgets none.
theorem reloaded_stored (e : Engine Memory) (sheet : SheetId)
    (stored : ∀ k ∈ e.registry.graph.formulasOn sheet,
      k.sheet = sheet ∧ ∃ source, e.store.inputAt k = some (.formula source)) :
    e.registry.reloaded sheet (e.entries (e.store.formulasOn sheet)) =
      (e.entries (e.store.formulasOn sheet)).foldl Registry.insertEntry e.registry := by
  have nothing : ((e.registry.graph.formulasOn sheet).filter fun k =>
      !(e.entries (e.store.formulasOn sheet)).any (·.1 = k)) = [] := by
    refine List.filter_eq_nil_iff.mpr fun k member => ?_
    obtain ⟨home, source, input⟩ := stored k member
    have listed := (mem_entries e sheet _).mpr ⟨home, k, source, input, rfl⟩
    have present : (e.entries (e.store.formulasOn sheet)).any (·.1 = k) = true :=
      List.any_eq_true.mpr ⟨_, listed, decide_eq_true rfl⟩
    simp [present]
  simp only [Registry.reloaded, nothing, List.foldl_nil]

theorem load_sheet_in_step (e : Engine Memory) (available : e.store.available = true)
    (before : InStep e.options.names e.store e.registry) (sheet : SheetId)
    (ascii : ∀ k source, e.store.inputAt k = some (.formula source) → k.sheet = sheet →
      (e.compile source).AsciiSheets) :
    ∃ count u, (loadSheet sheet).Returns e count u ∧
      InStep e.options.names e.store u.registry ∧ u.store = e.store ∧ u.options = e.options ∧
      ∀ k, k ∈ u.registry.formulas ↔ k ∈ e.registry.formulas ∨
        k.sheet = sheet ∧ ∃ source, e.store.inputAt k = some (.formula source) := by
  let staged := e.entries (e.store.formulasOn sheet)
  have entry (x : Entry) (member : x ∈ staged) :
      x.1.sheet = sheet ∧ x.Stored e.options.names e.store := (mem_entries e sheet x).mp member
  obtain ⟨step, known⟩ := insert_entries_in_step e.options.names e.store staged e.registry
    before (fun x member => (entry x member).2) fun x member => by
      obtain ⟨home, k, source, input, rfl⟩ := entry x member
      exact ascii k source input home
  obtain ⟨count, u, returned, loaded⟩ := returns_of_ends _ e _ (ends_mono _ e _ _
    (load_sheet_split e e.store _ _ (e.store.supplies available) rfl sheet)
    fun result u ended => by
      cases result with
      | ok count => exact ended
      | error error =>
        obtain ⟨_, impossible, _⟩ := ended
        exact impossible)
  have registry : u.registry = staged.foldl Registry.insertEntry e.registry := by
    refine loaded.registry.trans (reloaded_stored e sheet fun k member => ?_)
    obtain ⟨home, registered⟩ := (mem_formulas_on e before sheet k).mp member
    obtain ⟨source, input, _⟩ := stored_formula _ e.store e.registry before k registered
    exact ⟨home, source, input⟩
  refine ⟨count, u, returned, registry ▸ step, loaded.store, loaded.options, fun k => ?_⟩
  rw [registry]
  exact (known k).trans (or_congr_right (mem_entry_keys _ _ _ _ (mem_entries e sheet) k))

theorem load_sheet_ready (e : Engine Memory) (ready : Ready e) (sheet : SheetId)
    (ascii : ∀ k source, e.store.inputAt k = some (.formula source) → k.sheet = sheet →
      (e.compile source).AsciiSheets) :
    ∃ count u, (loadSheet sheet).Returns e count u ∧ Ready u ∧ u.store = e.store ∧
      u.options = e.options ∧ ∀ k, k ∈ u.registry.formulas ↔ k ∈ e.registry.formulas ∨
        k.sheet = sheet ∧ ∃ source, e.store.inputAt k = some (.formula source) := by
  obtain ⟨count, u, loaded, step, store, options, known⟩ :=
    load_sheet_in_step e ready.available ready.step sheet ascii
  rw [← store, ← options] at step
  exact ⟨count, u, loaded, ⟨store ▸ ready.available, options ▸ ready.untimed, step⟩, store,
    options, known⟩

-- A load of a sheet whose formulas are known changes nothing that matters.
theorem load_sheet_informed (e : Engine Memory) (informed : Informed e) (sheet : SheetId) :
    ∃ count u, (loadSheet sheet).Returns e count u ∧ Informed u ∧ Refreshed e u ∧
      (∀ k, k ∈ u.registry.formulas ↔ k ∈ e.registry.formulas) ∧
      ∀ k, SettledIn e k → SettledIn u k := by
  obtain ⟨count, u, loaded, ready, store, options, known⟩ :=
    load_sheet_ready e informed.toReady sheet fun k source input _ =>
      (known_formula _ e.store e.registry informed.step k (informed.complete k source input)
        source input).2
  have same (k : Key) : k ∈ u.registry.formulas ↔ k ∈ e.registry.formulas := by
    refine (known k).trans (or_iff_left_of_imp ?_)
    rintro ⟨_, source, input⟩
    exact informed.complete k source input
  have refreshed : Refreshed e u := ⟨options, by rw [store], fun k => by rw [store]⟩
  refine ⟨count, u, loaded, ⟨ready, complete_congr e u refreshed same informed.complete⟩, refreshed,
    same, fun k settled => ?_⟩
  have before : InStep e.options.names e.store u.registry := store ▸ options ▸ ready.step
  rw [SettledIn, options, store]
  exact settled_unique _ e.store e.registry u.registry informed.step before
    (fun p => (same p).symm) k settled

theorem recalculate_settles (e : Engine Memory) (ready : Ready e) (sheet : SheetId)
    (addresses : List Address) :
    ∃ report u, (recalculate sheet addresses).Returns e report u ∧ Ready u ∧ Refreshed e u ∧
      u.registry = e.registry ∧ ∀ k ∈ e.registry.formulas,
        k ∈ e.registry.affected (addresses.map (⟨sheet, ·⟩)) ∨ SettledIn e k → SettledIn u k := by
  let seeds := addresses.map fun a => (⟨sheet, a⟩ : Key)
  let guard := e.lockClosure seeds (.ofList (seeds.map Key.sheet))
  let locked : Engine Memory := { e with locks := (e.locks.acquire guard).2 }
  have held : Ready locked := ready_locks e _ ready
  obtain ⟨report, u, ran, after, refreshed, registry, settles⟩ := run_ready locked held seeds
  refine ⟨report, { u with locks := u.locks.release ⟨guard⟩ }, ?_, ready_locks u _ after,
    ⟨refreshed.options, refreshed.sheets, refreshed.inputs⟩, registry, settles⟩
  exact returns_bind _ _ e e _ e _ (returns_get e) (holding_returns guard _ e u report ran)

theorem recalculate_ready (e : Engine Memory) (ready : Ready e) (sheet : SheetId)
    (addresses : List Address) :
    ∃ report u, (recalculate sheet addresses).Returns e report u ∧ Ready u ∧ Refreshed e u ∧
      u.registry = e.registry ∧ ∀ k ∈ e.registry.formulas,
        (k.sheet = sheet ∧ k.addr ∈ addresses) ∨ SettledIn e k → SettledIn u k := by
  obtain ⟨report, u, ran, after, refreshed, registry, settles⟩ :=
    recalculate_settles e ready sheet addresses
  refine ⟨report, u, ran, after, refreshed, registry, fun k known reason => ?_⟩
  refine settles k known (reason.imp_left ?_)
  rintro ⟨rfl, member⟩
  exact (mem_affected _ e.store e.registry ready.step _ k).mpr
    (.inr ⟨List.mem_map.mpr ⟨k.addr, member, rfl⟩, known⟩)

theorem recalculate_sheet_informed (e : Engine Memory) (informed : Informed e) (sheet : SheetId) :
    ∃ report u, (recalculateSheet sheet).Returns e report u ∧ Informed u ∧ Refreshed e u ∧
      ∀ k, k.sheet = sheet ∨ SettledIn e k → SettledIn u k := by
  obtain ⟨count, d, loaded, before, kept, known, settled⟩ := load_sheet_informed e informed sheet
  let addresses := (d.registry.graph.formulasOn sheet).map Key.addr
  obtain ⟨report, u, ran, ready, refreshed, registry, settles⟩ :=
    recalculate_ready d before.toReady sheet addresses
  have after : Informed u :=
    ⟨ready, complete_congr d u refreshed (by simp [registry]) before.complete⟩
  refine ⟨report, u, ?_, after, ⟨refreshed.options.trans kept.options,
    refreshed.sheets.trans kept.sheets, fun k => (refreshed.inputs k).trans (kept.inputs k)⟩,
    fun k reason => settled_of_known u after k fun registered => ?_⟩
  · refine returns_bind _ _ e d u () report (returns_map _ _ e d count loaded) ?_
    exact returns_bind _ _ d d u d report (returns_get d) ran
  · have member : k ∈ d.registry.formulas := registry ▸ registered
    refine settles k member (reason.imp (fun home => ⟨home, ?_⟩) (settled k))
    exact List.mem_map.mpr ⟨k, (mem_formulas_on d before.step sheet k).mpr ⟨home, member⟩, rfl⟩

end Engine

end Spreadsheet
