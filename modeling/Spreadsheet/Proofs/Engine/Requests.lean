import Spreadsheet.Proofs.Engine.Loads

-- Histories of requests. Every request keeps an engine consistent, so after any history no
-- formula shows a stale result.

set_option autoImplicit false

namespace Spreadsheet

open Formula

inductive Edit where
  | typed (k : Key) (text : String)
  | given (k : Key) (input : Input)

inductive Request where
  | edit (change : Edit)
  | recalculate (sheet : SheetId) (addresses : List Address)
  | recalculateSheet (sheet : SheetId)
  | loadSheet (sheet : SheetId)

namespace Edit

def key : Edit → Key
  | typed k _ => k
  | given k _ => k

def input : Edit → Input
  | typed _ text => .ofTyped text
  | given _ input => input

def perform {σ : Type} [CellStore σ] : Edit → Attempt (Engine σ) Unit
  | typed k text => discard (Engine.setCell k text)
  | given k input => discard (Engine.applyEdit k input)

end Edit

namespace Request

def Ascii (names : Names) : Request → Prop
  | edit change => change.input.Ascii names
  | _ => True

instance (names : Names) (r : Request) : Decidable (r.Ascii names) := by
  cases r <;> unfold Ascii <;> infer_instance

def perform {σ : Type} [CellStore σ] : Request → Attempt (Engine σ) Unit
  | edit change => change.perform
  | recalculate sheet addresses => discard (Engine.recalculate sheet addresses)
  | recalculateSheet sheet => discard (Engine.recalculateSheet sheet)
  | loadSheet sheet => discard (Engine.loadSheet sheet)

-- What a cell holds after a request, given what it held before.
def inputAfter (k : Key) (held : Option Input) : Request → Option Input
  | edit change => if k = change.key then change.input.kept else held
  | _ => held

def lastInput (requests : List Request) (k : Key) : Option Input :=
  requests.foldl (inputAfter k) none

def performAll {σ : Type} [CellStore σ] : List Request → Attempt (Engine σ) Unit
  | [] => return
  | r :: rest => do
    r.perform
    performAll rest

end Request

-- A request leaves the engine consistent, and only an edit changes what a cell holds.
structure Performed (e : Engine Memory) (r : Request) (u : Engine Memory) : Prop where
  consistent : Consistent u
  options : u.options = e.options
  sheets : u.store.sheets = e.store.sheets
  inputs : ∀ k, u.store.inputAt k = r.inputAfter k (e.store.inputAt k)

theorem request_performed (e : Engine Memory) (consistent : Consistent e) (r : Request)
    (ascii : r.Ascii e.options.names) : ∃ u, r.perform.Returns e () u ∧ Performed e r u := by
  cases r with
  | edit change =>
    obtain ⟨report, u, edited, after, options, sheets, inputs⟩ :=
      apply_edit_consistent e consistent change.key change.input ascii
    refine ⟨u, ?_, after, options, sheets, inputs⟩
    cases change with
    | typed k text => exact returns_map _ _ e u report edited
    | given k input => exact returns_map _ _ e u report edited
  | recalculate sheet addresses =>
    obtain ⟨report, u, ran, ready, refreshed, registry, settles⟩ :=
      Engine.recalculate_ready e consistent.toReady sheet addresses
    have informed : Informed u :=
      ⟨ready, complete_congr e u refreshed (by simp [registry]) consistent.complete⟩
    refine ⟨u, returns_map _ _ e u report ran, ⟨informed, fun k => ?_⟩, refreshed.options,
      refreshed.sheets, refreshed.inputs⟩
    exact settled_of_known u informed k fun known =>
      settles k (registry ▸ known) (.inr (consistent.settled k))
  | recalculateSheet sheet =>
    obtain ⟨report, u, ran, informed, refreshed, settles⟩ :=
      Engine.recalculate_sheet_informed e consistent.toInformed sheet
    exact ⟨u, returns_map _ _ e u report ran,
      ⟨informed, fun k => settles k (.inr (consistent.settled k))⟩, refreshed.options,
      refreshed.sheets, refreshed.inputs⟩
  | loadSheet sheet =>
    obtain ⟨count, u, loaded, informed, refreshed, _, settles⟩ :=
      Engine.load_sheet_informed e consistent.toInformed sheet
    exact ⟨u, returns_map _ _ e u count loaded,
      ⟨informed, fun k => settles k (consistent.settled k)⟩, refreshed.options,
      refreshed.sheets, refreshed.inputs⟩

theorem new_engine_ready (m : Memory) (available : m.available = true) (options : Options)
    (clock : Nat → Nat) (untimed : options.timeout? = none) :
    Ready (Engine.ofStore m options clock) :=
  ⟨available, untimed, empty_in_step options.names m⟩

theorem requests_performed (e : Engine Memory) (consistent : Consistent e)
    (requests : List Request) (ascii : ∀ r ∈ requests, r.Ascii e.options.names) :
    ∃ u, (Request.performAll requests).Returns e () u ∧ Consistent u ∧ u.options = e.options ∧
      u.store.sheets = e.store.sheets ∧
      ∀ k, u.store.inputAt k = requests.foldl (Request.inputAfter k) (e.store.inputAt k) := by
  induction requests generalizing e with
  | nil => exact ⟨e, returns_pure e (), consistent, rfl, rfl, fun _ => rfl⟩
  | cons r rest ih =>
    obtain ⟨d, first, performed⟩ := request_performed e consistent r (ascii r List.mem_cons_self)
    obtain ⟨u, others, after, options, sheets, inputs⟩ := ih d performed.consistent fun q member =>
      performed.options ▸ ascii q (List.mem_cons_of_mem r member)
    refine ⟨u, returns_bind _ _ e d u () () first others, after, options.trans performed.options,
      sheets.trans performed.sheets, fun k => ?_⟩
    rw [inputs k, performed.inputs k, List.foldl_cons]

-- A new engine over registered sheets without cells.
def Engine.blank (sheets : List SheetInfo) (options : Options) (clock : Nat → Nat) :
    Engine Memory := .ofStore ⟨sheets, ∅, true⟩ options clock

theorem blank_input (sheets : List SheetInfo) (options : Options) (clock : Nat → Nat) (k : Key) :
    (Engine.blank sheets options clock).store.inputAt k = none := by
  simp [Engine.blank, Engine.ofStore, Memory.inputAt]

theorem blank_consistent (sheets : List SheetInfo) (options : Options) (clock : Nat → Nat)
    (untimed : options.timeout? = none) : Consistent (Engine.blank sheets options clock) := by
  have informed : Informed (Engine.blank sheets options clock) := by
    refine ⟨new_engine_ready _ rfl options clock untimed, fun k source found => ?_⟩
    rw [blank_input] at found
    cases found
  refine ⟨informed, fun k f found => ?_⟩
  simp [Engine.blank, Engine.ofStore] at found

theorem blank_performed (sheets : List SheetInfo) (options : Options) (clock : Nat → Nat)
    (untimed : options.timeout? = none) (requests : List Request)
    (ascii : ∀ r ∈ requests, r.Ascii options.names) :
    ∃ u, (Request.performAll requests).Returns (Engine.blank sheets options clock) () u ∧
      Consistent u ∧ u.options = options ∧ u.store.sheets = sheets ∧
      ∀ k, u.store.inputAt k = Request.lastInput requests k := by
  obtain ⟨u, performed, after, same, places, inputs⟩ := requests_performed _
    (blank_consistent sheets options clock untimed) requests ascii
  refine ⟨u, performed, after, same, places, fun k => (inputs k).trans ?_⟩
  rw [blank_input]
  rfl

theorem no_stale_results (sheets : List SheetInfo) (options : Options) (clock : Nat → Nat)
    (untimed : options.timeout? = none) (requests : List Request)
    (ascii : ∀ r ∈ requests, r.Ascii options.names) :
    ∃ e, (Request.performAll requests).Returns (Engine.blank sheets options clock) () e ∧
      (∀ k, e.store.inputAt k = Request.lastInput requests k) ∧
      (∀ k p, e.registry.graph.reads k p = true ↔ e.store.Reads options.names k p) ∧
      ∀ k, Settled options.names e.registry.graph e.store k := by
  obtain ⟨e, performed, consistent, same, _, inputs⟩ :=
    blank_performed sheets options clock untimed requests ascii
  have names : e.options.names = options.names := congrArg Options.names same
  refine ⟨e, performed, inputs, ?_, ?_⟩
  · rw [← names]
    exact reads_stored _ e.store e.registry consistent.step consistent.complete
  · rw [← names]
    exact consistent.settled

-- A formula that reads another sheet, a cycle and its end.
theorem no_stale_results_after_cycle :
    let cell (sheet row : Nat) : Key := ⟨⟨sheet⟩, ⟨row, 1⟩⟩
    let sheets : List SheetInfo := [⟨⟨1⟩, ⟨1⟩, "Main"⟩, ⟨⟨2⟩, ⟨1⟩, "Rates"⟩]
    let options : Options := ⟨none, .empty⟩
    let requests : List Request := [.edit (.typed (cell 1 1) "=Rates!A1&A2"),
      .edit (.typed (cell 1 2) "=A1"), .recalculateSheet ⟨1⟩,
      .edit (.given (cell 1 2) (.value (.text "x"))), .loadSheet ⟨2⟩,
      .edit (.typed (cell 2 1) "TRUE"), .recalculate ⟨1⟩ [⟨1, 1⟩]]
    options.timeout? = none ∧ (∀ r ∈ requests, r.Ascii options.names) ∧
      ∃ e, (Request.performAll requests).Returns (Engine.blank sheets options id) () e ∧
        (∀ k, e.store.inputAt k = Request.lastInput requests k) ∧
        (∀ k p, e.registry.graph.reads k p = true ↔ e.store.Reads options.names k p) ∧
        ∀ k, Settled options.names e.registry.graph e.store k := by
  intro cell sheets options requests
  have ascii : ∀ r ∈ requests, r.Ascii options.names := by decide +kernel
  exact ⟨rfl, ascii, no_stale_results sheets options id rfl requests ascii⟩

end Spreadsheet
