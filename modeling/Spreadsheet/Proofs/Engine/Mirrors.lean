import Spreadsheet.Proofs.Engine.Standing

-- Loads as mirrors. A load makes the registry show the formulas of one sheet as they are stored
-- now, whatever it showed before, and leaves those of the other sheets alone; where a call of the
-- store fails, it leaves them all alone.

set_option autoImplicit false

namespace Spreadsheet

open Formula

def Memory.compiledAt (m : Memory) (names : Names) (k : Key) : Option Compiled :=
  match m.inputAt k with
  | some (.formula source) => some (.ofSource names source)
  | _ => none

-- The formula stored at a cell and what it refers to, as the sheets are named now.
def Memory.entryAt (m : Memory) (names : Names) (k : Key) :
    Option Compiled × Option (List SheetRange) := (m.compiledAt names k, m.referencesAt names k)

-- The formula that is known of a cell and what it is known to refer to.
def Registry.entryAt (r : Registry) (k : Key) : Option Compiled × Option (List SheetRange) :=
  (r.formulas[k]?, r.graph.precedents[k]?)

structure Mirrors (names : Names) (m : Memory) (sheet : SheetId) (before after : Registry) :
    Prop where
  entries : ∀ k, after.entryAt k =
    if k.sheet = sheet then m.entryAt names k else before.entryAt k
  listed : ∀ home, after.graph.formulasOn home =
    if home = sheet then (m.formulasOn sheet).map Record.key else before.graph.formulasOn home
  dependents : ∀ k f, f ∈ after.graph.dependents k ↔
    if f.sheet = sheet then m.Reads names f k else f ∈ before.graph.dependents k
  whole : after.Whole

namespace Registry

theorem entry_insert (r : Registry) (k : Key) (c : Compiled) (references : List SheetRange)
    (p : Key) : (r.insert k c references).entryAt p =
      if k = p then (some c, some (distinct references)) else r.entryAt p := by
  simp only [entryAt, insert, lookup_insert, Graph.set_formula_lookup]
  split <;> rfl

theorem entry_remove_all (list : List Key) (r : Registry) (p : Key) :
    (list.foldl remove r).entryAt p = if p ∈ list then (none, none) else r.entryAt p := by
  induction list generalizing r with
  | nil => simp
  | cons k rest ih =>
    have one : (r.remove k).entryAt p = if k = p then (none, none) else r.entryAt p := by
      simp only [entryAt, remove, lookup_erase, Graph.remove_formula_lookup]
      split <;> rfl
    rw [List.foldl_cons, ih, one]
    grind

theorem reloaded_whole (r : Registry) (whole : r.Whole) (sheet : SheetId) (entries : List Entry) :
    (r.reloaded sheet entries).Whole := by
  apply Engine.fold_holds Whole insertEntry fun r entry kept =>
    r.insert_whole kept entry.1 entry.2.1 entry.2.2
  exact Engine.fold_holds Whole remove (fun r k kept => r.remove_whole kept k) _ r whole

end Registry

section Entries

variable (names : Names) (m : Memory)

theorem entry_of_input (k : Key) (source : String) (input : m.inputAt k = some (.formula source)) :
    m.entryAt names k = (some (.ofSource names source),
      some (distinct (m.bound k.sheet (Compiled.ofSource names source).references))) := by
  simp [Memory.entryAt, Memory.compiledAt, Memory.referencesAt, input]

theorem entry_of_other (k : Key) (other : ∀ source, m.inputAt k ≠ some (.formula source)) :
    m.entryAt names k = (none, none) := by
  unfold Memory.entryAt Memory.compiledAt Memory.referencesAt
  cases input : m.inputAt k with
  | none => rfl
  | some content =>
    cases content with
    | value v => rfl
    | formula source => exact absurd input (other source)

theorem entry_insert_all (entries : List Entry)
    (stored : ∀ entry ∈ entries, entry.Stored names m) (r : Registry) (p : Key) :
    (entries.foldl Registry.insertEntry r).entryAt p =
      if p ∈ entries.map Prod.fst then m.entryAt names p else r.entryAt p := by
  induction entries generalizing r with
  | nil => simp
  | cons entry rest ih =>
    have later := ih (fun other member => stored other (List.mem_cons_of_mem entry member))
      (r.insertEntry entry)
    obtain ⟨k, source, input, rfl⟩ := stored entry List.mem_cons_self
    rw [List.foldl_cons, later, Registry.insertEntry, r.entry_insert]
    by_cases here : k = p
    · subst here
      simp [entry_of_input names m k source input]
    · have apart : p ≠ k := fun same => here same.symm
      simp only [if_neg here, List.map_cons, List.mem_cons, apart, false_or]

theorem reference_iff_input (k : Key) :
    (m.referencesAt names k).isSome = true ↔ ∃ source, m.inputAt k = some (.formula source) := by
  unfold Memory.referencesAt
  cases m.inputAt k with
  | none => simp
  | some content => cases content <;> simp

-- The references of a stored formula cover what it reads.
theorem references_cover (f k : Key) :
    ((m.referencesAt names f).getD []).any (·.contains k) = true ↔ m.Reads names f k := by
  unfold Memory.referencesAt Memory.Reads
  cases m.inputAt f with
  | none => simp
  | some content =>
    cases content with
    | value v => simp
    | formula source => simp [mem_distinct]

end Entries

theorem Memory.mem_formula_keys (m : Memory) (sheet : SheetId) (k : Key) :
    k ∈ (m.formulasOn sheet).map Record.key ↔
      k.sheet = sheet ∧ ∃ source, m.inputAt k = some (.formula source) := by
  simp only [formulasOn, List.mem_map, List.mem_filter, mem_records, Bool.and_eq_true,
    decide_eq_true_eq, input_formula]
  constructor
  · rintro ⟨⟨k, c⟩, ⟨found, home, formula⟩, rfl⟩
    cases c with
    | literal v => cases formula
    | formula f => exact ⟨home, f.source, f, found, rfl⟩
  · rintro ⟨home, _, f, found, rfl⟩
    exact ⟨⟨k, .formula f⟩, ⟨found, home, rfl⟩, rfl⟩

section Reloaded

variable (names : Names) (m : Memory) (sheet : SheetId) (entries : List Entry)
  (listed : ∀ entry, entry ∈ entries ↔ entry.1.sheet = sheet ∧ entry.Stored names m)
  (r : Registry) (whole : r.Whole)
include listed whole

theorem reloaded_entry (k : Key) : (r.reloaded sheet entries).entryAt k =
    if k.sheet = sheet then m.entryAt names k else r.entryAt k := by
  have member := mem_entry_keys names m sheet entries listed k
  have registered := Graph.mem_formulas_on_sheet r.graph whole.linked sheet k
  have named : entries.any (·.1 = k) = true ↔ k ∈ entries.map Prod.fst := by
    simp only [List.any_eq_true, decide_eq_true_eq, List.mem_map]
  have stale : k ∈ (r.graph.formulasOn sheet).filter (fun k => !entries.any (·.1 = k)) ↔
      (k.sheet = sheet ∧ r.graph.isFormula k = true) ∧ k ∉ entries.map Prod.fst := by
    rw [List.mem_filter, registered, ← named, Bool.not_eq_true', Bool.not_eq_true]
  rw [Registry.reloaded,
    entry_insert_all names m entries (fun entry member => ((listed entry).mp member).2),
    Registry.entry_remove_all]
  by_cases home : k.sheet = sheet
  · rw [if_pos home]
    by_cases stored : ∃ source, m.inputAt k = some (.formula source)
    · rw [if_pos (member.mpr ⟨home, stored⟩)]
    · have absent : k ∉ entries.map Prod.fst := fun listed => stored (member.mp listed).2
      have unknown : m.entryAt names k = (none, none) :=
        entry_of_other names m k fun source input => stored ⟨source, input⟩
      rw [if_neg absent, unknown]
      -- What is not stored was forgotten, or has never been known.
      split
      · rfl
      · rename_i kept
        have free : ¬r.graph.isFormula k = true := fun formula =>
          kept (stale.mpr ⟨⟨home, formula⟩, absent⟩)
        have unlinked : r.graph.precedents[k]? = none := by
          rw [Graph.is_formula_eq] at free
          simpa using free
        have unread : r.formulas[k]? = none :=
          Std.ExtTreeMap.getElem?_eq_none (mt (whole.registered k).mpr free)
        rw [Registry.entryAt, unlinked, unread]
  · have absent : k ∉ entries.map Prod.fst := fun listed => home (member.mp listed).1
    rw [if_neg home, if_neg absent, if_neg fun old => home (stale.mp old).1.1]

theorem reloaded_mirrors : Mirrors names m sheet r (r.reloaded sheet entries) := by
  let after := r.reloaded sheet entries
  have kept : after.Whole := r.reloaded_whole whole sheet entries
  have entry (k : Key) : after.entryAt k =
      if k.sheet = sheet then m.entryAt names k else r.entryAt k :=
    reloaded_entry names m sheet entries listed r whole k
  have precedents (k : Key) : after.graph.precedents[k]? =
      if k.sheet = sheet then m.referencesAt names k else r.graph.precedents[k]? := by
    refine (congrArg Prod.snd (entry k)).trans ?_
    split <;> rfl
  refine ⟨entry, fun home => ?_, fun k f => ?_, kept⟩
  · have member (k : Key) : k ∈ after.graph.formulasOn home ↔
        k.sheet = home ∧ (after.graph.precedents[k]?).isSome = true := by
      rw [Graph.mem_formulas_on_sheet after.graph kept.linked, Graph.is_formula_eq]
    by_cases here : home = sheet
    · subst here
      rw [if_pos rfl]
      refine sorted_unique Key.place _ _ (Graph.formulas_on_sorted _ home)
        (List.pairwise_map.mpr (m.records_sorted.filter _)) fun k => ?_
      rw [member, m.mem_formula_keys]
      refine and_congr_right fun same => ?_
      rw [precedents, if_pos same, reference_iff_input]
    · rw [if_neg here]
      refine sorted_unique Key.place _ _ (Graph.formulas_on_sorted _ home)
        (Graph.formulas_on_sorted _ home) fun k => ?_
      rw [member, Graph.mem_formulas_on_sheet r.graph whole.linked, Graph.is_formula_eq]
      refine and_congr_right fun same => ?_
      rw [precedents, if_neg (same ▸ here)]
  · rw [Graph.mem_dependents after.graph kept.linked, Graph.reads, Graph.precedentsOf, precedents]
    split
    · exact references_cover names m f k
    · rw [Graph.mem_dependents r.graph whole.linked]
      rfl

end Reloaded

namespace Engine

theorem length_entries (e : Engine Memory) (records : List Record)
    (formulas : ∀ record ∈ records, record.cell.isFormula = true) :
    (e.entries records).length = records.length := by
  induction records with
  | nil => rfl
  | cons record rest ih =>
    obtain ⟨source, here⟩ :=
      Option.isSome_iff_exists.mp (formulas record List.mem_cons_self)
    have later := ih fun other member => formulas other (List.mem_cons_of_mem record member)
    simp only [entries, List.filterMap_cons, here, Option.map_some, List.length_cons] at later ⊢
    exact congrArg (· + 1) later

-- An engine as requests leave it, over a store that may be exchanged between them.
inductive Attained {σ : Type} [CellStore σ] : Engine σ → Prop where
  | new (store : σ) (options : Options) (clock : Nat → Nat) :
      Attained (ofStore store options clock)
  | request (e : Engine σ) (before : Attained e) (timed : Request × (Nat → Nat)) :
      Attained (Request.attempt e timed)
  | exchanged (e : Engine σ) (before : Attained e) (store : σ) : Attained { e with store }

theorem attained_whole {σ : Type} [CellStore σ] (e : Engine σ) (attained : e.Attained) :
    e.registry.Whole := by
  suffices e.Stands Registry.Whole .none from this.registry
  induction attained with
  | new store options clock => exact ⟨Registry.empty_whole, rfl⟩
  | request e _ timed stands =>
    exact request_stands Registry.Whole
      (fun r k c references whole => r.insert_whole whole k c references)
      (fun r k whole => r.remove_whole whole k) timed.1 { e with clock := timed.2 }
      ⟨stands.registry, stands.locks⟩
  | exchanged e _ store stands => exact ⟨stands.registry, stands.locks⟩

theorem load_sheet_mirrors (e : Engine (Watched Faulty)) (attained : e.Attained)
    (sheet : SheetId) :
    (loadSheet sheet).Ends e fun result u =>
      u.store.store.memory = e.store.store.memory ∧
        match result with
        | .ok count => u.store.failures = e.store.failures ∧
            count = (u.registry.graph.formulasOn sheet).length ∧
            Mirrors e.options.names e.store.store.memory sheet e.registry u.registry
        | .error _ => u.store.failures = e.store.failures + 1 ∧ u.registry = e.registry := by
  let m := e.store.store.memory
  have supplies : Supplies m (Watched.Seen e.store.failures fun s : Faulty => s.memory = m)
      (Watched.Seen (e.store.failures + 1) fun s => s.memory = m) :=
    Watched.supplies _ _ e.store.failures m (Faulty.supplies m m.available)
  apply ends_mono _ e _ _ (load_sheet_split e m _ _ supplies ⟨rfl, rfl⟩ sheet)
  intro result u ended
  cases result with
  | error error =>
    obtain ⟨store, ⟨memory, failures⟩, rfl⟩ := ended
    exact ⟨memory, failures, rfl⟩
  | ok count =>
    have mirrors : Mirrors e.options.names m sheet e.registry u.registry := by
      rw [ended.registry]
      exact reloaded_mirrors e.options.names m sheet _ (mem_entries (e.upon m) sheet) e.registry
        (attained_whole e attained)
    refine ⟨ended.store.1, ended.store.2, ?_, mirrors⟩
    have formulas (record : Record) (member : record ∈ m.formulasOn sheet) :
        record.cell.isFormula = true := by
      simp only [Memory.formulasOn, List.mem_filter, Bool.and_eq_true] at member
      exact member.2.2
    rw [ended.count, length_entries _ _ formulas, mirrors.listed, if_pos rfl, List.length_map]

-- The cells of a known sheet were changed behind the engine: one formula is gone, though another
-- sheet reads its cell, one has new references and one is new. A load that fails at its last call
-- has read both formulas by then.
theorem load_sheet_mirrors_changed_cells :
    let main : SheetId := ⟨1⟩
    let data : SheetId := ⟨2⟩
    let a : Key := ⟨main, ⟨1, 1⟩⟩
    let b : Key := ⟨main, ⟨2, 1⟩⟩
    let c : Key := ⟨main, ⟨3, 1⟩⟩
    let d : Key := ⟨data, ⟨1, 1⟩⟩
    let sheets : List SheetInfo := [⟨main, ⟨1⟩, "Main"⟩, ⟨data, ⟨1⟩, "Data"⟩]
    let stored (cells : List (Key × String)) : Memory :=
      ⟨sheets, .ofList (cells.map fun (k, text) => (k, Cell.formula (.uncomputed text))), true⟩
    let before := stored [(a, "=B1"), (b, "=Data!A1"), (d, "=Main!A1")]
    let now := stored [(b, "=A1+Data!A1"), (c, "=Data!B1"), (d, "=Main!A1")]
    let loads : List (Request × (Nat → Nat)) :=
      [(.loadSheet main, fun _ => 0), (.loadSheet data, fun _ => 0)]
    let opened : Engine (Watched Faulty) :=
      Request.attemptAll (ofStore ⟨.reliable before, 0⟩ ⟨none, .empty⟩ fun _ => 0) loads
    let last (n : Nat) (_ : StoreCall) : Option StoreError :=
      if n = 4 then some (.unavailable "gone") else none
    let e : Engine (Watched Faulty) := { opened with store := ⟨.reliable now, 0⟩ }
    let f : Engine (Watched Faulty) := { opened with store := ⟨⟨now, 0, last⟩, 0⟩ }
    e.Attained ∧ f.Attained ∧ e.registry.graph.formulasOn main = [a, b] ∧
      (∃ u, (loadSheet main).Returns e 2 u ∧
        Mirrors e.options.names e.store.store.memory main e.registry u.registry ∧
          u.registry.graph.formulasOn main = [b, c] ∧ u.registry.graph.dependents a = [b, d]) ∧
        ∃ error u, (loadSheet main).Fails f error u ∧ u.registry = f.registry := by
  intro main data a b c d sheets stored before now loads opened last e f
  have attained : opened.Attained := .request _ (.request _ (.new _ _ _) _) _
  have whole : e.Attained := .exchanged opened attained _
  have broken : f.Attained := .exchanged opened attained _
  have returned : ((loadSheet main).run.run e).1 = .ok 2 := by decide +kernel
  have failed : ((loadSheet main).run.run f).1 = .error (.unavailable "gone") := by decide +kernel
  have mirrored := load_sheet_mirrors e whole main
  have kept := load_sheet_mirrors f broken main
  unfold Attempt.Ends at mirrored kept
  rw [returned] at mirrored
  rw [failed] at kept
  obtain ⟨_, _, _, mirrors⟩ := mirrored
  obtain ⟨_, _, unchanged⟩ := kept
  have loaded : (loadSheet main).Returns e 2 ((loadSheet main).run.run e).2 := Prod.ext returned rfl
  have stopped : (loadSheet main).Fails f (.unavailable "gone") ((loadSheet main).run.run f).2 :=
    Prod.ext failed rfl
  have listed : e.registry.graph.formulasOn main = [a, b] := by decide +kernel
  have anew : ((loadSheet main).run.run e).2.registry.graph.formulasOn main = [b, c] := by
    decide +kernel
  have readers : ((loadSheet main).run.run e).2.registry.graph.dependents a = [b, d] := by
    decide +kernel
  exact ⟨whole, broken, listed, ⟨_, loaded, mirrors, anew, readers⟩, _, _, stopped,
    unchanged⟩

end Engine

end Spreadsheet
