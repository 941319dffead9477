import Spreadsheet.Proofs.Engine.Abreast
import Spreadsheet.Proofs.Engine.Agreement
import Spreadsheet.Proofs.Store.Faults

-- Requests under faults. A request may be cut short after any of its store calls; up to there it
-- has bound references without writing, put one cell and its registration in place together, and
-- replaced results of formulas that it affects.

set_option autoImplicit false

namespace Spreadsheet

open Formula

theorem bind_from_tied {σ τ : Type} [CellStore σ] [CellStore τ] (tie : σ → τ → Prop) (frail : Prop)
    (reads : Reads tie frail) (home : SheetId) (workbook? : Option (Option WorkbookId))
    (refs : List Reference) :
    Attempt.Tied tie frail (Engine.bindFrom home workbook? refs)
      (Engine.bindFrom home workbook? refs) := by
  induction refs generalizing workbook? with
  | nil => exact tied_pure _ _ []
  | cons r rest ih =>
    cases named : r.sheet? with
    | none =>
      simp only [Engine.bindFrom, named]
      exact tied_bind _ _ _ _ _ _ (ih workbook?) fun bound => tied_pure _ _ _
    | some name =>
      simp only [Engine.bindFrom, named]
      -- Where the workbook and the sheet come from makes no difference to what follows.
      cases workbook?
      case' some known => apply tied_bind _ _ _ _ _ _ (tied_pure _ _ known)
      case' none =>
        apply tied_bind _ _ _ _ _ _ (reads.sheet home)
        intro info?
        apply tied_bind _ _ _ _ _ _ (tied_pure _ _ _)
      all_goals
        intro workbook
        cases workbook
        case' some workbook => apply tied_bind _ _ _ _ _ _ (reads.sheetNamed workbook name)
        case' none => apply tied_bind _ _ _ _ _ _ (tied_pure _ _ none)
        all_goals
          intro sheet?
          apply tied_bind _ _ _ _ _ _ (ih _)
          intro bound
          cases sheet? with
          | some sheet => exact tied_pure _ _ _
          | none => exact tied_pure _ _ _

namespace Staged

def call (k : Key) : Staged → StoreCall
  | literal _ => .putValue k
  | formula _ _ => .putFormula k

def written (k : Key) (m : Memory) : Staged → Memory
  | literal v => m.writeValue k v
  | formula c references =>
    m.put k (.formula ((FormulaCell.uncomputed c.source).withReferences references))

def registered (k : Key) (r : Registry) : Staged → Registry
  | literal _ => r.remove k
  | formula c references => r.insert k c references

theorem written_edited (k : Key) (m : Memory) (content : Staged) :
    Edited k m (content.written k m) := by
  cases content with
  | literal v => exact edited_write_value m k v
  | formula c references => exact edited_put m k _

theorem written_agrees (k : Key) (m : Memory) (r : Registry) (agrees : Agrees m r)
    (content : Staged) : Agrees (content.written k m) (content.registered k r) := by
  have edited := written_edited k m content
  cases content with
  | literal v =>
    apply agrees_remove m _ r agrees k edited
    intro source
    rw [written, Memory.input_write_value, Input.kept]
    split
    · simp
    · simp
  | formula c references =>
    apply agrees_insert m _ r agrees k edited c references
    rw [written, Memory.input_put, if_pos rfl]
    rfl

end Staged

namespace Engine

theorem committed_eq (e : Engine Memory) (k : Key) (content : Staged) :
    e.committed k content = { e with
      store := content.written k e.store
      registry := content.registered k e.registry } := by
  cases content with
  | literal v => rfl
  | formula c references => rfl

-- The same engine over the same contents without faults.
def plain (e : Engine Faulty) : Engine Memory :=
  { store := e.store.plain, options := e.options, registry := e.registry, locks := e.locks,
    clock := e.clock }

structure Unmoved (e u : Engine Faulty) : Prop where
  options : u.options = e.options
  registry : u.registry = e.registry
  memory : u.store.memory = e.store.memory

theorem unmoved_refl (e : Engine Faulty) : Unmoved e e := ⟨rfl, rfl, rfl⟩

theorem calling_ends {σ α : Type} (act : Attempt σ α) (e : Engine σ)
    (post : Except StoreError α → Engine σ → Prop)
    (inner : act.Ends e.store fun result s => post result { e with store := s }) :
    (calling act).Ends e post := ends_within _ _ act e post inner

theorem holding_ends {σ α : Type} (sheets : SheetSet) (act : Attempt (Engine σ) α) (e : Engine σ)
    (post : Except StoreError α → Engine σ → Prop)
    (inner : act.Ends { e with locks := (e.locks.acquire sheets).2 } fun result u =>
      post result { u with locks := u.locks.release ⟨sheets⟩ }) : (holding sheets act).Ends e post :=
  inner

section Steps

variable (e : Engine Faulty)

theorem bind_references_ends (home : SheetId) (c : Compiled) :
    (bindReferences home c).Ends e fun result u => Unmoved e u ∧
      ∀ bound, result = .ok bound → bound = e.plain.store.bound home c.references := by
  have delivers := bind_references_delivers e e.plain.store _ _ (Faulty.supplies e.store.memory true)
    home c e ⟨e.store, rfl, rfl⟩
  apply ends_mono _ e _ _ delivers
  intro result u ended
  cases result with
  | ok bound =>
    obtain ⟨rfl, store, memory, rfl⟩ := ended
    exact ⟨⟨rfl, rfl, memory⟩, fun other same => (Except.ok.inj same).symm⟩
  | error error =>
    obtain ⟨store, memory, rfl⟩ := ended
    exact ⟨⟨rfl, rfl, memory⟩, fun other same => by cases same⟩

theorem stage_ends (k : Key) (input : Input) :
    (stage k input).Ends e fun result u => Unmoved e u ∧
      ∀ content, result = .ok content → content = e.plain.staged k input := by
  cases input with
  | value v =>
    apply ends_pure
    exact ⟨unmoved_refl e, fun content same => (Except.ok.inj same).symm⟩
  | formula source =>
    apply ends_get
    apply ends_bind _ _ e _ _ (bind_references_ends e k.sheet (e.compile source))
    · rintro bound u ⟨unmoved, found⟩
      apply ends_pure
      refine ⟨unmoved, fun content same => ?_⟩
      rw [← Except.ok.inj same, found bound rfl]
      rfl
    · rintro error u ⟨unmoved, _⟩
      exact ⟨unmoved, fun content same => by cases same⟩

-- The new content and its registration are put in place together or not at all.
theorem run_commit (k : Key) (content : Staged) :
    (commit k content).run.run e =
      match e.store.refusal (content.call k) with
      | some error => (.error error, { e with store := e.store.counted })
      | none => (.ok (), { e with
          store := { e.store.counted with memory := content.written k e.store.memory }
          registry := content.registered k e.registry }) := by
  have ran (call : StoreCall) (write : Memory → Memory) (register : Registry → Registry) :
      (calling (Faulty.guarded call (Memory.writing write)) >>= fun _ =>
        modifyRegistry register).run.run e =
        match e.store.refusal call with
        | some error => (.error error, { e with store := e.store.counted })
        | none => (.ok (), { e with
            store := { e.store.counted with memory := write e.store.memory }
            registry := register e.registry }) := by
    have wrote : (calling (Faulty.guarded call (Memory.writing write))).run.run e =
        (((Faulty.guarded call (Memory.writing write)).run.run e.store).1, { e with
          store := ((Faulty.guarded call (Memory.writing write)).run.run e.store).2 }) := rfl
    rw [ExceptT.run_bind, StateT.run_bind, wrote, Faulty.run_guarded_writing]
    cases e.store.refusal call with
    | some error => rfl
    | none => rfl
  cases content with
  | literal v => exact ran (.putValue k) (·.writeValue k v) (·.remove k)
  | formula c references => exact ran (.putFormula k) _ (·.insert k c references)

theorem commit_ends (k : Key) (content : Staged) :
    (commit k content).Ends e fun result u =>
      match e.store.refusal (content.call k) with
      | some error => result = .error error ∧ Unmoved e u
      | none => u.options = e.options ∧ u.registry = content.registered k e.registry ∧
        u.store.memory = content.written k e.store.memory ∧ result = .ok () := by
  unfold Attempt.Ends
  rw [run_commit]
  cases e.store.refusal (content.call k) with
  | some error => exact ⟨rfl, rfl, rfl, rfl⟩
  | none => exact ⟨rfl, rfl, rfl, rfl⟩

theorem result_ends (cells : KeySet) (start : Memory) (c : Context Faulty) (k : Key)
    (f : FormulaCell) (inside : k ∈ cells) (input : start.inputAt k = some (.formula f.source))
    (recomputed : Recomputed cells start c.store.memory) :
    Attempt.Ends (Context.calling (CellStore.putFormula k f)) c fun _ d =>
      d.formulas = c.formulas ∧ Recomputed cells start d.store.memory := by
  apply ends_within
  refine ⟨rfl, ?_⟩
  have wrote := Faulty.run_guarded_writing (.putFormula k) c.store (·.put k (.formula f))
  change Recomputed cells start ((Faulty.guarded (.putFormula k)
    (Memory.writing (·.put k (.formula f)))).run.run c.store).2.memory
  rw [wrote]
  cases c.store.refusal (.putFormula k) with
  | some error => exact recomputed
  | none =>
    exact recomputed_put cells start c.store.memory k f inside recomputed
      ((recomputed.inputs k).trans input)

theorem run_from_ends (formulas : KeyMap Compiled) (cells : KeySet) (start : Memory)
    (known : ∀ k f, formulas[k]? = some f → k ∈ cells ∧
      start.inputAt k = some (.formula f.source)) (list : List Key) (n : Nat) (c : Context Faulty)
    (same : c.formulas = formulas) (recomputed : Recomputed cells start c.store.memory) :
    (e.runFrom n list).Ends c fun _ d => Recomputed cells start d.store.memory := by
  induction list generalizing n c with
  | nil => exact ends_pure c _ _ recomputed
  | cons k rest ih =>
    unfold runFrom
    by_cases late : e.expired n = true
    · simp only [late, if_true]
      exact ends_pure c _ _ recomputed
    · simp only [late, Bool.false_eq_true, if_false]
      have kept := Context.evaluate_keeps _ (Faulty.reads_keep_memory c.store.memory) formulas k c
        ⟨same, rfl⟩
      apply ends_bind _ _ c _ _ kept
      · rintro v d ⟨planned, memory⟩
        rw [← memory] at recomputed
        apply ends_get
        cases found : d.formulas[k]? with
        | none => exact ih (n + 1) d planned recomputed
        | some formula =>
          obtain ⟨inside, input⟩ := known k formula (planned ▸ found)
          apply ends_bind _ _ d _ _ (result_ends cells start d k _ inside input recomputed)
          · rintro _ u ⟨unchanged, written⟩
            apply ends_bind _ _ u _ _ (ih (n + 1) u (unchanged.trans planned) written)
            · exact fun report w finished => ends_pure w _ _ finished
            · exact fun _ _ finished => finished
          · exact fun _ _ ended => ended.2
      · rintro error d ⟨_, memory⟩
        rw [memory]
        exact recomputed

theorem run_ends (agrees : Agrees e.store.memory e.registry) (seeds : List Key) :
    (run seeds).Ends e fun _ u => u.options = e.options ∧ u.registry = e.registry ∧
      Recomputed (e.registry.affected seeds) e.store.memory u.store.memory := by
  refine ⟨rfl, rfl, ?_⟩
  apply run_from_ends e (e.registry.plan seeds).formulas
  · intro k f found
    rw [plan_formulas_lookup] at found
    by_cases member : k ∈ e.registry.affected seeds
    · rw [if_pos member] at found
      have source : e.registry.sourceAt k = some f.source := by simp [Registry.sourceAt, found]
      exact ⟨member, (agrees_inputs _ _ agrees k f.source).mpr source⟩
    · rw [if_neg member] at found
      cases found
  · rfl
  · exact recomputed_refl _ _

-- How an edit ends that has reached the store: with the content and its registration in place,
-- and nothing but results changed since.
structure Edits (k : Key) (input : Input) (u : Engine Faulty) : Prop where
  accepted : ∃ d, (stage k input).Returns e (e.plain.staged k input) d ∧
    d.store.refusal ((e.plain.staged k input).call k) = none
  options : u.options = e.options
  registry : u.registry = (e.plain.staged k input).registered k e.registry
  recomputed : Recomputed (u.registry.affected [k])
    ((e.plain.staged k input).written k e.store.memory) u.store.memory

theorem apply_edit_ends (agrees : Agrees e.store.memory e.registry) (k : Key) (input : Input) :
    (applyEdit k input).Ends e fun result u =>
      (∃ error, result = .error error) ∧ Unmoved e u ∨ Edits e k input u := by
  apply ends_bind _ _ e _ _ (ends_and _ e (fun result d => (stage k input).run.run e = (result, d))
    _ rfl (stage_ends e k input))
  · rintro content d ⟨returned, unmoved, found⟩
    obtain rfl := found content rfl
    let content := e.plain.staged k input
    apply ends_get
    apply holding_ends
    apply ends_bind _ _ _ _ _ (commit_ends _ k content)
    · rintro _ c ended
      cases refused : d.store.refusal (content.call k) with
      | some error => simp [refused] at ended
      | none =>
        simp only [refused] at ended
        obtain ⟨options, registry, memory, _⟩ := ended
        have agreed : Agrees c.store.memory c.registry := by
          rw [registry, memory, unmoved.registry, unmoved.memory]
          exact content.written_agrees k _ _ agrees
        apply ends_mono _ _ _ _ (run_ends c agreed [k])
        rintro result u ⟨same, kept, recomputed⟩
        refine .inr ⟨⟨d, returned, refused⟩, same.trans (options.trans unmoved.options), ?_, ?_⟩
        · rw [← unmoved.registry]
          exact kept.trans registry
        · rw [← unmoved.memory]
          rw [memory, ← kept] at recomputed
          exact recomputed
    · rintro error c ended
      cases refused : d.store.refusal (content.call k) with
      | some error =>
        simp only [refused] at ended
        exact .inl ⟨⟨_, rfl⟩, ended.2.options.trans unmoved.options,
          ended.2.registry.trans unmoved.registry, ended.2.memory.trans unmoved.memory⟩
      | none => simp [refused] at ended
  · rintro error d ⟨_, unmoved, _⟩
    exact .inl ⟨⟨error, rfl⟩, unmoved⟩

theorem recalculate_ends (agrees : Agrees e.store.memory e.registry) (sheet : SheetId)
    (addresses : List Address) :
    (recalculate sheet addresses).Ends e fun _ u => u.options = e.options ∧
      u.registry = e.registry ∧ Recomputed (e.registry.affected (addresses.map (⟨sheet, ·⟩)))
        e.store.memory u.store.memory := by
  let seeds := addresses.map fun a => (⟨sheet, a⟩ : Key)
  let guard := e.lockClosure seeds (.ofList (seeds.map Key.sheet))
  apply ends_get
  apply holding_ends guard
  apply ends_mono _ _ _ _ (run_ends { e with locks := (e.locks.acquire guard).2 } agrees seeds)
  intro _ u ended
  exact ended

-- The registry that a load of a sheet leaves, once it has read what is stored there.
def loaded (sheet : SheetId) : Registry :=
  (e.plain.entries (e.plain.store.formulasOn sheet)).foldl Registry.insertEntry e.registry

theorem load_sheet_ends (agrees : Agrees e.store.memory e.registry) (sheet : SheetId) :
    (loadSheet sheet).Ends e fun _ u => u.options = e.options ∧
      u.store.memory = e.store.memory ∧
      (u.registry = e.registry ∨ u.registry = e.loaded sheet) := by
  have split := load_sheet_split e e.plain.store _ _ (Faulty.supplies e.store.memory true) rfl
    sheet
  apply ends_mono _ e _ _ split
  intro result u ended
  cases result with
  | ok count =>
    refine ⟨ended.options, ended.store, .inr ?_⟩
    refine ended.registry.trans (reloaded_stored e.plain sheet fun k member => ?_)
    obtain ⟨home, formula⟩ := (Graph.mem_formulas_on_sheet _ agrees.linked sheet k).mp member
    obtain ⟨f, found⟩ := (agrees.stored k).mp ((agrees.registered k).mp formula)
    exact ⟨home, f.source, (input_formula e.plain.store k f.source).mpr ⟨f, found, rfl⟩⟩
  | error error =>
    obtain ⟨store, memory, rfl⟩ := ended
    exact ⟨rfl, memory, .inl rfl⟩

theorem loaded_agrees (agrees : Agrees e.store.memory e.registry) (sheet : SheetId) :
    Agrees e.store.memory (e.loaded sheet) := by
  apply agrees_entries e.store.memory e.registry agrees e.options.names
  intro entry member
  obtain ⟨k, source, input, same⟩ := ((mem_entries e.plain sheet entry).mp member).2
  exact ⟨k, source, input, same⟩

theorem recalculate_sheet_ends (agrees : Agrees e.store.memory e.registry) (sheet : SheetId) :
    (recalculateSheet sheet).Ends e fun _ u => u.options = e.options ∧
      (u.registry = e.registry ∨ u.registry = e.loaded sheet) ∧
      Recomputed (u.registry.affected (u.registry.graph.formulasOn sheet))
        e.store.memory u.store.memory := by
  apply ends_bind _ _ e _ _ (ends_discard _ e _ (load_sheet_ends e agrees sheet))
  · rintro _ d ⟨options, memory, registry⟩
    apply ends_get
    have agreed : Agrees d.store.memory d.registry := by
      cases registry with
      | inl same =>
        rw [memory, same]
        exact agrees
      | inr same =>
        rw [memory, same]
        exact loaded_agrees e agrees sheet
    have home : ((d.registry.graph.formulasOn sheet).map Key.addr).map
        (⟨sheet, ·⟩ : Address → Key) = d.registry.graph.formulasOn sheet := by
      simp [Graph.formulasOn]
    apply ends_mono _ _ _ _ (recalculate_ends d agreed sheet _)
    rintro _ u ⟨same, kept, recomputed⟩
    rw [home, memory, ← kept] at recomputed
    exact ⟨same.trans options, kept ▸ registry, recomputed⟩
  · rintro error d ⟨options, memory, registry⟩
    refine ⟨options, registry, ?_⟩
    rw [memory]
    exact recomputed_refl _ _

end Steps

end Engine

end Spreadsheet
