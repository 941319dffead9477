import Spreadsheet.Proofs.Engine.Abreast
import Spreadsheet.Proofs.Engine.Run
import Spreadsheet.Proofs.Store.Faults

-- Reports against what a run has written. A run reports the formulas of its plan in order, up to
-- where it stops; each is written once, with the value reported for it, and no other cell is.

set_option autoImplicit false

namespace Spreadsheet

open Formula

-- A store over the cells of a memory. What is read from it changes no cell.
structure Recording (σ : Type) [CellStore σ] (view : σ → Memory) : Prop where
  reads : ∀ m, Reads (fun s t : σ => s = t ∧ view s = m) False
  values : ∀ s k v t, (CellStore.putValue k v).Returns s () t → view t = (view s).writeValue k v
  formulas : ∀ s k f t, (CellStore.putFormula k f).Returns s () t →
    view t = (view s).put k (.formula f)

theorem memory_recording : Recording Memory id := by
  have wrote (write : Memory → Memory) (m n : Memory)
      (returned : (Memory.writing write).Returns m () n) : n = write m := by
    have ran := (Memory.run_writing write m).symm.trans returned
    cases available : m.available with
    | true =>
      rw [available] at ran
      exact (congrArg Prod.snd ran).symm
    | false =>
      rw [available] at ran
      cases ran
  refine ⟨fun m => ?_, fun m k v n => wrote (·.writeValue k v) m n,
    fun m k f n => wrote (·.put k (.formula f)) m n⟩
  have kept {α : Type} (f : Memory → α) : (Memory.reading f).Keeps fun s => id s = m := by
    intro s same
    unfold Attempt.Ends
    rw [Memory.run_reading]
    exact same
  exact ⟨fun k => tied_of_keeps _ False _ (kept _), fun r => tied_of_keeps _ False _ (kept _),
    fun id => tied_of_keeps _ False _ (kept _),
    fun workbook name => tied_of_keeps _ False _ (kept _)⟩

theorem faulty_recording : Recording Faulty Faulty.memory := by
  have wrote (call : StoreCall) (write : Memory → Memory) (s t : Faulty)
      (returned : (Faulty.guarded call (Memory.writing write)).Returns s () t) :
      t.memory = write s.memory := by
    have ran := (Faulty.run_guarded_writing call s write).symm.trans returned
    cases refused : s.refusal call with
    | some error =>
      rw [refused] at ran
      cases ran
    | none =>
      rw [refused] at ran
      exact congrArg Faulty.memory (congrArg Prod.snd ran).symm
  exact ⟨Faulty.reads_keep_memory, fun s k v t => wrote (.putValue k) (·.writeValue k v) s t,
    fun s k f t => wrote (.putFormula k) (·.put k (.formula f)) s t⟩

-- The cell that a run writes for a formula.
def Registry.resultCell (r : Registry) (k : Key) (formula : Compiled) (v : Value) : FormulaCell :=
  ((FormulaCell.uncomputed formula.source).withResult v).withReferences (r.graph.precedentsOf k)

theorem value_of_result (r : Registry) (m : Memory) (k : Key) (formula : Compiled) (v : Value)
    (written : m.cells[k]? = some (.formula (r.resultCell k formula v))) : m.value k = v := by
  simp [Memory.value, written, Cell.value, Registry.resultCell, FormulaCell.withResult,
    FormulaCell.withReferences]

-- The report of a run over a list of formulas that takes the cells from `m` to `n`.
structure Reported {σ : Type} (e : Engine σ) (formulas : KeyMap Compiled) (list : List Key)
    (report : Report) (m n : Memory) : Prop where
  listed : report.keys ++ report.notEvaluated = list
  complete : report.timedOut = false → report.notEvaluated = []
  timely : e.options.timeout? = none → report.timedOut = false
  shown : ∀ o ∈ report.outcomes, o = .of o.key o.value
  written : ∀ o ∈ report.outcomes, ∃ formula, formulas[o.key]? = some formula ∧
    n.cells[o.key]? = some (.formula (e.registry.resultCell o.key formula o.value))
  others : ∀ p, p ∉ report.keys → n.cells[p]? = m.cells[p]?

section Reported

variable {σ : Type} (e : Engine σ) (formulas : KeyMap Compiled) (list : List Key) (report : Report)
  (m n : Memory) (reported : Reported e formulas list report m n)
include reported

theorem reported_value (o : Outcome) (shown : o ∈ report.outcomes) : n.value o.key = o.value := by
  obtain ⟨formula, _, written⟩ := reported.written o shown
  exact value_of_result e.registry n o.key formula o.value written

theorem reported_outcomes : report.outcomes = report.keys.map fun k => .of k (n.value k) := by
  rw [Report.keys, List.map_map]
  refine (List.map_id _).symm.trans (List.map_congr_left fun o shown => ?_)
  have value := reported_value e formulas list report m n reported o shown
  exact (reported.shown o shown).trans (congrArg (Outcome.of o.key) value.symm)

end Reported

section Reports

variable {σ : Type} [CellStore σ] (view : σ → Memory) (recording : Recording σ view)
  (e : Engine σ) (formulas : KeyMap Compiled)

include recording

-- A run stops, or it evaluates a formula, writes its result and goes on.
theorem run_from_split (k : Key) (rest : List Key) (n : Nat) (c d : Context σ) (report : Report)
    (planned : k ∈ formulas) (same : c.formulas = formulas)
    (ran : (e.runFrom n (k :: rest)).Returns c report d) :
    (report = ⟨[], k :: rest, true⟩ ∧ d = c ∧ e.expired n = true) ∨
      ∃ formula v t later, formulas[k]? = some formula ∧ t.formulas = formulas ∧
        view t.store = (view c.store).put k (.formula (e.registry.resultCell k formula v)) ∧
        (e.runFrom (n + 1) rest).Returns t later d ∧
        report = { later with outcomes := .of k v :: later.outcomes } := by
  unfold Engine.runFrom at ran
  by_cases late : e.expired n = true
  · simp only [late, if_true] at ran
    obtain ⟨rfl, rfl⟩ := returns_unique _ c c d _ report (returns_pure c _) ran
    exact .inl ⟨rfl, rfl, late⟩
  · simp only [late, Bool.false_eq_true, if_false] at ran
    obtain ⟨v, b, evaluated, ran⟩ := returns_split _ _ c d report ran
    have kept := ends_of_returns _ c b v _ evaluated
      (Context.evaluate_keeps _ (recording.reads (view c.store)) formulas k c ⟨same, rfl⟩)
    have ran := returns_split_get b d _ report ran
    obtain ⟨formula, found⟩ := lookup_of_member formulas k planned
    simp only [kept.1, found] at ran
    obtain ⟨_, t, wrote, ran⟩ := returns_split _ _ b d report ran
    obtain ⟨later, u, goes, done⟩ := returns_split _ _ t d report ran
    obtain ⟨rfl, rfl⟩ := returns_unique _ u u d _ report (returns_pure u _) done
    obtain ⟨s, put, rfl⟩ := returns_split_within _ _ _ b t () wrote
    refine .inr ⟨formula, v, { b with store := s }, later, found, kept.1, ?_, goes, rfl⟩
    rw [← kept.2]
    exact recording.formulas b.store k _ s put

theorem run_from_reports (list : List Key) (once : list.Nodup) (n : Nat) (c d : Context σ)
    (report : Report) (planned : ∀ k ∈ list, k ∈ formulas) (same : c.formulas = formulas)
    (ran : (e.runFrom n list).Returns c report d) :
    Reported e formulas list report (view c.store) (view d.store) := by
  induction list generalizing n c report with
  | nil =>
    obtain ⟨rfl, rfl⟩ := returns_unique _ c c d _ report (returns_pure c _) ran
    exact ⟨rfl, fun _ => rfl, fun _ => rfl, nofun, nofun, fun _ _ => rfl⟩
  | cons k rest ih =>
    obtain ⟨apart, distinct⟩ := List.nodup_cons.mp once
    have split := run_from_split view recording e formulas k rest n c d report
      (planned k List.mem_cons_self) same ran
    cases split with
    | inl stopped =>
      obtain ⟨rfl, rfl, late⟩ := stopped
      refine ⟨rfl, nofun, fun untimed => ?_, nofun, nofun, fun _ _ => rfl⟩
      simp [Engine.expired, untimed] at late
    | inr went =>
      obtain ⟨formula, v, t, later, found, known, wrote, goes, rfl⟩ := went
      have after := ih distinct (n + 1) t later
        (fun p member => planned p (List.mem_cons_of_mem k member)) known goes
      have passed (p : Key) (member : p ∈ later.keys) : p ∈ rest := by
        rw [← after.listed]
        exact List.mem_append_left _ member
      have kept (p : Key) (other : p ∉ later.keys) : (view d.store).cells[p]? =
          if k = p then some (.formula (e.registry.resultCell k formula v))
          else (view c.store).cells[p]? := by
        rw [after.others p other, wrote, Memory.put, lookup_insert]
      refine ⟨congrArg (k :: ·) after.listed, after.complete, after.timely,
        List.forall_mem_cons.mpr ⟨rfl, after.shown⟩,
        List.forall_mem_cons.mpr ⟨⟨formula, found, ?_⟩, after.written⟩, fun p absent => ?_⟩
      · exact (kept k (mt (passed k) apart)).trans (if_pos rfl)
      · obtain ⟨other, further⟩ := not_or.mp (mt List.mem_cons.mpr absent)
        exact (kept p further).trans (if_neg (Ne.symm other))

-- The formulas of a plan are registered ones, each once.
theorem run_in_reports (next : Key → List Key) (seeds : List Key)
    (lists : e.registry.graph.ListsReads (e.registry.affected seeds) next) (report : Report)
    (u : Engine σ) (ran : (Engine.runIn next seeds).Returns e report u) :
    Reported e (e.registry.plan seeds).formulas (e.registry.arranged seeds next) report
      (view e.store) (view u.store) := by
  obtain ⟨d, went, rfl⟩ := Engine.run_in_split e next seeds report u ran
  have ordered := Graph.by_depth_ordered e.registry.graph (e.registry.affected seeds) next lists
  refine run_from_reports view recording e _ _ (ordered.once.filter _) 0 (e.started seeds) d report
    (fun k member => ?_) rfl went
  obtain ⟨placed, known⟩ := List.mem_filter.mp member
  obtain ⟨formula, found⟩ := lookup_of_member _ k (of_decide_eq_true known)
  apply member_of_lookup _ k formula
  rw [plan_formulas_lookup, if_pos ((ordered.members k).mp placed), found]

end Reports

end Spreadsheet
