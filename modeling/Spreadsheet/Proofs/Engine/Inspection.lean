import Spreadsheet.Proofs.Engine.Reports
import Spreadsheet.Proofs.Engine.Timed
import Spreadsheet.Proofs.Graph.Shift

-- Inspections against reports. An inspection orders what depends on a cell, an edit orders this
-- together with the cell, if it holds a formula. Away from cycles the two orders are the same, up
-- to the cell itself, which comes first.

set_option autoImplicit false

namespace Spreadsheet

open Formula

namespace Registry

variable (r : Registry) (whole : r.Whole)
include whole

section Edited

variable (k : Key)
  (acyclic : ∀ p, p = k ∨ p ∈ r.graph.closure [k] → ¬r.graph.OnCycle p)

theorem plan_order_of_other (other : k ∉ r.formulas) :
    (r.plan [k]).order = (r.inspect k).order := by
  have unknown : r.graph.isFormula k = false :=
    Bool.eq_false_iff.mpr (mt (whole.registered k).mp other)
  have cells : r.affected [k] = r.graph.closure [k] := by simp [affected, unknown]
  rw [plan_order r whole, cells]
  rfl

include acyclic

theorem plan_order_of_formula (known : k ∈ r.formulas) :
    (r.plan [k]).order = k :: (r.inspect k).order := by
  have cells : r.affected [k] = (r.graph.closure [k]).insert k := by
    simp [affected, (whole.registered k).mpr known]
  rw [plan_order r whole, cells]
  exact Graph.order_of_source r.graph whole.linked k acyclic

end Edited

end Registry

namespace Engine

-- An engine after some history of requests over a new one, with a clock for the next request.
def Reached {σ : Type} [CellStore σ] (e : Engine σ) : Prop :=
  ∃ store options clock history now,
    e = { Request.attemptAll (ofStore store options clock) history with clock := now }

theorem reached_whole {σ : Type} [CellStore σ] (e : Engine σ) (reached : e.Reached) :
    e.registry.Whole := by
  obtain ⟨store, options, clock, history, now, rfl⟩ := reached
  have new : (ofStore store options clock).Stands Registry.Whole .none :=
    ⟨Registry.empty_whole, rfl⟩
  have stands := attempts_stand Registry.Whole
    (fun r k c references whole => r.insert_whole whole k c references)
    (fun r k whole => r.remove_whole whole k) _ new history
  exact stands.registry

theorem calling_split {σ α : Type} (act : Attempt σ α) (e u : Engine σ) (a : α)
    (returned : (calling act).Returns e a u) :
    ∃ store, act.Returns e.store a store ∧ u = { e with store } :=
  returns_split_within _ _ act e u a returned

theorem holding_split {σ α : Type} (sheets : SheetSet) (act : Attempt (Engine σ) α)
    (e u : Engine σ) (a : α) (returned : (holding sheets act).Returns e a u) :
    ∃ d, act.Returns { e with locks := (e.locks.acquire sheets).2 } a d ∧
      u = { d with locks := d.locks.release ⟨sheets⟩ } := by
  let ran := act.run.run { e with locks := (e.locks.acquire sheets).2 }
  have answered : ran.1 = .ok a := congrArg Prod.fst returned
  have left : { ran.2 with locks := ran.2.locks.release ⟨sheets⟩ } = u :=
    congrArg Prod.snd returned
  exact ⟨ran.2, Prod.ext answered rfl, left.symm⟩

-- An edit that succeeds has staged its input, committed it and run.
theorem apply_edit_split {σ : Type} [CellStore σ] (e u : Engine σ) (k : Key) (input : Input)
    (report : Report) (edited : (applyEdit k input).Returns e report u) :
    ∃ content b held c d locks, (stage k input).Returns e content b ∧
      (commit k content).Returns { b with locks := held } () c ∧
      (run [k]).Returns c report d ∧ u = { d with locks } := by
  obtain ⟨content, b, staged, later⟩ := returns_split _ _ e u report edited
  have later := returns_split_get b u _ report later
  obtain ⟨d, within, rfl⟩ := holding_split _ _ b u report later
  obtain ⟨_, c, committed, ran⟩ := returns_split _ _ _ d report within
  exact ⟨content, b, _, c, d, _, staged, committed, ran, rfl⟩

end Engine

theorem Staged.registered_whole (k : Key) (r : Registry) (whole : r.Whole) (content : Staged) :
    (content.registered k r).Whole := by
  cases content with
  | literal v => exact r.remove_whole whole k
  | formula c references => exact r.insert_whole whole k c references

section Edits

variable {σ : Type} [CellStore σ] (view : σ → Memory) (recording : Recording σ view)
  (e : Engine σ) (k : Key)

-- What is known of an edit that has succeeded: its content is in place, and the run reports.
structure EditReported (content : Staged) (report : Report) (u : Engine σ) : Prop where
  registry : u.registry = content.registered k e.registry
  timely : e.options.timeout? = none → report.timedOut = false
  complete : report.timedOut = false → report.keys = (u.registry.plan [k]).order
  written : ∀ o ∈ report.outcomes, ∃ formula, (view u.store).cells[o.key]? =
    some (.formula (u.registry.resultCell o.key formula o.value))
  others : ∀ p, p ∉ report.keys →
    (view u.store).cells[p]? = (content.written k (view e.store)).cells[p]?

include recording

theorem stage_reads (b : Engine σ) (input : Input) (content : Staged)
    (staged : (Engine.stage k input).Returns e content b) :
    ∃ store, b = { e with store } ∧ view store = view e.store := by
  cases input with
  | value v =>
    obtain ⟨_, rfl⟩ := returns_unique _ e e b _ content (returns_pure e _) staged
    exact ⟨e.store, rfl, rfl⟩
  | formula source =>
    have staged := returns_split_get e b _ content staged
    obtain ⟨references, d, bound, done⟩ := returns_split _ _ e b content staged
    obtain ⟨_, rfl⟩ := returns_unique _ d d b _ content (returns_pure d _) done
    obtain ⟨store, answered, rfl⟩ :=
      Engine.calling_split (Engine.bindFrom k.sheet none _) e d references bound
    have kept := keeps_of_tied _ _ (bind_from_tied _ False (recording.reads (view e.store))
      k.sheet none (e.compile source).references)
    exact ⟨store, rfl, ends_of_returns _ e.store store references _ answered (kept e.store rfl)⟩

theorem commit_writes (c : Engine σ) (content : Staged)
    (committed : (Engine.commit k content).Returns e () c) :
    c.registry = content.registered k e.registry ∧ c.options = e.options ∧
      view c.store = content.written k (view e.store) := by
  have split (act : Attempt σ Unit) (register : Registry → Registry)
      (returned : (Engine.calling act >>= fun _ => Engine.modifyRegistry register).Returns e () c) :
      ∃ store, act.Returns e.store () store ∧
        c = { e with store, registry := register e.registry } := by
    obtain ⟨_, d, wrote, registered⟩ := returns_split _ _ e c () returned
    obtain ⟨_, rfl⟩ := returns_unique _ d _ c () () (returns_modify _ d) registered
    obtain ⟨store, put, rfl⟩ := Engine.calling_split act e d () wrote
    exact ⟨store, put, rfl⟩
  cases content with
  | literal v =>
    obtain ⟨store, put, rfl⟩ := split (CellStore.putValue k v) _ committed
    exact ⟨rfl, rfl, recording.values e.store k v store put⟩
  | formula formula references =>
    obtain ⟨store, put, rfl⟩ := split (CellStore.putFormula k _) _ committed
    exact ⟨rfl, rfl, recording.formulas e.store k _ store put⟩

theorem edit_reports (whole : e.registry.Whole) (u : Engine σ) (input : Input) (report : Report)
    (edited : (Engine.applyEdit k input).Returns e report u) :
    ∃ content, EditReported view e k content report u := by
  obtain ⟨content, b, held, c, d, locks, staged, committed, ran, rfl⟩ :=
    Engine.apply_edit_split e u k input report edited
  obtain ⟨store, rfl, same⟩ := stage_reads view recording e k b input content staged
  obtain ⟨registry, options, memory⟩ := commit_writes view recording _ k c content committed
  have after : c.registry.Whole := registry ▸ content.registered_whole k e.registry whole
  have went := (Engine.run_in_listed c [k]).symm.trans ran
  have reported := run_in_reports view recording c (c.registry.listed [k]) [k]
    (Graph.lists_reads_within _ after.linked _) report d went
  obtain ⟨_, _, rfl⟩ := Engine.run_in_split c _ [k] report d went
  refine ⟨content, registry, fun untimed => ?_, fun timely => ?_, fun o shown => ?_, fun p => ?_⟩
  · exact reported.timely (options ▸ untimed)
  · have listed := reported.listed
    rw [reported.complete timely, List.append_nil] at listed
    exact listed
  · obtain ⟨formula, _, found⟩ := reported.written o shown
    exact ⟨formula, found⟩
  · rw [← same, ← memory]
    exact reported.others p

end Edits

section Reported

variable {σ : Type} (view : σ → Memory) (e u : Engine σ) (k : Key) (content : Staged)
  (report : Report) (whole : u.registry.Whole) (reported : EditReported view e k content report u)
  (timely : report.timedOut = false)
  (acyclic : ∀ p, p = k ∨ p ∈ u.registry.graph.closure [k] → ¬u.registry.graph.OnCycle p)
include whole reported timely acyclic

-- The cell holds a formula in the store as soon as the registry has one.
theorem edit_holds :
    (∃ source, (view u.store).inputAt k = some (.formula source)) ↔ k ∈ u.registry.formulas := by
  have listed := reported.complete timely
  cases content with
  | literal v =>
    have other : k ∉ u.registry.formulas := by
      rw [reported.registry]
      simp [Staged.registered, Registry.remove]
    rw [u.registry.plan_order_of_other whole k other] at listed
    refine iff_of_false ?_ other
    rintro ⟨source, holds⟩
    have unread : k ∉ report.keys := by
      rw [listed]
      intro member
      have inside := (Graph.mem_order _ _ k).mp member
      exact acyclic k (.inl rfl) ((Graph.mem_closure_one _ whole.linked k k).mp inside)
    have given : (view u.store).inputAt k = (Input.value v).kept := by
      rw [← Memory.input_write_value (view e.store), Memory.inputAt, reported.others k unread]
      rfl
    rw [given, Input.kept] at holds
    split at holds
    · cases holds
    · cases holds
  | formula c references =>
    have known : k ∈ u.registry.formulas := by
      rw [reported.registry]
      exact Std.ExtTreeMap.mem_insert_self
    rw [u.registry.plan_order_of_formula whole k acyclic known] at listed
    obtain ⟨o, shown, same⟩ := List.mem_map.mp (listed ▸ List.mem_cons_self : k ∈ report.keys)
    obtain ⟨formula, found⟩ := reported.written o shown
    rw [same] at found
    exact iff_of_true ⟨_, (input_formula _ k _).mpr ⟨_, found, rfl⟩⟩ known

end Reported

-- After an edit away from cycles, an inspection of the cell has the order that was reported.
theorem inspection_predicts_report {σ : Type} [CellStore σ] (view : σ → Memory)
    (recording : Recording σ view) (e : Engine σ) (reached : e.Reached) (k : Key) (input : Input)
    (report : Report) (u : Engine σ)
    (edited : (Engine.applyEdit k input).Returns e report u)
    (untimed : e.options.timeout? = none ∨ report.timedOut = false)
    (acyclic : ∀ p, p = k ∨ p ∈ u.registry.graph.closure [k] → ¬u.registry.graph.OnCycle p) :
    (∀ source, (view u.store).inputAt k = some (.formula source) →
        report.keys = k :: (u.inspect k).order) ∧
      ((∀ source, (view u.store).inputAt k ≠ some (.formula source)) →
        report.keys = (u.inspect k).order) ∧
      report.keys.Nodup ∧ ∀ o ∈ report.outcomes, (view u.store).value o.key = o.value := by
  have before := Engine.reached_whole e reached
  obtain ⟨content, reported⟩ := edit_reports view recording e k before u input report edited
  have whole : u.registry.Whole := reported.registry ▸ content.registered_whole k _ before
  have timely : report.timedOut = false := untimed.elim reported.timely id
  have listed := reported.complete timely
  have holds := edit_holds view e u k content report whole reported timely acyclic
  refine ⟨fun source held => ?_, fun other => ?_, ?_, fun o shown => ?_⟩
  · rw [listed, u.registry.plan_order_of_formula whole k acyclic (holds.mp ⟨source, held⟩)]
    rfl
  · rw [listed, u.registry.plan_order_of_other whole k (mt holds.mpr (not_exists.mpr other))]
    rfl
  · rw [listed, u.registry.plan_order whole]
    exact Graph.nodup_order _ _
  · obtain ⟨formula, found⟩ := reported.written o shown
    exact value_of_result u.registry _ o.key formula o.value found

-- A formula is put into a cell that one formula reads, and another one reads them both.
theorem inspection_predicts_report_of_formula :
    let a : Key := ⟨⟨1⟩, ⟨3, 1⟩⟩
    let b : Key := ⟨⟨1⟩, ⟨2, 1⟩⟩
    let c : Key := ⟨⟨1⟩, ⟨1, 1⟩⟩
    let m : Memory := ((⟨[⟨⟨1⟩, ⟨1⟩, "Main"⟩], ∅, true⟩ : Memory).put b
      (.formula ⟨"=A3", .empty, none, []⟩)).put c (.formula ⟨"=A2+A3", .empty, none, []⟩)
    let e := Request.attemptAll (Engine.ofStore m ⟨none, .empty⟩ id) [(.loadSheet ⟨1⟩, id)]
    Recording Memory id ∧ e.Reached ∧ e.options.timeout? = none ∧
      ∃ report u, (Engine.applyEdit a (.formula "=4")).Returns e report u ∧
        (∀ p, p = a ∨ p ∈ u.registry.graph.closure [a] → ¬u.registry.graph.OnCycle p) ∧
        (u.registry.graph.closure [a]).toList = [c, b] ∧
        (∃ source, u.store.inputAt a = some (.formula source)) ∧
        report.keys = a :: (u.inspect a).order ∧ report.keys.Nodup ∧
        ∀ o ∈ report.outcomes, u.store.value o.key = o.value := by
  intro a b c m e
  have reached : e.Reached := ⟨m, ⟨none, .empty⟩, id, [(.loadSheet ⟨1⟩, id)], e.clock, rfl⟩
  have new := bound_new m rfl ⟨none, .empty⟩ id (readable_of_list m _ (by decide +kernel))
  obtain ⟨bound, options⟩ := attempts_bound _ new [(.loadSheet ⟨1⟩, id)] (by decide +kernel)
  have untimed : e.options.timeout? = none := congrArg Options.timeout? options
  let request : Request := .edit (.given a (.formula "=4"))
  have typed : request.Ascii .empty := by decide +kernel
  obtain ⟨u, performed, _⟩ := request_bound e bound request (by rw [options]; exact typed)
  obtain ⟨report, edited⟩ := returns_split_discard _ e u performed
  have left : u = ((Engine.applyEdit a (.formula "=4")).run.run e).2 :=
    (congrArg Prod.snd edited).symm
  have whole := Engine.reached_whole e reached
  obtain ⟨content, reported⟩ := edit_reports id memory_recording e a whole u _ report edited
  have after : u.registry.Whole := reported.registry ▸ content.registered_whole a _ whole
  have closure : (u.registry.graph.closure [a]).toList = [c, b] := by
    rw [left]
    decide +kernel
  have apart : ∀ p ∈ [a, c, b], p ∉ u.registry.graph.closure [p] := by
    rw [left]
    decide +kernel
  have acyclic (p : Key) (touched : p = a ∨ p ∈ u.registry.graph.closure [a]) :
      ¬u.registry.graph.OnCycle p := by
    rw [← Std.ExtTreeSet.mem_toList, closure] at touched
    exact mt (Graph.mem_closure_one _ after.linked p p).mpr (apart p (List.mem_cons.mpr touched))
  obtain ⟨keys, _, once, values⟩ := inspection_predicts_report id memory_recording e reached a _
    report u edited (.inl untimed) acyclic
  have known : a ∈ u.registry.formulas := by
    rw [left]
    decide +kernel
  obtain ⟨source, holds⟩ := (edit_holds id e u a content report after reported
    (reported.timely untimed) acyclic).mpr known
  exact ⟨memory_recording, reached, untimed, report, u, edited, acyclic, closure, ⟨source, holds⟩,
    keys source holds, once, values⟩

end Spreadsheet
