import Spreadsheet.Proofs.Engine.Plans
import Spreadsheet.Proofs.Engine.Reruns
import Spreadsheet.Proofs.Engine.Shadows
import Spreadsheet.Proofs.Engine.Timed
import Spreadsheet.Proofs.Graph.Shift

-- Recovery from failures. An edit that is cut short may leave results stale, but only of formulas
-- that depend on the edited cell; so one recalculation from there, once it succeeds, settles all.

set_option autoImplicit false

namespace Spreadsheet

open Formula

-- All that is stale depends on one cell.
structure Repairable (k : Key) (e : Engine Memory) : Prop extends Informed e where
  settled : ∀ p ∈ e.registry.formulas, p ∈ e.registry.affected [k] ∨ SettledIn e p

theorem repairable_recalculated (k : Key) (e : Engine Memory) (repairable : Repairable k e) :
    ∃ report u, (Engine.recalculate k.sheet [k.addr]).Returns e report u ∧ Consistent u ∧
      Refreshed e u := by
  obtain ⟨report, u, ran, ready, refreshed, registry, settles⟩ :=
    Engine.recalculate_settles e repairable.toReady k.sheet [k.addr]
  have informed : Informed u :=
    ⟨ready, complete_congr e u refreshed (by simp [registry]) repairable.complete⟩
  refine ⟨report, u, ran, ⟨informed, fun p => ?_⟩, refreshed⟩
  apply settled_of_known u informed p
  intro known
  rw [registry] at known
  exact settles p known (repairable.settled p known)

theorem reran_repairable (k : Key) (e u : Engine Memory) (repairable : Repairable k e)
    (reran : Reran [k] e u) : Repairable k u := by
  have informed := repairable.toInformed
  refine ⟨reran_informed [k] e u informed reran, fun p known => ?_⟩
  rw [reran.registry] at known ⊢
  by_cases member : p ∈ e.registry.affected [k]
  · exact .inl member
  · exact .inr (reran_settled [k] e u informed reran p known member
      ((repairable.settled p known).resolve_left member))

theorem committed_repairable (e : Engine Memory) (consistent : Consistent e) (k : Key)
    (input : Input) (ascii : input.Ascii e.options.names) :
    Repairable k (e.committed k (e.staged k input)) :=
  ⟨committed_informed e consistent.toInformed k input ascii,
    commits_settled e _ consistent k input (committed_commits e consistent.step k input ascii)⟩

theorem failed_edit_repairable (e : Engine Faulty) (consistent : Consistent e.plain) (k : Key)
    (input : Input) (ascii : input.Ascii e.options.names) (error : StoreError) (u : Engine Faulty)
    (failed : (Engine.applyEdit k input).Fails e error u) : Repairable k u.plain := by
  have agrees := agrees_refreshed e.plain.store e.store.memory _
    (informed_agrees e.plain consistent.toInformed) fun _ => rfl
  cases ends_of_fails _ e u error _ failed (Engine.apply_edit_ends e agrees k input) with
  | inl stopped =>
    have repairable : Repairable k e.plain :=
      ⟨consistent.toInformed, fun p _ => .inr (consistent.settled p)⟩
    exact reran_repairable k _ _ repairable (unmoved_reran e u [k] stopped.2)
  | inr edits =>
    exact reran_repairable k _ _ (committed_repairable e.plain consistent k input ascii)
      (edits_reran e u k input edits)

-- The recalculation may meet faults as well, as long as it succeeds; without faults it does.
theorem failed_edit_recovered (e : Engine Faulty) (consistent : Consistent e.plain) (k : Key)
    (input : Input) (ascii : input.Ascii e.options.names) (error : StoreError) (u : Engine Faulty)
    (failed : (Engine.applyEdit k input).Fails e error u) (restored : Faulty)
    (same : restored.plain = u.store.plain) (clock : Nat → Nat) :
    let v : Engine Faulty := { u with store := restored, clock }
    (∀ report w, (Engine.recalculate k.sheet [k.addr]).Returns v report w →
      Consistent w.plain ∧ ∀ p, w.store.memory.inputAt p = u.store.memory.inputAt p) ∧
    (restored.Sure → ∃ report w, (Engine.recalculate k.sheet [k.addr]).Returns v report w) := by
  intro v
  have stale := failed_edit_repairable e consistent k input ascii error u failed
  have contents : v.plain = { u.plain with clock } := by
    simp only [v, Engine.plain, same]
  have repairable : Repairable k v.plain := by
    rw [contents]
    exact ⟨⟨⟨stale.available, stale.untimed, stale.step⟩, stale.complete⟩, stale.settled⟩
  obtain ⟨report, f, ran, after, refreshed⟩ := repairable_recalculated k v.plain repairable
  refine ⟨fun given w returned => ?_, fun sure => ?_⟩
  · obtain ⟨g, followed, shadows, _⟩ := abreast_returns _ _ _ _ v w v.plain given
      (Engine.recalculate_tied True k.sheet [k.addr] v v.plain ⟨rfl, .inl trivial⟩) returned
    obtain ⟨_, rfl⟩ := returns_unique _ _ _ _ _ _ followed ran
    rw [shadows]
    refine ⟨after, fun p => ?_⟩
    have input := refreshed.inputs p
    rw [← shadows, contents] at input
    exact input
  · obtain ⟨w, returned, _⟩ := returns_abreast _ _ _ v v.plain f report
      (Engine.recalculate_tied False k.sheet [k.addr] v v.plain ⟨rfl, .inr sure⟩) ran
    exact ⟨report, w, returned⟩

-- Stored formulas that are all known, lie on no cycle and have the right results.
theorem consistent_of_list (e : Engine Memory) (ready : Ready e)
    (each : ∀ entry ∈ e.store.cells.toList, ∀ source ∈ entry.2.source?,
      entry.1 ∈ e.registry.formulas ∧ entry.1 ∉ e.registry.graph.closure [entry.1] ∧
        entry.2.value = e.store.computed e.options.names entry.1 source) : Consistent e := by
  have right (k : Key) (f : FormulaCell) (found : e.store.cells[k]? = some (.formula f)) :=
    each (k, .formula f) (Std.ExtTreeMap.mem_toList_iff_getElem?_eq_some.mpr found) f.source rfl
  refine ⟨⟨ready, fun k source input => ?_⟩, fun k f found => ?_⟩
  · obtain ⟨f, found, _⟩ := (input_formula e.store k source).mp input
    exact (right k f found).1
  · obtain ⟨_, free, result⟩ := right k f found
    rw [Graph.mem_closure_one _ ready.step.linked] at free
    exact ⟨fun looping => absurd looping free, fun _ => result⟩

-- A plan for two formulas, one of which reads the other, and neither of which is circular.
theorem plan_pair (r : Registry) (whole : r.Whole) (seeds : List Key) (b c : Key)
    (cells : (r.affected seeds).toList = [b, c])
    (apart : ∀ k ∈ [b, c], k ∉ r.graph.closure [k]) (edge : r.graph.reads c b = true) :
    (r.plan seeds).order = [b, c] ∧ (r.plan seeds).cyclic.toList = [] := by
  have linked := whole.linked
  have free (k : Key) (inside : k ∈ r.affected seeds) : ¬r.graph.OnCycle k :=
    mt (Graph.mem_closure_one _ linked k k).mpr
      (apart k (cells ▸ Std.ExtTreeSet.mem_toList.mpr inside))
  have last : c ∈ r.affected seeds := Std.ExtTreeSet.mem_toList.mp (by simp [cells])
  have alone := mt (r.affected_cycle linked seeds c last).mp (free c last)
  constructor
  · rw [r.plan_order whole]
    exact Graph.ordered_pair _ _ _ (Graph.by_depth_ordered _ _ _
      (Graph.lists_reads_within _ linked _)) b c cells alone edge
  · refine List.eq_nil_iff_forall_not_mem.mpr fun k member => ?_
    have looping := (r.mem_cyclic_affected linked seeds k).mp (Std.ExtTreeSet.mem_toList.mp member)
    exact free k looping.1 looping.2

-- The engine that the run of an edit starts from, once the store has taken the new content.
def Engine.edited (e : Engine Faulty) (k : Key) (content : Staged) : Engine Faulty :=
  { e.locking [k] (content.sheets k) with
    store := { e.store.counted with memory := content.written k e.store.memory }
    registry := content.registered k e.registry }

-- An edit that is written, under a known plan without circular cells.
theorem edit_ends_planned (e : Engine Faulty) (k : Key) (input : Input) (content : Staged)
    (staged : (Engine.stage k input).Returns e content e)
    (accepted : e.store.refusal (content.call k) = none) (order : List Key)
    (planned : ((e.edited k content).registry.plan [k]).order = order ∧
      ((e.edited k content).registry.plan [k]).cyclic.toList = [])
    (post : Except StoreError Report → Memory → Prop)
    (ends : ((e.edited k content).runFrom 0 order).Ends (.ofFormulas (e.edited k content).store
      ((e.edited k content).registry.plan [k]).formulas)
        fun result c => post result c.store.memory) :
    (Engine.applyEdit k input).Ends e fun result u => post result u.store.memory := by
  let locked := e.locking [k] (content.sheets k)
  have committed : (Engine.commit k content).Returns locked () (e.edited k content) := by
    have went : locked.store.refusal (content.call k) = none := accepted
    have ran := Engine.run_commit locked k content
    rw [went] at ran
    exact ran
  apply ends_bind_returned _ _ e e content _ staged
  apply ends_get
  apply Engine.holding_ends
  apply ends_bind_returned _ _ locked (e.edited k content) _ _ committed
  obtain ⟨ordered, none⟩ := planned
  unfold Attempt.Ends
  rw [Engine.run_eq, ordered, Engine.started, Registry.started, none]
  exact ends

-- Of two formulas that depend on the edited cell the first has its new result stored, and then the
-- store refuses that of the second.
theorem failed_edit_recovered_after_write :
    let a : Key := ⟨⟨1⟩, ⟨1, 1⟩⟩
    let b : Key := ⟨⟨1⟩, ⟨2, 1⟩⟩
    let c : Key := ⟨⟨1⟩, ⟨3, 1⟩⟩
    let m : Memory := (((⟨[⟨⟨1⟩, ⟨1⟩, "Main"⟩], ∅, true⟩ : Memory).put a
      (.literal (.text "left"))).put b (.formula ⟨"=A1", .text "left", none, []⟩)).put c
      (.formula ⟨"=A1&A2", .text "leftleft", none, []⟩)
    let loaded := Request.attemptAll (Engine.ofStore m ⟨none, .empty⟩ id) [(.loadSheet ⟨1⟩, id)]
    let fault : Nat → StoreCall → Option StoreError :=
      fun _ call => if call = .putFormula c then some (.unavailable "timeout") else none
    let e : Engine Faulty := { loaded with store := ⟨loaded.store, 0, fault⟩ }
    let input : Input := .value (.text "right")
    Consistent e.plain ∧ input.Ascii e.options.names ∧
      ∃ error u, (Engine.applyEdit a input).Fails e error u ∧
        u.store.memory.value b = .text "right" ∧ u.store.memory.value c = .text "leftleft" ∧
        ∃ report w, (Engine.recalculate a.sheet [a.addr]).Returns
            { u with store := .reliable u.store.plain } report w ∧
          Consistent w.plain ∧ ∀ p, w.store.memory.inputAt p = u.store.memory.inputAt p := by
  intro a b c m loaded fault e input
  have new := bound_new m rfl ⟨none, .empty⟩ id (readable_of_list m _ (by decide +kernel))
  obtain ⟨bound, options⟩ := attempts_bound _ new [(.loadSheet ⟨1⟩, id)] (by decide +kernel)
  have ready : Ready loaded := ⟨bound.available, congrArg Options.timeout? options, bound.step⟩
  have right : Consistent loaded := consistent_of_list loaded ready (by decide +kernel)
  have same : e.plain = loaded := by
    have store : loaded.store.setAvailable true = loaded.store := by
      rw [← bound.available]
      rfl
    simp only [e, Engine.plain, Faulty.plain, store]
  have consistent : Consistent e.plain := same ▸ right
  let v := e.edited a (.literal (.text "right"))
  have planned := plan_pair (loaded.registry.remove a)
    (loaded.registry.remove_whole (in_step_whole _ _ _ bound.step) a) [a] b c (by decide +kernel)
    (by decide +kernel) (by decide +kernel)
  let ran := (v.runFrom 0 [b, c]).run.run (.ofFormulas v.store (v.registry.plan [a]).formulas)
  have stopped : ran.1.isOk = false ∧ ran.2.store.memory.value b = .text "right" ∧
      ran.2.store.memory.value c = .text "leftleft" := by decide +kernel
  have ended := edit_ends_planned e a input (.literal (.text "right")) (returns_pure e _)
    (by decide +kernel) [b, c] planned (fun result n => result.isOk = false ∧
      n.value b = .text "right" ∧ n.value c = .text "leftleft") stopped
  obtain ⟨error, u, fails, first, second⟩ := failed_of_ends _ e
    (fun u => u.store.memory.value b = .text "right" ∧ u.store.memory.value c = .text "leftleft")
    ended
  obtain ⟨recovered, succeeds⟩ := failed_edit_recovered e consistent a input trivial error u fails
    (.reliable u.store.plain) rfl u.clock
  obtain ⟨report, w, returned⟩ := succeeds (Faulty.reliable_sure _ rfl)
  exact ⟨consistent, trivial, error, u, fails, first, second, report, w, returned,
    recovered report w returned⟩

end Spreadsheet
