import Spreadsheet.Proofs.Engine.Standing

-- The sheets that a request locks. It finds them with the graph as it is before an edit. The edit
-- gives one cell other references, which lie on sheets known beforehand; what depends on the cell
-- stays the same. So the locked sheets are enough for the graph after the edit as well.

set_option autoImplicit false

namespace Spreadsheet

open Formula

-- The sheets hold the seeds, all that depends on them, and what these cells refer to.
def Graph.StaysOn (g : Graph) (seeds : List Key) (sheets : SheetSet) : Prop :=
  ∀ k, k ∈ seeds ∨ k ∈ g.closure seeds →
    k.sheet ∈ sheets ∧ ∀ r ∈ g.precedentsOf k, r.sheet ∈ sheets

-- An edit of `k` gives other references to `k` alone, and chains to `k` do not go on from there.
theorem stays_on_edited (g h : Graph) (k : Key) (sheets : SheetSet) (linked : g.Linked)
    (after : h.Linked) (others : ∀ p, p ≠ k → h.precedentsOf p = g.precedentsOf p)
    (home : k.sheet ∈ sheets) (own : ∀ r ∈ h.precedentsOf k, r.sheet ∈ sheets)
    (stays : g.StaysOn [k] sheets) : h.StaysOn [k] sheets := by
  have reads (f p : Key) (apart : f ≠ k) : h.reads f p = g.reads f p := by
    simp only [Graph.reads, others f apart]
  intro p touched
  by_cases here : p = k
  · rw [here]
    exact ⟨home, own⟩
  · have dependent : p ∈ h.closure [k] := touched.resolve_left (by simpa using here)
    obtain ⟨s, seed, chain⟩ := (Graph.mem_closure h after [k] p).mp dependent
    rw [List.mem_singleton.mp seed] at chain
    have before : g.DependsOn p k := Graph.depends_on_target h g k p reads here chain
    have known : p ∈ g.closure [k] :=
      (Graph.mem_closure g linked [k] p).mpr ⟨k, List.mem_singleton_self k, before⟩
    rw [others p here]
    exact stays p (.inr known)

theorem covers_iff (s t : SheetSet) : (Guard.mk s).covers t = true ↔ ∀ x ∈ t, x ∈ s := by
  simp only [Guard.covers, List.all_eq_true, Std.ExtTreeSet.mem_toList, decide_eq_true_eq]

theorem touched_stays (r : Registry) (seeds : List Key) (sheets : SheetSet)
    (covers : ∀ x ∈ r.touchedSheets seeds, x ∈ sheets) : r.graph.StaysOn seeds sheets := by
  intro k touched
  have listed (x : SheetId)
      (here : x ∈ k.sheet :: (r.graph.precedentsOf k).map SheetRange.sheet) :
      x ∈ r.touchedSheets seeds := by
    simp only [Registry.touchedSheets, Std.ExtTreeSet.mem_ofList, List.contains_iff_mem,
      List.mem_flatMap, List.mem_append, Std.ExtTreeSet.mem_toList]
    exact ⟨k, touched.symm, here⟩
  refine ⟨covers _ (listed _ List.mem_cons_self), fun range held => ?_⟩
  exact covers _ (listed _ (List.mem_cons_of_mem _ (List.mem_map_of_mem held)))

namespace Engine

section Acquisitions

variable (needed sheets : SheetSet)

theorem acquisitions_covered (covered : (Guard.mk sheets).covers needed = true) :
    acquisitions needed sheets = [sheets] := by
  rw [acquisitions, dif_pos covered]

-- The second set holds all that is needed, so there is no third one.
theorem acquisitions_uncovered (uncovered : ¬(Guard.mk sheets).covers needed = true) :
    acquisitions needed sheets = [sheets, sheets.union needed] := by
  rw [acquisitions, dif_neg uncovered, acquisitions_covered _ _ (covers_union needed sheets)]

theorem acquired_holds (x : SheetId) (wanted : x ∈ sheets ∨ x ∈ needed) :
    x ∈ (acquisitions needed sheets).getLastD sheets := by
  by_cases covered : (Guard.mk sheets).covers needed = true
  · rw [acquisitions_covered needed sheets covered]
    exact wanted.elim id ((covers_iff sheets needed).mp covered x)
  · rw [acquisitions_uncovered needed sheets covered]
    exact (mem_union sheets needed x).mpr wanted

end Acquisitions

theorem acquired_locked (locks : Locks) (sheets : SheetSet) (x : SheetId) (member : x ∈ sheets) :
    (locks.acquire sheets).2.isLocked x = true :=
  decide_eq_true ((mem_union locks.held sheets x).mpr (.inr member))

variable {σ : Type}

-- A request gets its locks at the second attempt at the latest, without waiting.
structure Granted (e : Engine σ) (seeds : List Key) (sheets : SheetSet) : Prop where
  twice : (acquisitions (e.registry.touchedSheets seeds) sheets).length ≤ 2
  last : (acquisitions (e.registry.touchedSheets seeds) sheets).getLast? =
    some (e.lockClosure seeds sheets)
  free : ∀ claim ∈ acquisitions (e.registry.touchedSheets seeds) sheets,
    e.locks.blocks claim = false

theorem granted_of_free (e : Engine σ) (free : e.locks.held = ∅) (seeds : List Key)
    (sheets : SheetSet) : e.Granted seeds sheets := by
  have unblocked (claim : SheetSet) : e.locks.blocks claim = false := by
    simp [Locks.blocks, Locks.isLocked, free]
  let needed := e.registry.touchedSheets seeds
  by_cases covered : (Guard.mk sheets).covers needed = true
  · have once := acquisitions_covered needed sheets covered
    refine ⟨?_, ?_, fun claim _ => unblocked claim⟩
    · simp [needed, once]
    · simp [lockClosure, needed, once]
  · have again := acquisitions_uncovered needed sheets covered
    refine ⟨?_, ?_, fun claim _ => unblocked claim⟩
    · simp [needed, again]
    · simp [lockClosure, needed, again]

theorem lock_closure_stays (e : Engine σ) (seeds : List Key) (sheets : SheetSet) :
    e.registry.graph.StaysOn seeds (e.lockClosure seeds sheets) :=
  touched_stays e.registry seeds _ fun x needed => acquired_holds _ sheets x (.inr needed)

-- Between two requests: indexes that fit the references, and certain locks.
abbrev Steady (locks : Locks) (e : Engine σ) : Prop := e.Stands (fun r => r.graph.Linked) locks

theorem Steady.linked (locks : Locks) (e : Engine σ) (steady : e.Steady locks) :
    e.registry.graph.Linked := steady.registry

variable [CellStore σ]

theorem stage_keeps (locks : Locks) (k : Key) (input : Input) :
    Attempt.Keeps (Steady (σ := σ) locks) (stage k input) :=
  stage_stands _ locks k input

-- The registry changes with the store or not at all.
theorem commit_registers (e : Engine σ) (k : Key) (content : Staged) :
    (commit k content).Ends e fun _ u =>
      u.registry = e.registry ∨ u.registry = content.registered k e.registry := by
  have written (act : Attempt σ Unit) (register : Registry → Registry) :
      (calling act >>= fun _ => modifyRegistry register).Ends e fun _ u =>
        u.registry = e.registry ∨ u.registry = register e.registry := by
    apply ends_bind _ _ e (fun _ d => d.registry = e.registry)
    · exact calling_ends act e _ rfl
    · exact fun _ d same => .inr (congrArg register same)
    · exact fun _ _ same => .inl same
  cases content with
  | literal v => exact written _ _
  | formula c references => exact written _ _

end Engine

-- The sheets that an edit knows of before it looks at the graph.
def Staged.sheets (k : Key) (content : Staged) : SheetSet :=
  .ofList (k.sheet :: content.references.map SheetRange.sheet)

theorem registered_stays (r : Registry) (k : Key) (content : Staged) (sheets : SheetSet)
    (linked : r.graph.Linked) (known : ∀ x ∈ content.sheets k, x ∈ sheets)
    (stays : r.graph.StaysOn [k] sheets) :
    (content.registered k r).graph.StaysOn [k] sheets := by
  have home : k.sheet ∈ sheets := known _ (by simp [Staged.sheets])
  cases content with
  | literal v =>
    apply stays_on_edited r.graph _ k sheets linked (Graph.remove_formula_linked r.graph k linked)
      _ home _ stays
    · intro p apart
      exact (Graph.precedents_of_remove_formula r.graph k p).trans (if_neg (Ne.symm apart))
    · intro range held
      change range ∈ (r.graph.removeFormula k).precedentsOf k at held
      rw [Graph.precedents_of_remove_formula, if_pos rfl] at held
      exact absurd held List.not_mem_nil
  | formula c references =>
    apply stays_on_edited r.graph _ k sheets linked
      (Graph.set_formula_linked r.graph k references linked) _ home _ stays
    · intro p apart
      exact (Graph.precedents_of_set_formula r.graph k p references).trans (if_neg (Ne.symm apart))
    · intro range held
      change range ∈ (r.graph.setFormula k references).precedentsOf k at held
      rw [Graph.precedents_of_set_formula, if_pos rfl, mem_distinct] at held
      apply known
      simp only [Staged.sheets, Staged.references, Std.ExtTreeSet.mem_ofList,
        List.contains_iff_mem]
      exact List.mem_cons_of_mem _ (List.mem_map_of_mem held)

section Histories

variable {σ : Type} [CellStore σ]

theorem attempts_steady (e : Engine σ) (steady : e.Steady .none)
    (history : List (Request × (Nat → Nat))) : (Request.attemptAll e history).Steady .none := by
  apply attempts_stand _ _ _ e steady history
  · exact fun r k _ references => Graph.set_formula_linked r.graph k references
  · exact fun r k => Graph.remove_formula_linked r.graph k

-- The sheets locked when an edit comes to its write are enough for the graph that the edit leaves,
-- whether the write succeeds or fails; those locked for a recalculation are enough for the graph
-- as it is.
theorem locked_sheets_suffice (store : σ) (options : Options) (clock : Nat → Nat)
    (history : List (Request × (Nat → Nat))) :
    let e := Request.attemptAll (Engine.ofStore store options clock) history
    (∀ k input content d, (Engine.stage k input).Returns e content d →
      d.Granted [k] (content.sheets k) ∧
        let sheets := d.lockClosure [k] (content.sheets k)
        let locks := (d.locks.acquire sheets).2
        (∀ x ∈ sheets, locks.isLocked x = true) ∧
          (Engine.commit k content).Ends { d with locks } fun _ u =>
            u.registry.graph.StaysOn [k] sheets) ∧
    ∀ sheet (addresses : List Address),
      let seeds := addresses.map fun a => (⟨sheet, a⟩ : Key)
      let sheets := e.lockClosure seeds (.ofList (seeds.map Key.sheet))
      e.Granted seeds (.ofList (seeds.map Key.sheet)) ∧
        (∀ x ∈ sheets, (e.locks.acquire sheets).2.isLocked x = true) ∧
          e.registry.graph.StaysOn seeds sheets := by
  intro e
  have new : (Engine.ofStore store options clock).Steady .none := ⟨Graph.empty_linked, rfl⟩
  have steady : e.Steady .none := attempts_steady _ new history
  constructor
  · intro k input content d staged
    have after : d.Steady .none := by
      have kept := Engine.stage_keeps .none k input e steady
      unfold Attempt.Ends at kept
      rw [staged] at kept
      exact kept
    refine ⟨Engine.granted_of_free d (congrArg Locks.held after.locks) [k] _, ?_⟩
    intro sheets locks
    refine ⟨Engine.acquired_locked d.locks sheets, ?_⟩
    have stays := Engine.lock_closure_stays d [k] (content.sheets k)
    have known (x : SheetId) (listed : x ∈ content.sheets k) : x ∈ sheets :=
      Engine.acquired_holds _ _ x (.inl listed)
    apply ends_mono _ _ _ _ (Engine.commit_registers _ k content)
    intro _ u registry
    cases registry with
    | inl same =>
      rw [same]
      exact stays
    | inr same =>
      rw [same]
      exact registered_stays d.registry k content sheets after.linked known stays
  · intro sheet addresses seeds sheets
    have free : e.locks.held = ∅ := congrArg Locks.held steady.locks
    exact ⟨Engine.granted_of_free e free seeds _, Engine.acquired_locked e.locks sheets,
      Engine.lock_closure_stays e seeds _⟩

end Histories

-- A cell on one sheet is read from another one and comes to read a third one. The first claim has
-- the sheets of the edit, the second one also that of the reader.
theorem locked_sheets_suffice_across_sheets :
    let a : Key := ⟨⟨1⟩, ⟨1, 1⟩⟩
    let reader : Key := ⟨⟨2⟩, ⟨1, 1⟩⟩
    let infos : List SheetInfo :=
      [⟨⟨1⟩, ⟨1⟩, "Main"⟩, ⟨⟨2⟩, ⟨1⟩, "Rates"⟩, ⟨⟨3⟩, ⟨1⟩, "Costs"⟩]
    let m : Memory := (⟨infos, ∅, true⟩ : Memory).put reader
      (.formula ⟨"=Main!A1", .empty, none, []⟩)
    let e := Request.attemptAll (Engine.ofStore m ⟨none, .empty⟩ id) [(.loadSheet ⟨2⟩, id)]
    let content := e.staged a (.formula "=Costs!A1")
    let sheets := e.lockClosure [a] (content.sheets a)
    (Engine.stage a (.formula "=Costs!A1")).Returns e content e ∧
      (content.sheets a).toList = [⟨1⟩, ⟨3⟩] ∧ sheets.toList = [⟨1⟩, ⟨2⟩, ⟨3⟩] ∧
      e.Granted [a] (content.sheets a) ∧
      let locks := (e.locks.acquire sheets).2
      (∀ x ∈ sheets, locks.isLocked x = true) ∧
        (Engine.commit a content).Ends { e with locks } fun _ u =>
          u.registry.graph.StaysOn [a] sheets := by
  intro a reader infos m e content sheets
  have available : e.store.available = true := by decide +kernel
  have staged := Engine.stage_returns e available a (.formula "=Costs!A1")
  have enough := locked_sheets_suffice m ⟨none, .empty⟩ id [(.loadSheet ⟨2⟩, id)]
  obtain ⟨granted, locked, ends⟩ := enough.1 a (.formula "=Costs!A1") content e staged
  exact ⟨staged, by decide +kernel, by decide +kernel, granted, locked, ends⟩

end Spreadsheet
