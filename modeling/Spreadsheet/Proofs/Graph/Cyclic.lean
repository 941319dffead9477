import Spreadsheet.Proofs.Graph.Components
import Spreadsheet.Proofs.Graph.Histories

-- The search for components finds exactly the cells that lead back to themselves.

set_option autoImplicit false

namespace Spreadsheet

namespace Components

variable (reads : Key → List Key)

section Steps

variable (cells : List Key) (closed : ∀ k ∈ cells, ∀ p ∈ reads k, p ∈ cells)

theorem search_ended (c : Components) (ended : c.next? reads = none) : c.frames = [] := by
  unfold next? at ended
  split at ended
  · assumption
  · dsimp only at ended
    split at ended
    · cases ended
    · split at ended <;> cases ended
  · cases ended

theorem search_fresh (c after : Components) (step : c.next? reads = some after) (k : Key)
    (left : k ∈ after.fresh) : k ∈ c.fresh := by
  unfold next? at step
  split at step
  · cases step
  · dsimp only at step
    split at step
    · cases step
      exact ((member_erase c.fresh _ k).mp left).2
    · split at step <;> cases step <;> exact left
  · rename_i p outer frames
    cases step
    exact (leave_keeps reads c p outer).2 ▸ left

include closed

theorem searched_end (c : Components) (k : Key) (outer : List Frame)
    (frames : c.frames = ⟨k, []⟩ :: outer) (searched : Searched reads cells c) :
    Searched reads cells (c.leave reads k outer) := by
  cases outer with
  | nil =>
    have root := outermost_root reads cells c searched k [] [] frames rfl
    rw [leave_outermost, if_pos root]
    exact searched_complete reads cells c searched k [] [] frames root closed rfl
  | cons around further =>
    have path := innermost_path c k [] _ frames
    have chained := searched.chained
    have nested := searched.nested
    rw [path] at chained nested
    have edge : k ∈ reads around.cell :=
      (List.isChain_cons.mp chained).1 around.cell (by simp)
    have less : c.indexOf around.cell < c.indexOf k :=
      (List.pairwise_cons.mp nested).1 around.cell (by simp)
    obtain ⟨below, p, piled, least, leads⟩ :=
      searched.lowest k (searched.onPile k (by simp [path]))
    -- What the cell leads to, the cell around it leads to as well.
    have lowered := searched_lower reads cells c searched around.cell p (by simp [path]) piled
      (.head edge leads)
    rw [least] at lowered
    have apart : around.cell ≠ k := by
      rintro same
      rw [same] at less
      omega
    have same : (c.lower around.cell (c.lowOf k)).lowOf k = c.lowOf k := by
      rw [lower_low, if_neg apart]
    rw [leave_within]
    split
    · rename_i root
      exact searched_complete reads cells _ lowered k [] _ frames (same.trans root) closed rfl
    · rename_i further_down
      refine searched_leave reads cells _ lowered k [] _ frames rfl ?_ around further rfl ?_
      · rw [same]
        exact Nat.lt_of_le_of_ne below further_down
      · rw [same, lower_low, if_pos rfl]
        exact Nat.min_le_right _ _

section Look

variable (c : Components) (searched : Searched reads cells c) (k p : Key) (rest : List Key)
  (outer : List Frame) (frames : c.frames = ⟨k, p :: rest⟩ :: outer)
include searched frames

omit closed in
-- After the look the innermost visit has met `p`, and the others have met what they had.
theorem looked_on (Met : Key → Key → Prop) (before : ∀ f q, c.Seen f q → Met f q) (now : Met k p)
    (f : Frame) (member : f ∈ (⟨k, rest⟩ : Frame) :: outer) :
    (∀ q ∈ f.rest, q ∈ reads f.cell) ∧ ∀ q ∈ reads f.cell, q ∈ f.rest ∨ Met f.cell q := by
  rcases List.mem_cons.mp member with rfl | further
  · obtain ⟨listed, looked⟩ := searched.looked ⟨k, p :: rest⟩ (by simp [frames])
    refine ⟨fun q later => listed q (List.mem_cons_of_mem p later), fun q read => ?_⟩
    rcases looked q read with waiting | earlier
    · rcases List.mem_cons.mp waiting with rfl | later
      · exact .inr now
      · exact .inl later
    · exact .inr (before k q earlier)
  · obtain ⟨listed, looked⟩ := searched.looked f (frames ▸ List.mem_cons_of_mem _ further)
    exact ⟨listed, fun q read => (looked q read).imp_right (before f.cell q)⟩

omit searched closed in
theorem look_path : ((⟨k, rest⟩ : Frame) :: outer).map Frame.cell = c.path := by
  simp [innermost_path c k (p :: rest) outer frames]

omit closed in
theorem look_edge : p ∈ reads k :=
  (searched.looked ⟨k, p :: rest⟩ (by simp [frames])).1 p List.mem_cons_self

theorem searched_fresh (fresh : p ∈ c.fresh) :
    Searched reads cells ({ c with frames := ⟨k, rest⟩ :: outer }.enter reads p) := by
  have path := look_path c k p rest outer frames
  have edge := look_edge reads cells c searched k p rest outer frames
  have inside : p ∈ cells :=
    closed k (searched.home k (searched.onPile k (by simp [← path]))).1 p edge
  refine searched_enter reads cells c searched _ p fresh path inside ?_ ?_
  · rintro f head
    obtain rfl : k = f := by simpa [← path] using head
    exact edge
  · exact looked_on reads cells c searched k p rest outer frames (fun f q => q = p ∨ c.Seen f q)
      (fun _ _ before => .inr before) (.inl rfl)

omit closed in
theorem searched_piled (met : p ∉ c.fresh) (piled : p ∈ c.pile) :
    Searched reads cells ({ c with frames := ⟨k, rest⟩ :: outer }.lower k (c.indexOf p)) := by
  have path := look_path c k p rest outer frames
  have edge := look_edge reads cells c searched k p rest outer frames
  have lowered := searched_lower reads cells c searched k p (by simp [← path]) piled (.single edge)
  refine searched_frames reads cells _ lowered _ path ?_
  refine looked_on reads cells c searched k p rest outer frames (c.lower k (c.indexOf p)).Seen
    (fun f q before => ⟨before.1, fun pile => ?_⟩) ⟨met, fun _ => ?_⟩
  · have bound := before.2 pile
    rw [lower_low]
    split
    · rename_i here
      exact Nat.le_trans (Nat.min_le_left _ _) (here ▸ bound)
    · exact bound
  · rw [lower_low, if_pos rfl]
    exact Nat.min_le_right _ _

omit closed in
theorem searched_passed (met : p ∉ c.fresh) (off : p ∉ c.pile) :
    Searched reads cells { c with frames := ⟨k, rest⟩ :: outer } :=
  searched_frames reads cells c searched _ (look_path c k p rest outer frames)
    (looked_on reads cells c searched k p rest outer frames c.Seen (fun _ _ before => before)
      ⟨met, fun pile => absurd pile off⟩)

end Look

theorem searched_step (c after : Components) (step : c.next? reads = some after)
    (searched : Searched reads cells c) : Searched reads cells after := by
  unfold next? at step
  split at step
  · cases step
  · rename_i k p rest outer frames
    dsimp only at step
    split at step
    · rename_i fresh
      cases step
      exact searched_fresh reads cells closed c searched k p rest outer frames fresh
    · rename_i met
      split at step
      · rename_i piled
        cases step
        exact searched_piled reads cells c searched k p rest outer frames met
          ((searched.piled p).mp piled)
      · rename_i absent
        cases step
        exact searched_passed reads cells c searched k p rest outer frames met
          fun member => absent ((searched.piled p).mpr member)
  · rename_i k outer frames
    cases step
    exact searched_end reads cells closed c k outer frames searched

theorem searched_finish (c : Components) (searched : Searched reads cells c) :
    Searched reads cells (c.finish reads) ∧ (c.finish reads).frames = [] ∧
      ∀ k ∈ (c.finish reads).fresh, k ∈ c.fresh := by
  fun_induction finish reads c with
  | case1 c ended => exact ⟨searched, search_ended reads c ended, fun _ left => left⟩
  | case2 c after step ih =>
    obtain ⟨later, ended, met⟩ := ih (searched_step reads cells closed c after step searched)
    exact ⟨later, ended, fun k left => search_fresh reads c after step k (met k left)⟩

theorem searched_visit (c : Components) (k : Key) (inside : k ∈ cells)
    (searched : Searched reads cells c) (idle : c.frames = []) :
    Searched reads cells (c.visit reads k) ∧ (c.visit reads k).frames = [] ∧
      k ∉ (c.visit reads k).fresh ∧ ∀ p ∈ (c.visit reads k).fresh, p ∈ c.fresh := by
  unfold visit
  by_cases known : k ∈ c.index
  · rw [if_pos known]
    exact ⟨searched, idle, fun left => searched.unmet k left known, fun _ left => left⟩
  · rw [if_neg known]
    have fresh : k ∈ c.fresh := (searched.numbered k inside).resolve_right known
    have entered := searched_enter reads cells c searched c.frames k fresh rfl inside
      (by simp [path, idle]) (by simp [idle])
    obtain ⟨later, ended, met⟩ := searched_finish reads cells closed (c.enter reads k) entered
    have erased (p : Key) (left : p ∈ ((c.enter reads k).finish reads).fresh) :=
      (member_erase c.fresh k p).mp (met p left)
    exact ⟨later, ended, fun left => (erased k left).1 rfl, fun p left => (erased p left).2⟩

end Steps

end Components

theorem mem_looping_cells (reads : Key → List Key) (cells : List Key)
    (closed : ∀ k ∈ cells, ∀ p ∈ reads k, p ∈ cells) (k : Key) :
    k ∈ loopingCells reads cells ↔ k ∈ cells ∧ Looping reads k := by
  obtain ⟨⟨searched, idle⟩, left⟩ := visit_all (Components.visit reads) Components.fresh
    (fun c => Components.Searched reads cells c ∧ c.frames = []) cells
    (fun c k inside good => by
      obtain ⟨later, done, met⟩ :=
        Components.searched_visit reads cells closed c k inside good.1 good.2
      exact ⟨⟨later, done⟩, met⟩)
    (.begin cells) ⟨Components.searched_begin reads cells, rfl⟩
  -- With no visit under way nothing owns a cell of the pile, so the pile is empty.
  have cleared (p : Key) : p ∉ (cells.foldl (Components.visit reads) (.begin cells)).pile := by
    intro piled
    obtain ⟨f, owns⟩ := searched.owned p piled
    have under := owns.under
    simp [Components.path, idle] at under
  rw [loopingCells, searched.cyclic]
  constructor
  · rintro ⟨inside, _, _, looping⟩
    exact ⟨inside, looping⟩
  · rintro ⟨inside, looping⟩
    exact ⟨inside, fun fresh => left k fresh inside, cleared k, looping⟩

namespace Graph

theorem mem_cyclic_listed (g : Graph) (cells : KeySet)
    (next : Key → List Key) (lists : g.ListsReads cells next) (k : Key) :
    k ∈ loopingCells next cells.toList ↔ g.DependsWithin cells k k := by
  have closed := listed_inside g cells next lists
  rw [mem_looping_cells next cells.toList closed, Std.ExtTreeSet.mem_toList]
  constructor
  · exact fun ⟨inside, looping⟩ =>
      (depends_within_iff g cells next lists k k inside).mp looping
  · intro chain
    obtain ⟨_, first, _⟩ := Relation.TransGen.head'_iff.mp chain
    exact ⟨first.1, (depends_within_iff g cells next lists k k first.1).mpr chain⟩

theorem mem_cyclic_cells (g : Graph) (linked : g.Linked) (cells : KeySet) (k : Key) :
    k ∈ g.cyclicCells cells ↔ g.DependsWithin cells k k :=
  mem_cyclic_listed g cells _ (lists_reads_within g linked cells) k

theorem cyclic_cells_exact (edits : List Edit) (cells : KeySet) :
    let g := after edits
    (∀ k, k ∈ g.cyclicCells cells ↔ k ∈ cells ∧ g.DependsWithin cells k k) ∧
      ∀ next : Key → List Key, g.ListsReads cells next →
        loopingCells next cells.toList = g.cyclicCells cells := by
  intro g
  refine ⟨fun k => ?_, fun next lists => Std.ExtTreeSet.ext_mem fun k => ?_⟩
  · rw [mem_cyclic_cells g (after_linked edits) cells k, iff_and_self]
    intro chain
    obtain ⟨_, first, _⟩ := Relation.TransGen.head'_iff.mp chain
    exact first.1
  · rw [mem_cyclic_listed g cells next lists, mem_cyclic_cells g (after_linked edits)]

-- Two cycles that share a read, one through a range, and a cell that reads both.
theorem cyclic_cells_exact_of_two :
    let a : Key := ⟨⟨1⟩, ⟨1, 1⟩⟩
    let b : Key := ⟨⟨1⟩, ⟨2, 1⟩⟩
    let c : Key := ⟨⟨1⟩, ⟨3, 1⟩⟩
    let d : Key := ⟨⟨2⟩, ⟨1, 1⟩⟩
    let both : SheetRange := ⟨⟨1⟩, ⟨⟨2, 1⟩, ⟨3, 1⟩⟩⟩
    let g := after [.set a [both], .set b [.ofKey a], .set c [.ofKey b], .set d [.ofKey b, both]]
    let cells : KeySet := .ofList [a, b, c, d]
    let next (k : Key) : List Key := ((g.readsWithin cells)[k]?.getD []).reverse
    g.ListsReads cells next ∧ loopingCells next cells.toList = g.cyclicCells cells ∧
      c ∈ g.cyclicCells cells ∧ d ∉ g.cyclicCells cells := by
  intro a b c d both g cells next
  have linked : g.Linked := after_linked _
  have lists : g.ListsReads cells next := fun k inside p =>
    List.mem_reverse.trans (lists_reads_within g linked cells k inside p)
  obtain ⟨exact, visited⟩ := cyclic_cells_exact [.set a [both], .set b [.ofKey a],
    .set c [.ofKey b], .set d [.ofKey b, both]] cells
  have edges : ∀ e ∈ [(c, b), (b, a), (a, c)],
      e.1 ∈ cells ∧ e.2 ∈ cells ∧ g.reads e.1 e.2 = true := by decide +kernel
  have chain : g.DependsWithin cells c c :=
    .tail (.tail (.single (edges (c, b) (by simp))) (edges (b, a) (by simp)))
      (edges (a, c) (by simp))
  refine ⟨lists, visited next lists, (exact c).mpr ⟨by decide +kernel, chain⟩, fun member => ?_⟩
  obtain ⟨p, _, _, _, edge⟩ := Relation.TransGen.tail'_iff.mp ((exact d).mp member).2
  have unread : g.dependents d = [] := by decide +kernel
  have reader := (mem_dependents g linked d p).mpr edge
  simp [unread] at reader

end Graph

end Spreadsheet
