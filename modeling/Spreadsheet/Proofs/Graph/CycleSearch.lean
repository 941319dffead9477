import Mathlib.Data.List.Chain
import Spreadsheet.Proofs.Graph.Cyclic

-- The search for a cycle through one cell. The cells under visit are a chain of reads from the
-- cell, and what has been visited leads to nothing fresh and not back to the cell, so a search
-- that comes to its end without a cycle has met everything that the cell leads to.

set_option autoImplicit false

namespace Spreadsheet

-- A way round from `start`: each cell has an edge to the next one, and the last one to `start`.
structure Round (edge : Key → Key → Prop) (start : Key) (way : List Key) : Prop where
  first : way.head? = some start
  once : way.Nodup
  chained : way.IsChain edge
  last : ∀ k ∈ way.getLast?, edge k start

theorem round_edges (edge : Key → Key → Prop) (start : Key) (way : List Key)
    (chained : way.IsChain edge) (last : ∀ k ∈ way.getLast?, edge k start) (k : Key)
    (member : k ∈ way) : ∃ p, edge k p := by
  induction way with
  | nil => cases member
  | cons q rest ih =>
    cases rest with
    | nil =>
      obtain rfl : k = q := by simpa using member
      exact ⟨start, last k rfl⟩
    | cons p further =>
      obtain ⟨first, later⟩ := List.isChain_cons_cons.mp chained
      cases List.mem_cons.mp member with
      | inl here => exact ⟨p, here ▸ first⟩
      | inr beyond => exact ih later (by simpa using last) beyond

namespace Search

variable (reads : Key → List Key) (start : Key)

def Step (s after : Search) : Prop := s.next? reads start = some after

structure Searching (cells : KeySet) (s : Search) : Prop where
  chained : s.path.IsChain fun inner outer => inner ∈ reads outer
  rooted : ∀ inner k, s.path = inner ++ [k] → k = start
  distinct : s.path.Nodup
  met : ∀ k ∈ s.path, k ∉ s.fresh
  begun : start ∉ s.fresh
  looked : ∀ f ∈ s.frames, (∀ p ∈ f.rest, p ∈ reads f.cell) ∧
    ∀ p ∈ reads f.cell, p ∈ f.rest ∨ p ≠ start ∧ p ∉ s.fresh
  ended : ∀ k, k = start ∨ k ∈ cells → k ∉ s.fresh → k ∉ s.path →
    ∀ p ∈ reads k, p ≠ start ∧ p ∉ s.fresh

theorem searching_begin (cells : KeySet) :
    Searching reads start cells (begin reads cells start) := by
  have fresh (k : Key) : k ∈ (begin reads cells start).fresh ↔ k ≠ start ∧ k ∈ cells :=
    member_erase cells start k
  have path : (begin reads cells start).path = [start] := rfl
  constructor
  · simp [path]
  · intro inner k ends
    cases inner with
    | nil => simpa [path] using ends.symm
    | cons q further => simp [path] at ends
  · simp [path]
  · intro k under left
    exact ((fresh k).mp left).1 (by simpa [path] using under)
  · exact fun left => ((fresh start).mp left).1 rfl
  · intro f member
    obtain rfl : f = ⟨start, reads start⟩ := by simpa [begin, enter] using member
    exact ⟨fun _ read => read, fun _ read => .inl read⟩
  · intro k inside known off
    have apart : k ≠ start := by simpa [path] using off
    exact absurd ((fresh k).mpr ⟨apart, inside.resolve_left apart⟩) known

section Steps

variable (cells : KeySet) (s : Search) (searching : Searching reads start cells s)
include searching

theorem searching_leave (k : Key) (outer : List Frame) (frames : s.frames = ⟨k, []⟩ :: outer) :
    Searching reads start cells { s with frames := outer } := by
  have path : s.path = k :: outer.map Frame.cell := by simp [Search.path, frames]
  have chained := searching.chained
  have rooted := searching.rooted
  have distinct := searching.distinct
  rw [path] at chained rooted distinct
  constructor
  · exact (List.isChain_cons.mp chained).2
  · intro inner p ends
    exact rooted (k :: inner) p (congrArg (k :: ·) ends)
  · exact (List.nodup_cons.mp distinct).2
  · intro p under
    exact searching.met p (path ▸ List.mem_cons_of_mem k under)
  · exact searching.begun
  · intro f member
    exact searching.looked f (frames ▸ List.mem_cons_of_mem _ member)
  · intro p inside known off q read
    by_cases here : p = k
    · have seen := (searching.looked ⟨k, []⟩ (by simp [frames])).2 q (here ▸ read)
      simpa using seen
    · exact searching.ended p inside known (path ▸ List.not_mem_cons_of_ne_of_not_mem here off) q
        read

section Look

variable (k p : Key) (rest : List Key) (outer : List Frame)
  (frames : s.frames = ⟨k, p :: rest⟩ :: outer)
include frames

theorem look_read : p ∈ reads k :=
  (searching.looked ⟨k, p :: rest⟩ (by simp [frames])).1 p List.mem_cons_self

-- After the look, `p` is met and what was met before still is.
theorem looked_at (apart : p ≠ start) (fresh : KeySet) (known : p ∉ fresh)
    (less : ∀ q ∈ fresh, q ∈ s.fresh) (f : Frame) (member : f ∈ (⟨k, rest⟩ : Frame) :: outer) :
    (∀ q ∈ f.rest, q ∈ reads f.cell) ∧
      ∀ q ∈ reads f.cell, q ∈ f.rest ∨ q ≠ start ∧ q ∉ fresh := by
  have still (q : Key) (seen : q ≠ start ∧ q ∉ s.fresh) : q ≠ start ∧ q ∉ fresh :=
    ⟨seen.1, fun left => seen.2 (less q left)⟩
  cases List.mem_cons.mp member with
  | inl here =>
    subst here
    obtain ⟨listed, seen⟩ := searching.looked ⟨k, p :: rest⟩ (by simp [frames])
    refine ⟨fun q later => listed q (List.mem_cons_of_mem p later), fun q read => ?_⟩
    by_cases same : q = p
    · exact .inr (same ▸ ⟨apart, known⟩)
    · have before := seen q read
      rw [List.mem_cons] at before
      exact before.imp (fun waiting => waiting.resolve_left same) (still q)
  | inr further =>
    obtain ⟨listed, seen⟩ := searching.looked f (frames ▸ List.mem_cons_of_mem _ further)
    exact ⟨listed, fun q read => (seen q read).imp_right (still q)⟩

theorem searching_passed (apart : p ≠ start) (known : p ∉ s.fresh) :
    Searching reads start cells { s with frames := ⟨k, rest⟩ :: outer } := by
  have path : Search.path { s with frames := ⟨k, rest⟩ :: outer } = s.path := by
    simp [Search.path, frames]
  exact {
    chained := path ▸ searching.chained
    rooted := path ▸ searching.rooted
    distinct := path ▸ searching.distinct
    met := path ▸ searching.met
    begun := searching.begun
    looked := looked_at reads start cells s searching k p rest outer frames apart s.fresh known
      fun _ left => left
    ended := path ▸ searching.ended }

theorem searching_met (apart : p ≠ start) (fresh : p ∈ s.fresh) :
    Searching reads start cells
      ({ s with frames := ⟨k, rest⟩ :: outer }.enter reads p) := by
  have path : ({ s with frames := ⟨k, rest⟩ :: outer }.enter reads p).path = p :: s.path := by
    simp [Search.path, enter, frames]
  have first : s.path.head? = some k := by simp [Search.path, frames]
  have off : p ∉ s.path := fun under => searching.met p under fresh
  have left (q : Key) (member : q ∈ s.fresh.erase p) : q ∈ s.fresh :=
    ((member_erase s.fresh p q).mp member).2
  have gone : p ∉ s.fresh.erase p := fun member => ((member_erase s.fresh p p).mp member).1 rfl
  constructor
  · rw [path, List.isChain_cons, first]
    exact ⟨fun q here => Option.some.inj here ▸
      look_read reads start cells s searching k p rest outer frames, searching.chained⟩
  · intro inner q ends
    rw [path] at ends
    cases inner with
    | nil => simp [Search.path, frames] at ends
    | cons r further => exact searching.rooted further q (List.cons.inj ends).2
  · exact path ▸ List.nodup_cons.mpr ⟨off, searching.distinct⟩
  · intro q under member
    cases List.mem_cons.mp (path ▸ under) with
    | inl here => exact gone (here ▸ member)
    | inr before => exact searching.met q before (left q member)
  · exact fun member => searching.begun (left start member)
  · intro f member
    cases List.mem_cons.mp member with
    | inl here =>
      subst here
      exact ⟨fun _ read => read, fun _ read => .inl read⟩
    | inr before =>
      exact looked_at reads start cells s searching k p rest outer frames apart _ gone left f before
  · intro q inside known absent r read
    have outside : q ≠ p ∧ q ∉ s.path := by simpa [path] using absent
    have earlier : q ∉ s.fresh := fun member =>
      known ((member_erase s.fresh p q).mpr ⟨outside.1, member⟩)
    obtain ⟨other, seen⟩ := searching.ended q inside earlier outside.2 r read
    exact ⟨other, fun member => seen (left r member)⟩

end Look

theorem searching_step (after : Search) (step : s.Step reads start after) :
    Searching reads start cells after := by
  unfold Step next? at step
  split at step
  · cases step
  · rename_i k p rest outer frames
    dsimp only at step
    split at step
    · cases step
    · rename_i apart
      split at step
      · rename_i fresh
        cases step
        exact searching_met reads start cells s searching k p rest outer frames apart fresh
      · rename_i known
        cases step
        exact searching_passed reads start cells s searching k p rest outer frames apart known
  · rename_i k outer frames
    cases step
    exact searching_leave reads start cells s searching k outer frames

end Steps

-- Where no step is left, the innermost visit reads `start` or every visit has ended.
theorem search_stopped (s : Search) (stopped : s.next? reads start = none) :
    (∃ k rest outer, s.frames = ⟨k, start :: rest⟩ :: outer) ∨ s.frames = [] := by
  unfold next? at stopped
  split at stopped
  · exact .inr ‹_›
  · rename_i k p rest outer frames
    dsimp only at stopped
    split at stopped
    · rename_i here
      exact .inl ⟨k, rest, outer, here ▸ frames⟩
    · split at stopped <;> cases stopped
  · cases stopped

theorem finish_steps (s : Search) :
    Relation.ReflTransGen (Step reads start) s (s.finish reads start) ∧
      (s.finish reads start).next? reads start = none := by
  fun_induction finish reads start s with
  | case1 s stopped => exact ⟨.refl, stopped⟩
  | case2 s after step ih => exact ⟨.head step ih.1, ih.2⟩

theorem searching_steps (cells : KeySet) (s after : Search)
    (searching : Searching reads start cells s)
    (steps : Relation.ReflTransGen (Step reads start) s after) :
    Searching reads start cells after := by
  induction steps with
  | refl => exact searching
  | tail _ step ih => exact searching_step reads start cells _ ih _ step

theorem round_loops (way : List Key) (round : Round (fun k p => p ∈ reads k) start way) :
    Looping reads start := by
  cases way with
  | nil => cases round.first
  | cons k rest =>
    obtain rfl : k = start := by simpa using round.first
    have leads := List.relationReflTransGen_of_exists_isChain_cons rest round.chained rfl
    exact .tail' leads (round.last _ (by simp [List.getLast?_eq_some_getLast]))

section Ends

variable (cells : KeySet) (s : Search) (searching : Searching reads start cells s)
include searching

theorem searching_closed (k : Key) (rest : List Key) (outer : List Frame)
    (frames : s.frames = ⟨k, start :: rest⟩ :: outer) :
    s.way? start = some s.path.reverse ∧ Round (fun k p => p ∈ reads k) start s.path.reverse := by
  have path : s.path = k :: outer.map Frame.cell := by simp [Search.path, frames]
  have read := look_read reads start cells s searching k start rest outer frames
  refine ⟨by simp [way?, frames], ?_, List.nodup_reverse.mpr searching.distinct,
    List.isChain_reverse.mpr searching.chained, fun p last => ?_⟩
  · have nonempty : s.path ≠ [] := by simp [path]
    rw [List.head?_reverse, List.getLast?_eq_some_getLast nonempty]
    exact congrArg some (searching.rooted _ _ (List.dropLast_concat_getLast nonempty).symm)
  · obtain rfl : k = p := by simpa [path] using last
    exact read

theorem searching_ended (closed : ∀ k, ∀ p ∈ reads k, p ∈ cells) (idle : s.frames = []) :
    s.way? start = none ∧ ¬Looping reads start := by
  have off (k : Key) : k ∉ s.path := by simp [path, idle]
  have met (k : Key) (leads : Components.Leads reads start k) :
      (k = start ∨ k ∈ cells) ∧ k ∉ s.fresh := by
    induction leads with
    | refl => exact ⟨.inl rfl, searching.begun⟩
    | tail _ edge ih =>
      exact ⟨.inr (closed _ _ edge), (searching.ended _ ih.1 ih.2 (off _) _ edge).2⟩
  refine ⟨by simp [way?, idle], fun looping => ?_⟩
  obtain ⟨k, leads, edge⟩ := Relation.TransGen.tail'_iff.mp looping
  obtain ⟨inside, known⟩ := met k leads
  exact (searching.ended k inside known (off k) start edge).1 rfl

end Ends

theorem finish_begin (cells : KeySet) (closed : ∀ k, ∀ p ∈ reads k, p ∈ cells) :
    let ended := (begin reads cells start).finish reads start
    ((ended.way? start).isSome = true ↔ Looping reads start) ∧
      ∀ way, ended.way? start = some way → Round (fun k p => p ∈ reads k) start way := by
  intro ended
  obtain ⟨steps, stopped⟩ := finish_steps reads start (begin reads cells start)
  have searching := searching_steps reads start cells _ ended
    (searching_begin reads start cells) steps
  cases search_stopped reads start ended stopped with
  | inl closes =>
    obtain ⟨k, rest, outer, frames⟩ := closes
    obtain ⟨found, round⟩ := searching_closed reads start cells ended searching k rest outer frames
    have looping := round_loops reads start _ round
    rw [found]
    simpa using ⟨looping, round⟩
  | inr idle =>
    obtain ⟨found, free⟩ := searching_ended reads start cells ended searching closed idle
    rw [found]
    simpa using free

end Search

namespace Graph

theorem mem_formulas_read (g : Graph) (linked : g.Linked) (k p : Key) :
    p ∈ g.formulasRead k ↔ g.isFormula p = true ∧ g.reads k p = true := by
  simp only [formulasRead, formulasBetween, List.mem_flatMap, List.mem_filter,
    mem_formulas_on_sheet g linked, reads_iff]
  constructor
  · rintro ⟨r, held, ⟨⟨_, formula⟩, _⟩, inside⟩
    exact ⟨formula, r, held, inside⟩
  · rintro ⟨formula, r, held, inside⟩
    have within : p.sheet = r.sheet ∧ r.range.contains p.addr = true := by
      simpa [SheetRange.contains] using inside
    have between := compare_of_contains r.range p.addr within.2
    exact ⟨r, held, ⟨⟨within.1, formula⟩, by simp [between]⟩, inside⟩

theorem lists_formulas_read (g : Graph) (linked : g.Linked) :
    g.ListsReads g.formulaSet g.formulasRead := fun k _ p => by
  rw [mem_formulas_read g linked, mem_formula_set]

theorem find_cycle_exact (edits : List Edit) (start : Key) :
    let g := after edits
    let begun := Search.begin g.formulasRead g.formulaSet start
    (∃ ended, Relation.ReflTransGen (Search.Step g.formulasRead start) begun ended ∧
      ended.next? g.formulasRead start = none ∧ g.findCycle? start = ended.way? start) ∧
    ((g.findCycle? start).isSome = true ↔ start ∈ g.cyclicCells g.formulaSet) ∧
    ∀ way, g.findCycle? start = some way →
      Round (fun k p => g.reads k p = true) start way ∧ ∀ k ∈ way, g.isFormula k = true := by
  intro g begun
  have linked : g.Linked := after_linked edits
  have mem := mem_formulas_read g linked
  obtain ⟨steps, stopped⟩ := Search.finish_steps g.formulasRead start begun
  obtain ⟨found, rounds⟩ := Search.finish_begin g.formulasRead start g.formulaSet
    fun k p read => (mem_formula_set g p).mpr ((mem k p).mp read).1
  refine ⟨⟨_, steps, stopped, rfl⟩, found.trans ?_, fun way returned => ?_⟩
  · rw [mem_cyclic_cells g linked]
    have within := depends_within_iff g g.formulaSet _ (lists_formulas_read g linked) start start
    constructor
    · intro looping
      obtain ⟨p, read, _⟩ := Relation.TransGen.head'_iff.mp looping
      have formula := formula_of_reads g start p ((mem start p).mp read).2
      exact (within ((mem_formula_set g start).mpr formula)).mp looping
    · intro chain
      obtain ⟨_, edge, _⟩ := Relation.TransGen.head'_iff.mp chain
      exact (within edge.1).mpr chain
  · obtain ⟨first, once, chained, last⟩ := rounds way returned
    have read (k p : Key) (edge : p ∈ g.formulasRead k) : g.reads k p = true := ((mem k p).mp edge).2
    refine ⟨⟨first, once, chained.imp read, fun k ends => read k start (last k ends)⟩,
      fun k member => ?_⟩
    obtain ⟨p, edge⟩ := round_edges _ start way chained last k member
    exact formula_of_reads g k p (read k p edge)

-- A cycle through a range that is found after a way that ends elsewhere.
theorem find_cycle_exact_of_branch :
    let a : Key := ⟨⟨1⟩, ⟨1, 1⟩⟩
    let b : Key := ⟨⟨1⟩, ⟨2, 1⟩⟩
    let c : Key := ⟨⟨1⟩, ⟨3, 1⟩⟩
    let g := after [.set a [⟨⟨1⟩, ⟨⟨2, 1⟩, ⟨3, 2⟩⟩⟩], .set b [], .set c [.ofKey b, .ofKey a]]
    g.findCycle? a = some [a, c] ∧ a ∈ g.cyclicCells g.formulaSet ∧
      Round (fun k p => g.reads k p = true) a [a, c] := by
  intro a b c g
  have way : g.findCycle? a = some [a, c] := by cbv
  obtain ⟨_, found, rounds⟩ := find_cycle_exact
    [.set a [⟨⟨1⟩, ⟨⟨2, 1⟩, ⟨3, 2⟩⟩⟩], .set b [], .set c [.ofKey b, .ofKey a]] a
  exact ⟨way, found.mp (by rw [way]; rfl), (rounds _ way).1⟩

end Graph

end Spreadsheet
