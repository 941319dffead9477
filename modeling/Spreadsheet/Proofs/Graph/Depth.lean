import Spreadsheet.Graph.Order
import Spreadsheet.Proofs.Graph.Chains

-- Depths rise along reads. A visit leaves every cell that it ends deeper than all that the cell
-- reads, unless the cell depends on itself: only a read that closes a cycle is passed over. No
-- cell lies deeper than one of its reads makes it. In the order by depth a cell therefore comes
-- after what it reads.

set_option autoImplicit false

namespace Spreadsheet

-- Visits to all the roots, each of which leaves a good state and its root not fresh.
theorem visit_all {State : Type} (visit : State → Key → State) (fresh : State → KeySet)
    (Good : State → Prop) (roots : List Key)
    (each : ∀ s, ∀ k ∈ roots, Good s →
      Good (visit s k) ∧ k ∉ fresh (visit s k) ∧ ∀ p ∈ fresh (visit s k), p ∈ fresh s)
    (s : State) (good : Good s) :
    Good (roots.foldl visit s) ∧ ∀ k ∈ fresh (roots.foldl visit s), k ∉ roots := by
  have shrinking : Good (roots.foldl visit s) ∧
      ∀ k ∈ fresh (roots.foldl visit s), k ∈ fresh s ∧ k ∉ roots := by
    induction roots generalizing s with
    | nil => exact ⟨good, fun k left => ⟨left, by simp⟩⟩
    | cons root rest ih =>
      obtain ⟨first, met, shrinks⟩ := each s root List.mem_cons_self good
      obtain ⟨later, left⟩ :=
        ih (fun s k member => each s k (List.mem_cons_of_mem root member)) (visit s root) first
      refine ⟨later, fun k still => ?_⟩
      obtain ⟨before, absent⟩ := left k still
      refine ⟨shrinks k before, fun member => ?_⟩
      rcases List.mem_cons.mp member with rfl | further
      · exact met before
      · exact absent further
  exact ⟨shrinking.1, fun k left => (shrinking.2 k left).2⟩

section Walks

variable (reads : Key → List Key)

def Looping (k : Key) : Prop := Relation.TransGen (fun a b => b ∈ reads a) k k

-- Every cell with a depth that is not on a cycle lies deeper than the cells that it reads.
def Ranked (depths : KeyMap Nat) : Prop :=
  ∀ k d, depths[k]? = some d → ¬Looping reads k → ∀ p ∈ reads k, ∃ e, depths[p]? = some e ∧ e < d

-- Every cell with a depth above zero lies just below a cell that it reads.
def Attained (depths : KeyMap Nat) : Prop :=
  ∀ k d, depths[k]? = some (d + 1) → ∃ p ∈ reads k, depths[p]? = some d

-- A visit inside of others, from which the visit of `inner?` was entered. What has been looked
-- at is that cell, a cell under visit further out, or shallower than the depth so far.
structure Looked (depths : KeyMap Nat) (inner? : Option Key) (v : Visit) (outer : List Visit) :
    Prop where
  listed : ∀ p ∈ v.rest, p ∈ reads v.cell
  entered : ∀ p, inner? = some p → p ∈ reads v.cell
  seen : ∀ p ∈ reads v.cell, p ∈ v.rest ∨ inner? = some p ∨ p ∈ (v :: outer).map Visit.cell ∨
    ∃ d, depths[p]? = some d ∧ d < v.depth
  attained : ∀ d, v.depth = d + 1 → ∃ p ∈ reads v.cell, depths[p]? = some d

def Nested (depths : KeyMap Nat) : Option Key → List Visit → Prop
  | _, [] => True
  | inner?, v :: outer => Looked reads depths inner? v outer ∧ Nested depths (some v.cell) outer

structure Sound (cells : List Key) (w : Walk) : Prop where
  nested : Nested reads w.depths none w.visits
  distinct : (w.visits.map Visit.cell).Nodup
  inside : ∀ k ∈ w.visits.map Visit.cell, k ∈ cells
  unended : ∀ k ∈ w.visits.map Visit.cell, w.depths[k]? = none ∧ k ∉ w.fresh
  unmet : ∀ k ∈ w.fresh, w.depths[k]? = none
  covered : ∀ k ∈ cells, k ∈ w.fresh ∨ k ∈ w.visits.map Visit.cell ∨ ∃ d, w.depths[k]? = some d
  ranked : Ranked reads w.depths
  attained : Attained reads w.depths

theorem nested_leads (depths : KeyMap Nat) (k : Key) (outer : List Visit)
    (nested : Nested reads depths (some k) outer) (p : Key) (around : p ∈ outer.map Visit.cell) :
    Relation.TransGen (fun a b => b ∈ reads a) p k := by
  induction outer generalizing k with
  | nil => simp at around
  | cons v outer ih =>
    have edge : k ∈ reads v.cell := nested.1.entered k rfl
    rcases List.mem_cons.mp around with rfl | further
    · exact .single edge
    · exact .tail (ih v.cell nested.2 further) edge

theorem nested_grows (before after : KeyMap Nat)
    (kept : ∀ (k : Key) (d : Nat), before[k]? = some d → after[k]? = some d) (inner? : Option Key)
    (visits : List Visit) (nested : Nested reads before inner? visits) :
    Nested reads after inner? visits := by
  induction visits generalizing inner? with
  | nil => trivial
  | cons v outer ih =>
    obtain ⟨looked, around⟩ := nested
    refine ⟨⟨looked.listed, looked.entered, fun p edge => ?_, fun d deep => ?_⟩,
      ih (some v.cell) around⟩
    · rcases looked.seen p edge with left | entered | closes | ⟨d, found, less⟩
      · exact .inl left
      · exact .inr (.inl entered)
      · exact .inr (.inr (.inl closes))
      · exact .inr (.inr (.inr ⟨d, kept p d found, less⟩))
    · obtain ⟨p, edge, found⟩ := looked.attained d deep
      exact ⟨p, edge, kept p d found⟩

-- The innermost visit goes on after a look at `p`.
theorem looked_on (depths : KeyMap Nat) (k p : Key) (rest : List Key) (depth deeper : Nat)
    (outer : List Visit) (inner? : Option Key)
    (looked : Looked reads depths none ⟨k, p :: rest, depth⟩ outer) (rises : depth ≤ deeper)
    (entered : ∀ q, inner? = some q → q = p)
    (seen : inner? = some p ∨ p ∈ k :: outer.map Visit.cell ∨
      ∃ d, depths[p]? = some d ∧ d < deeper)
    (attained : depth = deeper ∨ ∃ d, depths[p]? = some d ∧ deeper = d + 1) :
    Looked reads depths inner? ⟨k, rest, deeper⟩ outer := by
  have edge : p ∈ reads k := looked.listed p List.mem_cons_self
  refine ⟨fun q member => looked.listed q (List.mem_cons_of_mem p member),
    fun q same => entered q same ▸ edge, fun q read => ?_, fun d deep => ?_⟩
  · rcases looked.seen q read with left | none | closes | ⟨d, found, less⟩
    · rcases List.mem_cons.mp left with rfl | later
      · exact .inr seen
      · exact .inl later
    · cases none
    · exact .inr (.inr (.inl closes))
    · exact .inr (.inr (.inr ⟨d, found, Nat.lt_of_lt_of_le less rises⟩))
  · rcases attained with rfl | ⟨e, found, same⟩
    · exact looked.attained d deep
    · obtain rfl : e = d := Nat.succ.inj (same.symm.trans deep)
      exact ⟨p, edge, found⟩

theorem walk_ended (w : Walk) (ended : w.next? reads = none) : w.visits = [] := by
  unfold Walk.next? at ended
  split at ended
  · assumption
  · split at ended
    · cases ended
    · dsimp only at ended
      split at ended <;> cases ended
  · cases ended

theorem walk_fresh (w after : Walk) (step : w.next? reads = some after) (k : Key)
    (left : k ∈ after.fresh) : k ∈ w.fresh := by
  unfold Walk.next? at step
  split at step
  · cases step
  · split at step
    · cases step
      exact left
    · dsimp only at step
      split at step
      · cases step
        exact ((member_erase w.fresh _ k).mp left).2
      · cases step
        exact left
  · cases step
    exact left

theorem sound_begin (cells : List Key) : Sound reads cells (.begin cells) := by
  refine ⟨trivial, by simp [Walk.begin], by simp [Walk.begin], by simp [Walk.begin],
    by simp [Walk.begin], fun k member => .inl ?_, by simp [Ranked, Walk.begin],
    by simp [Attained, Walk.begin]⟩
  simpa [Walk.begin, Std.ExtTreeSet.mem_ofList] using member

section Steps

variable (cells : List Key) (closed : ∀ k ∈ cells, ∀ p ∈ reads k, p ∈ cells)

-- Enters the visit of a cell that the innermost visit has just met.
theorem sound_enter (w : Walk) (visits : List Visit) (p : Key) (sound : Sound reads cells w)
    (same : visits.map Visit.cell = w.visits.map Visit.cell)
    (nested : Nested reads w.depths (some p) visits) (inside : p ∈ cells) (fresh : p ∈ w.fresh) :
    Sound reads cells ({ w with visits }.enter reads p) := by
  have blank : w.depths[p]? = none := sound.unmet p fresh
  have apart : p ∉ visits.map Visit.cell := fun member =>
    (sound.unended p (same ▸ member)).2 fresh
  refine ⟨⟨⟨fun q member => member, by simp, fun q edge => .inl edge, by simp⟩, nested⟩,
    List.nodup_cons.mpr ⟨apart, same ▸ sound.distinct⟩, ?_, ?_, ?_, fun k member => ?_,
    sound.ranked, sound.attained⟩
  · rintro k (_ | ⟨_, member⟩)
    · exact inside
    · exact sound.inside k (same ▸ member)
  · rintro k (_ | ⟨_, member⟩)
    · exact ⟨blank, by simp [Walk.enter]⟩
    · obtain ⟨unended, met⟩ := sound.unended k (same ▸ member)
      exact ⟨unended, fun left => met ((member_erase w.fresh p k).mp left).2⟩
  · exact fun k left => sound.unmet k ((member_erase w.fresh p k).mp left).2
  · by_cases here : k = p
    · exact .inr (.inl (by simp [Walk.enter, here]))
    · rcases sound.covered k member with unmet | visited | ended
      · exact .inl ((member_erase w.fresh p k).mpr ⟨here, unmet⟩)
      · exact .inr (.inl (List.mem_cons_of_mem p (same ▸ visited)))
      · exact .inr (.inr ended)

section Leave

variable (depths : KeyMap Nat) (k : Key) (depth : Nat) (outer : List Visit)
  (blank : depths[k]? = none)
include blank

theorem insert_keeps (q : Key) (d : Nat) (found : depths[q]? = some d) :
    (depths.insert k depth)[q]? = some d := by
  have other : k ≠ q := by
    rintro rfl
    simp [blank] at found
  rw [lookup_insert, if_neg other, found]

-- The visit around the one that ends has now seen its cell.
theorem nested_leave (nested : Nested reads depths (some k) outer) :
    Nested reads (depths.insert k depth) none (Walk.deepen depth outer) := by
  have self : (depths.insert k depth)[k]? = some depth := by simp
  cases outer with
  | nil => trivial
  | cons v further =>
    obtain ⟨before, outside⟩ :=
      nested_grows reads depths _ (insert_keeps depths k depth blank) _ _ nested
    refine ⟨⟨before.listed, by simp, fun p edge => ?_, fun d deep => ?_⟩, outside⟩
    · rcases before.seen p edge with left | entered | closes | ⟨d, found, less⟩
      · exact .inl left
      · obtain rfl : k = p := Option.some.inj entered
        exact .inr (.inr (.inr ⟨depth, self, by simp only; omega⟩))
      · exact .inr (.inr (.inl closes))
      · exact .inr (.inr (.inr ⟨d, found, by simp only; omega⟩))
    · by_cases deepest : v.depth ≤ depth + 1
      · obtain rfl : depth = d := by simp only at deep; omega
        exact ⟨k, before.entered k rfl, self⟩
      · exact before.attained d (by simp only at deep; omega)

variable (looked : Looked reads depths none ⟨k, [], depth⟩ outer)
include looked

-- Only a read that closes a cycle may lie as deep as the cell.
theorem ranked_leave (nested : Nested reads depths (some k) outer) (ranked : Ranked reads depths) :
    Ranked reads (depths.insert k depth) := by
  intro q d found free p edge
  rw [lookup_insert] at found
  by_cases here : k = q
  · subst here
    obtain rfl : depth = d := by simpa using found
    rcases looked.seen p edge with left | none | closes | ⟨e, found, less⟩
    · cases left
    · cases none
    · rcases List.mem_cons.mp closes with rfl | outside
      · exact absurd (.single edge) free
      · exact absurd (.head edge (nested_leads reads depths k outer nested p outside)) free
    · exact ⟨e, insert_keeps depths k depth blank p e found, less⟩
  · obtain ⟨e, reached, less⟩ := ranked q d (by simpa [here] using found) free p edge
    exact ⟨e, insert_keeps depths k depth blank p e reached, less⟩

theorem attained_leave (attained : Attained reads depths) :
    Attained reads (depths.insert k depth) := by
  intro q d found
  rw [lookup_insert] at found
  by_cases here : k = q
  · subst here
    obtain ⟨p, edge, below⟩ := looked.attained d (by simpa using found)
    exact ⟨p, edge, insert_keeps depths k depth blank p d below⟩
  · obtain ⟨p, edge, below⟩ := attained q d (by simpa [here] using found)
    exact ⟨p, edge, insert_keeps depths k depth blank p d below⟩

end Leave

-- The depth of a cell whose visit ends is above those of its reads, and one of them makes it so.
theorem sound_leave (w : Walk) (k : Key) (depth : Nat) (outer : List Visit)
    (visits : w.visits = ⟨k, [], depth⟩ :: outer) (sound : Sound reads cells w) :
    Sound reads cells { w with
      visits := Walk.deepen depth outer, depths := w.depths.insert k depth } := by
  obtain ⟨list, fresh, depths⟩ := w
  cases visits
  obtain ⟨looked, around⟩ := sound.nested
  obtain ⟨apart, distinct⟩ := List.nodup_cons.mp sound.distinct
  obtain ⟨blank, met⟩ := sound.unended k List.mem_cons_self
  have cell : (Walk.deepen depth outer).map Visit.cell = outer.map Visit.cell := by
    cases outer <;> rfl
  have other (q : Key) (unlike : k ≠ q) : (depths.insert k depth)[q]? = depths[q]? := by
    rw [lookup_insert, if_neg unlike]
  refine {
    nested := nested_leave reads depths k depth outer blank around
    distinct := cell ▸ distinct
    inside := fun q member => sound.inside q (List.mem_cons_of_mem k (cell ▸ member))
    unended := fun q member => ?unended
    unmet := fun q left => ?unmet
    covered := fun q member => ?covered
    ranked := ranked_leave reads depths k depth outer blank looked around sound.ranked
    attained := attained_leave reads depths k depth outer blank looked sound.attained }
  case unended =>
    have unlike : k ≠ q := by
      rintro rfl
      exact apart (cell ▸ member)
    rw [other q unlike]
    exact sound.unended q (List.mem_cons_of_mem k (cell ▸ member))
  case unmet =>
    have unlike : k ≠ q := by
      rintro rfl
      exact met left
    rw [other q unlike]
    exact sound.unmet q left
  case covered =>
    by_cases here : k = q
    · exact .inr (.inr ⟨depth, by simp [here]⟩)
    · rw [other q here, cell]
      refine (sound.covered q member).imp_right (Or.imp_left fun visited => ?_)
      exact (List.mem_cons.mp visited).resolve_left (Ne.symm here)

-- A look that enters no visit changes the innermost visit only.
theorem sound_look (w : Walk) (v : Visit) (rest : List Key) (deeper : Nat) (outer : List Visit)
    (visits : w.visits = v :: outer) (sound : Sound reads cells w)
    (looked : Looked reads w.depths none ⟨v.cell, rest, deeper⟩ outer) :
    Sound reads cells { w with visits := ⟨v.cell, rest, deeper⟩ :: outer } := by
  obtain ⟨list, fresh, depths⟩ := w
  cases visits
  exact ⟨⟨looked, sound.nested.2⟩, sound.distinct, sound.inside, sound.unended, sound.unmet,
    sound.covered, sound.ranked, sound.attained⟩

include closed

theorem sound_step (w after : Walk) (step : w.next? reads = some after)
    (sound : Sound reads cells w) : Sound reads cells after := by
  unfold Walk.next? at step
  split at step
  · cases step
  · rename_i k p rest depth outer visits
    have looked : Looked reads w.depths none ⟨k, p :: rest, depth⟩ outer := by
      have nested := sound.nested
      rw [visits] at nested
      exact nested.1
    have home : k ∈ cells := sound.inside k (by simp [visits])
    have inside : p ∈ cells := closed k home p (looked.listed p List.mem_cons_self)
    split at step
    · rename_i d found
      cases step
      exact sound_look reads cells w _ rest _ outer visits sound
        (looked_on reads _ k p rest depth _ outer none looked (by omega) (by simp)
          (.inr (.inr ⟨d, found, by omega⟩)) (by grind))
    · rename_i blank
      dsimp only at step
      split at step
      · rename_i fresh
        cases step
        refine sound_enter reads cells w _ p sound (by simp [visits]) ⟨?_, ?_⟩ inside fresh
        · exact looked_on reads _ k p rest depth depth outer (some p) looked (Nat.le_refl _)
            (by simp) (.inl rfl) (.inl rfl)
        · have nested := sound.nested
          rw [visits] at nested
          exact nested.2
      · rename_i met
        cases step
        have closes : p ∈ k :: outer.map Visit.cell := by
          rcases sound.covered p inside with fresh | visited | ⟨d, found⟩
          · exact absurd fresh met
          · simpa [visits] using visited
          · simp [blank] at found
        exact sound_look reads cells w _ rest _ outer visits sound
          (looked_on reads _ k p rest depth depth outer none looked (Nat.le_refl _) (by simp)
            (.inr (.inl closes)) (.inl rfl))
  · rename_i k depth outer visits
    cases step
    exact sound_leave reads cells w k depth outer visits sound

theorem sound_finish (w : Walk) (sound : Sound reads cells w) :
    Sound reads cells (w.finish reads) ∧ (w.finish reads).visits = [] ∧
      ∀ k ∈ (w.finish reads).fresh, k ∈ w.fresh := by
  fun_induction Walk.finish reads w with
  | case1 w ended => exact ⟨sound, walk_ended reads w ended, fun _ left => left⟩
  | case2 w after step ih =>
    obtain ⟨later, ended, met⟩ := ih (sound_step reads cells closed w after step sound)
    exact ⟨later, ended, fun k left => walk_fresh reads w after step k (met k left)⟩

theorem sound_visit (w : Walk) (k : Key) (inside : k ∈ cells) (sound : Sound reads cells w)
    (idle : w.visits = []) :
    Sound reads cells (w.visit reads k) ∧ (w.visit reads k).visits = [] ∧
      k ∉ (w.visit reads k).fresh ∧ ∀ p ∈ (w.visit reads k).fresh, p ∈ w.fresh := by
  unfold Walk.visit
  by_cases known : k ∈ w.depths
  · rw [if_pos known]
    refine ⟨sound, idle, fun left => ?_, fun _ left => left⟩
    have absent := sound.unmet k left
    have present := Std.ExtTreeMap.mem_iff_isSome_getElem?.mp known
    simp [absent] at present
  · rw [if_neg known]
    have fresh : k ∈ w.fresh := by
      rcases sound.covered k inside with fresh | visited | ⟨d, found⟩
      · exact fresh
      · simp [idle] at visited
      · simp [found, Std.ExtTreeMap.mem_iff_isSome_getElem?] at known
    have entered := sound_enter reads cells w w.visits k sound rfl (idle ▸ trivial) inside fresh
    obtain ⟨later, ended, met⟩ := sound_finish reads cells closed (w.enter reads k) entered
    have erased (p : Key) (left : p ∈ ((w.enter reads k).finish reads).fresh) :=
      (member_erase w.fresh k p).mp (met p left)
    exact ⟨later, ended, fun left => (erased k left).1 rfl, fun p left => (erased p left).2⟩

theorem depths_sound :
    Ranked reads (depthsOf reads cells) ∧ Attained reads (depthsOf reads cells) ∧
      ∀ k ∈ cells, ∃ d, (depthsOf reads cells)[k]? = some d := by
  obtain ⟨⟨sound, idle⟩, left⟩ := visit_all (Walk.visit reads) Walk.fresh
    (fun w => Sound reads cells w ∧ w.visits = []) cells
    (fun w k inside good => by
      obtain ⟨later, done, met⟩ := sound_visit reads cells closed w k inside good.1 good.2
      exact ⟨⟨later, done⟩, met⟩)
    (.begin cells) ⟨sound_begin reads cells, rfl⟩
  refine ⟨sound.ranked, sound.attained, fun k member => ?_⟩
  rcases sound.covered k member with fresh | waiting | ended
  · exact absurd member (left k fresh)
  · simp [idle] at waiting
  · exact ended

end Steps

end Walks

section Layers

variable (depth : Key → Nat) (cells : List Key)

theorem foldl_max_le (ns : List Nat) (start : Nat) :
    start ≤ ns.foldl max start ∧ ∀ n ∈ ns, n ≤ ns.foldl max start := by
  induction ns generalizing start with
  | nil => simp
  | cons m rest ih =>
    obtain ⟨first, later⟩ := ih (max start m)
    rw [List.foldl_cons]
    refine ⟨by omega, ?_⟩
    rintro n (_ | ⟨_, member⟩)
    · omega
    · exact later n member

theorem layer_eq (d : Nat) :
    ((cells.map fun k => (k, depth k)).filterMap fun (k, n) => if n = d then some k else none) =
      cells.filter (depth · = d) := by
  induction cells with
  | nil => rfl
  | cons k rest ih =>
    by_cases here : depth k = d
    · simp [here, ← ih]
    · simp [here, ← ih]

theorem layers_eq :
    ∃ deepest, (∀ k ∈ cells, depth k ≤ deepest) ∧ layers (cells.map fun k => (k, depth k)) =
      (List.range (deepest + 1)).flatMap fun d => cells.filter (depth · = d) := by
  refine ⟨(cells.map depth).foldl max 0, fun k member => ?_, ?_⟩
  · exact (foldl_max_le (cells.map depth) 0).2 _ (List.mem_map_of_mem member)
  · simp only [layers, List.map_map, layer_eq]
    rfl

theorem mem_layers (k : Key) : k ∈ layers (cells.map fun k => (k, depth k)) ↔ k ∈ cells := by
  obtain ⟨deepest, bound, same⟩ := layers_eq depth cells
  simp only [same, List.mem_flatMap, List.mem_range, List.mem_filter, decide_eq_true_eq]
  constructor
  · rintro ⟨d, _, member, _⟩
    exact member
  · exact fun member => ⟨depth k, Nat.lt_succ_of_le (bound k member), member, rfl⟩

theorem nodup_layers (distinct : cells.Nodup) :
    (layers (cells.map fun k => (k, depth k))).Nodup := by
  obtain ⟨deepest, _, same⟩ := layers_eq depth cells
  rw [same, List.Nodup, List.pairwise_flatMap]
  refine ⟨fun d _ => List.Pairwise.filter _ distinct, ?_⟩
  refine List.pairwise_lt_range.imp fun {a b} less k inA p inB => ?_
  have first : depth k = a := by simpa using (List.mem_filter.mp inA).2
  have second : depth p = b := by simpa using (List.mem_filter.mp inB).2
  rintro rfl
  omega

-- Cells come by depth, and cells of one depth in the order in which they were given.
theorem layers_sorted (before : Key → Key → Prop) (sorted : cells.Pairwise before) :
    (layers (cells.map fun k => (k, depth k))).Pairwise fun a b =>
      depth a < depth b ∨ depth a = depth b ∧ before a b := by
  obtain ⟨deepest, _, same⟩ := layers_eq depth cells
  rw [same, List.pairwise_flatMap]
  have layer (d : Nat) (k : Key) (member : k ∈ cells.filter (depth · = d)) : depth k = d := by
    simpa using (List.mem_filter.mp member).2
  constructor
  · intro d _
    refine (sorted.filter _).imp_of_mem fun inA inB earlier => .inr ⟨?_, earlier⟩
    exact (layer d _ inA).trans (layer d _ inB).symm
  · refine List.pairwise_lt_range.imp fun {a b} less k inA p inB => .inl ?_
    rw [layer a k inA, layer b p inB]
    exact less

end Layers

namespace Graph

variable (g : Graph) (cells : KeySet)

theorem mem_order (k : Key) : k ∈ g.order cells ↔ k ∈ cells := by
  rw [order, byDepth]
  exact (mem_layers _ cells.toList k).trans Std.ExtTreeSet.mem_toList

theorem nodup_order : (g.order cells).Nodup := nodup_layers _ cells.toList (nodup_to_list cells)

section Listed

variable (next : Key → List Key) (lists : g.ListsReads cells next)
include lists

theorem listed_inside (k : Key) (inside : k ∈ cells.toList) (p : Key) (edge : p ∈ next k) :
    p ∈ cells.toList :=
  Std.ExtTreeSet.mem_toList.mpr ((lists k (Std.ExtTreeSet.mem_toList.mp inside) p).mp edge).1

-- No cell reads a later one or itself, unless it is on a cycle of the set.
theorem by_depth_reads : (byDepth next cells.toList).Pairwise fun a b =>
    g.DependsWithin cells a a ∨ g.reads a b = false := by
  obtain ⟨ranked, _, covered⟩ := depths_sound next cells.toList
    (listed_inside g cells next lists)
  have sorted := layers_sorted (fun k => (depthsOf next cells.toList)[k]?.getD 0) cells.toList
    (fun a b => a.place < b.place) (to_list_sorted cells)
  refine List.Pairwise.imp_of_mem (fun {a b} inA inB ordered => ?_) sorted
  have listedA : a ∈ cells.toList := (mem_layers _ cells.toList a).mp inA
  have listedB : b ∈ cells.toList := (mem_layers _ cells.toList b).mp inB
  have memA : a ∈ cells := Std.ExtTreeSet.mem_toList.mp listedA
  have memB : b ∈ cells := Std.ExtTreeSet.mem_toList.mp listedB
  by_cases looping : Looping next a
  · exact .inl ((depends_within_iff g cells next lists a a memA).mp looping)
  · refine .inr (Bool.eq_false_iff.mpr fun reads => ?_)
    obtain ⟨d, found⟩ := covered a listedA
    obtain ⟨e, other, less⟩ := ranked a d found looping b
      ((lists a memA b).mpr ⟨memB, reads⟩)
    simp only [found, other, Option.getD_some] at ordered
    omega

end Listed

end Graph

end Spreadsheet
