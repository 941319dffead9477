import Mathlib.Data.List.Chain
import Spreadsheet.Graph.Component
import Spreadsheet.Proofs.Graph.Depth

-- The search for components under way. Every cell of the pile is owned by a visit that leads to
-- it, and leads itself to a cell of the pile with its least number; what has been completed leads
-- to completed cells only. Meeting a cell and looking at a read keep this.

set_option autoImplicit false

namespace Spreadsheet

namespace Components

variable (reads : Key → List Key)

abbrev Leads : Key → Key → Prop := Relation.ReflTransGen fun a b => b ∈ reads a

def path (c : Components) : List Key := c.frames.map Frame.cell

-- A read that has been looked at: a cell of the pile bounds the least number of its reader.
def Seen (c : Components) (k p : Key) : Prop :=
  p ∉ c.fresh ∧ (p ∈ c.pile → c.lowOf k ≤ c.indexOf p)

-- The visit of `f` is the innermost one that was begun before `k` was met.
structure Owns (c : Components) (f k : Key) : Prop where
  under : f ∈ c.path
  before : c.indexOf f ≤ c.indexOf k
  innermost : ∀ g ∈ c.path, c.indexOf g ≤ c.indexOf k → c.indexOf g ≤ c.indexOf f
  low : c.lowOf f ≤ c.lowOf k
  leads : Leads reads f k

structure Searched (cells : List Key) (c : Components) : Prop where
  numbered : ∀ k ∈ cells, k ∈ c.fresh ∨ k ∈ c.index
  unmet : ∀ k ∈ c.fresh, k ∉ c.index
  piled : ∀ k, k ∈ c.piled ↔ k ∈ c.pile
  home : ∀ k ∈ c.pile, k ∈ cells ∧ k ∉ c.fresh ∧ c.indexOf k < c.index.size
  descending : c.pile.Pairwise fun a b => c.indexOf b < c.indexOf a
  onPile : ∀ k ∈ c.path, k ∈ c.pile
  nested : c.path.Pairwise fun inner outer => c.indexOf outer < c.indexOf inner
  chained : c.path.IsChain fun inner outer => inner ∈ reads outer
  looked : ∀ f ∈ c.frames, (∀ p ∈ f.rest, p ∈ reads f.cell) ∧
    ∀ p ∈ reads f.cell, p ∈ f.rest ∨ c.Seen f.cell p
  ended : ∀ k ∈ c.pile, k ∉ c.path →
    c.lowOf k < c.indexOf k ∧ ∀ p ∈ reads k, c.Seen k p
  lowest : ∀ k ∈ c.pile, c.lowOf k ≤ c.indexOf k ∧
    ∃ p ∈ c.pile, c.indexOf p = c.lowOf k ∧ Leads reads k p
  owned : ∀ k ∈ c.pile, ∃ f, Owns reads c f k
  completed : ∀ k ∈ cells, k ∉ c.fresh → k ∉ c.pile →
    ∀ p ∈ reads k, p ∉ c.fresh ∧ p ∉ c.pile
  cyclic : ∀ k, k ∈ c.cyclic ↔ k ∈ cells ∧ k ∉ c.fresh ∧ k ∉ c.pile ∧ Looping reads k

theorem enter_index (c : Components) (p k : Key) :
    (c.enter reads p).indexOf k = if p = k then c.index.size else c.indexOf k := by
  simp only [indexOf, enter, lookup_insert]
  split <;> rfl

theorem enter_low (c : Components) (p k : Key) :
    (c.enter reads p).lowOf k = if p = k then c.index.size else c.lowOf k := by
  simp only [lowOf, enter, lookup_insert]
  split <;> rfl

theorem lower_low (c : Components) (f k : Key) (n : Nat) :
    (c.lower f n).lowOf k = if f = k then min (c.lowOf f) n else c.lowOf k := by
  simp only [lower, lowOf, lookup_insert]
  split <;> rfl

theorem innermost_path (c : Components) (k : Key) (rest : List Key) (outer : List Frame)
    (frames : c.frames = ⟨k, rest⟩ :: outer) : c.path = k :: outer.map Frame.cell := by
  rw [path, frames, List.map_cons]

theorem leave_outermost (c : Components) (k : Key) :
    c.leave reads k [] = if c.lowOf k = c.indexOf k then ({ c with frames := [] }).complete reads k
      else { c with frames := [] } := rfl

theorem leave_within (c : Components) (k : Key) (around : Frame) (further : List Frame) :
    c.leave reads k (around :: further) =
      if c.lowOf k = c.indexOf k
      then ({ c.lower around.cell (c.lowOf k) with frames := around :: further }).complete reads k
      else { c.lower around.cell (c.lowOf k) with frames := around :: further } := rfl

theorem take_down_to_append (k : Key) (pile : List Key) :
    (takeDownTo k pile).1 ++ (takeDownTo k pile).2 = pile := by
  induction pile with
  | nil => rfl
  | cons p rest ih =>
    by_cases here : p = k
    · simp [takeDownTo, here]
    · simpa [takeDownTo, here] using ih

theorem take_down_to_last (k : Key) (pile : List Key) (member : k ∈ pile) :
    ∃ above, (takeDownTo k pile).1 = above ++ [k] := by
  induction pile with
  | nil => simp at member
  | cons p rest ih =>
    by_cases here : p = k
    · exact ⟨[], by simp [takeDownTo, here]⟩
    · have later : k ∈ rest := by simpa [Ne.symm here] using member
      obtain ⟨above, taken⟩ := ih later
      exact ⟨p :: above, by simp [takeDownTo, here, taken]⟩

theorem searched_begin (cells : List Key) : Searched reads cells (.begin cells) := by
  have all (k : Key) (member : k ∈ cells) : k ∈ (begin cells).fresh := by
    simpa [begin, Std.ExtTreeSet.mem_ofList] using member
  refine ⟨fun k member => .inl (all k member), ?_, ?_, ?_, ?_, ?_, ?_, ?_, ?_, ?_, ?_, ?_,
    fun k member met => absurd (all k member) met, fun k => ?_⟩
  · simp [begin]
  · simp [begin]
  · simp [begin]
  · simp [begin]
  · simp [begin, path]
  · simp [begin, path]
  · simp [begin, path]
  · simp [begin]
  · simp [begin]
  · simp [begin]
  · simp [begin]
  · constructor
    · simp [begin]
    · exact fun ⟨member, met, _⟩ => absurd (all k member) met

section Search

variable (cells : List Key) (c : Components) (searched : Searched reads cells c)
include searched

theorem pile_unique (a b : Key) (first : a ∈ c.pile) (second : b ∈ c.pile)
    (same : c.indexOf a = c.indexOf b) : a = b := by
  have symmetric : Std.Symm fun a b => c.indexOf a ≠ c.indexOf b := ⟨fun _ _ => Ne.symm⟩
  have apart : c.pile.Pairwise fun a b => c.indexOf a ≠ c.indexOf b :=
    searched.descending.imp fun less => Nat.ne_of_gt less
  exact Classical.byContradiction fun distinct => apart.forall first second distinct same

-- A cell under visit owns itself.
theorem owner_of_path (f k : Key) (under : k ∈ c.path) (owns : Owns reads c f k) : f = k := by
  refine pile_unique reads cells c searched f k (searched.onPile f owns.under)
    (searched.onPile k under) (Nat.le_antisymm owns.before ?_)
  exact owns.innermost k under (Nat.le_refl _)

theorem searched_lower (f p : Key) (under : f ∈ c.path) (member : p ∈ c.pile)
    (leads : Leads reads f p) : Searched reads cells (c.lower f (c.indexOf p)) := by
  have falls (k : Key) : (c.lower f (c.indexOf p)).lowOf k ≤ c.lowOf k := by
    rw [lower_low]
    split
    · rename_i same
      exact same ▸ Nat.min_le_left _ _
    · exact Nat.le_refl _
  have seen (k q : Key) (before : c.Seen k q) : (c.lower f (c.indexOf p)).Seen k q :=
    ⟨before.1, fun pile => Nat.le_trans (falls k) (before.2 pile)⟩
  refine { searched with
    looked := fun g visited => ?looked
    ended := fun k piled done => ?ended
    lowest := fun k piled => ?lowest
    owned := fun k piled => ?owned }
  case looked =>
    obtain ⟨listed, looked⟩ := searched.looked g visited
    exact ⟨listed, fun q edge => (looked q edge).imp_right (seen g.cell q)⟩
  case ended =>
    obtain ⟨below, all⟩ := searched.ended k piled done
    exact ⟨Nat.lt_of_le_of_lt (falls k) below, fun q edge => seen k q (all q edge)⟩
  case lowest =>
    obtain ⟨below, q, pile, least, chain⟩ := searched.lowest k piled
    refine ⟨Nat.le_trans (falls k) below, ?_⟩
    rw [lower_low]
    by_cases here : f = k
    · subst here
      rw [if_pos rfl]
      rcases Nat.le_total (c.lowOf f) (c.indexOf p) with left | right
      · exact ⟨q, pile, by rw [Nat.min_eq_left left]; exact least, chain⟩
      · exact ⟨p, member, by rw [Nat.min_eq_right right]; rfl, leads⟩
    · rw [if_neg here]
      exact ⟨q, pile, least, chain⟩
  case owned =>
    obtain ⟨g, owns⟩ := searched.owned k piled
    refine ⟨g, owns.under, owns.before, owns.innermost, ?_, owns.leads⟩
    by_cases here : f = k
    · subst here
      rw [owner_of_path reads cells c searched g f under owns]
    · rw [lower_low c f k, if_neg here]
      exact Nat.le_trans (falls g) owns.low

-- A look that enters no visit changes the reads still to look at only.
theorem searched_frames (frames : List Frame) (same : frames.map Frame.cell = c.path)
    (looked : ∀ f ∈ frames, (∀ p ∈ f.rest, p ∈ reads f.cell) ∧
      ∀ p ∈ reads f.cell, p ∈ f.rest ∨ c.Seen f.cell p) :
    Searched reads cells { c with frames } := by
  have path : ({ c with frames } : Components).path = c.path := same
  exact { searched with
    onPile := path ▸ searched.onPile
    nested := path ▸ searched.nested
    chained := path ▸ searched.chained
    looked
    ended := fun k member done => searched.ended k member (path ▸ done)
    owned := fun k member => by
      obtain ⟨f, owns⟩ := searched.owned k member
      exact ⟨f, path ▸ owns.under, owns.before, path ▸ owns.innermost, owns.low, owns.leads⟩ }

section Meeting

variable (frames : List Frame) (p : Key)

-- The search after the innermost visit has met `p` and begun to visit it.
def meeting (c : Components) : Components := { c with frames }.enter reads p

omit searched in
theorem meeting_fresh (k : Key) :
    k ∈ (meeting reads frames p c).fresh ↔ k ≠ p ∧ k ∈ c.fresh := member_erase c.fresh p k

omit searched in
theorem meeting_pile (k : Key) :
    k ∈ (meeting reads frames p c).pile ↔ k = p ∨ k ∈ c.pile := List.mem_cons

omit searched in
theorem meeting_path (same : frames.map Frame.cell = c.path) :
    (meeting reads frames p c).path = p :: c.path := congrArg (p :: ·) same

omit searched in
theorem meeting_self : (meeting reads frames p c).indexOf p = c.index.size ∧
    (meeting reads frames p c).lowOf p = c.index.size := by
  rw [meeting, enter_index, enter_low, if_pos rfl, if_pos rfl]
  exact ⟨rfl, rfl⟩

variable (fresh : p ∈ c.fresh)
include fresh

theorem meeting_kept (k : Key) (member : k ∈ c.pile) :
    (meeting reads frames p c).indexOf k = c.indexOf k ∧
      (meeting reads frames p c).lowOf k = c.lowOf k := by
  have other : p ≠ k := by
    rintro rfl
    exact (searched.home p member).2.1 fresh
  rw [meeting, enter_index, enter_low, if_neg other, if_neg other]
  exact ⟨rfl, rfl⟩

theorem meeting_size : (meeting reads frames p c).index.size = c.index.size + 1 := by
  change (c.index.insert p c.index.size).size = _
  rw [Std.ExtTreeMap.size_insert, if_neg]
  exact fun known => searched.unmet p fresh (Std.ExtTreeMap.mem_iff_contains.mpr known)

-- The cell that is met has the greatest number.
theorem meeting_above (k : Key) (member : k ∈ c.pile) :
    (meeting reads frames p c).indexOf k < (meeting reads frames p c).indexOf p := by
  rw [(meeting_kept reads cells c searched frames p fresh k member).1,
    (meeting_self reads c frames p).1]
  exact (searched.home k member).2.2

theorem meeting_less (a b : Key) (first : a ∈ c.pile) (second : b ∈ c.pile) :
    (meeting reads frames p c).indexOf b < (meeting reads frames p c).indexOf a ↔
      c.indexOf b < c.indexOf a := by
  rw [(meeting_kept reads cells c searched frames p fresh a first).1,
    (meeting_kept reads cells c searched frames p fresh b second).1]

theorem meeting_seen (k q : Key) (member : k ∈ c.pile) (seen : c.Seen k q) :
    (meeting reads frames p c).Seen k q := by
  have apart : q ≠ p := by
    rintro rfl
    exact seen.1 fresh
  refine ⟨fun still => seen.1 ((meeting_fresh reads c frames p q).mp still).2, fun piled => ?_⟩
  have earlier := ((meeting_pile reads c frames p q).mp piled).resolve_left apart
  rw [(meeting_kept reads cells c searched frames p fresh k member).2,
    (meeting_kept reads cells c searched frames p fresh q earlier).1]
  exact seen.2 earlier

theorem meeting_sees (k : Key) (member : k ∈ c.pile) : (meeting reads frames p c).Seen k p := by
  refine ⟨fun still => ((meeting_fresh reads c frames p p).mp still).1 rfl, fun _ => ?_⟩
  have below := (searched.lowest k member).1
  have bound := (searched.home k member).2.2
  rw [(meeting_kept reads cells c searched frames p fresh k member).2,
    (meeting_self reads c frames p).1]
  omega

theorem meeting_home (inside : p ∈ cells) (k : Key) (member : k ∈ (meeting reads frames p c).pile) :
    k ∈ cells ∧ k ∉ (meeting reads frames p c).fresh ∧
      (meeting reads frames p c).indexOf k < (meeting reads frames p c).index.size := by
  rw [meeting_size reads cells c searched frames p fresh, meeting_fresh]
  rcases (meeting_pile reads c frames p k).mp member with rfl | earlier
  · exact ⟨inside, fun still => still.1 rfl, by rw [(meeting_self reads c frames k).1]; omega⟩
  · obtain ⟨home, met, bound⟩ := searched.home k earlier
    rw [(meeting_kept reads cells c searched frames p fresh k earlier).1]
    exact ⟨home, fun still => met still.2, by omega⟩

theorem meeting_looked (same : frames.map Frame.cell = c.path)
    (looked : ∀ f ∈ frames, (∀ q ∈ f.rest, q ∈ reads f.cell) ∧
      ∀ q ∈ reads f.cell, q ∈ f.rest ∨ q = p ∨ c.Seen f.cell q)
    (f : Frame) (member : f ∈ (meeting reads frames p c).frames) :
    (∀ q ∈ f.rest, q ∈ reads f.cell) ∧
      ∀ q ∈ reads f.cell, q ∈ f.rest ∨ (meeting reads frames p c).Seen f.cell q := by
  rcases List.mem_cons.mp member with rfl | outer
  · exact ⟨fun q read => read, fun q read => .inl read⟩
  · have piled := searched.onPile f.cell (same ▸ List.mem_map_of_mem outer)
    obtain ⟨listed, all⟩ := looked f outer
    refine ⟨listed, fun q read => (all q read).imp_right ?_⟩
    rintro (rfl | before)
    · exact meeting_sees reads cells c searched frames q fresh f.cell piled
    · exact meeting_seen reads cells c searched frames p fresh f.cell q piled before

theorem meeting_ended (same : frames.map Frame.cell = c.path) (k : Key)
    (member : k ∈ (meeting reads frames p c).pile) (done : k ∉ (meeting reads frames p c).path) :
    (meeting reads frames p c).lowOf k < (meeting reads frames p c).indexOf k ∧
      ∀ q ∈ reads k, (meeting reads frames p c).Seen k q := by
  rw [meeting_path reads c frames p same, List.mem_cons, not_or] at done
  have earlier := ((meeting_pile reads c frames p k).mp member).resolve_left done.1
  obtain ⟨below, all⟩ := searched.ended k earlier done.2
  obtain ⟨index, low⟩ := meeting_kept reads cells c searched frames p fresh k earlier
  rw [index, low]
  exact ⟨below, fun q read =>
    meeting_seen reads cells c searched frames p fresh k q earlier (all q read)⟩

theorem meeting_lowest (k : Key) (member : k ∈ (meeting reads frames p c).pile) :
    (meeting reads frames p c).lowOf k ≤ (meeting reads frames p c).indexOf k ∧
      ∃ q ∈ (meeting reads frames p c).pile,
        (meeting reads frames p c).indexOf q = (meeting reads frames p c).lowOf k ∧
          Leads reads k q := by
  rcases (meeting_pile reads c frames p k).mp member with rfl | earlier
  · obtain ⟨index, low⟩ := meeting_self reads c frames k
    rw [index, low]
    exact ⟨Nat.le_refl _, k, member, index, .refl⟩
  · obtain ⟨below, q, piled, least, chain⟩ := searched.lowest k earlier
    obtain ⟨index, low⟩ := meeting_kept reads cells c searched frames p fresh k earlier
    rw [index, low]
    refine ⟨below, q, (meeting_pile reads c frames p q).mpr (.inr piled), ?_, chain⟩
    rw [(meeting_kept reads cells c searched frames p fresh q piled).1, least]

theorem meeting_owned (same : frames.map Frame.cell = c.path) (k : Key)
    (member : k ∈ (meeting reads frames p c).pile) :
    ∃ f, Owns reads (meeting reads frames p c) f k := by
  have path := meeting_path reads c frames p same
  rcases (meeting_pile reads c frames p k).mp member with rfl | earlier
  · exact ⟨k, by simp [path], Nat.le_refl _, fun g _ less => less, Nat.le_refl _, .refl⟩
  · obtain ⟨f, owns⟩ := searched.owned k earlier
    have owner := searched.onPile f owns.under
    obtain ⟨index, low⟩ := meeting_kept reads cells c searched frames p fresh k earlier
    obtain ⟨indexOwner, lowOwner⟩ := meeting_kept reads cells c searched frames p fresh f owner
    refine ⟨f, by simp [path, owns.under], ?_, fun g under less => ?_, ?_, owns.leads⟩
    · rw [index, indexOwner]
      exact owns.before
    · rw [path] at under
      rcases List.mem_cons.mp under with rfl | outer
      · have above := meeting_above reads cells c searched frames g fresh k earlier
        exact absurd less (Nat.not_le.mpr above)
      · have piled := searched.onPile g outer
        have inner := (meeting_kept reads cells c searched frames p fresh g piled).1
        rw [inner, index] at less
        rw [inner, indexOwner]
        exact owns.innermost g outer less
    · rw [low, lowOwner]
      exact owns.low

theorem meeting_completed (k : Key) (member : k ∈ cells)
    (met : k ∉ (meeting reads frames p c).fresh) (apart : k ∉ (meeting reads frames p c).pile)
    (q : Key) (read : q ∈ reads k) :
    q ∉ (meeting reads frames p c).fresh ∧ q ∉ (meeting reads frames p c).pile := by
  rw [meeting_pile, not_or] at apart
  rw [meeting_fresh] at met ⊢
  rw [meeting_pile]
  obtain ⟨unfresh, off⟩ :=
    searched.completed k member (fun still => met ⟨apart.1, still⟩) apart.2 q read
  refine ⟨fun still => unfresh still.2, ?_⟩
  rintro (rfl | before)
  · exact unfresh fresh
  · exact off before

-- Enters the visit of a cell that the innermost visit has just met.
theorem searched_enter (same : frames.map Frame.cell = c.path) (inside : p ∈ cells)
    (edge : ∀ f ∈ c.path.head?, p ∈ reads f)
    (looked : ∀ f ∈ frames, (∀ q ∈ f.rest, q ∈ reads f.cell) ∧
      ∀ q ∈ reads f.cell, q ∈ f.rest ∨ q = p ∨ c.Seen f.cell q) :
    Searched reads cells (meeting reads frames p c) where
  numbered k member := by
    by_cases here : k = p
    · exact .inr (by simp [meeting, enter, here])
    · exact (searched.numbered k member).imp
        (fun unmet => (meeting_fresh reads c frames p k).mpr ⟨here, unmet⟩)
        fun known => Std.ExtTreeMap.mem_insert.mpr (.inr known)
  unmet k still := by
    obtain ⟨apart, unmet⟩ := (meeting_fresh reads c frames p k).mp still
    change k ∉ c.index.insert p c.index.size
    simp only [Std.ExtTreeMap.mem_insert, Std.LawfulEqCmp.compare_eq_iff_eq, not_or]
    exact ⟨Ne.symm apart, searched.unmet k unmet⟩
  piled k := by
    rw [meeting_pile]
    change k ∈ c.piled.insert p ↔ _
    rw [member_insert, searched.piled]
  home := meeting_home reads cells c searched frames p fresh inside
  descending := List.pairwise_cons.mpr
    ⟨meeting_above reads cells c searched frames p fresh,
      searched.descending.imp_of_mem fun first second =>
        (meeting_less reads cells c searched frames p fresh _ _ first second).mpr⟩
  onPile k under := by
    rw [meeting_path reads c frames p same] at under
    exact (meeting_pile reads c frames p k).mpr
      ((List.mem_cons.mp under).imp_right (searched.onPile k))
  nested := by
    rw [meeting_path reads c frames p same]
    refine List.pairwise_cons.mpr ⟨fun k outer =>
      meeting_above reads cells c searched frames p fresh k (searched.onPile k outer), ?_⟩
    exact searched.nested.imp_of_mem fun {a b} first second =>
      (meeting_less reads cells c searched frames p fresh a b (searched.onPile a first)
        (searched.onPile b second)).mpr
  chained := by
    rw [meeting_path reads c frames p same]
    exact List.isChain_cons.mpr ⟨edge, searched.chained⟩
  looked := meeting_looked reads cells c searched frames p fresh same looked
  ended := meeting_ended reads cells c searched frames p fresh same
  lowest := meeting_lowest reads cells c searched frames p fresh
  owned := meeting_owned reads cells c searched frames p fresh same
  completed := meeting_completed reads cells c searched frames p fresh
  cyclic k := by
    rw [meeting_fresh, meeting_pile]
    change k ∈ c.cyclic ↔ _
    rw [searched.cyclic]
    by_cases here : k = p
    · simp [here, fresh]
    · simp [here]

end Meeting

end Search

end Components

end Spreadsheet
