import Spreadsheet.Proofs.Graph.Search

-- The end of a visit. When the least number of its cell is its own, the cells of the pile down to
-- it lead to one another, and what they lead to besides has been completed before; otherwise the
-- cells that it owns pass to the visit around it.

set_option autoImplicit false

namespace Spreadsheet

namespace Components

variable (reads : Key → List Key)

section Search

variable (cells : List Key) (c : Components) (searched : Searched reads cells c)
include searched

theorem completed_leads (closed : ∀ k ∈ cells, ∀ p ∈ reads k, p ∈ cells) (v x : Key)
    (completed : v ∈ cells ∧ v ∉ c.fresh ∧ v ∉ c.pile) (leads : Leads reads v x) :
    x ∈ cells ∧ x ∉ c.fresh ∧ x ∉ c.pile := by
  induction leads with
  | refl => exact completed
  | tail _ edge ih =>
    exact ⟨closed _ ih.1 _ edge, searched.completed _ ih.1 ih.2.1 ih.2.2 _ edge⟩

section Innermost

variable (k : Key) (rest : List Key) (outer : List Frame) (frames : c.frames = ⟨k, rest⟩ :: outer)
include frames

-- What has been met since the innermost cell is owned by it.
theorem innermost_owns (v : Key) (member : v ∈ c.pile) (later : c.indexOf k ≤ c.indexOf v) :
    Owns reads c k v := by
  have path := innermost_path c k rest outer frames
  obtain ⟨f, owns⟩ := searched.owned v member
  have under : k ∈ c.path := by simp [path]
  have nested := searched.nested
  rw [path] at nested
  obtain rfl : f = k := by
    rcases List.mem_cons.mp (path ▸ owns.under) with same | outside
    · exact same
    · have less := (List.pairwise_cons.mp nested).1 f outside
      exact absurd (owns.innermost k under later) (Nat.not_le_of_gt less)
  exact owns

theorem innermost_last (v : Key) (apart : v ≠ k) (later : c.indexOf k ≤ c.indexOf v) :
    v ∉ c.path := by
  have nested := searched.nested
  rw [innermost_path c k rest outer frames] at nested ⊢
  intro under
  have less := (List.pairwise_cons.mp nested).1 v ((List.mem_cons.mp under).resolve_left apart)
  omega

-- Nothing was met before the outermost cell, so it leads to nothing before it.
theorem outermost_root (alone : outer = []) : c.lowOf k = c.indexOf k := by
  have path := innermost_path c k rest outer frames
  obtain ⟨below, p, piled, least, _⟩ := searched.lowest k (searched.onPile k (by simp [path]))
  obtain ⟨g, owns⟩ := searched.owned p piled
  obtain rfl : g = k := by simpa [path, alone] using owns.under
  have before := owns.before
  omega

theorem innermost_seen (done : rest = []) (p : Key) (read : p ∈ reads k) : c.Seen k p := by
  have looked := (searched.looked ⟨k, rest⟩ (by simp [frames])).2 p read
  simpa [done] using looked

-- A visit that ends where its cell leads further down leaves the cell to the one around it.
theorem searched_leave (done : rest = []) (leads : c.lowOf k < c.indexOf k) (around : Frame)
    (further : List Frame) (split : outer = around :: further)
    (lowered : c.lowOf around.cell ≤ c.lowOf k) :
    Searched reads cells { c with frames := outer } := by
  have path := innermost_path c k rest outer frames
  have nested := searched.nested
  have chained := searched.chained
  rw [path] at nested chained
  obtain ⟨outermost, inward⟩ := List.pairwise_cons.mp nested
  have less : c.indexOf around.cell < c.indexOf k := outermost around.cell (by simp [split])
  have edge : k ∈ reads around.cell :=
    (List.isChain_cons.mp chained).1 around.cell (by simp [split])
  refine { searched with
    onPile := fun f under => searched.onPile f (path ▸ List.mem_cons_of_mem k under)
    nested := inward
    chained := (List.isChain_cons.mp chained).2
    looked := fun f member => searched.looked f (frames ▸ List.mem_cons_of_mem _ member)
    ended := fun v member absent => ?ended
    owned := fun v member => ?owned }
  case ended =>
    by_cases here : v = k
    · subst here
      exact ⟨leads, innermost_seen reads cells c searched v rest outer frames done⟩
    · exact searched.ended v member (path ▸ List.not_mem_cons_of_ne_of_not_mem here absent)
  case owned =>
    obtain ⟨f, owns⟩ := searched.owned v member
    rcases List.mem_cons.mp (path ▸ owns.under) with rfl | outside
    · refine ⟨around.cell, ?_, Nat.le_trans (Nat.le_of_lt less) owns.before, fun g under _ => ?_,
        Nat.le_trans lowered owns.low, .head edge owns.leads⟩
      · change around.cell ∈ outer.map Frame.cell
        simp [split]
      · change g ∈ outer.map Frame.cell at under
        rw [split, List.map_cons] at under inward
        rcases List.mem_cons.mp under with rfl | beyond
        · exact Nat.le_refl _
        · exact Nat.le_of_lt ((List.pairwise_cons.mp inward).1 g beyond)
    · exact ⟨f, outside, owns.before,
        fun g under less => owns.innermost g (path ▸ List.mem_cons_of_mem k under) less,
        owns.low, owns.leads⟩

theorem mem_taken (v : Key) :
    (v ∈ (takeDownTo k c.pile).1 ↔ v ∈ c.pile ∧ c.indexOf k ≤ c.indexOf v) ∧
      (v ∈ (takeDownTo k c.pile).2 ↔ v ∈ c.pile ∧ c.indexOf v < c.indexOf k) := by
  have onPile : k ∈ c.pile :=
    searched.onPile k (by simp [innermost_path c k rest outer frames])
  obtain ⟨above, taken⟩ := take_down_to_last k c.pile onPile
  have whole := take_down_to_append k c.pile
  have descending := searched.descending
  generalize takeDownTo k c.pile = split at taken whole ⊢
  rw [← whole, taken, List.append_assoc] at descending ⊢
  obtain ⟨_, below, past⟩ := List.pairwise_append.mp descending
  have less := (List.pairwise_cons.mp below).1
  simp only [List.mem_append, List.mem_cons, List.not_mem_nil, or_false]
  constructor
  · constructor
    · rintro (higher | rfl)
      · exact ⟨.inl higher, Nat.le_of_lt (past v higher k (by simp))⟩
      · exact ⟨.inr (.inl rfl), Nat.le_refl _⟩
    · rintro ⟨higher | rfl | lower, later⟩
      · exact .inl higher
      · exact .inr rfl
      · exact absurd (less v lower) (Nat.not_lt_of_le later)
  · constructor
    · exact fun lower => ⟨.inr (.inr lower), less v lower⟩
    · rintro ⟨higher | rfl | lower, before⟩
      · exact absurd (past v higher k (by simp)) (Nat.not_lt_of_lt before)
      · omega
      · exact lower

section Root

variable (root : c.lowOf k = c.indexOf k)
include root

-- What the cells down to a root read is among them or completed.
theorem root_bounds (done : rest = []) (v p : Key) (member : v ∈ c.pile)
    (later : c.indexOf k ≤ c.indexOf v) (read : p ∈ reads v) :
    p ∉ c.fresh ∧ (p ∈ c.pile → c.indexOf k ≤ c.indexOf p) := by
  have low := (innermost_owns reads cells c searched k rest outer frames v member later).low
  have seen : c.Seen v p := by
    by_cases here : v = k
    · subst here
      exact innermost_seen reads cells c searched v rest outer frames done p read
    · have absent := innermost_last reads cells c searched k rest outer frames v here later
      exact (searched.ended v member absent).2 p read
  exact ⟨seen.1, fun piled => by have bound := seen.2 piled; omega⟩

theorem root_returns (v : Key) (member : v ∈ c.pile) (later : c.indexOf k ≤ c.indexOf v) :
    Leads reads v k := by
  generalize number : c.indexOf v = n
  induction n using Nat.strong_induction_on generalizing v with
  | _ n ih =>
    by_cases here : v = k
    · exact here ▸ .refl
    · have low := (innermost_owns reads cells c searched k rest outer frames v member later).low
      have absent := innermost_last reads cells c searched k rest outer frames v here later
      obtain ⟨_, p, piled, least, leads⟩ := searched.lowest v member
      have below := (searched.ended v member absent).1
      exact leads.trans (ih (c.indexOf p) (by omega) p piled (by omega) rfl)

theorem root_stays (closed : ∀ k ∈ cells, ∀ p ∈ reads k, p ∈ cells) (done : rest = [])
    (v x : Key) (member : v ∈ c.pile) (later : c.indexOf k ≤ c.indexOf v)
    (leads : Leads reads v x) :
    (x ∈ c.pile ∧ c.indexOf k ≤ c.indexOf x) ∨ x ∈ cells ∧ x ∉ c.fresh ∧ x ∉ c.pile := by
  induction leads with
  | refl => exact .inl ⟨member, later⟩
  | tail _ edge ih =>
    rename_i y z _
    rcases ih with ⟨piled, after⟩ | completed
    · have bounds :=
        root_bounds reads cells c searched k rest outer frames root done y z piled after edge
      have inside := closed y (searched.home y piled).1 z edge
      by_cases still : z ∈ c.pile
      · exact .inl ⟨still, bounds.2 still⟩
      · exact .inr ⟨inside, bounds.1, still⟩
    · exact .inr (completed_leads reads cells c searched closed y z completed (.single edge))

-- The cells down to a root lead to one another, and to none of them by way of another one.
theorem root_looping (closed : ∀ k ∈ cells, ∀ p ∈ reads k, p ∈ cells) (done : rest = [])
    (v : Key) (member : v ∈ c.pile) (later : c.indexOf k ≤ c.indexOf v) :
    Looping reads v ↔ 1 < (takeDownTo k c.pile).1.length ∨ k ∈ reads k := by
  have taken := mem_taken reads cells c searched k rest outer frames
  have from_root (u : Key) (u_member : u ∈ c.pile) (after : c.indexOf k ≤ c.indexOf u) :=
    (innermost_owns reads cells c searched k rest outer frames u u_member after).leads
  have to_root := root_returns reads cells c searched k rest outer frames root
  have onPile : k ∈ c.pile :=
    searched.onPile k (by simp [innermost_path c k rest outer frames])
  obtain ⟨above, split⟩ := take_down_to_last k c.pile onPile
  constructor
  · intro looping
    by_cases alone : above = []
    · right
      have only (u : Key) (member : u ∈ c.pile) (after : c.indexOf k ≤ c.indexOf u) : u = k := by
        simpa [split, alone] using (taken u).1.mpr ⟨member, after⟩
      obtain rfl := only v member later
      obtain ⟨p, edge, back⟩ := Relation.TransGen.head'_iff.mp looping
      rcases root_stays reads cells c searched v rest outer frames root closed done v p member
        later (.single edge) with ⟨piled, after⟩ | completed
      · exact only p piled after ▸ edge
      · exact absurd member
          (completed_leads reads cells c searched closed p v completed back).2.2
    · left
      have positive := List.length_pos_of_ne_nil alone
      simp only [split, List.length_append, List.length_singleton]
      omega
  · rintro (several | self)
    · obtain ⟨u, placed⟩ : ∃ u, u ∈ above := by
        refine List.exists_mem_of_ne_nil above fun alone => ?_
        simp [split, alone] at several
      have piled : u ∈ c.pile ∧ c.indexOf k ≤ c.indexOf u :=
        (taken u).1.mp (by simp [split, placed])
      have apart : u ≠ k := by
        have distinct : ((takeDownTo k c.pile).1 ++ (takeDownTo k c.pile).2).Pairwise
            fun a b => c.indexOf b < c.indexOf a := by
          rw [take_down_to_append]
          exact searched.descending
        rw [split, List.append_assoc] at distinct
        have less := (List.pairwise_append.mp distinct).2.2 u placed k (by simp)
        rintro rfl
        omega
      have out := Relation.reflTransGen_iff_eq_or_transGen.mp (from_root u piled.1 piled.2)
      have round : Looping reads k :=
        (out.resolve_left apart).trans_left (to_root u piled.1 piled.2)
      exact .trans_right (to_root v member later) (round.trans_left (from_root v member later))
    · have round : Looping reads k := .single self
      exact .trans_right (to_root v member later) (round.trans_left (from_root v member later))

-- What is known to lie on a cycle, once the component of a root has been taken off the pile.
theorem complete_cyclic (closed : ∀ k ∈ cells, ∀ p ∈ reads k, p ∈ cells) (done : rest = [])
    (v : Key) : v ∈ (c.complete reads k).cyclic ↔
      v ∈ cells ∧ v ∉ c.fresh ∧ v ∉ (c.complete reads k).pile ∧ Looping reads v := by
  have taken := mem_taken reads cells c searched k rest outer frames v
  change v ∈ (if 1 < (takeDownTo k c.pile).1.length ∨ k ∈ reads k
      then (takeDownTo k c.pile).1.foldl (·.insert ·) c.cyclic else c.cyclic) ↔
    v ∈ cells ∧ v ∉ c.fresh ∧ v ∉ (takeDownTo k c.pile).2 ∧ Looping reads v
  have listed : v ∈ (if 1 < (takeDownTo k c.pile).1.length ∨ k ∈ reads k
      then (takeDownTo k c.pile).1.foldl (·.insert ·) c.cyclic else c.cyclic) ↔
      (1 < (takeDownTo k c.pile).1.length ∨ k ∈ reads k) ∧ v ∈ (takeDownTo k c.pile).1 ∨
        v ∈ c.cyclic := by
    split <;> rename_i condition <;> simp [member_insert_all, condition]
  rw [listed, taken.1, taken.2, searched.cyclic]
  by_cases piled : v ∈ c.pile
  · obtain ⟨inside, met, _⟩ := searched.home v piled
    by_cases later : c.indexOf k ≤ c.indexOf v
    · have looping :=
        root_looping reads cells c searched k rest outer frames root closed done v piled later
      simp [piled, inside, met, later, looping]
    · simp [piled, later]
  · simp [piled]

theorem searched_complete (closed : ∀ k ∈ cells, ∀ p ∈ reads k, p ∈ cells) (done : rest = []) :
    Searched reads cells ({ c with frames := outer }.complete reads k) := by
  have path := innermost_path c k rest outer frames
  have nested := searched.nested
  have chained := searched.chained
  rw [path] at nested chained
  obtain ⟨outermost, inward⟩ := List.pairwise_cons.mp nested
  have taken (v : Key) := (mem_taken reads cells c searched k rest outer frames v).1
  have left (v : Key) := (mem_taken reads cells c searched k rest outer frames v).2
  have seen (v p : Key) (before : c.Seen v p) :
      ({ c with frames := outer }.complete reads k).Seen v p :=
    ⟨before.1, fun still => before.2 ((left p).mp still).1⟩
  refine { searched with
    piled := fun v => ?piled
    home := fun v still => searched.home v ((left v).mp still).1
    descending := ?descending
    onPile := fun f under =>
      (left f).mpr ⟨searched.onPile f (path ▸ List.mem_cons_of_mem k under), outermost f under⟩
    nested := inward
    chained := (List.isChain_cons.mp chained).2
    looked := fun f member => ?looked
    ended := fun v still absent => ?ended
    lowest := fun v still => ?lowest
    owned := fun v still => ?owned
    completed := fun v inside met off p read => ?completed
    cyclic := complete_cyclic reads cells c searched k rest outer frames root closed done }
  case piled =>
    change v ∈ (takeDownTo k c.pile).1.foldl (·.erase ·) c.piled ↔ v ∈ (takeDownTo k c.pile).2
    rw [member_erase_all, searched.piled, taken, left]
    grind
  case descending =>
    refine searched.descending.sublist ?_
    have lower := List.sublist_append_right (takeDownTo k c.pile).1 (takeDownTo k c.pile).2
    rw [take_down_to_append] at lower
    exact lower
  case looked =>
    obtain ⟨listed, looked⟩ := searched.looked f (frames ▸ List.mem_cons_of_mem _ member)
    exact ⟨listed, fun p read => (looked p read).imp_right (seen f.cell p)⟩
  case ended =>
    obtain ⟨piled, before⟩ := (left v).mp still
    have apart : v ≠ k := by
      rintro rfl
      omega
    obtain ⟨below, all⟩ :=
      searched.ended v piled (path ▸ List.not_mem_cons_of_ne_of_not_mem apart absent)
    exact ⟨below, fun p read => seen v p (all p read)⟩
  case lowest =>
    obtain ⟨piled, before⟩ := (left v).mp still
    obtain ⟨below, p, onPile, least, leads⟩ := searched.lowest v piled
    exact ⟨below, p, (left p).mpr ⟨onPile, by omega⟩, least, leads⟩
  case owned =>
    obtain ⟨piled, before⟩ := (left v).mp still
    obtain ⟨f, owns⟩ := searched.owned v piled
    have earlier := owns.before
    rcases List.mem_cons.mp (path ▸ owns.under) with rfl | outside
    · omega
    · exact ⟨f, outside, owns.before,
        fun g under less => owns.innermost g (path ▸ List.mem_cons_of_mem k under) less,
        owns.low, owns.leads⟩
  case completed =>
    by_cases piled : v ∈ c.pile
    · have later : c.indexOf k ≤ c.indexOf v :=
        Nat.le_of_not_lt fun before => off ((left v).mpr ⟨piled, before⟩)
      have bounds :=
        root_bounds reads cells c searched k rest outer frames root done v p piled later read
      refine ⟨bounds.1, fun still => ?_⟩
      obtain ⟨onPile, before⟩ := (left p).mp still
      have bound := bounds.2 onPile
      omega
    · obtain ⟨unfresh, absent⟩ := searched.completed v inside met piled p read
      exact ⟨unfresh, fun still => absent ((left p).mp still).1⟩

end Root

end Innermost

end Search

end Components

end Spreadsheet
