import Spreadsheet.Proofs.Engine.OnDemand

-- Evaluations of one request in any order. Where every circular cell is marked beforehand and no
-- chain of the others is longer than the nesting allows, each cell has one value, which any
-- sequence of evaluations gives.

set_option autoImplicit false

namespace Spreadsheet

open Formula

-- Values for all cells that fit together: marked formulas are circular, every other formula has
-- the value that it computes from the values of the cells, and the rest is as stored.
structure Solves (m : Memory) (formulas : KeyMap Compiled) (marks : List Key)
    (value : Key → Value) : Prop where
  marked : ∀ k ∈ formulas, k ∈ marks → value k = Context.circular
  computed : ∀ (k : Key) (f : Compiled), formulas[k]? = some f → k ∉ marks →
    value k = (f.evaluate k.sheet).value (m.answerFrom value)
  stored : ∀ k ∉ formulas, value k = m.value k

-- References without a sheet name.
def Formula.Compiled.Local (f : Compiled) : Prop := ∀ r ∈ f.references, r.sheet? = none

namespace Context

variable {m : Memory} {formulas : KeyMap Compiled} {marks : List Key}

theorem names_agree_of_local (here : ∀ (k : Key) (f : Compiled), formulas[k]? = some f → f.Local) :
    NamesAgree m formulas := by
  rintro home name other ⟨k, f, known, _, r, member, named⟩
  rw [here k f known r member] at named
  cases named

theorem shallow_of_chains (short : ∀ chain : List Key, chain.IsChain (m.Refers formulas) →
    (∀ k ∈ chain, k ∈ formulas ∧ k ∉ marks) → chain.length ≤ maxNesting) :
    Shallow m formulas marks := by
  intro path way
  have bounded := short path.cells.reverse (List.isChain_reverse.mpr way.chain)
    fun k member => way.known k (List.mem_reverse.mp member)
  simpa [Path.depth] using bounded

theorem short_of_size (small : formulas.size ≤ maxNesting)
    (circular : ∀ k, m.ReliesOn formulas k k → k ∈ marks) (chain : List Key)
    (linked : chain.IsChain (m.Refers formulas)) (known : ∀ k ∈ chain, k ∈ formulas ∧ k ∉ marks) :
    chain.length ≤ maxNesting := by
  have ordered : chain.Pairwise (m.ReliesOn formulas) :=
    (linked.imp fun _ _ edge => Relation.TransGen.single edge).pairwise
  have apart : chain.Nodup := by
    refine ordered.imp_of_mem fun {k p} member _ relies same => ?_
    subst same
    exact (known k member).2 (circular k relies)
  have listed : chain ⊆ formulas.keys := fun k member =>
    Std.ExtTreeMap.mem_keys.mpr (known k member).1
  exact (apart.length_le_of_subset listed).trans (by simpa using small)

theorem refers_of_local (k p : Key) (f : Compiled) (known : formulas[k]? = some f)
    (here : f.Local) : m.Refers formulas k p ↔
      ∃ r ∈ f.references, (r.on k.sheet).contains p = true := by
  have bound (r : Reference) (listed : r ∈ f.references) :
      r.boundBy k.sheet m.resolver = some (r.on k.sheet) := by
    simp [Reference.boundBy, here r listed]
  constructor
  · rintro ⟨g, found, x, among, inside⟩
    obtain rfl : f = g := Option.some.inj (known.symm.trans found)
    obtain ⟨r, listed, same⟩ := List.mem_filterMap.mp among
    rw [bound r listed] at same
    exact ⟨r, listed, Option.some.inj same ▸ inside⟩
  · rintro ⟨r, listed, inside⟩
    exact ⟨f, known, _, List.mem_filterMap.mpr ⟨r, listed, bound r listed⟩, inside⟩

theorem acyclic_of_rank (rank : Key → Nat)
    (down : ∀ k p, m.Refers formulas k p → rank p < rank k) (k : Key) :
    ¬m.ReliesOn formulas k k := by
  have lower (p : Key) (relies : m.ReliesOn formulas k p) : rank p < rank k := by
    induction relies with
    | single edge => exact down k _ edge
    | tail _ edge ih => exact (down _ _ edge).trans ih
  exact fun relies => Nat.lt_irrefl _ (lower k relies)

theorem acyclic_of_leftward (leftward : ∀ (k : Key) (f : Compiled), formulas[k]? = some f →
    ∀ r ∈ f.references, ∃ x : Address, r = ⟨none, .cell x⟩ ∧ x.col < k.addr.col) (k : Key) :
    ¬m.ReliesOn formulas k k := by
  apply acyclic_of_rank fun k => k.addr.col
  intro k p edge
  obtain ⟨f, known, _⟩ := id edge
  have here : f.Local := by
    intro r member
    obtain ⟨x, rfl, _⟩ := leftward k f known r member
    rfl
  obtain ⟨r, member, inside⟩ := (refers_of_local k p f known here).mp edge
  obtain ⟨x, rfl, left⟩ := leftward k f known r member
  obtain rfl : p = ⟨k.sheet, x⟩ := (contains_of_key ⟨k.sheet, x⟩ p).mp inside
  exact left

section Circular

variable {σ : Type} {invariant : σ → Prop} {path : Path} {c : Context σ}
  (sound : Sound m formulas marks invariant path c)
include sound

theorem relies_of_cyclic (k : Key) (cyclic : k ∈ c.cyclic) :
    k ∈ marks ∨ m.ReliesOn formulas k k := by
  refine (sound.circles k cyclic).imp_right fun round => ?_
  obtain ⟨p, _, edge, back⟩ := round
  exact Relation.TransGen.head' edge back

theorem marks_of_cyclic (circular : ∀ k, m.ReliesOn formulas k k → k ∈ marks) (k : Key) :
    k ∈ c.cyclic ↔ k ∈ marks :=
  ⟨fun cyclic => (relies_of_cyclic sound k cyclic).elim id (circular k),
    fun member => (sound.marked k member).1⟩

end Circular

-- What is final in a context that has lost nothing is evaluated.
theorem cached_of_whole {c : Context Memory} (whole : Whole .root
    ((ofFormulas m formulas).markCyclic marks) .root c) (k : Key) (known : k ∈ formulas)
    (closed : ¬Open .root c k) : k ∈ c.cache :=
  (whole k (open_start marks m k known)).resolve_left closed

section Computed

variable {σ : Type} {invariant : σ → Prop} {c : Context σ}
  (sound : Sound m formulas marks invariant .root c)
include sound

-- What everybody sees in an evaluated cell off the circles is what its formula makes of what
-- everybody sees.
theorem seen_computed (k : Key) (f : Compiled) (known : formulas[k]? = some f) (held : k ∈ c.cache)
    (free : k ∉ c.cyclic) : seen m formulas marks c k =
      (f.evaluate k.sheet).value (m.answerFrom (seen m formulas marks c)) := by
  have unmarked : ¬Marked formulas marks k := fun marked => free (sound.marked k marked.2).1
  cases (cached_of_mem sound k held).2.2 free with
  | reading _ g _ listed _ kept =>
    obtain rfl : f = g := Option.some.inj (known.symm.trans listed)
    conv_lhs => rw [seen, if_neg unmarked, kept]
    rfl

theorem seen_stored (k : Key) (unknown : k ∉ formulas) : seen m formulas marks c k = m.value k := by
  have fresh : k ∉ c.cache := fun held => unknown (cached_of_mem sound k held).1
  rw [seen, if_neg fun marked => unknown marked.1, Std.ExtTreeMap.getElem?_eq_none fresh]
  rfl

theorem solves_of_final (quiet : ∀ k ∈ c.cyclic, k ∈ marks)
    (cached : ∀ k ∈ formulas, k ∉ marks → k ∈ c.cache) :
    Solves m formulas marks (seen m formulas marks c) where
  marked _ known member := if_pos ⟨known, member⟩
  computed k f known free := seen_computed sound k f known
    (cached k (member_of_lookup formulas k f known) free) fun cyclic => free (quiet k cyclic)
  stored := seen_stored sound

end Computed

theorem evaluated_in_any_order (m : Memory) (formulas : KeyMap Compiled) (marks : List Key)
    (available : m.available = true)
    (here : ∀ (k : Key) (f : Compiled), formulas[k]? = some f → f.Local)
    (circular : ∀ k, m.ReliesOn formulas k k → k ∈ marks)
    (short : ∀ chain : List Key, chain.IsChain (m.Refers formulas) →
      (∀ k ∈ chain, k ∈ formulas ∧ k ∉ marks) → chain.length ≤ maxNesting) :
    let start := (ofFormulas m formulas).markCyclic marks
    ∃ value : Key → Value, Solves m formulas marks value ∧ ∀ order : List Key, ∃ d,
      (order.mapM evaluate).Returns start (order.map value) d ∧
        d.cyclicCells = start.cyclicCells ∧ ∀ k, k ∈ d.cyclicCells ↔ k ∈ marks := by
  intro start
  have begun : Sound m formulas marks (· = m) .root start := sound_start m rfl
  have run := evaluations_return (m.truthful available) (names_agree_of_local here)
    (shallow_of_chains short) begun
  obtain ⟨c, _, sound, _, whole, final⟩ := run formulas.keys
  have cached (k : Key) (known : k ∈ formulas) (free : k ∉ marks) : k ∈ c.cache :=
    cached_of_whole whole k known (final k (Std.ExtTreeMap.mem_keys.mpr known) fun marked =>
      free marked.2)
  -- The view that one complete run ends with is the one that every run agrees with.
  refine ⟨seen m formulas marks c,
    solves_of_final sound (fun k => (marks_of_cyclic sound circular k).mp) cached, fun order => ?_⟩
  obtain ⟨d, returned, after, _, complete, ended⟩ := run order
  have everywhere (k : Key) : Final formulas marks .root c k := by
    intro free opened
    cases opened with
    | inl due =>
      have known := (sound.pending k due).1
      exact final k (Std.ExtTreeMap.mem_keys.mpr known) free (.inl due)
    | inr inside => cases inside
  have alike : Alike m formulas formulas marks (fun _ => True) d c :=
    { closed := fun _ _ _ _ => trivial
      marked := fun _ _ => Iff.rfl
      results := fun k _ _ closed shut =>
        ⟨fun held => cached_of_whole whole k (cached_of_mem after k held).1 shut,
          fun held => cached_of_whole complete k (cached_of_mem sound k held).1 closed⟩
      formulas := fun _ _ _ => rfl
      quiet := fun k => (marks_of_cyclic after circular k).mp
      silent := fun k => (marks_of_cyclic sound circular k).mp }
  have same : order.map (seen m formulas marks c) = order.map (seen m formulas marks d) :=
    List.map_congr_left fun k member =>
      (seen_agree _ alike after sound k trivial (ended k member) (everywhere k)).symm
  have unchanged : d.cyclic = start.cyclic := Std.ExtTreeSet.ext_mem fun k =>
    (marks_of_cyclic after circular k).trans (marks_of_cyclic begun circular k).symm
  refine ⟨d, same ▸ returned, congrArg Std.ExtTreeSet.toList unchanged, fun k => ?_⟩
  rw [cyclicCells, Std.ExtTreeSet.mem_toList]
  exact marks_of_cyclic after circular k

-- A formula that skips its circular branch, and reads another one on demand.
theorem evaluated_in_any_order_with_branch :
    let a : Key := ⟨⟨1⟩, ⟨1, 1⟩⟩
    let b : Key := ⟨⟨1⟩, ⟨1, 2⟩⟩
    let c : Key := ⟨⟨1⟩, ⟨1, 3⟩⟩
    let d : Key := ⟨⟨1⟩, ⟨1, 4⟩⟩
    let m : Memory := (⟨[⟨⟨1⟩, ⟨1⟩, "Main"⟩], ∅, true⟩ : Memory).put c (.literal (.text "x"))
    let formulas := (((∅ : KeyMap Compiled).insert a (.ofSource .empty "=IF(FALSE,D1,B1)")).insert b
      (.ofSource .empty "=C1&C1")).insert d (.ofSource .empty "=D1")
    let start := (ofFormulas m formulas).markCyclic [d]
    (∀ k, m.ReliesOn formulas k k → k ∈ [d]) ∧
      ∃ value : Key → Value, Solves m formulas [d] value ∧ ∀ order : List Key, ∃ e,
        (order.mapM evaluate).Returns start (order.map value) e ∧
          e.cyclicCells = start.cyclicCells ∧ ∀ k, k ∈ e.cyclicCells ↔ k ∈ [d] := by
  intro a b c d m formulas start
  have branch : (Compiled.ofSource .empty "=IF(FALSE,D1,B1)").references =
      [⟨none, .cell d.addr⟩, ⟨none, .cell b.addr⟩] := by decide +kernel
  have joined : (Compiled.ofSource .empty "=C1&C1").references = [⟨none, .cell c.addr⟩] := by
    decide +kernel
  have looped : (Compiled.ofSource .empty "=D1").references = [⟨none, .cell d.addr⟩] := by
    decide +kernel
  have listed (k : Key) (f : Compiled) (known : formulas[k]? = some f) :
      k = d ∧ f.references = [⟨none, .cell d.addr⟩] ∨
        k = b ∧ f.references = [⟨none, .cell c.addr⟩] ∨
          k = a ∧ f.references = [⟨none, .cell d.addr⟩, ⟨none, .cell b.addr⟩] := by
    simp only [formulas, lookup_insert, Std.ExtTreeMap.getElem?_empty] at known
    grind
  have here (k : Key) (f : Compiled) (known : formulas[k]? = some f) : f.Local := by
    intro r member
    rcases listed k f known with ⟨_, refs⟩ | ⟨_, refs⟩ | ⟨_, refs⟩ <;> grind
  have rightward (k p : Key) (edge : m.Refers formulas k p) :
      k = d ∧ p = d ∨ k.addr.col < p.addr.col := by
    obtain ⟨f, known, _⟩ := id edge
    obtain ⟨r, member, inside⟩ := (refers_of_local k p f known (here k f known)).mp edge
    have read (x : Address) (same : r = ⟨none, .cell x⟩) : p = ⟨k.sheet, x⟩ := by
      subst same
      exact (contains_of_key _ p).mp inside
    rcases listed k f known with ⟨rfl, refs⟩ | ⟨rfl, refs⟩ | ⟨rfl, refs⟩
    · exact .inl ⟨rfl, read d.addr (by simpa [refs] using member)⟩
    · rw [read c.addr (by simpa [refs] using member)]
      decide
    · rw [refs, List.mem_cons, List.mem_singleton] at member
      rcases member with first | second
      · rw [read d.addr first]
        decide
      · rw [read b.addr second]
        decide
  have circular (k : Key) (relies : m.ReliesOn formulas k k) : k ∈ [d] := by
    have onward (p : Key) (relies : m.ReliesOn formulas k p) : k = d ∨ k.addr.col < p.addr.col := by
      induction relies with
      | single edge => exact (rightward k _ edge).imp_left And.left
      | tail _ edge ih =>
        rcases rightward _ _ edge with ⟨rfl, rfl⟩ | further
        · exact ih
        · exact ih.imp_right fun before => before.trans further
    simpa using onward k relies
  refine ⟨circular, evaluated_in_any_order m formulas [d] rfl here circular ?_⟩
  exact short_of_size (by decide +kernel) circular

end Context

end Spreadsheet
