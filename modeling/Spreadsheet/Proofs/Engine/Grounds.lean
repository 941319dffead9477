import Spreadsheet.Proofs.Engine.Naming
import Mathlib.Logic.Relation

-- What the results that a context keeps rest on, while formulas are evaluated on demand. A cell is
-- open as long as its evaluation is due or under way. A result that is kept has been read off
-- cells that are not open any more, so that nothing that is still to come can change it.

set_option autoImplicit false

namespace Spreadsheet

open Formula

namespace Memory

-- The cells whose values make up the answer to a question.
def asked (m : Memory) : Query → List Key
  | .cell k => [k]
  | .range r => (m.recordsIn r).map Record.key
  | .sheet _ _ => []

-- What formulas read where every cell has the value that `view` gives to it.
def answerFrom (m : Memory) (view : Key → Value) : (q : Query) → q.Answer
  | .cell k => view k
  | .range r =>
    .ofList r.range ((m.recordsIn r).map fun record => (record.key.addr, view record.key))
  | .sheet home name => m.sheetFrom home name

theorem answer_from_congr (m : Memory) (view other : Key → Value) (q : Query)
    (same : ∀ k ∈ m.asked q, view k = other k) : m.answerFrom view q = m.answerFrom other q := by
  cases q with
  | cell k => exact same k (by simp [asked])
  | range r =>
    refine congrArg (RangeValues.ofList r.range) (List.map_congr_left fun record member => ?_)
    rw [same record.key (List.mem_map_of_mem member)]
  | sheet home name => rfl

-- The formula of the cell `k` has a reference that covers the cell `p`.
def Refers (m : Memory) (formulas : KeyMap Compiled) (k p : Key) : Prop :=
  ∃ f, formulas[k]? = some f ∧ ∃ r ∈ m.bound k.sheet f.references, r.contains p = true

-- A chain of references leads from the cell `k` to the cell `p`.
def ReliesOn (m : Memory) (formulas : KeyMap Compiled) : Key → Key → Prop :=
  Relation.TransGen (m.Refers formulas)

-- The same, or the cells are one.
abbrev LeadsTo (m : Memory) (formulas : KeyMap Compiled) : Key → Key → Prop :=
  Relation.ReflTransGen (m.Refers formulas)

theorem formula_of_relies (m : Memory) (formulas : KeyMap Compiled) (k p : Key)
    (relies : m.ReliesOn formulas k p) : k ∈ formulas := by
  cases Relation.TransGen.head'_iff.mp relies with
  | intro next first =>
    obtain ⟨⟨f, known, _⟩, _⟩ := first
    exact member_of_lookup formulas k f known

end Memory

section Chains

variable {α : Type} {r : α → α → Prop}

-- Along a chain that is listed from its end, each member leads to the first of the list.
theorem leads_to_first (first : α) (rest : List α)
    (chain : (first :: rest).IsChain fun inner outer => r outer inner) :
    ∀ x ∈ first :: rest, Relation.ReflTransGen r x first := by
  induction rest generalizing first with
  | nil =>
    intro x member
    rw [List.mem_singleton.mp member]
  | cons second rest ih =>
    intro x member
    obtain ⟨edge, later⟩ := List.isChain_cons_cons.mp chain
    cases List.mem_cons.mp member with
    | inl here => rw [here]
    | inr deeper => exact (ih second later x deeper).tail edge

theorem last_leads (front : List α) (last : α)
    (chain : (front ++ [last]).IsChain fun inner outer => r outer inner) :
    ∀ x ∈ front ++ [last], Relation.ReflTransGen r last x := by
  induction front with
  | nil =>
    intro x member
    rw [List.mem_singleton.mp member]
  | cons first rest ih =>
    intro x member
    obtain ⟨edge, later⟩ := List.isChain_cons.mp chain
    cases List.mem_cons.mp member with
    | inr deeper => exact ih later x deeper
    | inl here =>
      rw [here]
      cases rest with
      | nil => exact .single (edge last rfl)
      | cons second rest => exact (ih later second List.mem_cons_self).tail (edge second rfl)

-- A chain from whose end one more step leads back to its beginning runs round.
theorem runs_round (first : α) (rest front : List α) (last : α)
    (split : first :: rest = front ++ [last])
    (chain : (first :: rest).IsChain fun inner outer => r outer inner) (closes : r first last) :
    ∀ x ∈ first :: rest, ∃ y ∈ first :: rest, r x y ∧ Relation.ReflTransGen r y x := by
  intro x member
  have back : Relation.ReflTransGen r last x :=
    last_leads front last (split ▸ chain) x (split ▸ member)
  obtain ⟨before, after, parted⟩ := List.append_of_mem member
  cases before.eq_nil_or_concat with
  | inl none =>
    subst none
    obtain ⟨rfl, _⟩ := List.cons.inj parted
    exact ⟨last, by simp [split], closes, back⟩
  | inr some =>
    obtain ⟨start, y, rfl⟩ := some
    have among : y ∈ first :: rest := by simp [parted]
    have edge : r x y := by
      rw [parted, List.concat_eq_append, List.append_assoc] at chain
      exact (List.isChain_cons_cons.mp (List.isChain_append.mp chain).2.1).1
    exact ⟨y, among, edge, ((leads_to_first first rest chain y among).tail closes).trans back⟩

end Chains

namespace Context

variable {σ : Type}

-- Formula cells that count as circular from the start.
abbrev Marked (formulas : KeyMap Compiled) (marks : List Key) (k : Key) : Prop :=
  k ∈ formulas ∧ k ∈ marks

-- The evaluation of the cell is due, or under way on the path.
def Open (path : Path) (c : Context σ) (k : Key) : Prop := k ∈ c.pending ∨ k ∈ path.cells

def Final (formulas : KeyMap Compiled) (marks : List Key) (path : Path) (c : Context σ)
    (k : Key) : Prop :=
  ¬Marked formulas marks k → ¬Open path c k

-- What a formula reads in a cell that is final.
def seen (m : Memory) (formulas : KeyMap Compiled) (marks : List Key) (c : Context σ)
    (k : Key) : Value :=
  if Marked formulas marks k then circular else c.cache[k]?.getD (m.value k)

-- A later moment of an evaluation, or of several ones. The path may be another one.
structure Later (path : Path) (c : Context σ) (after : Path) (d : Context σ) : Prop where
  kept : ∀ (k : Key) (v : Value), c.cache[k]? = some v → d.cache[k]? = some v
  fresh : ∀ k ∈ d.cache, k ∈ c.cache ∨ Open path c k
  opened : ∀ k, Open after d k → Open path c k
  cyclic : ∀ k ∈ c.cyclic, k ∈ d.cyclic

-- No evaluation was broken off in between.
def Whole (path : Path) (c : Context σ) (after : Path) (d : Context σ) : Prop :=
  ∀ k, Open path c k → Open after d k ∨ k ∈ d.cache

-- Every evaluation that was broken off in between was that of one of these cells.
def Spares (lost : Key → Prop) (path : Path) (c : Context σ) (after : Path) (d : Context σ) :
    Prop :=
  ∀ k, Open path c k → Open after d k ∨ k ∈ d.cache ∨ lost k

section Later

variable {path after last : Path} {c d e : Context σ}

theorem later_same (formulas : c.cache = d.cache) (pending : c.pending = d.pending)
    (cyclic : ∀ k ∈ c.cyclic, k ∈ d.cyclic) : Later path c path d where
  kept k v := by simp [formulas]
  fresh k := by simp +contextual [formulas]
  opened k := by simp [Open, pending]
  cyclic := cyclic

theorem later_refl : Later path c path c := later_same rfl rfl fun _ member => member

theorem later_trans (first : Later path c after d) (second : Later after d last e) :
    Later path c last e where
  kept k v held := second.kept k v (first.kept k v held)
  fresh k held := by
    cases second.fresh k held with
    | inl before => exact first.fresh k before
    | inr opened => exact .inr (first.opened k opened)
  opened k opened := first.opened k (second.opened k opened)
  cyclic k member := second.cyclic k (first.cyclic k member)

theorem whole_refl : Whole path c path c := fun _ opened => .inl opened

theorem whole_trans (later : Later after d last e) (first : Whole path c after d)
    (second : Whole after d last e) : Whole path c last e := by
  intro k opened
  cases first k opened with
  | inl still => exact second k still
  | inr held =>
    obtain ⟨v, found⟩ := lookup_of_member d.cache k held
    exact .inr (member_of_lookup e.cache k v (later.kept k v found))

theorem spares_trans (lost : Key → Prop) (later : Later after d last e)
    (first : Whole path c after d) (second : Spares lost after d last e) :
    Spares lost path c last e := by
  intro k opened
  cases first k opened with
  | inl still => exact second k still
  | inr held =>
    obtain ⟨v, found⟩ := lookup_of_member d.cache k held
    exact .inr (.inl (member_of_lookup e.cache k v (later.kept k v found)))

variable {m : Memory} {formulas : KeyMap Compiled} {marks : List Key}

theorem final_later (later : Later path c after d) (k : Key)
    (final : Final formulas marks path c k) : Final formulas marks after d k :=
  fun unmarked opened => final unmarked (later.opened k opened)

theorem cache_later (later : Later path c after d) (k : Key) (closed : ¬Open path c k) :
    d.cache[k]? = c.cache[k]? := by
  cases held : c.cache[k]? with
  | some v => exact later.kept k v held
  | none =>
    cases found : d.cache[k]? with
    | none => rfl
    | some v =>
      cases later.fresh k (member_of_lookup d.cache k v found) with
      | inl before => simp [Std.ExtTreeMap.mem_iff_isSome_getElem?, held] at before
      | inr opened => exact absurd opened closed

theorem seen_later (later : Later path c after d) (k : Key)
    (final : Final formulas marks path c k) :
    seen m formulas marks d k = seen m formulas marks c k := by
  unfold seen
  by_cases marked : Marked formulas marks k
  · rw [if_pos marked, if_pos marked]
  · rw [if_neg marked, if_neg marked, cache_later later k (final marked)]

end Later

-- A kept result that is the value of its formula, read off cells that are final and, so far as
-- they are not circular, have grounded results themselves.
inductive Grounded (m : Memory) (formulas : KeyMap Compiled) (marks : List Key) (path : Path)
    (c : Context σ) : Key → Prop where
  | reading (k : Key) (f : Compiled) (read : Key → Prop) (known : formulas[k]? = some f)
      (course : (f.evaluate k.sheet).Within
        (fun q => .ok (m.answerFrom (seen m formulas marks c) q)) fun q => ∀ p ∈ m.asked q, read p)
      (kept : c.cache[k]? =
        some ((f.evaluate k.sheet).value (m.answerFrom (seen m formulas marks c))))
      (refers : ∀ p, read p → m.Refers formulas k p)
      (final : ∀ p, read p → Final formulas marks path c p)
      (deeper : ∀ p, read p → p ∈ c.cache → p ∉ c.cyclic →
        Grounded m formulas marks path c p) : Grounded m formulas marks path c k

-- The path of an evaluation: unmarked formulas, each of which refers to the one further in.
structure Way (m : Memory) (formulas : KeyMap Compiled) (marks : List Key) (path : Path) :
    Prop where
  apart : path.cells.Nodup
  known : ∀ k ∈ path.cells, k ∈ formulas ∧ k ∉ marks
  chain : path.cells.IsChain fun inner outer => m.Refers formulas outer inner

-- No path of an evaluation is longer than the nesting allows.
def Shallow (m : Memory) (formulas : KeyMap Compiled) (marks : List Key) : Prop :=
  ∀ path, Way m formulas marks path → path.depth ≤ maxNesting

-- A context in the middle of evaluations, with the formulas of a path under way.
structure Sound (m : Memory) (formulas : KeyMap Compiled) (marks : List Key)
    (invariant : σ → Prop) (path : Path) (c : Context σ) : Prop where
  store : invariant c.store
  known : c.formulas = formulas
  names : Faithful m formulas c.sheets
  pending : ∀ k ∈ c.pending, k ∈ formulas ∧ k ∉ c.cache ∧ k ∉ path.cells
  cached : ∀ (k : Key) (v : Value), c.cache[k]? = some v → k ∈ formulas ∧ k ∉ path.cells ∧
    (k ∈ c.cyclic → v = circular) ∧ (k ∉ c.cyclic → Grounded m formulas marks path c k)
  marked : ∀ k ∈ marks, k ∈ c.cyclic ∧ (k ∈ formulas → k ∈ c.pending ∨ k ∈ c.cache)
  -- From every cell found circular, one more reference leads to another one and back.
  circles : ∀ k ∈ c.cyclic, k ∈ marks ∨ ∃ p ∈ c.cyclic, m.Refers formulas k p ∧
    m.LeadsTo formulas p k

section Sound

variable {m : Memory} {formulas : KeyMap Compiled} {marks : List Key} {invariant : σ → Prop}
  {path after : Path} {c d : Context σ}

-- What was read off final cells stays grounded, as far as these cells do.
theorem grounded_of_read (sound : Sound m formulas marks invariant path c)
    (later : Later path c after d) (k : Key) (f : Compiled) (read : Key → Prop)
    (known : formulas[k]? = some f)
    (course : (f.evaluate k.sheet).Within
      (fun q => .ok (m.answerFrom (seen m formulas marks c) q)) fun q => ∀ p ∈ m.asked q, read p)
    (kept : d.cache[k]? =
      some ((f.evaluate k.sheet).value (m.answerFrom (seen m formulas marks c))))
    (refers : ∀ p, read p → m.Refers formulas k p)
    (final : ∀ p, read p → Final formulas marks path c p)
    (deeper : ∀ p, read p → p ∈ c.cache → p ∉ c.cyclic → Grounded m formulas marks after d p) :
    Grounded m formulas marks after d k := by
  have agree (q : Query) (among : ∀ p ∈ m.asked q, read p) :
      m.answerFrom (seen m formulas marks c) q = m.answerFrom (seen m formulas marks d) q :=
    m.answer_from_congr _ _ q fun p member => (seen_later later p (final p (among p member))).symm
  refine .reading k f read known ?_ ?_ refers (fun p near => final_later later p (final p near))
    fun p near held free => ?_
  · exact Reading.within_agree _ _ _ _ course fun q among => congrArg Except.ok (agree q among)
  · rw [Reading.value_agree _ _ _ _ course agree]
    exact kept
  · have loose : p ∉ c.cyclic := fun member => free (later.cyclic p member)
    have unmarked : ¬Marked formulas marks p := fun marked => loose (sound.marked p marked.2).1
    cases later.fresh p held with
    | inl before => exact deeper p near before loose
    | inr opened => exact absurd opened (final p near unmarked)

theorem grounded_later (sound : Sound m formulas marks invariant path c)
    (later : Later path c after d) (k : Key) (grounded : Grounded m formulas marks path c k) :
    Grounded m formulas marks after d k := by
  induction grounded with
  | reading k f read known course kept refers final deeper ih =>
    exact grounded_of_read sound later k f read known course (later.kept k _ kept) refers final ih

theorem sound_kept (sound : Sound m formulas marks invariant path c)
    (store : σ) (looked : Looked) (holds : invariant store)
    (faithful : Faithful m formulas looked) :
    Sound m formulas marks invariant path { c with store, sheets := looked } where
  store := holds
  known := sound.known
  names := faithful
  pending := sound.pending
  cached k v held := by
    have later : Later path c path { c with store, sheets := looked } :=
      later_same rfl rfl fun _ member => member
    obtain ⟨known, off, looping, loose⟩ := sound.cached k v held
    exact ⟨known, off, looping, fun free => grounded_later sound later k (loose free)⟩
  marked := sound.marked
  circles := sound.circles

theorem cached_of_mem (sound : Sound m formulas marks invariant path c) (k : Key)
    (held : k ∈ c.cache) : k ∈ formulas ∧ k ∉ path.cells ∧
      (k ∉ c.cyclic → Grounded m formulas marks path c k) := by
  obtain ⟨v, found⟩ := lookup_of_member c.cache k held
  obtain ⟨known, off, _, loose⟩ := sound.cached k v found
  exact ⟨known, off, loose⟩

-- One more result, and nothing else about the results, on a path that has become no longer.
theorem cached_insert (sound : Sound m formulas marks invariant path c)
    (later : Later path c after d) (k : Key) (v : Value) (cache : d.cache = c.cache.insert k v)
    (cyclic : d.cyclic = c.cyclic) (inside : ∀ p ∈ after.cells, p ∈ path.cells)
    (known : k ∈ formulas) (off : k ∉ after.cells) (looping : k ∈ d.cyclic → v = circular)
    (loose : k ∉ d.cyclic → Grounded m formulas marks after d k) (p : Key) (w : Value)
    (held : d.cache[p]? = some w) : p ∈ formulas ∧ p ∉ after.cells ∧
      (p ∈ d.cyclic → w = circular) ∧ (p ∉ d.cyclic → Grounded m formulas marks after d p) := by
  rw [cache, lookup_insert] at held
  by_cases here : k = p
  · subst here
    rw [if_pos rfl] at held
    obtain rfl : v = w := Option.some.inj held
    exact ⟨known, off, looping, loose⟩
  · rw [if_neg here] at held
    obtain ⟨among, outside, circled, free⟩ := sound.cached p w held
    refine ⟨among, fun member => outside (inside p member), ?_, ?_⟩
    · rw [cyclic]
      exact circled
    · rw [cyclic]
      exact fun apart => grounded_later sound later p (free apart)

section Looped

variable (sound : Sound m formulas marks invariant path c) (k : Key) (waiting : k ∈ c.pending)
include sound waiting

theorem later_looped : Later path c path
    (Context.remember { c with pending := c.pending.erase k } k circular) where
  kept p v held := by
    have apart : k ≠ p := by
      rintro rfl
      exact (sound.pending k waiting).2.1 (member_of_lookup c.cache k v held)
    rw [remember, lookup_insert, if_neg apart]
    exact held
  fresh p held := by
    cases (member_insert_key c.cache k p circular).mp held with
    | inl here => exact .inr (.inl (here ▸ waiting))
    | inr before => exact .inl before
  opened p opened := opened.imp_left fun member => ((member_erase _ k p).mp member).2
  cyclic _ member := member

theorem sound_looped (cyclic : k ∈ c.cyclic) : Sound m formulas marks invariant path
    (Context.remember { c with pending := c.pending.erase k } k circular) where
  store := sound.store
  known := sound.known
  names := sound.names
  pending p member := by
    obtain ⟨apart, among⟩ := (member_erase _ k p).mp member
    obtain ⟨known, fresh, off⟩ := sound.pending p among
    refine ⟨known, fun held => ?_, off⟩
    cases (member_insert_key c.cache k p circular).mp held with
    | inl here => exact apart here.symm
    | inr before => exact fresh before
  cached := cached_insert sound (later_looped sound k waiting) k circular rfl rfl
    (fun _ member => member) (sound.pending k waiting).1 (sound.pending k waiting).2.2
    (fun _ => rfl) fun free => absurd cyclic free
  marked p member := by
    refine ⟨(sound.marked p member).1, fun known => ?_⟩
    by_cases here : p = k
    · subst here
      exact .inr (by simp [remember])
    · cases (sound.marked p member).2 known with
      | inl due => exact .inl ((member_erase _ k p).mpr ⟨here, due⟩)
      | inr held => exact .inr (by simp [remember, held])
  circles := sound.circles

omit sound in
theorem later_begun : Later path c (path.push k) { c with pending := c.pending.erase k } where
  kept _ _ held := held
  fresh _ held := .inl held
  opened p opened := by
    cases opened with
    | inl member => exact .inl ((member_erase _ k p).mp member).2
    | inr inside =>
      cases List.mem_cons.mp inside with
      | inl here => exact .inl (here ▸ waiting)
      | inr deeper => exact .inr deeper
  cyclic _ member := member

theorem sound_begun (free : k ∉ c.cyclic) : Sound m formulas marks invariant (path.push k)
    { c with pending := c.pending.erase k } where
  store := sound.store
  known := sound.known
  names := sound.names
  pending p member := by
    obtain ⟨apart, among⟩ := (member_erase _ k p).mp member
    obtain ⟨known, fresh, off⟩ := sound.pending p among
    refine ⟨known, fresh, fun inside => ?_⟩
    cases List.mem_cons.mp inside with
    | inl here => exact apart here
    | inr deeper => exact off deeper
  cached p v held := by
    obtain ⟨known, off, looping, loose⟩ := sound.cached p v held
    refine ⟨known, fun inside => ?_, looping, fun apart =>
      grounded_later sound (later_begun k waiting) p (loose apart)⟩
    cases List.mem_cons.mp inside with
    | inl here =>
      exact (sound.pending k waiting).2.1 (here ▸ member_of_lookup c.cache p v held)
    | inr deeper => exact off deeper
  marked p member := by
    refine ⟨(sound.marked p member).1, fun known => ?_⟩
    have apart : p ≠ k := fun here => free (here ▸ (sound.marked p member).1)
    exact ((sound.marked p member).2 known).imp_left fun due =>
      (member_erase _ k p).mpr ⟨apart, due⟩
  circles := sound.circles

end Looped

section Ended

variable (k : Key) (sound : Sound m formulas marks invariant (path.push k) c)
include sound

theorem uncached_of_push : k ∉ c.cache := fun held =>
  (cached_of_mem sound k held).2.1 List.mem_cons_self

theorem later_remembered (v : Value) : Later (path.push k) c path (c.remember k v) where
  kept p w held := by
    have apart : k ≠ p := by
      rintro rfl
      exact uncached_of_push k sound (member_of_lookup c.cache k w held)
    rw [remember, lookup_insert, if_neg apart]
    exact held
  fresh p held := by
    cases (member_insert_key c.cache k p v).mp held with
    | inl here => exact .inr (.inr (here ▸ List.mem_cons_self))
    | inr before => exact .inl before
  opened p opened := opened.imp_right fun inside => List.mem_cons_of_mem k inside
  cyclic _ member := member

theorem grounded_remembered (f : Compiled) (known : formulas[k]? = some f)
    (course : (f.evaluate k.sheet).Within (fun q => .ok (m.answerFrom (seen m formulas marks c) q))
      fun q => ∀ p ∈ m.asked q, m.Refers formulas k p ∧ Final formulas marks (path.push k) c p) :
    Grounded m formulas marks path (c.remember k
      ((f.evaluate k.sheet).value (m.answerFrom (seen m formulas marks c)))) k := by
  let v := (f.evaluate k.sheet).value (m.answerFrom (seen m formulas marks c))
  have later : Later (path.push k) c path (c.remember k v) := later_remembered k sound v
  apply grounded_of_read sound later k f
    (fun p => m.Refers formulas k p ∧ Final formulas marks (path.push k) c p) known course
  · simp [remember, v]
  · exact fun p near => near.1
  · exact fun p near => near.2
  · intro p _ held loose
    exact grounded_later sound later p ((cached_of_mem sound p held).2.2 loose)

theorem sound_remembered (v : Value) (known : k ∈ formulas) (off : k ∉ path.cells)
    (looping : k ∈ c.cyclic → v = circular)
    (loose : k ∉ c.cyclic → Grounded m formulas marks path (c.remember k v) k) :
    Sound m formulas marks invariant path (c.remember k v) where
  store := sound.store
  known := sound.known
  names := sound.names
  pending p member := by
    obtain ⟨known, fresh, outside⟩ := sound.pending p member
    refine ⟨known, fun held => ?_, fun inside => outside (List.mem_cons_of_mem k inside)⟩
    cases (member_insert_key c.cache k p v).mp held with
    | inl here => exact outside (here ▸ List.mem_cons_self)
    | inr before => exact fresh before
  cached := cached_insert sound (later_remembered k sound v) k v rfl rfl
    (fun _ inside => List.mem_cons_of_mem k inside) known off looping loose
  marked p member := by
    refine ⟨(sound.marked p member).1, fun known => ?_⟩
    exact ((sound.marked p member).2 known).imp_right fun held => by simp [remember, held]
  circles := sound.circles

omit sound in
theorem later_broken : Later (path.push k) c path c where
  kept _ _ held := held
  fresh _ held := .inl held
  opened _ opened := opened.imp_right fun inside => List.mem_cons_of_mem k inside
  cyclic _ member := member

theorem sound_broken : Sound m formulas marks invariant path c :=
  { sound with
    pending := fun p member => by
      obtain ⟨known, fresh, outside⟩ := sound.pending p member
      exact ⟨known, fresh, fun inside => outside (List.mem_cons_of_mem k inside)⟩
    cached := fun p v held => by
      obtain ⟨known, outside, looping, loose⟩ := sound.cached p v held
      exact ⟨known, fun inside => outside (List.mem_cons_of_mem k inside), looping, fun free =>
        grounded_later sound (later_broken k) p (loose free)⟩ }

end Ended

theorem shallow_of_size (small : formulas.size ≤ maxNesting) : Shallow m formulas marks := by
  intro path way
  have listed : path.cells ⊆ formulas.keys := fun k inside =>
    Std.ExtTreeMap.mem_keys.mpr (way.known k inside).1
  exact (way.apart.length_le_of_subset listed).trans (by simpa using small)

theorem sound_start (s : σ) (holds : invariant s) : Sound m formulas marks invariant .root
    ((ofFormulas s formulas).markCyclic marks) where
  store := holds
  known := rfl
  names home name found? named listed := by simp [ofFormulas, markCyclic] at listed
  pending k due := by
    refine ⟨?_, by simp [ofFormulas, markCyclic], by simp [Path.root]⟩
    simpa [ofFormulas, markCyclic] using due
  cached k v held := by simp [ofFormulas, markCyclic] at held
  marked k member := by
    refine ⟨(member_insert_all marks _ k).mpr (.inl member), fun known => .inl ?_⟩
    simpa [ofFormulas, markCyclic] using known
  circles k member := by
    cases (member_insert_all marks _ k).mp member with
    | inl given => exact .inl given
    | inr none => simp [ofFormulas] at none

theorem open_start (marks : List Key) (s : σ) (k : Key) (known : k ∈ formulas) :
    Open .root ((ofFormulas s formulas).markCyclic marks) k := by
  refine .inl ?_
  simpa [ofFormulas, markCyclic] using known

theorem open_begun (k p : Key) (apart : p ≠ k) (opened : Open path c p) :
    Open (path.push k) { c with pending := c.pending.erase k } p := by
  cases opened with
  | inl due => exact .inl ((member_erase _ k p).mpr ⟨apart, due⟩)
  | inr inside => exact .inr (List.mem_cons_of_mem k inside)

theorem open_outside (k p : Key) (apart : p ≠ k) (opened : Open (path.push k) c p) :
    Open path c p :=
  opened.imp_right fun inside => (List.mem_cons.mp inside).resolve_left apart

theorem way_push (way : Way m formulas marks path) (k : Key) (known : k ∈ formulas)
    (unmarked : k ∉ marks) (off : k ∉ path.cells)
    (next : ∀ h ∈ path.current?, m.Refers formulas h k) :
    Way m formulas marks (path.push k) where
  apart := List.nodup_cons.mpr ⟨off, way.apart⟩
  known p inside := by
    cases List.mem_cons.mp inside with
    | inl here => exact here ▸ ⟨known, unmarked⟩
    | inr deeper => exact way.known p deeper
  chain := List.isChain_cons.mpr ⟨next, way.chain⟩

section Circles

variable (k : Key) (inside : k ∈ path.cells)
include inside

theorem back_to_split : ∃ front, path.backTo k = front ++ [k] ∧ path.backTo k <+: path.cells := by
  obtain ⟨front, rest, split, fresh⟩ := List.eq_append_cons_of_mem inside
  have others : ∀ p ∈ front, (decide (p ≠ k)) = true := fun p member =>
    decide_eq_true fun same => fresh (same ▸ member)
  have back : path.backTo k = front ++ [k] := by
    unfold Path.backTo
    rw [if_pos inside, split, List.takeWhile_append_of_pos others,
      List.takeWhile_cons_of_neg (by simp)]
    simp
  refine ⟨front, back, rest, ?_⟩
  rw [back, split, List.append_assoc]
  rfl

theorem circled (way : Way m formulas marks path)
    (next : ∀ h ∈ path.current?, m.Refers formulas h k) :
    (∀ h ∈ path.current?, h ∈ path.backTo k) ∧ ∀ x ∈ path.backTo k, ∃ y ∈ path.backTo k,
      m.Refers formulas x y ∧ m.LeadsTo formulas y x := by
  obtain ⟨front, split, before⟩ := back_to_split k inside
  cases listed : path.backTo k with
  | nil => simp [split] at listed
  | cons first rest =>
    rw [listed] at split before
    obtain ⟨others, whole⟩ := before
    have head : path.current? = some first := by simp [Path.current?, ← whole]
    have linked : (first :: rest).IsChain fun inner outer => m.Refers formulas outer inner := by
      have chain := way.chain
      rw [← whole] at chain
      exact (List.isChain_append.mp chain).1
    refine ⟨fun h same => ?_, ?_⟩
    · rw [head] at same
      simp [Option.some.inj same]
    · exact runs_round first rest front k split linked (next first head)

omit inside in
theorem later_circled : Later path c path (c.markCyclic (path.backTo k)) :=
  later_same rfl rfl fun p member => (member_insert_all _ c.cyclic p).mpr (.inr member)

theorem sound_circled (sound : Sound m formulas marks invariant path c)
    (way : Way m formulas marks path) (next : ∀ h ∈ path.current?, m.Refers formulas h k) :
    Sound m formulas marks invariant path (c.markCyclic (path.backTo k)) := by
  have later : Later path c path (c.markCyclic (path.backTo k)) := later_circled k
  have parted (p : Key) (member : p ∈ (c.markCyclic (path.backTo k)).cyclic) :
      p ∈ path.backTo k ∨ p ∈ c.cyclic := (member_insert_all _ c.cyclic p).mp member
  refine { sound with cached := ?_, marked := ?_, circles := ?_ }
  · intro p v held
    obtain ⟨known, off, looping, loose⟩ := sound.cached p v held
    refine ⟨known, off, fun member => ?_, fun free => ?_⟩
    · cases parted p member with
      | inl round =>
        obtain ⟨_, _, before⟩ := back_to_split k inside
        exact absurd (before.subset round) off
      | inr old => exact looping old
    · exact grounded_later sound later p (loose fun old => free (later.cyclic p old))
  · intro p member
    obtain ⟨cyclic, known⟩ := sound.marked p member
    exact ⟨later.cyclic p cyclic, known⟩
  · intro p member
    cases parted p member with
    | inl round =>
      obtain ⟨y, among, edge, back⟩ := (circled k inside way next).2 p round
      exact .inr ⟨y, (member_insert_all _ c.cyclic y).mpr (.inl among), edge, back⟩
    | inr old =>
      refine (sound.circles p old).imp_right fun found => ?_
      obtain ⟨y, among, edge, back⟩ := found
      exact ⟨y, later.cyclic y among, edge, back⟩

end Circles

end Sound

end Context

end Spreadsheet
