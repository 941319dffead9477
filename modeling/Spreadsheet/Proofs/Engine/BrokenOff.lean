import Spreadsheet.Proofs.Engine.AnyOrder

-- Contexts whose store has failed and recovered. A failed read breaks off the evaluations under
-- way, and their formulas are not evaluated any more: from then on they count as what is stored
-- for them. Other formulas have the value that a fresh context gives to them.

set_option autoImplicit false

namespace Spreadsheet

open Formula

namespace Context

section Definitions

variable {σ : Type}

-- A formula whose evaluation has begun and left no result.
def brokenOff (c : Context σ) (k : Key) : Bool := k ∈ c.formulas && k ∉ c.pending && k ∉ c.cache

-- The formulas that are still evaluated.
def intact (c : Context σ) : KeyMap Compiled := c.formulas.filter fun k _ => !c.brokenOff k

-- The context after some calls, whether they fail or not.
def attempted [CellStore σ] (c : Context σ) (calls : List Key) : Context σ :=
  calls.foldl (fun c k => ((evaluate k).run.run c).2) c

end Definitions

-- What the reads of a store keep, calls of evaluations keep.
theorem attempted_keeps (invariant : Faulty → Prop)
    (counts : ∀ s, invariant s → invariant s.counted) (c : Context Faulty)
    (holds : invariant c.store) (calls : List Key) :
    invariant (c.attempted calls).store := by
  induction calls generalizing c with
  | nil => exact holds
  | cons k rest ih =>
    have kept := evaluate_keeps invariant (Faulty.reads_keep invariant counts) c.formulas k c
      ⟨rfl, holds⟩
    exact ih _ kept.2

section Fewer

variable {m : Memory} {formulas fewer : KeyMap Compiled} {marks : List Key}
  (among : ∀ (k : Key) (f : Compiled), fewer[k]? = some f → formulas[k]? = some f)
include among

theorem refers_among (k p : Key) (edge : m.Refers fewer k p) : m.Refers formulas k p := by
  obtain ⟨f, known, covered⟩ := edge
  exact ⟨f, among k f known, covered⟩

theorem shallow_among (shallow : Shallow m formulas marks) : Shallow m fewer marks := by
  intro path way
  refine shallow path ⟨way.apart, fun k inside => ?_, way.chain.imp fun _ _ =>
    refers_among among _ _⟩
  obtain ⟨known, unmarked⟩ := way.known k inside
  obtain ⟨f, found⟩ := lookup_of_member fewer k known
  exact ⟨member_of_lookup formulas k f (among k f found), unmarked⟩

theorem names_agree_among (agree : NamesAgree m formulas) : NamesAgree m fewer := by
  have named (home : SheetId) (name : String) (used : Named fewer home name) :
      Named formulas home name := by
    obtain ⟨k, f, known, rest⟩ := used
    exact ⟨k, f, among k f known, rest⟩
  exact fun home name other one two => agree home name other (named home name one)
    (named home other two)

end Fewer

section Attempted

variable {m : Memory} {formulas : KeyMap Compiled} {s : Faulty}

theorem attempted_concat (c : Context Faulty) (calls : List Key) (k : Key) :
    c.attempted (calls ++ [k]) = ((evaluate k).run.run (c.attempted calls)).2 := by
  rw [attempted, List.foldl_append]
  rfl

-- A call that failed, and that relied on the cell `p`.
def Culprit (formulas : KeyMap Compiled) (s : Faulty) (calls : List Key) (p : Key) : Prop :=
  ∃ before k after error d, calls = before ++ k :: after ∧
    (evaluate k).Fails ((ofFormulas s formulas).attempted before) error d ∧
      s.memory.LeadsTo formulas k p

theorem culprit_concat (calls : List Key) (p k : Key) (culprit : Culprit formulas s calls p) :
    Culprit formulas s (calls ++ [k]) p := by
  obtain ⟨before, first, after, error, d, rfl, failed, leads⟩ := culprit
  exact ⟨before, first, after ++ [k], error, d, by simp, failed, leads⟩

variable (agree : NamesAgree s.memory formulas) (shallow : Shallow s.memory formulas [])
include agree shallow

theorem attempted_sound (calls : List Key) :
    Sound s.memory formulas [] (fun t : Faulty => t.memory = s.memory) .root
        ((ofFormulas s formulas).attempted calls) ∧
      ∀ p ∈ formulas, ¬Open .root ((ofFormulas s formulas).attempted calls) p →
        p ∉ ((ofFormulas s formulas).attempted calls).cache → Culprit formulas s calls p := by
  induction calls using List.reverseRecOn with
  | nil =>
    refine ⟨sound_start s rfl, fun p known closed => absurd (.inl ?_) closed⟩
    simpa [attempted, ofFormulas] using known
  | append_singleton calls k ih =>
    obtain ⟨sound, culprits⟩ := ih
    have reached := evaluate_reaches (Faulty.truthful s.memory) agree shallow sound k
    rw [attempted_concat]
    unfold Attempt.Ends at reached
    cases ran : (evaluate k).run.run ((ofFormulas s formulas).attempted calls) with
    | mk result d =>
      rw [ran] at reached
      -- What is broken off now was before, or the call has failed.
      have earlier (later : Later .root ((ofFormulas s formulas).attempted calls) .root d) (p : Key)
          (known : p ∈ formulas) (fresh : p ∉ d.cache)
          (closed : ¬Open .root ((ofFormulas s formulas).attempted calls) p) :
          Culprit formulas s (calls ++ [k]) p := by
        apply culprit_concat calls p k (culprits p known closed fun held => ?_)
        obtain ⟨v, found⟩ := lookup_of_member _ p held
        exact fresh (member_of_lookup d.cache p v (later.kept p v found))
      cases result with
      | ok v =>
        obtain ⟨after, later, whole, _⟩ := reached
        refine ⟨after, fun p known closed fresh => earlier later p known fresh fun opened => ?_⟩
        cases whole p opened with
        | inl still => exact closed still
        | inr held => exact fresh held
      | error error =>
        obtain ⟨after, later, spares, _⟩ := reached
        refine ⟨after, fun p known closed fresh => ?_⟩
        by_cases opened : Open .root ((ofFormulas s formulas).attempted calls) p
        · have leads := ((spares p opened).resolve_left closed).resolve_left fresh
          exact ⟨calls, k, [], error, d, rfl, ran, leads⟩
        · exact earlier later p known fresh opened

end Attempted

section Intact

variable {m : Memory} {formulas : KeyMap Compiled} {invariant : Faulty → Prop} {c : Context Faulty}
  (sound : Sound m formulas [] invariant .root c)
include sound

theorem broken_off_iff (k : Key) : c.brokenOff k = true ↔
    k ∈ formulas ∧ ¬Open .root c k ∧ k ∉ c.cache := by
  simp [brokenOff, sound.known, Open, Path.root, and_assoc]

theorem lookup_intact (k : Key) :
    c.intact[k]? = if c.brokenOff k = true then none else formulas[k]? := by
  rw [intact, sound.known, Std.ExtTreeMap.getElem?_filter']
  cases formulas[k]? with
  | none => simp
  | some f => cases c.brokenOff k <;> rfl

theorem intact_among (k : Key) (f : Compiled) (known : c.intact[k]? = some f) :
    formulas[k]? = some f := by
  rw [lookup_intact sound] at known
  split at known
  · cases known
  · exact known

theorem mem_intact (k : Key) : k ∈ c.intact ↔ k ∈ formulas ∧ ¬c.brokenOff k = true := by
  simp only [Std.ExtTreeMap.mem_iff_isSome_getElem?, lookup_intact sound]
  split <;> simp_all

section Retry

variable {later : Faulty → Prop} {d e : Context Faulty}
  (onward : Later .root c .root d) (whole : Whole .root c .root d)
include onward whole

-- A formula is evaluated after the recovery exactly if it was not broken off before.
theorem cached_after (k : Key) (known : k ∈ formulas) (closed : ¬Open .root d k) :
    k ∈ d.cache ↔ ¬c.brokenOff k = true := by
  rw [broken_off_iff sound]
  constructor
  · intro held broken
    cases onward.fresh k held with
    | inl before => exact broken.2.2 before
    | inr opened => exact broken.2.1 opened
  · intro spared
    by_cases opened : Open .root c k
    · exact (whole k opened).resolve_left closed
    · by_cases held : k ∈ c.cache
      · obtain ⟨v, found⟩ := lookup_of_member c.cache k held
        exact member_of_lookup d.cache k v (onward.kept k v found)
      · exact absurd ⟨known, opened, held⟩ spared

end Retry

end Intact

abbrev Healthy (m : Memory) (s : Faulty) : Prop := s.memory = m ∧ s.Recovered

section Fresh

variable {m : Memory} {formulas fewer : KeyMap Compiled} {c e : Context Faulty}

theorem quiet_of_acyclic {invariant : Faulty → Prop} (sound : Sound m fewer [] invariant .root c)
    (among : ∀ (k : Key) (f : Compiled), fewer[k]? = some f → formulas[k]? = some f)
    (acyclic : ∀ k, ¬m.ReliesOn formulas k k) : ∀ k ∈ c.cyclic, k ∈ ([] : List Key) := by
  intro k cyclic
  have round := (relies_of_cyclic sound k cyclic).resolve_left List.not_mem_nil
  exact absurd (Relation.TransGen.mono (refers_among among) k k round) (acyclic k)

theorem fresh_returns (agree : NamesAgree m fewer) (shallow : Shallow m fewer []) (s : Faulty)
    (healthy : Healthy m s) (k : Key) :
    ∃ e, (evaluate k).Returns (ofFormulas s fewer) (seen m fewer [] e k) e ∧
      Sound m fewer [] (Healthy m) .root e ∧ Final fewer [] .root e k ∧
        ∀ p, ¬Open .root e p → (p ∈ e.cache ↔ p ∈ fewer) := by
  have begun : Sound m fewer [] (Healthy m) .root (ofFormulas s fewer) := sound_start s healthy
  obtain ⟨e, returned, sound, _, whole, final⟩ :=
    evaluate_returns (Faulty.recovered_truthful m) agree shallow begun k
  refine ⟨e, returned, sound, final, fun p closed => ?_⟩
  constructor
  · exact fun held => (cached_of_mem sound p held).1
  · exact fun known => (whole p (open_start [] s p known)).resolve_left closed

end Fresh

section Compared

variable {m : Memory} {formulas : KeyMap Compiled} {before later : Faulty → Prop}
  {c d e : Context Faulty} (sound : Sound m formulas [] before .root c)
  (after : Sound m formulas [] later .root d) (acyclic : ∀ k, ¬m.ReliesOn formulas k k)
  (onward : Later .root c .root d) (whole : Whole .root c .root d)
include sound after acyclic onward whole

-- After the recovery, and in a fresh context without the formulas that were broken off.
theorem alike_intact (right : Sound m c.intact [] (Healthy m) .root e)
    (results : ∀ p, ¬Open .root e p → (p ∈ e.cache ↔ p ∈ c.intact)) :
    Alike m formulas c.intact [] (fun _ => True) d e where
  closed _ _ _ _ := trivial
  marked _ _ := by simp
  results p _ _ closed shut := by
    rw [results p shut, mem_intact sound]
    constructor
    · intro held
      have known := (cached_of_mem after p held).1
      exact ⟨known, (cached_after sound onward whole p known closed).mp held⟩
    · intro both
      exact (cached_after sound onward whole p both.1 closed).mpr both.2
  formulas p _ held := by
    have spared := ((mem_intact sound p).mp (cached_of_mem right p held).1).2
    rw [lookup_intact sound, if_neg spared]
  quiet := quiet_of_acyclic after (fun _ _ known => known) acyclic
  silent := quiet_of_acyclic right (intact_among sound) acyclic

-- The same with all formulas, as seen from a cell that relies on none of those broken off.
theorem alike_spared (k : Key) (right : Sound m formulas [] (Healthy m) .root e)
    (results : ∀ p, ¬Open .root e p → (p ∈ e.cache ↔ p ∈ formulas))
    (untouched : ∀ p, c.brokenOff p = true → ¬m.LeadsTo formulas k p) :
    Alike m formulas formulas [] (m.LeadsTo formulas k) d e where
  closed _ _ leads edge := leads.tail edge
  marked _ _ := Iff.rfl
  results p leads _ closed shut := by
    rw [results p shut]
    constructor
    · exact fun held => (cached_of_mem after p held).1
    · intro known
      have spared : ¬c.brokenOff p = true := fun broken => untouched p broken leads
      exact (cached_after sound onward whole p known closed).mpr spared
  formulas _ _ _ := rfl
  quiet := quiet_of_acyclic after (fun _ _ known => known) acyclic
  silent := quiet_of_acyclic right (fun _ _ known => known) acyclic

end Compared

-- Calls after the store has recovered. The value of a cell is the one that a fresh context gives
-- with the formulas that were not broken off, and with all formulas if the cell relies on none of
-- the others. Whatever was broken off, a call that failed had relied on it.
theorem evaluated_after_recovery (s : Faulty) (formulas : KeyMap Compiled)
    (small : formulas.size ≤ maxNesting) (acyclic : ∀ k, ¬s.memory.ReliesOn formulas k k)
    (agree : NamesAgree s.memory formulas) (calls : List Key)
    (recovered : ((ofFormulas s formulas).attempted calls).store.Recovered) :
    let start := ofFormulas s formulas
    let c := start.attempted calls
    (∀ k, ∃ v d, (evaluate k).Returns c v d ∧
        (∃ e, (evaluate k).Returns (ofFormulas c.store c.intact) v e) ∧
          ((∀ p, c.brokenOff p = true → ¬s.memory.LeadsTo formulas k p) →
            ∃ e, (evaluate k).Returns (ofFormulas c.store formulas) v e)) ∧
      ∀ p, c.brokenOff p = true → ∃ before k after error d, calls = before ++ k :: after ∧
        (evaluate k).Fails (start.attempted before) error d ∧ s.memory.LeadsTo formulas k p := by
  intro start c
  have shallow : Shallow s.memory formulas [] := shallow_of_size small
  obtain ⟨sound, culprits⟩ := attempted_sound agree shallow calls
  refine ⟨fun k => ?_, fun p broken => ?_⟩
  · have healthy : Healthy s.memory c.store := ⟨sound.store, recovered⟩
    have steady : Sound s.memory formulas [] (Healthy s.memory) .root c :=
      { sound with store := healthy }
    obtain ⟨d, returned, after, onward, whole, final⟩ :=
      evaluate_returns (Faulty.recovered_truthful s.memory) agree shallow steady k
    refine ⟨_, d, returned, ?_, fun untouched => ?_⟩
    · have among := intact_among sound
      obtain ⟨e, fresh, right, ended, results⟩ := fresh_returns (names_agree_among among agree)
        (shallow_among among shallow) c.store healthy k
      have alike := alike_intact sound after acyclic onward whole right results
      rw [seen_agree _ alike after right k trivial final ended]
      exact ⟨e, fresh⟩
    · obtain ⟨e, fresh, right, ended, results⟩ := fresh_returns agree shallow c.store healthy k
      have alike := alike_spared sound after acyclic onward whole k right results untouched
      rw [seen_agree _ alike after right k .refl final ended]
      exact ⟨e, fresh⟩
  · obtain ⟨known, closed, fresh⟩ := (broken_off_iff sound p).mp broken
    exact culprits p known closed fresh

-- A store that refuses its first call only.
def refusingFirst (m : Memory) : Faulty :=
  ⟨m, 0, fun n _ => if n = 0 then some (.unavailable "first call") else none⟩

theorem recovered_of_called (m : Memory) (available : m.available = true)
    (formulas : KeyMap Compiled) (calls : List Key)
    (called : 0 < ((ofFormulas (refusingFirst m) formulas).attempted calls).store.calls) :
    ((ofFormulas (refusingFirst m) formulas).attempted calls).store.Recovered := by
  obtain ⟨memory, fault⟩ := attempted_keeps
    (fun t => t.memory = m ∧ t.fault = (refusingFirst m).fault) (fun _ kept => kept)
    (ofFormulas (refusingFirst m) formulas) ⟨rfl, rfl⟩ calls
  refine ⟨by rw [memory, available], fun n later call => ?_⟩
  rw [fault]
  exact if_neg (Nat.ne_of_gt (Nat.lt_of_lt_of_le called later))

-- Two formulas, one of which is broken off by the read that fails.
theorem evaluated_after_recovery_of_first_call :
    let a : Key := ⟨⟨1⟩, ⟨1, 1⟩⟩
    let b : Key := ⟨⟨1⟩, ⟨1, 2⟩⟩
    let d : Key := ⟨⟨1⟩, ⟨1, 4⟩⟩
    let m : Memory := (⟨[⟨⟨1⟩, ⟨1⟩, "Main"⟩], ∅, true⟩ : Memory).put a (.literal (.text "left"))
    let formulas := ((∅ : KeyMap Compiled).insert b (.ofSource .empty "=A1&\"x\"")).insert d
      (.ofSource .empty "=A1")
    let start := ofFormulas (refusingFirst m) formulas
    let c := start.attempted [b]
    (∀ k, ¬m.ReliesOn formulas k k) ∧ c.store.Recovered ∧
      (∀ k, ∃ v e, (evaluate k).Returns c v e ∧
        (∃ e, (evaluate k).Returns (ofFormulas c.store c.intact) v e) ∧
          ((∀ p, c.brokenOff p = true → ¬m.LeadsTo formulas k p) →
            ∃ e, (evaluate k).Returns (ofFormulas c.store formulas) v e)) ∧
        ∀ p, c.brokenOff p = true → ∃ before k after error e, [b] = before ++ k :: after ∧
          (evaluate k).Fails (start.attempted before) error e ∧ m.LeadsTo formulas k p := by
  intro a b d m formulas start c
  have read : (Compiled.ofSource .empty "=A1&\"x\"").references = [⟨none, .cell a.addr⟩] ∧
      (Compiled.ofSource .empty "=A1").references = [⟨none, .cell a.addr⟩] := by decide +kernel
  have leftward (k : Key) (f : Compiled) (known : formulas[k]? = some f) :
      ∀ r ∈ f.references, ∃ x : Address, r = ⟨none, .cell x⟩ ∧ x.col < k.addr.col := by
    simp only [formulas, lookup_insert, Std.ExtTreeMap.getElem?_empty] at known
    grind
  have here (k : Key) (f : Compiled) (known : formulas[k]? = some f) : f.Local := by
    intro r member
    obtain ⟨x, rfl, _⟩ := leftward k f known r member
    rfl
  have acyclic : ∀ k, ¬m.ReliesOn formulas k k := acyclic_of_leftward leftward
  have recovered : c.store.Recovered := recovered_of_called m rfl formulas [b] (by decide +kernel)
  exact ⟨acyclic, recovered, evaluated_after_recovery (refusingFirst m) formulas (by decide +kernel)
    acyclic (names_agree_of_local here) [b] recovered⟩

-- An evaluation that was broken off is not taken up again: the formula counts as what was stored.
theorem evaluation_not_taken_up :
    let a : Key := ⟨⟨1⟩, ⟨1, 1⟩⟩
    let b : Key := ⟨⟨1⟩, ⟨1, 2⟩⟩
    let m : Memory := ((⟨[⟨⟨1⟩, ⟨1⟩, "Main"⟩], ∅, true⟩ : Memory).put a
      (.literal (.text "left"))).put b (.formula (.uncomputed "=A1&\"x\""))
    let formulas := (∅ : KeyMap Compiled).insert b (.ofSource .empty "=A1&\"x\"")
    let first := (evaluate b).run.run (ofFormulas (refusingFirst m) formulas)
    (∀ k, ¬m.ReliesOn formulas k k) ∧ first.2.store.Recovered ∧ first.2.store.memory = m ∧
      first.1.toOption.isNone = true ∧
        ((evaluate b).run.run first.2).1.toOption.map Value.toText = some "" ∧
          ((evaluate b).run.run (ofFormulas first.2.store formulas)).1.toOption.map Value.toText =
            some "leftx" := by
  intro a b m formulas first
  have read : (Compiled.ofSource .empty "=A1&\"x\"").references = [⟨none, .cell a.addr⟩] := by
    decide +kernel
  have leftward (k : Key) (f : Compiled) (known : formulas[k]? = some f) :
      ∀ r ∈ f.references, ∃ x : Address, r = ⟨none, .cell x⟩ ∧ x.col < k.addr.col := by
    simp only [formulas, lookup_insert, Std.ExtTreeMap.getElem?_empty] at known
    grind
  have kept : first.2.store.memory = m := attempted_keeps (fun t => t.memory = m)
    (fun _ kept => kept) (ofFormulas (refusingFirst m) formulas) rfl [b]
  exact ⟨acyclic_of_leftward leftward,
    recovered_of_called m rfl formulas [b] (by decide +kernel), kept, by decide +kernel,
    by decide +kernel, by decide +kernel⟩

end Context

end Spreadsheet
