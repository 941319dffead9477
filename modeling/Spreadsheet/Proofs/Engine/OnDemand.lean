import Spreadsheet.Proofs.Engine.Grounds

-- Evaluations on demand, over a store that tells the truth where it answers. Every step leads from
-- a sound context to a sound one, be it that it ends with a value or that a read fails. The value
-- of a cell is the one that everybody sees from then on, unless the formula that asks for it has
-- turned out to be circular itself.

set_option autoImplicit false

namespace Spreadsheet

open Formula

namespace Context

variable {σ : Type} (m : Memory) (formulas : KeyMap Compiled) (marks : List Key)
  (invariant : σ → Prop) (frail : Prop) (blame : Key → Prop)

-- How a step ends that begins in the context `c` and may tell something of its result. A failure
-- breaks off the evaluations of the cells to blame, if any.
def Reached {α : Type} (path : Path) (c : Context σ) (told : α → Context σ → Prop) :
    Except StoreError α → Context σ → Prop
  | .ok a, d => Sound m formulas marks invariant path d ∧ Later path c path d ∧
      Whole path c path d ∧ told a d
  | .error _, d => Sound m formulas marks invariant path d ∧ Later path c path d ∧
      Spares blame path c path d ∧ frail

-- What the innermost formula of the path is told of a cell.
def Told (path : Path) (k : Key) (v : Value) (d : Context σ) : Prop :=
  (∃ h ∈ path.current?, h ∈ d.cyclic) ∨
    Final formulas marks path d k ∧ v = seen m formulas marks d k

-- The same for the answer to a question.
def ToldAll (path : Path) (q : Query) (answer : q.Answer) (d : Context σ) : Prop :=
  (∃ h ∈ path.current?, h ∈ d.cyclic) ∨
    (∀ k ∈ m.asked q, Final formulas marks path d k) ∧
      answer = m.answerFrom (seen m formulas marks d) q

-- How a reading of the formula in the cell `k` has ended, the formula being the last of a path.
def Concluded (path : Path) (k : Key) (t : Reading Value) (v : Value) (d : Context σ) : Prop :=
  k ∈ d.cyclic ∨
    t.Within (fun q => .ok (m.answerFrom (seen m formulas marks d) q))
        (fun q => ∀ p ∈ m.asked q,
          m.Refers formulas k p ∧ Final formulas marks (path.push k) d p) ∧
      v = t.value (m.answerFrom (seen m formulas marks d))

variable {m formulas marks invariant frail blame} {path : Path} {c d : Context σ}

theorem reached_refl {α : Type} (told : α → Context σ → Prop) (a : α)
    (sound : Sound m formulas marks invariant path c) (tells : told a c) :
    Reached m formulas marks invariant frail blame path c told (.ok a) c :=
  ⟨sound, later_refl, whole_refl, tells⟩

theorem reached_bind {α β : Type} (act : Attempt (Context σ) α) (next : α → Attempt (Context σ) β)
    (middle : α → Context σ → Prop) (told : β → Context σ → Prop)
    (first : act.Ends c (Reached m formulas marks invariant frail blame path c middle))
    (rest : ∀ a d, Sound m formulas marks invariant path d → Later path c path d → middle a d →
      (next a).Ends d (Reached m formulas marks invariant frail blame path d told)) :
    (act >>= next).Ends c (Reached m formulas marks invariant frail blame path c told) := by
  apply ends_bind act next c _ _ first
  · intro a d reached
    obtain ⟨sound, later, whole, tells⟩ := reached
    apply ends_mono _ _ _ _ (rest a d sound later tells)
    intro result e after
    cases result with
    | ok b =>
      exact ⟨after.1, later_trans later after.2.1, whole_trans after.2.1 whole after.2.2.1,
        after.2.2.2⟩
    | error error =>
      exact ⟨after.1, later_trans later after.2.1, spares_trans blame after.2.1 whole after.2.2.1,
        after.2.2.2⟩
  · exact fun error d reached => reached

theorem reached_blame {α : Type} {wider : Key → Prop} {told : α → Context σ → Prop}
    (weaken : ∀ k, blame k → wider k) (result : Except StoreError α) (d : Context σ)
    (reached : Reached m formulas marks invariant frail blame path c told result d) :
    Reached m formulas marks invariant frail wider path c told result d := by
  cases result with
  | ok a => exact reached
  | error error =>
    obtain ⟨sound, later, spares, weak⟩ := reached
    refine ⟨sound, later, fun k opened => ?_, weak⟩
    exact (spares k opened).imp_right (Or.imp_right (weaken k))

theorem told_later (later : Later path c path d) (k : Key) (v : Value)
    (told : Told m formulas marks path k v c) : Told m formulas marks path k v d := by
  cases told with
  | inl circular =>
    obtain ⟨h, head, member⟩ := circular
    exact .inl ⟨h, head, later.cyclic h member⟩
  | inr settled =>
    obtain ⟨final, same⟩ := settled
    exact .inr ⟨final_later later k final, same.trans (seen_later later k final).symm⟩

theorem calling_reaches {α : Type} (act : Attempt σ α) (a : α)
    (tells : act.Tells invariant frail a) (sound : Sound m formulas marks invariant path c) :
    (calling act).Ends c (Reached m formulas marks invariant frail blame path c fun b d =>
      b = a ∧ ∃ store, d = { c with store }) := by
  apply ends_mono _ _ _ _ (calling_ends invariant frail act a tells c sound.store)
  rintro result _ ⟨⟨store, holds, rfl⟩, gives⟩
  have later : Later path c path { c with store } := later_same rfl rfl fun _ member => member
  have kept := sound_kept sound store c.sheets holds sound.names
  cases result with
  | ok b => exact ⟨kept, later, fun _ opened => .inl opened, gives, store, rfl⟩
  | error error => exact ⟨kept, later, fun _ opened => .inl opened, gives⟩

theorem told_of_cached (sound : Sound m formulas marks invariant path c) (k : Key) (v : Value)
    (kept : c.cache[k]? = some v) : Told m formulas marks path k v c := by
  obtain ⟨_, off, looping, _⟩ := sound.cached k v kept
  refine .inr ⟨fun _ opened => ?_, ?_⟩
  · cases opened with
    | inl due => exact (sound.pending k due).2.1 (member_of_lookup c.cache k v kept)
    | inr inside => exact off inside
  · unfold seen
    by_cases marked : Marked formulas marks k
    · rw [if_pos marked]
      exact looping (sound.marked k marked.2).1
    · rw [if_neg marked, kept]
      rfl

theorem told_of_stored (sound : Sound m formulas marks invariant path c) (k : Key)
    (fresh : c.cache[k]? = none) (closed : ¬Open path c k) :
    Told m formulas marks path k (m.value k) c := by
  have unmarked : ¬Marked formulas marks k := by
    intro marked
    cases (sound.marked k marked.2).2 marked.1 with
    | inl due => exact closed (.inl due)
    | inr held =>
      obtain ⟨v, found⟩ := lookup_of_member c.cache k held
      rw [fresh] at found
      cases found
  refine .inr ⟨fun _ => closed, ?_⟩
  rw [seen, if_neg unmarked, fresh]
  rfl

variable [CellStore σ]

theorem stored_value_reaches (truthful : Truthful m invariant frail)
    (sound : Sound m formulas marks invariant path c) (k : Key) (fresh : c.cache[k]? = none)
    (closed : ¬Open path c k) :
    (storedValue k).Ends c
      (Reached m formulas marks invariant frail blame path c (Told m formulas marks path k)) := by
  apply reached_bind _ _ _ _ (calling_reaches _ _ (truthful.cell k) sound)
  rintro record? _ kept _ ⟨rfl, store, rfl⟩
  apply ends_pure
  apply reached_refl _ _ kept
  have same : ((m.recordAt k).map Record.value).getD .empty = m.value k := by
    simp only [Memory.recordAt, Memory.value, Option.map_map]
    rfl
  rw [same]
  exact told_of_stored kept k fresh closed

theorem lookup_with_reaches (truthful : Truthful m invariant frail)
    (sound : Sound m formulas marks invariant path c) (way : Way m formulas marks path) (k : Key)
    (next : ∀ h ∈ path.current?, m.Refers formulas h k)
    (compute : Path → Key → Attempt (Context σ) Value)
    (computed : k ∈ c.pending → (compute path k).Ends c
      (Reached m formulas marks invariant frail blame path c (Told m formulas marks path k))) :
    (lookupWith compute path k).Ends c
      (Reached m formulas marks invariant frail blame path c (Told m formulas marks path k)) := by
  apply ends_get
  cases kept : c.cache[k]? with
  | some v =>
    apply ends_pure
    exact reached_refl _ _ sound (told_of_cached sound k v kept)
  | none =>
    by_cases looping : path.contains k = true
    · have inside : k ∈ path.cells := by simpa [Path.contains] using looping
      simp only [looping, if_true]
      refine ⟨sound_circled k inside sound way next, later_circled k, fun p opened => .inl opened,
        .inl ?_⟩
      obtain ⟨h, head⟩ : ∃ h, path.current? = some h := by
        cases listed : path.cells with
        | nil => simp [listed] at inside
        | cons h rest => exact ⟨h, by simp [Path.current?, listed]⟩
      exact ⟨h, head, (member_insert_all _ c.cyclic h).mpr
        (.inl ((circled k inside way next).1 h head))⟩
    · have off : k ∉ path.cells := by simpa [Path.contains] using looping
      by_cases waiting : k ∈ c.pending
      · simp only [looping, waiting, Bool.false_eq_true, if_true, if_false]
        exact computed waiting
      · simp only [looping, waiting, Bool.false_eq_true, if_false]
        apply stored_value_reaches truthful sound k kept
        rintro (due | inside)
        · exact waiting due
        · exact off inside

omit [CellStore σ] in
theorem each_reaches (cell : Key → Attempt (Context σ) Value) (records : List Record)
    (stored : ∀ record ∈ records, m.value record.key = record.value)
    (cells : ∀ record ∈ records, ∀ d, Sound m formulas marks invariant path d →
      (cell record.key).Ends d (Reached m formulas marks invariant frail blame path d
        (Told m formulas marks path record.key)))
    (sound : Sound m formulas marks invariant path c) :
    Attempt.Ends
      (records.mapM fun record => do
        if (← get).isLive path record.key then return (record.key.addr, ← cell record.key)
        else return (record.key.addr, record.value)) c
      (Reached m formulas marks invariant frail blame path c fun values d =>
        (∃ h ∈ path.current?, h ∈ d.cyclic) ∨
          (∀ record ∈ records, Final formulas marks path d record.key) ∧
            values = records.map fun record =>
              (record.key.addr, seen m formulas marks d record.key)) := by
  induction records generalizing c with
  | nil =>
    rw [List.mapM_nil]
    exact ends_pure _ _ _ (reached_refl _ _ sound (.inr ⟨by simp, rfl⟩))
  | cons record rest ih =>
    rw [List.mapM_cons]
    apply reached_bind _ _ (fun entry d => ∃ v, entry = (record.key.addr, v) ∧
      Told m formulas marks path record.key v d)
    · apply ends_get
      by_cases live : c.isLive path record.key = true
      · rw [if_pos live]
        apply reached_bind _ _ _ _ (cells record List.mem_cons_self c sound)
        intro v d kept _ told
        exact ends_pure _ _ _ (reached_refl _ _ kept ⟨v, rfl, told⟩)
      · rw [if_neg live]
        apply ends_pure
        refine reached_refl _ _ sound ⟨record.value, rfl, ?_⟩
        rw [← stored record List.mem_cons_self]
        simp only [isLive, Bool.or_eq_true, decide_eq_true_eq, not_or] at live
        apply told_of_stored sound record.key (Std.ExtTreeMap.getElem?_eq_none live.1.1)
        rintro (due | inside)
        · exact live.1.2 due
        · exact live.2 (by simpa [Path.contains] using inside)
    · rintro _ d kept _ ⟨v, rfl, told⟩
      apply reached_bind _ _ _ _ (ih (fun r member => stored r (List.mem_cons_of_mem _ member))
        (fun r member => cells r (List.mem_cons_of_mem _ member)) kept)
      intro values e after later others
      apply ends_pure
      refine reached_refl _ _ after ?_
      cases told_later later record.key v told with
      | inl circular => exact .inl circular
      | inr here =>
        refine others.imp_right fun listed => ⟨?_, by rw [here.2, listed.2]; rfl⟩
        rintro r (_ | ⟨_, member⟩)
        · exact here.1
        · exact listed.1 r member

theorem range_with_reaches (truthful : Truthful m invariant frail)
    (cell : Key → Attempt (Context σ) Value) (r : SheetRange)
    (cells : ∀ k ∈ m.asked (.range r), ∀ d, Sound m formulas marks invariant path d →
      (cell k).Ends d
        (Reached m formulas marks invariant frail blame path d (Told m formulas marks path k)))
    (sound : Sound m formulas marks invariant path c) :
    (rangeWith cell path r).Ends c (Reached m formulas marks invariant frail blame path c
      (ToldAll m formulas marks path (.range r))) := by
  apply reached_bind _ _ _ _ (calling_reaches _ _ (truthful.range r) sound)
  rintro records _ kept _ ⟨rfl, store, rfl⟩
  have stored (record : Record) (member : record ∈ m.recordsIn r) :
      m.value record.key = record.value := m.value_of_record_in r record member
  apply reached_bind _ _ _ _ (each_reaches cell _ stored
    (fun record member => cells record.key (List.mem_map_of_mem member)) kept)
  intro values d after _ told
  apply ends_pure
  refine reached_refl _ _ after (told.imp_right fun listed => ⟨fun k member => ?_, ?_⟩)
  · obtain ⟨record, among, rfl⟩ := List.mem_map.mp member
    exact listed.1 record among
  · rw [listed.2]
    rfl

section Formula

variable (truthful : Truthful m invariant frail) (agree : NamesAgree m formulas) (k : Key)
  (f : Compiled) (known : formulas[k]? = some f) (cell : Key → Attempt (Context σ) Value)
  (cells : ∀ p, m.Refers formulas k p → ∀ d, Sound m formulas marks invariant (path.push k) d →
    (cell p).Ends d (Reached m formulas marks invariant frail blame (path.push k) d
      (Told m formulas marks (path.push k) p)))

-- The answers that a formula can get, whatever values its cells have.
def Possible (m : Memory) : Answers
  | .sheet home name, answer => answer = m.sheetFrom home name
  | .cell _, _ => True
  | .range _, _ => True

include known in
theorem refers_of_covered (q : Query) (covered : Covered k.sheet (Possible m) f.references q) :
    ∀ p ∈ m.asked q, m.Refers formulas k p := by
  have bound (r : Reference) (x : SheetRange) (covers : r.Covers k.sheet (Possible m) x) :
      r.boundBy k.sheet m.resolver = some x := by
    unfold Reference.Covers at covers
    unfold Reference.boundBy
    cases named : r.sheet? with
    | none =>
      rw [named] at covers
      exact congrArg some covers.symm
    | some name =>
      rw [named] at covers
      obtain ⟨sheet, given, rfl⟩ := covers
      simp [Memory.resolver, Memory.answer, ← show some sheet = m.sheetFrom k.sheet name from given]
  intro p member
  cases q with
  | sheet home name => cases member
  | cell p' =>
    obtain rfl : p = p' := List.mem_singleton.mp member
    obtain ⟨r, listed, covers⟩ := covered
    exact ⟨f, known, _, List.mem_filterMap.mpr ⟨r, listed, bound r _ covers⟩,
      (contains_of_key p p).mpr rfl⟩
  | range x =>
    obtain ⟨r, listed, covers⟩ := covered
    obtain ⟨record, among, rfl⟩ := List.mem_map.mp member
    exact ⟨f, known, x, List.mem_filterMap.mpr ⟨r, listed, bound r x covers⟩,
      (List.mem_filter.mp among).2⟩

include truthful agree known cells

theorem answer_with_reaches (q : Query)
    (covered : Covered k.sheet (Possible m) f.references q)
    (sound : Sound m formulas marks invariant (path.push k) d) :
    (answerWith cell (path.push k) q).Ends d (Reached m formulas marks invariant frail blame
      (path.push k) d fun answer e => Possible m q answer ∧
        ToldAll m formulas marks (path.push k) q answer e) := by
  have near := refers_of_covered k f known q covered
  cases q with
  | cell p =>
    apply ends_mono _ _ _ _ (cells p (near p (by simp [Memory.asked])) d sound)
    intro result e reached
    cases result with
    | error error => exact reached
    | ok v =>
      obtain ⟨after, later, whole, told⟩ := reached
      refine ⟨after, later, whole, trivial, told.imp_right fun here => ?_⟩
      exact ⟨by simpa [Memory.asked] using here.1, here.2⟩
  | range r =>
    apply ends_mono _ _ _ _ (range_with_reaches truthful cell r
      (fun p member => cells p (near p member)) sound)
    intro result e reached
    cases result with
    | error error => exact reached
    | ok values => exact ⟨reached.1, reached.2.1, reached.2.2.1, trivial, reached.2.2.2⟩
  | sheet home name =>
    obtain ⟨rfl, r, listed, named⟩ := covered
    apply ends_mono _ _ _ _ (sheet_named_ends m formulas invariant frail agree truthful.toPlaced d
      sound.store sound.names k.sheet name ⟨k, f, known, rfl, r, listed, named⟩)
    rintro result _ ⟨⟨store, looked, holds, faithful, rfl⟩, gives⟩
    have later : Later (path.push k) d (path.push k) { d with store, sheets := looked } :=
      later_same rfl rfl fun _ member => member
    have kept := sound_kept sound store looked holds faithful
    cases result with
    | error error => exact ⟨kept, later, fun _ opened => .inl opened, gives⟩
    | ok found? =>
      exact ⟨kept, later, fun _ opened => .inl opened, gives, .inr ⟨by simp [Memory.asked], gives⟩⟩

theorem run_reaches (t : Reading Value)
    (along : t.Along (Possible m) (Covered k.sheet (Possible m) f.references))
    (sound : Sound m formulas marks invariant (path.push k) d) :
    Attempt.Ends (t.run (answerWith cell (path.push k))) d
      (Reached m formulas marks invariant frail blame (path.push k) d
        (Concluded m formulas marks path k t)) := by
  induction t generalizing d with
  | done v =>
    apply ends_pure
    exact reached_refl _ _ sound (.inr ⟨trivial, rfl⟩)
  | ask q next ih =>
    apply reached_bind _ _ _ _
      (answer_with_reaches truthful agree k f known cell cells q along.1 sound)
    rintro answer e kept _ ⟨possible, told⟩
    apply ends_mono _ _ _ _ (ih answer (along.2 answer possible) kept)
    intro result last reached
    cases result with
    | error error => exact reached
    | ok v =>
      obtain ⟨after, later, whole, rest⟩ := reached
      refine ⟨after, later, whole, ?_⟩
      cases told with
      | inl circular =>
        obtain ⟨h, head, member⟩ := circular
        obtain rfl : k = h := Option.some.inj head
        exact .inl (later.cyclic k member)
      | inr here =>
        obtain ⟨final, same⟩ := here
        -- Later steps of the reading change nothing in the cells that this answer was made of.
        have still : m.answerFrom (seen m formulas marks last) q = answer := by
          rw [same]
          exact m.answer_from_congr _ _ q fun p member => seen_later later p (final p member)
        refine rest.imp_right fun course => ⟨⟨fun p member => ?_, fun given answered => ?_⟩, ?_⟩
        · exact ⟨refers_of_covered k f known q along.1 p member,
            final_later later p (final p member)⟩
        · obtain rfl : given = answer := (Except.ok.inj answered).symm.trans still
          exact course.1
        · rw [course.2, ← still]
          rfl

end Formula

section Outcomes

variable (k : Key) (waiting : k ∈ c.pending) (sound : Sound m formulas marks invariant path c)

include waiting sound

omit [CellStore σ] in
theorem looped_reaches (cyclic : k ∈ c.cyclic) :
    Reached m formulas marks invariant frail blame path c (Told m formulas marks path k)
      (.ok circular) (Context.remember { c with pending := c.pending.erase k } k circular) := by
  have looped := sound_looped sound k waiting cyclic
  refine ⟨looped, later_looped sound k waiting, fun p opened => ?_,
    told_of_cached looped k circular (by simp [remember])⟩
  by_cases here : k = p
  · exact .inr ((member_insert_key _ k p circular).mpr (.inl here))
  · exact .inl (opened.imp_left fun due => (member_erase _ k p).mpr ⟨Ne.symm here, due⟩)

variable (later : Later (path.push k) { c with pending := c.pending.erase k } (path.push k) d)
  (kept : Sound m formulas marks invariant (path.push k) d)

include later kept

omit [CellStore σ] in
-- A formula that has been read to its end.
theorem remembered_reaches (f : Compiled) (found : formulas[k]? = some f) (v : Value)
    (whole : Whole (path.push k) { c with pending := c.pending.erase k } (path.push k) d)
    (told : Concluded m formulas marks path k (f.evaluate k.sheet) v d) :
    let result := if d.isCyclic k = true then circular else v
    Reached m formulas marks invariant frail blame path c (Told m formulas marks path k)
      (.ok result) (d.remember k result) := by
  intro result
  obtain ⟨known, _, off⟩ := sound.pending k waiting
  have looping (member : k ∈ d.cyclic) : result = circular := if_pos (decide_eq_true member)
  have loose (free : k ∉ d.cyclic) : Grounded m formulas marks path (d.remember k result) k := by
    have course := told.resolve_left free
    have same : result = v := if_neg fun member => free (of_decide_eq_true member)
    rw [same, course.2]
    exact grounded_remembered k kept f found course.1
  have done := sound_remembered k kept result known off looping loose
  have after : Later (path.push k) d path (d.remember k result) := later_remembered k kept result
  refine ⟨done, later_trans (later_begun k waiting) (later_trans later after), fun p opened => ?_,
    told_of_cached done k result (by simp [remember])⟩
  by_cases here : p = k
  · exact .inr ((member_insert_key _ k p result).mpr (.inl here.symm))
  · cases whole p (open_begun k p here opened) with
    | inr held => exact .inr ((member_insert_key _ k p result).mpr (.inr held))
    | inl still => exact .inl (open_outside k p here still)

omit [CellStore σ] sound in
-- A formula that could not be read to its end. Its evaluation is broken off like those inside it.
theorem broken_reaches (error : StoreError) (weak : frail)
    (spares : Spares (m.ReliesOn formulas k) (path.push k)
      { c with pending := c.pending.erase k } (path.push k) d) :
    Reached m formulas marks invariant frail (m.LeadsTo formulas k) path c
      (Told m formulas marks path k) (.error error) d := by
  refine ⟨sound_broken k kept,
    later_trans (later_begun k waiting) (later_trans later (later_broken k)), fun p opened => ?_,
    weak⟩
  by_cases here : p = k
  · exact .inr (.inr (here ▸ .refl))
  · cases spares p (open_begun k p here opened) with
    | inl still => exact .inl (open_outside k p here still)
    | inr rest => exact .inr (rest.imp_right fun relies => relies.to_reflTransGen)

end Outcomes

section Cells

variable (truthful : Truthful m invariant frail) (agree : NamesAgree m formulas)
include truthful agree

theorem compute_with_reaches (sound : Sound m formulas marks invariant path c) (k : Key)
    (waiting : k ∈ c.pending) (cell : Path → Key → Attempt (Context σ) Value)
    (cells : k ∉ marks → ∀ p, m.Refers formulas k p → ∀ d,
      Sound m formulas marks invariant (path.push k) d → (cell (path.push k) p).Ends d
        (Reached m formulas marks invariant frail (m.ReliesOn formulas k) (path.push k) d
          (Told m formulas marks (path.push k) p))) :
    (computeWith cell path k).Ends c
      (Reached m formulas marks invariant frail (m.LeadsTo formulas k) path c
        (Told m formulas marks path k)) := by
  let begun : Context σ := { c with pending := c.pending.erase k }
  apply ends_bind_returned _ _ _ begun _ _ (returns_modify _ c)
  apply ends_get
  by_cases cyclic : k ∈ c.cyclic
  · rw [if_pos (show begun.isCyclic k = true from decide_eq_true cyclic)]
    exact looped_reaches k waiting sound cyclic
  · have plain : ¬begun.isCyclic k = true := fun looping => cyclic (of_decide_eq_true looping)
    rw [if_neg plain]
    have unmarked : k ∉ marks := fun member => cyclic (sound.marked k member).1
    obtain ⟨f, found⟩ := lookup_of_member formulas k (sound.pending k waiting).1
    have first := sound_begun sound k waiting cyclic
    apply ends_get
    simp only [show begun.formulas = formulas from sound.known, found]
    apply ends_bind _ _ _ _ _ (run_reaches truthful agree k f found (cell (path.push k))
      (cells unmarked) _ (Memory.compiled_confined f k.sheet (Possible m)) first)
    · intro v d reached
      obtain ⟨kept, later, whole, told⟩ := reached
      apply ends_get
      exact remembered_reaches k waiting sound later kept f found v whole told
    · intro error d reached
      obtain ⟨kept, later, spares, weak⟩ := reached
      exact broken_reaches k waiting later kept error weak spares

theorem cell_at_reaches (shallow : Shallow m formulas marks) (room : Nat)
    (deep : path.depth + room = maxNesting) (sound : Sound m formulas marks invariant path c)
    (way : Way m formulas marks path) (k : Key)
    (next : ∀ h ∈ path.current?, m.Refers formulas h k) :
    (cellAt room path k).Ends c
      (Reached m formulas marks invariant frail (m.LeadsTo formulas k) path c
        (Told m formulas marks path k)) := by
  induction room generalizing path c k with
  | zero =>
    apply lookup_with_reaches truthful sound way k next
    intro waiting
    obtain ⟨known, _, off⟩ := sound.pending k waiting
    apply ends_pure
    refine reached_refl _ _ sound (.inr ?_)
    by_cases marked : k ∈ marks
    · have counts : Marked formulas marks k := ⟨known, marked⟩
      exact ⟨fun unmarked => absurd counts unmarked, (if_pos counts).symm⟩
    · -- One more unmarked formula would make a path longer than any.
      have longer := shallow _ (way_push way k known marked off next)
      simp only [Path.depth, Path.push, List.length_cons] at longer deep
      omega
  | succ room ih =>
    apply lookup_with_reaches truthful sound way k next
    intro waiting
    obtain ⟨known, _, off⟩ := sound.pending k waiting
    apply compute_with_reaches truthful agree sound k waiting
    intro unmarked p refers d kept
    have nested : (path.push k).depth + room = maxNesting := by
      simp only [Path.depth, Path.push, List.length_cons] at deep ⊢
      omega
    apply ends_mono _ _ _ _ (ih nested kept (way_push way k known unmarked off next) p ?_)
    · intro result e reached
      exact reached_blame (fun x leads => Relation.TransGen.head' refers leads) result e reached
    · intro h head
      obtain rfl : k = h := Option.some.inj head
      exact refers

theorem evaluate_reaches (shallow : Shallow m formulas marks)
    (sound : Sound m formulas marks invariant .root c) (k : Key) :
    (evaluate k).Ends c (Reached m formulas marks invariant frail (m.LeadsTo formulas k) .root c
      fun v d => Final formulas marks .root d k ∧ v = seen m formulas marks d k) := by
  have way : Way m formulas marks .root := ⟨List.nodup_nil, by simp [Path.root], .nil⟩
  apply ends_mono _ _ _ _ (cell_at_reaches truthful agree shallow maxNesting (by rfl) sound way k
    (by simp [Path.current?, Path.root]))
  intro result d reached
  cases result with
  | error error => exact reached
  | ok v =>
    obtain ⟨after, later, whole, told⟩ := reached
    exact ⟨after, later, whole, told.resolve_left (by simp [Path.current?, Path.root])⟩

end Cells

section Runs

variable (truthful : Truthful m invariant False) (agree : NamesAgree m formulas)
  (shallow : Shallow m formulas marks) (sound : Sound m formulas marks invariant .root c)
include truthful agree shallow sound

theorem evaluate_returns (k : Key) : ∃ d, (evaluate k).Returns c (seen m formulas marks d k) d ∧
    Sound m formulas marks invariant .root d ∧ Later .root c .root d ∧ Whole .root c .root d ∧
      Final formulas marks .root d k := by
  have reached := evaluate_reaches truthful agree shallow sound k
  unfold Attempt.Ends at reached
  cases ran : (evaluate k).run.run c with
  | mk result d =>
    rw [ran] at reached
    cases result with
    | error error => exact reached.2.2.2.elim
    | ok v =>
      obtain ⟨after, later, whole, final, same⟩ := reached
      refine ⟨d, ?_, after, later, whole, final⟩
      rw [← same]
      exact ran

theorem evaluations_return (order : List Key) :
    ∃ d, (order.mapM evaluate).Returns c (order.map (seen m formulas marks d)) d ∧
      Sound m formulas marks invariant .root d ∧ Later .root c .root d ∧ Whole .root c .root d ∧
        ∀ k ∈ order, Final formulas marks .root d k := by
  induction order generalizing c with
  | nil => exact ⟨c, returns_pure c [], sound, later_refl, whole_refl, by simp⟩
  | cons k rest ih =>
    obtain ⟨d, first, after, later, whole, final⟩ :=
      evaluate_returns truthful agree shallow sound k
    obtain ⟨e, others, last, onward, complete, finals⟩ := ih after
    refine ⟨e, ?_, last, later_trans later onward, whole_trans onward whole complete, ?_⟩
    · rw [List.map_cons, seen_later onward k final]
      exact returns_map_cons evaluate k rest c d e _ _ first others
    · rintro p (_ | ⟨_, member⟩)
      · exact final_later onward k final
      · exact finals p member

end Runs

section Alike

variable {τ : Type} {others : KeyMap Compiled} {condition : τ → Prop} {e : Context τ}
  (among : Key → Prop)

-- Two contexts that hold results for the same cells, as far as evaluations among these cells go.
structure Alike (m : Memory) (formulas others : KeyMap Compiled) (marks : List Key)
    (among : Key → Prop) (c : Context σ) (e : Context τ) : Prop where
  closed : ∀ k p, among k → m.Refers formulas k p → among p
  marked : ∀ k, among k → (Marked formulas marks k ↔ Marked others marks k)
  results : ∀ k, among k → ¬Marked formulas marks k → ¬Open .root c k → ¬Open .root e k →
    (k ∈ c.cache ↔ k ∈ e.cache)
  formulas : ∀ k ∈ c.cache, k ∈ e.cache → formulas[k]? = others[k]?
  quiet : ∀ k ∈ c.cyclic, k ∈ marks
  silent : ∀ k ∈ e.cyclic, k ∈ marks

variable (alike : Alike m formulas others marks among c e)
  (sound : Sound m formulas marks invariant .root c)
  (right : Sound m others marks condition .root e)
include alike sound right

omit [CellStore σ]

omit right in
theorem seen_of_results (k : Key) (inside : among k) (final : Final formulas marks .root c k)
    (ended : Final others marks .root e k)
    (same : k ∈ c.cache → k ∉ c.cyclic → k ∈ e.cache → c.cache[k]? = e.cache[k]?) :
    seen m formulas marks c k = seen m others marks e k := by
  unfold seen
  by_cases marked : Marked formulas marks k
  · rw [if_pos marked, if_pos ((alike.marked k inside).mp marked)]
  · have unmarked : ¬Marked others marks k := mt (alike.marked k inside).mpr marked
    rw [if_neg marked, if_neg unmarked]
    have both := alike.results k inside marked (final marked) (ended unmarked)
    by_cases held : k ∈ c.cache
    · have known := (cached_of_mem sound k held).1
      rw [same held (fun cyclic => marked ⟨known, alike.quiet k cyclic⟩) (both.mp held)]
    · rw [Std.ExtTreeMap.getElem?_eq_none held, Std.ExtTreeMap.getElem?_eq_none (mt both.mpr held)]

theorem results_agree (k : Key) (grounded : Grounded m formulas marks .root c k)
    (inside : among k) (held : k ∈ e.cache) (free : k ∉ e.cyclic) :
    c.cache[k]? = e.cache[k]? := by
  induction grounded with
  | reading k f read known course kept refers final deeper ih =>
    -- One formula, read in both contexts: where the courses meet, the answers agree.
    cases (cached_of_mem right k held).2.2 free with
    | reading _ g reads listed passage result _ ended _ =>
      have shared := alike.formulas k (member_of_lookup c.cache k _ kept) held
      obtain rfl : f = g := Option.some.inj (known.symm.trans (shared.trans listed))
      rw [kept, result]
      refine congrArg some (Reading.value_meet _ _ _ _ _ course passage fun q near also => ?_)
      apply m.answer_from_congr
      intro p member
      have within := alike.closed k p inside (refers p (near p member))
      apply seen_of_results among alike sound p within (final p (near p member))
        (ended p (also p member))
      intro cached loose answered
      apply ih p (near p member) cached loose within answered
      intro cyclic
      exact loose (sound.marked p (alike.silent p cyclic)).1

theorem seen_agree (k : Key) (inside : among k) (final : Final formulas marks .root c k)
    (ended : Final others marks .root e k) :
    seen m formulas marks c k = seen m others marks e k := by
  apply seen_of_results among alike sound k inside final ended
  intro held loose answered
  apply results_agree among alike sound right k ((cached_of_mem sound k held).2.2 loose) inside
    answered
  exact fun cyclic => loose (sound.marked k (alike.silent k cyclic)).1

end Alike

end Context

end Spreadsheet
