import Spreadsheet.Proofs.Engine.AnyOrder

-- Circles found during evaluation, with nothing marked beforehand. A formula of cells, literals and
-- operators reads all its references, so an evaluation comes upon each circle. A cell whose circle
-- has no short cut is marked. Where circles overlap, one of their cells is, and the others show
-- some error.

set_option autoImplicit false

namespace Spreadsheet

open Formula

namespace Formula

-- Literals, cells of the same sheet, and operators.
def Expr.isPlain : Expr → Bool
  | .number _ => true
  | .text _ => true
  | .boolean _ => true
  | .error _ => true
  | .reference r => r.sheet?.isNone && r.target.extent.isSingle
  | .negate operand => operand.isPlain
  | .binary _ left right => left.isPlain && right.isPlain
  | .name _ => false
  | .call _ _ => false

def Compiled.isPlain (f : Compiled) : Bool := f.expr?.any Expr.isPlain

-- The cell that a reference to a single cell means on the sheet `home`.
def Reference.cellOn (home : SheetId) (r : Reference) : Key := ⟨home, r.target.extent.first⟩

theorem value_of_single (home : SheetId) (r : Reference) (here : r.sheet? = none)
    (single : r.target.extent.isSingle = true) :
    r.value home = .query (.cell (r.cellOn home)) := by
  cases r with
  | mk sheet? target =>
    obtain rfl : sheet? = none := here
    cases target with
    | cell a => rfl
    | range x =>
      have one : x.isSingle = true := single
      change (if x.isSingle then Reading.query (.cell ⟨home, x.first⟩) else _) = _
      rw [if_pos one]
      rfl

theorem apply_error (op : BinaryOp) (a b : Value) (broken : a.isError = true ∨ b.isError = true) :
    (op.apply a b).isError = true := by
  cases a <;> cases b <;> simp_all [BinaryOp.apply, Value.isError, Value.error?]

theorem negated_error (a : Value) (broken : a.isError = true) : (negated a).isError = true := by
  cases a <;> simp_all [negated, Value.isError, Value.error?, Value.toNumber]

section Plain

variable (home : SheetId) (answer : (q : Query) → q.Answer) (asked : Query → Prop) (r : Reference)

theorem plain_local (e : Expr) (plain : e.isPlain = true) (member : r ∈ e.occurrences) :
    r.sheet? = none ∧ r.target.extent.isSingle = true := by
  cases e with
  | reference s =>
    obtain rfl : r = s := by simpa [Expr.occurrences] using member
    simpa [Expr.isPlain] using plain
  | negate operand => exact plain_local operand plain (by simpa [Expr.occurrences] using member)
  | binary op left right =>
    obtain ⟨one, other⟩ := by simpa [Expr.isPlain] using plain
    cases List.mem_append.mp (by simpa [Expr.occurrences] using member) with
    | inl before => exact plain_local left one before
    | inr after => exact plain_local right other after
  | _ => simp_all [Expr.isPlain, Expr.occurrences]

-- No operand is skipped.
theorem plain_asks (e : Expr) (plain : e.isPlain = true) (member : r ∈ e.occurrences)
    (within : (e.evaluate home).Within (fun q => .ok (answer q)) asked) :
    asked (.cell (r.cellOn home)) := by
  cases e with
  | reference s =>
    obtain rfl : r = s := by simpa [Expr.occurrences] using member
    obtain ⟨here, single⟩ := plain_local r _ plain member
    rw [Expr.evaluate, value_of_single home r here single] at within
    exact within.1
  | negate operand =>
    exact plain_asks operand plain (by simpa [Expr.occurrences] using member)
      (Reading.within_bind answer asked _ _ within).1
  | binary op left right =>
    obtain ⟨one, other⟩ := by simpa [Expr.isPlain] using plain
    obtain ⟨before, rest⟩ := Reading.within_bind answer asked _ _ within
    cases List.mem_append.mp (by simpa [Expr.occurrences] using member) with
    | inl among => exact plain_asks left one among before
    | inr among => exact plain_asks right other among (Reading.within_bind answer asked _ _ rest).1
  | _ => simp_all [Expr.isPlain, Expr.occurrences]

-- An error in any operand is an error of the whole.
theorem plain_error (e : Expr) (plain : e.isPlain = true) (member : r ∈ e.occurrences)
    (broken : (show Value from answer (.cell (r.cellOn home))).isError = true) :
    ((e.evaluate home).value answer).isError = true := by
  cases e with
  | reference s =>
    obtain rfl : r = s := by simpa [Expr.occurrences] using member
    obtain ⟨here, single⟩ := plain_local r _ plain member
    rw [Expr.evaluate, value_of_single home r here single]
    exact broken
  | negate operand =>
    rw [Expr.evaluate, Reading.value_bind]
    exact negated_error _ (plain_error operand plain (by simpa [Expr.occurrences] using member)
      broken)
  | binary op left right =>
    obtain ⟨one, other⟩ := by simpa [Expr.isPlain] using plain
    rw [Expr.evaluate, Reading.value_bind, Reading.value_bind]
    apply apply_error
    cases List.mem_append.mp (by simpa [Expr.occurrences] using member) with
    | inl among => exact .inl (plain_error left one among broken)
    | inr among => exact .inr (plain_error right other among broken)
  | _ => simp_all [Expr.isPlain, Expr.occurrences]

end Plain

end Formula

section Refers

variable {m : Memory} {formulas : KeyMap Compiled} (k p : Key) (f : Compiled)
  (known : formulas[k]? = some f) (plain : f.isPlain = true)
include plain

theorem expr_of_plain : ∃ e, f.expr = .ok e ∧ e.isPlain = true ∧ ∀ r, r ∈ f.references ↔
    r ∈ e.occurrences := by
  cases read : f.expr with
  | error error => simp [Compiled.isPlain, Compiled.expr?, read, Except.toOption] at plain
  | ok e =>
    refine ⟨e, rfl, by simpa [Compiled.isPlain, Compiled.expr?, read, Except.toOption] using plain,
      fun r => ?_⟩
    have listed : f.references = e.references := by
      simp [Compiled.references, Compiled.expr?, read, Except.toOption]
    rw [listed]
    exact mem_distinct e.occurrences r

theorem local_of_plain : f.Local := by
  obtain ⟨e, _, simple, listed⟩ := expr_of_plain f plain
  exact fun r member => (plain_local r e simple ((listed r).mp member)).1

include known

theorem refers_of_plain (edge : m.Refers formulas k p) :
    ∃ r ∈ f.references, r.cellOn k.sheet = p := by
  obtain ⟨e, _, simple, listed⟩ := expr_of_plain f plain
  obtain ⟨r, member, inside⟩ :=
    (Context.refers_of_local k p f known (local_of_plain f plain)).mp edge
  have single := (plain_local r e simple ((listed r).mp member)).2
  rw [single_range_eq (r.on k.sheet) single] at inside
  exact ⟨r, member, ((contains_of_key _ p).mp inside).symm⟩

end Refers

namespace Memory

-- The cells that lie on a cycle together with the cell `k`.
def Circle (m : Memory) (formulas : KeyMap Compiled) (k p : Key) : Prop :=
  m.ReliesOn formulas k p ∧ m.ReliesOn formulas p k

-- Each of these cells refers to one of them only.
def Simple (m : Memory) (formulas : KeyMap Compiled) (k : Key) : Prop :=
  ∀ x y z, m.Circle formulas k x → m.Circle formulas k y → m.Circle formulas k z →
    m.Refers formulas x y → m.Refers formulas x z → y = z

end Memory

namespace Context

section Evaluated

variable {σ : Type} {m : Memory} {formulas : KeyMap Compiled} {invariant : σ → Prop} {c : Context σ}
  (sound : Sound m formulas [] invariant .root c) (cached : ∀ k ∈ formulas, k ∈ c.cache)
  (plain : ∀ (k : Key) (f : Compiled), formulas[k]? = some f → f.isPlain = true)

theorem known_of_refers (k p : Key) (edge : m.Refers formulas k p) : k ∈ formulas := by
  obtain ⟨f, known, _⟩ := edge
  exact member_of_lookup formulas k f known

include plain in
-- What is kept for a cell off the circles rests on every cell that its formula refers to.
theorem read_of_refers (k p : Key) (f : Compiled) (read : Key → Prop)
    (known : formulas[k]? = some f) (edge : m.Refers formulas k p)
    (course : (f.evaluate k.sheet).Within
      (fun q => .ok (m.answerFrom (seen m formulas [] c) q)) fun q => ∀ x ∈ m.asked q, read x) :
    read p := by
  obtain ⟨r, member, rfl⟩ := refers_of_plain k p f known (plain k f known) edge
  obtain ⟨e, parsed, simple, listed⟩ := expr_of_plain f (plain k f known)
  simp only [Compiled.evaluate, parsed] at course
  have asks := plain_asks k.sheet _ _ r e simple ((listed r).mp member) course
  exact asks _ (by simp [Memory.asked])

include sound cached

theorem seen_of_cyclic (k : Key) (known : k ∈ formulas) (cyclic : k ∈ c.cyclic) :
    seen m formulas [] c k = circular := by
  obtain ⟨v, kept⟩ := lookup_of_member c.cache k (cached k known)
  rw [seen, if_neg fun marked => List.not_mem_nil marked.2, kept]
  exact (sound.cached k v kept).2.2.1 cyclic

include plain

section Ring

variable (ring : Key → Prop)
  (onward : ∀ k, ring k → ∃ p, ring p ∧ m.Refers formulas k p)
include onward

-- From the cells found circular, back along the references.
theorem ring_induction (motive : Key → Prop) (marked : ∀ k ∈ c.cyclic, ring k → motive k)
    (step : ∀ k p, k ∉ c.cyclic → m.Refers formulas k p → ring p → motive p → motive k) (k : Key)
    (inside : ring k) : motive k := by
  have known (x : Key) (among : ring x) : x ∈ formulas := by
    obtain ⟨p, _, edge⟩ := onward x among
    exact known_of_refers x p edge
  by_cases cyclic : k ∈ c.cyclic
  · exact marked k cyclic inside
  · have grounded := (cached_of_mem sound k (cached k (known k inside))).2.2 cyclic
    induction grounded with
    | reading k f read found course kept refers final deeper ih =>
      obtain ⟨p, among, edge⟩ := onward k inside
      refine step k p cyclic edge among ?_
      by_cases round : p ∈ c.cyclic
      · exact marked p round among
      · have near := read_of_refers plain k p f read found edge course
        exact ih p near (cached p (known p among)) round among round

theorem ring_found (k : Key) (inside : ring k) : ∃ p ∈ c.cyclic, ring p :=
  ring_induction sound cached plain ring onward (fun _ => ∃ p ∈ c.cyclic, ring p)
    (fun p cyclic among => ⟨p, cyclic, among⟩) (fun _ _ _ _ _ found => found) k inside

theorem ring_fails (k : Key) (inside : ring k) : (seen m formulas [] c k).isError = true := by
  apply ring_induction sound cached plain ring onward _ ?_ ?_ k inside
  · intro p cyclic among
    obtain ⟨x, _, edge⟩ := onward p among
    rw [seen_of_cyclic sound cached p (known_of_refers p x edge) cyclic]
    rfl
  · intro k p free edge _ broken
    obtain ⟨f, found, _⟩ := id edge
    obtain ⟨r, member, rfl⟩ := refers_of_plain k p f found (plain k f found) edge
    obtain ⟨e, parsed, simple, listed⟩ := expr_of_plain f (plain k f found)
    rw [seen_computed sound k f found (cached k (known_of_refers k _ edge)) free]
    simp only [Compiled.evaluate, parsed]
    exact plain_error k.sheet _ r e simple ((listed r).mp member) broken

end Ring

section Circle

omit sound cached plain

theorem circle_onward (k x : Key) (circle : m.Circle formulas k x) :
    ∃ p, m.Circle formulas k p ∧ m.Refers formulas x p := by
  obtain ⟨out, back⟩ := circle
  obtain ⟨p, edge, rest⟩ := Relation.TransGen.head'_iff.mp back
  refine ⟨p, ⟨out.tail edge, ?_⟩, edge⟩
  cases Relation.reflTransGen_iff_eq_or_transGen.mp rest with
  | inl same => exact same ▸ out.trans back
  | inr relies => exact relies

include sound

-- Along a cycle without short cuts, each cell found circular leads to the next one.
theorem circular_onward (k : Key) (simple : m.Simple formulas k) (x : Key)
    (circle : m.Circle formulas k x) (cyclic : x ∈ c.cyclic) : k ∈ c.cyclic := by
  have next (y p : Key) (here : m.Circle formulas k y) (there : m.Circle formulas k p)
      (edge : m.Refers formulas y p) (found : y ∈ c.cyclic) : p ∈ c.cyclic := by
    obtain ⟨q, among, also, back⟩ := (sound.circles y found).resolve_left List.not_mem_nil
    have round : m.Circle formulas k q :=
      ⟨here.1.tail also, Relation.TransGen.trans_right back here.2⟩
    rw [simple y p q here there round edge also]
    exact among
  obtain ⟨out, back⟩ := circle
  induction back using Relation.TransGen.head_induction_on with
  | single edge =>
    have home : m.Circle formulas k k := ⟨out.tail edge, out.tail edge⟩
    exact next _ k ⟨out, .single edge⟩ home edge cyclic
  | head edge rest ih =>
    have further := out.tail edge
    exact ih (next _ _ ⟨out, .head edge rest⟩ ⟨further, rest⟩ edge cyclic) further

end Circle

end Evaluated

theorem circles_detected (m : Memory) (formulas : KeyMap Compiled) (available : m.available = true)
    (small : formulas.size ≤ maxNesting)
    (plain : ∀ (k : Key) (f : Compiled), formulas[k]? = some f → f.isPlain = true)
    (order : List Key) (covers : ∀ k ∈ formulas, k ∈ order) :
    ∃ value d, (order.mapM evaluate).Returns (ofFormulas m formulas) (order.map value) d ∧
      (∀ k ∈ d.cyclicCells, m.ReliesOn formulas k k ∧ value k = circular) ∧
        ∀ k, m.ReliesOn formulas k k → (value k).isError = true ∧
          (∃ p ∈ d.cyclicCells, m.Circle formulas k p) ∧
            (m.Simple formulas k → k ∈ d.cyclicCells ∧ value k = circular) := by
  have here (k : Key) (f : Compiled) (known : formulas[k]? = some f) : f.Local :=
    local_of_plain f (plain k f known)
  have begun : Sound m formulas [] (· = m) .root (ofFormulas m formulas) := sound_start m rfl
  obtain ⟨d, returned, sound, _, whole, final⟩ := evaluations_return (m.truthful available)
    (names_agree_of_local here) (shallow_of_size small) begun order
  have complete : Whole .root ((ofFormulas m formulas).markCyclic []) .root d := whole
  have cached (k : Key) (known : k ∈ formulas) : k ∈ d.cache :=
    cached_of_whole complete k known (final k (covers k known) (by simp))
  have listed (k : Key) : k ∈ d.cyclicCells ↔ k ∈ d.cyclic := Std.ExtTreeSet.mem_toList
  refine ⟨seen m formulas [] d, d, returned, fun k member => ?_, fun k round => ?_⟩
  · have cyclic := (listed k).mp member
    have round := (relies_of_cyclic sound k cyclic).resolve_left List.not_mem_nil
    exact ⟨round, seen_of_cyclic sound cached k (m.formula_of_relies formulas k k round) cyclic⟩
  · have home : m.Circle formulas k k := ⟨round, round⟩
    obtain ⟨p, cyclic, circle⟩ := ring_found sound cached plain (m.Circle formulas k)
      (circle_onward k) k home
    refine ⟨ring_fails sound cached plain _ (circle_onward k) k home,
      ⟨p, (listed p).mpr cyclic, circle⟩, fun simple => ?_⟩
    have found := circular_onward sound k simple p circle cyclic
    exact ⟨(listed k).mpr found,
      seen_of_cyclic sound cached k (m.formula_of_relies formulas k k round) found⟩

-- A cycle of two cells, and a cell beside it that reads one of them.
theorem circles_detected_of_two :
    let a : Key := ⟨⟨1⟩, ⟨1, 1⟩⟩
    let b : Key := ⟨⟨1⟩, ⟨1, 2⟩⟩
    let c : Key := ⟨⟨1⟩, ⟨1, 3⟩⟩
    let m : Memory := ⟨[⟨⟨1⟩, ⟨1⟩, "Main"⟩], ∅, true⟩
    let formulas := (((∅ : KeyMap Compiled).insert a (.ofSource .empty "=B1")).insert b
      (.ofSource .empty "=-A1")).insert c (.ofSource .empty "=A1&\"x\"")
    (∀ k, m.Simple formulas k) ∧
      ∃ value d, ([c, a, b].mapM evaluate).Returns (ofFormulas m formulas) ([c, a, b].map value) d ∧
        (∀ k ∈ d.cyclicCells, m.ReliesOn formulas k k ∧ value k = circular) ∧
          ∀ k, m.ReliesOn formulas k k → (value k).isError = true ∧
            (∃ p ∈ d.cyclicCells, m.Circle formulas k p) ∧
              (m.Simple formulas k → k ∈ d.cyclicCells ∧ value k = circular) := by
  intro a b c m formulas
  have simple : (Compiled.ofSource .empty "=B1").isPlain = true ∧
      (Compiled.ofSource .empty "=-A1").isPlain = true ∧
        (Compiled.ofSource .empty "=A1&\"x\"").isPlain = true := by decide +kernel
  have read : (Compiled.ofSource .empty "=B1").references = [⟨none, .cell b.addr⟩] ∧
      (Compiled.ofSource .empty "=-A1").references = [⟨none, .cell a.addr⟩] ∧
        (Compiled.ofSource .empty "=A1&\"x\"").references = [⟨none, .cell a.addr⟩] := by
    decide +kernel
  have listed (k : Key) (f : Compiled) (known : formulas[k]? = some f) :
      k ∈ [c, a, b] ∧ f.isPlain = true ∧ ∃ r, f.references = [r] := by
    simp only [formulas, lookup_insert, Std.ExtTreeMap.getElem?_empty] at known
    grind
  have plain (k : Key) (f : Compiled) (known : formulas[k]? = some f) : f.isPlain = true :=
    (listed k f known).2.1
  have covers (k : Key) (known : k ∈ formulas) : k ∈ [c, a, b] := by
    obtain ⟨f, found⟩ := lookup_of_member formulas k known
    exact (listed k f found).1
  refine ⟨fun _ x y z _ _ _ first second => ?_,
    circles_detected m formulas rfl (by decide +kernel) plain [c, a, b] covers⟩
  obtain ⟨f, known, _⟩ := id first
  obtain ⟨_, _, r, only⟩ := listed x f known
  obtain ⟨one, member, rfl⟩ := refers_of_plain x y f known (plain x f known) first
  obtain ⟨other, among, rfl⟩ := refers_of_plain x z f known (plain x f known) second
  rw [only, List.mem_singleton] at member among
  rw [member, among]

-- Two cycles with a common edge. The third cell is asked for when the second one has its result.
theorem circle_overlooked :
    let a : Key := ⟨⟨1⟩, ⟨1, 1⟩⟩
    let b : Key := ⟨⟨1⟩, ⟨1, 2⟩⟩
    let c : Key := ⟨⟨1⟩, ⟨1, 3⟩⟩
    let m : Memory := ⟨[⟨⟨1⟩, ⟨1⟩, "Main"⟩], ∅, true⟩
    let formulas := (((∅ : KeyMap Compiled).insert a (.ofSource .empty "=B1+C1")).insert b
      (.ofSource .empty "=A1")).insert c (.ofSource .empty "=#N/A+B1")
    let ran := ([a, b, c].mapM evaluate).run.run (ofFormulas m formulas)
    (∀ (k : Key) (f : Compiled), formulas[k]? = some f → f.isPlain = true) ∧
      m.ReliesOn formulas c c ∧ ran.2.cyclicCells = [a, b] ∧
        ran.1.toOption.map (List.map Value.toText) =
          some ["#CIRCULAR!", "#CIRCULAR!", "#N/A"] := by
  intro a b c m formulas ran
  have simple : (Compiled.ofSource .empty "=B1+C1").isPlain = true ∧
      (Compiled.ofSource .empty "=A1").isPlain = true ∧
        (Compiled.ofSource .empty "=#N/A+B1").isPlain = true := by decide +kernel
  have plain (k : Key) (f : Compiled) (known : formulas[k]? = some f) : f.isPlain = true := by
    simp only [formulas, lookup_insert, Std.ExtTreeMap.getElem?_empty] at known
    grind
  have edge (k : Key) (r : Reference) (f : Compiled) (known : formulas[k]? = some f)
      (member : r ∈ f.references) (x : Key) (inside : (r.on k.sheet).contains x = true) :
      m.Refers formulas k x :=
    (refers_of_local k x f known (local_of_plain f (plain k f known))).mpr ⟨r, member, inside⟩
  have round : m.ReliesOn formulas c c := by
    have first : m.Refers formulas c b :=
      edge c ⟨none, .cell b.addr⟩ (.ofSource .empty "=#N/A+B1")
        (by simp only [formulas, lookup_insert]; rfl) (by decide +kernel) b (by decide)
    have second : m.Refers formulas b a :=
      edge b ⟨none, .cell a.addr⟩ (.ofSource .empty "=A1")
        (by simp only [formulas, lookup_insert]; rfl) (by decide +kernel) a (by decide)
    have third : m.Refers formulas a c :=
      edge a ⟨none, .cell c.addr⟩ (.ofSource .empty "=B1+C1")
        (by simp only [formulas, lookup_insert]; rfl) (by decide +kernel) c (by decide)
    exact .head first (.head second (.single third))
  exact ⟨plain, round, by decide +kernel, by decide +kernel⟩

end Context

end Spreadsheet
