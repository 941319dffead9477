import Spreadsheet.Proofs.Engine.Detection

-- Cells off the circles, with nothing marked beforehand. No mark falls on them, and their formulas
-- come out as if every cell had shown its final value from the start, also where they read cells
-- of a circle, or ranges with such cells in them.

set_option autoImplicit false

namespace Spreadsheet

open Formula

namespace Memory

-- What formulas read where every cell of the grid shows the value that `view` gives to it.
def shown (m : Memory) (view : Key → Value) : (q : Query) → q.Answer
  | .cell k => view k
  | .range r => .ofList r.range (r.keys.map fun k => (k.addr, view k))
  | .sheet home name => m.sheetFrom home name

theorem shown_eq (m : Memory) (view : Key → Value) (blank : ∀ k ∉ m.cells, view k = .empty) :
    m.shown view = m.answerFrom view := by
  funext q
  cases q with
  | cell k => rfl
  | sheet home name => rfl
  | range r =>
    exact tells_unique _ _ (tells_of_range r view) (m.records_tell r view blank)

end Memory

namespace Context

theorem only_circular_marked (m : Memory) (formulas : KeyMap Compiled)
    (available : m.available = true) (small : formulas.size ≤ maxNesting)
    (here : ∀ (k : Key) (f : Compiled), formulas[k]? = some f → f.Local)
    (stored : ∀ k ∈ formulas, ∃ f, m.cells[k]? = some (.formula f))
    (order : List Key) (covers : ∀ k ∈ formulas, k ∈ order) :
    ∃ value d, (order.mapM evaluate).Returns (ofFormulas m formulas) (order.map value) d ∧
      (∀ k ∈ d.cyclicCells, m.ReliesOn formulas k k) ∧
        ∀ (k : Key) (f : Compiled), formulas[k]? = some f → ¬m.ReliesOn formulas k k →
          value k = (f.evaluate k.sheet).value
            (m.shown fun p => if p ∈ formulas then value p else m.value p) := by
  have begun : Sound m formulas [] (· = m) .root (ofFormulas m formulas) := sound_start m rfl
  obtain ⟨d, returned, sound, _, whole, final⟩ := evaluations_return (m.truthful available)
    (names_agree_of_local here) (shallow_of_size small) begun order
  have complete : Whole .root ((ofFormulas m formulas).markCyclic []) .root d := whole
  have cached (k : Key) (known : k ∈ formulas) : k ∈ d.cache :=
    cached_of_whole complete k known (final k (covers k known) (by simp))
  have round (k : Key) (cyclic : k ∈ d.cyclic) : m.ReliesOn formulas k k :=
    (relies_of_cyclic sound k cyclic).resolve_left List.not_mem_nil
  have parted : (fun p => if p ∈ formulas then seen m formulas [] d p else m.value p) =
      seen m formulas [] d := by
    funext p
    by_cases known : p ∈ formulas
    · rw [if_pos known]
    · rw [if_neg known, seen_stored sound p known]
  have blank (k : Key) (absent : k ∉ m.cells) : seen m formulas [] d k = .empty := by
    have unknown : k ∉ formulas := fun known => by
      obtain ⟨f, found⟩ := stored k known
      exact absent (member_of_lookup m.cells k _ found)
    exact (seen_stored sound k unknown).trans (m.value_of_absent k absent)
  refine ⟨seen m formulas [] d, d, returned, fun k member => ?_, fun k f known off => ?_⟩
  · exact round k (Std.ExtTreeSet.mem_toList.mp member)
  · have free : k ∉ d.cyclic := fun cyclic => off (round k cyclic)
    have held := cached k (member_of_lookup formulas k f known)
    rw [parted, m.shown_eq _ blank]
    exact seen_computed sound k f known held free

-- A cycle of two cells, a cell that reads a range with both of them, and one that reads a literal.
theorem only_circular_marked_beside_circle :
    let a : Key := ⟨⟨1⟩, ⟨1, 1⟩⟩
    let b : Key := ⟨⟨1⟩, ⟨1, 2⟩⟩
    let c : Key := ⟨⟨1⟩, ⟨1, 3⟩⟩
    let d : Key := ⟨⟨1⟩, ⟨1, 4⟩⟩
    let e : Key := ⟨⟨1⟩, ⟨1, 5⟩⟩
    let stale (source : String) : Cell := .formula ⟨source, .text "stale", none, []⟩
    let m : Memory := ⟨[⟨⟨1⟩, ⟨1⟩, "Main"⟩], (((((∅ : KeyMap Cell).insert a (stale "=B1")).insert b
      (stale "=-A1")).insert c (stale "=IFERROR(CONCAT(A1:B1),E1)")).insert d
        (stale "=E1&E1")).insert e (.literal (.text "x")), true⟩
    let formulas := ((((∅ : KeyMap Compiled).insert a (.ofSource .empty "=B1")).insert b
      (.ofSource .empty "=-A1")).insert c (.ofSource .empty "=IFERROR(CONCAT(A1:B1),E1)")).insert d
        (.ofSource .empty "=E1&E1")
    let order := [c, b, e, d, a]
    (∀ k ∈ formulas, ∃ f, m.cells[k]? = some (.formula f)) ∧
      (¬m.ReliesOn formulas c c ∧ ¬m.ReliesOn formulas d d) ∧
        ∃ value out, (order.mapM evaluate).Returns (ofFormulas m formulas) (order.map value) out ∧
          (order.map value).map Value.toText = ["x", "#CIRCULAR!", "x", "xx", "#CIRCULAR!"] ∧
            (∀ k ∈ out.cyclicCells, m.ReliesOn formulas k k) ∧
              ∀ (k : Key) (f : Compiled), formulas[k]? = some f → ¬m.ReliesOn formulas k k →
                value k = (f.evaluate k.sheet).value
                  (m.shown fun p => if p ∈ formulas then value p else m.value p) := by
  intro a b c d e stale m formulas order
  have ring : (Compiled.ofSource .empty "=B1").references = [⟨none, .cell b.addr⟩] ∧
      (Compiled.ofSource .empty "=-A1").references = [⟨none, .cell a.addr⟩] := by decide +kernel
  have outer : (Compiled.ofSource .empty "=IFERROR(CONCAT(A1:B1),E1)").references =
      [⟨none, .range ⟨a.addr, b.addr⟩⟩, ⟨none, .cell e.addr⟩] := by decide +kernel
  have joined : (Compiled.ofSource .empty "=E1&E1").references = [⟨none, .cell e.addr⟩] := by
    decide +kernel
  have listed (k : Key) (f : Compiled) (known : formulas[k]? = some f) :
      k ∈ [a, b, c, d] ∧ f.references ⊆
        [⟨none, .cell a.addr⟩, ⟨none, .cell b.addr⟩, ⟨none, .cell e.addr⟩,
          ⟨none, .range ⟨a.addr, b.addr⟩⟩] := by
    simp only [formulas, lookup_insert, Std.ExtTreeMap.getElem?_empty] at known
    grind
  have here (k : Key) (f : Compiled) (known : formulas[k]? = some f) : f.Local := by
    intro r member
    have among := (listed k f known).2 member
    simp only [List.mem_cons, List.not_mem_nil, or_false] at among
    rcases among with rfl | rfl | rfl | rfl <;> rfl
  have among (k : Key) (known : k ∈ formulas) : k ∈ [a, b, c, d] := by
    obtain ⟨f, found⟩ := lookup_of_member formulas k known
    exact (listed k f found).1
  have stored (k : Key) (known : k ∈ formulas) : ∃ f, m.cells[k]? = some (.formula f) := by
    have inside := among k known
    simp only [List.mem_cons, List.not_mem_nil, or_false] at inside
    simp only [m, lookup_insert, stale]
    rcases inside with rfl | rfl | rfl | rfl <;> simp [a, b, c, d, e]
  -- No formula refers to the two cells off the circle.
  have inward (k p : Key) (edge : m.Refers formulas k p) : p.addr.col ≤ 2 ∨ p.addr.col = 5 := by
    obtain ⟨f, known, _⟩ := id edge
    obtain ⟨r, member, inside⟩ := (refers_of_local k p f known (here k f known)).mp edge
    have near := (listed k f known).2 member
    simp only [List.mem_cons, List.not_mem_nil, or_false] at near
    simp only [SheetRange.contains, Range.contains_iff, Bool.and_eq_true] at inside
    rcases near with rfl | rfl | rfl | rfl <;>
      simp only [Reference.on, Target.extent, Range.single, a, b, e] at inside <;> omega
  have off (k : Key) (apart : ¬(k.addr.col ≤ 2 ∨ k.addr.col = 5)) : ¬m.ReliesOn formulas k k := by
    intro round
    obtain ⟨x, _, edge⟩ := Relation.TransGen.tail'_iff.mp round
    exact apart (inward x k edge)
  obtain ⟨value, out, returned, circular, computed⟩ := only_circular_marked m formulas rfl
    (by decide +kernel) here stored order fun k known => by
      have inside := among k known
      simp only [List.mem_cons, List.not_mem_nil, or_false] at inside
      rcases inside with rfl | rfl | rfl | rfl <;> simp [order]
  have spelled : ((order.mapM evaluate).run.run (ofFormulas m formulas)).1.toOption.map
      (List.map Value.toText) = some ["x", "#CIRCULAR!", "x", "xx", "#CIRCULAR!"] := by
    decide +kernel
  have result := congrArg (fun ended => ended.1.toOption.map (List.map Value.toText)) returned
  refine ⟨stored, ⟨off c (by decide), off d (by decide)⟩, value, out, returned, ?_, circular,
    computed⟩
  exact Option.some.inj (result.symm.trans spelled)

end Context

end Spreadsheet
