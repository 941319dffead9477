import Spreadsheet.Proofs.Formula.References
import Spreadsheet.Proofs.Formula.Arguments

-- Evaluation asks for nothing but the references of its expression: whatever uses arguments is
-- bounded when they are, and so, by induction on the expression, is every expression. No
-- evaluation therefore tells two resolvers apart that agree on the references.

set_option autoImplicit false

namespace Spreadsheet.Formula

variable {home : SheetId} {answers : Answers} {refs : List Reference}

theorem uses_confined {ι : Type} (T : (ι → Argument) → Reading Value) (uses : Uses T)
    (args : ι → Argument) (confined : ∀ i, ArgumentConfined home answers refs (args i)) :
    Confined home answers refs (T args) := by
  induction uses with
  | done v => trivial
  | value i next _ ih => exact confined_bind _ _ (confined i).value ih
  | operand i next _ ih => exact confined_bind _ _ (confined i).operand ih
  | table i next _ ih => exact confined_bind _ _ (confined i).table ih

theorem call_confined (name : String) (args : List Argument)
    (confined : ∀ arg ∈ args, ArgumentConfined home answers refs arg) :
    Confined home answers refs (Function.call name args) := by
  have bounded := uses_confined _ (call_uses name args.attach) Subtype.val
    fun i => confined i.val i.property
  rwa [List.attach_map_subtype_val] at bounded

mutual

theorem evaluate_confined (e : Expr) (listed : ∀ r ∈ e.occurrences, r ∈ refs) :
    Confined home answers refs (e.evaluate home) := by
  cases e with
  | number n => trivial
  | text s => trivial
  | boolean b => trivial
  | error e => trivial
  | name s => trivial
  | reference r =>
    exact reference_value_confined r (listed r (by simp [Expr.occurrences]))
  | negate operand =>
    have inner := evaluate_confined operand fun r member => listed r (by simpa [Expr.occurrences])
    exact confined_bind _ _ inner fun _ => trivial
  | binary op left right =>
    have first := evaluate_confined left fun r member =>
      listed r (by simp [Expr.occurrences, member])
    have second := evaluate_confined right fun r member =>
      listed r (by simp [Expr.occurrences, member])
    exact confined_bind _ _ first fun _ => confined_bind _ _ second fun _ => trivial
  | call function args =>
    exact call_confined function _
      (arguments_confined args fun r member => listed r (by simpa [Expr.occurrences]))

theorem arguments_confined (args : List Expr) (listed : ∀ r ∈ Expr.occurrencesIn args, r ∈ refs) :
    ∀ arg ∈ Expr.argumentsOf home args, ArgumentConfined home answers refs arg := by
  cases args with
  | nil => simp [Expr.argumentsOf]
  | cons e rest =>
    have later := arguments_confined rest fun r member =>
      listed r (by simp [Expr.occurrencesIn, member])
    have first := evaluate_confined e fun r member =>
      listed r (by simp [Expr.occurrencesIn, member])
    have computed := computed_argument_confined (fun _ => e.evaluate home) first
    intro arg member
    cases e with
    | reference r =>
      have direct : ArgumentConfined home answers refs _ := reference_argument_confined r
        (listed r (by simp [Expr.occurrencesIn, Expr.occurrences]))
      simp only [Expr.argumentsOf, List.mem_cons] at member
      rcases member with rfl | member
      · exact direct
      · exact later arg member
    | _ =>
      simp only [Expr.argumentsOf, List.mem_cons] at member
      rcases member with rfl | member
      · exact computed
      · exact later arg member

end

theorem references_confined (e : Expr) : Confined home answers e.references (e.evaluate home) :=
  evaluate_confined e fun r member => (mem_distinct e.occurrences r).mpr member

-- Resolvers that answer alike for references: for their sheets and, once each is bound to its
-- sheet, for the cells that it covers, as one range and, if it covers one cell, as that cell.
structure AgreeOn (home : SheetId) (refs : List Reference) (a b : Resolver) : Prop where
  sheets : ∀ r ∈ refs, ∀ name, r.sheet? = some name → a (.sheet home name) = b (.sheet home name)
  cells : ∀ r ∈ refs, ∀ k, r.boundBy home a = some (.ofKey k) → a (.cell k) = b (.cell k)
  ranges : ∀ r ∈ refs, ∀ x, r.boundBy home a = some x → a (.range x) = b (.range x)

theorem agree_on_accounted (a b : Resolver) (agree : AgreeOn home refs a b) (q : Query)
    (accounted : Accounted home a refs q) : a q = b q := by
  cases q with
  | sheet sheet name =>
    obtain ⟨rfl, r, member, named⟩ := accounted
    exact agree.sheets r member name named
  | cell k =>
    obtain ⟨r, member, bound⟩ := accounted
    exact agree.cells r member k bound
  | range x =>
    obtain ⟨r, member, bound⟩ := accounted
    exact agree.ranges r member x bound

-- The value of an expression and the questions that its evaluation puts to a resolver, in order.
def Expr.course (e : Expr) (home : SheetId) (resolver : Resolver) :
    Except StoreError Value × List Query :=
  ((e.evaluate home).run resolver.logged).run.run []

theorem course_trace (e : Expr) (home : SheetId) (resolver : Resolver) :
    e.course home resolver =
      (((e.evaluate home).trace resolver).2, ((e.evaluate home).trace resolver).1) :=
  Reading.run_logged resolver (e.evaluate home) []

theorem references_determine_evaluation (e : Expr) (home : SheetId) (a b : Resolver)
    (agree : AgreeOn home e.references a b) :
    e.course home b = e.course home a ∧
      ∀ q ∈ (e.course home a).2, Accounted home a e.references q := by
  have bounded : Bounded home a e.references (e.evaluate home) :=
    bounded_of_confined home a _ _ (references_confined e)
  rw [course_trace, course_trace]
  constructor
  · rw [Reading.trace_agree a b _ _ bounded (agree_on_accounted a b agree)]
  · exact Reading.trace_within a _ _ bounded

-- The sum reads a whole sheet range; a resolver that fails at every cell that no reference
-- covers gives the same course.
theorem references_determine_evaluation_of_sum :
    let home : SheetId := ⟨1⟩
    let e : Expr := .binary .add (.reference ⟨none, .cell ⟨1, 1⟩⟩)
      (.call "SUM" [.reference ⟨some "Rates", .range ⟨⟨1, 1⟩, ⟨2, 2⟩⟩⟩])
    let blank : Resolver := fun
      | .cell _ => .ok .empty
      | .range r => .ok (.ofList r.range [])
      | .sheet _ _ => .ok (some ⟨2⟩)
    let torn : Resolver := fun
      | .cell k => if k = ⟨home, ⟨1, 1⟩⟩ then .ok .empty else .error (.unavailable "torn")
      | q => blank q
    AgreeOn home e.references blank torn ∧ e.course home torn = e.course home blank ∧
      ∀ q ∈ (e.course home blank).2, Accounted home blank e.references q := by
  intro home e blank torn
  have listed : e.references = [⟨none, .cell ⟨1, 1⟩⟩, ⟨some "Rates", .range ⟨⟨1, 1⟩, ⟨2, 2⟩⟩⟩] := by
    decide
  have agree : AgreeOn home e.references blank torn := by
    rw [listed]
    refine ⟨fun _ _ _ _ => rfl, fun r member k bound => ?_, fun _ _ _ _ => rfl⟩
    simp only [List.mem_cons, List.not_mem_nil, or_false] at member
    rcases member with rfl | rfl
    · have same : k = ⟨home, ⟨1, 1⟩⟩ := by
        cases k
        simp_all [Reference.boundBy, Reference.on, Target.extent, SheetRange.ofKey, Range.single]
      simp [blank, torn, same]
    · simp [Reference.boundBy, blank, Reference.on, Target.extent, SheetRange.ofKey,
        Range.single] at bound
      have first := bound.2.1.trans bound.2.2.symm
      simp at first
  exact ⟨agree, references_determine_evaluation e home blank torn agree⟩

end Spreadsheet.Formula
