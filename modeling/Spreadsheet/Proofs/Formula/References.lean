import Spreadsheet.Formula.Evaluation
import Spreadsheet.Proofs.Formula.Reading

-- The references of an expression bound what its evaluation asks. A reference may be read as one
-- value, as an operand or as a table; whichever way a function takes, it asks for the sheet of
-- the reference and then for exactly the cells that the reference covers.

set_option autoImplicit false

namespace Spreadsheet.Formula

-- What a reference on the sheet `home` covers, where the resolver has a sheet for it.
def Reference.boundBy (home : SheetId) (resolver : Resolver) (r : Reference) :
    Option SheetRange :=
  match r.sheet? with
  | none => some (r.on home)
  | some name =>
    match resolver (.sheet home name) with
    | .ok found? => found?.map r.on
    | .error _ => none

def Accounted (home : SheetId) (resolver : Resolver) (refs : List Reference) : Query → Prop
  | .sheet sheet name => sheet = home ∧ ∃ r ∈ refs, r.sheet? = some name
  | .cell k => ∃ r ∈ refs, r.boundBy home resolver = some (.ofKey k)
  | .range x => ∃ r ∈ refs, r.boundBy home resolver = some x

-- A reading on the course of a resolver that asks for references of a list only.
abbrev Bounded (home : SheetId) (resolver : Resolver) (refs : List Reference) {α : Type}
    (t : Reading α) : Prop :=
  t.Within resolver (Accounted home resolver refs)

-- What a reference on the sheet `home` may cover under some answers.
def Reference.Covers (home : SheetId) (answers : Answers) (r : Reference) (x : SheetRange) :
    Prop :=
  match r.sheet? with
  | none => x = r.on home
  | some name => ∃ sheet, answers (.sheet home name) (some sheet) ∧ x = r.on sheet

def Covered (home : SheetId) (answers : Answers) (refs : List Reference) : Query → Prop
  | .sheet sheet name => sheet = home ∧ ∃ r ∈ refs, r.sheet? = some name
  | .cell k => ∃ r ∈ refs, r.Covers home answers (.ofKey k)
  | .range x => ∃ r ∈ refs, r.Covers home answers x

abbrev Confined (home : SheetId) (answers : Answers) (refs : List Reference) {α : Type}
    (t : Reading α) : Prop :=
  t.Along answers (Covered home answers refs)

structure ArgumentConfined (home : SheetId) (answers : Answers) (refs : List Reference)
    (arg : Argument) : Prop where
  value : Confined home answers refs arg.value
  operand : Confined home answers refs arg.operand
  table : Confined home answers refs arg.table

theorem bounded_of_confined {α : Type} (home : SheetId) (resolver : Resolver)
    (refs : List Reference) (t : Reading α)
    (confined : Confined home (fun q answer => resolver q = .ok answer) refs t) :
    Bounded home resolver refs t := by
  refine Reading.within_of_along resolver _ _ (fun q covered => ?_) t confined
  have bound (r : Reference) (x : SheetRange)
      (covers : r.Covers home (fun q answer => resolver q = .ok answer) x) :
      r.boundBy home resolver = some x := by
    unfold Reference.Covers at covers
    unfold Reference.boundBy
    cases named : r.sheet? with
    | none =>
      rw [named] at covers
      exact congrArg some covers.symm
    | some name =>
      rw [named] at covers
      obtain ⟨sheet, given, rfl⟩ := covers
      simp [given]
  cases q with
  | sheet sheet name => exact covered
  | cell k =>
    obtain ⟨r, member, covers⟩ := covered
    exact ⟨r, member, bound r _ covers⟩
  | range x =>
    obtain ⟨r, member, covers⟩ := covered
    exact ⟨r, member, bound r x covers⟩

variable {home : SheetId} {answers : Answers} {refs : List Reference}

theorem covered_on (r : Reference) (x : SheetRange) (covers : r.Covers home answers x) :
    ∃ sheet, x = r.on sheet := by
  unfold Reference.Covers at covers
  split at covers
  · exact ⟨home, covers⟩
  · obtain ⟨sheet, _, same⟩ := covers
    exact ⟨sheet, same⟩

theorem confined_bind {α β : Type} (t : Reading α) (f : α → Reading β)
    (first : Confined home answers refs t) (rest : ∀ a, Confined home answers refs (f a)) :
    Confined home answers refs (t >>= f) :=
  Reading.along_bind answers _ t f first rest

-- All three ways to read a reference begin with its sheet; only what follows differs.
theorem sheet_of_confined {α : Type} (r : Reference) (member : r ∈ refs)
    (next : Option SheetId → Reading α) (missing : Confined home answers refs (next none))
    (found : ∀ sheet, r.Covers home answers (r.on sheet) →
      Confined home answers refs (next (some sheet))) :
    Confined home answers refs (sheetOf home r.sheet? >>= next) := by
  cases named : r.sheet? with
  | none => exact found home (by simp [Reference.Covers, named])
  | some name =>
    refine ⟨⟨rfl, r, member, named⟩, fun answer given => ?_⟩
    cases answer with
    | none => exact missing
    | some sheet =>
      apply found sheet
      rw [Reference.Covers, named]
      exact ⟨sheet, given, rfl⟩

theorem single_of_isSingle (r : Range) (single : r.isSingle = true) : r = .single r.first := by
  cases r
  simp_all [Range.isSingle, Range.single]

theorem reference_value_confined (r : Reference) (member : r ∈ refs) :
    Confined home answers refs (r.value home) := by
  refine sheet_of_confined r member _ trivial fun sheet covers => ?_
  cases r with
  | mk sheet? target =>
    cases target with
    | cell a => exact ⟨⟨_, member, covers⟩, fun _ _ => trivial⟩
    | range range =>
      by_cases single : range.isSingle = true
      · have whole : Reference.on ⟨sheet?, .range range⟩ sheet = .ofKey ⟨sheet, range.first⟩ :=
          congrArg (SheetRange.mk sheet) (single_of_isSingle range single)
        simp only [single, if_true]
        exact ⟨⟨_, member, whole ▸ covers⟩, fun _ _ => trivial⟩
      · simp only [single]
        trivial

theorem reference_operand_confined (r : Reference) (member : r ∈ refs) :
    Confined home answers refs (r.operand home) := by
  refine sheet_of_confined r member _ trivial fun sheet covers => ?_
  cases r with
  | mk sheet? target =>
    cases target with
    | cell a => exact ⟨⟨_, member, covers⟩, fun _ _ => trivial⟩
    | range range => exact ⟨⟨_, member, covers⟩, fun _ _ => trivial⟩

theorem reference_table_confined (r : Reference) (member : r ∈ refs) :
    Confined home answers refs (r.table home) :=
  sheet_of_confined r member _ trivial fun _ covers =>
    ⟨⟨r, member, covers⟩, fun _ _ => trivial⟩

theorem reference_argument_confined (r : Reference) (member : r ∈ refs) :
    ArgumentConfined home answers refs (.reference home r) :=
  ⟨reference_value_confined r member,
    reference_operand_confined r member,
    reference_table_confined r member⟩

theorem computed_argument_confined (value : Unit → Reading Value)
    (confined : Confined home answers refs (value ())) :
    ArgumentConfined home answers refs (.computed value) :=
  ⟨confined, confined_bind _ _ confined fun _ => trivial,
    confined_bind _ _ confined fun _ => trivial⟩

end Spreadsheet.Formula
