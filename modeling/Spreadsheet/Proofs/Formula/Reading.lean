import Spreadsheet.Formula.Reading
import Spreadsheet.Store.Basic

-- Readings under fixed answers. What a reading asks depends on the answers that it was given
-- before, so its questions are followed along one course of answers. Two sources that agree on
-- the questions of that course give the same course.

set_option autoImplicit false

namespace Spreadsheet.Formula

-- Fixed contents: for every question an answer, or a failure.
abbrev Resolver : Type := (q : Query) → Except StoreError q.Answer

-- The answers that each question may get.
abbrev Answers : Type := (q : Query) → q.Answer → Prop

-- A resolver that writes every question into a log before it answers.
def Resolver.logged (resolver : Resolver) (q : Query) : Attempt (List Query) q.Answer := do
  modify (· ++ [q])
  match resolver q with
  | .ok answer => return answer
  | .error e => throw e

namespace Reading

variable {α β σ : Type}

-- The questions put to a resolver, in order, and the result. A failed question is the last one.
def trace (resolver : Resolver) : Reading α → List Query × Except StoreError α
  | done a => ([], .ok a)
  | ask q next =>
    match resolver q with
    | .error e => ([q], .error e)
    | .ok answer =>
      let course := (next answer).trace resolver
      (q :: course.1, course.2)

-- Every question on the course of a resolver is one of `asked`.
def Within (resolver : Resolver) (asked : Query → Prop) : Reading α → Prop
  | done _ => True
  | ask q next =>
    asked q ∧ ∀ answer, resolver q = .ok answer → (next answer).Within resolver asked

-- The same on every course of possible answers, also where one question is answered now this way
-- and now that.
def Along (answers : Answers) (asked : Query → Prop) : Reading α → Prop
  | done _ => True
  | ask q next => asked q ∧ ∀ answer, answers q answer → (next answer).Along answers asked

-- Some course of possible answers ends in the result.
def CanGive (answers : Answers) : Reading α → α → Prop
  | done a, result => a = result
  | ask q next, result =>
    ∃ answer, answers q answer ∧ (next answer).CanGive answers result

def value (answer : (q : Query) → q.Answer) (t : Reading α) : α := t.run (m := Id) answer

theorem along_bind (answers : Answers) (asked : Query → Prop) (t : Reading α)
    (f : α → Reading β) (first : t.Along answers asked)
    (rest : ∀ a, (f a).Along answers asked) : (t >>= f).Along answers asked := by
  induction t with
  | done a => exact rest a
  | ask q next ih =>
    exact ⟨first.1, fun answer given => ih answer (first.2 answer given)⟩

theorem along_mono (answers : Answers) (asked wider : Query → Prop)
    (weaken : ∀ q, asked q → wider q) (t : Reading α) (along : t.Along answers asked) :
    t.Along answers wider := by
  induction t with
  | done a => trivial
  | ask q next ih =>
    exact ⟨weaken q along.1, fun answer given => ih answer (along.2 answer given)⟩

theorem can_give_bind (answers : Answers) (t : Reading α) (f : α → Reading β) (b : β)
    (gives : (t >>= f).CanGive answers b) :
    ∃ a, t.CanGive answers a ∧ (f a).CanGive answers b := by
  induction t with
  | done a => exact ⟨a, rfl, gives⟩
  | ask q next ih =>
    obtain ⟨answer, possible, later⟩ := gives
    obtain ⟨a, first, rest⟩ := ih answer later
    exact ⟨a, ⟨answer, possible, first⟩, rest⟩

-- A resolver that keeps a state and may fail gives what its answers allow.
theorem can_give_run (answers : Answers) (resolver : (q : Query) → Attempt σ q.Answer)
    (possible : ∀ q s answer t, (resolver q).run.run s = (.ok answer, t) → answers q answer)
    (t : Reading α) (s after : σ) (a : α)
    (ended : (t.run resolver).run.run s = (.ok a, after)) : t.CanGive answers a := by
  induction t generalizing s with
  | done b =>
    cases ended
    rfl
  | ask q next ih =>
    simp only [run, ExceptT.run_bind, StateT.run_bind] at ended
    cases replied : (resolver q).run.run s with
    | mk result between =>
      rw [replied] at ended
      cases result with
      | error e => cases ended
      | ok answer =>
        exact ⟨answer, possible q s answer between replied, ih answer between ended⟩

theorem within_of_along (resolver : Resolver) (asked wider : Query → Prop)
    (weaken : ∀ q, asked q → wider q) (t : Reading α)
    (along : t.Along (fun q answer => resolver q = .ok answer) asked) :
    t.Within resolver wider := by
  induction t with
  | done a => trivial
  | ask q next ih =>
    exact ⟨weaken q along.1, fun answer given => ih answer (along.2 answer given)⟩

theorem within_agree (a b : Resolver) (asked : Query → Prop) (t : Reading α)
    (within : t.Within a asked) (agree : ∀ q, asked q → a q = b q) : t.Within b asked := by
  induction t with
  | done x => trivial
  | ask q next ih =>
    refine ⟨within.1, fun answer given => ih answer (within.2 answer ?_)⟩
    rw [agree q within.1, given]

theorem trace_within (resolver : Resolver) (asked : Query → Prop) (t : Reading α)
    (within : t.Within resolver asked) (q : Query) (member : q ∈ (t.trace resolver).1) :
    asked q := by
  induction t with
  | done a => simp [trace] at member
  | ask first next ih =>
    cases given : resolver first with
    | error e =>
      have same : q = first := by simpa [trace, given] using member
      exact same ▸ within.1
    | ok answer =>
      have split : q = first ∨ q ∈ ((next answer).trace resolver).1 := by
        simpa [trace, given] using member
      rcases split with rfl | later
      · exact within.1
      · exact ih answer (within.2 answer given) later

theorem trace_agree (a b : Resolver) (asked : Query → Prop) (t : Reading α)
    (within : t.Within a asked) (agree : ∀ q, asked q → a q = b q) : t.trace b = t.trace a := by
  induction t with
  | done x => rfl
  | ask q next ih =>
    have same := agree q within.1
    cases given : a q with
    | error e => simp [trace, given, ← same]
    | ok answer => simp [trace, given, ← same, ih answer (within.2 answer given)]

theorem run_logged (resolver : Resolver) (t : Reading α) (log : List Query) :
    (t.run resolver.logged).run.run log =
      ((t.trace resolver).2, log ++ (t.trace resolver).1) := by
  induction t generalizing log with
  | done a => simp only [run, trace, List.append_nil]; rfl
  | ask q next ih =>
    cases given : resolver q with
    | error e =>
      have failed : (resolver.logged q).run.run log = (.error e, log ++ [q]) := by
        simp only [Resolver.logged, given]; rfl
      simp only [run, ExceptT.run_bind, StateT.run_bind, failed, trace, given]
      rfl
    | ok answer =>
      have replied : (resolver.logged q).run.run log = (.ok answer, log ++ [q]) := by
        simp only [Resolver.logged, given]; rfl
      simp only [run, ExceptT.run_bind, StateT.run_bind, replied, trace, given]
      exact (ih answer (log ++ [q])).trans (by simp)

theorem trace_bind (resolver : Resolver) (t : Reading α) (f : α → Reading β) :
    (t >>= f).trace resolver =
      match t.trace resolver with
      | (asked, .error e) => (asked, .error e)
      | (asked, .ok a) => (asked ++ ((f a).trace resolver).1, ((f a).trace resolver).2) := by
  induction t with
  | done a => rfl
  | ask q next ih =>
    have goesOn : (ask q next >>= f) = ask q fun answer => next answer >>= f := rfl
    rw [goesOn]
    cases given : resolver q with
    | error e => simp only [trace, given]
    | ok answer =>
      simp only [trace, given, ih answer]
      rcases (next answer).trace resolver with ⟨asked, e | a⟩ <;> rfl

theorem trace_value (answer : (q : Query) → q.Answer) (t : Reading α) :
    (t.trace fun q => .ok (answer q)).2 = .ok (t.value answer) := by
  induction t with
  | done a => rfl
  | ask q next ih => exact ih (answer q)

theorem value_agree (a b : (q : Query) → q.Answer) (asked : Query → Prop) (t : Reading α)
    (within : t.Within (fun q => .ok (a q)) asked) (agree : ∀ q, asked q → a q = b q) :
    t.value b = t.value a := by
  have course := trace_agree (fun q => .ok (a q)) (fun q => .ok (b q)) asked t within
    fun q member => congrArg Except.ok (agree q member)
  have results := congrArg Prod.snd course
  rw [trace_value, trace_value] at results
  exact Except.ok.inj results

theorem value_bind (answer : (q : Query) → q.Answer) (t : Reading α) (f : α → Reading β) :
    (t >>= f).value answer = (f (t.value answer)).value answer := by
  induction t with
  | done a => rfl
  | ask q next ih => exact ih (answer q)

theorem within_bind (answer : (q : Query) → q.Answer) (asked : Query → Prop) (t : Reading α)
    (f : α → Reading β) (within : (t >>= f).Within (fun q => .ok (answer q)) asked) :
    t.Within (fun q => .ok (answer q)) asked ∧
      (f (t.value answer)).Within (fun q => .ok (answer q)) asked := by
  induction t with
  | done a => exact ⟨trivial, within⟩
  | ask q next ih =>
    have later := ih (answer q) (within.2 (answer q) rfl)
    refine ⟨⟨within.1, fun given same => ?_⟩, later.2⟩
    exact Except.ok.inj same ▸ later.1

-- The questions of two courses that have gone alike so far are the same.
theorem value_meet (a b : (q : Query) → q.Answer) (asked also : Query → Prop) (t : Reading α)
    (first : t.Within (fun q => .ok (a q)) asked) (second : t.Within (fun q => .ok (b q)) also)
    (agree : ∀ q, asked q → also q → a q = b q) : t.value a = t.value b := by
  induction t with
  | done x => rfl
  | ask q next ih =>
    have same := agree q first.1 second.1
    have later := ih (a q) (first.2 (a q) rfl) (second.2 (a q) (congrArg Except.ok same.symm))
    exact later.trans (congrArg (fun answer => (next answer).value b) same)

end Reading

end Spreadsheet.Formula
