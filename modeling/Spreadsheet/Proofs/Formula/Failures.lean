import Spreadsheet.Proofs.Formula.Evaluator

-- Failures of evaluation. The one who answers may fail at any call. Evaluation fails when a call
-- has failed, with the error of this call, and makes no call after it.

set_option autoImplicit false

namespace Spreadsheet.Formula

structure Call where
  query : Query
  failure? : Option StoreError
deriving DecidableEq

section Recorded

variable {σ α : Type} (resolver : (q : Query) → Attempt σ q.Answer)

-- Answers as the resolver does, and lists each call with its failure.
def recorded (q : Query) : Evaluation (σ × List Call) q.Answer :=
  ExceptT.mk fun (s, calls) =>
    match (resolver q).run.run s with
    | (.ok answer, after) => (.ok answer, after, calls ++ [⟨q, none⟩])
    | (.error e, after) => (.error (.store e), after, calls ++ [⟨q, some e⟩])

-- The calls that a result comes from: none of them failed, or the last one alone, with the error.
def CameFrom (made : List Call) : Except StoreError α → Prop
  | .ok _ => ∀ call ∈ made, call.failure? = none
  | .error e => ∃ earlier q, made = earlier ++ [⟨q, some e⟩] ∧ ∀ call ∈ earlier, call.failure? = none

theorem failed_iff_of_came (made : List Call) (result : Except StoreError α)
    (came : CameFrom made result) :
    (∃ error, result = .error error) ↔ ∃ call ∈ made, call.failure? ≠ none := by
  cases result with
  | ok a =>
    constructor
    · exact fun ⟨_, ended⟩ => nomatch ended
    · intro ⟨call, member, failed⟩
      exact absurd (came call member) failed
  | error error =>
    obtain ⟨earlier, q, rfl, _⟩ := came
    constructor
    · intro _
      exact ⟨⟨q, some error⟩, List.mem_concat_self, Option.some_ne_none error⟩
    · exact fun _ => ⟨error, rfl⟩

theorem failed_store_iff (result : Except StoreError α) (failure : FormulaError) :
    result.mapError .store = .error failure ↔
      ∃ error, result = .error error ∧ failure = .store error := by
  cases result with
  | ok a =>
    constructor
    · exact fun ended => nomatch ended
    · exact fun ⟨_, ended, _⟩ => nomatch ended
  | error error =>
    constructor
    · intro ended
      exact ⟨error, rfl, (Except.error.inj ended).symm⟩
    · intro ⟨other, ended, same⟩
      rw [same, ← Except.error.inj ended]
      rfl

theorem came_from_later (q : Query) (made : List Call) (result : Except StoreError α)
    (came : CameFrom made result) : CameFrom (⟨q, none⟩ :: made) result := by
  cases result with
  | ok a =>
    intro call member
    cases member with
    | head => rfl
    | tail _ later => exact came call later
  | error e =>
    obtain ⟨earlier, last, rfl, clean⟩ := came
    refine ⟨⟨q, none⟩ :: earlier, last, rfl, fun call member => ?_⟩
    cases member with
    | head => rfl
    | tail _ later => exact clean call later

theorem run_recorded (t : Reading α) (s : σ) (calls : List Call) :
    let plain := (t.run resolver).run.run s
    let outcome := (t.run (recorded resolver)).run.run (s, calls)
    outcome.1 = plain.1.mapError .store ∧ outcome.2.1 = plain.2 ∧
      ∃ made, outcome.2.2 = calls ++ made ∧ CameFrom made plain.1 := by
  induction t generalizing s calls with
  | done a =>
    have none : CameFrom [] (Except.ok a) := fun call member => absurd member List.not_mem_nil
    exact ⟨rfl, rfl, [], (List.append_nil calls).symm, none⟩
  | ask q next ih =>
    have answered : (recorded resolver q).run.run (s, calls) =
        match (resolver q).run.run s with
        | (.ok answer, after) => (.ok answer, after, calls ++ [⟨q, none⟩])
        | (.error e, after) => (.error (.store e), after, calls ++ [⟨q, some e⟩]) := rfl
    simp only [Reading.run, ExceptT.run_bind, StateT.run_bind, answered]
    rcases (resolver q).run.run s with ⟨e | answer, after⟩
    · exact ⟨rfl, rfl, [⟨q, some e⟩], rfl, [], q, rfl, by simp⟩
    · obtain ⟨result, state, made, listed, came⟩ := ih answer after (calls ++ [⟨q, none⟩])
      refine ⟨result, state, ⟨q, none⟩ :: made, ?_, came_from_later q made _ came⟩
      exact listed.trans (List.append_assoc calls [⟨q, none⟩] made)

end Recorded

-- The evaluation of an expression on a sheet, with the cells under evaluation as the path that
-- each call is given. What has been listed stays so when a step goes on after a failure.
def Expr.recordedRun {σ : Type} (e : Expr) (home : SheetId) (path : Path)
    (resolver : Path → (q : Query) → Attempt σ q.Answer) (s : σ) :
    Except FormulaError Value × σ × List Call :=
  let ev : Evaluator (σ × List Call) := ⟨fun path => recorded (resolver path), home, path⟩
  (ev.evaluate e).run.run (s, [])

theorem fails_with_last_call {σ : Type} (e : Expr) (home : SheetId) (path : Path)
    (resolver : Path → (q : Query) → Attempt σ q.Answer) (s : σ) :
    let outcome := e.recordedRun home path resolver s
    let plain := ((e.evaluate home).run (resolver path)).run.run s
    ((∃ failure, outcome.1 = .error failure) ↔ ∃ call ∈ outcome.2.2, call.failure? ≠ none) ∧
      (∀ failure, outcome.1 = .error failure → ∃ earlier q error,
        outcome.2.2 = earlier ++ [⟨q, some error⟩] ∧ failure = .store error ∧
          ∀ call ∈ earlier, call.failure? = none) ∧
      (∀ reason, outcome.1 ≠ .error (.parse reason)) ∧
      outcome.1 = plain.1.mapError .store ∧ outcome.2.1 = plain.2 := by
  intro outcome plain
  have ran : outcome = ((e.evaluate home).run (recorded (resolver path))).run.run (s, []) :=
    congrArg (fun act : Evaluation (σ × List Call) Value => act.run.run (s, []))
      (Evaluator.evaluate_runs ⟨fun path => recorded (resolver path), home, path⟩ e)
  obtain ⟨mapped, same, made, listed, came⟩ :=
    run_recorded (resolver path) (e.evaluate home) s []
  rw [← ran] at mapped same listed
  have calls : outcome.2.2 = made := listed
  have failed (failure : FormulaError) : outcome.1 = .error failure ↔
      ∃ error, plain.1 = .error error ∧ failure = .store error := by
    rw [mapped]
    exact failed_store_iff plain.1 failure
  refine ⟨?_, ?_, ?_, mapped, same⟩
  · rw [calls, ← failed_iff_of_came made plain.1 came]
    constructor
    · intro ⟨failure, ended⟩
      obtain ⟨error, ended, _⟩ := (failed failure).mp ended
      exact ⟨error, ended⟩
    · intro ⟨error, ended⟩
      exact ⟨.store error, (failed _).mpr ⟨error, ended, rfl⟩⟩
  · intro failure ended
    obtain ⟨error, ended, same⟩ := (failed failure).mp ended
    rw [ended] at came
    obtain ⟨earlier, q, whole, clean⟩ := came
    exact ⟨earlier, q, error, calls.trans whole, same, clean⟩
  · intro reason ended
    obtain ⟨error, _, same⟩ := (failed (.parse reason)).mp ended
    exact nomatch same

-- The fallback stands in for errors among the values, and not for a read that failed.
example :
    let read : Query := .cell ⟨⟨1⟩, ⟨1, 1⟩⟩
    let e : Expr := .call "IFERROR" [.reference ⟨none, .cell ⟨1, 1⟩⟩, .text "fallback"]
    e.recordedRun ⟨1⟩ .root (fun _ _ => throw (.unavailable "torn")) () =
      (.error (.store (.unavailable "torn")), (), [⟨read, some (.unavailable "torn")⟩]) := rfl

end Spreadsheet.Formula
