import Spreadsheet.Grid.Key
import Spreadsheet.Value.Basic

-- Lists of addresses with their values: sorted, rid of repeated addresses, and searched.

set_option autoImplicit false

namespace Spreadsheet.Formula.Entries

def inOrder (e f : Address × Value) : Bool := (compare e.1 f.1).isLE

def before (e f : Address × Value) : Bool := compare e.1 f.1 = .lt

def insert (e : Address × Value) : List (Address × Value) → List (Address × Value)
  | [] => [e]
  | f :: rest => if inOrder e f then e :: f :: rest else f :: insert e rest

-- Row by row; entries of one address stay in the order in which they are given.
def sort (entries : List (Address × Value)) : List (Address × Value) := entries.foldr insert []

-- The first entry of every run with one address.
def firsts (entries : List (Address × Value)) : List (Address × Value) :=
  entries.eraseRepsBy fun e f => e.1 = f.1

-- Row by row, and no address twice.
def Ascending (entries : List (Address × Value)) : Prop :=
  entries.Pairwise fun e f => before e f = true

-- Binary search for an address.
def find? (entries : Array (Address × Value)) (a : Address) : Option (Address × Value) :=
  entries.binSearch (a, .empty) before

theorem mem_insert (e x : Address × Value) (list : List (Address × Value)) :
    x ∈ insert e list ↔ x = e ∨ x ∈ list := by
  induction list with
  | nil => simp [insert]
  | cons f rest ih =>
    by_cases here : inOrder e f = true
    · simp only [insert, if_pos here, List.mem_cons]
    · simp only [insert, if_neg here, List.mem_cons, ih, or_left_comm]

theorem insert_in_order (e : Address × Value) (list : List (Address × Value))
    (sorted : list.Pairwise fun f g => inOrder f g = true) :
    (insert e list).Pairwise fun f g => inOrder f g = true := by
  induction list with
  | nil => exact List.pairwise_singleton _ e
  | cons f rest ih =>
    obtain ⟨first, later⟩ := List.pairwise_cons.mp sorted
    by_cases here : inOrder e f = true
    · rw [insert, if_pos here]
      refine List.pairwise_cons.mpr ⟨fun g member => ?_, sorted⟩
      rcases List.mem_cons.mp member with same | member
      · exact same ▸ here
      · exact Std.TransCmp.isLE_trans here (first g member)
    · rw [insert, if_neg here]
      have earlier : inOrder f e = true :=
        Ordering.isLE_of_eq_lt (Std.OrientedCmp.lt_of_not_isLE here)
      refine List.pairwise_cons.mpr ⟨fun g member => ?_, ih later⟩
      rcases (mem_insert e g rest).mp member with same | member
      · exact same ▸ earlier
      · exact first g member

theorem sort_in_order (entries : List (Address × Value)) :
    (sort entries).Pairwise fun e f => inOrder e f = true := by
  induction entries with
  | nil => exact .nil
  | cons e rest ih => exact insert_in_order e _ ih

theorem before_of_apart (e f : Address × Value) (sorted : inOrder e f = true)
    (apart : e.1 ≠ f.1) : before e f = true := by
  cases order : compare e.1 f.1 with
  | lt => simp [before, order]
  | eq => exact absurd (Std.LawfulEqOrd.eq_of_compare order) apart
  | gt => simp [inOrder, order] at sorted

theorem firsts_from (e : Address × Value) (rest kept : List (Address × Value)) :
    List.eraseRepsBy.loop (fun e f => e.1 = f.1) e rest kept =
      kept.reverse ++ firsts (e :: rest) := by
  induction rest generalizing e kept with
  | nil => simp [firsts, List.eraseRepsBy, List.eraseRepsBy.loop]
  | cons f rest ih =>
    simp only [firsts, List.eraseRepsBy, List.eraseRepsBy.loop]
    by_cases same : e.1 = f.1
    · simp only [decide_eq_true same]
      exact ih e kept
    · simp only [decide_eq_false same]
      rw [ih f (e :: kept), ih f [e], List.reverse_cons, List.append_assoc]
      rfl

theorem firsts_cons (e f : Address × Value) (rest : List (Address × Value)) :
    firsts (e :: f :: rest) = if e.1 = f.1 then firsts (e :: rest) else e :: firsts (f :: rest) := by
  by_cases same : e.1 = f.1
  · simp only [if_pos same, firsts, List.eraseRepsBy, List.eraseRepsBy.loop, decide_eq_true same]
  · have next : firsts (e :: f :: rest) = [e].reverse ++ firsts (f :: rest) := by
      rw [← firsts_from]
      simp only [firsts, List.eraseRepsBy, List.eraseRepsBy.loop, decide_eq_false same]
    rw [if_neg same, next]
    rfl

theorem mem_of_firsts (e x : Address × Value) (rest : List (Address × Value))
    (member : x ∈ firsts (e :: rest)) : x ∈ e :: rest := by
  induction rest generalizing e with
  | nil => exact member
  | cons f rest ih =>
    rw [firsts_cons] at member
    by_cases same : e.1 = f.1
    · rw [if_pos same] at member
      rcases List.mem_cons.mp (ih e member) with here | later
      · exact here ▸ List.mem_cons_self
      · exact List.mem_cons_of_mem e (List.mem_cons_of_mem f later)
    · rw [if_neg same] at member
      rcases List.mem_cons.mp member with here | later
      · exact here ▸ List.mem_cons_self
      · exact List.mem_cons_of_mem e (ih f later)

theorem firsts_ascending (entries : List (Address × Value))
    (sorted : entries.Pairwise fun e f => inOrder e f = true) : Ascending (firsts entries) := by
  cases entries with
  | nil => exact .nil
  | cons e rest =>
    induction rest generalizing e with
    | nil => exact List.pairwise_singleton _ e
    | cons f rest ih =>
      obtain ⟨first, later⟩ := List.pairwise_cons.mp sorted
      rw [firsts_cons]
      by_cases same : e.1 = f.1
      · rw [if_pos same]
        exact ih e (sorted.sublist ((List.sublist_cons_self f rest).cons_cons e))
      · rw [if_neg same]
        refine List.pairwise_cons.mpr ⟨fun g member => ?_, ih f later⟩
        have next := before_of_apart e f (first f List.mem_cons_self) same
        rcases List.mem_cons.mp (mem_of_firsts f g rest member) with here | beyond
        · exact here ▸ next
        · simp only [before, decide_eq_true_eq] at *
          exact Std.TransCmp.lt_of_lt_of_isLE next ((List.pairwise_cons.mp later).1 g beyond)

end Spreadsheet.Formula.Entries
