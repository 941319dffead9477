import Spreadsheet.Proofs.Formula.Lookup

-- Where the entries of a range are in order, an approximate match is the nearest of those that are
-- not beyond the value sought.

set_option autoImplicit false

namespace Spreadsheet.Formula

section Ordered

variable (sought : Value) (stop : Ordering) (entries : List (Address × Value))

-- Beyond the value sought lies no entry that is nearer, and of those that are as near it is the
-- last one, row by row.
structure Nearest (e : Address × Value) : Prop where
  member : e ∈ entries
  within : ¬Beyond sought stop e
  closest : ∀ f ∈ entries, ¬Beyond sought stop f → ¬Beyond e.2 stop f
  last : ∀ f ∈ entries, f.2.lookupCompare? e.2 = some .eq →
    f.1.row < e.1.row ∨ f.1.row = e.1.row ∧ f.1.col ≤ e.1.col

variable (strict : stop ≠ .eq) (ordered : ∀ e ∈ entries, e.2.comparable sought = true)
  (sorted : entries.Pairwise fun e f => ¬Beyond f.2 stop e)

include strict ordered sorted

-- Once an entry is beyond the value sought, so are all after it.
theorem rest_beyond (f : Address × Value)
    (left : f ∈ entries.dropWhile fun e => ¬Beyond sought stop e) : Beyond sought stop f := by
  induction entries with
  | nil => simp at left
  | cons e rest ih =>
    obtain ⟨after, later⟩ := List.pairwise_cons.mp sorted
    obtain ⟨here, others⟩ := List.forall_mem_cons.mp ordered
    by_cases beyond : Beyond sought stop e
    · rw [List.dropWhile_cons_of_neg (by simp [beyond])] at left
      rcases List.mem_cons.mp left with rfl | member
      · exact beyond
      · exact Value.lookup_beyond_trans stop strict _ _ _ beyond (after f member)
          (Value.comparable_between _ _ sought here (others f member))
    · rw [List.dropWhile_cons_of_pos (by simp [beyond])] at left
      exact ih others later left

theorem mem_reached (f : Address × Value) (member : f ∈ entries)
    (within : ¬Beyond sought stop f) : f ∈ reached sought stop entries := by
  have whole : reached sought stop entries ++
      (entries.dropWhile fun e => ¬Beyond sought stop e) = entries := List.takeWhile_append_dropWhile
  rw [← whole] at member
  rcases List.mem_append.mp member with met | left
  · exact met
  · exact absurd (rest_beyond sought stop entries strict ordered sorted f left) within

theorem nearest_reached (e : Address × Value)
    (rows : entries.Pairwise fun e f => [e.1.row, e.1.col] < [f.1.row, f.1.col])
    (found : (reached sought stop entries).getLast? = some e) : Nearest sought stop entries e := by
  have part : (reached sought stop entries).Sublist entries := List.takeWhile_sublist _
  have sortedPart := sorted.sublist part
  have rowsPart := rows.sublist part
  have last : e ∈ reached sought stop entries := List.mem_of_getLast? found
  have within : ¬Beyond sought stop e := by
    have all : ((reached sought stop entries).all fun e => ¬Beyond sought stop e) = true :=
      List.all_takeWhile
    simpa using List.all_eq_true.mp all e last
  have member : e ∈ entries := part.subset last
  obtain ⟨before, split⟩ := List.getLast?_eq_some_iff.mp found
  rw [split] at sortedPart rowsPart
  have before_or (f : Address × Value) (listed : f ∈ entries) (near : ¬Beyond sought stop f) :
      f ∈ before ∨ f = e := by
    have met := mem_reached sought stop entries strict ordered sorted f listed near
    simpa [split] using met
  refine ⟨member, within, fun f listed near => ?_, fun f listed equal => ?_⟩
  · rcases before_or f listed near with earlier | rfl
    · exact (List.pairwise_append.mp sortedPart).2.2 f earlier e (List.mem_singleton_self e)
    · intro beyond
      rw [Beyond, Value.comparable_refl _ sought (ordered f listed)] at beyond
      exact strict (Option.some.inj beyond).symm
  · have near : ¬Beyond sought stop f := fun beyond => by
      have apart : f.2.lookupCompare? e.2 ≠ some stop := fun same =>
        strict (Option.some.inj (equal.symm.trans same)).symm
      exact within (Value.lookup_beyond_trans stop strict _ _ _ beyond apart
        (Value.comparable_between _ _ sought (ordered f listed) (ordered e member)))
    rcases before_or f listed near with earlier | rfl
    · have less := (List.pairwise_append.mp rowsPart).2.2 f earlier e (List.mem_singleton_self e)
      simp only [List.cons_lt_cons_iff, List.not_lt_nil, and_false, or_false] at less
      omega
    · exact .inr ⟨rfl, Nat.le_refl _⟩

theorem none_reached (found : (reached sought stop entries).getLast? = none) (f : Address × Value)
    (member : f ∈ entries) : Beyond sought stop f := by
  refine Decidable.byContradiction fun within => ?_
  have met := mem_reached sought stop entries strict ordered sorted f member within
  rw [List.getLast?_eq_none_iff.mp found] at met
  cases met

end Ordered

theorem nearest_match (answer : (q : Query) → q.Answer) (home : SheetId) (sought : Expr)
    (range : Reference) (type? : Option Expr) (x : SheetRange) (r : Range)
    (entries : List (Address × Value)) (type : Float) (stop : Ordering)
    (bound : range.boundBy home (fun q => .ok (answer q)) = some x)
    (stored : answer (.range x) = .ofList r entries)
    (typed : (type?.elim (.ok 1.0) fun kind => ((kind.evaluate home).value answer).toNumber) =
      .ok type)
    (directed : stop = .gt ∧ 0.0 < type ∨ stop = .lt ∧ type < 0.0) :
    let v := (sought.evaluate home).value answer
    let t := answer (.range x)
    let among := comparables v t.listing
    let matched := ((Expr.call "MATCH" ([sought, .reference range] ++ type?.toList)).evaluate
      home).value answer
    matched = t.located ((reached v stop among).getLast?.map Prod.fst) ∧
      (among.Pairwise (fun e f => ¬Beyond f.2 stop e) →
        (∃ e, Nearest v stop among e ∧ matched = t.located (some e.1)) ∨
          (∀ e ∈ among, Beyond v stop e) ∧ matched = .error .notAvailable) := by
  intro v t among matched
  have proper : (answer (.range x)).Proper := stored ▸ RangeValues.of_list_proper r entries
  have result : matched = t.located ((reached v stop among).getLast?.map Prod.fst) := by
    have found : matched = t.located (search v type t.toList) :=
      match_value answer home sought range type? x type bound proper typed
    rw [found, search_directed v stop type _ directed, approximate_eq,
      comparables_listing v t proper]
  refine ⟨result, fun sorted => ?_⟩
  have strict : stop ≠ .eq := by
    rcases directed with ⟨rfl, _⟩ | ⟨rfl, _⟩ <;> decide
  have ordered (e : Address × Value) (member : e ∈ among) : e.2.comparable v = true :=
    (List.mem_filter.mp member).2
  have rows : among.Pairwise fun e f => [e.1.row, e.1.col] < [f.1.row, f.1.col] :=
    t.listing_ordered.filter _
  cases last : (reached v stop among).getLast? with
  | none =>
    refine .inr ⟨none_reached v stop among strict ordered sorted last, ?_⟩
    rw [result, last]
    rfl
  | some e =>
    refine .inl ⟨e, nearest_reached v stop among strict ordered sorted e rows last, ?_⟩
    rw [result, last]
    rfl

-- A descending column with a gap, a text and an error; the value sought lies above its last
-- number, and the one before that occurs twice.
theorem nearest_match_among_gaps :
    let home : SheetId := ⟨1⟩
    let column : Reference := ⟨none, .range ⟨⟨1, 1⟩, ⟨7, 1⟩⟩⟩
    let entries : List (Address × Value) := [(⟨1, 1⟩, .number 9.0), (⟨2, 1⟩, .text "pear"),
      (⟨3, 1⟩, .number 4.0), (⟨5, 1⟩, .number 4.0), (⟨6, 1⟩, .error .ref), (⟨7, 1⟩, .number 1.0)]
    let answer : (q : Query) → q.Answer := fun
      | .cell _ => .empty
      | .range x => .ofList x.range entries
      | .sheet _ _ => none
    let x : SheetRange := ⟨home, ⟨⟨1, 1⟩, ⟨7, 1⟩⟩⟩
    let among := comparables (.number 3.0) (answer (.range x)).listing
    let matched := ((Expr.call "MATCH" [.number 3.0, .reference column, .number (-1.0)]).evaluate
      home).value answer
    column.boundBy home (fun q => .ok (answer q)) = some x ∧ (-1.0 : Float) < 0.0 ∧
      among.Pairwise (fun e f => ¬Beyond f.2 .lt e) ∧
      (∃ e, Nearest (.number 3.0) .lt among e ∧ matched = (answer (.range x)).located (some e.1)) ∧
      matched = .number (Float.ofNat 5) := by
  intro home column entries answer x among matched
  have bound : column.boundBy home (fun q => .ok (answer q)) = some x := rfl
  have negative : (-1.0 : Float) < 0.0 := by decide +kernel
  have sorted : among.Pairwise fun e f => ¬Beyond f.2 .lt e := by decide +kernel
  obtain ⟨scanned, nearest⟩ := nearest_match answer home (.number 3.0) column
    (some (.number (-1.0))) x x.range entries (-1.0) .lt bound rfl rfl (.inr ⟨rfl, negative⟩)
  have place : (reached (.number 3.0) .lt among).getLast?.map Prod.fst = some ⟨5, 1⟩ := by
    decide +kernel
  have fifth : matched = .number (Float.ofNat 5) :=
    scanned.trans (congrArg (answer (.range x)).located place)
  refine ⟨bound, negative, sorted, ?_, fifth⟩
  rcases nearest sorted with found | ⟨_, missing⟩
  · exact found
  · cases fifth.symm.trans missing

end Spreadsheet.Formula
