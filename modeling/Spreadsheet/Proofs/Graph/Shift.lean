import Spreadsheet.Proofs.Graph.EvaluationOrder

-- Away from cycles the order by depth is the only one of its kind. A cell below all others of a
-- set, such as a formula below the cells that depend on it, makes each of them one deeper, so it
-- comes first and the others stay in their order.

set_option autoImplicit false

namespace Spreadsheet.Graph

variable (g : Graph) (cells : KeySet)

section Unique

variable (acyclic : ∀ k, ¬g.DependsWithin cells k k) (first second : List Key)
  (one : g.OrderedByDepth cells first) (other : g.OrderedByDepth cells second)
include acyclic one other

theorem ordered_unique : first = second := by
  obtain ⟨depth, deepest, sorted⟩ := one.sorted acyclic
  obtain ⟨again, deepestAgain, sortedAgain⟩ := other.sorted acyclic
  have same (k : Key) (inside : k ∈ cells) : again k = depth k :=
    (deepestAgain k inside).unique (deepest k inside)
  apply sorted_unique (fun k => depth k :: k.place) first second sorted
  · refine sortedAgain.imp_of_mem fun {a b} inA inB less => ?_
    rwa [same a ((other.members a).mp inA), same b ((other.members b).mp inB)] at less
  · intro k
    rw [one.members, other.members]

end Unique

-- A cell that reads no cell of a set and that each of these reads, itself or through others of
-- the set.
structure Below (k : Key) : Prop where
  outside : k ∉ cells
  unread : ∀ p ∈ cells.insert k, g.reads k p = false
  reading : ∀ p ∈ cells, ∃ q ∈ cells.insert k, g.reads p q = true

section Below

variable (k : Key) (below : g.Below cells k)
include below

theorem inside_of_reads (p q : Key) (inside : p ∈ cells.insert k) (home : q ∈ cells.insert k)
    (edge : g.reads p q = true) : p ∈ cells := by
  have apart : p ≠ k := by
    rintro rfl
    rw [below.unread q home] at edge
    cases edge
  exact ((member_insert cells k p).mp inside).resolve_left apart

theorem chain_over (n : Nat) (p : Key) (chain : g.ChainTo cells n p) :
    g.ChainTo (cells.insert k) (n + 1) p := by
  induction chain with
  | start p inside =>
    obtain ⟨q, home, edge⟩ := below.reading p inside
    exact .read 0 q p (.start q home) (by simp [inside]) edge
  | read n q p chain inside edge ih => exact .read (n + 1) q p ih (by simp [inside]) edge

-- Only the first cell of a chain can be the one below.
theorem chain_without (n : Nat) (p : Key) (chain : g.ChainTo (cells.insert k) (n + 1) p) :
    g.ChainTo cells n p := by
  induction n generalizing p with
  | zero =>
    cases chain with
    | read _ q _ chain inside edge =>
      have home : q ∈ cells.insert k := by cases chain; assumption
      exact .start p (inside_of_reads g cells k below p q inside home edge)
  | succ n ih =>
    cases chain with
    | read _ q _ chain inside edge =>
      have home : q ∈ cells.insert k := by cases chain; assumption
      exact .read n q p (ih q chain) (inside_of_reads g cells k below p q inside home edge) edge

theorem greatest_below (d : Nat) (deepest : IsGreatest {n | g.ChainTo (cells.insert k) n k} d) :
    d = 0 := by
  cases deepest.1 with
  | start => rfl
  | read n q _ chain inside edge =>
    have home : q ∈ cells.insert k := by cases chain <;> assumption
    rw [below.unread q home] at edge
    cases edge

theorem greatest_over (p : Key) (d n : Nat)
    (deepest : IsGreatest {n | g.ChainTo (cells.insert k) n p} d)
    (before : IsGreatest {n | g.ChainTo cells n p} n) : d = n + 1 := by
  refine deepest.unique ⟨chain_over g cells k below n p before.1, fun m chain => ?_⟩
  cases m with
  | zero => exact Nat.zero_le _
  | succ m => exact Nat.succ_le_succ (before.2 (chain_without g cells k below m p chain))

theorem order_over (first second : List Key) (one : g.OrderedByDepth (cells.insert k) first)
    (other : g.OrderedByDepth cells second)
    (acyclic : ∀ p, ¬g.DependsWithin (cells.insert k) p p) : first = k :: second := by
  have wider (p : Key) (inside : p ∈ cells) : p ∈ cells.insert k :=
    (member_insert cells k p).mpr (.inr inside)
  have within (p : Key) : ¬g.DependsWithin cells p p := by
    refine mt (Relation.TransGen.mono (fun a b edge => ?_) p p) (acyclic p)
    exact ⟨wider a edge.1, wider b edge.2.1, edge.2.2⟩
  obtain ⟨depth, deepest, sorted⟩ := one.sorted acyclic
  obtain ⟨before, deepestBefore, sortedBefore⟩ := other.sorted within
  have ground : depth k = 0 := greatest_below g cells k below _ (deepest k (by simp))
  have shifted (p : Key) (inside : p ∈ cells) : depth p = before p + 1 :=
    greatest_over g cells k below p _ _ (deepest p (wider p inside)) (deepestBefore p inside)
  apply sorted_unique (fun p => depth p :: p.place) first _ sorted
  · refine List.pairwise_cons.mpr ⟨fun p member => ?_, sortedBefore.imp_of_mem ?_⟩
    · have above := shifted p ((other.members p).mp member)
      exact List.cons_lt_cons_iff.mpr (.inl (by omega))
    · intro a b inA inB less
      rw [shifted a ((other.members a).mp inA), shifted b ((other.members b).mp inB)]
      rw [List.cons_lt_cons_iff] at less ⊢
      exact less.imp Nat.succ_lt_succ fun same => ⟨congrArg Nat.succ same.1, same.2⟩
  · intro p
    rw [one.members, List.mem_cons, other.members, member_insert]

end Below

section Closure

variable (linked : g.Linked) (k : Key)
  (acyclic : ∀ p, p = k ∨ p ∈ g.closure [k] → ¬g.OnCycle p)
include linked

theorem mem_closure_one (p : Key) : p ∈ g.closure [k] ↔ g.DependsOn p k := by
  rw [mem_closure g linked]
  simp

include acyclic

theorem closure_below : g.Below (g.closure [k]) k := by
  have member := mem_closure_one g linked k
  refine ⟨fun inside => ?_, fun p inside => Bool.eq_false_iff.mpr fun edge => ?_,
    fun p inside => ?_⟩
  · exact acyclic k (.inl rfl) ((member k).mp inside)
  · cases (member_insert _ k p).mp inside with
    | inl here => exact acyclic k (.inl rfl) (.single (here ▸ edge))
    | inr further => exact acyclic k (.inl rfl) (.head edge ((member p).mp further))
  · obtain ⟨q, edge, rest⟩ := Relation.TransGen.head'_iff.mp ((member p).mp inside)
    refine ⟨q, (member_insert _ k q).mpr ?_, edge⟩
    cases Relation.reflTransGen_iff_eq_or_transGen.mp rest with
    | inl here => exact .inl here.symm
    | inr further => exact .inr ((member q).mpr further)

theorem order_of_source :
    g.order ((g.closure [k]).insert k) = k :: g.order (g.closure [k]) := by
  have ordered (cells : KeySet) := by_depth_ordered g cells _ (lists_reads_within g linked cells)
  apply order_over g (g.closure [k]) k (closure_below g linked k acyclic) _ _
    (ordered _) (ordered _)
  intro p chain
  obtain ⟨_, first, _⟩ := Relation.TransGen.head'_iff.mp chain
  have inside := (member_insert _ k p).mp first.1
  exact acyclic p inside (Relation.TransGen.mono (fun a b edge => edge.2.2) p p chain)

end Closure

end Spreadsheet.Graph
