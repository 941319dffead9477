import Mathlib.Order.Bounds.Basic
import Spreadsheet.Proofs.Graph.Depth
import Spreadsheet.Proofs.Graph.Histories

-- The order of evaluation sorts cells by the longest chain of reads that ends at each. Cycles do
-- not disturb this for the cells that lie on none.

set_option autoImplicit false

namespace Spreadsheet.Graph

-- Some `n` reads lead from cell to cell of a set and end at the given one.
inductive ChainTo (g : Graph) (cells : KeySet) : Nat → Key → Prop where
  | start (k : Key) (inside : k ∈ cells) : ChainTo g cells 0 k
  | read (n : Nat) (p k : Key) (chain : ChainTo g cells n p) (inside : k ∈ cells)
      (edge : g.reads k p = true) : ChainTo g cells (n + 1) k

structure OrderedByDepth (g : Graph) (cells : KeySet) (order : List Key) : Prop where
  once : order.Nodup
  members : ∀ k, k ∈ order ↔ k ∈ cells
  reads : ∀ k ∈ cells, ¬g.DependsWithin cells k k →
    ∀ p ∈ cells, g.reads k p = true → order.idxOf p < order.idxOf k
  sorted : (∀ k, ¬g.DependsWithin cells k k) →
    ∃ depth : Key → Nat, (∀ k ∈ cells, IsGreatest {n | g.ChainTo cells n k} (depth k)) ∧
      order.Pairwise fun a b => depth a :: a.place < depth b :: b.place

theorem idx_lt_of_pairwise (list : List Key) (before : Key → Key → Prop)
    (pairwise : list.Pairwise before) (a b : Key) (memA : a ∈ list) (memB : b ∈ list)
    (apart : a ≠ b) (never : ¬before b a) : list.idxOf a < list.idxOf b := by
  have inA := List.idxOf_lt_length_of_mem memA
  have inB := List.idxOf_lt_length_of_mem memB
  rcases Nat.lt_trichotomy (list.idxOf a) (list.idxOf b) with less | same | more
  · exact less
  · refine absurd ?_ apart
    rw [← List.getElem_idxOf inA, ← List.getElem_idxOf inB]
    simp only [same]
  · have ordered := List.pairwise_iff_getElem.mp pairwise _ _ inB inA more
    rw [List.getElem_idxOf, List.getElem_idxOf] at ordered
    exact absurd ordered never

section Listed

variable (g : Graph) (cells : KeySet) (next : Key → List Key) (lists : g.ListsReads cells next)
include lists

theorem chain_of_depth (attained : Attained next (depthsOf next cells.toList)) (d : Nat) (k : Key)
    (inside : k ∈ cells) (found : (depthsOf next cells.toList)[k]? = some d) :
    g.ChainTo cells d k := by
  induction d generalizing k with
  | zero => exact .start k inside
  | succ d ih =>
    obtain ⟨p, edge, below⟩ := attained k d found
    obtain ⟨home, reads⟩ := (lists k inside p).mp edge
    exact .read d p k (ih p home below) inside reads

theorem chain_le_depth (ranked : Ranked next (depthsOf next cells.toList))
    (acyclic : ∀ k, ¬g.DependsWithin cells k k) (n : Nat) (k : Key) (chain : g.ChainTo cells n k)
    (d : Nat) (found : (depthsOf next cells.toList)[k]? = some d) : n ≤ d := by
  induction chain generalizing d with
  | start k inside => exact Nat.zero_le d
  | read n p k chain inside edge ih =>
    have home : p ∈ cells := by cases chain <;> assumption
    have free : ¬Looping next k := fun looping =>
      acyclic k ((depends_within_iff g cells next lists k k inside).mp looping)
    obtain ⟨e, below, less⟩ := ranked k d found free p ((lists k inside p).mpr ⟨home, edge⟩)
    have shorter := ih e below
    omega

theorem by_depth_ordered : g.OrderedByDepth cells (byDepth next cells.toList) := by
  have members (k : Key) : k ∈ byDepth next cells.toList ↔ k ∈ cells :=
    (mem_layers _ cells.toList k).trans Std.ExtTreeSet.mem_toList
  obtain ⟨ranked, attained, covered⟩ := depths_sound next cells.toList
    (listed_inside g cells next lists)
  refine ⟨nodup_layers _ cells.toList (nodup_to_list cells), members,
    fun k inside free p home edge => ?_, fun acyclic => ?_⟩
  · refine idx_lt_of_pairwise _ _ (by_depth_reads g cells next lists) p k ((members p).mpr home)
      ((members k).mpr inside) ?_ ?_
    · rintro rfl
      exact free (.single ⟨inside, inside, edge⟩)
    · rintro (cycle | none)
      · exact free cycle
      · simp [edge] at none
  · refine ⟨fun k => (depthsOf next cells.toList)[k]?.getD 0, fun k inside => ?_, ?_⟩
    · obtain ⟨d, found⟩ := covered k (Std.ExtTreeSet.mem_toList.mpr inside)
      simp only [found, Option.getD_some]
      exact ⟨chain_of_depth g cells next lists attained d k inside found,
        fun n chain => chain_le_depth g cells next lists ranked acyclic n k chain d found⟩
    · refine (layers_sorted _ cells.toList (fun a b => a.place < b.place)
        (to_list_sorted cells)).imp fun {a b} ordered => ?_
      rwa [List.cons_lt_cons_iff]

end Listed

-- Two cells, one of which reads the other.
theorem ordered_pair (g : Graph) (cells : KeySet) (order : List Key)
    (ordered : g.OrderedByDepth cells order) (b c : Key) (listed : cells.toList = [b, c])
    (free : ¬g.DependsWithin cells c c) (edge : g.reads c b = true) : order = [b, c] := by
  have inside (k : Key) : k ∈ cells ↔ k ∈ [b, c] := by
    rw [← Std.ExtTreeSet.mem_toList, listed]
  have distinct : [b, c].Nodup := listed ▸ nodup_to_list cells
  have same : order.Perm [b, c] := (List.perm_ext_iff_of_nodup ordered.once distinct).mpr
    fun k => (ordered.members k).trans (inside k)
  have earlier := ordered.reads c ((inside c).mpr (by simp)) free b ((inside b).mpr (by simp)) edge
  obtain ⟨x, y, rfl⟩ := List.length_eq_two.mp same.length_eq
  grind

theorem order_by_depth (edits : List Edit) (cells : KeySet) :
    (after edits).OrderedByDepth cells ((after edits).order cells) ∧
      ∀ next : Key → List Key, (after edits).ListsReads cells next →
        (after edits).OrderedByDepth cells (byDepth next cells.toList) :=
  ⟨by_depth_ordered _ cells _ (lists_reads_within _ (after_linked edits) cells),
    by_depth_ordered _ cells⟩

-- A cell that reads a cycle comes after both cells of the cycle, in whatever order the reads are
-- visited.
theorem order_by_depth_behind_cycle :
    let a : Key := ⟨⟨1⟩, ⟨1, 1⟩⟩
    let b : Key := ⟨⟨1⟩, ⟨2, 1⟩⟩
    let c : Key := ⟨⟨1⟩, ⟨3, 1⟩⟩
    let both : SheetRange := ⟨⟨1⟩, ⟨⟨2, 1⟩, ⟨3, 1⟩⟩⟩
    let g := after [.set a [both], .set b [.ofKey c], .set c [.ofKey b]]
    let cells : KeySet := .ofList [a, b, c]
    let next (k : Key) : List Key := ((g.readsWithin cells)[k]?.getD []).reverse
    g.ListsReads cells next ∧ g.OrderedByDepth cells (g.order cells) ∧
      ∀ k ∈ [b, c], (byDepth next cells.toList).idxOf k < (byDepth next cells.toList).idxOf a := by
  intro a b c both g cells next
  have linked : g.Linked := after_linked _
  have lists : g.ListsReads cells next := fun k inside p =>
    List.mem_reverse.trans (lists_reads_within g linked cells k inside p)
  obtain ⟨own, reversed⟩ :=
    order_by_depth [.set a [both], .set b [.ofKey c], .set c [.ofKey b]] cells
  refine ⟨lists, own, fun k member => (reversed next lists).reads a ?_ ?_ k ?_ ?_⟩
  · decide +kernel
  · intro chain
    obtain ⟨p, _, _, _, edge⟩ := Relation.TransGen.tail'_iff.mp chain
    have unread : g.dependents a = [] := by decide +kernel
    have reader := (mem_dependents g linked a p).mpr edge
    simp [unread] at reader
  · revert k
    decide +kernel
  · revert k
    decide +kernel

end Spreadsheet.Graph
