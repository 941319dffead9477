import Spreadsheet.Decimal.Numeral
import Spreadsheet.Text.Blank

-- Runs of characters of one kind at the start of a text, and text without blanks at its ends.

set_option autoImplicit false

namespace Spreadsheet.Text

-- The first character, when there is one, is not of the kind.
def Stops (kind : Char → Bool) (cs : List Char) : Prop := ∀ c ∈ cs.head?, kind c = false

theorem stops_cons (kind : Char → Bool) (c : Char) (cs : List Char) :
    Stops kind (c :: cs) ↔ kind c = false := by
  simp [Stops]

theorem stops_nil (kind : Char → Bool) : Stops kind [] := by simp [Stops]

theorem take_run (kind : Char → Bool) (run rest : List Char) (all : ∀ c ∈ run, kind c = true)
    (stops : Stops kind rest) :
    (run ++ rest).takeWhile kind = run ∧ (run ++ rest).dropWhile kind = rest := by
  rw [List.takeWhile_append_of_pos all, List.dropWhile_append_of_pos all]
  cases rest with
  | nil => simp
  | cons c more =>
    have other := (stops_cons kind c more).mp stops
    simp [other]

theorem code_of_alphanum (c : Char) (alphanum : c.isAlphanum = true) :
    (65 ≤ c.toNat ∧ c.toNat ≤ 90 ∨ 97 ≤ c.toNat ∧ c.toNat ≤ 122) ∨
      48 ≤ c.toNat ∧ c.toNat ≤ 57 := by
  unfold Char.isAlphanum Char.isAlpha Char.isUpper Char.isLower Char.isDigit at alphanum
  simp only [Bool.or_eq_true, Bool.and_eq_true, decide_eq_true_eq,
    UInt32.le_iff_toNat_le] at alphanum
  exact alphanum

theorem visible_of_alphanum (c : Char) (alphanum : c.isAlphanum = true) : isBlank c = false := by
  have code := code_of_alphanum c alphanum
  simp only [isBlank, inRanges, blankRanges, List.any_cons, List.any_nil, Bool.or_false,
    Bool.or_eq_false_iff, Bool.and_eq_false_iff, decide_eq_false_iff_not]
  omega

-- A text that ends in a character that is not blank.
def Solid (cs : List Char) : Prop := ∃ c ∈ cs.getLast?, isBlank c = false

theorem solid_append (cs ds : List Char) (solid : Solid ds) : Solid (cs ++ ds) := by
  obtain ⟨c, last, visible⟩ := solid
  refine ⟨c, ?_, visible⟩
  simp [List.getLast?_append, Option.mem_def.mp last]

theorem solid_of_all (cs : List Char) (filled : cs ≠ []) (visible : ∀ c ∈ cs, isBlank c = false) :
    Solid cs :=
  ⟨cs.getLast filled, List.getLast?_eq_some_getLast filled, visible _ (List.getLast_mem filled)⟩

theorem trim_end_of_solid (cs : List Char) (solid : Solid cs) : trimEnd cs = cs := by
  obtain ⟨c, last, visible⟩ := solid
  obtain ⟨init, rfl⟩ := List.getLast?_eq_some_iff.mp (Option.mem_def.mp last)
  simp [trimEnd, visible]

theorem trim_of_solid (cs : List Char) (solid : Solid cs) (starts : Stops isBlank cs) :
    trimChars cs = cs := by
  have kept : trimStart cs = cs := (take_run isBlank [] cs (by simp) starts).2
  rw [trimChars, kept, trim_end_of_solid cs solid]

theorem not_all_blank_of_solid (cs : List Char) (solid : Solid cs) :
    cs.all isBlank = false := by
  obtain ⟨c, last, visible⟩ := solid
  rw [List.all_eq_false]
  exact ⟨c, List.mem_of_getLast? last, by simp [visible]⟩

theorem stops_trim_start (cs : List Char) : Stops isBlank (trimStart cs) := by
  intro c first
  have kept := List.head?_dropWhile_not isBlank cs
  rw [trimStart] at first
  rw [Option.mem_def.mp first] at kept
  exact kept

theorem trim_end_blanks (cs blanks : List Char) (blank : ∀ c ∈ blanks, isBlank c = true) :
    trimEnd (cs ++ blanks) = trimEnd cs := by
  have reversed (c : Char) (member : c ∈ blanks.reverse) : isBlank c = true :=
    blank c (List.mem_reverse.mp member)
  rw [trimEnd, List.reverse_append, List.dropWhile_append_of_pos reversed, trimEnd]

theorem solid_trim_end (cs : List Char) (filled : trimEnd cs ≠ []) : Solid (trimEnd cs) := by
  have some : cs.reverse.dropWhile isBlank ≠ [] := by simpa [trimEnd] using filled
  obtain ⟨c, more, same⟩ := List.exists_cons_of_ne_nil some
  have first := List.head_dropWhile_not isBlank some
  refine ⟨c, by simp [trimEnd, same], ?_⟩
  simpa [same] using first

-- A text is what is left between the blanks at its ends, and those blanks.
theorem blanks_around (cs : List Char) : ∃ before after, (∀ c ∈ before, isBlank c = true) ∧
    (∀ c ∈ after, isBlank c = true) ∧ cs = before ++ trimChars cs ++ after := by
  have parts (p : Char → Bool) (ds : List Char) : ds.takeWhile p ++ ds.dropWhile p = ds :=
    List.takeWhile_append_dropWhile
  have run (ds : List Char) : ∀ c ∈ ds.takeWhile isBlank, isBlank c = true :=
    List.all_eq_true.mp List.all_takeWhile
  have ends :
      trimChars cs ++ ((trimStart cs).reverse.takeWhile isBlank).reverse = trimStart cs := by
    rw [trimChars, trimEnd, ← List.reverse_append, parts, List.reverse_reverse]
  refine ⟨cs.takeWhile isBlank, ((trimStart cs).reverse.takeWhile isBlank).reverse, run cs,
    fun c member => run _ c (List.mem_reverse.mp member), ?_⟩
  rw [List.append_assoc, ends, trimStart, parts]

theorem trim_start_trim (cs : List Char) : trimChars (trimStart cs) = trimChars cs := by
  have kept : trimStart (trimStart cs) = trimStart cs :=
    (take_run isBlank [] (trimStart cs) (by simp) (stops_trim_start cs)).2
  rw [trimChars, kept, trimChars]

theorem stops_trim (cs : List Char) : Stops isBlank (trimChars cs) := by
  have front : trimChars cs <+: trimStart cs := by
    have back : (trimStart cs).reverse.dropWhile isBlank <:+ (trimStart cs).reverse :=
      List.dropWhile_suffix isBlank
    simpa [trimChars, trimEnd] using List.reverse_prefix.mpr back
  intro c first
  obtain ⟨blanks, whole⟩ := front
  refine stops_trim_start cs c ?_
  rw [← whole, List.head?_append, Option.mem_def.mp first]
  rfl

theorem trim_end_trim (cs : List Char) (filled : trimChars cs ≠ []) :
    trimChars (trimEnd cs) = trimChars cs := by
  obtain ⟨before, after, blank, trailing, parts⟩ := blanks_around cs
  have solid : Solid (trimChars cs) := solid_trim_end (trimStart cs) filled
  have left : trimEnd cs = before ++ trimChars cs := by
    calc trimEnd cs = trimEnd (before ++ trimChars cs ++ after) := by rw [← parts]
      _ = trimEnd (before ++ trimChars cs) := trim_end_blanks _ after trailing
      _ = before ++ trimChars cs := trim_end_of_solid _ (solid_append before _ solid)
  have kept : trimStart (before ++ trimChars cs) = trimChars cs :=
    (take_run isBlank before (trimChars cs) blank (stops_trim cs)).2
  rw [left, trimChars, kept, trim_end_of_solid _ solid]

-- A character that is not blank keeps the texts on its two sides apart.
theorem trim_around (mark : Char) (visible : isBlank mark = false) (cs ds : List Char) :
    trimChars (cs ++ mark :: ds) = trimStart cs ++ mark :: trimEnd ds := by
  have start (xs ys : List Char) :
      (xs ++ mark :: ys).dropWhile isBlank = xs.dropWhile isBlank ++ mark :: ys := by
    rw [List.dropWhile_append]
    split
    · rename_i none
      rw [List.isEmpty_iff.mp none, List.nil_append, List.dropWhile_cons_of_neg (by simp [visible])]
    · rfl
  rw [trimChars, trimStart, start, trimEnd, List.reverse_append, List.reverse_cons,
    List.append_assoc, List.singleton_append, start]
  simp [trimStart, trimEnd]

end Spreadsheet.Text
