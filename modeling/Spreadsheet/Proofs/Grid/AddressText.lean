import Spreadsheet.Grid.Address
import Spreadsheet.Proofs.Text.Runs

-- The text of an address reads as the address.

set_option autoImplicit false

namespace Spreadsheet

theorem digit_iff (c : Char) : Decimal.isDigit c = c.isDigit := rfl

theorem nat_of_digits_of_nat (n : Nat) : Decimal.natOfDigits (Decimal.digitsOfNat n) = n := by
  have same (cs : List Char) : Decimal.natOfDigits cs = Nat.ofDigitChars 10 cs 0 := by
    rw [Nat.ofDigitChars_eq_foldl]
    rfl
  rw [same]
  exact Nat.ofDigitChars_toDigits (by decide) (by decide)

theorem digits_of_nat_numeric (n : Nat) (c : Char) (member : c ∈ Decimal.digitsOfNat n) :
    Decimal.isDigit c = true :=
  Nat.isDigit_of_mem_toDigits (by decide) (by decide) member

theorem digit_not_alpha (c : Char) (digit : Decimal.isDigit c = true) : c.isAlpha = false := by
  simp only [Decimal.isDigit, Bool.and_eq_true, decide_eq_true_eq, Char.le_def,
    UInt32.le_iff_toNat_le] at digit
  unfold Char.isAlpha Char.isUpper Char.isLower
  simp only [Bool.or_eq_false_iff, Bool.and_eq_false_iff, decide_eq_false_iff_not,
    UInt32.le_iff_toNat_le]
  simp at digit ⊢
  omega

theorem column_letter (m : Nat) (small : m < 26) :
    (Char.ofNat (65 + m)).isAlpha = true ∧ letterValue (Char.ofNat (65 + m)) = m + 1 := by
  revert m
  decide

theorem column_chars_succ (col : Nat) (positive : col ≠ 0) :
    columnChars col = columnChars ((col - 1) / 26) ++ [Char.ofNat (65 + (col - 1) % 26)] := by
  rw [columnChars, dif_neg positive]

theorem column_chars_alpha (col : Nat) (c : Char) (member : c ∈ columnChars col) :
    c.isAlpha = true := by
  fun_induction columnChars col with
  | case1 => cases member
  | case2 col positive ih =>
    rcases List.mem_append.mp member with earlier | last
    · exact ih earlier
    · obtain rfl := List.mem_singleton.mp last
      exact (column_letter _ (Nat.mod_lt _ (by decide))).1

theorem column_chars_ne_nil (col : Nat) (positive : col ≠ 0) : columnChars col ≠ [] := by
  rw [column_chars_succ col positive]
  simp

theorem column_from_append (letters : String) (col : Nat) (cs ds : List Char) :
    columnFrom letters col (cs ++ ds) =
      (columnFrom letters col cs).bind fun col => columnFrom letters col ds := by
  induction cs generalizing col with
  | nil => rfl
  | cons c rest ih =>
    simp only [List.cons_append, columnFrom]
    split
    · rfl
    · split
      · rfl
      · exact ih _

theorem column_from_chars (letters : String) (col : Nat) (small : col ≤ maxColumns) :
    columnFrom letters 0 (columnChars col) = .ok col := by
  fun_induction columnChars col with
  | case1 => rfl
  | case2 col positive ih =>
    obtain ⟨alpha, value⟩ := column_letter ((col - 1) % 26) (Nat.mod_lt _ (by decide))
    have whole : 26 * ((col - 1) / 26) + ((col - 1) % 26 + 1) = col := by omega
    rw [column_from_append, ih (by omega)]
    simp only [Except.bind, columnFrom, alpha, value, whole, Bool.not_true, Bool.false_eq_true,
      if_false, if_neg (Nat.not_lt.mpr small)]

namespace Address

variable (a : Address)

theorem chars_alphanum (c : Char) (member : c ∈ a.chars) : c.isAlphanum = true := by
  rw [Char.isAlphanum, Bool.or_eq_true]
  rcases List.mem_append.mp member with letter | digit
  · exact .inl (column_chars_alpha a.col c letter)
  · exact .inr (digits_of_nat_numeric a.row c digit)

theorem chars_start (valid : a.Valid) : ∃ c more, a.chars = c :: more ∧ c.isAlpha = true := by
  obtain ⟨_, _, left, _⟩ := valid
  obtain ⟨c, more, same⟩ := List.exists_cons_of_ne_nil (column_chars_ne_nil a.col (by omega))
  exact ⟨c, more ++ Decimal.digitsOfNat a.row, by rw [chars, same, List.cons_append],
    column_chars_alpha a.col c (by simp [same])⟩

theorem chars_digit : ∃ d ∈ a.chars, Decimal.isDigit d = true := by
  obtain ⟨d, more, same⟩ : ∃ d more, Decimal.digitsOfNat a.row = d :: more :=
    List.exists_cons_of_ne_nil Nat.toDigits_ne_nil
  have member : d ∈ Decimal.digitsOfNat a.row := by simp [same]
  exact ⟨d, List.mem_append_right _ member, digits_of_nat_numeric a.row d member⟩

theorem drop_marker_of_alphanum (cs : List Char) (alphanum : ∀ c ∈ cs, c.isAlphanum = true) :
    dropMarker cs = cs := by
  unfold dropMarker
  split
  · have marker := alphanum '$' List.mem_cons_self
    simp at marker
  · rfl

theorem parse_text (valid : a.Valid) : parse a.text = .ok a := by
  obtain ⟨top, bottom, left, right⟩ := valid
  have letters : columnChars a.col ≠ [] := column_chars_ne_nil a.col (by omega)
  have digits : Decimal.digitsOfNat a.row ≠ [] := Nat.toDigits_ne_nil
  have numeric := digits_of_nat_numeric a.row
  have visible (c : Char) (member : c ∈ a.chars) : Text.isBlank c = false :=
    Text.visible_of_alphanum c (chars_alphanum a c member)
  have filled : a.chars ≠ [] := by simp [chars, letters]
  have kept : Text.trimChars a.text.toList = a.chars := by
    rw [text, String.toList_ofList]
    exact Text.trim_of_solid _ (Text.solid_of_all _ filled visible) fun c first =>
      visible c (List.mem_of_mem_head? first)
  have marked : dropMarker a.chars = a.chars :=
    drop_marker_of_alphanum _ (chars_alphanum a)
  have unmarked : dropMarker (Decimal.digitsOfNat a.row) = Decimal.digitsOfNat a.row :=
    drop_marker_of_alphanum _ fun c member => by
      simp [Char.isAlphanum, ← digit_iff, numeric c member]
  obtain ⟨taken, dropped⟩ : a.chars.takeWhile Char.isAlpha = columnChars a.col ∧
      a.chars.dropWhile Char.isAlpha = Decimal.digitsOfNat a.row :=
    Text.take_run Char.isAlpha _ _ (column_chars_alpha a.col) fun c first =>
      digit_not_alpha c (numeric c (List.mem_of_mem_head? first))
  have column : columnNumber (String.ofList (columnChars a.col)) = .ok a.col := by
    rw [columnNumber, String.toList_ofList, column_from_chars _ _ right]
    simp [letters]
  have bits : ¬Nat.pow 2 32 ≤ a.row := by
    have most : maxRows < Nat.pow 2 32 := by decide
    omega
  have made : make a.row a.col = .ok a := by
    rw [make, if_neg (by omega), if_neg (by omega)]
  have all : (Decimal.digitsOfNat a.row).all Decimal.isDigit = true := List.all_eq_true.mpr numeric
  simp only [parse, kept, marked, taken, dropped, unmarked, column, all, nat_of_digits_of_nat,
    List.isEmpty_eq_false_iff.mpr filled, List.isEmpty_eq_false_iff.mpr letters,
    List.isEmpty_eq_false_iff.mpr digits, if_neg bits]
  exact made

end Address

end Spreadsheet
