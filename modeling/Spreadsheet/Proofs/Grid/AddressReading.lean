import Spreadsheet.Proofs.Grid.AddressText

-- What an accepted address text is made of. Its letters are those of the column, in capitals, and
-- its digits are those of the row, after zeros.

set_option autoImplicit false

namespace Spreadsheet

section Columns

theorem letter_capital (c : Char) (alpha : c.isAlpha = true) :
    1 ≤ letterValue c ∧ letterValue c ≤ 26 ∧ Char.ofNat (64 + letterValue c) = c.toUpper := by
  have codes : ∀ n < 128, (Char.ofNat n).isAlpha = true →
      1 ≤ letterValue (Char.ofNat n) ∧ letterValue (Char.ofNat n) ≤ 26 ∧
        Char.ofNat (64 + letterValue (Char.ofNat n)) = (Char.ofNat n).toUpper := by decide
  have small : c.toNat < 128 := by
    have code := Text.code_of_alphanum c (by simp [Char.isAlphanum, alpha])
    omega
  have known := codes c.toNat small
  rw [Char.ofNat_toNat] at known
  exact known alpha

theorem column_chars_after (col value : Nat) (positive : 1 ≤ value) (small : value ≤ 26) :
    columnChars (26 * col + value) = columnChars col ++ [Char.ofNat (64 + value)] := by
  have front : (26 * col + value - 1) / 26 = col := by omega
  have back : 65 + (26 * col + value - 1) % 26 = 64 + value := by omega
  rw [column_chars_succ _ (by omega), front, back]

-- No two numbers have the same letters, since there is no letter for zero.
theorem column_chars_of_letters (text : String) (col n : Nat) (cs : List Char)
    (read : columnFrom text col cs = .ok n) :
    columnChars n = columnChars col ++ cs.map Char.toUpper := by
  induction cs generalizing col with
  | nil =>
    cases read
    simp
  | cons c rest ih =>
    rw [columnFrom] at read
    split at read
    · cases read
    · rename_i alpha
      split at read
      · cases read
      · obtain ⟨positive, small, capital⟩ := letter_capital c (by simpa using alpha)
        rw [ih _ read, column_chars_after col _ positive small, capital, List.map_cons,
          List.append_assoc, List.singleton_append]

theorem column_number_read (text : String) (n : Nat) (read : columnNumber text = .ok n) :
    columnChars n = text.toList.map Char.toUpper := by
  unfold columnNumber at read
  split at read
  · cases read
  · have none : columnChars 0 = [] := by simp [columnChars]
    have whole := column_chars_of_letters text 0 n text.toList read
    rwa [none, List.nil_append] at whole

end Columns

section Rows

open Decimal

theorem digits_of_value (c : Char) (digit : isDigit c = true) :
    digitValue c < 10 ∧ digitsOfNat (digitValue c) = [c] := by
  have codes : ∀ n < 58, isDigit (Char.ofNat n) = true →
      digitValue (Char.ofNat n) < 10 ∧
        digitsOfNat (digitValue (Char.ofNat n)) = [Char.ofNat n] := by decide
  have small : c.toNat < 58 := by
    simp only [isDigit, Bool.and_eq_true, decide_eq_true_eq, Char.le_def,
      UInt32.le_iff_toNat_le] at digit
    exact Nat.lt_succ_of_le digit.2
  have known := codes c.toNat small
  rw [Char.ofNat_toNat] at known
  exact known digit

-- From a number that is not zero on, each digit read is one digit more.
theorem digits_of_run (n : Nat) (positive : 0 < n) (cs : List Char)
    (numeric : ∀ c ∈ cs, isDigit c = true) :
    digitsOfNat (cs.foldl (fun n c => 10 * n + digitValue c) n) = digitsOfNat n ++ cs := by
  induction cs generalizing n with
  | nil => simp
  | cons c rest ih =>
    obtain ⟨digit, later⟩ := List.forall_mem_cons.mp numeric
    obtain ⟨small, one⟩ := digits_of_value c digit
    have next : digitsOfNat (10 * n + digitValue c) = digitsOfNat n ++ [c] := by
      rw [← one]
      exact (Nat.toDigits_append_toDigits (by decide) positive small).symm
    rw [List.foldl_cons, ih _ (by omega) later, next, List.append_assoc, List.singleton_append]

theorem digits_of_nat_of_digits (cs : List Char) (numeric : ∀ c ∈ cs, isDigit c = true)
    (nonzero : natOfDigits cs ≠ 0) : digitsOfNat (natOfDigits cs) = cs.dropWhile (· = '0') := by
  induction cs with
  | nil => exact absurd rfl nonzero
  | cons c rest ih =>
    obtain ⟨digit, later⟩ := List.forall_mem_cons.mp numeric
    by_cases zero : c = '0'
    · subst zero
      rw [List.dropWhile_cons_of_pos (by decide)]
      exact ih later nonzero
    · obtain ⟨_, one⟩ := digits_of_value c digit
      have positive : 0 < digitValue c := by
        refine Nat.pos_of_ne_zero fun none => zero ?_
        rw [none] at one
        exact (List.cons.inj one).1.symm
      have start : natOfDigits (c :: rest) =
          rest.foldl (fun n c => 10 * n + digitValue c) (digitValue c) := by
        simp [natOfDigits]
      rw [start, digits_of_run _ positive rest later, one, List.singleton_append,
        List.dropWhile_cons_of_neg (by simpa using zero)]

end Rows

namespace Address

-- The parts of an address text: letters and digits, each perhaps after a `$`.
structure Parts where
  before : List Char
  letters : List Char
  between : List Char
  digits : List Char
  beforeMarks : ∀ c ∈ before, c = '$'
  alpha : ∀ c ∈ letters, c.isAlpha = true
  betweenMarks : ∀ c ∈ between, c = '$'
  numeric : ∀ c ∈ digits, Decimal.isDigit c = true

namespace Parts

variable (p : Parts)

def chars : List Char := p.before ++ p.letters ++ (p.between ++ p.digits)

-- The letters and the digits without the markers.
def unmarked : List Char := p.letters ++ p.digits

theorem mark_or_alphanum (c : Char) (member : c ∈ p.chars) : c = '$' ∨ c.isAlphanum = true := by
  simp only [chars, List.mem_append] at member
  rcases member with (before | letter) | (between | digit)
  · exact .inl (p.beforeMarks c before)
  · exact .inr (by simp [Char.isAlphanum, p.alpha c letter])
  · exact .inl (p.betweenMarks c between)
  · exact .inr (by simp [Char.isAlphanum, ← digit_iff, p.numeric c digit])

theorem unmarked_eq : p.chars.filter (· ≠ '$') = p.unmarked := by
  have dropped (marks : List Char) (all : ∀ c ∈ marks, c = '$') :
      marks.filter (· ≠ '$') = [] := by
    rw [List.filter_eq_nil_iff]
    intro c member
    simp [all c member]
  have kept (cs : List Char) (alphanum : ∀ c ∈ cs, c.isAlphanum = true) :
      cs.filter (· ≠ '$') = cs := by
    rw [List.filter_eq_self]
    intro c member
    rw [decide_eq_true_eq]
    rintro rfl
    exact absurd (alphanum '$' member) (by decide)
  have letters := kept p.letters fun c member => by simp [Char.isAlphanum, p.alpha c member]
  have digits := kept p.digits fun c member => by
    simp [Char.isAlphanum, ← digit_iff, p.numeric c member]
  rw [chars, unmarked, List.filter_append, List.filter_append, List.filter_append,
    dropped p.before p.beforeMarks, dropped p.between p.betweenMarks, letters, digits,
    List.nil_append, List.nil_append]

theorem taken_apart : p.unmarked.takeWhile Char.isAlpha = p.letters ∧
    p.unmarked.dropWhile Char.isAlpha = p.digits :=
  Text.take_run Char.isAlpha _ _ p.alpha fun c first =>
    digit_not_alpha c (p.numeric c (List.mem_of_mem_head? first))

end Parts

theorem drop_marker_parts (cs : List Char) :
    ∃ marks, (∀ c ∈ marks, c = '$') ∧ cs = marks ++ dropMarker cs := by
  unfold dropMarker
  split
  · exact ⟨['$'], by simp, rfl⟩
  · exact ⟨[], by simp, rfl⟩

theorem make_valid (row col : Nat) (a : Address) (made : make row col = .ok a) :
    a = ⟨row, col⟩ ∧ a.Valid := by
  unfold make at made
  split at made
  · cases made
  · split at made
    · cases made
    · cases made
      refine ⟨rfl, ?_⟩
      unfold Valid
      dsimp only
      omega

-- An accepted text has all of its characters in the parts of an address inside the limits.
theorem parse_parts (s : String) (a : Address) (read : parse s = .ok a) :
    ∃ p : Parts, Text.trimChars s.toList = p.chars ∧
      columnChars a.col = p.letters.map Char.toUpper ∧ Decimal.natOfDigits p.digits = a.row ∧
      a.Valid := by
  simp only [parse] at read
  split at read
  · cases read
  split at read
  · cases read
  cases column : columnNumber (String.ofList
      ((dropMarker (Text.trimChars s.toList)).takeWhile Char.isAlpha)) with
  | error e =>
    rw [column] at read
    cases read
  | ok col =>
    rw [column] at read
    simp only [bind, Except.bind] at read
    split at read
    · cases read
    rename_i digits
    split at read
    · cases read
    obtain ⟨before, beforeMarks, front⟩ := drop_marker_parts (Text.trimChars s.toList)
    obtain ⟨between, betweenMarks, back⟩ := drop_marker_parts
      ((dropMarker (Text.trimChars s.toList)).dropWhile Char.isAlpha)
    have letters := column_number_read _ col column
    rw [String.toList_ofList] at letters
    obtain ⟨rfl, valid⟩ := make_valid _ col a read
    simp only [Bool.or_eq_true, Bool.not_eq_true', not_or, Bool.not_eq_false] at digits
    refine ⟨⟨before, _, between, _, beforeMarks, List.all_eq_true.mp List.all_takeWhile,
      betweenMarks, List.all_eq_true.mp digits.2⟩, ?_, letters, rfl, valid⟩
    rw [Parts.chars, ← back, List.append_assoc, List.takeWhile_append_dropWhile, ← front]

-- The text without blanks around it and without markers, in capitals and without zeros before the
-- row.
def tidied (s : String) : String :=
  let cs := (Text.trimChars s.toList).filter (· ≠ '$')
  String.ofList ((cs.takeWhile Char.isAlpha).map Char.toUpper ++
    (cs.dropWhile Char.isAlpha).dropWhile (· = '0'))

theorem text_of_parse (s : String) (a : Address) (read : parse s = .ok a) :
    a.text = tidied s ∧ a.Valid := by
  obtain ⟨p, whole, letters, row, valid⟩ := parse_parts s a read
  obtain ⟨taken, dropped⟩ := p.taken_apart
  have nonzero : Decimal.natOfDigits p.digits ≠ 0 := by
    obtain ⟨top, _⟩ := valid
    omega
  have digits := digits_of_nat_of_digits p.digits p.numeric nonzero
  refine ⟨?_, valid⟩
  rw [text, Address.chars, letters, ← row, digits, tidied, whole, p.unmarked_eq, taken, dropped]

-- Blanks around a text do not matter, nor does anything else that is trimmed away.
theorem parse_trimmed (s t : String) (same : Text.trimChars s.toList = Text.trimChars t.toList) :
    parse s = parse t := by
  simp only [parse, same]

end Address

end Spreadsheet
