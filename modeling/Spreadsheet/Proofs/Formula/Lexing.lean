import Spreadsheet.Proofs.Formula.Written
import Spreadsheet.Proofs.Grid.AddressText

-- The text of a token is read as the token, when what follows cannot be part of it.

set_option autoImplicit false

namespace Spreadsheet.Formula

-- The text ends here or goes on after an operand.
def Breaks (separator : Char) (rest : List Char) : Prop :=
  ∀ c ∈ rest.head?, c = separator ∨ c ∈ [')', '=', '<', '>', '&', '+', '-', '*', '/', ':']

-- What follows a lexeme is no part of it.
def Lexeme.Parted (separator : Char) (rest : List Char) : Lexeme → Prop
  | number _ => Breaks separator rest
  | boolean _ => Breaks separator rest
  | cell _ _ => Breaks separator rest
  | name _ _ => Breaks separator rest
  | text _ => rest.head? ≠ some '"'
  | error _ => Text.Stops isErrorPart rest
  | function _ => rest.head? = some '('
  | operator _ => rest.head? ≠ some '=' ∧ rest.head? ≠ some '>'
  | sheet _ => True
  | colon => True
  | .separator => True
  | leftParen => True
  | rightParen => True

-- The text stands for a token, before the given rest.
def Scans (separator : Char) (size : Nat) (cs : List Char) (token : Token) (rest : List Char) :
    Prop :=
  ∃ c more, cs = c :: more ∧ Text.isBlank c = false ∧
    scanToken separator size c (more ++ rest) = .ok (token, rest)

theorem ne_of_kind (kind : Char → Bool) (c d : Char) (is : kind c = true)
    (other : kind d = false) : c ≠ d := by
  rintro rfl
  simp [other] at is

def symbols : List Char := ['+', '-', '*', '/', '&', ':', '(', ')', '=']

-- The characters that tell at once how a token is to be read.
def marks : List Char := symbols ++ [',', ';', '<', '>', '"', '\'', '#']

theorem symbol_none (separator c : Char) (apart : c ≠ separator) (plain : c ∉ symbols) :
    symbol? separator c = none := by
  unfold symbol?
  rw [if_neg apart]
  split <;> simp_all [symbols]

theorem digit_not_name_start (c : Char) (digit : Decimal.isDigit c = true) :
    isNameStart c = false := by
  have letter := digit_not_alpha c digit
  have line := ne_of_kind Decimal.isDigit c '_' digit (by decide)
  have dollar := ne_of_kind Decimal.isDigit c '$' digit (by decide)
  simp [isNameStart, letter, line, dollar]

theorem take_quoted_cons (mark c : Char) (cs : List Char) (apart : c ≠ mark) (more : cs ≠ []) :
    takeQuoted mark (c :: cs) = (takeQuoted mark cs).map fun (s, rest) => (c :: s, rest) := by
  obtain ⟨d, rest, rfl⟩ := List.exists_cons_of_ne_nil more
  rw [takeQuoted, if_neg apart]

theorem take_quoted (mark : Char) (cs rest : List Char) (apart : rest.head? ≠ some mark) :
    takeQuoted mark (doubled mark cs ++ mark :: rest) = some (cs, rest) := by
  unfold doubled
  induction cs with
  | nil =>
    cases rest with
    | nil => simp [takeQuoted]
    | cons d more =>
      have other : d ≠ mark := by simpa using apart
      simp [takeQuoted, other]
  | cons c more ih =>
    by_cases doubled : c = mark
    · subst doubled
      simp [takeQuoted, ih]
    · rw [List.flatMap_cons, if_neg doubled, List.singleton_append, List.cons_append,
        take_quoted_cons mark c _ doubled (by simp), ih]
      rfl

theorem visible_of_name_part (c : Char) (part : isNamePart c = true) :
    Text.isBlank c = false := by
  simp only [isNamePart, Bool.or_eq_true, beq_iff_eq] at part
  rcases part with ((alphanum | rfl) | rfl) | rfl
  · exact Text.visible_of_alphanum c alphanum
  all_goals decide

theorem identifier_parts (i : Identifier) (c : Char) (member : c ∈ i.chars) :
    isNamePart c = true := by
  rcases List.mem_cons.mp member with rfl | later
  · exact isNamePart_of_isNameStart i.first i.start
  · exact List.all_eq_true.mp i.parts c later

-- Letter case changes no digit, so a word with a digit is no truth value.
theorem same_of_digit (s t : String) (d : Char) (member : d ∈ s.toList)
    (digit : Decimal.isDigit d = true)
    (none : (Text.asciiUpper t).toList.any Decimal.isDigit = false) :
    Text.asciiSame s t = false := by
  refine Bool.eq_false_iff.mpr fun same => ?_
  have upper : Text.asciiUpper s = Text.asciiUpper t := by simpa [Text.asciiSame] using same
  have kept : d.toUpper = d := dif_neg fun lower => by
    have small := (Bool.or_eq_false_iff.mp (digit_not_alpha d digit)).2
    unfold Char.isLower at small
    simp only [Bool.and_eq_false_iff, decide_eq_false_iff_not] at small
    exact small.elim (absurd lower.1) (absurd lower.2)
  have present : d ∈ (Text.asciiUpper t).toList := by
    rw [← upper, Text.asciiUpper, String.toList_ofList, ← kept]
    exact List.mem_map_of_mem member
  exact List.any_eq_false.mp none d present digit

theorem spelling_start (n : Spelling) : ∃ c more, n.chars = c :: more ∧ ∀ rest,
    Decimal.isDigit c = true ∨ c = '.' ∧ startsWithDigit (more ++ rest) = true := by
  cases whole : n.whole with
  | cons c more =>
    have digit := List.all_eq_true.mp n.wholeNumeric c (by simp [whole])
    exact ⟨c, _, by rw [Spelling.chars, whole, List.cons_append], fun _ => .inl digit⟩
  | nil =>
    obtain ⟨ds, fraction, filled⟩ : ∃ ds, n.fraction? = some ds ∧ ds ≠ [] := by
      have filled := n.filled
      cases fraction : n.fraction? <;> simp_all
    obtain ⟨d, more, digits⟩ := List.exists_cons_of_ne_nil filled
    have digit := List.all_eq_true.mp n.fractionNumeric d (by simp [fraction, digits])
    refine ⟨'.', d :: (more ++ n.powerChars), ?_, fun rest => .inr ⟨rfl, ?_⟩⟩
    · simp [Spelling.chars, whole, Spelling.fractionChars, fraction, digits]
    · simp [startsWithDigit, digit]

theorem take_fraction_none (separator : Char) (cs : List Char) (point : cs.head? ≠ some '.')
    (comma : cs.head? = some ',' → separator ≠ ';') : takeFraction separator cs = ([], cs) := by
  unfold takeFraction
  split
  · simp at point
  · rw [if_neg fun both => comma rfl both.1]
  · rfl

theorem take_sign (negative? : Option Bool) (d : Char) (rest : List Char)
    (digit : Decimal.isDigit d = true) :
    takeSign (Power.sign negative? ++ d :: rest) = (negative?.getD false, d :: rest) := by
  cases negative? with
  | some negative => cases negative <;> rfl
  | none =>
    have plus := ne_of_kind Decimal.isDigit d '+' digit (by decide)
    have minus := ne_of_kind Decimal.isDigit d '-' digit (by decide)
    simp only [Power.sign, List.nil_append, Option.getD_none]
    unfold takeSign
    split <;> simp_all

section Scan

variable (separator : Char) (size : Nat) (known : separator = ',' ∨ separator = ';')
include known

theorem stops_of_breaks (kind : Char → Bool) (rest : List Char) (breaks : Breaks separator rest)
    (none : [',', ';', ')', '=', '<', '>', '&', '+', '-', '*', '/', ':'].any kind = false) :
    Text.Stops kind rest := by
  intro c first
  refine Bool.eq_false_iff.mpr (List.any_eq_false.mp none c ?_)
  rcases breaks c first with rfl | member
  · rcases known with rfl | rfl <;> simp
  · exact List.mem_cons_of_mem _ (List.mem_cons_of_mem _ member)

-- A kind of character that no mark belongs to is told apart from all marks.
theorem scan_kind (kind : Char → Bool) (c : Char) (is : kind c = true)
    (none : marks.any kind = false) :
    symbol? separator c = .none ∧ ¬(c = '<' ∨ c = '>') ∧ c ≠ '"' ∧ c ≠ '\'' ∧ c ≠ '#' := by
  have apart (d : Char) (member : d ∈ marks) : c ≠ d :=
    ne_of_kind kind c d is (Bool.eq_false_iff.mpr (List.any_eq_false.mp none d member))
  refine ⟨symbol_none separator c ?_ fun member => ?_, not_or.mpr ⟨?_, ?_⟩, ?_, ?_, ?_⟩
  · rcases known with rfl | rfl <;> exact apart _ (by decide)
  · exact apart c (List.mem_append_left _ member) rfl
  all_goals exact apart _ (by decide)

theorem scan_name_start (c : Char) (rest : List Char) (start : isNameStart c = true) :
    scanToken separator size c rest = .ok (takeWord (c :: rest)) := by
  obtain ⟨symbol, comparison, text, sheet, error⟩ :=
    scan_kind separator known isNameStart c start (by decide)
  have number : ¬(Decimal.isDigit c = true ∨ c = '.' ∧ startsWithDigit rest = true) := by
    rintro (digit | ⟨rfl, _⟩)
    · simp [digit_not_name_start c digit] at start
    · simp [isNameStart] at start
  unfold scanToken
  rw [symbol]
  simp only [if_neg comparison, if_neg text, if_neg sheet, if_neg error, if_neg number,
    if_pos start]

theorem scan_digit (c : Char) (rest : List Char)
    (starts : Decimal.isDigit c = true ∨ c = '.' ∧ startsWithDigit rest = true) :
    scanToken separator size c rest =
      .ok ((.number (takeNumber separator (c :: rest)).1),
        (takeNumber separator (c :: rest)).2) := by
  have digitOrPoint : (Decimal.isDigit c || c == '.') = true := by
    rcases starts with digit | ⟨rfl, _⟩
    · simp [digit]
    · simp
  obtain ⟨symbol, comparison, text, sheet, error⟩ :=
    scan_kind separator known (fun c => Decimal.isDigit c || c == '.') c digitOrPoint (by decide)
  unfold scanToken
  rw [symbol]
  simp only [if_neg comparison, if_neg text, if_neg sheet, if_neg error, if_pos starts]

theorem take_word (word rest : List Char) (parts : ∀ c ∈ word, isNamePart c = true)
    (breaks : Breaks separator rest) :
    takeWord (word ++ rest) = (wordToken (String.ofList word), rest) := by
  obtain ⟨taken, left⟩ := Text.take_run isNamePart word rest parts
    (stops_of_breaks separator known isNamePart rest breaks (by decide))
  have next (c : Char) (member : c ∈ ['!', '(']) : rest.head? ≠ some c := by
    intro first
    have stops := stops_of_breaks separator known (· ∈ ['!', '(']) rest breaks (by decide) c first
    simp [member] at stops
  unfold takeWord
  rw [taken, left]
  split
  · exact absurd rfl (next '!' (by simp))
  · exact absurd rfl (next '(' (by simp))
  · rfl

omit known in
theorem take_word_call (word rest : List Char) (parts : ∀ c ∈ word, isNamePart c = true)
    (opens : rest.head? = some '(') :
    takeWord (word ++ rest) = (.identifier (String.ofList word), rest) := by
  obtain ⟨more, rfl⟩ := List.head?_eq_some_iff.mp opens
  obtain ⟨taken, left⟩ := Text.take_run isNamePart word ('(' :: more) parts
    ((Text.stops_cons isNamePart '(' more).mpr (by decide))
  simp only [takeWord, taken, left]

theorem scan_word (c : Char) (more rest : List Char) (token : Token) (start : isNameStart c = true)
    (taken : takeWord (c :: more ++ rest) = (token, rest)) :
    Scans separator size (c :: more) token rest :=
  ⟨c, more, rfl, visible_of_name_part c (isNamePart_of_isNameStart c start),
    (scan_name_start separator size known c _ start).trans (congrArg Except.ok taken)⟩

theorem scan_cell (a : Address) (valid : a.Valid) (rest : List Char)
    (breaks : Breaks separator rest) : Scans separator size a.chars (.cell a) rest := by
  obtain ⟨c, more, same, alpha⟩ := a.chars_start valid
  obtain ⟨d, member, digit⟩ := a.chars_digit
  have listed : d ∈ a.text.toList := by rwa [Address.text, String.toList_ofList]
  have token : wordToken a.text = .cell a := by
    rw [wordToken, same_of_digit a.text "TRUE" d listed digit (by decide),
      same_of_digit a.text "FALSE" d listed digit (by decide), Address.parse_text a valid]
    rfl
  have parts (x : Char) (part : x ∈ a.chars) : isNamePart x = true := by
    simp [isNamePart, a.chars_alphanum x part]
  rw [same]
  refine scan_word separator size known c more rest _ (by simp [isNameStart, alpha]) ?_
  rw [← same, take_word separator known a.chars rest parts breaks]
  exact congrArg (·, rest) token

theorem scan_name (i : Identifier) (free : i.Free) (rest : List Char)
    (breaks : Breaks separator rest) : Scans separator size i.chars (.identifier i.text) rest := by
  obtain ⟨noTrue, noFalse, noCell⟩ := free
  have token : wordToken i.text = .identifier i.text := by
    rw [wordToken, noTrue, noFalse]
    simp only [Bool.false_eq_true, if_false]
    cases found : Address.parse i.text with
    | ok a => simp [found, Except.isOk, Except.toBool] at noCell
    | error e => rfl
  refine scan_word separator size known i.first i.rest rest _ i.start ?_
  exact (take_word separator known i.chars rest (identifier_parts i) breaks).trans
    (congrArg (·, rest) token)

theorem scan_function (i : Identifier) (rest : List Char) (opens : rest.head? = some '(') :
    Scans separator size i.chars (.identifier i.text) rest :=
  scan_word separator size known i.first i.rest rest _ i.start
    (take_word_call i.chars rest (identifier_parts i) opens)

theorem scan_boolean (b : Bool) (rest : List Char) (breaks : Breaks separator rest) :
    Scans separator size (Lexeme.boolean b |>.chars separator) (.boolean b) rest := by
  cases b with
  | true =>
    exact scan_word separator size known 'T' ['R', 'U', 'E'] rest _ (by decide)
      (take_word separator known ['T', 'R', 'U', 'E'] rest (List.all_eq_true.mp (by decide)) breaks)
  | false =>
    exact scan_word separator size known 'F' ['A', 'L', 'S', 'E'] rest _ (by decide)
      (take_word separator known ['F', 'A', 'L', 'S', 'E'] rest (List.all_eq_true.mp (by decide))
        breaks)

theorem scan_error (e : ErrorKind) (rest : List Char) (stops : Text.Stops isErrorPart rest) :
    Scans separator size e.text.toList (.error e) rest := by
  obtain ⟨more, same, parts, spelled⟩ : ∃ more, e.text.toList = '#' :: more ∧
      (∀ c ∈ more, isErrorPart c = true) ∧
      ErrorKind.ofText? (String.ofList ('#' :: more)) = some e := by
    cases e <;> exact ⟨_, rfl, List.all_eq_true.mp (by decide), by decide⟩
  obtain ⟨taken, left⟩ := Text.take_run isErrorPart more rest parts stops
  refine ⟨'#', more, same, by decide, ?_⟩
  have symbol : symbol? separator '#' = none := symbol_none separator '#' (by
    rcases known with rfl | rfl <;> decide) (by decide)
  simp only [scanToken, symbol, taken, left, spelled]
  rfl

theorem scan_text (s : String) (rest : List Char) (apart : rest.head? ≠ some '"') :
    Scans separator size (quote '"' s.toList) (.text s) rest := by
  have symbol : symbol? separator '"' = none := symbol_none separator '"' (by
    rcases known with rfl | rfl <;> decide) (by decide)
  have taken := take_quoted '"' s.toList rest apart
  exact ⟨'"', doubled '"' s.toList ++ ['"'], rfl, by decide, by simp [scanToken, symbol, taken]⟩

theorem scan_sheet (s : String) (rest : List Char) :
    Scans separator size (quote '\'' s.toList ++ ['!']) (.sheet s) rest := by
  have symbol : symbol? separator '\'' = none := symbol_none separator '\'' (by
    rcases known with rfl | rfl <;> decide) (by decide)
  have taken := take_quoted '\'' s.toList ('!' :: rest) (by simp)
  exact ⟨'\'', doubled '\'' s.toList ++ ['\''] ++ ['!'], rfl, by decide,
    by simp [scanToken, symbol, taken]⟩

section Number

variable (n : Spelling) (rest : List Char) (breaks : Breaks separator rest)
include breaks

theorem stops_after_fraction : Text.Stops Decimal.isDigit (n.powerChars ++ rest) := by
  cases power : n.power? with
  | none =>
    simp only [Spelling.powerChars, power]
    exact stops_of_breaks separator known Decimal.isDigit rest breaks (by decide)
  | some p =>
    simp only [Spelling.powerChars, power, Option.map_some, Option.getD_some, Power.chars]
    refine (Text.stops_cons _ _ _).mpr ?_
    rcases p.marked with same | same <;> rw [same] <;> decide

theorem stops_after_whole : Text.Stops Decimal.isDigit
    (n.fractionChars ++ (n.powerChars ++ rest)) := by
  cases fraction : n.fraction? with
  | none =>
    simp only [Spelling.fractionChars, fraction]
    exact stops_after_fraction separator known n rest breaks
  | some ds =>
    simp only [Spelling.fractionChars, fraction, Option.map_some, Option.getD_some]
    exact (Text.stops_cons _ _ _).mpr (by decide)

theorem take_fraction : takeFraction separator (n.fractionChars ++ (n.powerChars ++ rest)) =
    (n.fraction?.getD [], n.powerChars ++ rest) := by
  cases fraction : n.fraction? with
  | none =>
    have first (c : Char) (head : (n.powerChars ++ rest).head? = some c) :
        c ≠ '.' ∧ (c = ',' → separator ≠ ';') := by
      cases power : n.power? with
      | none =>
        simp only [Spelling.powerChars, power, Option.map_none, Option.getD_none,
          List.nil_append] at head
        rcases breaks c head with rfl | member
        · rcases known with rfl | rfl <;> decide
        · have plain : [')', '=', '<', '>', '&', '+', '-', '*', '/', ':'].any
              (· ∈ ['.', ',']) = false := by decide
          have apart : c ≠ '.' ∧ c ≠ ',' := by simpa using List.any_eq_false.mp plain c member
          exact ⟨apart.1, fun comma => absurd comma apart.2⟩
      | some p =>
        simp only [Spelling.powerChars, power, Option.map_some, Option.getD_some, Power.chars,
          List.cons_append, List.head?_cons, Option.some.injEq] at head
        rcases p.marked with same | same <;> simp [← head, same]
    simp only [Spelling.fractionChars, fraction, Option.map_none, Option.getD_none,
      List.nil_append]
    exact take_fraction_none separator _ (fun head => (first '.' head).1 rfl)
      fun head => (first ',' head).2 rfl
  | some ds =>
    have numeric : ∀ c ∈ ds, Decimal.isDigit c = true := by
      simpa [fraction] using n.fractionNumeric
    obtain ⟨taken, left⟩ := Text.take_run Decimal.isDigit ds (n.powerChars ++ rest) numeric
      (stops_after_fraction separator known n rest breaks)
    simp only [Spelling.fractionChars, fraction, Option.map_some, Option.getD_some,
      List.cons_append, takeFraction, taken, left]

theorem take_power : takePower (n.powerChars ++ rest) =
    ((n.power?.map Power.value).getD 0, rest) := by
  cases power : n.power? with
  | none =>
    simp only [Spelling.powerChars, power, Option.map_none, Option.getD_none, List.nil_append]
    cases rest with
    | nil => rfl
    | cons c more =>
      have plain := stops_of_breaks separator known (fun c => c = 'e' || c = 'E') (c :: more) breaks
        (by decide) c rfl
      have noMark : ¬(c = 'e' ∨ c = 'E') := by simpa using plain
      simp [takePower, noMark]
  | some p =>
    have numeric : ∀ c ∈ p.digits, Decimal.isDigit c = true := List.all_eq_true.mp p.numeric
    obtain ⟨taken, left⟩ := Text.take_run Decimal.isDigit p.digits rest numeric
      (stops_of_breaks separator known Decimal.isDigit rest breaks (by decide))
    obtain ⟨d, more, digits⟩ := List.exists_cons_of_ne_nil p.filled
    have digit : Decimal.isDigit d = true := numeric d (by simp [digits])
    have signed : takeSign (Power.sign p.negative? ++ (p.digits ++ rest)) =
        (p.negative?.getD false, p.digits ++ rest) := by
      rw [digits]
      exact take_sign p.negative? d (more ++ rest) digit
    have starts : startsWithDigit (p.digits ++ rest) = true := by
      simp [startsWithDigit, digits, digit]
    simp only [Spelling.powerChars, power, Option.map_some, Option.getD_some, Power.chars,
      List.cons_append, List.append_assoc, takePower, signed, starts, p.marked, taken, left,
      Power.value]
    rfl

theorem scan_number : Scans separator size n.chars (.number n.value) rest := by
  obtain ⟨taken, left⟩ := Text.take_run Decimal.isDigit n.whole _
    (List.all_eq_true.mp n.wholeNumeric) (stops_after_whole separator known n rest breaks)
  have read : takeNumber separator (n.chars ++ rest) = (n.value, rest) := by
    rw [Spelling.chars, List.append_assoc, List.append_assoc]
    simp only [takeNumber, taken, left, take_fraction separator known n rest breaks,
      take_power separator known n rest breaks]
    rfl
  obtain ⟨c, more, same, starts⟩ := spelling_start n
  have visible : Text.isBlank c = false := by
    rcases starts [] with digit | ⟨rfl, _⟩
    · exact Text.visible_of_alphanum c (by simp [Char.isAlphanum, ← digit_iff, digit])
    · decide
  refine ⟨c, more, same, visible, ?_⟩
  rw [scan_digit separator size known c (more ++ rest) (starts rest), ← List.cons_append, ← same,
    read]

end Number

omit known in
theorem scan_symbol (c : Char) (token : Token) (rest : List Char)
    (symbol : symbol? separator c = some token) (visible : Text.isBlank c = false) :
    Scans separator size [c] token rest :=
  ⟨c, [], rfl, visible, by simp [scanToken, symbol]⟩

theorem scan_comparison (c : Char) (more rest : List Char) (token : Token)
    (angle : c = '<' ∨ c = '>') (taken : takeComparison c (more ++ rest) = (token, rest)) :
    Scans separator size (c :: more) token rest := by
  refine ⟨c, more, rfl, ?_, ?_⟩
  · rcases angle with rfl | rfl <;> decide
  · have symbol : symbol? separator c = none := by
      rcases known with rfl | rfl <;> rcases angle with rfl | rfl <;> rfl
    simp only [scanToken, symbol, if_pos angle, taken]

theorem scan_operator (op : BinaryOp) (rest : List Char) (noEqual : rest.head? ≠ some '=')
    (noGreater : rest.head? ≠ some '>') : Scans separator size op.chars op.token rest := by
  have less : takeComparison '<' rest = (.less, rest) := by
    unfold takeComparison
    rw [if_pos rfl]
    split
    · exact absurd rfl noEqual
    · exact absurd rfl noGreater
    · rfl
  have greater : takeComparison '>' rest = (.greater, rest) := by
    unfold takeComparison
    rw [if_neg (by decide)]
    split
    · exact absurd rfl noEqual
    · rfl
  cases op with
  | less => exact scan_comparison separator size known '<' [] rest _ (.inl rfl) less
  | greater => exact scan_comparison separator size known '>' [] rest _ (.inr rfl) greater
  | lessEqual => exact scan_comparison separator size known '<' ['='] rest _ (.inl rfl) rfl
  | notEqual => exact scan_comparison separator size known '<' ['>'] rest _ (.inl rfl) rfl
  | greaterEqual => exact scan_comparison separator size known '>' ['='] rest _ (.inr rfl) rfl
  | _ =>
    refine scan_symbol separator size _ _ rest ?_ (by decide)
    rcases known with rfl | rfl <;> rfl

theorem scan_lexeme (x : Lexeme) (rest : List Char) (parted : x.Parted separator rest) :
    Scans separator size (x.chars separator) x.token rest := by
  cases x with
  | number n => exact scan_number separator size known n rest parted
  | text s => exact scan_text separator size known s rest parted
  | boolean b => exact scan_boolean separator size known b rest parted
  | error e => exact scan_error separator size known e rest parted
  | cell a valid => exact scan_cell separator size known a valid rest parted
  | name i free => exact scan_name separator size known i free rest parted
  | sheet s => exact scan_sheet separator size known s rest
  | function i => exact scan_function separator size known i rest parted
  | operator op => exact scan_operator separator size known op rest parted.1 parted.2
  | _ =>
    refine scan_symbol separator size _ _ rest ?_ ?_
    · rcases known with rfl | rfl <;> rfl
    · rcases known with rfl | rfl <;> decide

end Scan

end Spreadsheet.Formula
