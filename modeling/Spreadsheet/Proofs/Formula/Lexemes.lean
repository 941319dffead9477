import Mathlib.Data.List.Chain
import Spreadsheet.Proofs.Formula.Lexing

-- Texts put together from lexemes. The tokens read from such a text are those of the lexemes,
-- when each of them can stand beside the next, and its quotes hide no separator and show none.

set_option autoImplicit false

namespace Spreadsheet.Formula

namespace Lexeme

-- The lexemes that can stand first in an expression.
def opens : Lexeme → Bool
  | number _ => true
  | text _ => true
  | boolean _ => true
  | error _ => true
  | cell _ _ => true
  | name _ _ => true
  | sheet _ => true
  | function _ => true
  | operator op => op = .subtract
  | leftParen => true
  | colon => false
  | separator => false
  | rightParen => false

-- The lexemes that can stand after an expression.
def follows : Lexeme → Bool
  | operator _ => true
  | colon => true
  | separator => true
  | rightParen => true
  | _ => false

-- The second lexeme can stand right after the first one.
def Fits : Lexeme → Lexeme → Prop
  | function _, y => y = leftParen
  | operator _, y => y.opens = true
  | sheet _, _ => True
  | colon, _ => True
  | separator, _ => True
  | leftParen, _ => True
  | _, y => y.follows = true

end Lexeme

-- Characters that are visible and neither open a quotation nor separate arguments.
def Plain (c : Char) : Prop := Text.isBlank c = false ∧ c ≠ '"' ∧ c ≠ '\'' ∧ c ≠ ';'

instance (c : Char) : Decidable (Plain c) := by unfold Plain; infer_instance

theorem plain_of_name_part (c : Char) (part : isNamePart c = true) : Plain c :=
  ⟨visible_of_name_part c part, ne_of_kind isNamePart c '"' part (by decide),
    ne_of_kind isNamePart c '\'' part (by decide), ne_of_kind isNamePart c ';' part (by decide)⟩

theorem plain_of_digits (ds : List Char) (numeric : ds.all Decimal.isDigit = true) (c : Char)
    (member : c ∈ ds) : Plain c := by
  have digit := List.all_eq_true.mp numeric c member
  exact plain_of_name_part c (by simp [isNamePart, Char.isAlphanum, ← digit_iff, digit])

theorem plain_of_power (p : Power) (c : Char) (member : c ∈ p.chars) : Plain c := by
  simp only [Power.chars, List.mem_cons, List.mem_append] at member
  rcases member with rfl | sign | digit
  · rcases p.marked with same | same <;> rw [same] <;> decide
  · cases signed : p.negative? with
    | none => simp [signed, Power.sign] at sign
    | some negative => cases negative <;> (simp [signed, Power.sign] at sign; subst sign; decide)
  · exact plain_of_digits p.digits p.numeric c digit

theorem plain_of_spelling (n : Spelling) (c : Char) (member : c ∈ n.chars) : Plain c := by
  simp only [Spelling.chars, List.mem_append] at member
  rcases member with whole | fraction | power
  · exact plain_of_digits n.whole n.wholeNumeric c whole
  · cases given : n.fraction? with
    | none => simp [Spelling.fractionChars, given] at fraction
    | some ds =>
      simp only [Spelling.fractionChars, given, Option.map_some, Option.getD_some,
        List.mem_cons] at fraction
      rcases fraction with rfl | digit
      · decide
      · exact plain_of_digits ds (by simpa [given] using n.fractionNumeric) c digit
  · cases given : n.power? with
    | none => simp [Spelling.powerChars, given] at power
    | some p =>
      exact plain_of_power p c (by simpa [Spelling.powerChars, given] using power)

theorem plain_of_lexeme (separator : Char) (x : Lexeme) (noText : ∀ s, x ≠ .text s)
    (noSheet : ∀ s, x ≠ .sheet s) (noSeparator : x ≠ .separator) (c : Char)
    (member : c ∈ x.chars separator) : Plain c := by
  have all (cs : List Char) (plain : cs.all (Plain ·) = true) : ∀ d ∈ cs, Plain d := by
    simpa using plain
  have booleans (b : Bool) : ∀ d ∈ (if b then "TRUE".toList else "FALSE".toList), Plain d :=
    all _ (by cases b <;> decide)
  have errors (e : ErrorKind) : ∀ d ∈ e.text.toList, Plain d := all _ (by cases e <;> decide)
  have operators (op : BinaryOp) : ∀ d ∈ op.chars, Plain d := all _ (by cases op <;> decide)
  have signs : ∀ d ∈ [':', '(', ')'], Plain d := all _ (by decide)
  cases x with
  | number n => exact plain_of_spelling n c member
  | text s => exact absurd rfl (noText s)
  | boolean b => exact booleans b c member
  | error e => exact errors e c member
  | cell a _ => exact plain_of_name_part c (by simp [isNamePart, a.chars_alphanum c member])
  | name i _ => exact plain_of_name_part c (identifier_parts i c member)
  | sheet s => exact absurd rfl (noSheet s)
  | function i => exact plain_of_name_part c (identifier_parts i c member)
  | operator op => exact operators op c member
  | separator => exact absurd rfl noSeparator
  | _ =>
    obtain rfl := List.mem_singleton.mp member
    exact signs _ (by decide)

section Lists

variable (separator : Char) (size : Nat)

-- What the scanner makes of the text after its blanks.
theorem tokens_from_eq (cs : List Char) : tokensFrom separator size cs =
    match Text.trimStart cs with
    | [] => ⟨[.eof], none⟩
    | c :: rest =>
      match scanToken separator size c rest with
      | .error e => ⟨[], some e⟩
      | .ok (token, after) => ⟨token :: (tokensFrom separator size after).list,
          (tokensFrom separator size after).failure?⟩ := by
  rw [tokensFrom]
  split
  · rename_i blanks
    rw [blanks]
  · rename_i c rest blanks
    rw [blanks]
    dsimp only
    split
    · rename_i e step
      rw [step]
    · rename_i token after step
      rw [step]

theorem tokens_after_blanks (blanks rest : List Char)
    (blank : ∀ c ∈ blanks, Text.isBlank c = true) :
    tokensFrom separator size (blanks ++ rest) = tokensFrom separator size rest := by
  have same : Text.trimStart (blanks ++ rest) = Text.trimStart rest := by
    rw [Text.trimStart, List.dropWhile_append_of_pos blank, Text.trimStart]
  rw [tokens_from_eq, same, ← tokens_from_eq]

theorem tokens_from_scans (cs : List Char) (token : Token) (rest : List Char)
    (scans : Scans separator size cs token rest) :
    tokensFrom separator size (cs ++ rest) =
      ⟨token :: (tokensFrom separator size rest).list,
        (tokensFrom separator size rest).failure?⟩ := by
  obtain ⟨c, more, rfl, visible, step⟩ := scans
  have kept : Text.trimStart (c :: more ++ rest) = c :: (more ++ rest) := by
    simp [Text.trimStart, visible]
  rw [tokens_from_eq, kept]
  simp only [step]

theorem tokens_from_nil : tokensFrom separator size [] = ⟨[.eof], none⟩ := by
  rw [tokensFrom]
  rfl

section Known

variable (known : separator = ',' ∨ separator = ';')
include known

theorem first_of_follows (y : Lexeme) (follows : y.follows = true) :
    ∃ c more, y.chars separator = c :: more ∧
      (c = separator ∨ c ∈ [')', '=', '<', '>', '&', '+', '-', '*', '/', ':']) ∧ c ≠ '"' ∧
      (y ≠ .operator .divide → isErrorPart c = false) := by
  cases y with
  | operator op =>
    cases op with
    | divide => exact ⟨_, _, rfl, .inr (by decide), by decide, fun apart => absurd rfl apart⟩
    | _ => exact ⟨_, _, rfl, .inr (by decide), by decide, fun _ => by decide⟩
  | separator =>
    refine ⟨separator, [], rfl, .inl rfl, ?_, fun _ => ?_⟩ <;>
      rcases known with rfl | rfl <;> decide
  | colon => exact ⟨_, _, rfl, .inr (by decide), by decide, fun _ => by decide⟩
  | rightParen => exact ⟨_, _, rfl, .inr (by decide), by decide, fun _ => by decide⟩
  | _ => cases follows

omit known in
theorem first_of_opens (y : Lexeme) (opens : y.opens = true) :
    ∃ c more, y.chars separator = c :: more ∧ c ≠ '=' ∧ c ≠ '>' := by
  have apart (kind : Char → Bool) (c : Char) (is : kind c = true) (noEqual : kind '=' = false)
      (noGreater : kind '>' = false) : c ≠ '=' ∧ c ≠ '>' :=
    ⟨ne_of_kind kind c '=' is noEqual, ne_of_kind kind c '>' is noGreater⟩
  cases y with
  | number n =>
    obtain ⟨c, more, same, starts⟩ := spelling_start n
    refine ⟨c, more, same, ?_⟩
    rcases starts [] with digit | ⟨rfl, _⟩
    · exact apart Decimal.isDigit c digit (by decide) (by decide)
    · decide
  | cell a valid =>
    obtain ⟨c, more, same, alpha⟩ := a.chars_start valid
    exact ⟨c, more, same, apart Char.isAlpha c alpha (by decide) (by decide)⟩
  | name i free => exact ⟨_, _, rfl, apart isNameStart i.first i.start (by decide) (by decide)⟩
  | function i => exact ⟨_, _, rfl, apart isNameStart i.first i.start (by decide) (by decide)⟩
  | text s => exact ⟨_, _, rfl, by decide⟩
  | sheet s => exact ⟨_, _, rfl, by decide⟩
  | boolean b => cases b <;> exact ⟨_, _, rfl, by decide⟩
  | error e => cases e <;> exact ⟨_, _, rfl, by decide⟩
  | operator op =>
    obtain rfl : op = .subtract := by simpa [Lexeme.opens] using opens
    exact ⟨_, _, rfl, by decide⟩
  | leftParen => exact ⟨_, _, rfl, by decide⟩
  | _ => cases opens

theorem parted_of_fits (x y : Lexeme) (rest : List Char) (fits : x.Fits y)
    (apart : ∀ e, ¬(x = .error e ∧ y = .operator .divide)) :
    x.Parted separator (y.chars separator ++ rest) := by
  have breaks (follows : y.follows = true) : Breaks separator (y.chars separator ++ rest) := by
    obtain ⟨c, more, same, ends, _⟩ := first_of_follows separator known y follows
    simp only [same, List.cons_append, Breaks, List.head?_cons, Option.mem_some_iff]
    rintro _ rfl
    exact ends
  cases x with
  | number n => exact breaks fits
  | boolean b => exact breaks fits
  | cell a valid => exact breaks fits
  | name i free => exact breaks fits
  | text s =>
    obtain ⟨c, more, same, _, noQuote, _⟩ := first_of_follows separator known y fits
    simpa [Lexeme.Parted, same] using noQuote
  | error e =>
    obtain ⟨c, more, same, _, _, noError⟩ := first_of_follows separator known y fits
    rw [same]
    exact (Text.stops_cons _ _ _).mpr (noError fun divided => apart e ⟨rfl, divided⟩)
  | function i =>
    obtain rfl : y = .leftParen := fits
    rfl
  | operator op =>
    obtain ⟨c, more, same, noEqual, noGreater⟩ := first_of_opens separator y fits
    simpa [Lexeme.Parted, same] using And.intro noEqual noGreater
  | _ => trivial

omit known in
theorem parted_at_end (x : Lexeme) (fits : x.Fits .rightParen) : x.Parted separator [] := by
  cases x with
  | function i => cases fits
  | operator op => cases fits
  | text s => simp [Lexeme.Parted]
  | error e => exact Text.stops_nil _
  | _ => first | trivial | simp [Lexeme.Parted, Breaks]

theorem tokens_of_lexemes (xs : List Lexeme)
    (chain : (xs ++ [Lexeme.rightParen]).IsChain Lexeme.Fits)
    (apart : ∀ e, ¬[.error e, .operator .divide] <:+: xs) :
    tokensFrom separator size (xs.flatMap (Lexeme.chars separator)) =
      ⟨xs.map Lexeme.token ++ [.eof], none⟩ := by
  induction xs with
  | nil => exact tokens_from_nil separator size
  | cons x rest ih =>
    obtain ⟨first, later⟩ := List.isChain_cons.mp chain
    have parted : x.Parted separator (rest.flatMap (Lexeme.chars separator)) := by
      cases rest with
      | nil => exact parted_at_end separator x (first _ rfl)
      | cons y more =>
        refine parted_of_fits separator known x y _ (first y rfl) fun e both => ?_
        exact apart e ⟨[], more, by simp [both.1, both.2]⟩
    rw [List.flatMap_cons, tokens_from_scans separator size _ _ _
      (scan_lexeme separator size known x _ parted), ih later fun e inside =>
        apart e (inside.trans (List.suffix_cons x rest).isInfix)]
    rfl

theorem first_of_lexeme (x : Lexeme) : ∃ c more, x.chars separator = c :: more := by
  have either : x.opens = true ∨ x.follows = true := by
    cases x <;> simp [Lexeme.opens, Lexeme.follows]
  rcases either with opens | follows
  · obtain ⟨c, more, same, _⟩ := first_of_opens separator x opens
    exact ⟨c, more, same⟩
  · obtain ⟨c, more, same, _⟩ := first_of_follows separator known x follows
    exact ⟨c, more, same⟩

theorem length_lexemes_le (xs : List Lexeme) :
    xs.length ≤ (xs.flatMap (Lexeme.chars separator)).length := by
  induction xs with
  | nil => simp
  | cons x rest ih =>
    obtain ⟨c, more, same⟩ := first_of_lexeme separator known x
    simp only [List.flatMap_cons, same, List.length_cons, List.length_append]
    omega

theorem solid_lexeme (x : Lexeme) : Text.Solid (x.chars separator) := by
  obtain ⟨c, more, same⟩ := first_of_lexeme separator known x
  cases x with
  | text s => exact Text.solid_append ('"' :: doubled '"' s.toList) ['"'] ⟨'"', rfl, by decide⟩
  | sheet s => exact Text.solid_append (quote '\'' s.toList) ['!'] ⟨'!', rfl, by decide⟩
  | separator => exact ⟨separator, rfl, by rcases known with rfl | rfl <;> decide⟩
  | _ =>
    exact Text.solid_of_all _ (by simp [same]) fun d member =>
      (plain_of_lexeme separator _ (by simp) (by simp) (by simp) d member).1

theorem solid_lexemes (xs : List Lexeme) (filled : xs ≠ []) :
    Text.Solid (xs.flatMap (Lexeme.chars separator)) := by
  induction xs with
  | nil => cases filled rfl
  | cons x rest ih =>
    rw [List.flatMap_cons]
    cases rest with
    | nil => simpa using solid_lexeme separator known x
    | cons y more => exact Text.solid_append _ _ (ih (by simp))

end Known

end Lists

theorem separator_known (cs : List Char) (inText inSheet : Bool) :
    separatorFrom inText inSheet cs = ',' ∨ separatorFrom inText inSheet cs = ';' := by
  fun_induction separatorFrom inText inSheet cs with
  | case1 => exact .inl rfl
  | case4 => exact .inr rfl
  | _ => assumption

-- Characters outside of quotes that say nothing about the separator.
theorem separator_from_quiet (cs rest : List Char)
    (quiet : ∀ c ∈ cs, c ≠ '"' ∧ c ≠ '\'' ∧ c ≠ ';') :
    separatorFrom false false (cs ++ rest) = separatorFrom false false rest := by
  induction cs with
  | nil => rfl
  | cons c more ih =>
    obtain ⟨noText, noSheet, noMark⟩ := quiet c List.mem_cons_self
    simp only [List.cons_append, separatorFrom, noText, noSheet, noMark, false_and, if_false]
    exact ih fun d member => quiet d (List.mem_cons_of_mem c member)

theorem separator_from_plain (cs rest : List Char) (plain : ∀ c ∈ cs, Plain c) :
    separatorFrom false false (cs ++ rest) = separatorFrom false false rest :=
  separator_from_quiet cs rest fun c member => (plain c member).2

theorem separator_from_text (cs rest : List Char) :
    separatorFrom true false (doubled '"' cs ++ '"' :: rest) = separatorFrom false false rest := by
  unfold doubled
  induction cs with
  | nil => simp [separatorFrom]
  | cons c more ih =>
    by_cases mark : c = '"'
    · simp [mark, separatorFrom, ih]
    · simp [mark, separatorFrom, ih]

theorem separator_from_sheet (cs rest : List Char) :
    separatorFrom false true (doubled '\'' cs ++ '\'' :: rest) =
      separatorFrom false false rest := by
  unfold doubled
  induction cs with
  | nil => simp [separatorFrom]
  | cons c more ih =>
    by_cases mark : c = '\''
    · simp [mark, separatorFrom, ih]
    · simp [mark, separatorFrom, ih]

theorem separator_from_lexeme (separator : Char) (x : Lexeme) (rest : List Char)
    (quiet : x ≠ .separator ∨ separator = ',') :
    separatorFrom false false (x.chars separator ++ rest) = separatorFrom false false rest := by
  cases x with
  | text s =>
    have inside := separator_from_text s.toList rest
    simpa [Lexeme.chars, quote, separatorFrom] using inside
  | sheet s =>
    have inside := separator_from_sheet s.toList ('!' :: rest)
    simpa [Lexeme.chars, quote, separatorFrom] using inside
  | separator =>
    obtain rfl := quiet.resolve_left (by simp)
    exact separator_from_plain [','] rest fun c member => by simp at member; subst member; decide
  | _ =>
    exact separator_from_plain _ rest
      (plain_of_lexeme separator _ (by simp) (by simp) (by simp))

theorem detect_comma (xs : List Lexeme) :
    detectSeparator (xs.flatMap (Lexeme.chars ',')) = ',' := by
  unfold detectSeparator
  induction xs with
  | nil => rfl
  | cons x rest ih => rw [List.flatMap_cons, separator_from_lexeme ',' x _ (.inr rfl), ih]

theorem detect_semicolon (xs : List Lexeme) (separates : .separator ∈ xs) :
    detectSeparator (xs.flatMap (Lexeme.chars ';')) = ';' := by
  unfold detectSeparator
  induction xs with
  | nil => cases separates
  | cons x rest ih =>
    rw [List.flatMap_cons]
    by_cases here : x = .separator
    · rw [here]
      rfl
    · rw [separator_from_lexeme ';' x _ (.inl here)]
      exact ih ((List.mem_cons.mp separates).resolve_left fun same => here same.symm)

end Spreadsheet.Formula
