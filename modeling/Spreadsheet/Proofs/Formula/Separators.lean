import Spreadsheet.Proofs.Formula.Scanned
import Spreadsheet.Proofs.Formula.Trees

-- The choice of the separator. It is made before any token is read, by counting quote characters;
-- the scanner goes by the quotations themselves. On every text that is accepted the two agree
-- about which semicolons stand outside of quotations.

set_option autoImplicit false

namespace Spreadsheet.Formula

-- A token of a text and the characters that it was read from.
structure Piece where
  chars : List Char
  token : Token

-- A text cut into the pieces that the scanner reads, with the blanks between them.
inductive Spelled (separator : Char) (size : Nat) : List Char → List Piece → Prop where
  | done (blanks : List Char) (blank : ∀ c ∈ blanks, Text.isBlank c = true) :
      Spelled separator size blanks []
  | next (blanks rest : List Char) (p : Piece) (ps : List Piece)
      (blank : ∀ c ∈ blanks, Text.isBlank c = true)
      (scans : Scans separator size p.chars p.token rest) (later : Spelled separator size rest ps) :
      Spelled separator size (blanks ++ (p.chars ++ rest)) (p :: ps)

-- A text or the name of a sheet, with its quotes.
def Piece.Quoted (p : Piece) : Prop :=
  (∃ s : String, p.chars = quote '"' s.toList ∧ p.token = .text s) ∨
    ∃ s : String, p.chars = quote '\'' s.toList ++ ['!'] ∧ p.token = .sheet s

section Spelled

variable (separator : Char) (size : Nat)

theorem tokens_of_spelled (cs : List Char) (ps : List Piece)
    (spelled : Spelled separator size cs ps) :
    tokensFrom separator size cs = ⟨ps.map Piece.token ++ [.eof], none⟩ := by
  induction spelled with
  | done blanks blank =>
    have same := tokens_after_blanks separator size blanks [] blank
    rwa [List.append_nil, tokens_from_nil] at same
  | next blanks rest p ps blank scans later ih =>
    rw [tokens_after_blanks separator size blanks _ blank,
      tokens_from_scans separator size _ _ _ scans, ih]
    rfl

theorem spells_of_scans (chars rest : List Char) (token : Token)
    (scans : Scans separator size chars token rest) : Spells separator chars token := by
  obtain ⟨c, more, rfl, _, step⟩ := scans
  obtain ⟨read, same, spells⟩ := spells_of_scan separator size c (more ++ rest) rest token step
  exact List.append_cancel_right ((List.cons_append).trans same) ▸ spells

theorem scans_of_scan (c : Char) (rest after : List Char) (token : Token)
    (visible : Text.isBlank c = false)
    (step : scanToken separator size c rest = .ok (token, after)) :
    ∃ chars, c :: rest = chars ++ after ∧ Scans separator size chars token after := by
  obtain ⟨chars, same, _⟩ := spells_of_scan separator size c rest after token step
  cases chars with
  | nil =>
    have shorter := length_scanToken step
    have equal := congrArg List.length same
    simp only [List.nil_append, List.length_cons] at equal
    omega
  | cons first more =>
    obtain ⟨rfl, rfl⟩ := List.cons.inj same
    exact ⟨c :: more, rfl, c, more, rfl, visible, step⟩

theorem not_eof (chars : List Char) (spells : Spells separator chars .eof) : False := by
  cases spells with
  | plain _ _ all sound => exact sound

-- A text whose end was reached is cut into pieces up to its end.
theorem spelled_of_tokens (cs : List Char)
    (complete : .eof ∈ (tokensFrom separator size cs).list) :
    ∃ ps, Spelled separator size cs ps := by
  have parts (ds : List Char) : ds.takeWhile Text.isBlank ++ Text.trimStart ds = ds :=
    List.takeWhile_append_dropWhile
  have blank (ds : List Char) : ∀ c ∈ ds.takeWhile Text.isBlank, Text.isBlank c = true :=
    List.all_eq_true.mp List.all_takeWhile
  fun_induction tokensFrom separator size cs with
  | case1 cs ended =>
    have whole := parts cs
    rw [ended, List.append_nil] at whole
    exact ⟨[], .done cs (whole ▸ blank cs)⟩
  | case2 cs c rest blanks e step => cases complete
  | case3 cs c rest blanks token after step following ih =>
    have visible : Text.isBlank c = false :=
      (Text.stops_cons Text.isBlank c rest).mp (blanks ▸ Text.stops_trim_start cs)
    obtain ⟨chars, same, scans⟩ := scans_of_scan separator size c rest after token visible step
    have later : .eof ∈ following.list := by
      rcases List.mem_cons.mp complete with here | later
      · exact (not_eof separator chars (here ▸ spells_of_scans separator size _ _ _ scans)).elim
      · exact later
    obtain ⟨ps, spelled⟩ := ih later
    have cut := Spelled.next _ after ⟨chars, token⟩ ps (blank cs) scans spelled
    have whole := parts cs
    rw [blanks, same] at whole
    exact ⟨_, whole ▸ cut⟩

theorem spells_of_spelled (cs : List Char) (ps : List Piece)
    (spelled : Spelled separator size cs ps) (p : Piece) (member : p ∈ ps) :
    Spells separator p.chars p.token := by
  induction spelled with
  | done blanks blank => cases member
  | next blanks rest q qs blank scans later ih =>
    cases member with
    | head => exact spells_of_scans separator size _ _ _ scans
    | tail _ inside => exact ih inside

end Spelled

section Separator

variable (separator : Char) (known : separator = ',' ∨ separator = ';')

include known in
-- A piece turns the choice when it is a semicolon, and leaves the state of the quotes as it was.
theorem separator_from_piece (chars rest : List Char) (token : Token)
    (spells : Spells separator chars token) :
    separatorFrom false false (chars ++ rest) =
      if chars = [';'] then ';' else separatorFrom false false rest := by
  cases spells with
  | separator =>
    rcases known with rfl | rfl
    · exact separator_from_plain [','] rest (by simp; decide)
    · rfl
  | text s =>
    have inside := separator_from_text s.toList rest
    have apart : quote '"' s.toList ≠ [';'] := by simp [quote]
    rw [if_neg apart]
    simpa [quote, separatorFrom] using inside
  | sheet s =>
    have inside := separator_from_sheet s.toList ('!' :: rest)
    have apart : quote '\'' s.toList ++ ['!'] ≠ [';'] := by simp [quote]
    rw [if_neg apart]
    simpa [quote, separatorFrom] using inside
  | plain _ _ all sound =>
    have apart : chars ≠ [';'] := by
      rintro rfl
      exact (all ';' List.mem_cons_self).2.2.2 rfl
    rw [if_neg apart]
    exact separator_from_plain chars rest all

theorem separator_from_blanks (blanks rest : List Char)
    (blank : ∀ c ∈ blanks, Text.isBlank c = true) :
    separatorFrom false false (blanks ++ rest) = separatorFrom false false rest := by
  have apart (c d : Char) (is : Text.isBlank c = true) (visible : Text.isBlank d = false) : c ≠ d :=
    ne_of_kind Text.isBlank c d is visible
  refine separator_from_quiet blanks rest fun c member => ⟨?_, ?_, ?_⟩
  · exact apart c '"' (blank c member) (by decide)
  · exact apart c '\'' (blank c member) (by decide)
  · exact apart c ';' (blank c member) (by decide)

include known in
theorem separator_from_spelled (size : Nat) (cs : List Char) (ps : List Piece)
    (spelled : Spelled separator size cs ps) :
    separatorFrom false false cs = ';' ↔ ∃ p ∈ ps, p.chars = [';'] := by
  induction spelled with
  | done blanks blank =>
    have none := separator_from_blanks blanks [] blank
    rw [List.append_nil] at none
    simp [none, separatorFrom]
  | next blanks rest p ps blank scans later ih =>
    have spells := spells_of_scans separator size _ _ _ scans
    rw [separator_from_blanks blanks _ blank,
      separator_from_piece separator known p.chars rest p.token spells]
    by_cases mark : p.chars = [';']
    · simp [mark]
    · rw [if_neg mark, ih]
      simp [mark]

end Separator

section Pieces

variable (separator : Char) (chars : List Char) (token : Token)
  (spells : Spells separator chars token)
include spells

theorem separator_of_mark (mark : chars = [';']) : token = .separator := by
  cases spells with
  | separator => rfl
  | text s => simp [quote] at mark
  | sheet s => simp [quote] at mark
  | plain _ _ all sound => exact absurd rfl (all ';' (by simp [mark])).2.2.2

theorem chars_of_separator (same : token = .separator) : chars = [separator] := by
  cases spells with
  | separator => rfl
  | text s => cases same
  | sheet s => cases same
  | plain _ _ all sound =>
    subst same
    exact sound.elim

theorem quoted_of_semicolon (comma : separator = ',') (member : ';' ∈ chars) :
    Piece.Quoted ⟨chars, token⟩ := by
  cases spells with
  | separator => simp [comma] at member
  | text s => exact .inl ⟨s, rfl, rfl⟩
  | sheet s => exact .inr ⟨s, rfl, rfl⟩
  | plain _ _ all sound => exact absurd rfl (all ';' member).2.2.2

end Pieces

-- How a text is cut into tokens, beside the separator that was chosen for it.
structure Separated (text : List Char) (ps : List Piece) : Prop where
  spelled : Spelled (detectSeparator text) (utf8Length text) text ps
  tokens : tokenize text = ⟨ps.map Piece.token ++ [.eof], none⟩
  semicolon : detectSeparator text = ';' ↔ ∃ p ∈ ps, p.token = .separator ∧ p.chars = [';']
  otherwise : detectSeparator text ≠ ';' →
    detectSeparator text = ',' ∧ ∀ p ∈ ps, ';' ∈ p.chars → p.Quoted
  alike : ∀ p ∈ ps, p.token = .separator → p.chars = [detectSeparator text]

-- In a formula that is accepted a semicolon is chosen exactly when one separates arguments. All
-- separators are then alike, and none of them stands in a text or in the name of a sheet.
theorem separators_as_chosen (text : String) (d : Expr) (accepted : parse text = .ok d) :
    ∃ ps, Separated (body text) ps := by
  obtain ⟨complete, _⟩ := parse_body_makes _ (body text) d accepted
  obtain ⟨ps, spelled⟩ := spelled_of_tokens _ _ (body text) complete
  have known : detectSeparator (body text) = ',' ∨ detectSeparator (body text) = ';' :=
    separator_known (body text) false false
  have spells := spells_of_spelled _ _ (body text) ps spelled
  have chosen := separator_from_spelled _ known _ (body text) ps spelled
  refine ⟨ps, spelled, tokens_of_spelled _ _ _ ps spelled, ?_, fun other => ?_, ?_⟩
  · constructor
    · intro semicolon
      obtain ⟨p, member, mark⟩ := chosen.mp semicolon
      exact ⟨p, member, separator_of_mark _ p.chars p.token (spells p member) mark, mark⟩
    · rintro ⟨p, member, _, mark⟩
      exact chosen.mpr ⟨p, member, mark⟩
  · have comma := known.resolve_right other
    exact ⟨comma, fun p member => quoted_of_semicolon _ _ _ (spells p member) comma⟩
  · exact fun p member => chars_of_separator _ p.chars p.token (spells p member)

-- Semicolons in a text and in the name of a sheet, beside those that separate arguments.
theorem separators_as_chosen_beside_quotes :
    let text := "=SUM('a;''b'!A1;2,5;\"x;\"\"\")"
    let d : Expr := .call "SUM"
      [.reference ⟨some "a;'b", .cell ⟨1, 1⟩⟩, .number 2.5, .text "x;\""]
    parse text = .ok d ∧ detectSeparator (body text) = ';' ∧ ∃ ps, Separated (body text) ps := by
  intro text d
  have accepted : parse text = .ok d := by
    apply Expr.read_of_same
    decide +kernel
  exact ⟨accepted, by decide +kernel, separators_as_chosen text d accepted⟩

end Spreadsheet.Formula
