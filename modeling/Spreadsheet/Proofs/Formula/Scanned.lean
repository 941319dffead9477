import Spreadsheet.Proofs.Formula.Lexemes

-- What the scanner has read for a token: a separator, a text or the name of a sheet in quotes, or
-- characters that neither open a quotation nor separate arguments.

set_option autoImplicit false

namespace Spreadsheet.Formula

def NameLike (s : String) : Prop := s ≠ "" ∧ ∀ c ∈ s.toList, isNamePart c = true

-- What is known of a token that was read from plain characters.
def Token.Sound : Token → Prop
  | number n => ∃ m : Decimal.Numeral, n = m.toFloat
  | identifier s => NameLike s
  | cell a => ∃ s, Address.parse s = .ok a
  | text _ => False
  | separator => False
  | eof => False
  | _ => True

-- The characters that a token is read from.
inductive Spells (separator : Char) : List Char → Token → Prop where
  | separator : Spells separator [separator] .separator
  | text (s : String) : Spells separator (quote '"' s.toList) (.text s)
  | sheet (s : String) : Spells separator (quote '\'' s.toList ++ ['!']) (.sheet s)
  | plain (chars : List Char) (token : Token) (all : ∀ c ∈ chars, Plain c) (sound : token.Sound) :
      Spells separator chars token

section Plain

-- The first text is plain up to where the second one begins.
def PlainTo (cs after : List Char) : Prop := ∃ chars, cs = chars ++ after ∧ ∀ c ∈ chars, Plain c

theorem plain_to_refl (cs : List Char) : PlainTo cs cs := ⟨[], rfl, by simp⟩

theorem plain_to_cons (c : Char) (cs after : List Char) (plain : Plain c)
    (rest : PlainTo cs after) : PlainTo (c :: cs) after := by
  obtain ⟨chars, rfl, all⟩ := rest
  exact ⟨c :: chars, rfl, List.forall_mem_cons.mpr ⟨plain, all⟩⟩

theorem plain_to_trans (cs ds after : List Char) (first : PlainTo cs ds)
    (rest : PlainTo ds after) : PlainTo cs after := by
  obtain ⟨before, rfl, all⟩ := first
  obtain ⟨chars, rfl, more⟩ := rest
  exact ⟨before ++ chars, (List.append_assoc before chars after).symm,
    List.forall_mem_append.mpr ⟨all, more⟩⟩

theorem plain_to_drop (kind : Char → Bool) (plain : ∀ c, kind c = true → Plain c)
    (cs : List Char) : PlainTo cs (cs.dropWhile kind) := by
  have parts : cs.takeWhile kind ++ cs.dropWhile kind = cs := List.takeWhile_append_dropWhile
  have run : ∀ c ∈ cs.takeWhile kind, kind c = true := List.all_eq_true.mp List.all_takeWhile
  exact ⟨cs.takeWhile kind, parts.symm, fun c member => plain c (run c member)⟩

theorem plain_of_digit (c : Char) (digit : Decimal.isDigit c = true) : Plain c :=
  plain_of_digits [c] (by simp [digit]) c List.mem_cons_self

theorem plain_of_error_part (c : Char) (part : isErrorPart c = true) : Plain c := by
  simp only [isErrorPart, Bool.or_eq_true, beq_iff_eq] at part
  rcases part with ((alphanum | rfl) | rfl) | rfl
  · exact plain_of_name_part c (by simp [isNamePart, alphanum])
  all_goals decide

end Plain

section Numbers

theorem take_sign_plain (cs : List Char) : PlainTo cs (takeSign cs).2 := by
  unfold takeSign
  split
  · exact plain_to_cons '+' _ _ (by decide) (plain_to_refl _)
  · exact plain_to_cons '-' _ _ (by decide) (plain_to_refl _)
  · exact plain_to_refl cs

theorem take_fraction_plain (separator : Char) (cs : List Char) :
    PlainTo cs (takeFraction separator cs).2 := by
  have digits := plain_to_drop Decimal.isDigit plain_of_digit
  unfold takeFraction
  split
  · exact plain_to_cons '.' _ _ (by decide) (digits _)
  · split
    · exact plain_to_cons ',' _ _ (by decide) (digits _)
    · exact plain_to_refl _
  · exact plain_to_refl cs

theorem take_power_plain (cs : List Char) : PlainTo cs (takePower cs).2 := by
  cases cs with
  | nil => exact plain_to_refl []
  | cons c rest =>
    by_cases power : (c = 'e' ∨ c = 'E') ∧ startsWithDigit (takeSign rest).2 = true
    · have plain : Plain c := by rcases power.1 with rfl | rfl <;> decide
      have digits := plain_to_drop Decimal.isDigit plain_of_digit (takeSign rest).2
      simp only [takePower, if_pos power]
      exact plain_to_cons c _ _ plain (plain_to_trans _ _ _ (take_sign_plain rest) digits)
    · simp only [takePower, if_neg power]
      exact plain_to_refl _

theorem take_number_plain (separator : Char) (cs : List Char) :
    PlainTo cs (takeNumber separator cs).2 := by
  have whole := plain_to_drop Decimal.isDigit plain_of_digit cs
  have fraction := take_fraction_plain separator (cs.dropWhile Decimal.isDigit)
  have power := take_power_plain (takeFraction separator (cs.dropWhile Decimal.isDigit)).2
  exact plain_to_trans _ _ _ whole (plain_to_trans _ _ _ fraction power)

end Numbers

section Scan

variable (separator : Char)

theorem spells_of_plain (cs after : List Char) (token : Token) (plain : PlainTo cs after)
    (sound : token.Sound) : ∃ chars, cs = chars ++ after ∧ Spells separator chars token := by
  obtain ⟨chars, same, all⟩ := plain
  exact ⟨chars, same, .plain chars token all sound⟩

theorem spells_of_symbol (c : Char) (token : Token) (symbol : symbol? separator c = some token) :
    Spells separator [c] token := by
  unfold symbol? at symbol
  split at symbol
  · rename_i same
    cases symbol
    exact same ▸ .separator
  · split at symbol
    all_goals first
      | cases symbol; exact .plain _ _ (by simp; decide) trivial
      | cases symbol

theorem take_comparison_plain (c : Char) (rest : List Char) :
    PlainTo rest (takeComparison c rest).2 ∧ (takeComparison c rest).1.Sound := by
  have one (d : Char) (more : List Char) (plain : Plain d) : PlainTo (d :: more) more :=
    plain_to_cons d more more plain (plain_to_refl more)
  unfold takeComparison
  split
  · split
    · exact ⟨one '=' _ (by decide), trivial⟩
    · exact ⟨one '>' _ (by decide), trivial⟩
    · exact ⟨plain_to_refl rest, trivial⟩
  · split
    · exact ⟨one '=' _ (by decide), trivial⟩
    · exact ⟨plain_to_refl rest, trivial⟩

-- What stands between quotes, with the quote characters in it doubled again.
theorem quoted_of_take (mark : Char) (cs s after : List Char)
    (taken : takeQuoted mark cs = some (s, after)) : cs = doubled mark s ++ mark :: after := by
  fun_induction takeQuoted mark cs generalizing s after with
  | case1 => cases taken
  | case2 =>
    cases taken
    rfl
  | case3 => cases taken
  | case4 rest ih =>
    obtain ⟨⟨inner, left⟩, found, same⟩ := Option.map_eq_some_iff.mp taken
    cases same
    simp [doubled, ih inner after found]
  | case5 =>
    cases taken
    rfl
  | case6 c d rest apart ih =>
    obtain ⟨⟨inner, left⟩, found, same⟩ := Option.map_eq_some_iff.mp taken
    cases same
    have whole := ih inner after found
    simp [doubled, apart, whole]

theorem spells_text (cs : List Char) :
    Spells separator (quote '"' cs) (.text (String.ofList cs)) := by
  have whole : Spells separator _ _ := .text (String.ofList cs)
  rwa [String.toList_ofList] at whole

theorem spells_sheet (cs : List Char) :
    Spells separator (quote '\'' cs ++ ['!']) (.sheet (String.ofList cs)) := by
  have whole : Spells separator _ _ := .sheet (String.ofList cs)
  rwa [String.toList_ofList] at whole

theorem word_sound (word : String) (named : NameLike word) : (wordToken word).Sound := by
  unfold wordToken
  split
  · trivial
  · split
    · trivial
    · split
      · rename_i a parsed
        exact ⟨word, parsed⟩
      · exact named

theorem spells_of_word (cs : List Char) (filled : String.ofList (cs.takeWhile isNamePart) ≠ "") :
    ∃ chars, cs = chars ++ (takeWord cs).2 ∧ Spells separator chars (takeWord cs).1 := by
  have parts := plain_to_drop isNamePart plain_of_name_part cs
  have named : NameLike (String.ofList (cs.takeWhile isNamePart)) := by
    refine ⟨filled, fun c member => ?_⟩
    rw [String.toList_ofList] at member
    exact List.all_eq_true.mp List.all_takeWhile c member
  unfold takeWord
  split
  · rename_i rest drop
    rw [drop] at parts
    exact spells_of_plain separator cs rest _ (plain_to_trans _ _ _ parts
      (plain_to_cons '!' rest rest (by decide) (plain_to_refl rest))) trivial
  · rename_i rest drop
    rw [drop] at parts
    exact spells_of_plain separator cs _ _ parts named
  · exact spells_of_plain separator cs _ _ parts (word_sound _ named)

theorem spells_of_scan (size : Nat) (c : Char) (rest after : List Char) (token : Token)
    (step : scanToken separator size c rest = .ok (token, after)) :
    ∃ chars, c :: rest = chars ++ after ∧ Spells separator chars token := by
  unfold scanToken at step
  split at step
  · rename_i symbol
    cases step
    exact ⟨[c], rfl, spells_of_symbol separator c token symbol⟩
  split at step
  · rename_i angle
    obtain ⟨plain, sound⟩ := take_comparison_plain c rest
    have first : Plain c := by rcases angle with rfl | rfl <;> decide
    rw [Except.ok.inj step] at plain sound
    exact spells_of_plain separator _ _ _ (plain_to_cons c _ _ first plain) sound
  split at step
  · rename_i mark
    split at step
    · rename_i s left taken
      cases step
      have whole := quoted_of_take '"' rest s after taken
      exact ⟨_, by simp [mark, quote, whole], spells_text separator s⟩
    · cases step
  split at step
  · rename_i mark
    split at step
    · rename_i s left taken
      cases step
      have whole := quoted_of_take '\'' rest s _ taken
      exact ⟨_, by simp [mark, quote, whole], spells_sheet separator s⟩
    · cases step
    · cases step
  split at step
  · rename_i mark
    dsimp only at step
    split at step
    · cases step
      exact spells_of_plain separator _ _ _ (plain_to_cons c _ _ (by rw [mark]; decide)
        (plain_to_drop isErrorPart plain_of_error_part rest)) trivial
    · cases step
  split at step
  · cases step
    exact spells_of_plain separator _ _ _ (take_number_plain separator (c :: rest)) ⟨_, rfl⟩
  split at step
  · rename_i start
    have taken : (c :: rest).takeWhile isNamePart = c :: rest.takeWhile isNamePart :=
      List.takeWhile_cons_of_pos (isNamePart_of_isNameStart c start)
    have whole := spells_of_word separator (c :: rest) (by simp [taken])
    rwa [Except.ok.inj step] at whole
  · cases step

theorem spells_of_member (size : Nat) (cs : List Char) (token : Token)
    (member : token ∈ (tokensFrom separator size cs).list) :
    token = .eof ∨ ∃ chars, Spells separator chars token := by
  fun_induction tokensFrom separator size cs with
  | case1 cs ended => exact .inl (List.mem_singleton.mp member)
  | case2 cs c rest blanks e step => cases member
  | case3 cs c rest blanks read after step following ih =>
    cases member with
    | head =>
      obtain ⟨chars, _, spells⟩ := spells_of_scan separator size c rest after token step
      exact .inr ⟨chars, spells⟩
    | tail _ later => exact ih later

end Scan

end Spreadsheet.Formula
