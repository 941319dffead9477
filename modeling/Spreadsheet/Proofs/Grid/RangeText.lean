import Spreadsheet.Grid.Range
import Spreadsheet.Proofs.Grid.AddressReading

-- Ranges as texts: two addresses with a colon between them, or one address.

set_option autoImplicit false

namespace Spreadsheet

namespace Range

theorem apart_from_colon (s : String) (a : Address) (read : Address.parse s = .ok a) (c : Char)
    (member : c ∈ s.toList) : c ≠ ':' := by
  obtain ⟨before, after, blank, trailing, whole⟩ := Text.blanks_around s.toList
  obtain ⟨p, parts, _⟩ := Address.parse_parts s a read
  have other (blank : Text.isBlank c = true) : c ≠ ':' := by
    rintro rfl
    exact absurd blank (by decide)
  rw [whole, parts] at member
  simp only [List.mem_append] at member
  rcases member with (front | inner) | back
  · exact other (blank c front)
  · rintro rfl
    rcases p.mark_or_alphanum ':' inner with mark | alphanum
    · cases mark
    · cases alphanum
  · exact other (trailing c back)

theorem filled_of_parse (s : String) (a : Address) (read : Address.parse s = .ok a) :
    Text.trimChars s.toList ≠ [] := by
  intro none
  simp only [Address.parse, none] at read
  cases read

-- The range has the two addresses at opposite corners, whichever they are.
theorem parse_joined (s t : String) (a b : Address) (first : Address.parse s = .ok a)
    (last : Address.parse t = .ok b) : parse (s ++ ":" ++ t) = .ok (between a b) := by
  have whole : (s ++ ":" ++ t).toList = s.toList ++ ':' :: t.toList := by
    rw [String.toList_append, String.toList_append, List.append_assoc]
    rfl
  have kept : Text.trimChars (s ++ ":" ++ t).toList =
      Text.trimStart s.toList ++ ':' :: Text.trimEnd t.toList := by
    rw [whole]
    exact Text.trim_around ':' (by decide) _ _
  have before (c : Char) (member : c ∈ Text.trimStart s.toList) : decide (c ≠ ':') = true :=
    decide_eq_true (apart_from_colon s a first c ((List.dropWhile_sublist _).subset member))
  obtain ⟨taken, dropped⟩ := Text.take_run (fun c => decide (c ≠ ':')) _
    (':' :: Text.trimEnd t.toList) before ((Text.stops_cons _ _ _).mpr (by decide))
  have left : Address.parse (String.ofList (Text.trimStart s.toList)) = .ok a := by
    rw [← first]
    apply Address.parse_trimmed
    rw [String.toList_ofList, Text.trim_start_trim]
  have right : Address.parse (String.ofList (Text.trimEnd t.toList)) = .ok b := by
    rw [← last]
    apply Address.parse_trimmed
    rw [String.toList_ofList, Text.trim_end_trim _ (filled_of_parse t b last)]
  rw [parse]
  simp only [kept, taken, dropped, left, right]
  rfl

-- One address alone is the range of its cell.
theorem parse_alone (s : String) (a : Address) (read : Address.parse s = .ok a) :
    parse s = .ok (single a) := by
  obtain ⟨before, after, _, _, whole⟩ := Text.blanks_around s.toList
  have apart (c : Char) (member : c ∈ Text.trimChars s.toList) : decide (c ≠ ':') = true := by
    refine decide_eq_true (apart_from_colon s a read c ?_)
    rw [whole]
    exact List.mem_append_left _ (List.mem_append_right _ member)
  have solid : Text.Solid (Text.trimChars s.toList) :=
    Text.solid_trim_end (Text.trimStart s.toList) (filled_of_parse s a read)
  have trimmed : Address.parse (String.ofList (Text.trimChars s.toList)) = .ok a := by
    rw [← read]
    apply Address.parse_trimmed
    rw [String.toList_ofList, Text.trim_of_solid _ solid (Text.stops_trim s.toList)]
  have none : (Text.trimChars s.toList).dropWhile (fun c => decide (c ≠ ':')) = [] := by
    have run := (Text.take_run (fun c => decide (c ≠ ':')) _ [] apart (Text.stops_nil _)).2
    rwa [List.append_nil] at run
  rw [parse]
  simp only [none, trimmed]
  rfl

theorem parse_text (r : Range) (first : r.first.Valid) (last : r.last.Valid) (normal : r.Normal) :
    parse r.text = .ok r := by
  rw [text]
  split
  · rename_i alone
    rw [parse_alone _ _ (r.first.parse_text first)]
    have same : r.first = r.last := of_decide_eq_true alone
    cases r
    simp_all [single]
  · rw [parse_joined _ _ _ _ (r.first.parse_text first) (r.last.parse_text last),
      between_of_normal r normal]

theorem between_valid (a b : Address) (first : a.Valid) (last : b.Valid) :
    (between a b).first.Valid ∧ (between a b).last.Valid := by
  unfold Address.Valid at *
  simp only [between]
  omega

-- Reading and writing addresses undo each other: the text of an address reads as the address, and
-- whatever reads as it is its text but for blanks, markers, letter case and zeros. Two such texts
-- around a colon read as the range between the addresses, and so does the text of this range.
theorem texts_and_addresses_two_way :
    (∀ a : Address, a.Valid → Address.parse a.text = .ok a) ∧
    (∀ s a, Address.parse s = .ok a → a.Valid ∧ a.text = Address.tidied s) ∧
    ∀ s t a b, Address.parse s = .ok a → Address.parse t = .ok b →
      parse (s ++ ":" ++ t) = .ok (between a b) ∧
        parse (between a b).text = .ok (between a b) := by
  refine ⟨fun a valid => a.parse_text valid, fun s a read => ?_, fun s t a b one other => ?_⟩
  · obtain ⟨written, valid⟩ := Address.text_of_parse s a read
    exact ⟨valid, written⟩
  · have first := (Address.text_of_parse s a one).2
    have last := (Address.text_of_parse t b other).2
    obtain ⟨top, bottom⟩ := between_valid a b first last
    exact ⟨parse_joined s t a b one other, parse_text _ top bottom (between_normal a b)⟩

theorem read_of_option (s : String) (a : Address) (read : (Address.parse s).toOption = some a) :
    Address.parse s = .ok a := by
  cases result : Address.parse s with
  | error e =>
    rw [result] at read
    cases read
  | ok b =>
    rw [result] at read
    cases read
    rfl

-- The far corner of a sheet, and two texts with the corners crossed.
theorem texts_and_addresses_two_way_crossed :
    let far : Address := ⟨1048576, 16384⟩
    let s := " $xfd0042"
    let t := "B$7\t"
    let r : Range := ⟨⟨7, 2⟩, ⟨42, 16384⟩⟩
    (far.Valid ∧ Address.parse far.text = .ok far) ∧
      (Address.parse s = .ok ⟨42, 16384⟩ ∧ Address.text ⟨42, 16384⟩ = "XFD42") ∧
      Address.parse t = .ok ⟨7, 2⟩ ∧ parse (s ++ ":" ++ t) = .ok r ∧ parse r.text = .ok r := by
  intro far s t r
  obtain ⟨written, read, joined⟩ := texts_and_addresses_two_way
  have valid : far.Valid := by decide
  have first : Address.parse s = .ok ⟨42, 16384⟩ := read_of_option s _ (by decide +kernel)
  have last : Address.parse t = .ok ⟨7, 2⟩ := read_of_option t _ (by decide +kernel)
  have spelled : Address.tidied s = "XFD42" := by decide +kernel
  obtain ⟨whole, again⟩ := joined s t _ _ first last
  exact ⟨⟨valid, written far valid⟩, ⟨first, (read s _ first).2.trans spelled⟩, last, whole, again⟩

end Range

end Spreadsheet
