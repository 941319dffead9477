import Spreadsheet.Proofs.Decimal.Finite
import Spreadsheet.Proofs.Formula.Scanned
import Spreadsheet.Proofs.Formula.Trees
import Spreadsheet.Proofs.Grid.RangeText
import Spreadsheet.Proofs.Grid.Words
import Spreadsheet.Proofs.Store.Answers

-- Trees that are read from text are well formed: what the scanner makes of characters is, and no
-- rule of the grammar, a defined name included, spoils it.

set_option autoImplicit false

namespace Spreadsheet

namespace Text

theorem ascii_upper (s : String) (ascii : IsAscii s) : IsAscii (upper s) := by
  intro c member
  rw [upper_ascii s ascii, asciiUpper, String.toList_ofList] at member
  obtain ⟨d, inside, rfl⟩ := List.mem_map.mp member
  have small := ascii d inside
  by_cases lower : d.isLower = true
  · have code : d.toNat - 32 < 128 := by omega
    rw [Char.toUpper_eq_of_isLower lower, Char.toNat_ofNat, if_pos (.inl (by omega))]
    exact code
  · rwa [Char.toUpper_eq_of_not_isLower lower]

theorem upper_upper (s : String) (ascii : IsAscii s) : upper (upper s) = upper s := by
  rw [upper_ascii _ (ascii_upper s ascii), upper_ascii s ascii, asciiUpper, asciiUpper,
    String.toList_ofList, List.map_map]
  congr 1
  exact List.map_congr_left fun c _ => c.toUpper_toUpper_eq_toUpper

theorem upper_filled (s : String) (ascii : IsAscii s) (filled : s ≠ "") : upper s ≠ "" := by
  intro none
  rw [upper_ascii s ascii, asciiUpper] at none
  have chars := congrArg String.toList none
  simp only [String.toList_ofList, String.toList_empty, List.map_eq_nil_iff] at chars
  exact filled (String.toList_eq_nil_iff.mp chars)

end Text

namespace Formula

theorem ascii_of_name (s : String) (named : NameLike s) : Text.IsAscii s := by
  intro c member
  have part := named.2 c member
  simp only [isNamePart, Bool.or_eq_true, beq_iff_eq] at part
  rcases part with ((alphanum | rfl) | rfl) | rfl
  · have code := Text.code_of_alphanum c alphanum
    omega
  all_goals decide

-- On a sheet, and as a range from its top left to its bottom right.
def Target.Placed : Target → Prop
  | cell a => a.Valid
  | range r => r.first.Valid ∧ r.last.Valid ∧ r.Normal

inductive Expr.WellFormed : Expr → Prop where
  | number (n : Float) (known : n.isNaN = false) (above : ¬n < 0.0) : WellFormed (.number n)
  | text (s : String) : WellFormed (.text s)
  | boolean (b : Bool) : WellFormed (.boolean b)
  | error (e : ErrorKind) : WellFormed (.error e)
  | reference (r : Reference) (placed : r.target.Placed) : WellFormed (.reference r)
  | name (s : String) : WellFormed (.name s)
  | negate (operand : Expr) (inside : WellFormed operand) : WellFormed (.negate operand)
  | binary (op : BinaryOp) (left right : Expr) (before : WellFormed left)
      (after : WellFormed right) : WellFormed (.binary op left right)
  | call (function : String) (args : List Expr) (filled : function ≠ "")
      (upper : Text.upper function = function) (each : ∀ arg ∈ args, WellFormed arg) :
      WellFormed (.call function args)

-- What leaves and calls are made of.
structure Tidy (given : Token → Prop) : Prop where
  numbers : ∀ n, given (.number n) → n.isNaN = false ∧ ¬n < 0.0
  cells : ∀ a, given (.cell a) → a.Valid
  names : ∀ s, given (.identifier s) → NameLike s

theorem tokenize_tidy (cs : List Char) : Tidy (· ∈ (tokenize cs).list) := by
  have read := spells_of_member (detectSeparator cs) (utf8Length cs) cs
  refine ⟨fun n present => ?_, fun a present => ?_, fun s present => ?_⟩
  · obtain ended | ⟨chars, spells⟩ := read _ present
    · cases ended
    · cases spells with
      | plain _ _ all sound =>
        obtain ⟨m, rfl⟩ := sound
        exact ⟨Decimal.to_float_number m, Decimal.to_float_not_negative m⟩
  · obtain ended | ⟨chars, spells⟩ := read _ present
    · cases ended
    · cases spells with
      | plain _ _ all sound =>
        obtain ⟨source, parsed⟩ := sound
        exact (Address.text_of_parse source a parsed).2
  · obtain ended | ⟨chars, spells⟩ := read _ present
    · cases ended
    · cases spells with
      | plain _ _ all sound => exact sound

theorem placed_between (first last : Address) (left : (Target.cell first).Placed)
    (right : (Target.cell last).Placed) : (Target.range (.between first last)).Placed := by
  obtain ⟨top, bottom⟩ := Range.between_valid first last left right
  exact ⟨top, bottom, Range.between_normal first last⟩

theorem placed_of_reference (r : Reference) (formed : (Expr.reference r).WellFormed) :
    r.target.Placed := by
  cases formed with
  | reference _ placed => exact placed

theorem leaf_well_formed (given : Token → Prop) (tidy : Tidy given) (token : Token) (e : Expr)
    (present : given token) (alone : leaf? token = some e) : e.WellFormed := by
  cases token with
  | number n =>
    cases alone
    obtain ⟨known, above⟩ := tidy.numbers n present
    exact .number n known above
  | cell a =>
    cases alone
    exact .reference _ (tidy.cells a present)
  | text s =>
    cases alone
    exact .text s
  | boolean b =>
    cases alone
    exact .boolean b
  | error e =>
    cases alone
    exact .error e
  | _ => cases alone

theorem built_well_formed (given : Token → Prop) (meaning : Meaning) (tidy : Tidy given)
    (trees : ∀ s d, meaning s = some (.ok d) → d.WellFormed) (e : Expr)
    (built : Built given meaning e) : e.WellFormed := by
  induction built with
  | leaf token e present alone => exact leaf_well_formed given tidy token e present alone
  | sheetCell sheet a before present => exact .reference _ (tidy.cells a present)
  | range sheet? other? first last left right alike one two =>
    exact .reference _ (placed_between first last (placed_of_reference _ one)
      (placed_of_reference _ two))
  | name s present free => exact .name s
  | defined s e present stands => exact trees s e stands
  | negate operand inside ih => exact .negate operand ih
  | binary op left right before after one two => exact .binary op left right one two
  | call s args present each ih =>
    have named := tidy.names s present
    have ascii := ascii_of_name s named
    exact .call _ args (Text.upper_filled s ascii named.1) (Text.upper_upper s ascii) ih

theorem read_well_formed (names : Names) (text : String) (e : Expr)
    (read : parseWith names text = .ok e) : e.WellFormed := by
  refine holds_of_read Expr.WellFormed (fun meaning cs d trees parsed => ?_) names text e read
  obtain ⟨_, built⟩ := parse_body_makes meaning cs d parsed
  exact built_well_formed _ meaning (tokenize_tidy cs) trees d built

theorem exact_of_placed (target : Target) (placed : target.Placed) : target.extent.Exact := by
  cases target with
  | cell a => exact (Range.single a).exact_of_valid placed placed ⟨Nat.le_refl _, Nat.le_refl _⟩
  | range r => exact r.exact_of_valid placed.1 placed.2.1 placed.2.2

theorem mem_occurrences_in (args : List Expr) (r : Reference) :
    r ∈ Expr.occurrencesIn args ↔ ∃ arg ∈ args, r ∈ arg.occurrences := by
  induction args with
  | nil => simp [Expr.occurrencesIn]
  | cons e rest ih => simp [Expr.occurrencesIn, ih]

theorem occurrences_placed (e : Expr) (formed : e.WellFormed) :
    ∀ r ∈ e.occurrences, r.target.Placed := by
  induction formed with
  | reference r placed =>
    intro q member
    rw [Expr.occurrences, List.mem_singleton] at member
    exact member ▸ placed
  | negate operand inside ih => exact ih
  | binary op left right before after one two =>
    intro r member
    rw [Expr.occurrences, List.mem_append] at member
    exact member.elim (one r) (two r)
  | call function args filled upper each ih =>
    intro r member
    rw [Expr.occurrences, mem_occurrences_in] at member
    obtain ⟨arg, inside, present⟩ := member
    exact ih arg inside r present
  | _ => simp [Expr.occurrences]

theorem references_exact (e : Expr) (formed : e.WellFormed) :
    ∀ r ∈ e.references, r.target.extent.Exact :=
  fun r member => exact_of_placed r.target
    (occurrences_placed e formed r ((mem_distinct e.occurrences r).mp member))

end Formula

end Spreadsheet
