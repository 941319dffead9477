import Spreadsheet.Text.Blank
import Spreadsheet.Text.CaseTable

-- Upper and lower case of whole texts. A character may become several, and a capital sigma at
-- the end of a word becomes the final small sigma.

set_option autoImplicit false

namespace Spreadsheet.Text

def CaseRun.image? (run : CaseRun) (code : Nat) : Option Nat :=
  if run.first ≤ code ∧ code ≤ run.last ∧ (code - run.first) % run.step = 0 then
    some ((code : Int) + run.shift).toNat
  else none

-- A code point through a table of expansions and runs; itself when neither has it.
def mapCode (expansions : List (Nat × List Nat)) (runs : List CaseRun) (code : Nat) : List Nat :=
  match expansions.lookup code with
  | some images => images
  | none => [(runs.findSome? (·.image? code)).getD code]

def upperChar (c : Char) : List Char :=
  if c.toNat < 128 then [c.toUpper]
  else (mapCode upperExpansions upperRuns c.toNat).map Char.ofNat

def lowerChar (c : Char) : List Char :=
  if c.toNat < 128 then [c.toLower]
  else (mapCode lowerExpansions lowerRuns c.toNat).map Char.ofNat

def upperChars (cs : List Char) : List Char := cs.flatMap upperChar

def upper (s : String) : String := String.ofList (upperChars s.toList)

-- Whether the first character that is not passed over has case.
def startsCased (cs : List Char) : Bool :=
  ((cs.dropWhile (inRanges caseIgnorableRanges)).head?.map (inRanges casedRanges)).getD false

-- Lower case of the characters that follow `before`, which is listed last character first.
def lowerAfter (before : List Char) : List Char → List Char
  | [] => []
  | c :: rest =>
    let image :=
      if c = 'Σ' then [if startsCased before && !startsCased rest then 'ς' else 'σ']
      else lowerChar c
    image ++ lowerAfter (c :: before) rest

def lowerChars (cs : List Char) : List Char := lowerAfter [] cs

def lower (s : String) : String := String.ofList (lowerChars s.toList)

-- Upper case of the letters `a` to `z`; every other character stays.
def asciiUpper (s : String) : String := String.ofList (s.toList.map Char.toUpper)

def asciiSame (s t : String) : Bool := asciiUpper s == asciiUpper t

end Spreadsheet.Text
