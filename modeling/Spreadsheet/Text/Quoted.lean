import Spreadsheet.Text.Blank
import Spreadsheet.Text.EscapeTable

-- Text between double quotes, as messages show it.

set_option autoImplicit false

namespace Spreadsheet.Text

def hexDigits (n : Nat) : List Char := Nat.toDigits 16 n

-- A backslash marks quotes, backslashes, the usual control characters, and code points in
-- lower-case hexadecimal for characters without a glyph of their own.
def quotedChar (c : Char) : List Char :=
  if c = '"' then ['\\', '"']
  else if c = '\\' then ['\\', '\\']
  else if c = '\n' then ['\\', 'n']
  else if c = '\r' then ['\\', 'r']
  else if c = '\t' then ['\\', 't']
  else if c = '\x00' then ['\\', '0']
  else if inRanges escapedRanges c then ['\\', 'u', '\x7b'] ++ hexDigits c.toNat ++ ['\x7d']
  else [c]

def quoted (s : String) : String :=
  String.ofList (['"'] ++ s.toList.flatMap quotedChar ++ ['"'])

end Spreadsheet.Text
