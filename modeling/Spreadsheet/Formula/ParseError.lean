import Spreadsheet.Formula.Token

-- Why a text is no formula.

set_option autoImplicit false

namespace Spreadsheet.Formula

-- Most parentheses and calls around one another; an argument of a call counts twice.
def maxDepth : Nat := 128

-- Most operators and calls in one formula.
def maxNodes : Nat := 1024

-- Most characters of a formula, its equals sign not counted.
def maxLength : Nat := 8192

-- No token begins, or ends, at some place of the text.
inductive ScanError where
  | unexpectedCharacter (c : Char) (position : Nat)
  | unterminatedText
  | unterminatedSheet
  | missingMark (sheet : String)
  | unknownError (text : String)
deriving DecidableEq

inductive ParseError where
  | blank
  | tooLong
  | tooDeep
  | tooManyNodes
  | scan (error : ScanError)
  | trailing (found : Token)
  | expected (wanted found : Token)
  | unexpected (found : Token)
  | notCell (sheet : String) (found : Token)
  | twoSheets
  | rangeEnds
  | inName (name : String) (error : ParseError)

def ScanError.detail : ScanError → String
  | unexpectedCharacter c position =>
    "Unexpected character '" ++ c.toString ++ "' at position " ++ toString position
  | unterminatedText => "Unterminated string literal"
  | unterminatedSheet => "Unterminated sheet name"
  | missingMark sheet => "Expected '!' after sheet name '" ++ sheet ++ "'"
  | unknownError text => "Unknown error literal '" ++ text ++ "'"

def parseErrorHead : String := "Parse error: "

-- What is wrong, without the words that head a message.
def ParseError.detail : ParseError → String
  | blank => "Empty formula"
  | tooLong => "Formula exceeds " ++ toString maxLength ++ " characters"
  | tooDeep => "Formula is nested too deeply"
  | tooManyNodes => "Formula has more than " ++ toString maxNodes ++ " operators"
  | scan error => error.detail
  | trailing found => "Unexpected " ++ found.description ++ " after expression"
  | expected wanted found =>
    "Expected " ++ wanted.description ++ ", got " ++ found.description
  | unexpected found => "Unexpected token: " ++ found.description
  | notCell sheet found =>
    "Expected cell reference after '" ++ sheet ++ "!', got " ++ found.description
  | twoSheets => "Range references must be on the same sheet"
  | rangeEnds => "Both ends of a range must be cell references"
  | inName name error =>
    "In defined name '" ++ name ++ "': " ++ parseErrorHead ++ error.detail

def ParseError.message (e : ParseError) : String := parseErrorHead ++ e.detail

end Spreadsheet.Formula
