import Spreadsheet.Text.Case
import Std.Data.ExtTreeMap

-- Defined names: texts that stand for references. Letter case does not tell names apart.

set_option autoImplicit false

namespace Spreadsheet.Formula

structure Names where
  texts : Std.ExtTreeMap String String

namespace Names

def empty : Names := ⟨∅⟩

-- A later text for a name replaces an earlier one.
def insert (names : Names) (name text : String) : Names :=
  ⟨names.texts.insert (Text.upper name) text⟩

def insertAll (names : Names) (entries : List (String × String)) : Names :=
  entries.foldl (fun names (name, text) => names.insert name text) names

def get? (names : Names) (name : String) : Option String := names.texts[Text.upper name]?

def size (names : Names) : Nat := names.texts.size

def isEmpty (names : Names) : Bool := names.texts.isEmpty

theorem get?_empty (name : String) : empty.get? name = none := by simp [empty, get?]

theorem get?_insert (names : Names) (name text query : String) :
    (names.insert name text).get? query =
      if Text.upper name = Text.upper query then some text else names.get? query := by
  simp [insert, get?, Std.ExtTreeMap.getElem?_insert, Std.LawfulEqCmp.compare_eq_iff_eq]

end Names

end Spreadsheet.Formula
