import Spreadsheet.Formula.RangeValues

-- Computations that ask for cells, ranges and sheets. A reading is a tree of questions, so what
-- a formula asks, and in which order, is settled before anyone answers.

set_option autoImplicit false

namespace Spreadsheet.Formula

inductive Query where
  | cell (k : Key)
  | range (r : SheetRange)
  -- The sheet with a name, seen from another sheet.
  | sheet (home : SheetId) (name : String)
deriving DecidableEq

abbrev Query.Answer : Query → Type
  | .cell _ => Value
  | .range _ => RangeValues
  | .sheet _ _ => Option SheetId

inductive Reading (α : Type) where
  | done (a : α)
  | ask (q : Query) (next : q.Answer → Reading α)

namespace Reading

variable {α β : Type}

def bind : Reading α → (α → Reading β) → Reading β
  | done a, f => f a
  | ask q next, f => ask q fun answer => (next answer).bind f

instance : Monad Reading where
  pure := done
  bind := bind

theorem bind_done (t : Reading α) : t.bind done = t := by
  induction t with
  | done a => rfl
  | ask q next ih => simp [bind, ih]

theorem bind_assoc {γ : Type} (t : Reading α) (f : α → Reading β) (g : β → Reading γ) :
    (t.bind f).bind g = t.bind fun a => (f a).bind g := by
  induction t with
  | done a => rfl
  | ask q next ih => simp [bind, ih]

def query (q : Query) : Reading q.Answer := ask q done

-- Puts the questions to `answer`, one after the other.
def run {m : Type → Type} [Monad m] (answer : (q : Query) → m q.Answer) : Reading α → m α
  | done a => return a
  | ask q next => do
    let reply ← answer q
    (next reply).run answer

end Reading

end Spreadsheet.Formula
