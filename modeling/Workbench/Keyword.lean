import Workbench.Text.Lines
import Workbench.Text.Literal
import Workbench.Text.Lowercase
import Workbench.Text.Order
set_option autoImplicit false

/-!
Choosing by keywords. A description is taken as the set of its words, lowered; a rule asks for
one word out of each of several groups, and the first rule that is satisfied decides.
-/
namespace Workbench
open Text

def words (t : Text) : List Text :=
  sortDistinct (((splitWhere (fun c => !isAlphanumeric c) t).filter fun w => !w.isEmpty).map lower)

/-- Whether a keyword has to be the whole word or may be continued. -/
inductive Matching where
  | whole
  | start
  deriving DecidableEq, Repr

def Matching.holds (m : Matching) (word keyword : Text) : Bool :=
  match m with
  | .whole => word == keyword
  | .start => (after? keyword word).isSome

/-- The target is chosen when every clause has a keyword among the words. -/
structure KeywordRule (α : Type) where
  target : α
  clauses : List (List Text)
  matching : Matching
  deriving DecidableEq, Repr

namespace KeywordRule
variable {α : Type}

def holds (r : KeywordRule α) (ws : List Text) : Bool :=
  r.clauses.all fun clause => clause.any fun k => ws.any fun w => r.matching.holds w k

def select (rules : List (KeywordRule α)) (fallback : α) (t : Text) : α :=
  let ws := words t
  match rules.find? (·.holds ws) with
  | some r => r.target
  | none => fallback

end KeywordRule
end Workbench
