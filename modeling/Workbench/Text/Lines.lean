import Workbench.Text.Ranges
set_option autoImplicit false

/-!
Lines, and splitting a text at separators.
-/
namespace Workbench.Text

/-- A line ends at a line feed, which takes one carriage return before it along. A carriage
return elsewhere is text, and nothing follows a final line feed. -/
def lines : Text → List Text
  | [] => []
  | '\r' :: '\n' :: cs => [] :: lines cs
  | '\n' :: cs => [] :: lines cs
  | c :: cs =>
    match lines cs with
    | [] => [[c]]
    | l :: ls => (c :: l) :: ls

def splitWhere (p : Char → Bool) : Text → List Text
  | [] => [[]]
  | c :: cs =>
    if p c then [] :: splitWhere p cs
    else match splitWhere p cs with
      | [] => [[c]]
      | w :: ws => (c :: w) :: ws

def splitOn (sep : Char) (t : Text) : List Text := splitWhere (· == sep) t

def joinWith (sep : Text) : List Text → Text
  | [] => []
  | [t] => t
  | t :: ts => t ++ sep ++ joinWith sep ts

theorem splitWhere_ne_nil (p : Char → Bool) (t : Text) : splitWhere p t ≠ [] := by
  cases t with
  | nil => simp [splitWhere]
  | cons c cs =>
    unfold splitWhere
    split
    · simp
    · split <;> simp

end Workbench.Text
