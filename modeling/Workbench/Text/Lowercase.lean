import Workbench.Text.Table.Cased
import Workbench.Text.Table.CaseIgnorable
import Workbench.Text.Table.Lowercase
set_option autoImplicit false

/-!
Lowering a text. Every character has one image except the capital I with a dot, which becomes
two characters, and the capital sigma, whose image depends on its neighbours.
-/
namespace Workbench.Text

def isCased (c : Char) : Bool := casedRanges.member Char.isAlpha c

def isCaseIgnorable (c : Char) : Bool :=
  caseIgnorableRanges.member (fun a => a == '\'' || a == '.' || a == ':' || a == '^' || a == '\x60') c

def LowercaseRow.image? (r : LowercaseRow) (n : Nat) : Option Nat :=
  if r.lo ≤ n && n ≤ r.hi && (n-r.lo) % r.step == 0 then some (r.image+(n-r.lo)) else none

def lowerChar (c : Char) : Text :=
  if c.toNat < 128 then [c.toLower]
  else if c.toNat == 0x130 then ['i','\u0307']
  else match lowercaseRows.findSome? (·.image? c.toNat) with
    | some n => [Char.ofNat n]
    | none => [c]

def casedNext (t : Text) : Bool :=
  match t.dropWhile isCaseIgnorable with
  | [] => false
  | c :: _ => isCased c

/-- A sigma ends a word when a cased character stands before it and none after it, ignorable
characters between them left aside. -/
def endsWord (before after : Text) : Bool := casedNext before && !casedNext after

/-- `before` is what precedes the text, nearest character first. -/
def lowerAfter (before : Text) : Text → Text
  | [] => []
  | c :: cs =>
    (if c == 'Σ' then [if endsWord before cs then 'ς' else 'σ'] else lowerChar c)
      ++ lowerAfter (c :: before) cs

def lower (t : Text) : Text := lowerAfter [] t

def lowerAscii (t : Text) : Text := t.map Char.toLower

end Workbench.Text
