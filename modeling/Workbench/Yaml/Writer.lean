import Workbench.Json.Value
import Workbench.Yaml.Scalar
set_option autoImplicit false

/-!
Values as YAML documents in block style. A list that is the value of a key is indented like the
key; empty lists and objects are written in brackets.
-/
namespace Workbench.Yaml
open Text

/-- Numbers as in the other format, but for the plus sign of an exponent. -/
def floatStyle : Binary64.Style := ⟨-5,15,false⟩

/-- Goes on at the start of a line, where a block has not ended one already. -/
def onNewLine (t : Text) : Text := if t.getLast?.any isBreak then t else t ++ ['\n']

def stacked (n : Nat) : List Text → Text
  | [] => []
  | [t] => t
  | t :: u :: ts => onNewLine t ++ spaces n ++ stacked n (u :: ts)

/-- The longest key that stands in front of its colon without a question mark. -/
def keyLimit : Nat := 128

def isSimpleKey (k : Text) : Bool := !k.any isBreak && utf8Length k ≤ keyLimit

/-- A key at column `n` and its value: `behind` is the value where it follows a simple key, and
`inner` where it follows a mark of one column. -/
def entry (n : Nat) (k behind inner : Text) : Text :=
  if isSimpleKey k then scalar (n+2) k ++ [':'] ++ behind
  else onNewLine ("? ".toList ++ scalar (n+2) k) ++ spaces n ++ ": ".toList ++ inner

mutual

def inner (n : Nat) : Json → Text
  | .null => "null".toList
  | .bool b => if b then "true".toList else "false".toList
  | .int i => Json.intText i
  | .float x => x.text floatStyle
  | .string t => scalar n t
  | .array [] => "[]".toList
  | .array (v :: vs) => stacked n (items n (v :: vs))
  | .object [] => "\x7b\x7d".toList
  | .object (m :: ms) => stacked n (entries n (m :: ms))

def behindKey (n : Nat) : Json → Text
  | .array (v :: vs) => ['\n'] ++ spaces n ++ stacked n (items n (v :: vs))
  | .object (m :: ms) => ['\n'] ++ spaces (n+2) ++ stacked (n+2) (entries (n+2) (m :: ms))
  | .null => " null".toList
  | .bool b => if b then " true".toList else " false".toList
  | .int i => ' ' :: Json.intText i
  | .float x => ' ' :: x.text floatStyle
  | .string t => ' ' :: scalar (n+2) t
  | .array [] => " []".toList
  | .object [] => " \x7b\x7d".toList

def items (n : Nat) : List Json → List Text
  | [] => []
  | v :: vs => ("- ".toList ++ inner (n+2) v) :: items n vs

def entries (n : Nat) : List (Text × Json) → List Text
  | [] => []
  | (k,v) :: ms => entry n k (behindKey n v) (inner (n+2) v) :: entries n ms

end

def document (v : Json) : Text := onNewLine (inner 0 v)

end Workbench.Yaml
