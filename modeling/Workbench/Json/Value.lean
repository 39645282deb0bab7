import Workbench.Dictionary
import Workbench.Number.Binary64
set_option autoImplicit false

/-!
JSON values and their texts. An integer stays an integer where it fits 64 bits, and every other
number is the nearest number of 53 bits. The members of an object stand in the order in which they are
written.
-/
namespace Workbench

inductive Json where
  | null
  | bool (b : Bool)
  | int (n : Int)
  | float (x : Binary64)
  | string (t : Text)
  | array (items : List Json)
  | object (members : List (Text × Json))
  deriving Repr

namespace Json

/-- Numbers are written with a point up to sixteen digits before it and five places after it,
and a positive exponent has its sign. -/
def floatStyle : Binary64.Style := ⟨-5,15,true⟩

def intText (n : Int) : Text :=
  if n < 0 then '-' :: Text.decimal n.natAbs else Text.decimal n.natAbs

def escapeChar (c : Char) : Text :=
  if c == '"' then ['\\','"']
  else if c == '\\' then ['\\','\\']
  else if c == '\n' then ['\\','n']
  else if c == '\r' then ['\\','r']
  else if c == '\t' then ['\\','t']
  else if c == '\x08' then ['\\','b']
  else if c == '\x0c' then ['\\','f']
  else if c.toNat < 32 then "\\u".toList ++ Text.padStart 4 '0' (Text.hex c.toNat)
  else [c]

def stringText (t : Text) : Text := ['"'] ++ t.flatMap escapeChar ++ ['"']

mutual

def compact : Json → Text
  | .null => "null".toList
  | .bool true => "true".toList
  | .bool false => "false".toList
  | .int n => intText n
  | .float x => x.text floatStyle
  | .string t => stringText t
  | .array items => '[' :: compactItems items
  | .object members => '\x7b' :: compactMembers members

def compactItems : List Json → Text
  | [] => [']']
  | [v] => v.compact ++ [']']
  | v :: w :: vs => v.compact ++ [','] ++ compactItems (w :: vs)

def compactMembers : List (Text × Json) → Text
  | [] => ['\x7d']
  | [(k,v)] => stringText k ++ [':'] ++ v.compact ++ ['\x7d']
  | (k,v) :: w :: vs => stringText k ++ [':'] ++ v.compact ++ [','] ++ compactMembers (w :: vs)

end

def lineAt (depth : Nat) : Text := '\n' :: List.replicate (2*depth) ' '

mutual

def prettyAt (depth : Nat) : Json → Text
  | .array [] => "[]".toList
  | .array (v :: vs) => '[' :: lineAt (depth+1) ++ prettyItems depth (v :: vs)
  | .object [] => ['\x7b','\x7d']
  | .object (m :: ms) => '\x7b' :: lineAt (depth+1) ++ prettyMembers depth (m :: ms)
  | .null => "null".toList
  | .bool true => "true".toList
  | .bool false => "false".toList
  | .int n => intText n
  | .float x => x.text floatStyle
  | .string t => stringText t

def prettyItems (depth : Nat) : List Json → Text
  | [] => []
  | [v] => prettyAt (depth+1) v ++ lineAt depth ++ [']']
  | v :: w :: vs => prettyAt (depth+1) v ++ [','] ++ lineAt (depth+1) ++
      prettyItems depth (w :: vs)

def prettyMembers (depth : Nat) : List (Text × Json) → Text
  | [] => []
  | [(k,v)] => stringText k ++ ": ".toList ++ prettyAt (depth+1) v ++ lineAt depth ++ ['\x7d']
  | (k,v) :: w :: vs => stringText k ++ ": ".toList ++ prettyAt (depth+1) v ++ [','] ++
      lineAt (depth+1) ++ prettyMembers depth (w :: vs)

end

def pretty (v : Json) : Text := prettyAt 0 v

def strings (ts : List Text) : Json := .array (ts.map .string)

def nat (n : Nat) : Json := .int n

def textDictionary (d : Dictionary Text) : Json :=
  .object (d.entries.map fun e => (e.1,.string e.2))

def optional : Option Json → Json
  | none => .null
  | some v => v

end Json
end Workbench
