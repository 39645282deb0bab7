import Workbench.Number.Binary64
import Workbench.Text.Literal
import Workbench.Text.Utf8
set_option autoImplicit false

/-!
A text as a scalar of a YAML document. A text with a line feed is a literal block where that is
possible; one that would be read as a value of another kind is quoted; any other stands as it is
unless a character would be taken for a sign of the format.
-/
namespace Workbench.Yaml
open Text

def digitValue? (base : Nat) (c : Char) : Option Nat :=
  let n :=
    if c.isDigit then c.toNat-48
    else if 'a' ≤ c ∧ c ≤ 'z' then c.toNat-87
    else if 'A' ≤ c ∧ c ≤ 'Z' then c.toNat-55
    else base
  if n < base then some n else none

def digitsValue? (base : Nat) (t : Text) : Option Nat :=
  match t with
  | [] => none
  | cs => cs.foldl (fun n c => n.bind fun n => (digitValue? base c).map fun d => base*n+d) (some 0)

def bases : List (Text × Nat) := [("0x".toList,16),("0o".toList,8),("0b".toList,2)]

def magnitude? (t : Text) : Option Nat :=
  match bases.findSome? fun b => (after? b.1 t).bind (digitsValue? b.2) with
  | some n => some n
  | none => digitsValue? 10 t

def isInteger (t : Text) : Bool :=
  match t with
  | '-' :: t => (magnitude? t).any fun n => n ≤ Nat.pow 2 127
  | '+' :: t => (magnitude? t).any fun n => n < Nat.pow 2 128
  | t => (magnitude? t).any fun n => n < Nat.pow 2 128

def exponent? (t : Text) : Option Int :=
  match t with
  | [] => some 0
  | e :: t =>
    if e ≠ 'e' ∧ e ≠ 'E' then none
    else
      match t with
      | '-' :: t => (digitsValue? 10 t).map fun n => -(n : Int)
      | '+' :: t => (digitsValue? 10 t).map fun n => (n : Int)
      | t => (digitsValue? 10 t).map fun n => (n : Int)

def isDecimal (t : Text) : Bool :=
  let whole := t.takeWhile Char.isDigit
  let t := t.dropWhile Char.isDigit
  let (fraction,t) := match t with
    | '.' :: t => (t.takeWhile Char.isDigit,t.dropWhile Char.isDigit)
    | t => ([],t)
  match digitsValue? 10 (whole ++ fraction),exponent? t with
  | some n,some e => (Binary64.nearest? false n (e-(fraction.length : Int))).isSome
  | _,_ => false

def isFloat (t : Text) : Bool :=
  let named := [".inf",".Inf",".INF","+.inf","+.Inf","+.INF","-.inf","-.Inf","-.INF",
    ".nan",".NaN",".NAN"].any fun s => s.toList == t
  named || match t with
    | '+' :: t => isDecimal t
    | '-' :: t => isDecimal t
    | t => isDecimal t

def isPadded (t : Text) : Bool :=
  match (match t with
    | '-' :: t => t
    | '+' :: t => t
    | t => t) with
  | '0' :: c :: cs => (c :: cs).all Char.isDigit
  | _ => false

def isWordValue (t : Text) : Bool :=
  ["null","Null","NULL","~","true","True","TRUE","false","False","FALSE"].any fun s => s.toList == t

/-- Left as it is, the text would be read as nothing, as a truth value or as a number. -/
def isAmbiguous (t : Text) : Bool :=
  t.isEmpty || isWordValue t || isPadded t || isInteger t || isFloat t

def isBreak (c : Char) : Bool :=
  c == '\n' || c == '\r' || c == '\u0085' || c == '\u2028' || c == '\u2029'

/-- A space, a tab, a line break, the end of the text, or the zero character that marks it. -/
def isGap : Option Char → Bool
  | none => true
  | some c => c == ' ' || c == '\t' || isBreak c || c == '\x00'

def isPrintable (c : Char) : Bool :=
  let n := c.toNat
  n == 0x0A || (0x20 ≤ n && n ≤ 0x7E) ||
    (0xA0 ≤ n && n ≠ 0xFEFF && n ≠ 0xFFFE && n ≠ 0xFFFF)

def isIndicator (c : Char) : Bool := "#,[]\x7b\x7d&*!|>'\"%@\x60".toList.contains c

def startsIndicated : Text → Bool
  | [] => false
  | c :: cs => isIndicator c || ((c == '?' || c == ':' || c == '-') && isGap cs.head?)

def hasIndicator (before : Option Char) : Text → Bool
  | [] => false
  | c :: cs =>
    (c == ':' && isGap cs.head?) || (c == '#' && isGap before) || hasIndicator (some c) cs

def startsDocument (t : Text) : Bool :=
  (after? "---".toList t).isSome || (after? "...".toList t).isSome

def hasPair (p q : Char → Bool) : Text → Bool
  | c :: d :: cs => (p c && q d) || hasPair p q (d :: cs)
  | _ => false

def isSpaceChar (c : Char) : Bool := c == ' '

def hasSpecial (t : Text) : Bool := t.any fun c => !isPrintable c

def spaceBeforeBreak (t : Text) : Bool := hasPair isSpaceChar isBreak t

def plainAllowed (t : Text) : Bool :=
  !(t.head?.any fun c => isSpaceChar c || isBreak c) && !(t.getLast?.any isSpaceChar) &&
  !t.any isBreak && !hasSpecial t && !startsDocument t && !startsIndicated t &&
  !hasIndicator (t.head?) (t.drop 1)

def singleAllowed (t : Text) : Bool :=
  !hasSpecial t && !spaceBeforeBreak t && !hasPair isBreak isSpaceChar t

def blockAllowed (t : Text) : Bool :=
  !t.isEmpty && !hasSpecial t && !spaceBeforeBreak t && !(t.getLast?.any isSpaceChar)

inductive Style where
  | plain
  | single
  | double
  | literal
  deriving DecidableEq, Repr

def quotedStyle (t : Text) : Style := if singleAllowed t then .single else .double

def styleOf (t : Text) : Style :=
  if t.contains '\n' then (if blockAllowed t then .literal else .double)
  else if isAmbiguous t || !plainAllowed t then quotedStyle t
  else .plain

def spaces (n : Nat) : Text := List.replicate n ' '

def indented (n : Nat) (broken : Bool) : Text → Text
  | [] => []
  | c :: cs =>
    if isBreak c then c :: indented n true cs
    else (if broken then spaces n else []) ++ c :: indented n false cs

def singleText (n : Nat) (t : Text) : Text :=
  let body := indented n false (t.flatMap fun c => if c == '\'' then ['\'','\''] else [c])
  ['\''] ++ body ++ (if t.getLast?.any isBreak then spaces n else []) ++ ['\'']

def upperHex (width n : Nat) : Text := padStart width '0' ((hex n).map Char.toUpper)

def escapeLetters : List (Char × Char) := [
  ('\x00','0'),('\x07','a'),('\x08','b'),('\t','t'),('\n','n'),('\x0b','v'),('\x0c','f'),('\r','r'),
  ('\x1b','e'),('"','"'),('\\','\\'),('\u0085','N'),('\u00a0','_'),('\u2028','L'),('\u2029','P')]

def doubleChar (c : Char) : Text :=
  if isPrintable c && !isBreak c && c ≠ '"' && c ≠ '\\' then [c]
  else
    match escapeLetters.find? fun e => e.1 = c with
    | some e => ['\\',e.2]
    | none =>
      let n := c.toNat
      if n ≤ 0xFF then ['\\','x'] ++ upperHex 2 n
      else if n ≤ 0xFFFF then ['\\','u'] ++ upperHex 4 n
      else ['\\','U'] ++ upperHex 8 n

def doubleText (t : Text) : Text := ['"'] ++ t.flatMap doubleChar ++ ['"']

/-- Says where the indentation of a block cannot be seen from its first line, and what becomes of
the breaks at its end. -/
def blockHint (t : Text) : Text :=
  (if t.head?.any fun c => isSpaceChar c || isBreak c then ['2'] else []) ++
  match t.reverse with
  | [] => ['-']
  | [c] => if isBreak c then ['+'] else ['-']
  | c :: d :: _ => if !isBreak c then ['-'] else if isBreak d then ['+'] else []

def literalText (n : Nat) (t : Text) : Text := ['|'] ++ blockHint t ++ ['\n'] ++ indented n true t

def scalar (n : Nat) (t : Text) : Text :=
  match styleOf t with
  | .plain => t
  | .single => singleText n t
  | .double => doubleText t
  | .literal => literalText n t

end Workbench.Yaml
