import Workbench.Calendar.Instant
import Workbench.Text.Blank
import Workbench.Text.Utf8
set_option autoImplicit false

/-!
Reading an instant. The numbers need not be padded, blanks may stand around them, and the offset
from universal time may do without its colon; the parts have to be there and in order.
-/
namespace Workbench.Calendar
open Text

inductive Problem where
  | tooShort
  | tooLong
  | invalid
  | outOfRange
  | impossible
  deriving DecidableEq, Repr

def Problem.message : Problem → Text
  | .tooShort => "premature end of input".toList
  | .tooLong => "trailing input".toList
  | .invalid => "input contains invalid characters".toList
  | .outOfRange => "input is out of range".toList
  | .impossible => "no possible date and time matching input".toList

def digitsValue (t : Text) : Nat := t.foldl (fun n c => 10*n+(c.toNat-48)) 0

def digitRun (width : Option Nat) (t : Text) : Except Problem (Text × Text) :=
  match t with
  | [] => .error .tooShort
  | c :: _ =>
    if !c.isDigit then .error .invalid
    else
      let all := t.takeWhile Char.isDigit
      let ds := match width with
        | none => all
        | some w => all.take w
      .ok (ds,t.drop ds.length)

def number (width : Option Nat) (t : Text) : Except Problem (Nat × Text) :=
  match digitRun width t with
  | .error p => .error p
  | .ok (ds,t) => .ok (digitsValue ds,t)

def field (least greatest : Nat) (t : Text) : Except Problem (Nat × Text) :=
  match number (some 2) (trimStart t) with
  | .error p => .error p
  | .ok (n,t) => if least ≤ n ∧ n ≤ greatest then .ok (n,t) else .error .outOfRange

def leastWord : Int := -2147483648
def greatestWord : Int := 2147483647

def year (t : Text) : Except Problem (Int × Text) :=
  let bounded : Except Problem (Int × Text) → Except Problem (Int × Text)
    | .error p => .error p
    | .ok (y,t) => if leastWord ≤ y ∧ y ≤ greatestWord then .ok (y,t) else .error .outOfRange
  match trimStart t with
  | '-' :: t => bounded ((number none t).map fun r => (-(r.1 : Int),r.2))
  | '+' :: t => bounded ((number none t).map fun r => ((r.1 : Int),r.2))
  | t => bounded ((number (some 4) t).map fun r => ((r.1 : Int),r.2))

def separator (c : Char) (t : Text) : Except Problem Text :=
  match trimStart t with
  | [] => .error .tooShort
  | d :: t => if d = c then .ok t else .error .invalid

def date (t : Text) : Except Problem (Date × Text) := do
  let (y,t) ← year t
  let t ← separator '-' t
  let (m,t) ← field 1 12 t
  let t ← separator '-' t
  let (d,t) ← field 1 31 t
  return (⟨y,m,d⟩,t)

def fraction (t : Text) : Except Problem (Nat × Text) :=
  match t with
  | '.' :: t =>
    match digitRun (some 9) t with
    | .error p => .error p
    | .ok (ds,t) => .ok (digitsValue ds * Nat.pow 10 (9-ds.length),t.dropWhile Char.isDigit)
  | t => .ok (0,t)

def timeOfDay (t : Text) : Except Problem ((Nat × Nat) × Text) := do
  let (h,t) ← field 0 23 t
  let t ← separator ':' t
  let (m,t) ← field 0 59 t
  let t ← separator ':' t
  let (s,t) ← field 0 60 t
  let (n,t) ← fraction t
  return (if s = 60 then (h*3600+m*60+59,n+billion) else (h*3600+m*60+s,n),t)

/-- Two digits, given the first of which `tens` picks. A text of a single byte is too short. -/
def twoDigits (t : Text) : Except Problem ((Char × Char) × Text) :=
  match t with
  | [] => .error .tooShort
  | [c] => .error (if utf8Width c < 2 then .tooShort else .invalid)
  | c :: d :: t => if c.isDigit && d.isDigit then .ok ((c,d),t) else .error .invalid

def pairValue (p : Char × Char) : Nat := digitsValue [p.1,p.2]

def offset (t : Text) : Except Problem (Int × Text) :=
  match t with
  | [] => .error .tooShort
  | c :: rest =>
    if c = 'Z' ∨ c = 'z' then .ok (0,rest)
    else if (t.take 3).map Char.toLower = ['u','t','c'] then .ok (0,t.drop 3)
    else if c = '+' then signed 1 rest
    else if c = '-' ∨ c = '−' then signed (-1) rest
    else .error .invalid
where
  signed (sign : Int) (t : Text) : Except Problem (Int × Text) := do
    let (h,t) ← twoDigits t
    let (m,t) ← twoDigits (t.dropWhile fun c => c = ':' || isBlank c)
    if '5' < m.1 then .error .outOfRange
    else return (sign * ((pairValue h * 3600 + pairValue m * 60 : Nat) : Int),t)

/-- The instant that a clock `east` seconds ahead shows as the date and second given. -/
def shifted (d : Date) (second nano : Nat) (east : Int) : Except Problem Instant :=
  let s : Int := second - east
  if ¬ d.Valid ∨ (daySeconds : Int) ≤ east ∨ east ≤ -(daySeconds : Int) then .error .outOfRange
  else
    let i : Instant :=
      if s < 0 then ⟨d.previous,(s+daySeconds).toNat,nano⟩
      else if (daySeconds : Int) ≤ s then ⟨d.next,(s-daySeconds).toNat,nano⟩
      else ⟨d,s.toNat,nano⟩
    if i.date.Valid then .ok i else .error .impossible

def Instant.parse (t : Text) : Except Problem Instant := do
  let (d,t) ← Calendar.date t
  let t ← match t with
    | [] => Except.error Problem.tooShort
    | c :: t => if c = 'T' ∨ c = 't' ∨ c = ' ' then .ok t else .error .invalid
  let ((s,n),t) ← timeOfDay t
  let (e,t) ← Calendar.offset (trimStart t)
  if allBlank t then shifted d s n e else .error .tooLong

end Workbench.Calendar
