import Workbench.Text.Quoted
set_option autoImplicit false

/-!
Instants of universal time on the calendar that runs in both directions without a break, and the
text of an instant.
-/
namespace Workbench.Calendar
open Text

structure Date where
  year : Int
  month : Nat
  day : Nat
  deriving DecidableEq, Repr

def isLeap (year : Int) : Bool := year % 4 == 0 && (year % 100 != 0 || year % 400 == 0)

def daysIn (year : Int) (month : Nat) : Nat :=
  if month = 2 then (if isLeap year then 29 else 28)
  else if month = 4 ∨ month = 6 ∨ month = 9 ∨ month = 11 then 30
  else 31

def leastYear : Int := -262143
def greatestYear : Int := 262142

namespace Date

def Valid (d : Date) : Prop :=
  leastYear ≤ d.year ∧ d.year ≤ greatestYear ∧ 1 ≤ d.month ∧ d.month ≤ 12 ∧
    1 ≤ d.day ∧ d.day ≤ daysIn d.year d.month

instance (d : Date) : Decidable d.Valid := by unfold Valid; infer_instance

def next (d : Date) : Date :=
  if d.day < daysIn d.year d.month then ⟨d.year,d.month,d.day+1⟩
  else if d.month < 12 then ⟨d.year,d.month+1,1⟩
  else ⟨d.year+1,1,1⟩

def previous (d : Date) : Date :=
  if 1 < d.day then ⟨d.year,d.month,d.day-1⟩
  else if 1 < d.month then ⟨d.year,d.month-1,daysIn d.year (d.month-1)⟩
  else ⟨d.year-1,12,31⟩

end Date

/-- A day, the whole seconds of it that have passed, and billionths of a second. The second that
is inserted at the end of a minute counts as the billionths from one to two thousand million. -/
structure Instant where
  date : Date
  second : Nat
  nano : Nat
  deriving DecidableEq, Repr

def daySeconds : Nat := 86400

def billion : Nat := 1000000000

namespace Instant

def Valid (i : Instant) : Prop := i.date.Valid ∧ i.second < daySeconds ∧ i.nano < 2*billion

instance (i : Instant) : Decidable i.Valid := by unfold Valid; infer_instance

def afterDays (n seconds nano : Nat) : Instant := ⟨n.repeat Date.next ⟨1970,1,1⟩,seconds,nano⟩

def two (n : Nat) : Text := padStart 2 '0' (decimal n)

def yearText (y : Int) : Text :=
  if 0 ≤ y ∧ y ≤ 9999 then padStart 4 '0' (decimal y.natAbs)
  else (if y < 0 then '-' else '+') :: padStart 4 '0' (decimal y.natAbs)

/-- No digits, or as many as thousandths, millionths or billionths have. -/
def fractionText (n : Nat) : Text :=
  if n = 0 then []
  else if n % 1000000 = 0 then '.' :: padStart 3 '0' (decimal (n / 1000000))
  else if n % 1000 = 0 then '.' :: padStart 6 '0' (decimal (n / 1000))
  else '.' :: padStart 9 '0' (decimal n)

def text (i : Instant) : Text :=
  yearText i.date.year ++ ['-'] ++ two i.date.month ++ ['-'] ++ two i.date.day ++ ['T'] ++
  two (i.second / 3600) ++ [':'] ++ two (i.second / 60 % 60) ++ [':'] ++
  two (i.second % 60 + i.nano / billion) ++ fractionText (i.nano % billion) ++ ['Z']

end Instant
end Workbench.Calendar
