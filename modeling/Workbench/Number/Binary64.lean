import Workbench.Text.Quoted
set_option autoImplicit false

/-!
Finite numbers of 53 significant bits, in exact arithmetic: the one nearest to a decimal, and the
shortest decimal that is nearest to it.
-/
namespace Workbench

/-- The number `significand · 2^exponent`, or its negative. Zero has a sign too. -/
structure Binary64 where
  negative : Bool
  significand : Nat
  exponent : Int
  deriving DecidableEq, Repr

namespace Binary64

def leastExponent : Int := -1074
def greatestExponent : Int := 971

def zero (negative : Bool) : Binary64 := ⟨negative,0,leastExponent⟩

def roundDiv (n d : Nat) : Nat :=
  let q := n / d
  let r := n % d
  if 2*r < d then q else if d < 2*r then q+1 else q + q % 2

def atExponent (n d : Nat) (e : Int) : Nat × Nat :=
  if 0 ≤ e then (n,d * Nat.pow 2 e.toNat) else (n * Nat.pow 2 (-e).toNat,d)

def exponentFor (n d : Nat) : Int :=
  let e : Int := (Nat.log2 n : Int) - (Nat.log2 d : Int) - 53
  let q := atExponent n d e
  max leastExponent (if q.1 / q.2 < Nat.pow 2 53 then e else e+1)

/-- The number nearest to `n/d`, for positive `n` and `d`; none beyond the greatest. -/
def nearestQuotient? (negative : Bool) (n d : Nat) : Option Binary64 :=
  let e := exponentFor n d
  let q := atExponent n d e
  let m := roundDiv q.1 q.2
  let (m,e) := if m = Nat.pow 2 53 then (Nat.pow 2 52,e+1) else (m,e)
  if greatestExponent < e then none else some ⟨negative,m,e⟩

def nearest? (negative : Bool) (n : Nat) (k : Int) : Option Binary64 :=
  if n = 0 then some (zero negative)
  else
    let scale : Int := ((Text.decimal n).length : Int) + k
    if 310 < scale then none
    else if scale < -330 then some (zero negative)
    else if 0 ≤ k then nearestQuotient? negative (n * Nat.pow 10 k.toNat) 1
    else nearestQuotient? negative n (Nat.pow 10 (-k).toNat)

/-- The ends of the interval of numbers nearest to `x`, and `x` itself, in quarters of its last
place. -/
def quarters (x : Binary64) : Nat × Nat × Nat :=
  let m := 4*x.significand
  (if x.significand = Nat.pow 2 52 && leastExponent < x.exponent then m-1 else m-2,m,m+2)

/-- The multiple of `10^p` that is nearest to `x`, if one is nearest to `x` among the multiples
and within its interval, whose ends belong to it when the significand is even. -/
def onGrid? (x : Binary64) (p : Int) : Option Nat :=
  let (lo,mid,hi) := x.quarters
  let up := Nat.pow 2 (x.exponent-2).toNat * Nat.pow 10 (-p).toNat
  let down := Nat.pow 2 (2-x.exponent).toNat * Nat.pow 10 p.toNat
  let closed := x.significand % 2 = 0
  let inside (c : Nat) : Bool :=
    if closed then lo*up ≤ c*down && c*down ≤ hi*up else lo*up < c*down && c*down < hi*up
  let c := mid*up / down
  let below := 0 < c && inside c
  let above := inside (c+1)
  if below && above then
    some (if 2*(mid*up) < (2*c+1)*down then c
      else if (2*c+1)*down < 2*(mid*up) then c+1
      else c + c % 2)
  else if below then some c
  else if above then some (c+1)
  else none

def shortestFrom (x : Binary64) : Nat → Int → Nat × Int
  | 0, p => (x.significand,p)
  | fuel+1, p =>
    match onGrid? x p with
    | some c => (c,p)
    | none => shortestFrom x fuel (p-1)

/-- The shortest decimal `c · 10^p` that is nearest to `x`, for `x` other than zero. -/
def shortest (x : Binary64) : Nat × Int :=
  let bits : Int := (Nat.log2 x.significand : Int) + x.exponent + 1
  shortestFrom x 40 (bits * 30103 / 100000 + 2)

structure Style where
  leastScale : Int
  greatestScale : Int
  plusSign : Bool
  deriving DecidableEq, Repr

def unsigned (s : Style) (x : Binary64) : Text :=
  if x.significand = 0 then "0.0".toList
  else
    let (c,p) := x.shortest
    let ds := Text.decimal c
    let scale : Int := (ds.length : Int) - 1 + p
    if s.leastScale ≤ scale && scale ≤ s.greatestScale then
      if 0 ≤ p then ds ++ List.replicate p.toNat '0' ++ ".0".toList
      else if 0 ≤ scale then
        ds.take (scale.toNat+1) ++ ['.'] ++ ds.drop (scale.toNat+1)
      else "0.".toList ++ List.replicate (-scale-1).toNat '0' ++ ds
    else
      ds.take 1 ++ (if ds.length = 1 then [] else '.' :: ds.drop 1) ++ ['e'] ++
      (if scale < 0 then ['-'] else if s.plusSign then ['+'] else []) ++
      Text.decimal scale.natAbs

def text (s : Style) (x : Binary64) : Text :=
  (if x.negative then ['-'] else []) ++ unsigned s x

end Binary64
end Workbench
