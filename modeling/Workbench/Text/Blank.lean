import Workbench.Text.Ranges
set_option autoImplicit false

/-!
Blank characters (the Unicode property White_Space), trimming, and the width of an indent.
-/
namespace Workbench.Text

/-- The property White_Space: 25 code points, line breaks and no-break spaces included. -/
def isBlank (c : Char) : Bool :=
  let n := c.toNat
  (9 ≤ n && n ≤ 13) || n == 0x20 || n == 0x85 || n == 0xA0 || n == 0x1680 ||
  (0x2000 ≤ n && n ≤ 0x200A) || n == 0x2028 || n == 0x2029 || n == 0x202F ||
  n == 0x205F || n == 0x3000

def trimStart (t : Text) : Text := t.dropWhile isBlank

def trimEnd (t : Text) : Text := (t.reverse.dropWhile isBlank).reverse

def trim (t : Text) : Text := trimEnd (trimStart t)

def allBlank (t : Text) : Bool := t.all isBlank

def indent (t : Text) : Nat := (t.takeWhile isBlank).length

def firstWord (t : Text) : Text := (trimStart t).takeWhile fun c => !isBlank c

theorem trimStart_eq_nil_iff (t : Text) : trimStart t = [] ↔ allBlank t = true := by
  induction t with
  | nil => simp [trimStart,allBlank]
  | cons c cs ih =>
    by_cases h : isBlank c = true
    · have e : trimStart (c :: cs) = trimStart cs := by simp [trimStart,h]
      have f : allBlank (c :: cs) = allBlank cs := by simp [allBlank,h]
      rw [e,f]
      exact ih
    · simp [trimStart,allBlank,h]

theorem trimEnd_eq_nil_iff (t : Text) : trimEnd t = [] ↔ allBlank t = true := by
  rw [trimEnd,List.reverse_eq_nil_iff]
  exact (trimStart_eq_nil_iff t.reverse).trans (by simp [allBlank])

end Workbench.Text
