set_option autoImplicit false

/-!
Sets of code points as intervals. A property of the Unicode standard is a table of such
intervals; the tables start at U+0080, and ASCII is decided beside each of them.
-/
namespace Workbench

/-- A run of characters, the form in which every rule of the library reads its input. -/
abbrev Text := List Char

namespace Text

abbrev Ranges := List (Nat × Nat)

def Ranges.has (t : Ranges) (n : Nat) : Bool := t.any fun r => r.1 ≤ n && n ≤ r.2

/-- A character of the set whose ASCII members `p` decides and whose others `t` lists. -/
def Ranges.member (p : Char → Bool) (t : Ranges) (c : Char) : Bool :=
  if c.toNat < 128 then p c else t.has c.toNat

theorem Ranges.member_of_ascii (p : Char → Bool) (t : Ranges) {c : Char} (h : c.toNat < 128) :
    t.member p c = p c := by simp [Ranges.member,h]

end Text
end Workbench
