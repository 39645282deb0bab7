import Workbench.Archive.Package
import Workbench.Proofs.Text.Blank
import Workbench.Proofs.Text.Digits
import Workbench.Proofs.Text.Literal
import Workbench.Snippet
import Workbench.World
set_option autoImplicit false

/-!
Ids in order of drawing are different from each other until their counter starts over, and so are
the names that are made from them. Every one is an id, or a name, that can be asked for.
-/
namespace Workbench
open Text

namespace Ids

theorem idOf_eq (n : Nat) : idOf n = fixedDigits 16 8 n := rfl

theorem length_idOf {n : Nat} (h : n < limit) : (idOf n).length = 8 :=
  length_fixedDigits (by omega) (by omega) h

def hexValue (c : Char) : Nat := if c.isDigit then c.toNat-48 else c.toNat-87

theorem idOf_injective {m n : Nat} (h : idOf m = idOf n) : m = n := by
  have hv : ∀ d < 16, hexValue (hexDigit d) = d := by decide
  have hm := foldl_fixedDigits (by omega) hv 8 m
  have hn := foldl_fixedDigits (by omega) hv 8 n
  rw [← idOf_eq] at hm hn
  rw [← hm,h,hn]

theorem alphanum_of_mem_idOf {n : Nat} {c : Char} (h : c ∈ idOf n) : c.isAlphanum = true := by
  have ha : ∀ d < 16, (hexDigit d).isAlphanum = true := by decide
  obtain ⟨d,hd,rfl⟩ := mem_fixedDigits (by omega) h
  exact ha d hd

theorem idOf_ne_nil {n : Nat} (h : n < limit) : idOf n ≠ [] := by
  have hl := length_idOf h
  intro e
  rw [e] at hl; simp at hl

theorem isId_idOf {n : Nat} (h : n < limit) : Snippet.isId (idOf n) = true := by
  have ha : (idOf n).all Char.isAlphanum = true := List.all_eq_true.2 fun c hc =>
    alphanum_of_mem_idOf hc
  simp [Snippet.isId,idOf_ne_nil h,ha]

theorem trim_idOf (n : Nat) : trim (idOf n) = idOf n := by
  have hb : ∀ d < 16, isBlank (hexDigit d) = false := by decide
  refine trim_of_not_blank fun c hc => ?_
  obtain ⟨d,hd,rfl⟩ := mem_fixedDigits (by omega) hc
  exact hb d hd

end Ids

theorem Snippet.entryOf_injective {i j : Text} (h : entryOf i = entryOf j) : i = j :=
  List.append_cancel_right h

namespace Archive

theorem nameOf_injective {i j : Text} (h : nameOf i = nameOf j) : i = j :=
  List.append_cancel_left (List.append_cancel_right h)

theorem isName_of_isId {id : Text} (h : Snippet.isId id = true) : isName (nameOf id) = true := by
  have ha : after? namePrefix (nameOf id) = some (id ++ nameSuffix) :=
    after?_eq_some_iff.2 (by simp [nameOf])
  rw [isName,ha,Option.bind_some,before?_eq_some_iff.2 rfl]
  exact h

theorem isName_nameOf {n : Nat} (h : n < Ids.limit) : isName (nameOf (Ids.idOf n)) = true :=
  isName_of_isId (Ids.isId_idOf h)

theorem nameOf_ne_idOf {m n : Nat} (hm : m < Ids.limit) (hn : n < Ids.limit) :
    nameOf (Ids.idOf m) ≠ Ids.idOf n := by
  intro h
  have hl := congrArg List.length h
  rw [nameOf,List.length_append,List.length_append,Ids.length_idOf hm,Ids.length_idOf hn] at hl
  exact absurd hl (by decide)

end Archive
end Workbench
