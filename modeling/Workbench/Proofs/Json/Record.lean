import Workbench.Json.Record
import Workbench.Proofs.Json.StringText
set_option autoImplicit false

/-!
Records are read member by member: a field's string, written behind its key, ends up in the field.
-/
namespace Workbench.Json
open Text

def keySeparator (first : Bool) : Bytes := if first then [] else [44]

def memberBytes (key value : Text) (tail : Bytes) : Bytes :=
  utf8 (stringText key) ++ 58 :: (utf8 (stringText value) ++ tail)

namespace Shape
variable {σ : Type} (s : Shape σ)

/-- A member whose key is that of field `i`, not known before, goes into the record, and reading
goes on behind it. -/
theorem members_member (key : Text) {value : Text} {tail left : Bytes} {depth fuel i l : Nat}
    {r r' d : σ} (hf : (s.fields.zipIdx.find? fun f => f.1 = key) = some (key,i))
    (hg : s.given r i = false)
    (hr : ∀ l k, ∃ k', s.read depth i r ⟨utf8 (stringText value) ++ tail,l,k⟩ =
      .ok (r',⟨tail,l,k'⟩))
    (hn : ∀ k, ∃ k', s.members depth fuel false r' ⟨tail,l,k⟩ = .ok (d,none,⟨left,l,k'⟩))
    (first : Bool) (k : Nat) :
    ∃ k', s.members depth (fuel+1) first r ⟨keySeparator first ++ memberBytes key value tail,l,k⟩ =
      .ok (d,none,⟨left,l,k'⟩) := by
  rw [memberBytes]
  generalize utf8 (stringText value) ++ tail = behind at hr ⊢
  rw [utf8_stringText,List.cons_append,List.append_assoc,List.singleton_append]
  have hm : ∃ k₁, moreKeys first ⟨keySeparator first ++ 34 :: (utf8 (key.flatMap escapeChar) ++
      34 :: 58 :: behind),l,k⟩ = .ok (true,⟨34 :: (utf8 (key.flatMap escapeChar) ++
      34 :: 58 :: behind),l,k₁⟩) := by
    cases first with
    | true =>
      refine ⟨k,?_⟩
      rw [keySeparator,if_pos rfl,List.nil_append,moreKeys,skipSpaces_of_not_space (by decide)]
      rfl
    | false =>
      refine ⟨k+1,?_⟩
      rw [keySeparator,if_neg (by decide),List.singleton_append,moreKeys,
        skipSpaces_of_not_space (by decide)]
      simp only [Cursor.peek,Cursor.skip,Cursor.past,List.head?_cons]
      rw [if_neg (by decide),skipSpaces_of_not_space (by decide)]
      rfl
  obtain ⟨k₁,hm⟩ := hm
  obtain ⟨k₂,hs⟩ := readString_stringText key (58 :: behind) l (k₁+1)
  obtain ⟨k₃,hr⟩ := hr l (k₂+1)
  obtain ⟨k₄,hn⟩ := hn k₃
  refine ⟨k₄,?_⟩
  have hc : colon ⟨58 :: behind,l,k₂⟩ = .ok ⟨behind,l,k₂+1⟩ := by
    rw [colon,skipSpaces_of_not_space (by decide)]
    rfl
  have hq : ∀ rest : Bytes, (Cursor.mk (34 :: rest) l k₁).skip = ⟨rest,l,k₁+1⟩ := fun _ => rfl
  rw [members,hm]
  simp only [hq,hs,hf,hg,Bool.false_eq_true,if_false,hc,hr,hn]

end Shape
end Workbench.Json
