import Mathlib.Data.List.Forall2
import Workbench.Text.Lowercase
import Workbench.Text.WordChars
set_option autoImplicit false

/-!
Lowering a text and the case of its ASCII letters. They are cased and not ignorable whichever their
case, so that they lower alike and leave the image of every other character as it is.
-/
namespace Workbench.Text

theorem toLower_of_le {c : Char} (h : 128 ≤ c.toNat) : c.toLower = c :=
  dif_neg fun hu => by
    have hz : c.toNat ≤ 90 := hu.2
    omega

/-- A function of characters overlooks the case of ASCII letters if it does so on ASCII. -/
theorem apply_toLower {α : Type} {f : Char → α}
    (h : ∀ n < 128, f (Char.ofNat n).toLower = f (Char.ofNat n)) (c : Char) : f c.toLower = f c := by
  by_cases hc : c.toNat < 128
  · rw [← Char.ofNat_toNat c]
    exact h _ hc
  · rw [toLower_of_le (Nat.le_of_not_lt hc)]

theorem isCased_toLower (c : Char) : isCased c.toLower = isCased c :=
  apply_toLower (by decide +kernel) c

theorem isCaseIgnorable_toLower (c : Char) : isCaseIgnorable c.toLower = isCaseIgnorable c :=
  apply_toLower (by decide +kernel) c

theorem lowerChar_toLower (c : Char) : lowerChar c.toLower = lowerChar c :=
  apply_toLower (by decide +kernel) c

theorem isSigma_toLower (c : Char) : (c.toLower == 'Σ') = (c == 'Σ') :=
  apply_toLower (f := (· == 'Σ')) (by decide +kernel) c

theorem isAlphanumeric_toLower (c : Char) : isAlphanumeric c.toLower = isAlphanumeric c :=
  apply_toLower (by decide +kernel) c

theorem casedNext_lowerAscii (t : Text) : casedNext (lowerAscii t) = casedNext t := by
  have hi : isCaseIgnorable ∘ Char.toLower = isCaseIgnorable := funext isCaseIgnorable_toLower
  rw [casedNext,casedNext,lowerAscii,List.dropWhile_map,hi]
  cases t.dropWhile isCaseIgnorable with
  | nil => rfl
  | cons c cs => exact isCased_toLower c

theorem endsWord_lowerAscii (before after : Text) :
    endsWord (lowerAscii before) (lowerAscii after) = endsWord before after := by
  rw [endsWord,endsWord,casedNext_lowerAscii,casedNext_lowerAscii]

theorem lowerAfter_lowerAscii (before t : Text) :
    lowerAfter (lowerAscii before) (lowerAscii t) = lowerAfter before t := by
  induction t generalizing before with
  | nil => rfl
  | cons c t ih =>
    have hb : c.toLower :: lowerAscii before = lowerAscii (c :: before) := rfl
    have ht : lowerAscii (c :: t) = c.toLower :: lowerAscii t := rfl
    rw [ht,lowerAfter,lowerAfter,hb,ih,isSigma_toLower,endsWord_lowerAscii,lowerChar_toLower]

theorem lower_lowerAscii (t : Text) : lower (lowerAscii t) = lower t := lowerAfter_lowerAscii [] t

/-- The texts differ at most in the case of ASCII letters. -/
def SameLetters (t u : Text) : Prop :=
  List.Forall₂ (fun c d => c = d ∨ c.isAlpha = true ∧ d.isAlpha = true ∧ c.toLower = d.toLower) t u

theorem SameLetters.lowerAscii_eq {t u : Text} (h : SameLetters t u) : lowerAscii t = lowerAscii u := by
  induction h with
  | nil => rfl
  | @cons c d _ _ hc _ ih =>
    have hl : c.toLower = d.toLower := by
      rcases hc with rfl | ⟨-,-,h⟩
      · rfl
      · exact h
    exact congrArg₂ List.cons hl ih

end Workbench.Text
