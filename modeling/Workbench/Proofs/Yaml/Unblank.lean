import Mathlib.Data.List.Basic
import Workbench.Proofs.Text.Blank
import Workbench.Proofs.Text.Digits
import Workbench.Yaml.Scalar
set_option autoImplicit false

/-!
No blank is in the text of a number, nor in any text that would be read as nothing, as a truth value
or as a number.
-/
namespace Workbench
open Text

theorem unblank_decimal (n : Nat) : Unblank (decimal n) := by
  intro c hc
  obtain ⟨d,hd,rfl⟩ := mem_digits (by decide) hc
  exact (by decide : ∀ d < 10, isBlank (hexDigit d) = false) d hd

theorem decimal_ne_nil (n : Nat) : decimal n ≠ [] := by
  intro h
  rw [decimal,digits] at h
  split at h
  · cases h
  · exact List.concat_ne_nil _ _ h

namespace Binary64

theorem unblank_unsigned (s : Style) (x : Binary64) :
    Unblank (x.unsigned s) ∧ x.unsigned s ≠ [] := by
  rw [unsigned]
  split
  · decide
  obtain ⟨c,p⟩ := x.shortest
  have hd := unblank_decimal c
  have ht : ∀ n, Unblank ((decimal c).take n) := fun n _ hc => hd _ (List.mem_of_mem_take hc)
  have hr : ∀ n, Unblank ((decimal c).drop n) := fun n _ hc => hd _ (List.mem_of_mem_drop hc)
  have hz : ∀ n, Unblank (List.replicate n '0') := by
    intro n e he
    rw [(List.mem_replicate.1 he).2]
    decide
  dsimp only
  split
  · split
    · exact ⟨unblank_append (unblank_append hd (hz _)) (by decide),by simp⟩
    · split
      · exact ⟨unblank_append (unblank_append (ht _) (by decide)) (hr _),by simp⟩
      · exact ⟨unblank_append (unblank_append (by decide) (hz _)) hd,by simp⟩
  · have hp : Unblank (if (decimal c).length = 1 then [] else '.' :: (decimal c).drop 1) := by
      split
      · decide
      · exact unblank_cons (by decide) (hr 1)
    have hs : ∀ n : Int, Unblank (if n < 0 then ['-'] else if s.plusSign then ['+'] else []) := by
      intro n
      split
      · decide
      · split <;> decide
    exact ⟨unblank_append (unblank_append (unblank_append (unblank_append (ht 1) hp) (by decide))
      (hs _)) (unblank_decimal _),by simp⟩

theorem unblank_text (s : Style) (x : Binary64) : Unblank (x.text s) ∧ x.text s ≠ [] := by
  rw [text]
  split
  · exact ⟨unblank_cons (by decide) (x.unblank_unsigned s).1,List.cons_ne_nil _ _⟩
  · exact x.unblank_unsigned s

end Binary64

namespace Yaml

theorem isBlank_of_isDigit {c : Char} (h : c.isDigit = true) : isBlank c = false :=
  isBlank_eq_false_of (p := Char.isDigit) (by decide) h

theorem digitValue?_of_isBlank {c : Char} (h : isBlank c = true) (base : Nat) :
    digitValue? base c = none := by
  have hc := forall_blank (P := fun c => c.isDigit = false ∧ ¬ ('a' ≤ c ∧ c ≤ 'z') ∧
    ¬ ('A' ≤ c ∧ c ≤ 'Z')) (by decide) h
  simp [digitValue?,hc]

theorem unblank_of_digitsValue? {base n : Nat} {t : Text} (h : digitsValue? base t = some n) :
    Unblank t := by
  have hs : ∀ (cs : Text) (o : Option Nat), cs.foldl (fun n c => n.bind fun n =>
      (digitValue? base c).map fun d => base*n+d) o = some n → Unblank cs ∧ o.isSome = true := by
    intro cs
    induction cs with
    | nil =>
      rintro o rfl
      exact ⟨fun _ hc => absurd hc List.not_mem_nil,rfl⟩
    | cons c cs ih =>
      intro o ho
      obtain ⟨hu,hi⟩ := ih _ ho
      obtain ⟨m,hm⟩ := Option.isSome_iff_exists.1 hi
      obtain ⟨k,rfl,hk⟩ := Option.bind_eq_some_iff.1 hm
      refine ⟨unblank_cons ?_ hu,rfl⟩
      rw [Bool.eq_false_iff]
      intro hb
      rw [digitValue?_of_isBlank hb] at hk
      cases hk
  cases t with
  | nil => exact absurd h (by simp [digitsValue?])
  | cons c t => exact (hs _ _ h).1

theorem unblank_of_magnitude? {t : Text} {n : Nat} (h : magnitude? t = some n) : Unblank t := by
  rw [magnitude?] at h
  split at h
  · rename_i m hm
    obtain ⟨b,hb,h⟩ := List.exists_of_findSome?_eq_some hm
    obtain ⟨u,hu,hd⟩ := Option.bind_eq_some_iff.1 h
    rw [after?_eq_some_iff.1 hu]
    exact unblank_append ((by decide : ∀ b ∈ bases, Unblank b.1) b hb) (unblank_of_digitsValue? hd)
  · exact unblank_of_digitsValue? h

theorem unblank_of_isInteger {t : Text} (h : isInteger t = true) : Unblank t := by
  have hm : ∀ {u : Text} {p : Nat → Bool}, (magnitude? u).any p = true → Unblank u := by
    intro u p hp
    cases hn : magnitude? u with
    | none => simp [hn] at hp
    | some n => exact unblank_of_magnitude? hn
  unfold isInteger at h
  split at h
  · exact unblank_cons (by decide) (hm h)
  · exact unblank_cons (by decide) (hm h)
  · exact hm h

theorem unblank_of_exponent? {t : Text} {i : Int} (h : exponent? t = some i) : Unblank t := by
  have hd : ∀ {u : Text}, digitsValue? 10 u ≠ none → Unblank u := by
    intro u hu
    obtain ⟨n,hn⟩ := Option.ne_none_iff_exists'.1 hu
    exact unblank_of_digitsValue? hn
  unfold exponent? at h
  split at h
  · intro c hc
    cases hc
  · rename_i e t
    split at h
    · cases h
    · rename_i he
      have hb : isBlank e = false := by
        rcases Decidable.not_and_iff_not_or_not.1 he with he | he <;>
          (rw [Decidable.not_not.1 he]; decide)
      refine unblank_cons hb ?_
      split at h
      · exact unblank_cons (by decide) (hd fun hn => by simp [hn] at h)
      · exact unblank_cons (by decide) (hd fun hn => by simp [hn] at h)
      · exact hd fun hn => by simp [hn] at h

theorem unblank_takeWhile_isDigit (t : Text) : Unblank (t.takeWhile Char.isDigit) :=
  fun _ hc => isBlank_of_isDigit (List.all_eq_true.1 List.all_takeWhile _ hc)

theorem unblank_of_isDecimal {t : Text} (h : isDecimal t = true) : Unblank t := by
  rw [isDecimal] at h
  rw [← List.takeWhile_append_dropWhile (p := Char.isDigit) (l := t)]
  refine unblank_append (unblank_takeWhile_isDigit t) ?_
  generalize t.dropWhile Char.isDigit = u at h ⊢
  split at h
  rename_i f r hr
  split at h
  · rename_i he
    split at hr
    · rename_i v
      obtain ⟨rfl,rfl⟩ := Prod.mk.inj hr
      rw [← List.takeWhile_append_dropWhile (p := Char.isDigit) (l := v)]
      exact unblank_cons (by decide)
        (unblank_append (unblank_takeWhile_isDigit v) (unblank_of_exponent? he))
    · obtain ⟨rfl,rfl⟩ := Prod.mk.inj hr
      exact unblank_of_exponent? he
  · cases h

theorem unblank_of_isFloat {t : Text} (h : isFloat t = true) : Unblank t := by
  unfold isFloat at h
  rw [Bool.or_eq_true] at h
  rcases h with h | h
  · obtain ⟨s,hs,he⟩ := List.any_eq_true.1 h
    rw [← beq_iff_eq.1 he]
    exact (by decide : ∀ s ∈ [".inf",".Inf",".INF","+.inf","+.Inf","+.INF","-.inf","-.Inf","-.INF",
      ".nan",".NaN",".NAN"], Unblank s.toList) s hs
  · split at h
    · exact unblank_cons (by decide) (unblank_of_isDecimal h)
    · exact unblank_cons (by decide) (unblank_of_isDecimal h)
    · exact unblank_of_isDecimal h

theorem unblank_of_isPadded {t : Text} (h : isPadded t = true) : Unblank t := by
  have hz : ∀ {c : Char} {cs : Text}, (c :: cs).all Char.isDigit = true →
      Unblank ('0' :: c :: cs) :=
    fun hd => unblank_cons (by decide) fun _ hc => isBlank_of_isDigit (List.all_eq_true.1 hd _ hc)
  unfold isPadded at h
  split at h
  · rename_i c cs hc
    split at hc
    · rw [hc]
      exact unblank_cons (by decide) (hz h)
    · rw [hc]
      exact unblank_cons (by decide) (hz h)
    · rw [hc]
      exact hz h
  · cases h

theorem unblank_of_isWordValue {t : Text} (h : isWordValue t = true) : Unblank t := by
  obtain ⟨s,hs,he⟩ := List.any_eq_true.1 h
  rw [← beq_iff_eq.1 he]
  exact (by decide : ∀ s ∈ ["null","Null","NULL","~","true","True","TRUE","false","False","FALSE"],
    Unblank s.toList) s hs

theorem unblank_of_isAmbiguous {t : Text} (h : isAmbiguous t = true) : Unblank t := by
  simp only [isAmbiguous,Bool.or_eq_true,or_assoc] at h
  rcases h with h | h | h | h | h
  · rw [List.isEmpty_iff.1 h]
    exact fun _ hc => absurd hc List.not_mem_nil
  · exact unblank_of_isWordValue h
  · exact unblank_of_isPadded h
  · exact unblank_of_isInteger h
  · exact unblank_of_isFloat h

end Yaml
end Workbench
