import Mathlib.Data.List.Basic
import Workbench.Proofs.Text.Blank
import Workbench.Yaml.Writer
set_option autoImplicit false

/-!
What trimming a document takes away, by the scalar that it ends in. A quoted scalar loses nothing;
one that stands plain or as a block loses the blanks at its end.
-/
namespace Workbench.Yaml
open Text

theorem isBlank_of_isBreak {c : Char} (h : isBreak c = true) : isBlank c = true := by
  simp only [isBreak,Bool.or_eq_true,beq_iff_eq,or_assoc] at h
  rcases h with rfl | rfl | rfl | rfl | rfl <;> decide

theorem trimEnd_onNewLine (x : Text) : trimEnd (onNewLine x) = trimEnd x := by
  rw [onNewLine]
  split
  · rfl
  · exact trimEnd_append_blanks x (by decide)

/-- Of the document that the text is, trimming takes the final line feed and nothing else. -/
def Whole (x : Text) : Prop := onNewLine x = trimEnd x ++ ['\n']

theorem whole_concat_iff (s : Text) (c : Char) :
    Whole (s ++ [c]) ↔ if c = '\n' then trimEnd s = s else isBlank c = false := by
  have hl : (s ++ [c]).getLast?.any isBreak = isBreak c := by simp
  have hb := trimEnd_eq_self_iff (s ++ [c])
  rw [List.getLast?_concat,Option.any_some] at hb
  rw [Whole,onNewLine,hl]
  by_cases hc : c = '\n'
  · subst hc
    have ht : trimEnd (s ++ ['\n']) = trimEnd s := trimEnd_append_blanks s (by decide)
    rw [if_pos (by decide),if_pos rfl,ht,List.append_left_inj,eq_comm]
  · rw [if_neg hc,← hb]
    cases hk : isBreak c with
    | true =>
      have he : trimEnd (s ++ [c]) ≠ s ++ [c] := by
        rw [Ne,hb,isBlank_of_isBreak hk]
        decide
      simp only [if_true,he,iff_false]
      intro h
      exact hc (List.singleton_inj.1 (List.append_inj_right' h rfl))
    | false =>
      simp only [Bool.false_eq_true,if_false,List.append_left_inj,eq_comm]

theorem whole_concat (s : Text) {c : Char} (hc : isBlank c = false) : Whole (s ++ [c]) := by
  have hn : c ≠ '\n' := by
    rintro rfl
    exact absurd hc (by decide)
  rw [whole_concat_iff,if_neg hn]
  exact hc

theorem indented_concat (n : Nat) (b : Bool) (s : Text) (c : Char) :
    indented n b (s ++ [c]) = indented n b s ++
      ((if isBreak c || !s.getLast?.elim b isBreak then [] else spaces n) ++ [c]) := by
  induction s generalizing b with
  | nil => cases b <;> cases hc : isBreak c <;> simp [indented,hc]
  | cons d s ih =>
    have hl : (d :: s).getLast?.elim b isBreak = s.getLast?.elim (isBreak d) isBreak := by
      rw [List.getLast?_cons]
      cases s.getLast? <;> rfl
    rw [hl,List.cons_append,indented,indented]
    cases isBreak d with
    | true => simp [ih]
    | false => simp [ih]

theorem getLast?_indented (n : Nat) (b : Bool) (t : Text) :
    (indented n b t).getLast? = t.getLast? := by
  rcases List.eq_nil_or_concat' t with rfl | ⟨s,c,rfl⟩
  · rfl
  · rw [indented_concat]
    simp

/-- The text ends in a blank, or in nothing, where one line feed at its end does not count. -/
def trailsOff (t : Text) : Bool :=
  match t.reverse with
  | [] => true
  | c :: s => if c == '\n' then s.head?.all isBlank else isBlank c

/-- A text that is not quoted and trails off. -/
def fades (t : Text) : Bool := (styleOf t == .plain || styleOf t == .literal) && trailsOff t

theorem trailsOff_concat (s : Text) (c : Char) :
    trailsOff (s ++ [c]) = if c = '\n' then s.getLast?.all isBlank else isBlank c := by
  simp [trailsOff]

theorem not_contains_of_plain {t : Text} (h : styleOf t = .plain) :
    '\n' ∉ t ∧ isAmbiguous t = false ∧ plainAllowed t = true := by
  have hq : quotedStyle t ≠ .plain := by
    rw [quotedStyle]
    split <;> decide
  rw [styleOf] at h
  split at h
  · split at h <;> cases h
  · rename_i hn
    split at h
    · exact absurd h hq
    · rename_i ha
      simp only [Bool.or_eq_true,Bool.not_eq_true',not_or,Bool.not_eq_true,Bool.not_eq_false] at ha
      exact ⟨by simpa using hn,ha⟩

theorem contains_of_literal {t : Text} (h : styleOf t = .literal) :
    '\n' ∈ t ∧ blockAllowed t = true := by
  have hq : quotedStyle t ≠ .literal := by
    rw [quotedStyle]
    split <;> decide
  rw [styleOf] at h
  split at h
  · rename_i hn
    split at h
    · exact ⟨by simpa using hn,by assumption⟩
    · cases h
  · split at h
    · exact absurd h hq
    · cases h

theorem whole_block_iff (b : Text) (n : Nat) {t : Text} (ht : t ≠ []) :
    Whole (b ++ '\n' :: indented n true t) ↔ trailsOff t = false := by
  rcases List.eq_nil_or_concat' t with rfl | ⟨s,c,rfl⟩
  · exact absurd rfl ht
  · have hl : (b ++ '\n' :: indented n true s).getLast?.any isBlank = s.getLast?.all isBlank := by
      rw [List.getLast?_append,List.getLast?_cons,getLast?_indented]
      cases s.getLast? <;> rfl
    rw [trailsOff_concat,indented_concat]
    by_cases hc : c = '\n'
    · subst hc
      have hw := whole_concat_iff (b ++ '\n' :: indented n true s) '\n'
      rw [if_pos rfl,trimEnd_eq_self_iff,hl] at hw
      simpa [isBreak] using hw
    · rw [if_neg hc,← List.cons_append,← List.append_assoc,← List.append_assoc,whole_concat_iff,
        if_neg hc]

theorem whole_scalar_iff (b : Text) (n : Nat) (t : Text) :
    Whole (b ++ scalar n t) ↔ fades t = false := by
  rw [fades,scalar]
  cases hs : styleOf t with
  | single =>
    rw [singleText,← List.append_assoc]
    exact iff_of_true (whole_concat _ (by decide)) rfl
  | double =>
    rw [doubleText,← List.append_assoc]
    exact iff_of_true (whole_concat _ (by decide)) rfl
  | plain =>
    obtain ⟨hn,ha,-⟩ := not_contains_of_plain hs
    change _ ↔ trailsOff t = false
    rcases List.eq_nil_or_concat' t with rfl | ⟨s,c,rfl⟩
    · cases ha
    · have hc : c ≠ '\n' := fun h => hn (by simp [h])
      rw [← List.append_assoc,whole_concat_iff,trailsOff_concat,if_neg hc,if_neg hc]
  | literal =>
    change Whole (b ++ literalText n t) ↔ trailsOff t = false
    rw [literalText,List.append_assoc,← List.append_assoc]
    exact whole_block_iff _ n (List.ne_nil_of_mem (contains_of_literal hs).1)

end Workbench.Yaml
