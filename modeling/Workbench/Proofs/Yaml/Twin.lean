import Workbench.Proofs.Text.Literal
import Workbench.Proofs.Yaml.Unblank
import Workbench.Proofs.Yaml.Scalar
set_option autoImplicit false

/-!
Every text that trimming takes something of has a twin: another text whose document is the same once
it is trimmed.
-/
namespace Workbench.Yaml
open Text

/-- A blank that may end a text of any style. -/
structure IsFiller (c : Char) : Prop where
  blank : isBlank c = true
  printable : isPrintable c = true
  visible : isSpaceChar c = false

namespace IsFiller
variable {c : Char} (h : IsFiller c)
include h

theorem ne {d : Char} (hd : isBlank d = false ∨ isPrintable d = false ∨ isSpaceChar d = true) :
    c ≠ d := by
  rintro rfl
  simp [h.blank,h.printable,h.visible] at hd

theorem isGap (hb : isBreak c = false) : isGap (some c) = false := by
  have hs := h.ne (d := ' ') (by decide)
  have ht := h.ne (d := '\t') (by decide)
  have hz := h.ne (d := '\x00') (by decide)
  simp [Yaml.isGap,hs,ht,hz,hb]

theorem hasSpecial_concat (t : Text) : hasSpecial (t ++ [c]) = hasSpecial t := by
  simp [hasSpecial,h.printable]

end IsFiller

theorem hasPair_concat (p q : Char → Bool) (t : Text) (c : Char) :
    hasPair p q (t ++ [c]) = (hasPair p q t || t.getLast?.any p && q c) := by
  induction t with
  | nil => rfl
  | cons d t ih =>
    cases t with
    | nil => simp [hasPair]
    | cons e t =>
      simp only [List.cons_append,hasPair] at ih ⊢
      rw [ih,List.getLast?_cons_cons,Bool.or_assoc]

section
variable {c : Char} (hc : IsFiller c)
include hc

theorem startsDocument_concat {t : Text} (h : startsDocument t = false) :
    startsDocument (t ++ [c]) = false := by
  have hk : ∀ k : Text, c ∉ k → (after? k t).isSome = false →
      (after? k (t ++ [c])).isSome = false := by
    intro k hk ht
    rw [Bool.eq_false_iff]
    intro hs
    obtain ⟨r,hr⟩ := Option.isSome_iff_exists.1 hs
    obtain ⟨u,hu⟩ := prefix_of_append hk ⟨r,(after?_eq_some_iff.1 hr).symm⟩
    rw [after?_eq_some_iff.2 hu.symm] at ht
    cases ht
  have hm : c ∉ "---".toList ∧ c ∉ "...".toList := by
    have h1 := hc.ne (d := '-') (by decide)
    have h2 := hc.ne (d := '.') (by decide)
    simp [h1,h2]
  rw [startsDocument,Bool.or_eq_false_iff] at h ⊢
  exact ⟨hk _ hm.1 h.1,hk _ hm.2 h.2⟩

variable (hb : isBreak c = false)
include hb

theorem hasIndicator_concat (t : Text) (before : Option Char) (h : hasIndicator before t = false) :
    hasIndicator before (t ++ [c]) = false := by
  induction t generalizing before with
  | nil =>
    have hm := hc.ne (d := ':') (by decide)
    have hs := hc.ne (d := '#') (by decide)
    simp [hasIndicator,hm,hs]
  | cons d t ih =>
    rw [hasIndicator,Bool.or_eq_false_iff,Bool.or_eq_false_iff] at h
    obtain ⟨⟨hm,hs⟩,ht⟩ := h
    rw [List.cons_append,hasIndicator,ih _ ht,hs]
    cases t with
    | nil => simp [hc.isGap hb]
    | cons e t => simpa using hm

theorem startsIndicated_concat {t : Text} (ht : t ≠ []) (h : startsIndicated t = false) :
    startsIndicated (t ++ [c]) = false := by
  obtain ⟨d,t,rfl⟩ := List.exists_cons_of_ne_nil ht
  rw [startsIndicated,Bool.or_eq_false_iff] at h
  rw [List.cons_append,startsIndicated,h.1]
  cases t with
  | nil => simp [hc.isGap hb]
  | cons e t => simpa using h.2

theorem plainAllowed_concat {t : Text} (ht : t ≠ []) (h : plainAllowed t = true) :
    plainAllowed (t ++ [c]) = true := by
  simp only [plainAllowed,Bool.and_eq_true,Bool.not_eq_true'] at h ⊢
  obtain ⟨⟨⟨⟨⟨⟨hh,-⟩,hk⟩,hs⟩,hd⟩,hi⟩,hn⟩ := h
  rw [hc.hasSpecial_concat,startsDocument_concat hc hd,startsIndicated_concat hc hb ht hi]
  obtain ⟨d,t,rfl⟩ := List.exists_cons_of_ne_nil ht
  refine ⟨⟨⟨⟨⟨⟨hh,?_⟩,?_⟩,hs⟩,rfl⟩,rfl⟩,hasIndicator_concat hc hb t _ hn⟩
  · rw [List.getLast?_concat]
    exact hc.visible
  · rw [List.any_append,hk]
    simp [hb]

theorem styleOf_plain_concat {t : Text} (h : styleOf t = .plain) :
    styleOf (t ++ [c]) = .plain := by
  obtain ⟨hn,ha,hp⟩ := not_contains_of_plain h
  have ht : t ≠ [] := by
    rintro rfl
    cases ha
  have hl : '\n' ≠ c := by
    rintro rfl
    cases hb
  have hm : (t ++ [c]).contains '\n' = false := by simp [hn,hl]
  have hu : isAmbiguous (t ++ [c]) = false := by
    rw [Bool.eq_false_iff]
    intro hu
    have hbl := unblank_of_isAmbiguous hu c (by simp)
    rw [hc.blank] at hbl
    cases hbl
  rw [styleOf,hm,hu,plainAllowed_concat hc hb ht hp]
  rfl

end

theorem styleOf_of_block {t : Text} (hn : '\n' ∈ t) (h : blockAllowed t = true) :
    styleOf t = .literal := by
  have hm : t.contains '\n' = true := by simpa using hn
  rw [styleOf,if_pos hm,if_pos h]

theorem blockAllowed_concat {t : Text} {c : Char} (h : blockAllowed t = true) (hc : IsFiller c) :
    blockAllowed (t ++ [c]) = true := by
  simp only [blockAllowed,Bool.and_eq_true,Bool.not_eq_true'] at h ⊢
  obtain ⟨⟨⟨-,hs⟩,hp⟩,hl⟩ := h
  refine ⟨⟨⟨by simp,by rw [hc.hasSpecial_concat,hs]⟩,?_⟩,?_⟩
  · rw [spaceBeforeBreak] at hp ⊢
    rw [hasPair_concat,hp,hl]
    rfl
  · rw [List.getLast?_concat]
    exact hc.visible

theorem blockAllowed_of_concat {s : Text} {c : Char} (hs : s ≠ []) (hc : isBreak c = true)
    (h : blockAllowed (s ++ [c]) = true) : blockAllowed s = true := by
  simp only [blockAllowed,Bool.and_eq_true,Bool.not_eq_true'] at h ⊢
  obtain ⟨⟨⟨-,hp⟩,hb⟩,-⟩ := h
  rw [spaceBeforeBreak,hasPair_concat,Bool.or_eq_false_iff,hc,Bool.and_true] at hb
  refine ⟨⟨⟨by simpa using hs,?_⟩,hb.1⟩,hb.2⟩
  rw [hasSpecial,List.any_append,Bool.or_eq_false_iff] at hp
  exact hp.1

theorem isFiller_of_blockAllowed {s : Text} {c : Char} (h : blockAllowed (s ++ [c]) = true)
    (hc : isBlank c = true) : IsFiller c := by
  simp only [blockAllowed,Bool.and_eq_true,Bool.not_eq_true'] at h
  obtain ⟨⟨⟨-,hp⟩,-⟩,hl⟩ := h
  rw [hasSpecial,List.any_append,Bool.or_eq_false_iff] at hp
  exact ⟨hc,by simpa using hp.2,by simpa using hl⟩

def keeping (s : Text) (c : Char) : Text :=
  if isBreak c then (if s.getLast?.all isBreak then ['+'] else []) else ['-']

theorem blockHint_concat (s : Text) (c : Char) : blockHint (s ++ [c]) =
    (if (s ++ [c]).head?.any fun c => isSpaceChar c || isBreak c then ['2'] else []) ++
      keeping s c := by
  rw [blockHint,List.reverse_append]
  congr 1
  rcases List.eq_nil_or_concat' s with rfl | ⟨r,d,rfl⟩
  · cases hc : isBreak c <;> simp [keeping,hc]
  · cases hc : isBreak c <;> simp [keeping,hc]

theorem keeping_cases (s : Text) (c : Char) : keeping (s ++ [c]) c = keeping s c ∨
    isBreak c = true ∧ ∃ r d, s = r ++ [d] ∧ isBreak d = false := by
  cases hc : isBreak c with
  | false => exact .inl (by simp [keeping,hc])
  | true =>
    rcases List.eq_nil_or_concat' s with rfl | ⟨r,d,rfl⟩
    · exact .inl (by simp [keeping,hc])
    · cases hd : isBreak d with
      | true => exact .inl (by simp [keeping,hc,hd])
      | false => exact .inr ⟨rfl,r,d,rfl,hd⟩

theorem head?_concat (s : Text) (d c : Char) : ((s ++ [d]) ++ [c]).head? = (s ++ [d]).head? := by
  cases s <;> rfl

theorem trimEnd_indented_concat {s : Text} {c : Char} (hc : isBlank c = true)
    (h : isBreak c = true ∨ s.getLast?.any (!isBreak ·) = true) (n : Nat) :
    trimEnd (indented n true (s ++ [c])) = trimEnd (indented n true s) := by
  have hm : (isBreak c || !s.getLast?.elim true isBreak) = true := by
    rw [Bool.or_eq_true]
    refine h.imp_right fun h => ?_
    cases hl : s.getLast? with
    | none => simp [hl] at h
    | some d => simpa [hl] using h
  rw [indented_concat,hm,if_pos rfl,List.nil_append]
  exact trimEnd_append_blanks _ (List.forall_mem_singleton.2 hc)

theorem trimEnd_indented_double (s : Text) {c : Char} (hc : isBlank c = true) (n : Nat) :
    trimEnd (indented n true ((s ++ [c]) ++ [c])) = trimEnd (indented n true (s ++ [c])) := by
  refine trimEnd_indented_concat hc ?_ n
  rw [List.getLast?_concat]
  cases hb : isBreak c <;> simp [hb]

/-- Two texts that trimming leaves alike at the end of any document. -/
def Twins (t u : Text) : Prop :=
  u ≠ t ∧ ∀ b n, trimEnd (b ++ scalar n u) = trimEnd (b ++ scalar n t)

theorem twins_of_blocks {t u : Text} (hn : u ≠ t) (ht : styleOf t = .literal)
    (hu : styleOf u = .literal) (hh : blockHint u = blockHint t)
    (hl : ∀ n, trimEnd (indented n true u) = trimEnd (indented n true t)) : Twins t u := by
  refine ⟨hn,fun b n => ?_⟩
  rw [scalar,scalar,ht,hu]
  change trimEnd (b ++ literalText n u) = trimEnd (b ++ literalText n t)
  have hp : ∀ x, b ++ ((['|'] ++ blockHint t) ++ ['\n'] ++ x) =
      (b ++ ((['|'] ++ blockHint t) ++ ['\n'])) ++ x := fun x => (List.append_assoc b _ x).symm
  rw [literalText,literalText,hh,hp,hp,← trimEnd_append_trimEnd,hl,trimEnd_append_trimEnd]

theorem twins_repeated {s : Text} {c : Char} (hs : styleOf (s ++ [c]) = .literal)
    (hc : isBlank c = true) (hk : keeping (s ++ [c]) c = keeping s c) :
    Twins (s ++ [c]) ((s ++ [c]) ++ [c]) := by
  obtain ⟨hn,ha⟩ := contains_of_literal hs
  have hu := blockAllowed_concat ha (isFiller_of_blockAllowed ha hc)
  refine twins_of_blocks (by simp) hs (styleOf_of_block (List.mem_append_left _ hn) hu) ?_
    (trimEnd_indented_double s hc)
  rw [blockHint_concat,blockHint_concat,hk,head?_concat]

/-- Behind a character that is no break, one break is as good as another; what stands in front may
differ in blanks at the end. -/
theorem twins_lineFeed {r s : Text} {c d : Char} (hn : (s ++ [d]) ++ ['\n'] ≠ (r ++ [d]) ++ [c])
    (ht : styleOf ((r ++ [d]) ++ [c]) = .literal) (hc : isBreak c = true) (hd : isBreak d = false)
    (ha : blockAllowed (s ++ [d]) = true) (hh : (s ++ [d]).head? = (r ++ [d]).head?)
    (hl : ∀ n, trimEnd (indented n true (s ++ [d])) = trimEnd (indented n true (r ++ [d]))) :
    Twins ((r ++ [d]) ++ [c]) ((s ++ [d]) ++ ['\n']) := by
  have hf : IsFiller '\n' := ⟨by decide,by decide,by decide⟩
  have hb : isBreak '\n' = true := by decide
  refine twins_of_blocks hn ht (styleOf_of_block (by simp) (blockAllowed_concat ha hf)) ?_
    fun n => ?_
  · rw [blockHint_concat,blockHint_concat,head?_concat,head?_concat,hh]
    simp [keeping,hb,hc,hd]
  · rw [trimEnd_indented_concat (by decide) (.inl hb),hl,
      trimEnd_indented_concat (isBlank_of_isBreak hc) (.inl hc)]

theorem exists_twin_of_literal {t : Text} (hs : styleOf t = .literal) (h : trailsOff t = true) :
    ∃ u, Twins t u := by
  obtain ⟨hn,ha⟩ := contains_of_literal hs
  rcases List.eq_nil_or_concat' t with rfl | ⟨s,c,rfl⟩
  · cases hn
  rw [trailsOff_concat] at h
  rcases keeping_cases s c with hk | ⟨hb,r,d,rfl,hd⟩
  · refine ⟨_,twins_repeated hs ?_ hk⟩
    split at h
    · rename_i hc
      rw [hc]
      decide
    · exact h
  · have hp := blockAllowed_of_concat (by simp) hb ha
    by_cases hl : c = '\n'
    · -- the blank in front of the line feed is repeated
      subst hl
      have hi : isBlank d = true := by simpa using h
      have hu := blockAllowed_concat hp (isFiller_of_blockAllowed hp hi)
      exact ⟨_,twins_lineFeed (by simp) hs hb hd hu (head?_concat r d d)
        (trimEnd_indented_double r hi)⟩
    · have hn : (r ++ [d]) ++ ['\n'] ≠ (r ++ [d]) ++ [c] := by simpa using Ne.symm hl
      exact ⟨_,twins_lineFeed hn hs hb hd hp rfl fun _ => rfl⟩

theorem twins_plain {s : Text} {c : Char} (hs : styleOf (s ++ [c]) = .plain)
    (hc : isBlank c = true) : Twins (s ++ [c]) ((s ++ [c]) ++ [c]) := by
  obtain ⟨-,-,hp⟩ := not_contains_of_plain hs
  simp only [plainAllowed,Bool.and_eq_true,Bool.not_eq_true',hasSpecial,List.any_append,
    Bool.or_eq_false_iff,List.getLast?_concat] at hp
  obtain ⟨⟨⟨⟨⟨⟨-,hv⟩,-,hb⟩,-,hi⟩,-⟩,-⟩,-⟩ := hp
  have hf : IsFiller c := ⟨hc,by simpa using hi,hv⟩
  refine ⟨by simp,fun b n => ?_⟩
  rw [scalar,scalar,styleOf_plain_concat hf (by simpa using hb) hs,hs]
  change trimEnd (b ++ ((s ++ [c]) ++ [c])) = trimEnd (b ++ (s ++ [c]))
  rw [← List.append_assoc]
  exact trimEnd_append_blanks _ (List.forall_mem_singleton.2 hc)

theorem exists_twin {t : Text} (h : fades t = true) : ∃ u, Twins t u := by
  rw [fades,Bool.and_eq_true] at h
  obtain ⟨hs,ht⟩ := h
  cases hp : styleOf t with
  | literal => exact exists_twin_of_literal hp ht
  | plain =>
    obtain ⟨hn,ha,-⟩ := not_contains_of_plain hp
    rcases List.eq_nil_or_concat' t with rfl | ⟨s,c,rfl⟩
    · cases ha
    · rw [trailsOff_concat,if_neg fun hc => hn (by simp [hc])] at ht
      exact ⟨_,twins_plain hp ht⟩
  | single => simp [hp] at hs
  | double => simp [hp] at hs

end Workbench.Yaml
