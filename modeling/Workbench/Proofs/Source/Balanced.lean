import Workbench.Source.Outline
set_option autoImplicit false

/-!
Text whose brackets and strings are in order. The scanner that looks for the closing parenthesis
comes out of it as it went in. Where it stops at all, it stops at the first parenthesis that closes
nothing before it.
-/
namespace Workbench.Source
open Text

/-- What stands between two quotes `q`: a backslash takes the next character along. -/
inductive StringBody (q : Char) : Text → Prop where
  | nil : StringBody q []
  | plain {c : Char} {t : Text} (he : c ≠ '\\') (hq : c ≠ q) (h : StringBody q t) :
    StringBody q (c :: t)
  | escaped {c : Char} {t : Text} (h : StringBody q t) : StringBody q ('\\' :: c :: t)

def closing (c : Char) : Char := if c == '(' then ')' else if c == '[' then ']' else '\x7d'

/-- Brackets nest and strings are closed. Commas stand inside brackets and strings, elsewhere only
if `commas` allows them. -/
inductive Balanced : Bool → Text → Prop where
  | nil {commas : Bool} : Balanced commas []
  | plain {commas : Bool} {c : Char} {t : Text} (hq : isQuote c = false) (ho : isOpening c = false)
    (hc : isClosing c = false) (hm : c = ',' → commas = true) (h : Balanced commas t) :
    Balanced commas (c :: t)
  | bracket {commas : Bool} {c : Char} {inner t : Text} (ho : isOpening c = true)
    (hi : Balanced true inner) (h : Balanced commas t) :
    Balanced commas (c :: (inner ++ closing c :: t))
  | string {commas : Bool} {q : Char} {inner t : Text} (hq : isQuote q = true)
    (hi : StringBody q inner) (h : Balanced commas t) : Balanced commas (q :: (inner ++ q :: t))

namespace Balanced

theorem weaken {commas : Bool} {t : Text} (h : Balanced commas t) : Balanced true t := by
  induction h with
  | nil => exact .nil
  | plain hq ho hc _ _ ih => exact .plain hq ho hc (fun _ => rfl) ih
  | bracket ho hi _ _ ih => exact .bracket ho hi ih
  | string hq hi _ ih => exact .string hq hi ih

theorem append {commas : Bool} {t u : Text} (h : Balanced commas t) (hu : Balanced commas u) :
    Balanced commas (t ++ u) := by
  induction h with
  | nil => exact hu
  | plain hq ho hc hm _ ih => exact .plain hq ho hc hm (ih hu)
  | bracket ho hi _ _ ih => simpa using Balanced.bracket ho hi (ih hu)
  | string hq hi _ ih => simpa using Balanced.string hq hi (ih hu)

end Balanced

theorem isOpening_cases {c : Char} (h : isOpening c = true) : c = '(' ∨ c = '[' ∨ c = '\x7b' := by
  simpa [isOpening,or_assoc] using h

theorem isQuote_of_isOpening {c : Char} (h : isOpening c = true) : isQuote c = false := by
  rcases isOpening_cases h with rfl | rfl | rfl <;> decide

theorem isClosing_closing {c : Char} (h : isOpening c = true) :
    isClosing (closing c) = true ∧ isOpening (closing c) = false ∧ isQuote (closing c) = false := by
  rcases isOpening_cases h with rfl | rfl | rfl <;> decide

theorem ne_of_isClosing {c : Char} (h : isClosing c = false) : (c == ')') = false := by
  rw [beq_eq_false_iff_ne]
  rintro rfl
  exact absurd h (by decide)

theorem outside_plain {c : Char} (hq : isQuote c = false) (ho : isOpening c = false)
    (hc : isClosing c = false) (s : Nesting) : s.outside c = s := by
  simp [Nesting.outside,hq,ho,hc]

theorem outside_opening {c : Char} (h : isOpening c = true) (d : Nat) (e : Bool) :
    Nesting.outside ⟨d,none,e⟩ c = ⟨d+1,none,e⟩ := by
  simp [Nesting.outside,isQuote_of_isOpening h,h]

theorem outside_closing {c : Char} (h : isOpening c = true) (d : Nat) (e : Bool) :
    Nesting.outside ⟨d+1,none,e⟩ (closing c) = ⟨d,none,e⟩ := by
  obtain ⟨hc,ho,hq⟩ := isClosing_closing h
  simp [Nesting.outside,hc,ho,hq]

theorem enclosedFrom_string {q : Char} {t : Text} (h : StringBody q t) (hq : isQuote q = true)
    (d : Nat) (rest : Text) : enclosedFrom ⟨d,some q,false⟩ (t ++ q :: rest) =
      (enclosedFrom ⟨d,none,false⟩ rest).map (fun r => t ++ q :: r) := by
  have hn : q ≠ '\\' := by
    rintro rfl
    exact absurd hq (by decide)
  induction h with
  | nil => simp [enclosedFrom,Nesting.isTop,Nesting.step,hn]
  | plain he hc _ ih => simp [enclosedFrom,Nesting.isTop,Nesting.step,he,hc,ih,Function.comp_def]
  | escaped _ ih => simp [enclosedFrom,Nesting.isTop,Nesting.step,ih,Function.comp_def]

/-- A text in order leaves the scanner as it was, and is part of what the scanner encloses. -/
theorem enclosedFrom_balanced {commas : Bool} {t : Text} (h : Balanced commas t) (d : Nat)
    (rest : Text) : enclosedFrom ⟨d,none,false⟩ (t ++ rest) =
      (enclosedFrom ⟨d,none,false⟩ rest).map (t ++ ·) := by
  -- Between two brackets the depth is one more, so that a parenthesis there closes nothing else.
  induction h generalizing d rest with
  | nil => simp
  | plain hq ho hc _ _ ih =>
    simp [enclosedFrom,ne_of_isClosing hc,Nesting.step,outside_plain hq ho hc,ih,
      Function.comp_def]
  | @bracket _ c inner t ho _ _ hi ih =>
    have hn : (c == ')') = false := by
      rcases isOpening_cases ho with rfl | rfl | rfl <;> decide
    simp [enclosedFrom,hn,Nesting.step,Nesting.isTop,outside_opening ho,outside_closing ho,hi,ih,
      Function.comp_def]
  | @string _ q inner t hq hi _ ih =>
    have hn : (q == ')') = false := by
      rw [beq_eq_false_iff_ne]
      rintro rfl
      exact absurd hq (by decide)
    simp [enclosedFrom,hn,Nesting.step,Nesting.outside,hq,enclosedFrom_string hi hq,ih,
      Function.comp_def]

theorem eq_of_enclosedFrom {s : Nesting} {r p : Text} (h : enclosedFrom s r = some p) :
    ∃ t, r = p ++ ')' :: t := by
  induction r generalizing s p with
  | nil => cases h
  | cons c r ih =>
    rw [enclosedFrom] at h
    split at h
    · rename_i hc
      simp only [Bool.and_eq_true,beq_iff_eq] at hc
      cases h
      exact ⟨r,by rw [hc.2]; rfl⟩
    · obtain ⟨p,hp,rfl⟩ := Option.map_eq_some_iff.1 h
      obtain ⟨t,rfl⟩ := ih hp
      exact ⟨t,rfl⟩

theorem enclosedFrom_append {s : Nesting} {r p : Text} (h : enclosedFrom s r = some p) (t : Text) :
    enclosedFrom s (r ++ t) = some p := by
  induction r generalizing s p with
  | nil => cases h
  | cons c r ih =>
    rw [enclosedFrom] at h
    rw [List.cons_append,enclosedFrom]
    split at h
    · rename_i hc
      rw [if_pos hc,h]
    · rename_i hc
      obtain ⟨p,hp,rfl⟩ := Option.map_eq_some_iff.1 h
      rw [if_neg hc,ih hp,Option.map_some]

theorem enclosed_extends {q r p : Text} (hq : q <+: r) (h : enclosed? q = some p) :
    enclosed? r = some p := by
  obtain ⟨t,rfl⟩ := hq
  exact enclosedFrom_append h t

/-- A text in order is what the next parenthesis closes, whatever follows. What is found always stands
in front of a parenthesis, and neither a part of it nor a part of a text where nothing is found has
anything to find. -/
theorem enclosed_matching :
    (∀ p t, Balanced true p → enclosed? (p ++ ')' :: t) = some p) ∧
    (∀ r p, enclosed? r = some p →
      (∃ t, r = p ++ ')' :: t) ∧ ∀ q, q <+: p → enclosed? q = none) ∧
    ∀ r, enclosed? r = none → ∀ q, q <+: r → enclosed? q = none := by
  refine ⟨fun p t hp => ?_,fun r p h => ?_,fun r h q hq => ?_⟩
  · have ht : enclosedFrom ⟨0,none,false⟩ (')' :: t) = some [] := rfl
    rw [enclosed?,Nesting.start,enclosedFrom_balanced hp,ht,Option.map_some,List.append_nil]
  · obtain ⟨t,ht⟩ := eq_of_enclosedFrom h
    refine ⟨⟨t,ht⟩,fun q hq => Option.eq_none_iff_forall_ne_some.2 fun w hw => ?_⟩
    -- What is found in a prefix is found in the whole text, but it is shorter than the prefix.
    have hp : p <+: r := ⟨')' :: t,ht.symm⟩
    have he : some w = some p := (enclosed_extends (hq.trans hp) hw).symm.trans h
    obtain ⟨u,rfl⟩ := eq_of_enclosedFrom hw
    have hl := hq.length_le
    rw [Option.some.inj he] at hl
    simp only [List.length_append,List.length_cons] at hl
    omega
  · refine Option.eq_none_iff_forall_ne_some.2 fun w hw => ?_
    rw [enclosed_extends hq hw] at h
    cases h

end Workbench.Source
