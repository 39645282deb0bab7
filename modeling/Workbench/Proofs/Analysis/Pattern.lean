import Workbench.Analysis.Security
import Workbench.Proofs.Text.Blank
set_option autoImplicit false

/-!
Patterns: what a rule looks for, said without saying how it is looked for. A part of a text belongs
to a pattern together with what stands on both sides of it, as the boundaries of words ask for both.
The readers of the rules never go back, so for each of them there is a lemma that says why nothing
is lost by that.
-/
namespace Workbench.Analysis
open Text Source

/-- The simple case folding of a character, where it is an ASCII letter. Two characters beyond ASCII
have one: the long s and the Kelvin sign. -/
def foldCase (c : Char) : Char :=
  if c = '\u017f' then 's' else if c = '\u212a' then 'k' else c.toLower

inductive Pattern where
  | lit (t : Text)
  | folded (t : Text)
  | one (p : Char → Bool)
  | many (p : Char → Bool)
  | boundary
  | seq (a b : Pattern)
  | alt (a b : Pattern)

namespace Pattern

instance : Append Pattern := ⟨.seq⟩
instance : OrOp Pattern := ⟨.alt⟩

def Boundary (before after : Text) : Prop :=
  before.getLast?.any isWordChar ≠ after.head?.any isWordChar

/-- In the text `before ++ s ++ after` the pattern describes the part `s`. -/
def Matches : Pattern → Text → Text → Text → Prop
  | .lit t,_,s,_ => s = t
  | .folded t,_,s,_ => s.map foldCase = t
  | .one p,_,s,_ => ∃ c, p c = true ∧ s = [c]
  | .many p,_,s,_ => ∀ c ∈ s, p c = true
  | .boundary,before,s,after => s = [] ∧ Boundary before after
  | .seq a b,before,s,after => ∃ s₁ s₂, s = s₁ ++ s₂ ∧ a.Matches before s₁ (s₂ ++ after) ∧
      b.Matches (before ++ s₁) s₂ after
  | .alt a b,before,s,after => a.Matches before s after ∨ b.Matches before s after

/-- Some part of the text belongs to the pattern. -/
def Occurs (p : Pattern) (t : Text) : Prop := ∃ u s v, t = u ++ s ++ v ∧ p.Matches u s v

/-- Behind `u`, the pattern describes a part that `t` starts with, and `k` holds of what is then
passed and of what is left. -/
def Then (p : Pattern) (u t : Text) (k : Text → Text → Prop) : Prop :=
  ∃ s v, t = s ++ v ∧ p.Matches u s v ∧ k (u ++ s) v

def Here (p : Pattern) (u t : Text) : Prop := p.Then u t fun _ _ => True

theorem occurs_iff (p : Pattern) (t : Text) : p.Occurs t ↔ ∃ u v, t = u ++ v ∧ p.Here u v := by
  constructor
  · rintro ⟨u,s,v,rfl,h⟩
    exact ⟨u,s ++ v,List.append_assoc ..,s,v,rfl,h,trivial⟩
  · rintro ⟨u,_,rfl,s,v,rfl,h,-⟩
    exact ⟨u,s,v,(List.append_assoc ..).symm,h⟩

section
variable {k : Text → Text → Prop} {test : Text → Bool}

theorem then_seq (p q : Pattern) (u t : Text) :
    (p ++ q).Then u t k ↔ p.Then u t fun u t => q.Then u t k := by
  constructor
  · rintro ⟨_,v,rfl,⟨s₁,s₂,rfl,h₁,h₂⟩,hk⟩
    refine ⟨s₁,s₂ ++ v,List.append_assoc ..,h₁,s₂,v,rfl,h₂,?_⟩
    rwa [List.append_assoc]
  · rintro ⟨s₁,_,rfl,h₁,s₂,v,rfl,h₂,hk⟩
    refine ⟨s₁ ++ s₂,v,(List.append_assoc ..).symm,⟨s₁,s₂,rfl,h₁,h₂⟩,?_⟩
    rwa [← List.append_assoc]

theorem then_alt (p q : Pattern) (u t : Text) :
    (p ||| q).Then u t k ↔ p.Then u t k ∨ q.Then u t k := by
  constructor
  · rintro ⟨s,v,ht,h | h,hk⟩
    · exact .inl ⟨s,v,ht,h,hk⟩
    · exact .inr ⟨s,v,ht,h,hk⟩
  · rintro (⟨s,v,ht,h,hk⟩ | ⟨s,v,ht,h,hk⟩)
    · exact ⟨s,v,ht,.inl h,hk⟩
    · exact ⟨s,v,ht,.inr h,hk⟩

theorem then_lit {w u : Text} (h : ∀ v, k (u ++ w) v ↔ test v = true) (t : Text) :
    (lit w).Then u t k ↔ (after? w t).any test = true := by
  rw [Option.any_eq_true]
  constructor
  · rintro ⟨_,v,rfl,rfl,hk⟩
    exact ⟨v,after?_eq_some_iff.2 rfl,(h v).1 hk⟩
  · rintro ⟨v,hv,hk⟩
    exact ⟨w,v,after?_eq_some_iff.1 hv,rfl,(h v).2 hk⟩

theorem then_one (h : ∀ u v, k u v ↔ test v = true) (p : Char → Bool) (u t : Text) :
    (one p).Then u t k ↔ (one? p t).any test = true := by
  constructor
  · rintro ⟨_,v,rfl,⟨c,hc,rfl⟩,hk⟩
    simpa [one?,hc] using (h _ v).1 hk
  · cases t with
    | nil => simp [one?]
    | cons c v =>
      intro ht
      by_cases hc : p c = true
      · simp only [one?,hc,if_true,Option.any_some] at ht
        exact ⟨[c],v,rfl,⟨c,hc,rfl⟩,(h _ v).2 ht⟩
      · simp [one?,hc] at ht

theorem here_one (p : Char → Bool) (u t : Text) : (one p).Here u t ↔ (one? p t).isSome = true := by
  have h : ∀ _ _ : Text, True ↔ (fun _ => true) ([] : Text) = true := by simp
  rw [Here,then_one h]
  cases one? p t <;> simp

theorem then_many (h : ∀ u v, k u v ↔ test v = true) (stop : Char → Bool) (u t : Text) :
    (many fun c => !stop c).Then u t k ↔ within stop test t = true := by
  induction t generalizing u with
  | nil =>
    rw [within,← h u]
    constructor
    · rintro ⟨s,v,ht,-,hk⟩
      obtain ⟨rfl,rfl⟩ := List.append_eq_nil_iff.1 ht.symm
      simpa using hk
    · exact fun hk => ⟨[],[],rfl,by simp [Matches],by simpa using hk⟩
  | cons c t ih =>
    rw [within,Bool.or_eq_true,Bool.and_eq_true,← ih (u ++ [c]),← h u]
    constructor
    · rintro ⟨s,v,ht,hs,hk⟩
      cases s with
      | nil =>
        left
        rw [List.nil_append] at ht
        rw [ht]
        simpa using hk
      | cons d s =>
        obtain ⟨rfl,rfl⟩ := List.cons_eq_cons.1 ht
        right
        exact ⟨hs _ List.mem_cons_self,s,v,rfl,fun e he => hs e (List.mem_cons_of_mem _ he),
          by simpa using hk⟩
    · rintro (hk | ⟨hc,s,v,rfl,hs,hk⟩)
      · exact ⟨[],c :: t,rfl,by simp [Matches],by simpa using hk⟩
      · refine ⟨c :: s,v,rfl,fun e he => ?_,by simpa using hk⟩
        rcases List.mem_cons.1 he with rfl | he
        · exact hc
        · exact hs e he

/-- A run can be passed at once if what follows starts with no character of its kind. -/
theorem then_run {p : Char → Bool} (h : ∀ u v, k u v ↔ test v = true)
    (hp : ∀ c v, p c = true → test (c :: v) = false) (u t : Text) :
    (many p).Then u t k ↔ test (t.dropWhile p) = true := by
  constructor
  · rintro ⟨s,v,rfl,hs,hk⟩
    have hv : v.head?.any p = false := by
      cases v with
      | nil => rfl
      | cons c v =>
        cases hc : p c with
        | false => exact hc
        | true =>
          have ht := (h _ _).1 hk
          simp [hp c v hc] at ht
    rw [List.dropWhile_append_of_pos hs,dropWhile_of_head hv]
    exact (h _ v).1 hk
  · intro ht
    exact ⟨t.takeWhile p,t.dropWhile p,List.takeWhile_append_dropWhile.symm,
      List.all_eq_true.1 List.all_takeWhile,(h _ _).2 ht⟩

theorem then_blanks (h : ∀ u v, k u v ↔ test v = true)
    (hb : ∀ c v, isBlank c = true → test (c :: v) = false) (u t : Text) :
    (many isBlank).Then u t k ↔ test (trimStart t) = true := then_run h hb u t

theorem then_some_blanks (h : ∀ u v, k u v ↔ test v = true)
    (hb : ∀ c v, isBlank c = true → test (c :: v) = false) (u t : Text) :
    (one isBlank ++ many isBlank).Then u t k ↔ (blanks? t).any test = true := by
  rw [then_seq,then_one (then_blanks h hb)]
  cases t with
  | nil => rfl
  | cons c t => cases hc : isBlank c <;> simp [one?,blanks?,hc]

theorem edge_eq (o : Option Char) : edge o = !o.any isWordChar := by cases o <;> rfl

theorem then_boundary (u t : Text) : boundary.Then u t k ↔ Boundary u t ∧ k u t := by
  constructor
  · rintro ⟨_,v,rfl,⟨rfl,h⟩,hk⟩
    exact ⟨h,by simpa using hk⟩
  · rintro ⟨h,hk⟩
    exact ⟨[],t,rfl,⟨rfl,h⟩,by simpa using hk⟩

theorem boundary_and_iff {u t : Text} (h : k u t ↔ test t = true)
    (ht : test t = true → t.head?.any isWordChar = true) :
    boundary.Then u t k ↔ (edge u.getLast? && test t) = true := by
  rw [then_boundary,h,Bool.and_eq_true,edge_eq,Boundary]
  refine and_congr_left fun hv => ?_
  rw [ht hv]
  simp

theorem here_boundary {u : Text} (h : u.getLast?.any isWordChar = true) (t : Text) :
    boundary.Here u t ↔ edge t.head? = true := by
  rw [Here,then_boundary,edge_eq,Boundary,h]
  simp

end
end Pattern
end Workbench.Analysis
