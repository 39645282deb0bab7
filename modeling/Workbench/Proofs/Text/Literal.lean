import Workbench.Proofs.Text.Blank
import Workbench.Text.Literal
set_option autoImplicit false

/-!
What the small readers take: what stands in front of a text at the end, blanks, and identifiers.
-/
namespace Workbench.Text

theorem before?_eq_some_iff {k t r : Text} : before? k t = some r ↔ t = r ++ k := by
  constructor
  · intro h
    obtain ⟨u,hu,rfl⟩ := Option.map_eq_some_iff.1 h
    have e := congrArg List.reverse (after?_eq_some_iff.1 hu)
    simpa using e
  · rintro rfl
    have h : after? k.reverse (r ++ k).reverse = some r.reverse :=
      after?_eq_some_iff.2 List.reverse_append
    rw [before?,h,Option.map_some,List.reverse_reverse]

theorem after?_isSome_iff {k t : Text} : (after? k t).isSome = true ↔ k <+: t := by
  rw [Option.isSome_iff_exists]
  exact exists_congr fun r => after?_eq_some_iff.trans eq_comm

theorem endsWith_iff {k t : Text} : endsWith k t = true ↔ ∃ r, t = r ++ k := by
  rw [endsWith,Option.isSome_iff_exists]
  constructor
  · rintro ⟨u,hu⟩
    exact ⟨u.reverse,before?_eq_some_iff.1 (by rw [before?,hu]; rfl)⟩
  · rintro ⟨r,rfl⟩
    exact ⟨r.reverse,after?_eq_some_iff.2 List.reverse_append⟩

theorem map_before? (k t : Text) : (before? k t).map (· ++ k) = Option.guard (endsWith k) t := by
  cases hb : before? k t with
  | none =>
    have he : endsWith k t = false := by
      rw [endsWith,← Option.isSome_map (f := List.reverse),← before?,hb]
      rfl
    simp [Option.guard,he]
  | some r =>
    obtain rfl := before?_eq_some_iff.1 hb
    have he : endsWith k (r ++ k) = true := endsWith_iff.2 ⟨r,rfl⟩
    simp [Option.guard,he]

theorem one?_eq_some_iff {p : Char → Bool} {t r : Text} :
    one? p t = some r ↔ ∃ c, p c = true ∧ t = c :: r := by
  cases t with
  | nil => simp [one?]
  | cons c t =>
    rw [one?]
    constructor
    · intro h
      split at h
      · rename_i hc
        exact ⟨c,hc,by rw [Option.some.inj h]⟩
      · simp at h
    · rintro ⟨d,hd,h⟩
      obtain ⟨rfl,rfl⟩ := List.cons_eq_cons.1 h
      rw [if_pos hd]

theorem prefix_of_append {k t u : Text} {c : Char} (hc : c ∉ k) (h : k <+: t ++ c :: u) :
    k <+: t := by
  obtain ⟨r,h⟩ := h
  obtain ⟨a,ha,-⟩ | ⟨a,rfl,hr⟩ := List.append_eq_append_iff.1 h
  · exact ⟨a,ha.symm⟩
  · cases a with
    | nil => simp
    | cons d a => simp [(List.cons_eq_cons.1 hr).1] at hc

theorem infix_append {k t u : Text} {c : Char} (hc : c ∉ k) (h : k <:+: t ++ c :: u) :
    k <:+: t ∨ k <:+: u := by
  induction t with
  | nil =>
    rcases List.infix_cons_iff.1 h with h | h
    · exact .inl (prefix_of_append (t := []) hc h).isInfix
    · exact .inr h
  | cons d t ih =>
    rcases List.infix_cons_iff.1 h with h | h
    · exact .inl (prefix_of_append (t := d :: t) hc h).isInfix
    · exact (ih h).imp_left fun h => List.infix_cons h

section
variable {p : Char → Bool} {x : Char} (hx : p x = false) (t c : Text)
include hx

theorem one?_stop : one? p (t ++ x :: c) = (one? p t).map (· ++ x :: c) := by
  cases t with
  | nil => simp [one?,hx]
  | cons d t => cases hd : p d <;> simp [one?,hd]

theorem takeWhile_stop : (t ++ x :: c).takeWhile p = t.takeWhile p := by
  induction t with
  | nil => simp [hx]
  | cons d t ih => cases hd : p d <;> simp [hd,ih]

theorem dropWhile_stop : (t ++ x :: c).dropWhile p = t.dropWhile p ++ x :: c := by
  induction t with
  | nil => simp [hx]
  | cons d t ih => cases hd : p d <;> simp [hd,ih]

end

theorem eq_of_first {p : Char → Bool} {a b u v : Text} {c d : Char} (h : a ++ c :: u = b ++ d :: v)
    (ha : ∀ e ∈ a, p e = false) (hb : ∀ e ∈ b, p e = false) (hc : p c = true) (hd : p d = true) :
    a = b ∧ c = d ∧ u = v := by
  have ht : ∀ {a : Text} {c : Char} (u : Text), (∀ e ∈ a, p e = false) → p c = true →
      (a ++ c :: u).takeWhile (fun e => !p e) = a := by
    intro a c u ha hc
    rw [List.takeWhile_append_of_pos fun e he => by simp [ha e he],takeWhile_of_head (by simp [hc]),
      List.append_nil]
  have he : a = b := by rw [← ht u ha hc,h,ht v hb hd]
  subst he
  obtain ⟨hc,hu⟩ := List.cons_eq_cons.1 (List.append_cancel_left h)
  exact ⟨rfl,hc,hu⟩

theorem behind_of_first {p : Char → Bool} {a b t u : Text} {d : Char} (h : a ++ t = b ++ d :: u)
    (ha : ∀ c ∈ a, p c = false) (hd : p d = true) : ∃ e, b = a ++ e ∧ t = e ++ d :: u := by
  rcases List.append_eq_append_iff.1 h with ⟨e,rfl,rfl⟩ | ⟨e,rfl,he⟩
  · exact ⟨e,rfl,rfl⟩
  · cases e with
    | nil => exact ⟨[],by simp,he.symm⟩
    | cons c e =>
      obtain ⟨rfl,-⟩ := List.cons_eq_cons.1 he
      rw [ha d (by simp)] at hd
      cases hd

theorem after?_cons (a : Char) (k t : Text) :
    after? (a :: k) t = (one? (· == a) t).bind (after? k) := by
  cases t with
  | nil => rfl
  | cons c t => by_cases h : a = c <;> simp [after?,one?,h,@eq_comm _ c a]

theorem after?_stop {k : Text} {x : Char} (hx : x ∉ k) (t c : Text) :
    after? k (t ++ x :: c) = (after? k t).map (· ++ x :: c) := by
  induction k generalizing t with
  | nil => rfl
  | cons a k ih =>
    obtain ⟨ha,hk⟩ : x ≠ a ∧ x ∉ k := by simpa using hx
    rw [after?_cons,after?_cons,one?_stop (by simpa using ha)]
    cases one? (· == a) t with
    | none => rfl
    | some t => exact ih hk t

def SomeBlanks (t : Text) : Prop := t ≠ [] ∧ ∀ c ∈ t, isBlank c = true

theorem blanks?_eq_some {t r : Text} (h : blanks? t = some r) :
    ∃ b, SomeBlanks b ∧ t = b ++ r ∧ r.head?.any isBlank = false := by
  cases t with
  | nil => simp [blanks?] at h
  | cons c t =>
    cases hc : isBlank c with
    | false => simp [blanks?,hc] at h
    | true =>
      obtain ⟨b,hb,ht,hr⟩ := exists_trimStart t
      simp only [blanks?,hc,if_true,Option.some.injEq] at h
      subst h
      refine ⟨c :: b,⟨List.cons_ne_nil _ _,fun d hd => ?_⟩,congrArg (c :: ·) ht,hr⟩
      rcases List.mem_cons.1 hd with rfl | hd
      · exact hc
      · exact hb d hd

theorem SomeBlanks.exists_cons {b : Text} (h : SomeBlanks b) :
    ∃ c d, b = c :: d ∧ isBlank c = true ∧ ∀ e ∈ d, isBlank e = true := by
  obtain ⟨c,d,rfl⟩ := List.exists_cons_of_ne_nil h.1
  exact ⟨c,d,rfl,h.2 c List.mem_cons_self,fun e he => h.2 e (List.mem_cons_of_mem _ he)⟩

theorem blanks?_append {b r : Text} (hb : SomeBlanks b) (hr : r.head?.any isBlank = false) :
    blanks? (b ++ r) = some r := by
  obtain ⟨c,d,rfl,hc,hd⟩ := hb.exists_cons
  have ht : trimStart (d ++ r) = r := by
    rw [trimStart,List.dropWhile_append_of_pos hd,dropWhile_of_head hr]
  rw [List.cons_append,blanks?,if_pos hc,ht]

theorem isIdentPart_of_isIdentStart {c : Char} (h : isIdentStart c = true) :
    isIdentPart c = true := by
  simp only [isIdentStart,Bool.or_eq_true,beq_iff_eq] at h
  rcases h with h | h <;> simp [isIdentPart,Char.isAlphanum,h]

/-- A letter or a low line, and letters, digits and low lines behind it. -/
def IsIdent (n : Text) : Prop :=
  n.head?.any isIdentStart = true ∧ ∀ c ∈ n, isIdentPart c = true

instance (n : Text) : Decidable (IsIdent n) :=
  inferInstanceAs (Decidable (_ = true ∧ ∀ c ∈ n, isIdentPart c = true))

theorem IsIdent.exists_cons {n : Text} (h : IsIdent n) : ∃ c d, n = c :: d ∧
    isIdentStart c = true ∧ ∀ e ∈ d, isIdentPart e = true := by
  cases n with
  | nil => exact absurd h.1 (by simp)
  | cons c d => exact ⟨c,d,rfl,by simpa using h.1,fun e he => h.2 e (List.mem_cons_of_mem _ he)⟩

theorem ident?_eq_some_iff {t n r : Text} :
    ident? t = some (n,r) ↔ t = n ++ r ∧ IsIdent n ∧ r.head?.any isIdentPart = false := by
  constructor
  · intro h
    cases t with
    | nil => simp [ident?] at h
    | cons c t =>
      rw [ident?] at h
      split at h
      · rename_i hc
        obtain ⟨rfl,rfl⟩ := Prod.mk.inj (Option.some.inj h)
        obtain ⟨l,r,rfl,hl,hr,hp,hh⟩ := exists_span isIdentPart t
        rw [hl,hr]
        exact ⟨rfl,⟨by simpa using hc,
          List.forall_mem_cons.2 ⟨isIdentPart_of_isIdentStart hc,hp⟩⟩,hh⟩
      · simp at h
  · rintro ⟨rfl,hn,hr⟩
    obtain ⟨c,d,rfl,hc,hd⟩ := hn.exists_cons
    rw [List.cons_append,ident?,if_pos hc,List.takeWhile_append_of_pos hd,
      List.dropWhile_append_of_pos hd,dropWhile_of_head hr]
    cases r with
    | nil => simp
    | cons e r =>
      have he : isIdentPart e = false := by simpa using hr
      simp [he]

end Workbench.Text
