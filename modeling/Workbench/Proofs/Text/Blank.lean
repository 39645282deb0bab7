import Workbench.Text.Blank
import Workbench.Text.WordChars
set_option autoImplicit false

/-!
Trimming leaves alone what neither starts nor ends with a blank, and never makes a text longer. No
blank is part of a word, while all that an identifier is made of is.
-/
namespace Workbench.Text

/-- What holds for all characters of a text is decided by going through the text, not through all
the characters that there are. -/
instance (t : Text) (p : Char → Prop) [DecidablePred p] : Decidable (∀ c ∈ t, p c) :=
  List.decidableBAll p t

theorem trim_of_not_blank {t : Text} (h : ∀ c ∈ t, isBlank c = false) : trim t = t := by
  have hs : ∀ {s : Text}, (∀ c ∈ s, isBlank c = false) → s.dropWhile isBlank = s := by
    intro s hs
    cases s with
    | nil => rfl
    | cons c s => simp [hs c (by simp)]
  have e : trimStart t = t := hs h
  rw [trim,e,trimEnd,hs (fun c hc => h c (List.mem_reverse.1 hc)),List.reverse_reverse]

abbrev Blanks (t : Text) : Prop := ∀ c ∈ t, isBlank c = true

abbrev Unblank (t : Text) : Prop := ∀ c ∈ t, isBlank c = false

theorem unblank_append {t u : Text} (ht : Unblank t) (hu : Unblank u) : Unblank (t ++ u) :=
  List.forall_mem_append.2 ⟨ht,hu⟩

theorem unblank_cons {c : Char} {t : Text} (hc : isBlank c = false) (ht : Unblank t) :
    Unblank (c :: t) :=
  List.forall_mem_cons.2 ⟨hc,ht⟩

theorem trimEnd_append_blanks (t : Text) {b : Text} (hb : Blanks b) :
    trimEnd (t ++ b) = trimEnd t := by
  have hr : ∀ c ∈ b.reverse, isBlank c = true := fun c hc => hb c (List.mem_reverse.1 hc)
  rw [trimEnd,List.reverse_append,List.dropWhile_append_of_pos hr]
  rfl

theorem trim_append_blanks (t : Text) {b : Text} (hb : Blanks b) : trim (t ++ b) = trim t := by
  rw [trim,trim,trimStart,trimStart,List.dropWhile_append]
  split
  · rename_i h
    rw [List.isEmpty_iff.1 h,← List.append_nil b,List.dropWhile_append_of_pos hb]
    rfl
  · exact trimEnd_append_blanks _ hb

theorem trim_blanks_append {b : Text} (hb : Blanks b) (t : Text) : trim (b ++ t) = trim t := by
  rw [trim,trimStart,List.dropWhile_append_of_pos hb]
  rfl

theorem trim_eq_nil_iff (t : Text) : trim t = [] ↔ allBlank t = true := by
  rw [trim,trimEnd_eq_nil_iff]
  induction t with
  | nil => exact Iff.rfl
  | cons c t ih =>
    by_cases h : isBlank c = true
    · have e : trimStart (c :: t) = trimStart t := by simp [trimStart,h]
      rw [e,ih]
      simp [allBlank,h]
    · have e : trimStart (c :: t) = c :: t := by simp [trimStart,h]
      rw [e]

theorem length_trimEnd_le (t : Text) : (trimEnd t).length ≤ t.length := by
  have h := (List.dropWhile_sublist isBlank (l := t.reverse)).length_le
  rw [List.length_reverse] at h
  rw [trimEnd,List.length_reverse]
  exact h

theorem length_trim_le (t : Text) : (trim t).length ≤ t.length :=
  Nat.le_trans (length_trimEnd_le _) (List.dropWhile_sublist _).length_le

theorem head_of_trim {c : Char} {t : Text} (h : trim (c :: t) = c :: t) : isBlank c = false := by
  cases hb : isBlank c with
  | false => rfl
  | true =>
    have e : trimStart (c :: t) = trimStart t := by simp [trimStart,hb]
    have hl := length_trim_le t
    rw [trim,← e,← trim,h,List.length_cons] at hl
    omega

theorem trim_append_cons {c d : Char} {t u : Text} (hc : isBlank c = false)
    (hd : isBlank d = false) : ∃ e, trim (c :: (t ++ d :: u)) = c :: (t ++ d :: e) := by
  have hs : trimStart (c :: (t ++ d :: u)) = c :: (t ++ d :: u) := by simp [trimStart,hc]
  have hr : (c :: (t ++ d :: u)).reverse = u.reverse ++ d :: (t.reverse ++ [c]) := by simp
  rw [trim,hs,trimEnd,hr,List.dropWhile_append]
  split
  · exact ⟨[],by simp [hd]⟩
  · exact ⟨(u.reverse.dropWhile isBlank).reverse,by simp⟩

theorem trimEnd_cons {c : Char} (hc : isBlank c = false) (t : Text) :
    trimEnd (c :: t) = c :: trimEnd t := by
  rw [trimEnd,trimEnd,List.reverse_cons,List.dropWhile_append]
  split
  · rename_i h
    simp [hc,List.isEmpty_iff.1 h]
  · simp

theorem trimEnd_append {k : Text} (hk : ∀ c ∈ k, isBlank c = false) (t : Text) :
    trimEnd (k ++ t) = k ++ trimEnd t := by
  induction k with
  | nil => rfl
  | cons c k ih =>
    rw [List.cons_append,trimEnd_cons (hk c List.mem_cons_self),
      ih fun d hd => hk d (List.mem_cons_of_mem _ hd),List.cons_append]

theorem dropWhile_of_head {p : Char → Bool} {t : Text} (h : t.head?.any p = false) :
    t.dropWhile p = t := by
  cases t with
  | nil => rfl
  | cons c t =>
    have hc : p c = false := by simpa using h
    simp [hc]

theorem takeWhile_of_head {p : Char → Bool} {t : Text} (h : t.head?.any p = false) :
    t.takeWhile p = [] := by
  cases t with
  | nil => rfl
  | cons c t =>
    have hc : p c = false := by simpa using h
    simp [hc]

theorem trimStart_of_head {t : Text} (h : t.head?.any isBlank = false) : trimStart t = t :=
  dropWhile_of_head h

theorem exists_span (p : Char → Bool) (t : Text) : ∃ l r, t = l ++ r ∧ t.takeWhile p = l ∧
    t.dropWhile p = r ∧ (∀ c ∈ l, p c = true) ∧ r.head?.any p = false := by
  refine ⟨t.takeWhile p,t.dropWhile p,List.takeWhile_append_dropWhile.symm,rfl,rfl,
    List.all_eq_true.1 List.all_takeWhile,?_⟩
  cases h : (t.dropWhile p).head? with
  | none => rfl
  | some c => simpa [h] using List.head?_dropWhile_not p t

theorem exists_trimStart (t : Text) : ∃ b, (∀ c ∈ b, isBlank c = true) ∧ t = b ++ trimStart t ∧
    (trimStart t).head?.any isBlank = false := by
  obtain ⟨b,r,ht,-,rfl,hb,hr⟩ := exists_span isBlank t
  exact ⟨b,hb,ht,hr⟩

theorem exists_trimEnd (t : Text) : ∃ b, (∀ c ∈ b, isBlank c = true) ∧ t = trimEnd t ++ b := by
  obtain ⟨b,hb,ht,-⟩ := exists_trimStart t.reverse
  refine ⟨b.reverse,fun c hc => hb c (List.mem_reverse.1 hc),?_⟩
  simpa [trimEnd,trimStart] using congrArg List.reverse ht

theorem trimEnd_append_trimEnd (s t : Text) : trimEnd (s ++ trimEnd t) = trimEnd (s ++ t) := by
  obtain ⟨b,hb,ht⟩ := exists_trimEnd t
  have h := trimEnd_append_blanks (s ++ trimEnd t) hb
  rw [List.append_assoc,← ht] at h
  exact h.symm

theorem head_trimEnd (t : Text) : trimEnd t = [] ∨ (trimEnd t).head? = t.head? := by
  obtain ⟨b,-,ht⟩ := exists_trimEnd t
  cases h : trimEnd t with
  | nil => exact .inl rfl
  | cons c u =>
    right
    rw [ht,h]
    rfl

theorem head_trim (t : Text) : (trim t).head?.any isBlank = false := by
  obtain ⟨b,-,-,hh⟩ := exists_trimStart t
  rw [trim]
  obtain h | h := head_trimEnd (trimStart t)
  · rw [h]
    rfl
  · rw [h,hh]

theorem getLast?_trimEnd (t : Text) : (trimEnd t).getLast?.any isBlank = false := by
  have h := List.head?_dropWhile_not isBlank t.reverse
  rw [trimEnd,List.getLast?_reverse]
  cases hd : (t.reverse.dropWhile isBlank).head? with
  | none => rfl
  | some c => simpa [hd] using h

theorem trimEnd_eq_self_iff (t : Text) : trimEnd t = t ↔ t.getLast?.any isBlank = false := by
  constructor
  · intro h
    have hl := getLast?_trimEnd t
    rwa [h] at hl
  · intro h
    rw [trimEnd,dropWhile_of_head (by rwa [List.head?_reverse]),List.reverse_reverse]

theorem trim_trim (t : Text) : trim (trim t) = trim t := by
  rw [trim,trimStart_of_head (head_trim t),trimEnd_eq_self_iff]
  exact getLast?_trimEnd _

theorem mem_of_mem_trim {c : Char} {t : Text} (h : c ∈ trim t) : c ∈ t := by
  have hr := (List.dropWhile_sublist isBlank).subset (List.mem_reverse.1 h)
  exact (List.dropWhile_sublist isBlank).subset (List.mem_reverse.1 hr)

def blankPoints : List Nat := [9,10,11,12,13,0x20,0x85,0xA0,0x1680,0x2000,0x2001,0x2002,0x2003,0x2004,
  0x2005,0x2006,0x2007,0x2008,0x2009,0x200A,0x2028,0x2029,0x202F,0x205F,0x3000]

theorem mem_blankPoints {c : Char} (h : isBlank c = true) : c.toNat ∈ blankPoints := by
  simp only [isBlank,Bool.or_eq_true,Bool.and_eq_true,decide_eq_true_eq,beq_iff_eq] at h
  simp only [blankPoints,List.mem_cons,List.not_mem_nil,or_false]
  omega

theorem forall_blank {P : Char → Prop} (h : ∀ n ∈ blankPoints, P (Char.ofNat n)) {c : Char}
    (hc : isBlank c = true) : P c := by
  rw [← Char.ofNat_toNat c]
  exact h _ (mem_blankPoints hc)

theorem isBlank_eq_false_of {p : Char → Bool} (h : ∀ n ∈ blankPoints, p (Char.ofNat n) = false)
    {c : Char} (hc : p c = true) : isBlank c = false := by
  rw [Bool.eq_false_iff]
  intro hb
  have hp := forall_blank (P := (p · = false)) h hb
  rw [hc] at hp
  cases hp

theorem isWordChar_of_isBlank {c : Char} (h : isBlank c = true) : isWordChar c = false :=
  forall_blank (P := (isWordChar · = false)) (by decide +kernel) h

theorem isAlphanum_bounds {c : Char} (h : c.isAlphanum = true) : (65 ≤ c.toNat ∧ c.toNat ≤ 90) ∨
    (97 ≤ c.toNat ∧ c.toNat ≤ 122) ∨ (48 ≤ c.toNat ∧ c.toNat ≤ 57) := by
  have e : c.isAlphanum = ((decide (65 ≤ c.val ∧ c.val ≤ 90) || (97 ≤ c.val && c.val ≤ 122)) ||
    (48 ≤ c.val && c.val ≤ 57)) := rfl
  simp only [e,Bool.or_eq_true,Bool.and_eq_true,decide_eq_true_eq,UInt32.le_iff_toNat_le,
    or_assoc] at h
  exact h

theorem isWordChar_of_isIdentPart {c : Char} (h : isIdentPart c = true) : isWordChar c = true := by
  have hc : c.toNat < 128 := by
    simp only [isIdentPart,Bool.or_eq_true,beq_iff_eq] at h
    obtain h | rfl := h
    · have hb := isAlphanum_bounds h
      omega
    · decide
  rw [isWordChar,isAlphabetic,Ranges.member_of_ascii _ _ hc,Ranges.member_of_ascii _ _ hc]
  simpa [isIdentPart,Char.isAlphanum,or_assoc] using h

end Workbench.Text
