import Workbench.Text.Utf8
set_option autoImplicit false

/-!
Text survives its bytes: what was encoded decodes to itself, with or without replacement.
-/
namespace Workbench.Text

theorem toNat_toUInt8 {n : Nat} (h : n < 256) : n.toUInt8.toNat = n := by
  simp [Nat.toUInt8,UInt8.toNat_ofNat']; omega

theorem codePoint_bounds (c : Char) :
    c.toNat < 0xD800 ∨ 0xDFFF < c.toNat ∧ c.toNat < 0x110000 := by
  have h := c.valid
  simpa [UInt32.isValidChar,Nat.isValidChar] using h

theorem isTail_low (n : Nat) : isTail (0x80+n%64).toUInt8 = true := by
  simp [isTail,UInt8.le_iff_toNat_le]; omega

theorem isSecond_iff (a b : UInt8) : isSecond a b = true ↔
    (if a.toNat = 0xE0 then 0xA0 else if a.toNat = 0xF0 then 0x90 else 0x80) ≤ b.toNat ∧
    b.toNat ≤ (if a.toNat = 0xED then 0x9F else if a.toNat = 0xF4 then 0x8F else 0xBF) := by
  simp only [isSecond,secondRange,beq_iff_eq,← UInt8.toNat_inj,Bool.and_eq_true,decide_eq_true_eq,
    UInt8.le_iff_toNat_le]
  by_cases h₁ : a.toNat = 0xE0
  · simp [h₁]
  by_cases h₂ : a.toNat = 0xED
  · simp [h₂]
  by_cases h₃ : a.toNat = 0xF0
  · simp [h₃]
  by_cases h₄ : a.toNat = 0xF4 <;> simp [h₁,h₂,h₃,h₄]

theorem utf8Step_ascii {c : Char} (h : c.toNat < 0x80) (rest : Bytes) :
    utf8Step c.toNat.toUInt8 rest = .char c 0 := by
  have e := toNat_toUInt8 (n := c.toNat) (by omega)
  simp [utf8Step,UInt8.lt_iff_toNat_lt,e,h]

theorem utf8Step_two {c : Char} (h : 0x80 ≤ c.toNat) (h' : c.toNat < 0x800) (rest : Bytes) :
    utf8Step (0xC0+c.toNat/64).toUInt8 ((0x80+c.toNat%64).toUInt8 :: rest) = .char c 1 := by
  have ha := toNat_toUInt8 (n := 0xC0+c.toNat/64) (by omega)
  have hb := toNat_toUInt8 (n := 0x80+c.toNat%64) (by omega)
  have hn : (0xC0+c.toNat/64-0xC0)*64+(0x80+c.toNat%64-0x80) = c.toNat := by omega
  have h₁ : ¬ 0xC0+c.toNat/64 < 0x80 := by omega
  have h₂ : 0xC2 ≤ 0xC0+c.toNat/64 ∧ 0xC0+c.toNat/64 ≤ 0xDF := by omega
  simp only [utf8Step,UInt8.lt_iff_toNat_lt,UInt8.le_iff_toNat_le,ha,hb,isTail_low,hn,
    Char.ofNat_toNat]
  simp [h₁,h₂]

theorem utf8Step_three {c : Char} (h : 0x800 ≤ c.toNat) (h' : c.toNat < 0x10000) (rest : Bytes) :
    utf8Step (0xE0+c.toNat/4096).toUInt8
      ((0x80+c.toNat/64%64).toUInt8 :: (0x80+c.toNat%64).toUInt8 :: rest) = .char c 2 := by
  have hv := codePoint_bounds c
  have ha := toNat_toUInt8 (n := 0xE0+c.toNat/4096) (by omega)
  have hb := toNat_toUInt8 (n := 0x80+c.toNat/64%64) (by omega)
  have hd := toNat_toUInt8 (n := 0x80+c.toNat%64) (by omega)
  have hn : (0xE0+c.toNat/4096-0xE0)*4096+(0x80+c.toNat/64%64-0x80)*64+(0x80+c.toNat%64-0x80)
      = c.toNat := by omega
  have hs : isSecond (0xE0+c.toNat/4096).toUInt8 (0x80+c.toNat/64%64).toUInt8 = true := by
    rw [isSecond_iff,ha,hb]; grind
  have h₁ : ¬ 0xE0+c.toNat/4096 < 0x80 := by omega
  have h₂ : ¬ (0xC2 ≤ 0xE0+c.toNat/4096 ∧ 0xE0+c.toNat/4096 ≤ 0xDF) := by omega
  have h₃ : 0xE0 ≤ 0xE0+c.toNat/4096 ∧ 0xE0+c.toNat/4096 ≤ 0xEF := by omega
  simp only [utf8Step,UInt8.lt_iff_toNat_lt,UInt8.le_iff_toNat_le,ha,hb,hd,isTail_low,hs,hn,
    Char.ofNat_toNat]
  simp [h₁,h₂,h₃]

theorem utf8Step_four {c : Char} (h : 0x10000 ≤ c.toNat) (rest : Bytes) :
    utf8Step (0xF0+c.toNat/262144).toUInt8
      ((0x80+c.toNat/4096%64).toUInt8 :: (0x80+c.toNat/64%64).toUInt8 ::
        (0x80+c.toNat%64).toUInt8 :: rest) = .char c 3 := by
  have hv := codePoint_bounds c
  have ha := toNat_toUInt8 (n := 0xF0+c.toNat/262144) (by omega)
  have hb := toNat_toUInt8 (n := 0x80+c.toNat/4096%64) (by omega)
  have hd := toNat_toUInt8 (n := 0x80+c.toNat/64%64) (by omega)
  have he := toNat_toUInt8 (n := 0x80+c.toNat%64) (by omega)
  have hn : (0xF0+c.toNat/262144-0xF0)*262144+(0x80+c.toNat/4096%64-0x80)*4096
      +(0x80+c.toNat/64%64-0x80)*64+(0x80+c.toNat%64-0x80) = c.toNat := by omega
  have hs : isSecond (0xF0+c.toNat/262144).toUInt8 (0x80+c.toNat/4096%64).toUInt8 = true := by
    rw [isSecond_iff,ha,hb]; grind
  have h₁ : ¬ 0xF0+c.toNat/262144 < 0x80 := by omega
  have h₂ : ¬ (0xC2 ≤ 0xF0+c.toNat/262144 ∧ 0xF0+c.toNat/262144 ≤ 0xDF) := by omega
  have h₃ : ¬ (0xE0 ≤ 0xF0+c.toNat/262144 ∧ 0xF0+c.toNat/262144 ≤ 0xEF) := by omega
  have h₄ : 0xF0 ≤ 0xF0+c.toNat/262144 ∧ 0xF0+c.toNat/262144 ≤ 0xF4 := by omega
  simp only [utf8Step,UInt8.lt_iff_toNat_lt,UInt8.le_iff_toNat_le,ha,hb,hd,he,isTail_low,hs,hn,
    Char.ofNat_toNat]
  simp [h₁,h₂,h₃,h₄]

/-- A character is read off its own bytes, whatever follows them. -/
theorem utf8Step_utf8Char (c : Char) : ∃ b more, utf8Char c = b :: more ∧
    ∀ rest, utf8Step b (more ++ rest) = .char c more.length := by
  unfold utf8Char
  by_cases h₁ : c.toNat < 0x80
  · simp only [h₁,if_true]
    exact ⟨_,_,rfl,fun rest => utf8Step_ascii h₁ rest⟩
  by_cases h₂ : c.toNat < 0x800
  · simp only [h₁,h₂,if_true,if_false]
    exact ⟨_,_,rfl,fun rest => utf8Step_two (by omega) h₂ rest⟩
  by_cases h₃ : c.toNat < 0x10000
  · simp only [h₁,h₂,h₃,if_true,if_false]
    exact ⟨_,_,rfl,fun rest => utf8Step_three (by omega) h₃ rest⟩
  · simp only [h₁,h₂,h₃,if_false]
    exact ⟨_,_,rfl,fun rest => utf8Step_four (by omega) rest⟩

theorem length_utf8Char (c : Char) : (utf8Char c).length = utf8Width c := by
  simp only [utf8Char,utf8Width]
  by_cases h₁ : c.toNat < 0x80
  · simp [h₁]
  by_cases h₂ : c.toNat < 0x800
  · simp [h₁,h₂]
  by_cases h₃ : c.toNat < 0x10000 <;> simp [h₁,h₂,h₃]

theorem utf8_cons (c : Char) (t : Text) : utf8 (c :: t) = utf8Char c ++ utf8 t := rfl

theorem utf8_append (s t : Text) : utf8 (s ++ t) = utf8 s ++ utf8 t := List.flatMap_append

theorem utf8DecodeFrom_utf8 (t : Text) (i : Nat) : utf8DecodeFrom i (utf8 t) = .ok t := by
  induction t generalizing i with
  | nil => simp [utf8,utf8DecodeFrom]
  | cons c t ih =>
    obtain ⟨b,more,hc,hs⟩ := utf8Step_utf8Char c
    rw [utf8_cons,hc,List.cons_append,utf8DecodeFrom,hs]
    simp [ih]

theorem utf8Decode_utf8 (t : Text) : utf8Decode (utf8 t) = .ok t := utf8DecodeFrom_utf8 t 0

theorem utf8Decode?_utf8 (t : Text) : utf8Decode? (utf8 t) = some t := by
  simp [utf8Decode?,utf8Decode_utf8,Except.toOption]

theorem utf8Lossy_utf8 (t : Text) : utf8Lossy (utf8 t) = t := by
  induction t with
  | nil => simp [utf8,utf8Lossy]
  | cons c t ih =>
    obtain ⟨b,more,hc,hs⟩ := utf8Step_utf8Char c
    rw [utf8_cons,hc,List.cons_append,utf8Lossy,hs]
    simp [ih]

theorem utf8_injective {s t : Text} (h : utf8 s = utf8 t) : s = t := by
  rw [← utf8Lossy_utf8 s,h,utf8Lossy_utf8]

theorem length_utf8 (t : Text) : (utf8 t).length = utf8Length t := by
  have h : ∀ n, t.foldl (fun n c => n + utf8Width c) n = n + (utf8 t).length := by
    induction t with
    | nil => simp [utf8]
    | cons c t ih => intro n; simp [utf8_cons,ih,length_utf8Char]; omega
  simp [utf8Length,h]

theorem utf8Length_append (s t : Text) : utf8Length (s ++ t) = utf8Length s + utf8Length t := by
  rw [← length_utf8,utf8_append,List.length_append,length_utf8,length_utf8]

theorem utf8Width_eq (c : Char) : utf8Width c = c.utf8Size := by
  have hs : c.utf8Size = if c.toNat ≤ 127 then 1 else if c.toNat ≤ 2047 then 2
      else if c.toNat ≤ 65535 then 3 else 4 := rfl
  rw [hs,utf8Width]
  simp only [Nat.le_iff_lt_add_one,Nat.reduceAdd]

theorem utf8Length_eq (t : Text) : utf8Length t = (String.ofList t).utf8ByteSize := by
  rw [← length_utf8]
  induction t with
  | nil => rfl
  | cons c t ih =>
    have h : String.ofList (c :: t) = String.singleton c ++ String.ofList t := by
      rw [← List.singleton_append,String.ofList_append]; rfl
    rw [h,String.utf8ByteSize_append,String.utf8ByteSize_singleton,← ih,utf8_cons,
      List.length_append,length_utf8Char,utf8Width_eq]

theorem length_utf8_ascii {t : Text} (h : ∀ c ∈ t, c.toNat < 0x80) :
    (utf8 t).length = t.length := by
  induction t with
  | nil => rfl
  | cons c t ih =>
    have hc : utf8Char c = [c.toNat.toUInt8] := by simp [utf8Char,h c (by simp)]
    simp [utf8_cons,hc,ih (fun d hd => h d (by simp [hd]))]

theorem byte_of_mem_utf8Char {c : Char} {b : UInt8} (h : b ∈ utf8Char c) :
    c.toNat < 0x80 ∧ b.toNat = c.toNat ∨ 0x80 ≤ c.toNat ∧ 0x80 ≤ b.toNat := by
  have hv := codePoint_bounds c
  unfold utf8Char at h
  by_cases h₁ : c.toNat < 0x80
  · simp only [h₁,if_true,List.mem_singleton] at h
    subst h
    exact .inl ⟨h₁,toNat_toUInt8 (by omega)⟩
  refine .inr ⟨by omega,?_⟩
  by_cases h₂ : c.toNat < 0x800
  · simp only [h₁,h₂,if_true,if_false,List.mem_cons,List.not_mem_nil,or_false] at h
    rcases h with rfl | rfl <;> (rw [toNat_toUInt8 (by omega)]; omega)
  by_cases h₃ : c.toNat < 0x10000
  · simp only [h₁,h₂,h₃,if_true,if_false,List.mem_cons,List.not_mem_nil,or_false] at h
    rcases h with rfl | rfl | rfl <;> (rw [toNat_toUInt8 (by omega)]; omega)
  · simp only [h₁,h₂,h₃,if_false,List.mem_cons,List.not_mem_nil,or_false] at h
    rcases h with rfl | rfl | rfl | rfl <;> (rw [toNat_toUInt8 (by omega)]; omega)

theorem zero_not_mem_utf8 {t : Text} (h : '\x00' ∉ t) : (0 : UInt8) ∉ utf8 t := by
  intro hz
  obtain ⟨c,hc,hb⟩ := List.mem_flatMap.1 hz
  have hn : c.toNat = 0 := by
    rcases byte_of_mem_utf8Char hb with ⟨_,e⟩ | ⟨_,e⟩
    · exact e.symm
    · simp at e
  have : c = '\x00' := Char.toNat_inj.1 hn
  exact h (this ▸ hc)

theorem length_replicate {c : Char} (h : (utf8Char c).length = 1) (k : Nat) :
    (utf8 (List.replicate k c)).length = k := by
  induction k with
  | zero => simp [utf8]
  | succ k ih => rw [List.replicate_succ,utf8_cons,List.length_append,ih,h,Nat.add_comm]

end Workbench.Text
