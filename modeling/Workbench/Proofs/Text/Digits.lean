import Mathlib.Algebra.Ring.Nat
import Workbench.Text.Quoted
set_option autoImplicit false

/-!
Numbers in digits: they read back whatever zeros stand in front, and as many places hold them as
their size says.
-/
namespace Workbench.Text
variable {base : Nat}

theorem toNat_hexDigit {d : Nat} (h : d < 10) : (hexDigit d).toNat = 48+d := by
  have : ∀ d < 10, (hexDigit d).toNat = 48+d := by decide
  exact this d h

theorem digits_small {n : Nat} (h : n < base) : digits base n = [hexDigit n] := by
  rw [digits]; simp [h]

theorem digits_step (hb : 2 ≤ base) {n : Nat} (h : base ≤ n) :
    digits base n = digits base (n/base) ++ [hexDigit (n%base)] := by
  rw [digits,dif_neg (show ¬ (n < base ∨ base < 2) by omega)]

theorem mem_digits (hb : 2 ≤ base) {n : Nat} {c : Char} (h : c ∈ digits base n) :
    ∃ d < base, c = hexDigit d := by
  induction n using Nat.strongRecOn with
  | ind n ih =>
    by_cases hn : n < base
    · rw [digits_small hn] at h
      exact ⟨n,hn,by simpa using h⟩
    · rw [digits_step hb (by omega)] at h
      rcases List.mem_append.1 h with h | h
      · exact ih (n/base) (Nat.div_lt_self (by omega) (by omega)) h
      · exact ⟨n%base,Nat.mod_lt _ (by omega),by simpa using h⟩

/-- Reading from the left gives the number back, by any reading of single digits. -/
theorem foldl_digits (hb : 2 ≤ base) {value : Char → Nat}
    (hv : ∀ d < base, value (hexDigit d) = d) (n : Nat) :
    (digits base n).foldl (fun m c => base*m+value c) 0 = n := by
  induction n using Nat.strongRecOn with
  | ind n ih =>
    by_cases hn : n < base
    · simp [digits_small hn,hv n hn]
    · rw [digits_step hb (by omega),List.foldl_append,
        ih (n/base) (Nat.div_lt_self (by omega) (by omega))]
      simp [hv _ (Nat.mod_lt n (by omega : base > 0)),Nat.div_add_mod]

theorem length_digits_le (hb : 2 ≤ base) {n k : Nat} (hk : 0 < k) (h : n < base^k) :
    (digits base n).length ≤ k := by
  induction k generalizing n with
  | zero => omega
  | succ k ih =>
    by_cases hn : n < base
    · simp [digits_small hn]
    · have hk : 0 < k := by
        rcases Nat.eq_zero_or_pos k with rfl | hk
        · simp at h; omega
        · exact hk
      have hd : n/base < base^k := by
        rw [Nat.div_lt_iff_lt_mul (by omega)]; rwa [Nat.pow_succ] at h
      have := ih hk hd
      simp [digits_step hb (show base ≤ n by omega)]; omega

theorem mem_padStart {w : Nat} {a c : Char} {t : Text} (h : c ∈ padStart w a t) : c = a ∨ c ∈ t := by
  rcases List.mem_append.1 h with h | h
  · exact .inl (List.eq_of_mem_replicate h)
  · exact .inr h

theorem length_padStart {w : Nat} {a : Char} {t : Text} (h : t.length ≤ w) :
    (padStart w a t).length = w := by
  simp [padStart]; omega

theorem foldl_padStart {value : Char → Nat} (h : value '0' = 0) (w : Nat) (t : Text) :
    (padStart w '0' t).foldl (fun m c => base*m+value c) 0
      = t.foldl (fun m c => base*m+value c) 0 := by
  have hz : ∀ k, (List.replicate k '0').foldl (fun m c => base*m+value c) 0 = 0 := by
    intro k
    induction k with
    | zero => rfl
    | succ k ih => simp [List.replicate_succ,h,ih]
  rw [padStart,List.foldl_append,hz]

def fixedDigits (base w n : Nat) : Text := padStart w '0' (digits base n)

theorem mem_fixedDigits (hb : 2 ≤ base) {w n : Nat} {c : Char} (h : c ∈ fixedDigits base w n) :
    ∃ d < base, c = hexDigit d := by
  rcases mem_padStart h with rfl | h
  · exact ⟨0,by omega,rfl⟩
  · exact mem_digits hb h

theorem foldl_fixedDigits (hb : 2 ≤ base) {value : Char → Nat}
    (hv : ∀ d < base, value (hexDigit d) = d) (w n : Nat) :
    (fixedDigits base w n).foldl (fun m c => base*m+value c) 0 = n := by
  rw [fixedDigits,foldl_padStart (hv 0 (by omega)),foldl_digits hb hv]

theorem length_fixedDigits (hb : 2 ≤ base) {w n : Nat} (hw : 0 < w) (h : n < base^w) :
    (fixedDigits base w n).length = w :=
  length_padStart (length_digits_le hb hw h)

end Workbench.Text
