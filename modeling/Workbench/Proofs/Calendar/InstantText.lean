import Workbench.Calendar.Reader
import Workbench.Proofs.Text.Blank
import Workbench.Proofs.Text.Digits
set_option autoImplicit false

/-!
Reading an instant undoes writing it: each part of the text is padded to its full width, so that
the reader of a part takes the digits of that part and no more.
-/
namespace Workbench.Calendar
open Text

theorem decimalDigit {c : Char} {w n : Nat} (h : c ∈ fixedDigits 10 w n) :
    48 ≤ c.toNat ∧ c.toNat < 58 := by
  obtain ⟨d,hd,rfl⟩ := mem_fixedDigits (by omega) h
  rw [toNat_hexDigit hd]; omega

theorem isDigit_iff {c : Char} : c.isDigit = true ↔ 48 ≤ c.toNat ∧ c.toNat ≤ 57 := by
  simp [Char.isDigit,UInt32.le_iff_toNat_le]

theorem isDigit_fixedDigits (w n : Nat) : ∀ c ∈ fixedDigits 10 w n, c.isDigit = true := by
  intro c hc
  have := decimalDigit hc
  rw [isDigit_iff]; omega

theorem digitsValue_fixedDigits (w n : Nat) : digitsValue (fixedDigits 10 w n) = n :=
  foldl_fixedDigits (by omega) (fun d hd => by rw [toNat_hexDigit hd]; omega) w n

theorem digitRun_append {w : Nat} {ds : Text} (hd : ∀ c ∈ ds, c.isDigit = true) (hne : ds ≠ [])
    (hl : ds.length ≤ w) {rest : Text}
    (hr : ds.length = w ∨ rest.takeWhile Char.isDigit = []) :
    digitRun (some w) (ds ++ rest) = .ok (ds,rest) := by
  have ht : ((ds ++ rest).takeWhile Char.isDigit).take w = ds := by
    rw [List.takeWhile_append_of_pos hd]
    rcases hr with hr | hr
    · simp [← hr]
    · simp [hr,List.take_of_length_le hl]
  obtain ⟨c,ds,rfl⟩ := List.exists_cons_of_ne_nil hne
  simp only [List.cons_append] at ht ⊢
  simp only [digitRun,hd c List.mem_cons_self,Bool.not_true,Bool.false_eq_true,if_false,ht]
  simp

section
variable {w n : Nat} (hw : 0 < w) (hn : n < 10^w)
include hw hn

theorem fixedDigits_head :
    ∃ c ds, fixedDigits 10 w n = c :: ds ∧ 48 ≤ c.toNat ∧ c.toNat < 58 := by
  have hl : (fixedDigits 10 w n).length = w := length_fixedDigits (by omega) hw hn
  cases h : fixedDigits 10 w n with
  | nil => rw [h] at hl; simp at hl; omega
  | cons c ds => exact ⟨c,ds,rfl,decimalDigit (by rw [h]; exact List.mem_cons_self)⟩

theorem fixedDigits_ne_nil : fixedDigits 10 w n ≠ [] := by
  obtain ⟨c,ds,h,_⟩ := fixedDigits_head hw hn
  simp [h]

theorem number_fixedDigits (rest : Text) :
    number (some w) (fixedDigits 10 w n ++ rest) = .ok (n,rest) := by
  have hl : (fixedDigits 10 w n).length = w := length_fixedDigits (by omega) hw hn
  rw [number,digitRun_append (isDigit_fixedDigits w n) (fixedDigits_ne_nil hw hn) (by omega)
    (.inl hl)]
  simp only [digitsValue_fixedDigits]

theorem trimStart_fixedDigits (rest : Text) :
    trimStart (fixedDigits 10 w n ++ rest) = fixedDigits 10 w n ++ rest := by
  obtain ⟨c,ds,h,hc⟩ := fixedDigits_head hw hn
  have hb : isBlank c = false := by simp [isBlank]; omega
  simp [h,trimStart,hb]

end

theorem field_two {least greatest n : Nat} (h : least ≤ n ∧ n ≤ greatest) (hn : n < 100)
    (rest : Text) : field least greatest (Instant.two n ++ rest) = .ok (n,rest) := by
  have e : Instant.two n = fixedDigits 10 2 n := rfl
  rw [field,e,trimStart_fixedDigits (by omega) hn,number_fixedDigits (by omega) hn]
  simp [h]

theorem separator_self {c : Char} (h : isBlank c = false) (rest : Text) :
    separator c (c :: rest) = .ok rest := by
  simp [separator,trimStart,h]

theorem year_yearText {y : Int} (h : 0 ≤ y ∧ y ≤ 9999) (rest : Text) :
    year (Instant.yearText y ++ rest) = .ok (y,rest) := by
  have hn : y.natAbs < 10^4 := by omega
  have hy : (y.natAbs : Int) = y := by omega
  have e : Instant.yearText y = fixedDigits 10 4 y.natAbs := by
    rw [Instant.yearText,if_pos h]; rfl
  obtain ⟨c,ds,hc,hd⟩ := fixedDigits_head (by omega) hn
  have hr := number_fixedDigits (by omega) hn rest
  rw [year,e,trimStart_fixedDigits (by omega) hn]
  rw [hc,List.cons_append] at hr ⊢
  split
  · rename_i heq; injection heq with heq _; rw [heq] at hd; simp at hd
  · rename_i heq; injection heq with heq _; rw [heq] at hd; simp at hd
  · rw [hr]
    simp only [Except.map,hy]
    rw [if_pos (by simp only [leastWord,greatestWord]; omega)]

theorem date_text {d : Date} (hv : d.Valid) (hy : 0 ≤ d.year ∧ d.year ≤ 9999) (rest : Text) :
    date (Instant.yearText d.year ++ '-' :: (Instant.two d.month ++ '-' ::
      (Instant.two d.day ++ rest))) = .ok (d,rest) := by
  obtain ⟨_,_,hm,hm',hd,hd'⟩ := hv
  have h31 : d.day ≤ 31 := by
    refine Nat.le_trans hd' ?_
    unfold daysIn
    split <;> (try split) <;> omega
  have hb : isBlank '-' = false := by decide
  rw [date,year_yearText hy]
  simp only [bind,Except.bind]
  rw [separator_self hb]
  simp only
  rw [field_two ⟨hm,hm'⟩ (by omega)]
  simp only
  rw [separator_self hb]
  simp only
  rw [field_two ⟨hd,h31⟩ (by omega)]
  rfl

theorem fraction_digits {w n : Nat} (hw : 0 < w) (hw' : w ≤ 9) (hn : n < 10^w) (rest : Text) :
    fraction ('.' :: (fixedDigits 10 w n ++ 'Z' :: rest)) = .ok (n * 10^(9-w),'Z' :: rest) := by
  have hl : (fixedDigits 10 w n).length = w := length_fixedDigits (by omega) hw hn
  have hz : ('Z' :: rest).takeWhile Char.isDigit = [] := List.takeWhile_cons_of_neg (by decide)
  have hr := digitRun_append (isDigit_fixedDigits w n) (fixedDigits_ne_nil hw hn) (hl ▸ hw')
    (.inr hz)
  simp only [fraction,hr,digitsValue_fixedDigits,hl]
  rw [List.dropWhile_cons_of_neg (by decide)]
  rfl

/-- Zeros behind the last of three, six or nine places are left out, and come back in reading. -/
theorem fraction_fractionText {n : Nat} (hn : n < billion) (rest : Text) :
    fraction (Instant.fractionText n ++ 'Z' :: rest) = .ok (n,'Z' :: rest) := by
  rw [billion] at hn
  rw [Instant.fractionText]
  -- Trailing zeros decide how many places are written, and the reader puts them back.
  by_cases h0 : n = 0
  · simp [h0,fraction]
  rw [if_neg h0]
  by_cases h3 : n % 1000000 = 0
  · rw [if_pos h3]
    have h := fraction_digits (w := 3) (n := n / 1000000) (by omega) (by omega) (by omega) rest
    rwa [show n / 1000000 * 10^(9-3) = n by omega] at h
  rw [if_neg h3]
  by_cases h6 : n % 1000 = 0
  · rw [if_pos h6]
    have h := fraction_digits (w := 6) (n := n / 1000) (by omega) (by omega) (by omega) rest
    rwa [show n / 1000 * 10^(9-6) = n by omega] at h
  · rw [if_neg h6]
    have h := fraction_digits (w := 9) (n := n) (by omega) (by omega) (by omega) rest
    rwa [show n * 10^(9-9) = n by omega] at h

theorem timeOfDay_text {s n : Nat} (hs : s < daySeconds) (hn : n < billion) (rest : Text) :
    timeOfDay (Instant.two (s / 3600) ++ ':' :: (Instant.two (s / 60 % 60) ++ ':' ::
      (Instant.two (s % 60 + n / billion) ++ (Instant.fractionText (n % billion) ++
        'Z' :: rest)))) = .ok ((s,n),'Z' :: rest) := by
  rw [daySeconds] at hs
  have hb : isBlank ':' = false := by decide
  rw [Nat.div_eq_of_lt hn,Nat.mod_eq_of_lt hn,Nat.add_zero]
  rw [timeOfDay,field_two ⟨by omega,by omega⟩ (by omega)]
  simp only [bind,Except.bind]
  rw [separator_self hb]
  simp only
  rw [field_two ⟨by omega,by omega⟩ (by omega)]
  simp only
  rw [separator_self hb]
  simp only
  rw [field_two ⟨by omega,by omega⟩ (by omega)]
  simp only [fraction_fractionText hn]
  rw [if_neg (by omega),show s / 3600 * 3600 + s / 60 % 60 * 60 + s % 60 = s by omega]
  rfl

theorem shifted_zero {d : Date} {s : Nat} (hd : d.Valid) (hs : s < daySeconds) (n : Nat) :
    shifted d s n 0 = .ok ⟨d,s,n⟩ := by
  have h0 : ¬ (¬ d.Valid ∨ (daySeconds : Int) ≤ 0 ∨ (0 : Int) ≤ -(daySeconds : Int)) := by
    simp [hd,daySeconds]
  have hz : (s : Int) - 0 = s := by omega
  have hneg : ¬ (s : Int) < 0 := by omega
  have hlt : ¬ (daySeconds : Int) ≤ s := by omega
  simp only [shifted,if_neg h0,hz,if_neg hneg,if_neg hlt,Int.toNat_natCast]
  rw [if_pos hd]

/-- No leap second, in a year that is written without a sign. -/
def Instant.Ordinary (i : Instant) : Prop :=
  i.Valid ∧ (0 ≤ i.date.year ∧ i.date.year ≤ 9999) ∧ i.nano < billion

instance (i : Instant) : Decidable i.Ordinary := by unfold Instant.Ordinary; infer_instance

theorem Instant.parse_text {i : Instant} (h : i.Ordinary) : Instant.parse i.text = .ok i := by
  obtain ⟨⟨hd,hs,_⟩,hy,hn⟩ := h
  have ht : trimStart ['Z'] = ['Z'] := by decide
  simp only [Instant.text,List.append_assoc,List.cons_append,List.nil_append]
  rw [Instant.parse,date_text hd hy]
  simp only [bind,Except.bind,true_or,if_true]
  rw [timeOfDay_text hs hn]
  simp only [ht,offset,true_or,if_true,allBlank,List.all_nil]
  exact shifted_zero hd hs i.nano

end Workbench.Calendar
