import Workbench.Archive.Tar.Reader
import Workbench.Proofs.Archive.Gzip
import Workbench.Proofs.Text.Blank
import Workbench.Proofs.Text.Digits
import Workbench.Proofs.Text.Utf8
set_option autoImplicit false

/-!
Headers: the fields that are written are the fields that are read. Numbers come back from octal
digits or from bytes, the checksum is right, and a name comes back if its field holds it.
-/
namespace Workbench.Archive.Tar
open Text

theorem octalDigit {c : Char} {w n : Nat} (h : c ∈ fixedDigits 8 w n) :
    48 ≤ c.toNat ∧ c.toNat < 56 := by
  obtain ⟨d,hd,rfl⟩ := mem_fixedDigits (by omega) h
  rw [toNat_hexDigit (by omega)]; omega

theorem octal_eq {w n : Nat} (h : n < 8^w) (hw : 0 < w) :
    octal (w+1) n = utf8 (fixedDigits 8 w n) ++ [0] := by
  have hl : (utf8 (fixedDigits 8 w n)).length = w := by
    rw [length_utf8_ascii (fun c hc => by have := octalDigit hc; omega),
      length_fixedDigits (by omega) hw h]
  have e : octal (w+1) n = (utf8 (fixedDigits 8 w n)).drop
      ((utf8 (fixedDigits 8 w n)).length-w) ++ [0] := rfl
  rw [e,hl,Nat.sub_self,List.drop_zero]

theorem length_octal {w n : Nat} (h : n < 8^w) (hw : 0 < w) : (octal (w+1) n).length = w+1 := by
  rw [octal_eq h hw,List.length_append,
    length_utf8_ascii (fun c hc => by have := octalDigit hc; omega),
    length_fixedDigits (by omega) hw h]
  rfl

theorem upToZero_of_not_mem {bs : Bytes} (h : (0 : UInt8) ∉ bs) : upToZero bs = bs := by
  have e : ∀ b ∈ bs, (decide (b ≠ 0)) = true := fun b hb => by simp; rintro rfl; exact h hb
  have h : (bs ++ []).takeWhile (· ≠ 0) = bs ++ [].takeWhile (· ≠ 0) :=
    List.takeWhile_append_of_pos e
  simpa [upToZero] using h

theorem upToZero_append {bs : Bytes} (h : (0 : UInt8) ∉ bs) (rest : Bytes) :
    upToZero (bs ++ 0 :: rest) = bs := by
  have e : ∀ b ∈ bs, (decide (b ≠ 0)) = true := fun b hb => by simp; rintro rfl; exact h hb
  rw [upToZero,List.takeWhile_append_of_pos e]
  simp

theorem digitsValue?_of_digits {base : Nat} {t : Text} (hne : t ≠ [])
    (h : ∀ c ∈ t, 48 ≤ c.toNat ∧ c.toNat < 48+base) :
    digitsValue? base t = some (t.foldl (fun n c => base*n+(c.toNat-48)) 0) := by
  have hp : ∀ ds, t ≠ '+' :: ds := by
    rintro ds rfl
    have := h '+' (by simp)
    simp at this
  unfold digitsValue?
  split
  · exact absurd rfl (hp _)
  · simpa [hne] using h

theorem octalNumber_octal {w n : Nat} (h : n < 8^w) (hw : 0 < w) :
    octalNumber (octal (w+1) n) = .ok n := by
  have hd : ∀ c ∈ fixedDigits 8 w n, 48 ≤ c.toNat ∧ c.toNat < 48+8 := fun c hc => octalDigit hc
  have hz : (0 : UInt8) ∉ utf8 (fixedDigits 8 w n) :=
    zero_not_mem_utf8 fun hc => by have := hd _ hc; simp at this
  have hb : ∀ c ∈ fixedDigits 8 w n, isBlank c = false := by
    intro c hc
    have := hd c hc
    simp [isBlank]; omega
  have hn : fixedDigits 8 w n ≠ [] := by
    rw [← List.length_pos_iff,length_fixedDigits (by omega) hw h]; exact hw
  have hv : (fixedDigits 8 w n).foldl (fun m c => 8*m+(c.toNat-48)) 0 = n :=
    foldl_fixedDigits (by omega) (fun d hd => by rw [toNat_hexDigit (by omega)]; omega) w n
  simp only [octalNumber,octal_eq h hw,upToZero_append hz,utf8Decode?_utf8,trim_of_not_blank hb,
    digitsValue?_of_digits hn hd,hv]

theorem octal_head {w n : Nat} (h : n < 8^w) (hw : 0 < w) :
    ((octal (w+1) n).head?.getD 0) &&& 0x80 = 0 := by
  have hl : (fixedDigits 8 w n).length = w := length_fixedDigits (by omega) hw h
  have hd : ∀ c ∈ fixedDigits 8 w n, 48 ≤ c.toNat ∧ c.toNat < 48+8 := fun c hc => octalDigit hc
  rw [octal_eq h hw]
  cases ht : fixedDigits 8 w n with
  | nil => simp [ht] at hl; omega
  | cons c t =>
    have hc := hd c (by simp [ht])
    have e : utf8Char c = [c.toNat.toUInt8] := by
      simp [utf8Char,show c.toNat < 0x80 by omega]
    have hb : ∀ k < 56, k.toUInt8 &&& 0x80 = 0 := by decide
    simp [utf8_cons,e,hb _ hc.2]

theorem foldl_bigEndian {n : Nat} (h : n < 256^8) :
    (littleEndian 8 n).reverse.foldl (fun n b => 256*n+b.toNat) 0 = n := by
  have e := ofLittleEndian_littleEndian 8 n
  rw [Nat.mod_eq_of_lt h] at e
  rw [List.foldl_reverse]
  simpa only [ofLittleEndian,Nat.add_comm] using e

theorem wideNumber_sizeField {n : Nat} (h : n < sizeLimit) : wideNumber (sizeField n) = .ok n := by
  by_cases ho : n < octalLimit
  · have ho' : n < 8^11 := ho
    simp only [sizeField,ho,if_true,wideNumber,octal_head ho' (by omega),
      octalNumber_octal ho' (by omega)]
  · have hl : (0x80 :: zeros 3 ++ (littleEndian 8 n).reverse).length-8 = 4 := by
      simp [length_littleEndian,zeros]
    have hd : (0x80 :: zeros 3 ++ (littleEndian 8 n).reverse).drop 4
        = (littleEndian 8 n).reverse := rfl
    have hn : n < 256^8 := h
    rw [sizeField,if_neg ho,wideNumber,if_neg (by simp),hl,hd,foldl_bigEndian hn]

theorem length_sizeField (n : Nat) : (sizeField n).length = 12 := by
  by_cases ho : n < octalLimit
  · rw [sizeField,if_pos ho,length_octal ho (by omega)]
  · simp [sizeField,ho,length_littleEndian,zeros]

theorem slice_middle {bs a b c : Bytes} {start length : Nat} (h : bs = a ++ (b ++ c))
    (ha : a.length = start) (hb : b.length = length) : slice start length bs = b := by
  subst h ha hb
  simp [slice]

theorem byteSum_append (a b : Bytes) : byteSum (a ++ b) = byteSum a + byteSum b := by
  have h : ∀ (bs : Bytes) n, bs.foldl (fun n b => n + b.toNat) n = n + byteSum bs := by
    intro bs
    induction bs with
    | nil => intro n; rfl
    | cons b bs ih =>
      intro n
      have e : byteSum (b :: bs) = bs.foldl (fun n b => n + b.toNat) (0+b.toNat) := rfl
      rw [List.foldl_cons,ih,e,ih]; omega
  rw [byteSum,List.foldl_append,h]; rfl

theorem byteSum_le (bs : Bytes) : byteSum bs ≤ 255*bs.length := by
  induction bs with
  | nil => simp [byteSum]
  | cons b bs ih =>
    have h : byteSum (b :: bs) = byteSum [b] + byteSum bs := byteSum_append [b] bs
    have hb : byteSum [b] = b.toNat := Nat.zero_add _
    have hl : b.toNat < 256 := b.toNat_lt
    rw [h,hb,List.length_cons]; omega

theorem length_zeros (n : Nat) : (zeros n).length = n := List.length_replicate

theorem length_fill (width : Nat) (bs : Bytes) : (fill width bs).length = width := by
  simp [fill,zeros]

namespace Header

def front (name ids : Bytes) (size : Nat) : Bytes :=
  fill 100 name ++ (octal 8 0o644 ++ (ids ++ (sizeField size ++ octal 12 0)))

def back (kind : UInt8) : Bytes := [kind] ++ (zeros 100 ++ (gnuMark ++ zeros 247))

theorem layout_eq (name ids : Bytes) (size : Nat) (kind : UInt8) (sum : Bytes) :
    layout name ids size kind sum = front name ids size ++ (sum ++ back kind) := by
  simp [layout,front,back]

theorem length_mode : (octal 8 0o644).length = 8 := length_octal (by decide) (by decide)

theorem length_time : (octal 12 0).length = 12 := length_octal (by decide) (by decide)

theorem length_gnuMark : gnuMark.length = 8 := by decide

theorem length_back (kind : UInt8) : (back kind).length = 356 := by
  simp only [back,List.length_append,List.length_singleton,length_zeros,length_gnuMark]

section
variable {name ids : Bytes} {size : Nat} {kind : UInt8}

theorem length_front (h : ids.length = 16) : (front name ids size).length = 148 := by
  simp only [front,List.length_append,length_fill,length_mode,length_time,length_sizeField,h]

def total (name ids : Bytes) (size : Nat) (kind : UInt8) : Nat :=
  byteSum (front name ids size) + 8*32 + byteSum (back kind)

theorem total_lt (h : ids.length = 16) : total name ids size kind < 8^7 := by
  have hf := byteSum_le (front name ids size)
  have hb := byteSum_le (back kind)
  rw [length_front h] at hf
  rw [length_back] at hb
  simp only [total]; omega

theorem make_block : (make name ids size kind).block =
    front name ids size ++ (octal 8 (total name ids size kind) ++ back kind) := by
  have e : byteSum (layout name ids size kind (List.replicate 8 32))
      = total name ids size kind := by
    rw [layout_eq,byteSum_append,byteSum_append]
    simp [total,byteSum]; omega
  rw [make,e,layout_eq]

theorem length_make (h : ids.length = 16) : (make name ids size kind).block.length = 512 := by
  rw [make_block]
  simp [length_front h,length_octal (total_lt h),length_back]

theorem make_sum (h : ids.length = 16) :
    (make name ids size kind).sum = total name ids size kind := by
  have hs : (octal 8 (total name ids size kind)).length = 8 := length_octal (total_lt h) (by omega)
  have hf : (make name ids size kind).field 0 148 = front name ids size :=
    slice_middle (a := []) make_block rfl (length_front h)
  have hb : (make name ids size kind).field 156 356 = back kind :=
    slice_middle (c := []) (by rw [make_block,List.append_nil,List.append_assoc])
      (by simp [length_front h,hs]) (length_back kind)
  rw [sum,hf,hb,total]

theorem readNumber_checksum (h : ids.length = 16) :
    (make name ids size kind).readNumber .checksum = .ok (total name ids size kind) := by
  have hs : (octal 8 (total name ids size kind)).length = 8 := length_octal (total_lt h) (by omega)
  have hf : (make name ids size kind).field 148 8 = octal 8 (total name ids size kind) :=
    slice_middle make_block (length_front h) hs
  simp only [readNumber,hf,octalNumber_octal (total_lt h) (show 0 < 7 by omega)]

theorem readNumber_size (h : ids.length = 16) (hz : size < sizeLimit) :
    (make name ids size kind).readNumber .size = .ok size := by
  have hf : (make name ids size kind).field 124 12 = sizeField size :=
    slice_middle (a := fill 100 name ++ (octal 8 0o644 ++ ids))
      (c := octal 12 0 ++ (octal 8 (total name ids size kind) ++ back kind))
      (by simp [make_block,front]) (by simp [length_fill,length_mode,h]) (length_sizeField size)
  simp only [readNumber,hf,wideNumber_sizeField hz]

theorem make_kind (h : ids.length = 16) : (make name ids size kind).kind = kind := by
  have hs : (octal 8 (total name ids size kind)).length = 8 := length_octal (total_lt h) (by omega)
  have hf : (make name ids size kind).field 156 1 = [kind] :=
    slice_middle (a := front name ids size ++ octal 8 (total name ids size kind))
      (c := zeros 100 ++ (gnuMark ++ zeros 247))
      (by simp [make_block,back]) (by simp [length_front h,hs]) rfl
  rw [Header.kind,hf]; rfl

theorem make_mark (h : ids.length = 16) :
    (make name ids size kind).field 257 8 = gnuMark := by
  have hs : (octal 8 (total name ids size kind)).length = 8 := length_octal (total_lt h) (by omega)
  exact slice_middle
    (a := front name ids size ++ (octal 8 (total name ids size kind) ++ ([kind] ++ zeros 100)))
    (c := zeros 247) (by simp [make_block,back]) (by simp [length_front h,hs,zeros]) length_gnuMark

theorem make_isGnu (h : ids.length = 16) : (make name ids size kind).isGnu = true := by
  simp [isGnu,make_mark h]

theorem make_isUstar (h : ids.length = 16) : (make name ids size kind).isUstar = false := by
  have hm : (gnuMark == ustarMark) = false := by decide
  rw [isUstar,make_mark h,hm]

theorem make_path (h : ids.length = 16) (hn : name.length ≤ 100) (hz : (0 : UInt8) ∉ name) :
    (make name ids size kind).path = name := by
  have hf : (make name ids size kind).field 0 100 = fill 100 name :=
    slice_middle (a := []) (by simp only [make_block,front,List.append_assoc]; rfl) rfl
      (length_fill 100 name)
  have hu : upToZero (fill 100 name) = name := by
    have ht : fill 100 name = name ++ zeros (100-name.length) := by
      rw [fill,List.take_append,List.take_of_length_le hn,zeros,List.take_replicate,zeros]
      congr 2; omega
    rw [ht]
    rcases Nat.eq_zero_or_pos (100-name.length) with e | e
    · simpa [e,zeros] using upToZero_of_not_mem hz
    · obtain ⟨k,hk⟩ := Nat.exists_eq_succ_of_ne_zero (by omega : 100-name.length ≠ 0)
      rw [hk,zeros,List.replicate_succ,upToZero_append hz]
  rw [path,make_isUstar h,Header.name,hf,hu]
  rfl

/-- The mark alone keeps a header from being taken for the end of the archive. -/
theorem make_not_zero :
    (make name ids size kind).block.all (· = 0) = false := by
  rw [List.all_eq_false]
  have hm : (117 : UInt8) ∈ gnuMark := by decide
  exact ⟨117,by simp only [make_block,back,List.mem_append,hm,true_or,or_true],by decide⟩

end
end Header
end Workbench.Archive.Tar
