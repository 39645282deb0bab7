import Mathlib.Algebra.Ring.Nat
import Workbench.Archive.Gzip
set_option autoImplicit false

/-!
A compressed stream gives back what was put in: its blocks one after another, then the checksum
and the length of the whole.
-/
namespace Workbench.Archive

theorem ofLittleEndian_littleEndian (width n : Nat) :
    ofLittleEndian (littleEndian width n) = n % 256^width := by
  induction width generalizing n with
  | zero => simp [littleEndian,ofLittleEndian,Nat.mod_one]
  | succ width ih =>
    have e : ofLittleEndian (littleEndian (width+1) n)
        = (n%256).toUInt8.toNat + 256*ofLittleEndian (littleEndian width (n/256)) := rfl
    have h : (n%256).toUInt8.toNat = n%256 := by simp [Nat.toUInt8,UInt8.toNat_ofNat']
    rw [e,h,ih,Nat.pow_succ,Nat.mul_comm (256^width) 256,Nat.mod_mul]

theorem length_littleEndian (width n : Nat) : (littleEndian width n).length = width := by
  induction width generalizing n with
  | zero => rfl
  | succ width ih => simp [littleEndian,ih]

theorem stored_content {content : Bytes} (h : content.length ≤ blockLimit) (spare : List Bool)
    (tail : Bytes) (out : Array UInt8) :
    stored ⟨spare,littleEndian 2 content.length ++ (littleEndian 2 (65535-content.length)
        ++ (content ++ tail))⟩ out = (out ++ content.toArray,.ok (.ofBytes tail)) := by
  have hl : content.length < 256^2 := by simp only [blockLimit] at h; omega
  have hm : 65535-content.length < 256^2 := by omega
  have e := ofLittleEndian_littleEndian 2 content.length
  have f := ofLittleEndian_littleEndian 2 (65535-content.length)
  rw [Nat.mod_eq_of_lt hl] at e
  rw [Nat.mod_eq_of_lt hm] at f
  simp only [littleEndian] at e f
  simp only [stored,littleEndian,List.cons_append,List.nil_append,e,f]
  simp only [blockLimit] at h
  rw [if_neg (by omega)]
  simp

theorem bits_last (last : Bool) (bs : Bytes) :
    bits 1 (.ofBytes ((if last then 1 else 0) :: bs))
      = .ok (last.toNat,⟨List.replicate 7 false,bs⟩) := by
  cases last <;> rfl

theorem bits_stored (bs : Bytes) :
    bits 2 ⟨List.replicate 7 false,bs⟩ = .ok (0,⟨List.replicate 5 false,bs⟩) := rfl

theorem blocks_storedBlock {content : Bytes} (h : content.length ≤ blockLimit) (last : Bool)
    (fuel : Nat) (tail : Bytes) (out : Array UInt8) :
    blocks (fuel+1) (.ofBytes (storedBlock last content ++ tail)) out =
      if last then ⟨out ++ content.toArray,.ok tail⟩
      else blocks fuel (.ofBytes tail) (out ++ content.toArray) := by
  simp only [storedBlock,List.cons_append,List.append_assoc]
  simp only [blocks,bits_last,bits_stored,block,if_true,stored_content h]
  cases last <;> rfl

theorem blocks_deflate (bs tail : Bytes) (out : Array UInt8) {fuel : Nat}
    (hf : (deflate bs).length ≤ fuel) :
    blocks fuel (.ofBytes (deflate bs ++ tail)) out = ⟨out ++ bs.toArray,.ok tail⟩ := by
  induction bs using deflate.induct generalizing fuel out with
  | case1 bs h =>
    rw [deflate,dif_pos h] at hf ⊢
    cases fuel with
    | zero => simp [storedBlock] at hf
    | succ fuel => simp [blocks_storedBlock h]
  | case2 bs h ih =>
    have hl : (bs.take blockLimit).length ≤ blockLimit := List.length_take_le _ _
    rw [deflate,dif_neg h] at hf ⊢
    rw [List.append_assoc]
    cases fuel with
    | zero => simp [storedBlock] at hf
    | succ fuel =>
      have hd : (deflate (bs.drop blockLimit)).length ≤ fuel := by
        simp [storedBlock] at hf; omega
      rw [blocks_storedBlock hl,if_neg (by simp),ih _ hd]
      simp [Array.append_assoc]

theorem inflate_deflate (bs tail : Bytes) :
    inflate (deflate bs ++ tail) = ⟨bs.toArray,.ok tail⟩ := by
  rw [inflate,blocks_deflate _ _ _ (by simp; omega)]
  simp

theorem afterHeader_gzipHeader (bs : Bytes) : afterHeader (gzipHeader ++ bs) = .ok bs := rfl

theorem expand_compress (bs : Bytes) : expand (compress bs) = ⟨bs,.finished⟩ := by
  have hc : crc32 bs < 256^4 := UInt32.toNat_lt _
  have e := ofLittleEndian_littleEndian 4 (crc32 bs)
  have f := ofLittleEndian_littleEndian 4 bs.length
  rw [Nat.mod_eq_of_lt hc] at e
  simp only [compress,List.append_assoc,expand,afterHeader_gzipHeader,inflate_deflate]
  have g : (littleEndian 4 bs.length).take 4 = littleEndian 4 bs.length :=
    List.take_of_length_le (Nat.le_of_eq (length_littleEndian 4 bs.length))
  simp [trailerEnding,length_littleEndian,e,f,g]

/-- What was compressed can be read again, whatever comes behind it. -/
class Lossless [Compressor] : Prop where
  left_press : ∀ bs, (expand (Compressor.press bs)).left = bs

instance : Lossless where
  left_press bs := by rw [show Compressor.press bs = compress bs from rfl,expand_compress]

end Workbench.Archive
