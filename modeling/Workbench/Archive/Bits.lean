import Workbench.Text.Utf8
set_option autoImplicit false

/-!
Bits in the order in which a compressed stream packs them: the least significant of each byte
first.
-/
namespace Workbench.Archive

/-- What is left of the byte that was opened last, and the bytes behind it. -/
structure Bits where
  spare : List Bool
  bytes : Bytes
  deriving DecidableEq, Repr

namespace Bits

def ofBytes (bs : Bytes) : Bits := ⟨[],bs⟩

def size (b : Bits) : Nat := 8*b.bytes.length + b.spare.length

def ofByte (b : UInt8) : List Bool := (List.range 8).map b.toNat.testBit

def next? (b : Bits) : Option (Bool × Bits) :=
  match b.spare with
  | x :: xs => some (x,⟨xs,b.bytes⟩)
  | [] =>
    match b.bytes with
    | [] => none
    | y :: ys => some (y.toNat.testBit 0,⟨(ofByte y).drop 1,ys⟩)

/-- A number of `n` bits, the least significant first. -/
def number? : Nat → Bits → Option (Nat × Bits)
  | 0, b => some (0,b)
  | n+1, b =>
    match b.next? with
    | none => none
    | some (x,b) =>
      match number? n b with
      | none => none
      | some (m,b) => some (2*m + x.toNat,b)

end Bits

def littleEndian : Nat → Nat → Bytes
  | 0, _ => []
  | width+1, n => (n % 256).toUInt8 :: littleEndian width (n / 256)

def ofLittleEndian (bs : Bytes) : Nat := bs.foldr (fun b n => b.toNat + 256*n) 0

end Workbench.Archive
