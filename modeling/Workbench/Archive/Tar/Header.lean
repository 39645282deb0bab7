import Workbench.Archive.Bits
import Workbench.Archive.Flaw
import Workbench.Text.Blank
set_option autoImplicit false

/-!
The header of a member of an archive: a block of 512 bytes with fields at fixed places. Texts end
at a zero byte or fill their field; numbers are octal digits, or binary where they do not fit.
-/
namespace Workbench.Archive.Tar
open Text

def blockSize : Nat := 512

def padded (n : Nat) : Nat := (n + 511) / blockSize * blockSize

def slice (start length : Nat) (bs : Bytes) : Bytes := (bs.drop start).take length

def upToZero (bs : Bytes) : Bytes := bs.takeWhile (· ≠ 0)

def byteSum (bs : Bytes) : Nat := bs.foldl (fun n b => n + b.toNat) 0

def zeros (n : Nat) : Bytes := List.replicate n 0

def fill (width : Nat) (bs : Bytes) : Bytes := (bs ++ zeros width).take width

/-- A number below `8^(width-1)` in octal digits with a zero byte behind them. -/
def octal (width n : Nat) : Bytes :=
  let ds := utf8 (padStart (width-1) '0' (digits 8 n))
  ds.drop (ds.length-(width-1)) ++ [0]

def octalLimit : Nat := Nat.pow 8 11

/-- A size in octal digits, or in its last eight bytes behind a first one that says so. -/
def sizeField (n : Nat) : Bytes :=
  if n < octalLimit then octal 12 n else 0x80 :: zeros 3 ++ (littleEndian 8 n).reverse

def digitsValue? (base : Nat) (t : Text) : Option Nat :=
  let ds := match t with
    | '+' :: ds => ds
    | ds => ds
  if ds.isEmpty || ds.any (fun c => !(48 ≤ c.toNat && c.toNat < 48+base)) then none
  else some (ds.foldl (fun n c => base*n+(c.toNat-48)) 0)

def octalNumber (bs : Bytes) : Except NumberFlaw Nat :=
  let bs := upToZero bs
  match utf8Decode? bs with
  | none => .error (.notText (utf8Lossy bs))
  | some t =>
    match digitsValue? 8 (trim t) with
    | none => .error (.notNumber t)
    | some n => .ok n

/-- A number in octal digits, or in binary if the first bit is set; then the last eight bytes
count. -/
def wideNumber (bs : Bytes) : Except NumberFlaw Nat :=
  if (bs.head?.getD 0) &&& 0x80 = 0 then octalNumber bs
  else .ok ((bs.drop (bs.length-8)).foldl (fun n b => 256*n+b.toNat) 0)

structure Header where
  block : Bytes
  deriving DecidableEq, Repr

namespace Header

def field (h : Header) (start length : Nat) : Bytes := slice start length h.block

def kind (h : Header) : UInt8 := ((h.field 156 1).head?).getD 0

def gnuMark : Bytes := utf8 "ustar  ".toList ++ [0]
def ustarMark : Bytes := utf8 "ustar".toList ++ [0] ++ utf8 "00".toList

def isGnu (h : Header) : Bool := h.field 257 8 == gnuMark
def isUstar (h : Header) : Bool := h.field 257 8 == ustarMark

def name (h : Header) : Bytes := upToZero (h.field 0 100)

def leading (h : Header) : Bytes := upToZero (h.field 345 155)

/-- One of the formats has room for directories in front of the name. -/
def path (h : Header) : Bytes :=
  if h.isUstar && !h.leading.isEmpty then h.leading ++ [47] ++ h.name else h.name

/-- The sum of all bytes, those of the checksum taken as blanks. -/
def sum (h : Header) : Nat := byteSum (h.field 0 148) + 8*32 + byteSum (h.field 156 356)

def readNumber (h : Header) (f : Field) : Except Flaw Nat :=
  let (value,shown) := match f with
    | .checksum => (octalNumber (h.field 148 8),utf8Lossy h.path)
    | .size => (wideNumber (h.field 124 12),utf8Lossy h.path)
    | .realSize => (wideNumber (h.field 483 12),
        utf8Lossy (upToZero (h.field 297 32)) ++ [':'] ++ utf8Lossy (upToZero (h.field 265 32)))
  match value with
  | .ok n => .ok n
  | .error why => .error (.field f why shown)

/-- All fields in order; `ids` are the numbers of the owner and `sum` the field of the checksum. -/
def layout (name ids : Bytes) (size : Nat) (kind : UInt8) (sum : Bytes) : Bytes :=
  fill 100 name ++ octal 8 0o644 ++ ids ++ sizeField size ++ octal 12 0 ++ sum ++ [kind] ++
    zeros 100 ++ gnuMark ++ zeros 247

def make (name ids : Bytes) (size : Nat) (kind : UInt8) : Header :=
  ⟨layout name ids size kind
    (octal 8 (byteSum (layout name ids size kind (List.replicate 8 32))))⟩

end Header
end Workbench.Archive.Tar
