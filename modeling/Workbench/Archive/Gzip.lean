import Workbench.Archive.Flaw
import Workbench.Archive.Inflate
set_option autoImplicit false

/-!
The container of a compressed stream: a header with optional fields, the compressed bytes, and a
trailer with a checksum and the length. What comes out is a stream: bytes that can be read, and
what happens behind the last of them.
-/
namespace Workbench.Archive

def crcBit (c : UInt32) : UInt32 := if c &&& 1 = 1 then (c >>> 1) ^^^ 0xEDB88320 else c >>> 1

def crcByte (c : UInt32) (b : UInt8) : UInt32 :=
  crcBit (crcBit (crcBit (crcBit (crcBit (crcBit (crcBit (crcBit (c ^^^ b.toUInt32))))))))

def crc32 (bs : Bytes) : Nat := (bs.foldl crcByte 0xFFFFFFFF ^^^ 0xFFFFFFFF).toNat

inductive Ending where
  | finished
  | broken (why : Flaw)
  deriving DecidableEq, Repr

structure Stream where
  left : Bytes
  ending : Ending
  deriving DecidableEq, Repr

def gzipHeader : Bytes := [0x1F,0x8B,8,0,0,0,0,0,0,0xFF]

def compress (bs : Bytes) : Bytes :=
  gzipHeader ++ deflate bs ++ littleEndian 4 (crc32 bs) ++ littleEndian 4 bs.length

/-- What compresses a stream. No reader depends on how it is done. -/
class Compressor where
  press : Bytes → Bytes

instance : Compressor := ⟨compress⟩

def headerLimit : Nat := 65535

/-- Behind a text that a zero byte ends; `n` of its bytes are read. -/
def afterZero (n : Nat) : Bytes → Except Flaw Bytes
  | [] => .error .unexpectedEnd
  | b :: bs =>
    if b = 0 then .ok bs
    else if n = headerLimit then .error .gzipFieldTooLong
    else afterZero (n+1) bs

def optionalField (present : Bool) (skip : Bytes → Except Flaw Bytes) (bs : Bytes) :
    Except Flaw Bytes := if present then skip bs else .ok bs

def afterExtra (bs : Bytes) : Except Flaw Bytes :=
  match bs with
  | a :: b :: rest =>
    let n := ofLittleEndian [a,b]
    if rest.length < n then .error .unexpectedEnd else .ok (rest.drop n)
  | _ => .error .unexpectedEnd

def afterHeaderSum (all : Bytes) (bs : Bytes) : Except Flaw Bytes :=
  match bs with
  | a :: b :: rest =>
    if ofLittleEndian [a,b] = crc32 (all.take (all.length-bs.length)) % 65536 then .ok rest
    else .error .gzipChecksum
  | _ => .error .unexpectedEnd

def afterHeader (all : Bytes) : Except Flaw Bytes :=
  match all with
  | m₀ :: m₁ :: method :: flags :: _ :: _ :: _ :: _ :: _ :: _ :: rest =>
    if m₀ ≠ 0x1F ∨ m₁ ≠ 0x8B ∨ method ≠ 8 ∨ flags &&& 0xE0 ≠ 0 then .error .gzipHeader
    else do
      let rest ← optionalField (flags &&& 4 ≠ 0) afterExtra rest
      let rest ← optionalField (flags &&& 8 ≠ 0) (afterZero 0) rest
      let rest ← optionalField (flags &&& 16 ≠ 0) (afterZero 0) rest
      optionalField (flags &&& 2 ≠ 0) (afterHeaderSum all) rest
  | _ => .error .unexpectedEnd

/-- The trailer is looked at only when all bytes have been read. -/
def trailerEnding (content rest : Bytes) : Ending :=
  if rest.length < 8 then .broken .unexpectedEnd
  else if ofLittleEndian (rest.take 4) = crc32 content ∧
      ofLittleEndian ((rest.drop 4).take 4) = content.length % Nat.pow 2 32 then .finished
  else .broken .gzipChecksum

/-- Compressed bytes are worked off a window at a time; a window in which they turn out to be
corrupt is not given out. -/
def window : Nat := 32768

def expand (bs : Bytes) : Stream :=
  match afterHeader bs with
  | .error f => ⟨[],.broken f⟩
  | .ok bs =>
    let r := inflate bs
    match r.rest with
    | .ok rest => ⟨r.out.toList,trailerEnding r.out.toList rest⟩
    | .error .short => ⟨r.out.toList,.broken .shortDeflate⟩
    | .error .corrupt => ⟨r.out.toList.take (r.out.size / window * window),.broken .corruptDeflate⟩

end Workbench.Archive
