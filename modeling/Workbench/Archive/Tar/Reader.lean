import Workbench.Archive.Gzip
import Workbench.Archive.Tar.Header
import Workbench.FileSet
set_option autoImplicit false

/-!
Reading members from a stream. Nothing is read before it is needed: a block of zeros ends the
archive whatever follows it, and the content of a member that is no file is passed over.
-/
namespace Workbench.Archive.Tar
open Text

/-- A stream, the number of bytes to pass over before the next header, and the place of that
header. -/
structure Reader where
  stream : Stream
  skip : Nat
  next : Nat
  deriving Repr

def sizeLimit : Nat := Nat.pow 2 64

def Stream.fail {α : Type} (s : Stream) (atEnd : Except Flaw α) : Except Flaw α :=
  match s.ending with
  | .broken why => .error why
  | .finished => atEnd

def nextBlock (s : Stream) : Except Flaw (Option (Bytes × Stream)) :=
  let b := s.left.take blockSize
  if b.length = blockSize then .ok (some (b,{s with left := s.left.drop blockSize}))
  else Stream.fail s (if b = [] then .ok none else .error .partialBlock)

def skipBytes (n : Nat) (s : Stream) : Except Flaw Stream :=
  if n ≤ s.left.length then .ok {s with left := s.left.drop n}
  else Stream.fail s (.error .shortSkip)

def splitLines : Bytes → List Bytes
  | [] => [[]]
  | b :: bs =>
    if b = 10 then [] :: splitLines bs
    else match splitLines bs with
      | [] => [[b]]
      | l :: ls => (b :: l) :: ls

/-- The key and the value of a record, whose length is written in front of it and has to be
right. -/
def extension? (line : Bytes) : Option (Bytes × Bytes) :=
  let length := line.takeWhile (· ≠ 32)
  match line.drop length.length with
  | [] => none
  | _ :: pair =>
    match (utf8Decode? length).bind (digitsValue? 10) with
    | none => none
    | some n =>
      if n ≠ line.length+1 then none
      else
        let key := pair.takeWhile (· ≠ 61)
        match pair.drop key.length with
        | [] => none
        | _ :: value => some (key,value)

def extensions (bs : Bytes) : List (Option (Bytes × Bytes)) :=
  ((splitLines bs).takeWhile fun l => !l.isEmpty).map extension?

/-- The size among the records, unless one in front of it is malformed. -/
def extendedSize? : List (Option (Bytes × Bytes)) → Option Nat
  | [] => none
  | none :: _ => none
  | some (key,value) :: rest =>
    if key ≠ utf8 "size".toList then extendedSize? rest
    else
      match (utf8Decode? value).bind (digitsValue? 10) with
      | some n => if n < sizeLimit then some n else none
      | none => none

def extendedPath? (rs : List (Option (Bytes × Bytes))) : Option Bytes :=
  rs.findSome? fun r =>
    match r with
    | some (key,value) => if key = utf8 "path".toList then some value else none
    | none => none

def nextEntry (pax : Option Bytes) (r : Reader) : Except Flaw (Option ((Header × Nat) × Reader)) := do
  let stream ← skipBytes r.skip r.stream
  match ← nextBlock stream with
  | none => return none
  | some (block,stream) =>
    if block.all (· = 0) then return none
    else
      let h : Header := ⟨block⟩
      let sum ← h.readNumber .checksum
      if h.sum ≠ sum then .error .headerChecksum
      else
        let own ← h.readNumber .size
        let size := ((pax.map extensions).bind extendedSize?).getD own
        let next := r.next + blockSize + padded size
        if sizeLimit ≤ size+511 ∨ sizeLimit ≤ next then .error .sizeOverflow
        else return some ((h,size),⟨stream,padded size,next⟩)

def readContent (size : Nat) (r : Reader) : Except Flaw (Bytes × Reader) :=
  let content := r.stream.left.take size
  let rest : Reader :=
    ⟨{r.stream with left := r.stream.left.drop size},r.skip-content.length,r.next⟩
  if content.length < size then Stream.fail r.stream (.ok (content,rest)) else .ok (content,rest)

/-- How far the pieces of a file reach, and how many bytes of the member are left for more. -/
structure Pieces where
  reach : Nat
  left : Nat
  deriving DecidableEq, Repr

def pieceNumber (f : PieceField) (bs : Bytes) : Except Flaw Nat :=
  match octalNumber bs with
  | .ok n => .ok n
  | .error why => .error (.pieceField f why)

/-- One more piece, given by two numbers of twelve digits; a piece without either is none. -/
def addPiece (size : Nat) (p : Pieces) (bs : Bytes) : Except Flaw Pieces :=
  if (bs.head?).getD 0 = 0 ∨ ((bs.drop 12).head?).getD 0 = 0 then .ok p
  else do
    let offset ← pieceNumber .offset (slice 0 12 bs)
    let length ← pieceNumber .length (slice 12 12 bs)
    if length ≠ 0 ∧ (size-p.left) % blockSize ≠ 0 then .error .unalignedPiece
    else if offset < p.reach then .error .disorderedPieces
    else if sizeLimit ≤ offset+length then .error .piecesTooLong
    else if p.left < length then .error .piecesBeyondEntry
    else return ⟨offset+length,p.left-length⟩

def addPieces (size : Nat) : Nat → Pieces → Bytes → Except Flaw Pieces
  | 0, p, _ => .ok p
  | n+1, p, bs =>
    match addPiece size p bs with
    | .error f => .error f
    | .ok p => addPieces size n p (bs.drop 24)

/-- The blocks with further pieces; the last byte but seven says whether another one follows. -/
def morePieces (size : Nat) : Nat → Bool → Pieces → Reader → Except Flaw (Pieces × Reader)
  | 0, _, p, r => .ok (p,r)
  | _, false, p, r => .ok (p,r)
  | fuel+1, true, p, r =>
    match nextBlock r.stream with
    | .error f => .error f
    | .ok none => .error .shortExtension
    | .ok (some (block,stream)) =>
      match addPieces size 21 p block with
      | .error f => .error f
      | .ok p =>
        morePieces size fuel (slice 504 1 block == [1]) p ⟨stream,r.skip,r.next+blockSize⟩

def checkPieces (h : Header) (size : Nat) (r : Reader) : Except Flaw Reader :=
  if !h.isGnu then .error .notSparse
  else do
    let p ← addPieces size 4 ⟨0,size⟩ (h.field 386 96)
    let (p,r) ← morePieces size (r.stream.left.length+1) (h.field 482 1 == [1]) p r
    let real ← h.readNumber .realSize
    if p.reach ≠ real then .error .piecesNotRealSize
    else if 0 < p.left then .error .piecesNotSize
    else return r

/-- What earlier members say about the next one. -/
structure Ahead where
  longName : Option Bytes
  longLink : Bool
  pax : Option Bytes
  deriving DecidableEq, Repr

def Ahead.nothing : Ahead := ⟨none,false,none⟩

def dropFinalZero (bs : Bytes) : Bytes := if bs.getLast? = some 0 then bs.dropLast else bs

def Ahead.path (a : Ahead) (h : Header) : Text :=
  utf8Lossy <| match a.longName,(a.pax.map extensions).bind extendedPath? with
    | some n,_ => dropFinalZero n
    | none,some p => p
    | none,none => h.path

def isFile (h : Header) : Bool := h.kind == 0 || h.kind == 48

def readFile (path : Text) (size : Nat) (r : Reader) : Except Flaw (Text × Reader) :=
  match readContent size r with
  | .error why => .error (.content path why)
  | .ok (bs,r) =>
    match utf8Decode? bs with
    | some t => .ok (t,r)
    | none => .error (.content path .notUtf8)

/-- All files from here on, put to those known. Every member takes a block at least, so `fuel`
lasts when it is greater than the number of blocks. -/
def filesFrom : Nat → Ahead → Reader → FileSet → Except Flaw FileSet
  | 0, _, _, files => .ok files
  | fuel+1, ahead, r, files =>
    match nextEntry ahead.pax r with
    | .error f => .error f
    | .ok none => if ahead = .nothing then .ok files else .error .noMember
    | .ok (some ((h,size),r)) =>
      let describes := h.isGnu || h.isUstar
      if describes && h.kind == 76 then
        if ahead.longName.isSome then .error .twoLongNames
        else
          match readContent size r with
          | .error f => .error f
          | .ok (bs,r) => filesFrom fuel {ahead with longName := some bs} r files
      else if describes && h.kind == 75 then
        if ahead.longLink then .error .twoLongNames
        else
          match readContent size r with
          | .error f => .error f
          | .ok (_,r) => filesFrom fuel {ahead with longLink := true} r files
      else if describes && h.kind == 120 then
        if ahead.pax.isSome then .error .twoExtensions
        else
          match readContent size r with
          | .error f => .error f
          | .ok (bs,r) => filesFrom fuel {ahead with pax := some bs} r files
      else
        match (if h.kind = 83 then checkPieces h size r else .ok r) with
        | .error f => .error f
        | .ok r =>
          if isFile h then
            let path := ahead.path h
            match readFile path size r with
            | .error f => .error f
            | .ok (t,r) => filesFrom fuel .nothing r (files.insert path t)
          else filesFrom fuel .nothing r files

def files (s : Stream) : Except Flaw FileSet :=
  filesFrom (s.left.length / blockSize + 2) .nothing ⟨s,0,0⟩ .empty

end Workbench.Archive.Tar
