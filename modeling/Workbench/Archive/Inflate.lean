import Workbench.Archive.Bits
set_option autoImplicit false

/-!
The compressed format of blocks with Huffman codes and repeats. Reading gives all bytes up to the
place where it ends, runs short or turns out to be corrupt. Writing uses stored blocks alone.
-/
namespace Workbench.Archive

inductive Stop where
  | short
  | corrupt
  deriving DecidableEq, Repr

/-- A prefix code. `counts` says how many codes there are of one bit, of two bits and so on, and
`symbols` lists what they stand for in order. -/
structure Code where
  counts : List Nat
  symbols : Array Nat
  deriving Repr

namespace Code

def maxLength : Nat := 15

/-- The code that the lengths of all codes determine; length zero means that there is none. -/
def ofLengths (lengths : List Nat) : Code :=
  let table := (List.range maxLength).map fun i =>
    (lengths.zipIdx.filter fun l => l.1 = i+1).map (·.2)
  ⟨table.map List.length,table.flatten.toArray⟩

/-- How much of the space of codes is used, in parts of `2^15`. -/
def weight (c : Code) : Nat :=
  c.counts.zipIdx.foldl (fun total n => total + n.1 * Nat.pow 2 (maxLength-1-n.2)) 0

/-- Every sequence of bits starts with a code, or there is at most one code. -/
def isUsable (c : Code) : Bool := c.weight == Nat.pow 2 maxLength || c.symbols.size ≤ 1

/-- Goes on with codes of the next length. `first` is the first code of that length, `index` the
number of shorter codes. -/
def decodeFrom (symbols : Array Nat) (code first index : Nat) :
    List Nat → Bits → Except Stop (Nat × Bits)
  | [], _ => .error .corrupt
  | count :: counts, b =>
    match b.next? with
    | none => .error .short
    | some (x,b) =>
      let code := 2*code + x.toNat
      if code < first+count then
        match symbols[index+(code-first)]? with
        | some s => .ok (s,b)
        | none => .error .corrupt
      else decodeFrom symbols code (2*(first+count)) (index+count) counts b

def decode (c : Code) (b : Bits) : Except Stop (Nat × Bits) := decodeFrom c.symbols 0 0 0 c.counts b

end Code

structure Codes where
  main : Code
  distance : Code
  deriving Repr

/-- The least length of a repeat and the number of bits to be added, for each symbol from 257 on. -/
def lengthTable : List (Nat × Nat) := [
  (3,0),(4,0),(5,0),(6,0),(7,0),(8,0),(9,0),(10,0),(11,1),(13,1),(15,1),(17,1),(19,2),(23,2),(27,2),
  (31,2),(35,3),(43,3),(51,3),(59,3),(67,4),(83,4),(99,4),(115,4),(131,5),(163,5),(195,5),(227,5),
  (258,0)]

def distanceTable : List (Nat × Nat) := [
  (1,0),(2,0),(3,0),(4,0),(5,1),(7,1),(9,2),(13,2),(17,3),(25,3),(33,4),(49,4),(65,5),(97,5),
  (129,6),(193,6),(257,7),(385,7),(513,8),(769,8),(1025,9),(1537,9),(2049,10),(3073,10),(4097,11),
  (6145,11),(8193,12),(12289,12),(16385,13),(24577,13)]

def bits (n : Nat) (b : Bits) : Except Stop (Nat × Bits) :=
  match b.number? n with
  | some r => .ok r
  | none => .error .short

def extended (table : List (Nat × Nat)) (symbol : Nat) (b : Bits) : Except Stop (Nat × Bits) :=
  match table[symbol]? with
  | none => .error .corrupt
  | some (base,more) => (bits more b).map fun r => (base+r.1,r.2)

/-- `length` bytes again, each `distance` behind its copy. What lies before the start is zero. -/
def repeated : Nat → Nat → Array UInt8 → Array UInt8
  | 0, _, out => out
  | length+1, distance, out =>
    repeated length distance
      (out.push (if distance ≤ out.size then (out[out.size-distance]?).getD 0 else 0))

def repeatWith (c : Codes) (symbol : Nat) (b : Bits) (out : Array UInt8) :
    Except Stop (Array UInt8 × Bits) :=
  match extended lengthTable (symbol-257) b with
  | .error s => .error s
  | .ok (length,b) =>
    match c.distance.decode b with
    | .error s => .error s
    | .ok (d,b) =>
      match extended distanceTable d b with
      | .error s => .error s
      | .ok (distance,b) => .ok (repeated length distance out,b)

def symbols (c : Codes) : Nat → Bits → Array UInt8 → Array UInt8 × Except Stop Bits
  | 0, _, out => (out,.error .corrupt)
  | fuel+1, b, out =>
    match c.main.decode b with
    | .error s => (out,.error s)
    | .ok (s,b) =>
      if s < 256 then symbols c fuel b (out.push s.toUInt8)
      else if s = 256 then (out,.ok b)
      else
        match repeatWith c s b out with
        | .error s => (out,.error s)
        | .ok (out,b) => symbols c fuel b out

def fixedCodes : Codes :=
  ⟨.ofLengths (List.replicate 144 8 ++ List.replicate 112 9 ++ List.replicate 24 7 ++
    List.replicate 8 8),.ofLengths (List.replicate 32 5)⟩

def lengthOrder : List Nat := [16,17,18,0,8,7,9,6,10,5,11,4,12,3,13,2,14,1,15]

def numbers : Nat → Nat → Bits → Except Stop (List Nat × Bits)
  | 0, _, b => .ok ([],b)
  | n+1, width, b =>
    match bits width b with
    | .error s => .error s
    | .ok (m,b) => (numbers n width b).map fun r => (m :: r.1,r.2)

/-- What a symbol adds to the lengths known, the last of which comes first: one length, or one
repeated as often as further bits say. -/
def lengthRun (symbol : Nat) (known : List Nat) (b : Bits) : Except Stop (List Nat × Bits) :=
  if symbol < 16 then .ok ([symbol],b)
  else if symbol = 16 then
    match known with
    | [] => .error .corrupt
    | l :: _ => (bits 2 b).map fun r => (List.replicate (3+r.1) l,r.2)
  else if symbol = 17 then (bits 3 b).map fun r => (List.replicate (3+r.1) 0,r.2)
  else (bits 7 b).map fun r => (List.replicate (11+r.1) 0,r.2)

def codeLengths (c : Code) : Nat → Nat → List Nat → Bits → Except Stop (List Nat × Bits)
  | 0, _, _, _ => .error .corrupt
  | fuel+1, left, known, b =>
    if left = 0 then .ok (known.reverse,b)
    else
      match c.decode b with
      | .error s => .error s
      | .ok (s,b) =>
        match lengthRun s known b with
        | .error s => .error s
        | .ok (run,b) =>
          if left < run.length then .error .corrupt
          else codeLengths c fuel (left-run.length) (run ++ known) b

def dynamicCodes (b : Bits) : Except Stop (Codes × Bits) := do
  let (m,b) ← bits 5 b
  let (d,b) ← bits 5 b
  let (n,b) ← bits 4 b
  if 286 < m+257 ∨ 30 < d+1 then .error .corrupt
  else
    let (ls,b) ← numbers (n+4) 3 b
    let given := lengthOrder.zip ls
    let lengths := (List.range 19).map fun i => ((given.find? fun g => g.1 = i).map (·.2)).getD 0
    let code := Code.ofLengths lengths
    if code.weight ≠ Nat.pow 2 Code.maxLength then .error .corrupt
    else
      let (all,b) ← codeLengths code (m+d+259) (m+257+d+1) [] b
      let main := Code.ofLengths (all.take (m+257))
      let distance := Code.ofLengths (all.drop (m+257))
      if main.isUsable && distance.isUsable then return (⟨main,distance⟩,b) else .error .corrupt

def stored (b : Bits) (out : Array UInt8) : Array UInt8 × Except Stop Bits :=
  match b.bytes with
  | l₀ :: l₁ :: n₀ :: n₁ :: rest =>
    let length := ofLittleEndian [l₀,l₁]
    if length + ofLittleEndian [n₀,n₁] ≠ 65535 then (out,.error .corrupt)
    else
      let content := rest.take length
      (out ++ content.toArray,
        if content.length < length then .error .short else .ok (.ofBytes (rest.drop length)))
  | _ => (out,.error .short)

def block (kind : Nat) (b : Bits) (out : Array UInt8) : Array UInt8 × Except Stop Bits :=
  if kind = 0 then stored b out
  else if kind = 1 then symbols fixedCodes (b.size+1) b out
  else if kind = 2 then
    match dynamicCodes b with
    | .error s => (out,.error s)
    | .ok (c,b) => symbols c (b.size+1) b out
  else (out,.error .corrupt)

structure Inflated where
  out : Array UInt8
  rest : Except Stop Bytes

def blocks : Nat → Bits → Array UInt8 → Inflated
  | 0, _, out => ⟨out,.error .corrupt⟩
  | fuel+1, b, out =>
    match bits 1 b with
    | .error s => ⟨out,.error s⟩
    | .ok (last,b) =>
      match bits 2 b with
      | .error s => ⟨out,.error s⟩
      | .ok (kind,b) =>
        match block kind b out with
        | (out,.error s) => ⟨out,.error s⟩
        | (out,.ok b) => if last = 1 then ⟨out,.ok b.bytes⟩ else blocks fuel b out

def inflate (bs : Bytes) : Inflated := blocks (8*bs.length+1) (.ofBytes bs) #[]

def blockLimit : Nat := 65535

def storedBlock (last : Bool) (content : Bytes) : Bytes :=
  (if last then 1 else 0) :: littleEndian 2 content.length ++
    littleEndian 2 (65535-content.length) ++ content

/-- Stored blocks, as many as the bytes need, at least one. -/
def deflate (bs : Bytes) : Bytes :=
  if _h : bs.length ≤ blockLimit then storedBlock true bs
  else storedBlock false (bs.take blockLimit) ++ deflate (bs.drop blockLimit)
termination_by bs.length
decreasing_by simp only [List.length_drop,blockLimit] at *; omega

end Workbench.Archive
