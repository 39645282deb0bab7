import Workbench.Json.Value
import Workbench.Text.Utf8
set_option autoImplicit false

/-!
Reading JSON from bytes. A fault says what was wrong and where: the line, from one, and the
number of bytes of that line up to and including the byte at fault, or up to the end.

The bound on recursion is the depth of nesting that is accepted; the readers that look at one
item after another count the bytes that are left.
-/
namespace Workbench.Json

inductive Problem where
  | eofValue
  | eofList
  | eofObject
  | eofString
  | expectedValue
  | expectedIdent
  | expectedColon
  | expectedListEnd
  | expectedObjectEnd
  | keyNotString
  | trailingComma
  | trailingCharacters
  | invalidNumber
  | numberOutOfRange
  | invalidEscape
  | endOfHexEscape
  | loneSurrogate
  | invalidCodePoint
  | controlCharacter
  | recursionLimit
  | duplicateField (name : Text)
  | missingField (name : Text)
  | invalidType (found wanted : Text)
  | invalidLength (length : Nat) (wanted : Text)
  | other (message : Text)
  deriving DecidableEq, Repr

def backquoted (t : Text) : Text := ['\x60'] ++ t ++ ['\x60']

def Problem.message : Problem → Text
  | .eofValue => "EOF while parsing a value".toList
  | .eofList => "EOF while parsing a list".toList
  | .eofObject => "EOF while parsing an object".toList
  | .eofString => "EOF while parsing a string".toList
  | .expectedValue => "expected value".toList
  | .expectedIdent => "expected ident".toList
  | .expectedColon => "expected `:`".toList
  | .expectedListEnd => "expected `,` or `]`".toList
  | .expectedObjectEnd => "expected `,` or `\x7d`".toList
  | .keyNotString => "key must be a string".toList
  | .trailingComma => "trailing comma".toList
  | .trailingCharacters => "trailing characters".toList
  | .invalidNumber => "invalid number".toList
  | .numberOutOfRange => "number out of range".toList
  | .invalidEscape => "invalid escape".toList
  | .endOfHexEscape => "unexpected end of hex escape".toList
  | .loneSurrogate => "lone leading surrogate in hex escape".toList
  | .invalidCodePoint => "invalid unicode code point".toList
  | .controlCharacter =>
    "control character (\\u0000-\\u001F) found while parsing a string".toList
  | .recursionLimit => "recursion limit exceeded".toList
  | .duplicateField n => "duplicate field ".toList ++ backquoted n
  | .missingField n => "missing field ".toList ++ backquoted n
  | .invalidType f w => "invalid type: ".toList ++ f ++ ", expected ".toList ++ w
  | .invalidLength n w => "invalid length ".toList ++ Text.decimal n ++ ", expected ".toList ++ w
  | .other m => m

structure Fault where
  problem : Problem
  line : Nat
  column : Nat
  deriving DecidableEq, Repr

def Fault.message (f : Fault) : Text :=
  f.problem.message ++ " at line ".toList ++ Text.decimal f.line ++ " column ".toList ++
    Text.decimal f.column

structure Cursor where
  rest : Bytes
  line : Nat
  column : Nat
  deriving DecidableEq, Repr

namespace Cursor

def start (bs : Bytes) : Cursor := ⟨bs,1,0⟩

def past (c : Cursor) (b : UInt8) (rest : Bytes) : Cursor :=
  if b = 10 then ⟨rest,c.line+1,0⟩ else ⟨rest,c.line,c.column+1⟩

def skip (c : Cursor) : Cursor :=
  match c.rest with
  | [] => c
  | b :: rest => c.past b rest

def skipMany : Nat → Cursor → Cursor
  | 0, c => c
  | n+1, c => skipMany n c.skip

def peek (c : Cursor) : Option UInt8 := c.rest.head?

def fault (c : Cursor) (p : Problem) : Fault := ⟨p,c.line,c.column⟩

def faultNext (c : Cursor) (p : Problem) : Fault := c.skip.fault p

end Cursor

def isSpace (b : UInt8) : Bool := b == 32 || b == 10 || b == 9 || b == 13

def isDigit (b : UInt8) : Bool := 48 ≤ b && b ≤ 57

def skipWhile (p : UInt8 → Bool) (c : Cursor) : Cursor :=
  go c.rest c
where
  go : Bytes → Cursor → Cursor
    | [], c => c
    | b :: rest, c => if p b then go rest (c.past b rest) else c

def skipSpaces (c : Cursor) : Cursor := skipWhile isSpace c

abbrev Result (α : Type) := Except Fault (α × Cursor)

def ident : Bytes → Cursor → Except Fault Cursor
  | [], c => .ok c
  | w :: ws, c =>
    match c.rest with
    | [] => .error (c.fault .eofValue)
    | b :: _ => if b = w then ident ws c.skip else .error (c.skip.fault .expectedIdent)

def ascii (s : String) : Bytes := s.toList.map fun c => c.toNat.toUInt8

def digitValue (b : UInt8) : Nat := b.toNat - 48

def digitsValue (ds : Bytes) : Nat := ds.foldl (fun n b => 10*n+digitValue b) 0

/-- A number as it is written: digits before and behind the point, and an exponent. -/
structure Literal where
  negative : Bool
  whole : Bytes
  fraction : Bytes
  exponent : Option Int
  deriving DecidableEq, Repr

def Literal.digits (l : Literal) : Nat := digitsValue (l.whole ++ l.fraction)

def exponentLimit : Nat := 2147483648

/-- The exponent behind its mark. One beyond the limit ends reading at its first digit too many,
unless it makes the number zero. -/
def exponent (isZero : Bool) (c : Cursor) : Result Int :=
  let sign := c.peek
  let c := if sign = some 43 || sign = some 45 then c.skip else c
  match c.rest with
  | [] => .error (c.fault .eofValue)
  | b :: _ =>
    if !isDigit b then .error (c.skip.fault .invalidNumber)
    else
      let ds := c.rest.takeWhile isDigit
      let short := within 0 0 ds
      if short < ds.length then
        if !isZero && sign ≠ some 45 then
          .error ((c.skipMany (short+1)).fault .numberOutOfRange)
        else .ok (-(exponentLimit : Int),skipWhile isDigit c)
      else
        let n : Int := digitsValue ds
        .ok (if sign = some 45 then -n else n,skipWhile isDigit c)
where
  /-- How many digits are read before the limit is reached. -/
  within (n count : Nat) : Bytes → Nat
    | [] => count
    | b :: bs =>
      let n := 10*n+digitValue b
      if n < exponentLimit then within n (count+1) bs else count

def literal (negative : Bool) (c : Cursor) : Result Literal :=
  match c.rest with
  | [] => .error (c.fault .eofValue)
  | b :: rest =>
    if !isDigit b then .error (c.skip.fault .invalidNumber)
    else if b = 48 && (rest.head?.any isDigit) then .error (c.skip.faultNext .invalidNumber)
    else
      let whole := c.rest.takeWhile isDigit
      let c := skipWhile isDigit c
      match c.peek with
      | some 46 =>
        let c := c.skip
        let fraction := c.rest.takeWhile isDigit
        if fraction.isEmpty then
          .error (c.faultNext (if c.rest.isEmpty then .eofValue else .invalidNumber))
        else
          let c := skipWhile isDigit c
          withExponent ⟨negative,whole,fraction,none⟩ c
      | _ => withExponent ⟨negative,whole,[],none⟩ c
where
  withExponent (l : Literal) (c : Cursor) : Result Literal :=
    if c.peek = some 101 || c.peek = some 69 then
      match exponent (l.digits = 0) c.skip with
      | .ok (e,c) => .ok ({l with exponent := some e},c)
      | .error f => .error f
    else .ok (l,c)

/-- The number that a literal stands for; none if it is beyond all numbers. An integer keeps its
value if 64 bits hold it, except for a negative zero. -/
def Literal.value? (l : Literal) : Option Json :=
  let n := l.digits
  if l.fraction.isEmpty && l.exponent.isNone &&
      (if l.negative then 0 < n && n ≤ Nat.pow 2 63 else n < Nat.pow 2 64) then
    some (.int (if l.negative then -(n : Int) else n))
  else
    (Binary64.nearest? l.negative n (l.exponent.getD 0 - (l.fraction.length : Int))).map .float

def readNumber (negative : Bool) (c : Cursor) : Result Json :=
  match literal negative c with
  | .error f => .error f
  | .ok (l,c) =>
    match l.value? with
    | some v => .ok (v,c)
    | none => .error (c.fault .numberOutOfRange)

def hexValue? (b : UInt8) : Option Nat :=
  if 48 ≤ b && b ≤ 57 then some (b.toNat-48)
  else if 65 ≤ b && b ≤ 70 then some (b.toNat-55)
  else if 97 ≤ b && b ≤ 102 then some (b.toNat-87)
  else none

def hexEscape (c : Cursor) : Result Nat :=
  match c.rest with
  | h₁ :: h₂ :: h₃ :: h₄ :: _ =>
    let d := c.skipMany 4
    match hexValue? h₁,hexValue? h₂,hexValue? h₃,hexValue? h₄ with
    | some a,some b,some e,some f => .ok (a*4096+b*256+e*16+f,d)
    | _,_,_,_ => .error (d.fault .invalidEscape)
  | _ => .error ((c.skipMany 3).fault .eofString)

/-- The character of an escape by number, with the cursor behind its letter. A leading surrogate
needs a trailing one, escaped as well. -/
def unicodeEscape (c : Cursor) : Result Char :=
  match hexEscape c with
  | .error f => .error f
  | .ok (n,c) =>
    if 0xDC00 ≤ n && n ≤ 0xDFFF then .error (c.fault .loneSurrogate)
    else if n < 0xD800 || 0xDBFF < n then .ok (Char.ofNat n,c)
    else
      match c.rest with
      | [] => .error (c.fault .eofString)
      | b :: _ =>
        if b ≠ 92 then .error (c.skip.fault .endOfHexEscape)
        else
          let c := c.skip
          match c.rest with
          | [] => .error (c.fault .eofString)
          | b :: _ =>
            if b ≠ 117 then .error (c.skip.fault .endOfHexEscape)
            else
              match hexEscape c.skip with
              | .error f => .error f
              | .ok (m,c) =>
                if m < 0xDC00 || 0xDFFF < m then .error (c.fault .loneSurrogate)
                else .ok (Char.ofNat ((n-0xD800)*1024+(m-0xDC00)+0x10000),c)

def shortEscape? (b : UInt8) : Option Char :=
  if b = 34 then some '"'
  else if b = 92 then some '\\'
  else if b = 47 then some '/'
  else if b = 98 then some '\x08'
  else if b = 102 then some '\x0c'
  else if b = 110 then some '\n'
  else if b = 114 then some '\r'
  else if b = 116 then some '\t'
  else none

/-- The bytes of a string up to its closing quote, escapes resolved; the cursor is left at the
quote. -/
def stringBytes : Nat → Cursor → Result Bytes
  | 0, c => .error (c.fault .eofString)
  | fuel+1, c =>
    match c.rest with
    | [] => .error (c.fault .eofString)
    | b :: _ =>
      if b = 34 then .ok ([],c)
      else if b = 92 then
        let c := c.skip
        match c.rest with
        | [] => .error (c.fault .eofString)
        | e :: _ =>
          if e = 117 then
            match unicodeEscape c.skip with
            | .error f => .error f
            | .ok (ch,c) => more (Text.utf8Char ch) fuel c
          else
            match shortEscape? e with
            | some ch => more (Text.utf8Char ch) fuel c.skip
            | none => .error (c.skip.fault .invalidEscape)
      else if b < 32 then .error (c.skip.fault .controlCharacter)
      else more [b] fuel c.skip
where
  more (front : Bytes) (fuel : Nat) (c : Cursor) : Result Bytes :=
    match stringBytes fuel c with
    | .error f => .error f
    | .ok (bs,c) => .ok (front ++ bs,c)

def readString (c : Cursor) : Result Text :=
  match stringBytes (c.rest.length+1) c with
  | .error f => .error f
  | .ok (bs,c) =>
    match Text.utf8Decode? bs with
    | some t => .ok (t,c.skip)
    | none => .error (c.fault .invalidCodePoint)

def moreItems (first : Bool) (c : Cursor) : Result Bool :=
  let c := skipSpaces c
  match c.peek with
  | none => .error (c.faultNext .eofList)
  | some 93 => .ok (false,c)
  | some b =>
    if first then .ok (true,c)
    else if b = 44 then
      let c := skipSpaces c.skip
      match c.peek with
      | some 93 => .error (c.faultNext .trailingComma)
      | some _ => .ok (true,c)
      | none => .error (c.faultNext .eofValue)
    else .error (c.faultNext .expectedListEnd)

def moreKeys (first : Bool) (c : Cursor) : Result Bool :=
  let c := skipSpaces c
  match c.peek with
  | none => .error (c.faultNext .eofObject)
  | some 125 => .ok (false,c)
  | some b =>
    if first then
      if b = 34 then .ok (true,c) else .error (c.faultNext .keyNotString)
    else if b = 44 then
      let c := skipSpaces c.skip
      match c.peek with
      | some 34 => .ok (true,c)
      | some 125 => .error (c.faultNext .trailingComma)
      | some _ => .error (c.faultNext .keyNotString)
      | none => .error (c.faultNext .eofValue)
    else .error (c.faultNext .expectedObjectEnd)

def colon (c : Cursor) : Except Fault Cursor :=
  let c := skipSpaces c
  match c.peek with
  | some 58 => .ok c.skip
  | some _ => .error (c.faultNext .expectedColon)
  | none => .error (c.faultNext .eofObject)

def closeList (c : Cursor) : Cursor × Option Fault :=
  let c := skipSpaces c
  match c.peek with
  | some 93 => (c.skip,none)
  | some 44 =>
    let c := skipSpaces c.skip
    (c,some (c.faultNext (if c.peek = some 93 then .trailingComma else .trailingCharacters)))
  | some _ => (c,some (c.faultNext .trailingCharacters))
  | none => (c,some (c.faultNext .eofList))

def closeObject (c : Cursor) : Cursor × Option Fault :=
  let c := skipSpaces c
  match c.peek with
  | some 125 => (c.skip,none)
  | some 44 => (c,some (c.faultNext .trailingComma))
  | some _ => (c,some (c.faultNext .trailingCharacters))
  | none => (c,some (c.faultNext .eofObject))

/-- Nested lists and objects are read up to this depth, less one. -/
def maxDepth : Nat := 128

mutual

/-- Any value. `depth` is how many brackets may still be opened, plus one. -/
def valueAt : Nat → Nat → Cursor → Result Json
  | 0, _, c => .error (c.fault .eofValue)
  | fuel+1, depth, c =>
    let c := skipSpaces c
    match c.peek with
    | none => .error (c.faultNext .eofValue)
    | some b =>
      if b = 110 then (ident (ascii "ull") c.skip).map fun c => (.null,c)
      else if b = 116 then (ident (ascii "rue") c.skip).map fun c => (.bool true,c)
      else if b = 102 then (ident (ascii "alse") c.skip).map fun c => (.bool false,c)
      else if b = 45 then readNumber true c.skip
      else if isDigit b then readNumber false c
      else if b = 34 then (readString c.skip).map fun r => (.string r.1,r.2)
      else if b = 91 then
        if depth ≤ 1 then .error (c.faultNext .recursionLimit)
        else
          match itemsAt fuel (depth-1) true c.skip with
          | .error f => .error f
          | .ok (vs,c) => .ok (.array vs,c.skip)
      else if b = 123 then
        if depth ≤ 1 then .error (c.faultNext .recursionLimit)
        else
          match membersAt fuel (depth-1) true [] c.skip with
          | .error f => .error f
          | .ok (ms,c) => .ok (.object ms,c.skip)
      else .error (c.faultNext .expectedValue)

def itemsAt : Nat → Nat → Bool → Cursor → Result (List Json)
  | 0, _, _, c => .error (c.fault .eofList)
  | fuel+1, depth, first, c =>
    match moreItems first c with
    | .error f => .error f
    | .ok (false,c) => .ok ([],c)
    | .ok (true,c) =>
      match valueAt fuel depth c with
      | .error f => .error f
      | .ok (v,c) =>
        match itemsAt fuel depth false c with
        | .error f => .error f
        | .ok (vs,c) => .ok (v :: vs,c)

/-- The members up to the brace, added to those known: ascending keys, the last value wins. -/
def membersAt : Nat → Nat → Bool → List (Text × Json) → Cursor → Result (List (Text × Json))
  | 0, _, _, _, c => .error (c.fault .eofObject)
  | fuel+1, depth, first, known, c =>
    match moreKeys first c with
    | .error f => .error f
    | .ok (false,c) => .ok (known,c)
    | .ok (true,c) =>
      match readString c.skip with
      | .error f => .error f
      | .ok (k,c) =>
        match colon c with
        | .error f => .error f
        | .ok c =>
          match valueAt fuel depth c with
          | .error f => .error f
          | .ok (v,c) => membersAt fuel depth false (insertEntry k v known) c

end

/-- Enough for every value that the cursor can hold: each step of the readers takes a byte. -/
def fuelFor (c : Cursor) : Nat := 2*c.rest.length+2

def skipStringFrom : Nat → Cursor → Except Fault Cursor
  | 0, c => .error (c.fault .eofString)
  | fuel+1, c =>
    match c.rest with
    | [] => .error (c.fault .eofString)
    | b :: _ =>
      if b = 34 then .ok c.skip
      else if b = 92 then
        let c := c.skip
        match c.rest with
        | [] => .error (c.fault .eofString)
        | e :: _ =>
          if e = 117 then
            match hexEscape c.skip with
            | .error f => .error f
            | .ok (_,c) => skipStringFrom fuel c
          else if (shortEscape? e).isSome then skipStringFrom fuel c.skip
          else .error (c.skip.fault .invalidEscape)
      else if b < 32 then .error (c.fault .controlCharacter)
      else skipStringFrom fuel c.skip

/-- A string that nobody asks for: its bytes need not be characters. -/
def skipString (c : Cursor) : Except Fault Cursor := skipStringFrom (c.rest.length+1) c

def skipExponent (c : Cursor) : Except Fault Cursor :=
  let c := if c.peek = some 43 || c.peek = some 45 then c.skip else c
  match c.rest with
  | [] => .error (c.fault .invalidNumber)
  | b :: _ =>
    if isDigit b then .ok (skipWhile isDigit c) else .error (c.skip.fault .invalidNumber)

def skipNumber (c : Cursor) : Except Fault Cursor :=
  match c.rest with
  | [] => .error (c.fault .invalidNumber)
  | b :: rest =>
    if !isDigit b then .error (c.skip.fault .invalidNumber)
    else if b = 48 && (rest.head?.any isDigit) then .error (c.skip.faultNext .invalidNumber)
    else
      let c := skipWhile isDigit c
      match c.peek with
      | some 46 =>
        let c := c.skip
        if !(c.peek.any isDigit) then .error (c.faultNext .invalidNumber)
        else afterDigits (skipWhile isDigit c)
      | _ => afterDigits c
where
  afterDigits (c : Cursor) : Except Fault Cursor :=
    if c.peek = some 101 || c.peek = some 69 then skipExponent c.skip else .ok c

mutual

def skipValueAt : Nat → Cursor → Except Fault Cursor
  | 0, c => .error (c.fault .eofValue)
  | fuel+1, c =>
    let c := skipSpaces c
    match c.peek with
    | none => .error (c.faultNext .eofValue)
    | some b =>
      if b = 110 then ident (ascii "ull") c.skip
      else if b = 116 then ident (ascii "rue") c.skip
      else if b = 102 then ident (ascii "alse") c.skip
      else if b = 45 then skipNumber c.skip
      else if isDigit b then skipNumber c
      else if b = 34 then skipString c.skip
      else if b = 91 then
        let c := skipSpaces c.skip
        match c.peek with
        | none => .error (c.faultNext .eofList)
        | some 93 => .ok c.skip
        | some _ => skipItemsAt fuel c
      else if b = 123 then
        let c := skipSpaces c.skip
        match c.peek with
        | none => .error (c.faultNext .eofObject)
        | some 125 => .ok c.skip
        | some _ => skipMembersAt fuel c
      else .error (c.faultNext .expectedValue)

def skipItemsAt : Nat → Cursor → Except Fault Cursor
  | 0, c => .error (c.fault .eofList)
  | fuel+1, c =>
    match skipValueAt fuel c with
    | .error f => .error f
    | .ok c =>
      let c := skipSpaces c
      match c.peek with
      | none => .error (c.faultNext .eofList)
      | some 44 => skipItemsAt fuel c.skip
      | some 93 => .ok c.skip
      | some _ => .error (c.faultNext .expectedListEnd)

def skipMembersAt : Nat → Cursor → Except Fault Cursor
  | 0, c => .error (c.fault .eofObject)
  | fuel+1, c =>
    let c := skipSpaces c
    match c.peek with
    | none => .error (c.faultNext .eofObject)
    | some 34 =>
      match skipString c.skip with
      | .error f => .error f
      | .ok c =>
        match colon c with
        | .error f => .error f
        | .ok c =>
          match skipValueAt fuel c with
          | .error f => .error f
          | .ok c =>
            let c := skipSpaces c
            match c.peek with
            | none => .error (c.faultNext .eofObject)
            | some 44 => skipMembersAt fuel c.skip
            | some 125 => .ok c.skip
            | some _ => .error (c.faultNext .expectedObjectEnd)
    | some _ => .error (c.faultNext .keyNotString)

end

def skipValue (c : Cursor) : Except Fault Cursor := skipValueAt (fuelFor c) c

def atEnd (c : Cursor) : Except Fault Unit :=
  let c := skipSpaces c
  if c.rest.isEmpty then .ok () else .error (c.faultNext .trailingCharacters)

def describe : Json → Text
  | .null => "null".toList
  | .bool b => "boolean ".toList ++ backquoted (if b then "true".toList else "false".toList)
  | .int n => "integer ".toList ++ backquoted (intText n)
  | .float x => "floating point ".toList ++ backquoted (x.text floatStyle)
  | .string t => "string ".toList ++ Text.quoted t
  | .array _ => "sequence".toList
  | .object _ => "map".toList

/-- The fault of a value of another kind than the wanted one. A list or an object is not read
any further than to its bracket. -/
def wrongType (wanted : Text) (c : Cursor) : Fault :=
  match c.peek with
  | some 91 => c.fault (.invalidType (describe (.array [])) wanted)
  | some 123 => c.fault (.invalidType (describe (.object [])) wanted)
  | _ =>
    match valueAt 1 1 c with
    | .ok (v,c) => c.fault (.invalidType (describe v) wanted)
    | .error f => f

def wantString (wanted : Text) (c : Cursor) : Result Text :=
  let c := skipSpaces c
  match c.peek with
  | none => .error (c.faultNext .eofValue)
  | some 34 => readString c.skip
  | some _ => .error (wrongType wanted c)

def wantObject (depth : Nat) (c : Cursor) : Result (List (Text × Json)) :=
  let c := skipSpaces c
  match c.peek with
  | none => .error (c.faultNext .eofValue)
  | some 123 =>
    if depth ≤ 1 then .error (c.faultNext .recursionLimit)
    else
      match membersAt (fuelFor c) (depth-1) true [] c.skip with
      | .error f => .error f
      | .ok (ms,c) => .ok (ms,c.skip)
  | some _ => .error (wrongType "a map".toList c)

end Workbench.Json
