import Workbench.Text.Quoted
set_option autoImplicit false

/-!
Texts as bytes. A decoder reads one character at a time; where it cannot, it says how many bytes
are beyond repair, which is at least one and never reaches into a character that could follow.
-/
namespace Workbench

/-- A run of octets, the form in which everything is stored. -/
abbrev Bytes := List UInt8

namespace Text

def utf8Char (c : Char) : Bytes :=
  let n := c.toNat
  if n < 0x80 then [n.toUInt8]
  else if n < 0x800 then [(0xC0+n/64).toUInt8,(0x80+n%64).toUInt8]
  else if n < 0x10000 then [(0xE0+n/4096).toUInt8,(0x80+n/64%64).toUInt8,(0x80+n%64).toUInt8]
  else [(0xF0+n/262144).toUInt8,(0x80+n/4096%64).toUInt8,(0x80+n/64%64).toUInt8,
    (0x80+n%64).toUInt8]

def utf8 (t : Text) : Bytes := t.flatMap utf8Char

def utf8Width (c : Char) : Nat :=
  if c.toNat < 0x80 then 1 else if c.toNat < 0x800 then 2 else if c.toNat < 0x10000 then 3 else 4

def utf8Length (t : Text) : Nat := t.foldl (fun n c => n + utf8Width c) 0

/-- What stands at the front of a run of bytes: a character and the number of bytes behind its
first, a number of bytes that no character starts with, or the start of a character cut off. -/
inductive Utf8Step where
  | char (c : Char) (more : Nat)
  | bad (width : Nat)
  | short
  deriving DecidableEq, Repr

def isTail (b : UInt8) : Bool := 0x80 ≤ b && b ≤ 0xBF

/-- The least and the greatest second byte that may follow a first byte of three or four. -/
def secondRange (a : UInt8) : UInt8 × UInt8 :=
  if a == 0xE0 then (0xA0,0xBF)
  else if a == 0xED then (0x80,0x9F)
  else if a == 0xF0 then (0x90,0xBF)
  else if a == 0xF4 then (0x80,0x8F)
  else (0x80,0xBF)

def isSecond (a b : UInt8) : Bool := (secondRange a).1 ≤ b && b ≤ (secondRange a).2

def utf8Step (a : UInt8) (rest : Bytes) : Utf8Step :=
  if a < 0x80 then .char (Char.ofNat a.toNat) 0
  else if 0xC2 ≤ a && a ≤ 0xDF then
    match rest with
    | [] => .short
    | b :: _ =>
      if !isTail b then .bad 1
      else .char (Char.ofNat ((a.toNat-0xC0)*64+(b.toNat-0x80))) 1
  else if 0xE0 ≤ a && a ≤ 0xEF then
    match rest with
    | [] => .short
    | b :: rest =>
      if !isSecond a b then .bad 1
      else match rest with
        | [] => .short
        | c :: _ =>
          if !isTail c then .bad 2
          else .char (Char.ofNat ((a.toNat-0xE0)*4096+(b.toNat-0x80)*64+(c.toNat-0x80))) 2
  else if 0xF0 ≤ a && a ≤ 0xF4 then
    match rest with
    | [] => .short
    | b :: rest =>
      if !isSecond a b then .bad 1
      else match rest with
        | [] => .short
        | c :: rest =>
          if !isTail c then .bad 2
          else match rest with
            | [] => .short
            | d :: _ =>
              if !isTail d then .bad 3
              else .char (Char.ofNat ((a.toNat-0xF0)*262144+(b.toNat-0x80)*4096
                +(c.toNat-0x80)*64+(d.toNat-0x80))) 3
  else .bad 1

/-- Where decoding stopped, and how many bytes are beyond repair there; none when the bytes
merely end too early. -/
structure Utf8Fault where
  index : Nat
  width : Option Nat
  deriving DecidableEq, Repr

def Utf8Fault.message : Utf8Fault → Text
  | ⟨i,some w⟩ => "invalid utf-8 sequence of ".toList ++ decimal w ++
      " bytes from index ".toList ++ decimal i
  | ⟨i,none⟩ => "incomplete utf-8 byte sequence from index ".toList ++ decimal i

def utf8DecodeFrom (index : Nat) (bs : Bytes) : Except Utf8Fault Text :=
  match bs with
  | [] => .ok []
  | b :: rest =>
    match utf8Step b rest with
    | .char c more =>
      match utf8DecodeFrom (index+1+more) (rest.drop more) with
      | .ok t => .ok (c :: t)
      | .error e => .error e
    | .bad w => .error ⟨index,some w⟩
    | .short => .error ⟨index,none⟩
termination_by bs.length
decreasing_by simp only [List.length_drop,List.length_cons]; omega

def utf8Decode (bs : Bytes) : Except Utf8Fault Text := utf8DecodeFrom 0 bs

def utf8Decode? (bs : Bytes) : Option Text := (utf8Decode bs).toOption

def utf8Lossy (bs : Bytes) : Text :=
  match bs with
  | [] => []
  | b :: rest =>
    match utf8Step b rest with
    | .char c more => c :: utf8Lossy (rest.drop more)
    | .bad w => '\uFFFD' :: utf8Lossy (rest.drop (w-1))
    | .short => ['\uFFFD']
termination_by bs.length
decreasing_by all_goals (simp only [List.length_drop,List.length_cons]; omega)

/-- Bytes between double quotes as a path is shown in a message: as a text is, an apostrophe behind a
backslash, and byte by byte where they are none. -/
def quotedBytes (bs : Bytes) : Text := ['"'] ++ body bs ++ ['"']
where
  byte (b : UInt8) : Text := "\\x".toList ++ (padStart 2 '0' (hex b.toNat)).map Char.toUpper
  char (c : Char) : Text := if c = '\'' then ['\\',c] else quotedChar c
  body (bs : Bytes) : Text :=
    match bs with
    | [] => []
    | b :: rest =>
      match utf8Step b rest with
      | .char c more => char c ++ body (rest.drop more)
      | .bad w => (b :: rest.take (w-1)).flatMap byte ++ body (rest.drop (w-1))
      | .short => (b :: rest).flatMap byte
  termination_by bs.length
  decreasing_by all_goals (simp only [List.length_drop,List.length_cons]; omega)

end Text
end Workbench
