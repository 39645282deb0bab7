import Workbench.Text.Table.Unprintable
set_option autoImplicit false

/-!
A text between double quotes as it is shown in a message: quotes, backslashes and the usual
control characters have a short escape, every other character that would not show itself is
written by its number, and the rest stands as it is.
-/
namespace Workbench.Text

def hexDigit (n : Nat) : Char := if n < 10 then Char.ofNat (48+n) else Char.ofNat (87+n)

def digits (base n : Nat) : Text :=
  if _h : n < base ∨ base < 2 then [hexDigit n]
  else digits base (n / base) ++ [hexDigit (n % base)]
termination_by n
decreasing_by exact Nat.div_lt_self (by omega) (by omega)

def hex (n : Nat) : Text := digits 16 n

def decimal (n : Nat) : Text := digits 10 n

def padStart (width : Nat) (c : Char) (t : Text) : Text :=
  List.replicate (width-t.length) c ++ t

def isUnprintable (c : Char) : Bool :=
  unprintableRanges.member (fun a => a.toNat < 32 || a.toNat == 127) c

def quotedChar (c : Char) : Text :=
  if c == '"' then ['\\','"']
  else if c == '\\' then ['\\','\\']
  else if c == '\x00' then ['\\','0']
  else if c == '\t' then ['\\','t']
  else if c == '\n' then ['\\','n']
  else if c == '\r' then ['\\','r']
  else if isUnprintable c then "\\u\x7b".toList ++ hex c.toNat ++ ['\x7d']
  else [c]

def quoted (t : Text) : Text := ['"'] ++ t.flatMap quotedChar ++ ['"']

end Workbench.Text
