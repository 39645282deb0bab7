import Workbench.Text.Table.Alphabetic
import Workbench.Text.Table.Numeric
import Workbench.Text.Table.WordMark
set_option autoImplicit false

/-!
Letters, digits and word characters. Two notions meet here: the words of a description are runs
of letters and digits, while the edges of a word in source text also count marks, connecting
punctuation and the join controls.
-/
namespace Workbench.Text

def isAlphabetic (c : Char) : Bool := alphabeticRanges.member Char.isAlpha c

/-- The property Alphabetic or one of the number categories Nd, Nl and No. -/
def isAlphanumeric (c : Char) : Bool :=
  isAlphabetic c || numericRanges.member Char.isDigit c

def isWordChar (c : Char) : Bool :=
  isAlphabetic c || wordMarkRanges.member (fun a => a.isDigit || a == '_') c

/-- No word character stands at this side of an edge; the end of a text counts as none. -/
def edge : Option Char → Bool
  | none => true
  | some c => !isWordChar c

def isIdentStart (c : Char) : Bool := c.isAlpha || c == '_'

def isIdentPart (c : Char) : Bool := c.isAlphanum || c == '_'

end Workbench.Text
