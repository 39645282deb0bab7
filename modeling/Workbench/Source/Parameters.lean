import Workbench.Text.Lines
import Workbench.Text.Blank
set_option autoImplicit false

/-!
Parameter lists. The first scanner finds the parenthesis that closes a list, the second cuts the
list at its own commas. Both keep count of open brackets and of the quote they stand in; only the
first knows that a backslash in a string takes the next character along.
-/
namespace Workbench.Source
open Text

def isQuote (c : Char) : Bool := c == '\'' || c == '"'
def isOpening (c : Char) : Bool := c == '(' || c == '[' || c == '\x7b'
def isClosing (c : Char) : Bool := c == ')' || c == ']' || c == '\x7d'

/-- The number of open brackets and, inside a string, the quote that ends it. `escaped` says
that a backslash stands before the next character of a string. -/
structure Nesting where
  depth : Nat
  quote : Option Char
  escaped : Bool
  deriving DecidableEq, Repr

def Nesting.start : Nesting := ⟨0,none,false⟩

/-- A bracket that closes nothing leaves the count at zero. -/
def Nesting.outside (s : Nesting) (c : Char) : Nesting :=
  if isQuote c then {s with quote := some c}
  else if isOpening c then {s with depth := s.depth+1}
  else if isClosing c then {s with depth := s.depth-1}
  else s

def Nesting.step (s : Nesting) (c : Char) : Nesting :=
  match s.quote with
  | some q =>
    if s.escaped then {s with escaped := false}
    else if c = '\\' then {s with escaped := true}
    else if c = q then {s with quote := none}
    else s
  | none => s.outside c

/-- One character, where a string ends at the next quote of its kind. -/
def Nesting.plainStep (s : Nesting) (c : Char) : Nesting :=
  match s.quote with
  | some q => if c = q then {s with quote := none} else s
  | none => s.outside c

def Nesting.isTop (s : Nesting) : Bool := s.quote.isNone && s.depth == 0

def enclosedFrom (s : Nesting) : Text → Option Text
  | [] => none
  | c :: cs => if s.isTop && c == ')' then some [] else (enclosedFrom (s.step c) cs).map (c :: ·)

def enclosed? (t : Text) : Option Text := enclosedFrom .start t

def splitTopFrom (s : Nesting) : Text → List Text
  | [] => [[]]
  | c :: cs =>
    if s.isTop && c == ',' then [] :: splitTopFrom s cs
    else match splitTopFrom (s.plainStep c) cs with
      | [] => [[c]]
      | w :: ws => (c :: w) :: ws

/-- The trimmed pieces between the commas outside brackets and strings, empty ones dropped. -/
def splitTop (t : Text) : List Text :=
  ((splitTopFrom .start t).map trim).filter fun p => !p.isEmpty

end Workbench.Source
