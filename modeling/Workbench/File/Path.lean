import Workbench.Text.Lines
import Workbench.Text.Literal
import Workbench.Text.Lowercase
set_option autoImplicit false

/-!
Paths as texts, and their components. Two paths are the same when their components are: repeated
and final slashes do not matter, nor does a dot other than the first component.
-/
namespace Workbench.File
open Text

inductive Component where
  | root
  | here
  | up
  | name (t : Text)
  deriving DecidableEq, Repr

def Component.ofPiece? (t : Text) : Option Component :=
  if t = [] ∨ t = ['.'] then none
  else if t = ['.','.'] then some .up
  else some (.name t)

/-- A dot before the first slash is kept, any other is not. -/
def components (path : Text) : List Component :=
  let pieces := splitOn '/' path
  let named := pieces.filterMap Component.ofPiece?
  match pieces with
  | [] :: _ :: _ => .root :: named
  | ['.'] :: _ => .here :: named
  | _ => named

/-- `path` taken from the directory `base`; one that starts at the root stands by itself. -/
def join (base path : Text) : Text :=
  match path with
  | '/' :: _ => path
  | _ => if base = [] ∨ endsWith ['/'] base then base ++ path else base ++ ['/'] ++ path

/-- What follows the last dot of a name, unless that dot is its first character. -/
def extension? (name : Text) : Option Text :=
  let back := name.reverse
  match back.dropWhile (· != '.') with
  | _ :: _ :: _ => some (back.takeWhile (· != '.')).reverse
  | _ => none

def kind? (name : Text) : Option Text :=
  match extension? name with
  | none => none
  | some [] => none
  | some e => some ('.' :: lower e)

end Workbench.File
