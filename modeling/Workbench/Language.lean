import Workbench.Text.Blank
import Workbench.Text.Lowercase
set_option autoImplicit false

/-!
The language that a source text is declared to be written in, and its lexical conventions.
-/
namespace Workbench

/-- The few conventions by which source text is read without a parser. -/
structure Profile where
  functionKeyword : Text
  classKeyword : Text
  commentMark : Text
  indentUnit : Nat
  deriving DecidableEq, Repr

def Profile.python : Profile := ⟨"def".toList,"class".toList,"#".toList,4⟩

/-- A declared language. A name without a profile is kept as it was given. -/
inductive Language where
  | python
  | other (name : Text)
  deriving DecidableEq, Repr

namespace Language

def ofName (name : Text) : Language :=
  let n := Text.lowerAscii (Text.trim name)
  if n = "python".toList ∨ n = "py".toList then .python else .other name

def profile? : Language → Option Profile
  | .python => some .python
  | .other _ => none

def display : Language → Text
  | .python => "python".toList
  | .other name => name

end Language
end Workbench
