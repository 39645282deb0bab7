import Workbench.Source.Declaration
import Workbench.Source.Depth
import Workbench.Source.Import
import Workbench.Source.Parameters
set_option autoImplicit false

/-!
What can be read off source text without parsing it: declared functions with their parameters,
declared classes, imported modules and the depth of nesting.
-/
namespace Workbench.Source

/-- A declared function. There are no parameters to speak of when their list never closes. -/
structure Signature where
  name : Text
  params : Option (List Text)
  deriving DecidableEq, Repr

def opensCall (c : Char) : Bool := c == '('
def opensClass (c : Char) : Bool := c == ':' || c == '('

def signatures (p : Profile) (code : Text) : List Signature :=
  (openings p.functionKeyword opensCall code).map fun o =>
    ⟨o.name,(enclosed? o.rest).map splitTop⟩

def classes (p : Profile) (code : Text) : List Text :=
  (openings p.classKeyword opensClass code).map (·.name)

structure Outline where
  functions : List Signature
  classes : List Text
  imports : List Text
  depth : Nat
  deriving DecidableEq, Repr

def outline (p : Profile) (code : Text) : Outline :=
  ⟨signatures p code,classes p code,imports code,depth p code⟩

end Workbench.Source
