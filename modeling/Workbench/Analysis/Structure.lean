import Workbench.Source.Outline
set_option autoImplicit false

/-!
The structure report of a source text: what it declares and imports, how deep it nests, how long
it is, and advice where it nests too deep or declares too much.
-/
namespace Workbench.Analysis

structure Structure where
  functions : List Text
  classes : List Text
  imports : List Text
  loc : Nat
  deriving DecidableEq, Repr

inductive Advice where
  | nestLess
  | splitUp
  deriving DecidableEq, Repr

def Advice.text : Advice → Text
  | .nestLess => "Consider refactoring deeply nested code for better readability".toList
  | .splitUp => "Consider splitting into multiple modules for better organization".toList

/-- The complexity of a text is the depth of its deepest code line. -/
structure Report where
  complexity : Nat
  outline : Structure
  suggestions : List Advice
  deriving DecidableEq, Repr

/-- The deepest nesting and the most functions that pass without advice. -/
def maxNesting : Nat := 4
def maxFunctions : Nat := 10

def advice (depth functions : Nat) : List Advice :=
  (if maxNesting < depth then [.nestLess] else []) ++
  (if maxFunctions < functions then [.splitUp] else [])

def Report.empty : Report := ⟨0,⟨[],[],[],0⟩,[]⟩

def reportWith (p : Profile) (code : Text) : Report :=
  let fs := (Source.signatures p code).map (·.name)
  let d := Source.depth p code
  ⟨d,⟨fs,Source.classes p code,Source.imports code,(Text.lines code).length⟩,advice d fs.length⟩

def analyze (l : Language) (code : Text) : Report :=
  match l.profile? with
  | none => .empty
  | some p => reportWith p code

end Workbench.Analysis
