import Workbench.Source.Outline
set_option autoImplicit false

/-!
Test skeletons: one for each public function, calling it with an empty value for every
parameter. They are a start to be filled in.
-/
namespace Workbench.Analysis
open Text

structure Argument where
  name : Text
  byName : Bool
  deriving DecidableEq, Repr

def Argument.call (a : Argument) : Text :=
  if a.byName then a.name ++ "=None".toList else "None".toList

def declaredName (p : Text) : Text := trim (p.takeWhile fun c => c != ':' && c != '=')

def isStarred (n : Text) : Bool := n.head? == some '*'

def isDoubleStarred (n : Text) : Bool := (after? "**".toList n).isSome

def isReceiver (n : Text) : Bool := n == "self".toList || n == "cls".toList

/-- From a single star on, parameters are passed by name. `first` holds for the parameter that
may be the receiver of a method, which a call does not pass. -/
def argumentsFrom (first byName : Bool) : List Text → List Argument
  | [] => []
  | p :: ps =>
    let n := declaredName p
    if isStarred n && !isDoubleStarred n then argumentsFrom false true ps
    else if (first && isReceiver n) || n.isEmpty || n == ['/'] || isStarred n then
      argumentsFrom false byName ps
    else ⟨n,byName⟩ :: argumentsFrom false byName ps

def callArguments (ps : List Text) : List Argument := argumentsFrom true false ps

def commaSeparated (ts : List Text) : Text := joinWith ", ".toList ts

def arrangement (as : List Argument) : List Text :=
  if as.isEmpty then ["    pass".toList]
  else ["    # TODO: Set up test parameters".toList,
    "    # Parameters: ".toList ++ commaSeparated (as.map (·.name))]

def skeletonLines (f : Source.Signature) : List Text :=
  let as := callArguments (f.params.getD [])
  ["def test_".toList ++ f.name ++ "():".toList,"    # Arrange".toList] ++ arrangement as ++
  [[],"    # Act".toList,
    "    result = ".toList ++ f.name ++ "(".toList ++ commaSeparated (as.map Argument.call) ++
      ")".toList,
    [],"    # Assert".toList,
    "    assert result is not None  # Replace with actual assertion".toList]

def skeleton (f : Source.Signature) : Text := (skeletonLines f).flatMap (· ++ ['\n'])

def isPublic (f : Source.Signature) : Bool := f.name.head? != some '_'

def noTestable : Text := "# No testable functions found in the provided code".toList
def unsupportedTests : Text := "# Test generation not supported for this language yet".toList
def testHeader : Text := "import pytest\n\n".toList

def testsFor (fs : List Source.Signature) : Text :=
  if fs.isEmpty then noTestable
  else testHeader ++ joinWith "\n\n".toList (fs.map skeleton)

def generateTests (l : Language) (code : Text) : Text :=
  match l.profile? with
  | none => unsupportedTests
  | some p => testsFor ((Source.signatures p code).filter isPublic)

end Workbench.Analysis
