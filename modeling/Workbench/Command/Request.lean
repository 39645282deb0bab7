import Workbench.File.Path
import Workbench.Text.Ranges
set_option autoImplicit false

/-!
What can be asked for on the command line, and in which format the answer is shown.
-/
namespace Workbench

inductive Format where
  | json
  | yaml
  deriving DecidableEq, Repr

def Format.ofName? (t : Text) : Option Format :=
  if t = "json".toList then some .json
  else if t = "yaml".toList then some .yaml
  else none

inductive Origin where
  | input
  | file (path : Text)
  deriving DecidableEq, Repr

/-- A path that is a hyphen stands for the input, as no path at all does. -/
def Origin.ofPath? : Option Text → Origin
  | none => .input
  | some p => if File.components p = [.name ['-']] then .input else .file p

inductive Command where
  | analyze (language : Text) (source : Origin)
  | scan (language : Text) (source : Origin)
  | generateTests (language : Text) (source : Origin)
  | scaffold (spec : Text)
  | unpack (archive : Text)
  | share (language : Text) (source : Origin)
  | fetch (id : Text)
  | inventory (root : Text)
  | dependencies (root : Text)
  | breakDown (task : Text)
  | savePrompt (name : Text) (source : Origin)
  | listPrompts
  | showPrompt (name : Text)
  deriving DecidableEq, Repr

structure Request where
  format : Format
  command : Command
  deriving DecidableEq, Repr

end Workbench
