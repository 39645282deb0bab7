import Workbench.Text.Ranges
set_option autoImplicit false

/-!
The three areas in which things are kept.
-/
namespace Workbench

inductive Area where
  | sharedCode
  | generated
  | prompts
  deriving DecidableEq, Repr

def Area.name : Area → Text
  | .sharedCode => "shared_code".toList
  | .generated => "generated".toList
  | .prompts => "prompts".toList

end Workbench
