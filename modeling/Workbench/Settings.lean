import Workbench.Text.Blank
set_option autoImplicit false

/-!
Settings that come from the environment. A variable that is missing or blank leaves its default.
-/
namespace Workbench

structure Settings where
  storeRoot : Text
  logFilter : Text
  deriving DecidableEq, Repr

namespace Settings

def storeVariable : Text := "CODESMITH_STORE".toList
def logVariable : Text := "CODESMITH_LOG".toList
def defaultStore : Text := ".codesmith".toList
def defaultLog : Text := "warn".toList

def valueOr (fallback : Text) : Option Text → Text
  | some v => if Text.allBlank v then fallback else v
  | none => fallback

def ofLookup (lookup : Text → Option Text) : Settings :=
  ⟨valueOr defaultStore (lookup storeVariable),valueOr defaultLog (lookup logVariable)⟩

end Settings
end Workbench
