import Workbench.Calendar.Instant
import Workbench.Fault
import Workbench.Text.Blank
import Workbench.Text.Utf8
set_option autoImplicit false

/-!
Programs. What an action needs of its surroundings it asks for one call at a time, so that the same
program can be run against a model, against a machine, or side by side with others.
-/
namespace Workbench

/-- The calls, each with the kind of its answer. Text that comes as an error is the reason given
by the one who was asked. -/
inductive Call : Type → Type 1 where
  | drawId : Call Text
  | now : Call Calendar.Instant
  | write (area : Area) (name : Text) (content : Bytes) : Call (Except Text Unit)
  | read (area : Area) (name : Text) : Call (Except Text (Option Bytes))
  | list (area : Area) : Call (Except Text (List Text))
  /-- A file of a project, as text. -/
  | readProject (path : Text) : Call (Except Text Text)
  | present (path : Text) : Call Bool
  | isDirectory (path : Text) : Call Bool
  | listDirectory (path : Text) : Call (Except Text (List Text))
  /-- A number that no directory is nested deeper than. -/
  | nesting : Call Nat
  /-- A file that was named on the command line. -/
  | readSource (path : Text) : Call (Except Text Text)
  | readInput : Call (Except Text Text)

inductive Program (α : Type) : Type 1 where
  | done (a : α)
  | ask {β : Type} (c : Call β) (next : β → Program α)

namespace Program
variable {α β : Type}

def bind : Program α → (α → Program β) → Program β
  | .done a, f => f a
  | .ask c next, f => .ask c fun b => (next b).bind f

instance : Monad Program where
  pure := .done
  bind := Program.bind

def call (c : Call α) : Program α := .ask c .done

end Program

abbrev Action (α : Type) := ExceptT Fault Program α

namespace Action
variable {α : Type}

def call (c : Call α) : Action α := ExceptT.lift (Program.call c)

def callOr (fault : Text → Fault) (c : Call (Except Text α)) : Action α := do
  match ← call c with
  | .ok a => return a
  | .error reason => throw (fault reason)

def need (field value : Text) : Action Unit :=
  if Text.allBlank value then throw (.empty field) else return ()

end Action
end Workbench
