import Workbench.Store.Area
import Workbench.Text.Quoted
set_option autoImplicit false

/-!
What can go wrong in an action, by cause. To look for something that is not there is no fault.
-/
namespace Workbench

inductive StoreTask where
  | writing (area : Area) (name : Text)
  | reading (area : Area) (name : Text)
  | listing (area : Area)
  deriving DecidableEq, Repr

def entryName (area : Area) (name : Text) : Text := area.name ++ ['/'] ++ name

def StoreTask.text : StoreTask → Text
  | .writing area name => "writing ".toList ++ entryName area name
  | .reading area name => "reading ".toList ++ entryName area name
  | .listing area => "listing ".toList ++ area.name

inductive Fault where
  | empty (field : Text)
  | blankTemplateName
  | irregularPath (path : Text)
  | unarchivable (path reason : Text)
  | unreadableProject (root reason : Text)
  | storage (task : StoreTask) (reason : Text)
  | unreadableFile (path reason : Text)
  | corrupt (area : Area) (name reason : Text)
  deriving DecidableEq, Repr

namespace Fault

inductive Kind where
  | invalidInput
  | storage
  | filesystem
  | corruptEntry
  deriving DecidableEq, Repr

def kind : Fault → Kind
  | .storage _ _ => .storage
  | .unreadableFile _ _ => .filesystem
  | .corrupt _ _ _ => .corruptEntry
  | _ => .invalidInput

def detail : Fault → Text
  | .empty field => field ++ " must not be empty".toList
  | .blankTemplateName => "template name must not be blank".toList
  | .irregularPath path =>
    "archive entry path must be relative and stay inside the archive: ".toList ++ Text.quoted path
  | .unarchivable path reason => "cannot archive ".toList ++ path ++ ": ".toList ++ reason
  | .unreadableProject root reason =>
    "not a readable project directory: ".toList ++ root ++ ": ".toList ++ reason
  | .storage task reason => task.text ++ ": ".toList ++ reason
  | .unreadableFile path reason => "reading ".toList ++ path ++ ": ".toList ++ reason
  | .corrupt area name reason => entryName area name ++ ": ".toList ++ reason

def Kind.opening : Kind → Text
  | .invalidInput => "invalid input: ".toList
  | .storage => "storage error while ".toList
  | .filesystem => "filesystem error while ".toList
  | .corruptEntry => "corrupt entry ".toList

def message (f : Fault) : Text := f.kind.opening ++ f.detail

end Fault
end Workbench
