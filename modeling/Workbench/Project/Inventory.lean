import Workbench.Dictionary
import Workbench.File.Path
import Workbench.Program
set_option autoImplicit false

/-!
The inventory of a project: its directories and files by their paths below the root. The entries
of a directory come before those of the directories in it; a name that begins with a dot is left
out with all that is below it.
-/
namespace Workbench.Project
open File

structure Inventory where
  directories : List Text
  files : List Text
  deriving DecidableEq, Repr

def Inventory.empty : Inventory := ⟨[],[]⟩

def Inventory.append (a b : Inventory) : Inventory :=
  ⟨a.directories ++ b.directories,a.files ++ b.files⟩

def isHidden (name : Text) : Bool := name.head? == some '.'

def below (relative name : Text) : Text :=
  if relative = [] then name else relative ++ ['/'] ++ name

def sortOut (directory : Text) : List Text → Program (List Text × List Text)
  | [] => pure ([],[])
  | n :: ns => do
    let isDir ← Program.call (.isDirectory (join directory n))
    let (ds,fs) ← sortOut directory ns
    return if isDir then (n :: ds,fs) else (ds,n :: fs)

mutual

/-- The inventory of a directory whose entries are known. `depth` bounds how deep the directories
in it nest. -/
def walk (depth : Nat) (directory relative : Text) (entries : List Text) : Program Inventory := do
  let (ds,fs) ← sortOut directory (entries.filter fun n => !isHidden n)
  let own : Inventory := ⟨ds.map (below relative),fs.map (below relative)⟩
  match depth with
  | 0 => return own
  | depth+1 => return own.append (← walkAll depth directory relative ds)
termination_by (depth,0)

/-- The directories of a directory one after another. One that cannot be listed is passed over. -/
def walkAll (depth : Nat) (directory relative : Text) (names : List Text) : Program Inventory :=
  match names with
  | [] => pure .empty
  | n :: ns => do
    let first ← match ← Program.call (.listDirectory (join directory n)) with
      | .ok entries => walk depth (join directory n) (below relative n) entries
      | .error _ => pure .empty
    return first.append (← walkAll depth directory relative ns)
termination_by (depth,names.length+1)

end

def countKind (counts : Dictionary Nat) (file : Text) : Dictionary Nat :=
  match kind? ((Text.splitOn '/' file).getLast?.getD []) with
  | none => counts
  | some k => counts.insert k ((counts.get? k).getD 0 + 1)

def Inventory.kinds (i : Inventory) : Dictionary Nat := i.files.foldl countKind .empty

def listRoot (root : Text) : Action (List Text) :=
  Action.callOr (.unreadableProject root) (.listDirectory root)

def inventory (root : Text) : Action Inventory := do
  let entries ← listRoot root
  let depth ← Action.call .nesting
  ExceptT.lift (walk depth root [] entries)

end Workbench.Project
