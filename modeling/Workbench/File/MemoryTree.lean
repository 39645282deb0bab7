import Workbench.File.Path
import Workbench.Text.Order
set_option autoImplicit false

/-!
A tree of files that is given entry by entry. Adding an entry adds the directories above it, up
to a path without components.
-/
namespace Workbench.File

structure MemoryTree where
  files : List (List Component × Text)
  dirs : List (List Component)
  deriving DecidableEq, Repr

def ancestors (key : List Component) : List (List Component) :=
  match key with
  | [] => []
  | [_] => []
  | c :: d :: ks => [c] :: (ancestors (d :: ks)).map (c :: ·)

namespace MemoryTree

def empty : MemoryTree := ⟨[],[]⟩

def addFile (t : MemoryTree) (path content : Text) : MemoryTree :=
  let key := components path
  ⟨(key,content) :: t.files.filter (·.1 ≠ key),ancestors key ++ t.dirs⟩

def addDir (t : MemoryTree) (path : Text) : MemoryTree :=
  let key := components path
  ⟨t.files,key :: ancestors key ++ t.dirs⟩

def ofLists (files : List (Text × Text)) (dirs : List Text) : MemoryTree :=
  dirs.foldl addDir (files.foldl (fun t f => t.addFile f.1 f.2) empty)

def isDir (t : MemoryTree) (path : Text) : Bool := t.dirs.contains (components path)

def present (t : MemoryTree) (path : Text) : Bool :=
  t.isDir path || t.files.any fun f => f.1 = components path

def read (t : MemoryTree) (path : Text) : Except Text Text :=
  match t.files.find? fun f => f.1 = components path with
  | some f => .ok f.2
  | none => .error ("no such file: ".toList ++ path)

def nameIn? (dir child : List Component) : Option Text :=
  if child.dropLast = dir then
    match child.getLast? with
    | some (.name n) => some n
    | _ => none
  else none

def list (t : MemoryTree) (path : Text) : Except Text (List Text) :=
  if t.isDir path then
    .ok (Text.sortDistinct ((t.files.map (·.1) ++ t.dirs).filterMap (nameIn? (components path))))
  else .error ("not a directory: ".toList ++ path)

def height (t : MemoryTree) : Nat :=
  ((t.files.map (·.1) ++ t.dirs).map List.length).foldl max 0

end MemoryTree
end Workbench.File
