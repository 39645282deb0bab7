import Workbench.File.Disk
import Workbench.Store.Area
set_option autoImplicit false

/-!
A store on a disk: a directory for each area below the directory of the store. An entry is written
to a temporary file beside it, which is then moved into place; while it stands there its name is
not listed.
-/
namespace Workbench.StoreOnDisk
open File Disk

def temporaryMark : Text := ".codesmith-tmp".toList

def directoryOf (root : Text) (a : Area) : Text := join root a.name

def pathOf (root : Text) (a : Area) (name : Text) : Text := join (directoryOf root a) name

/-- A directory and those above it, from the deepest up, each by the first components of the
path. -/
def upward (path : Text) : List Bytes :=
  let cs := components path
  ((List.range cs.length).map fun i => Text.utf8 (render (cs.take (i+1)))).reverse
where
  piece : Component → Text
    | .root => []
    | .here => ['.']
    | .up => ['.','.']
    | .name n => n
  render : List Component → Text
    | [.root] => ['/']
    | cs => Text.joinWith ['/'] (cs.map piece)

/-- The mark with six letters or digits behind it, which a system draws. -/
def temporaryName (i : Nat) : Text := temporaryMark ++ letters 6 i
where
  alphabet : Text := "ABCDEFGHIJKLMNOPQRSTUVWXYZabcdefghijklmnopqrstuvwxyz0123456789".toList
  letter (i : Nat) : Char := alphabet.getD i 'A'
  letters : Nat → Nat → Text
    | 0, _ => []
    | k+1, i => letter (i%62) :: letters k (i/62)

def temporaryNames : Nat := Nat.pow 62 6

/-- The first name for a temporary file that no entry of the directory has. -/
def freeName? (d : Disk) (p : Place) : Option Bytes :=
  ((List.range (min (d.entries.length+1) temporaryNames)).map fun i => Text.utf8 (temporaryName i)).find?
    fun t => (d.entry? (p ++ [t])).isNone

def temporaryPath (here : Place) (root : Text) (a : Area) (t : Bytes) : Bytes :=
  absolute here (Text.utf8 (directoryOf root a)) ++ 47 :: t

def atPath (reason : Text) (path : Bytes) : Text := reason ++ " at path ".toList ++ Text.quotedBytes path

/-- Where a new temporary file goes when the directory of the area is at the place `p`. All their paths
are of one length. -/
def temporaryPlace (d : Disk) (root : Text) (a : Area) (p : Place) : Except Text Place :=
  let path := temporaryPath d.current root a (Text.utf8 (temporaryName 0))
  match check path with
  | .error r => .error (atPath r.message path)
  | .ok () =>
    match freeName? d p with
    | some t => .ok (p ++ [t])
    | none => .error (atPath "too many temporary files exist".toList
        (absolute d.current (Text.utf8 (directoryOf root a))))

/-- What follows once the directory of the area is there, at the place `p`. -/
def writeInto (d : Disk) (root : Text) (a : Area) (p : Place) (name : Text) (content : Bytes) :
    Disk × Except Text Unit :=
  match temporaryPlace d root a p with
  | .error reason => (d,.error reason)
  | .ok place =>
    match (d.put place (.file content)).moveFile place content (Text.utf8 (pathOf root a name)) with
    | .ok d => (d,.ok ())
    | .error r => ((d.put place (.file content)).erase place,.error r.message)

def write (d : Disk) (root : Text) (a : Area) (name : Text) (content : Bytes) :
    Disk × Except Text Unit :=
  match d.makeAll (upward (directoryOf root a)) with
  | (d,.error r) => (d,.error r.message)
  | (d,.ok ()) =>
    match d.find true (Text.utf8 (directoryOf root a)) with
    | .error r => (d,.error r.message)
    | .ok p => writeInto d root a p name content

/-- None if there is no such entry; anything else in its place is an error. -/
def read (d : Disk) (root : Text) (a : Area) (name : Text) : Except Text (Option Bytes) :=
  match d.readBytes (Text.utf8 (pathOf root a name)) with
  | .ok bs => .ok (some bs)
  | .error .notFound => .ok none
  | .error r => .error r.message

/-- The name of an entry that is listed: a file, no link, and not a temporary one. -/
def listed? (e : Bytes × Entry) : Option Text :=
  match e.2 with
  | .file _ =>
    match Text.utf8Decode? e.1 with
    | some n => if (Text.after? temporaryMark n).isSome then none else some n
    | none => none
  | _ => none

def list (d : Disk) (root : Text) (a : Area) : Except Text (List Text) :=
  let path := Text.utf8 (directoryOf root a)
  if d.leadsToDirectory path then
    match d.children path with
    | .ok es => .ok (Text.sortDistinct (es.filterMap listed?))
    | .error r => .error r.message
  else .ok []

end Workbench.StoreOnDisk
