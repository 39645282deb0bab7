import Workbench.File.Path
import Workbench.Text.Order
import Workbench.Text.Utf8
set_option autoImplicit false

/-!
A disk: files, directories and symbolic links, each at its place below the root. A path is
followed name by name from the current directory or from the root. What cannot be done is refused
for one of a few reasons, each of which has its text.
-/
namespace Workbench.File

abbrev Place := List Bytes

inductive Entry where
  | file (content : Bytes)
  | directory
  | link (target : Bytes)
  deriving DecidableEq, Repr

inductive Refusal where
  | notFound
  | busy
  | alreadyThere
  | notDirectory
  | isDirectory
  | invalidArgument
  | nameTooLong
  | tooManyLinks
  | nulInPath
  deriving DecidableEq, Repr

namespace Refusal

def number? : Refusal → Option Nat
  | .notFound => some 2
  | .busy => some 16
  | .alreadyThere => some 17
  | .notDirectory => some 20
  | .isDirectory => some 21
  | .invalidArgument => some 22
  | .nameTooLong => some 36
  | .tooManyLinks => some 40
  | .nulInPath => none

def wording : Refusal → Text
  | .notFound => "No such file or directory".toList
  | .busy => "Device or resource busy".toList
  | .alreadyThere => "File exists".toList
  | .notDirectory => "Not a directory".toList
  | .isDirectory => "Is a directory".toList
  | .invalidArgument => "Invalid argument".toList
  | .nameTooLong => "File name too long".toList
  | .tooManyLinks => "Too many levels of symbolic links".toList
  | .nulInPath => "file name contained an unexpected NUL byte".toList

def message (r : Refusal) : Text :=
  match r.number? with
  | some n => r.wording ++ " (os error ".toList ++ Text.decimal n ++ [')']
  | none => r.wording

def ofNumber? (n : Nat) : Option Refusal :=
  [.notFound,.busy,.alreadyThere,.notDirectory,.isDirectory,.invalidArgument,.nameTooLong,
    .tooManyLinks].find? fun r : Refusal => r.number? = some n

end Refusal

structure Disk where
  entries : List (Place × Entry)
  current : Place
  deriving DecidableEq, Repr

/-- The longest name, the length from which a path is too long, and the number of links that one
path may go through. -/
def maxName : Nat := 255
def pathLimit : Nat := 4096
def maxLinks : Nat := 40

def dotName : Bytes := [46]
def dotDotName : Bytes := [46,46]

def splitSlashes : Bytes → List Bytes
  | [] => [[]]
  | b :: bs =>
    if b = 47 then [] :: splitSlashes bs
    else match splitSlashes bs with
      | [] => [[b]]
      | n :: ns => (b :: n) :: ns

def names (path : Bytes) : List Bytes := (splitSlashes path).filter fun n => !n.isEmpty

def isAbsolute (path : Bytes) : Bool := path.head? == some 47

def endsInSlash (path : Bytes) : Bool := path.getLast? == some 47

/-- The path from the root that a path stands for in the directory `here`. -/
def absolute (here : Place) (path : Bytes) : Bytes :=
  if isAbsolute path then path else here.flatMap (47 :: ·) ++ 47 :: path

/-- The names to go through; a final slash asks for a directory, as a final dot does. -/
def steps (path : Bytes) : List Bytes := names path ++ (if endsInSlash path then [dotName] else [])

namespace Disk

def entry? (d : Disk) (p : Place) : Option Entry :=
  if p = [] then some .directory else (d.entries.find? fun e => e.1 = p).map (·.2)

def erase (d : Disk) (p : Place) : Disk := {d with entries := d.entries.filter fun e => e.1 ≠ p}

def put (d : Disk) (p : Place) (e : Entry) : Disk := {d with entries := (p,e) :: (d.erase p).entries}

/-- Goes through `todo` from the directory `here`. A link at the very end is gone through only if
`follow` says so. -/
def walk (d : Disk) (follow : Bool) (links : Nat) (here : Place) (todo : List Bytes) :
    Except Refusal Place :=
  match todo with
  | [] => .ok here
  | n :: rest =>
    if d.entry? here ≠ some .directory then .error .notDirectory
    else if n = dotName then walk d follow links here rest
    else if n = dotDotName then walk d follow links here.dropLast rest
    else if maxName < n.length then .error .nameTooLong
    else
      match d.entry? (here ++ [n]) with
      | none => .error .notFound
      | some (.link target) =>
        if rest = [] ∧ follow = false then .ok (here ++ [n])
        else
          match links with
          | 0 => .error .tooManyLinks
          | links+1 =>
            walk d follow links (if isAbsolute target then [] else here) (steps target ++ rest)
      | some _ => walk d follow links (here ++ [n]) rest
termination_by (links,todo.length)

def check (path : Bytes) : Except Refusal Unit :=
  if path = [] then .error .notFound
  else if pathLimit ≤ path.length then .error .nameTooLong
  else .ok ()

def start (d : Disk) (path : Bytes) : Place := if isAbsolute path then [] else d.current

def find (d : Disk) (follow : Bool) (path : Bytes) : Except Refusal Place :=
  match check path with
  | .error r => .error r
  | .ok () => d.walk follow maxLinks (d.start path) (steps path)

inductive Last where
  | name (n : Bytes)
  | dots
  deriving DecidableEq, Repr

def findParent (d : Disk) (path : Bytes) : Except Refusal (Place × Last) :=
  match check path with
  | .error r => .error r
  | .ok () =>
    let ns := names path
    match d.walk true maxLinks (d.start path) (ns.dropLast ++ [dotName]) with
    | .error r => .error r
    | .ok p =>
      match ns.getLast? with
      | none => .ok (p,.dots)
      | some n => .ok (p,if n = dotName ∨ n = dotDotName then .dots else .name n)

def makeDirectory (d : Disk) (path : Bytes) : Except Refusal Disk :=
  if path.contains 0 then .error .nulInPath
  else
    match d.findParent path with
    | .error r => .error r
    | .ok (_,.dots) => .error .alreadyThere
    | .ok (p,.name n) =>
      if maxName < n.length then .error .nameTooLong
      else if (d.entry? (p ++ [n])).isSome then .error .alreadyThere
      else .ok (d.put (p ++ [n]) .directory)

def leadsToDirectory (d : Disk) (path : Bytes) : Bool :=
  !path.contains 0 && match d.find true path with
    | .ok p => d.entry? p = some .directory
    | .error _ => false

def makeOne (d : Disk) (path : Bytes) : Disk × Except Refusal Unit :=
  match d.makeDirectory path with
  | .ok d => (d,.ok ())
  | .error r => (d,if d.leadsToDirectory path then .ok () else .error r)

/-- Makes a directory and those above it that are missing, the deepest first tried. The paths are
those of the directories, from the deepest up. -/
def makeAll (d : Disk) : List Bytes → Disk × Except Refusal Unit
  | [] => (d,.ok ())
  | path :: above =>
    match d.makeOne path with
    | (d,.error .notFound) =>
      match makeAll d above with
      | (d,.error r) => (d,.error r)
      | (d,.ok ()) => d.makeOne path
    | result => result

/-- Moves the file at a place to the end of a path, over a file or a link that is there. -/
def moveFile (d : Disk) (source : Place) (content : Bytes) (path : Bytes) : Except Refusal Disk :=
  if path.contains 0 then .error .invalidArgument
  else
    match d.findParent path with
    | .error r => .error r
    | .ok (_,.dots) => .error .busy
    | .ok (p,.name n) =>
      if maxName < n.length then .error .nameTooLong
      else if endsInSlash path then .error .notDirectory
      else if d.entry? (p ++ [n]) = some .directory then .error .isDirectory
      else .ok ((d.erase source).put (p ++ [n]) (.file content))

def readBytes (d : Disk) (path : Bytes) : Except Refusal Bytes :=
  if path.contains 0 then .error .nulInPath
  else
    match d.find true path with
    | .error r => .error r
    | .ok p =>
      match d.entry? p with
      | some (.file content) => .ok content
      | some .directory => .error .isDirectory
      | _ => .error .notFound

def childrenAt (d : Disk) (p : Place) : List (Bytes × Entry) :=
  d.entries.filterMap fun e =>
    if e.1.dropLast = p then e.1.getLast?.map fun n => (n,e.2) else none

def children (d : Disk) (path : Bytes) : Except Refusal (List (Bytes × Entry)) :=
  if path.contains 0 then .error .nulInPath
  else
    match d.find true path with
    | .error r => .error r
    | .ok p =>
      if d.entry? p = some .directory then .ok (d.childrenAt p) else .error .notDirectory

def readText (d : Disk) (path : Text) : Except Text Text :=
  match d.readBytes (Text.utf8 path) with
  | .error r => .error r.message
  | .ok bs =>
    match Text.utf8Decode? bs with
    | some t => .ok t
    | none => .error "stream did not contain valid UTF-8".toList

def present (d : Disk) (path : Text) : Bool :=
  let bs := Text.utf8 path
  !bs.contains 0 && (d.find true bs).isOk

/-- A directory is there, and not a link to one. -/
def isDirectory (d : Disk) (path : Text) : Bool :=
  let bs := Text.utf8 path
  !bs.contains 0 && match d.find false bs with
    | .ok p => d.entry? p = some .directory
    | .error _ => false

def list (d : Disk) (path : Text) : Except Text (List Text) :=
  match d.children (Text.utf8 path) with
  | .error r => .error r.message
  | .ok es => .ok (Text.sortDistinct (es.filterMap fun e => Text.utf8Decode? e.1))

end Disk
end Workbench.File
