import Workbench.Calendar.Reader
import Workbench.File.MemoryTree
import Workbench.Program
import Workbench.Store.Memory
import Workbench.Store.OnDisk
set_option autoImplicit false

/-!
Surroundings of a program as a value: where the store is, what the files of projects are, how ids
are drawn, what the time is. Each call has one answer and leaves one value behind.
-/
namespace Workbench
open File

inductive Store where
  | memory (s : MemoryStore)
  | onDisk (root : Text)

structure Refusals where
  write : Option Text
  read : Option Text
  list : Option Text
  deriving DecidableEq, Repr

def Refusals.none : Refusals := ⟨.none,.none,.none⟩

inductive ProjectFiles where
  | memory (t : MemoryTree)
  | onDisk
  deriving DecidableEq, Repr

inductive Ids where
  | sequential (drawn : Nat)
  | constant (id : Text)
  deriving DecidableEq, Repr

def Ids.idOf (n : Nat) : Text := Text.padStart 8 '0' (Text.hex n)

/-- The counter of drawn ids starts over here. -/
def Ids.limit : Nat := Nat.pow 2 32

def Ids.draw : Ids → Text × Ids
  | .sequential n => (idOf ((n+1)%limit),.sequential ((n+1)%limit))
  | .constant id => (id,.constant id)

structure World where
  store : Store
  refusals : Refusals
  project : ProjectFiles
  disk : Disk
  ids : Ids
  clock : Calendar.Instant
  input : Bytes

namespace World

def write (w : World) (a : Area) (name : Text) (content : Bytes) : Except Text Unit × World :=
  match w.refusals.write,w.store with
  | some reason,_ => (.error reason,w)
  | none,.memory s => (.ok (),{w with store := .memory (s.write a name content)})
  | none,.onDisk root =>
    let (d,result) := StoreOnDisk.write w.disk root a name content
    (result,{w with disk := d})

def read (w : World) (a : Area) (name : Text) : Except Text (Option Bytes) :=
  match w.refusals.read,w.store with
  | some reason,_ => .error reason
  | none,.memory s => .ok (s.read a name)
  | none,.onDisk root => StoreOnDisk.read w.disk root a name

def list (w : World) (a : Area) : Except Text (List Text) :=
  match w.refusals.list,w.store with
  | some reason,_ => .error reason
  | none,.memory s => .ok (s.list a)
  | none,.onDisk root => StoreOnDisk.list w.disk root a

def readProject (w : World) (path : Text) : Except Text Text :=
  match w.project with
  | .memory t => t.read path
  | .onDisk => w.disk.readText path

def present (w : World) (path : Text) : Bool :=
  match w.project with
  | .memory t => t.present path
  | .onDisk => w.disk.present path

def isDirectory (w : World) (path : Text) : Bool :=
  match w.project with
  | .memory t => t.isDir path
  | .onDisk => w.disk.isDirectory path

def listDirectory (w : World) (path : Text) : Except Text (List Text) :=
  match w.project with
  | .memory t => t.list path
  | .onDisk => w.disk.list path

/-- A directory is no deeper than the longest path of the tree, or than the longest path that can
be followed. -/
def nesting (w : World) : Nat :=
  match w.project with
  | .memory t => t.height
  | .onDisk => pathLimit

def readInput (w : World) : Except Text Text :=
  match Text.utf8Decode? w.input with
  | some t => .ok t
  | none => .error "stream did not contain valid UTF-8".toList

def answer {α : Type} (w : World) : Call α → α × World
  | .drawId => (w.ids.draw.1,{w with ids := w.ids.draw.2})
  | .now => (w.clock,w)
  | .write a name content => w.write a name content
  | .read a name => (w.read a name,w)
  | .list a => (w.list a,w)
  | .readProject path => (w.readProject path,w)
  | .present path => (w.present path,w)
  | .isDirectory path => (w.isDirectory path,w)
  | .listDirectory path => (w.listDirectory path,w)
  | .nesting => (w.nesting,w)
  | .readSource path => (w.disk.readText path,w)
  | .readInput => (w.readInput,w)

end World

def Program.run {α : Type} : Program α → World → α × World
  | .done a, w => (a,w)
  | .ask c next, w =>
    let (b,w) := w.answer c
    (next b).run w

namespace Program
variable {α β : Type}

theorem run_bind (p : Program α) (f : α → Program β) (w : World) :
    (p.bind f).run w = (f (p.run w).1).run (p.run w).2 := by
  induction p generalizing w with
  | done a => rfl
  | ask c next ih => simp [bind,run,ih]

end Program
end Workbench
