import Std.Time.DateTime.Timestamp
import Workbench.Process
import Workbench.World
set_option autoImplicit false

/-!
The program on a machine: each call is answered by the system, nothing is decided here.
-/
namespace Workbench.Machine
open File

def toBytes (b : ByteArray) : Bytes := b.toList

def ofBytes (bs : Bytes) : ByteArray := ⟨bs.toArray⟩

def string (t : Text) : String := String.ofList t

/-- The number of an error; one of more than 31 bits stands for its negative. -/
def numberOf (e : IO.Error) : Option Nat :=
  let number (c : UInt32) : Nat := if c.toNat < Nat.pow 2 31 then c.toNat else Nat.pow 2 32-c.toNat
  match e with
  | .alreadyExists _ c _ | .inappropriateType _ c _ | .invalidArgument _ c _
  | .noSuchThing _ c _ | .permissionDenied _ c _ | .resourceExhausted _ c _ => some (number c)
  | .noFileOrDirectory _ c _ | .interrupted _ c _ => some (number c)
  | .otherError c _ | .resourceBusy c _ | .resourceVanished c _ | .unsupportedOperation c _
  | .hardwareFault c _ | .unsatisfiedConstraints c _ | .illegalOperation c _
  | .protocolError c _ | .timeExpired c _ => some (number c)
  | .unexpectedEof | .userError _ => none

def reason (e : IO.Error) : Text :=
  match (numberOf e).bind Refusal.ofNumber? with
  | some r => r.message
  | none => (toString e).toList

def isMissing (e : IO.Error) : Bool := numberOf e == Refusal.notFound.number?

def attempt {α : Type} (path : Text) (act : String → IO α) : IO (Except Text α) := do
  if path.contains '\x00' then return .error Refusal.nulInPath.message
  try return .ok (← act (string path)) catch e => return .error (reason e)

def decoded (content : ByteArray) : Except Text Text :=
  match Text.utf8Decode? (toBytes content) with
  | some t => .ok t
  | none => .error "stream did not contain valid UTF-8".toList

def readText (path : Text) : IO (Except Text Text) := do
  return (← attempt path fun p => IO.FS.readBinFile p).bind decoded

def kindOf (follow : Bool) (path : Text) : IO (Except Text IO.FS.FileType) :=
  attempt path fun p => do
    let p := System.mkFilePath [p]
    return (← if follow then p.metadata else p.symlinkMetadata).type

def hasKind (follow : Bool) (kind : IO.FS.FileType) (path : Text) : IO Bool := do
  match ← kindOf follow path with
  | .ok k => return k == kind
  | .error _ => return false

def children (path : Text) : IO (Except Text (List Text)) :=
  attempt path fun p => do
    return (← (System.mkFilePath [p]).readDir).toList.map (·.fileName.toList)

def newId : IO Text := do
  return (toBytes (← IO.getRandomBytes 4)).flatMap fun b => Text.padStart 2 '0' (Text.hex b.toNat)

def now : IO Calendar.Instant := do
  let t := (← Std.Time.Timestamp.now).toNanosecondsSinceUnixEpoch.val.toNat/1000000
  let seconds := t/1000
  return .afterDays (seconds/Calendar.daySeconds) (seconds%Calendar.daySeconds) (t%1000*1000000)

def makeDirectory (path : Text) : IO (Except Text Unit) := do
  match ← attempt path fun p => IO.FS.createDir p with
  | .ok () => return .ok ()
  | .error e => return if ← hasKind true .dir path then .ok () else .error e

def makeDirectories : List Text → IO (Except Text Unit)
  | [] => return .ok ()
  | path :: above => do
    match ← makeDirectory path with
    | .ok () => return .ok ()
    | .error e =>
      if e ≠ Refusal.notFound.message then return .error e
      match ← makeDirectories above with
      | .error e => return .error e
      | .ok () => makeDirectory path

def writeEntry (root : Text) (a : Area) (name : Text) (content : Bytes) :
    IO (Except Text Unit) := do
  let directory := StoreOnDisk.directoryOf root a
  match ← makeDirectories ((StoreOnDisk.upward directory).map Text.utf8Lossy) with
  | .error e => return .error e
  | .ok () =>
    let here := names (Text.utf8 (← IO.currentDir).toString.toList)
    let t := StoreOnDisk.temporaryName (← IO.rand 0 (StoreOnDisk.temporaryNames-1))
    let path := StoreOnDisk.temporaryPath here root a (Text.utf8 t)
    let temporary := string (Text.utf8Lossy path)
    match ← attempt (Text.utf8Lossy path) fun p => IO.FS.writeBinFile p (ofBytes content) with
    | .error e => return .error (StoreOnDisk.atPath e path)
    | .ok () =>
      attempt (StoreOnDisk.pathOf root a name) fun p => do
        try IO.FS.rename temporary p catch e => do
          IO.FS.removeFile temporary
          throw e

def readEntry (root : Text) (a : Area) (name : Text) : IO (Except Text (Option Bytes)) :=
  attempt (StoreOnDisk.pathOf root a name) fun p => do
    try return some (toBytes (← IO.FS.readBinFile p))
    catch e => if isMissing e then return none else throw e

def listEntries (root : Text) (a : Area) : IO (Except Text (List Text)) := do
  let directory := StoreOnDisk.directoryOf root a
  if !(← hasKind true .dir directory) then return .ok []
  match ← children directory with
  | .error e => return .error e
  | .ok names =>
    let files ← names.filterM fun n => hasKind false .file (join directory n)
    return .ok (Text.sortDistinct (files.filter fun n =>
      (Text.after? StoreOnDisk.temporaryMark n).isNone))

def readInput : IO (Except Text Text) := do
  let mut content := ByteArray.empty
  let input ← IO.getStdin
  let mut piece ← input.read 65536
  while !piece.isEmpty do
    content := content ++ piece
    piece ← input.read 65536
  return decoded content

def answer {α : Type} (root : Text) : Call α → IO α
  | .drawId => newId
  | .now => now
  | .write a name content => writeEntry root a name content
  | .read a name => readEntry root a name
  | .list a => listEntries root a
  | .readProject path => readText path
  | .present path => do return (← kindOf true path).isOk
  | .isDirectory path => hasKind false .dir path
  | .listDirectory path => do return (← children path).map Text.sortDistinct
  | .nesting => return pathLimit
  | .readSource path => readText path
  | .readInput => readInput

def perform {α : Type} (root : Text) : Program α → IO α
  | .done a => return a
  | .ask c next => do perform root (next (← answer root c))

def envFile : List Bytes → IO (Option Bytes)
  | [] => return none
  | d :: ds => do
    let path := join (Text.utf8Lossy d) EnvFile.fileName
    match ← kindOf true path with
    | .ok .file =>
      match ← attempt path fun p => IO.FS.readBinFile p with
      | .ok content => return some (toBytes content)
      | .error _ => return none
    | .ok _ => envFile ds
    | .error e => if e = Refusal.notFound.message then envFile ds else return none

def environment (names : List Text) : IO EnvFile.Environment := do
  let values ← names.filterMapM fun n => do
    return (← IO.getEnv (string n)).map fun v => (n,v.toList)
  return .ofList values

def run (words : List String) : IO UInt32 := do
  let here := (← IO.currentDir).toString.toList
  let file ← envFile (StoreOnDisk.upward here)
  let known := [Settings.storeVariable,Settings.logVariable] ++ EnvFile.names (file.getD [])
  let settings := Settings.ofEnvironment (← environment known) file
  let outcome ← perform settings.storeRoot (start (words.map String.toList))
  IO.print (string outcome.output)
  IO.eprint (string outcome.complaint)
  return outcome.exitCode.toUInt32

end Workbench.Machine

def main (words : List String) : IO UInt32 := Workbench.Machine.run words
