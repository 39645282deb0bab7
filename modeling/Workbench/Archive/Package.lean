import Workbench.Archive.Tar.Reader
import Workbench.Archive.Tar.Writer
import Workbench.Program
set_option autoImplicit false

/-!
Archives of file sets, and the actions that store one under a new name and read it back.
-/
namespace Workbench.Archive
open Text

def isIrregular (piece : Text) : Bool := piece == [] || piece == ['.'] || piece == ['.','.']

def isPlain (path : Text) : Bool := !allBlank path && !(splitOn '/' path).any isIrregular

def entryOf (path content : Text) : Except Fault Bytes :=
  if !isPlain path then .error (.irregularPath path)
  else
    match Tar.member path content with
    | .ok bs => .ok bs
    | .error reason => .error (.unarchivable path reason)

def members : List (Text × Text) → Except Fault Bytes
  | [] => .ok []
  | (path,content) :: rest =>
    match entryOf path content with
    | .error f => .error f
    | .ok bs => (members rest).map (bs ++ ·)

def tarOf (files : FileSet) : Except Fault Bytes := (members files.entries).map (· ++ Tar.ending)

def encode [Compressor] (files : FileSet) : Except Fault Bytes := (tarOf files).map Compressor.press

def decode (bs : Bytes) : Except Flaw FileSet := Tar.files (expand bs)

def namePrefix : Text := "project_".toList
def nameSuffix : Text := ".tar.gz".toList

def nameOf (id : Text) : Text := namePrefix ++ id ++ nameSuffix

def isName (name : Text) : Bool :=
  match (after? namePrefix name).bind (before? nameSuffix) with
  | none => false
  | some id => !id.isEmpty && id.all Char.isAlphanum

def package [Compressor] (files : FileSet) : Action Text := do
  let bytes ← ExceptT.mk (pure (encode files))
  let name := nameOf (← Action.call .drawId)
  Action.callOr (.storage (.writing .generated name)) (.write .generated name bytes)
  return name

def unpack (name : Text) : Action (Option FileSet) :=
  if !isName name then return none
  else do
    match ← Action.callOr (.storage (.reading .generated name)) (.read .generated name) with
    | none => return none
    | some bytes =>
      match decode bytes with
      | .ok files => return some files
      | .error flaw => throw (.corrupt .generated name flaw.message)

end Workbench.Archive
