import Workbench.Program
import Workbench.Text.Literal
set_option autoImplicit false

/-!
The library of prompt templates. A template is kept in a file whose name is made from its own.
-/
namespace Workbench.Prompt
open Text

def fileSuffix : Text := ".txt".toList

def isSafe (c : Char) : Bool := c.isAlphanum || c == '_' || c == '.' || c == '-'

def withSuffix (t : Text) : Text := if endsWith fileSuffix t then t else t ++ fileSuffix

/-- A name of dots alone would be a directory, so such a name gets a low line in front. -/
def guarded (t : Text) : Text :=
  if t.dropWhile (· == '.') = "txt".toList ∨ (after? ['.','.'] t).isSome then '_' :: t else t

def fileOf? (name : Text) : Option Text :=
  if allBlank name then none
  else some (guarded (withSuffix ((trim name).map fun c => if isSafe c then c else '_')))

def save (name content : Text) : Action Text :=
  match fileOf? name with
  | none => throw .blankTemplateName
  | some file => do
    Action.callOr (.storage (.writing .prompts file)) (.write .prompts file (utf8 content))
    return file

def list : Action (List Text) := do
  let files ← Action.callOr (.storage (.listing .prompts)) (.list .prompts)
  return files.filterMap (before? fileSuffix)

def load (name : Text) : Action (Option Text) :=
  match fileOf? name with
  | none => return none
  | some file => do
    match ← Action.callOr (.storage (.reading .prompts file)) (.read .prompts file) with
    | none => return none
    | some bytes =>
      match utf8Decode bytes with
      | .ok t => return some t
      | .error f => throw (.corrupt .prompts file f.message)

end Workbench.Prompt
