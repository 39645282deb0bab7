import Workbench.Json.Record
import Workbench.Project.Inventory
set_option autoImplicit false

/-!
The dependencies that a project declares in the manifests in its root.
-/
namespace Workbench.Project
open File

inductive PythonManifest where
  | requirements
  | pipfile
  | setup
  deriving DecidableEq, Repr

def PythonManifest.fileName : PythonManifest → Text
  | .requirements => "requirements.txt".toList
  | .pipfile => "Pipfile".toList
  | .setup => "setup.py".toList

def PythonManifest.all : List PythonManifest := [.requirements,.pipfile,.setup]

/-- The requirements are read from one manifest only; the others are noticed. -/
structure PythonDependencies where
  manifest : PythonManifest
  requirements : Option (List Text)
  deriving DecidableEq, Repr

structure PackageDependencies where
  dependencies : List (Text × Json)
  devDependencies : List (Text × Json)
  deriving Repr

structure Dependencies where
  python : Option PythonDependencies
  package : Option (Except Text PackageDependencies)

def requirementLines (t : Text) : List Text :=
  ((Text.lines t).map Text.trim).filter fun l => !l.isEmpty && l.head? != some '#'

structure PackageDraft where
  dependencies : Option (List (Text × Json))
  devDependencies : Option (List (Text × Json))

def packageFields : List Text := ["dependencies".toList,"devDependencies".toList]

def packageShape : Json.Shape PackageDraft where
  name := "struct PackageManifest".toList
  fields := packageFields
  required := false
  given := fun d i => if i = 0 then d.dependencies.isSome else d.devDependencies.isSome
  read := fun depth i d c =>
    match Json.wantObject depth c with
    | .error f => .error f
    | .ok (ms,c) =>
      .ok (if i = 0 then {d with dependencies := some ms} else {d with devDependencies := some ms},c)

def readPackage (t : Text) : Except Text PackageDependencies :=
  match packageShape.read? ⟨none,none⟩ (Text.utf8 t) with
  | .ok d => .ok ⟨d.dependencies.getD [],d.devDependencies.getD []⟩
  | .error f => .error ("Invalid JSON format: ".toList ++ f.message)

def readFile (path : Text) : Action Text :=
  Action.callOr (.unreadableFile path) (.readProject path)

def firstPresent (root : Text) : List PythonManifest → Action (Option PythonManifest)
  | [] => return none
  | m :: ms => do
    if ← Action.call (.present (join root m.fileName)) then return some m
    else firstPresent root ms

def pythonDependencies (root : Text) : Action (Option PythonDependencies) := do
  match ← firstPresent root PythonManifest.all with
  | none => return none
  | some .requirements =>
    let text ← readFile (join root PythonManifest.requirements.fileName)
    return some ⟨.requirements,some (requirementLines text)⟩
  | some m => return some ⟨m,none⟩

def packageFile : Text := "package.json".toList

def packageDependencies (root : Text) : Action (Option (Except Text PackageDependencies)) := do
  if ← Action.call (.present (join root packageFile)) then
    return some (readPackage (← readFile (join root packageFile)))
  else return none

def dependencies (root : Text) : Action Dependencies := do
  let _ ← listRoot root
  return ⟨← pythonDependencies root,← packageDependencies root⟩

end Workbench.Project
