import Workbench.Analysis.Security
import Workbench.Analysis.Structure
import Workbench.Analysis.TestSkeleton
import Workbench.Archive.Package
import Workbench.Plan
import Workbench.Project.Manifest
import Workbench.Prompt
import Workbench.Scaffold.Template
import Workbench.Snippet
set_option autoImplicit false

/-!
The actions that are offered. Each checks that what it is given says something, and fails in no
other way than by a fault.
-/
namespace Workbench.Service

def needCode (code : Text) : Action Unit := Action.need "code".toList code

def analyze (code language : Text) : Action Analysis.Report := do
  needCode code
  return Analysis.analyze (.ofName language) code

def scan (code language : Text) : Action (List Analysis.Finding) := do
  needCode code
  return Analysis.scan (.ofName language) code

def generateTests (code language : Text) : Action Text := do
  needCode code
  return Analysis.generateTests (.ofName language) code

def breakDown (task : Text) : Action (List PlanStep) := do
  Action.need "task".toList task
  return Workbench.breakDown task

structure Scaffolded where
  template : Template
  files : List Text
  archive : Text
  deriving DecidableEq, Repr

def scaffold [Archive.Compressor] (spec : Text) : Action Scaffolded := do
  Action.need "project_spec".toList spec
  let template := Template.ofSpec spec
  return ⟨template,template.files.keys,← Archive.package template.files⟩

def unpack (archive : Text) : Action (Option FileSet) := Archive.unpack archive

def share (code language : Text) : Action Text := do
  needCode code
  Snippet.put code language

def fetch (id : Text) : Action (Option Snippet) := Snippet.get (Text.trim id)

def needRoot (root : Text) : Action Unit := Action.need "project path".toList root

def inventory (root : Text) : Action Project.Inventory := do
  needRoot root
  Project.inventory root

def dependencies (root : Text) : Action Project.Dependencies := do
  needRoot root
  Project.dependencies root

end Workbench.Service
