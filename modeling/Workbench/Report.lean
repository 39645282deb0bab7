import Workbench.Service
set_option autoImplicit false

/-!
Results as values of the exchange format. The members of an object stand in the order in which
they are shown.
-/
namespace Workbench

def Analysis.Structure.json (s : Analysis.Structure) : Json := .object [
  ("functions".toList,.strings s.functions),
  ("classes".toList,.strings s.classes),
  ("imports".toList,.strings s.imports),
  ("loc".toList,.nat s.loc)]

def Analysis.Report.json (r : Analysis.Report) : Json := .object [
  ("complexity".toList,.nat r.complexity),
  ("structure".toList,r.outline.json),
  ("suggestions".toList,.strings (r.suggestions.map (·.text)))]

def Analysis.Finding.json (f : Analysis.Finding) : Json := .object [
  ("type".toList,.string f.issue.title),
  ("severity".toList,.string f.severity.text),
  ("description".toList,.string f.description)]

def PlanStep.json (s : PlanStep) : Json := .object [
  ("step".toList,.nat s.step),
  ("description".toList,.string s.description)]

def Service.Scaffolded.json (s : Service.Scaffolded) : Json := .object [
  ("template".toList,.string s.template.name),
  ("files".toList,.strings s.files),
  ("archive".toList,.string s.archive)]

def FileSet.listing (archive : Text) (files : FileSet) : Json := .object [
  ("archive".toList,.string archive),
  ("files".toList,.array (files.entries.map fun f => .object [
    ("path".toList,.string f.1),
    ("bytes".toList,.nat (Text.utf8Length f.2))]))]

def Snippet.json (s : Snippet) : Json := .object [
  ("id".toList,.string s.id),
  ("code".toList,.string s.record.code),
  ("language".toList,.string s.record.language),
  ("created_at".toList,.string s.record.createdAt.text)]

def Project.Inventory.json (i : Project.Inventory) : Json := .object [
  ("directories".toList,.strings i.directories),
  ("files".toList,.strings i.files),
  ("summary".toList,.object [
    ("total_directories".toList,.nat i.directories.length),
    ("total_files".toList,.nat i.files.length),
    ("file_types".toList,.object (i.kinds.entries.map fun k => (k.1,.nat k.2)))])]

def Project.PythonDependencies.json (d : Project.PythonDependencies) : Json :=
  .object (("type".toList,.string d.manifest.fileName) ::
    match d.requirements with
    | some ls => [("dependencies".toList,.strings ls)]
    | none => [])

/-- A manifest that cannot be read leaves both sections empty. -/
def Project.packageJson : Except Text Project.PackageDependencies → Json
  | .ok d => .object [
    ("dependencies".toList,.object d.dependencies),
    ("devDependencies".toList,.object d.devDependencies)]
  | .error reason => .object [
    ("dependencies".toList,.object []),
    ("devDependencies".toList,.object []),
    ("error".toList,.string reason)]

def Project.Dependencies.json (d : Project.Dependencies) : Json := .object [
  ("python".toList,.optional (d.python.map (·.json))),
  ("javascript".toList,.optional (d.package.map packageJson))]

end Workbench
