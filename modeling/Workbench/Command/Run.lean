import Workbench.Command.Request
import Workbench.Report
import Workbench.Yaml.Writer
set_option autoImplicit false

/-!
Commands, carried out: each ends with the text to show, or with the text of what went wrong.
-/
namespace Workbench

abbrev Telling (α : Type) := ExceptT Text Program α

namespace Telling
variable {α : Type}

def ofAction (a : Action α) : Telling α := ExceptT.adapt Fault.message a

def found (missing : Text) (a : Action (Option α)) : Telling α := do
  match ← ofAction a with
  | some v => return v
  | none => throw missing

end Telling

def Origin.name : Origin → Text
  | .input => "stdin".toList
  | .file path => path

def Origin.call : Origin → Call (Except Text Text)
  | .input => .readInput
  | .file path => .readSource path

def Origin.read (o : Origin) : Telling Text := do
  match ← ExceptT.lift (Program.call o.call) with
  | .ok t => return t
  | .error reason => throw ("Failed to read ".toList ++ o.name ++ ": ".toList ++ reason)

def Format.render (f : Format) (v : Json) : Text :=
  match f with
  | .json => v.pretty
  | .yaml => Text.trimEnd (Yaml.document v)

namespace Command
open Telling

def showNames (names : List Text) : Text :=
  if names.isEmpty then "No prompt templates saved.".toList else Text.joinWith ['\n'] names

/-- Source is read before anything else is looked at. -/
def run [Archive.Compressor] (f : Format) : Command → Telling Text
  | .analyze language source => do
    let report ← ofAction (Service.analyze (← source.read) language)
    return f.render report.json
  | .scan language source => do
    let findings ← ofAction (Service.scan (← source.read) language)
    return f.render (.array (findings.map (·.json)))
  | .generateTests language source => do
    ofAction (Service.generateTests (← source.read) language)
  | .scaffold spec => do
    return f.render (← ofAction (Service.scaffold spec)).json
  | .unpack archive => do
    let files ← found ("Archive not found: ".toList ++ archive) (Service.unpack archive)
    return f.render (files.listing archive)
  | .share language source => do
    ofAction (Service.share (← source.read) language)
  | .fetch id => do
    let snippet ← found ("No shared snippet with id ".toList ++ id) (Service.fetch id)
    return f.render snippet.json
  | .inventory root => do
    return f.render (← ofAction (Service.inventory root)).json
  | .dependencies root => do
    return f.render (← ofAction (Service.dependencies root)).json
  | .breakDown task => do
    let steps ← ofAction (Service.breakDown task)
    return f.render (.array (steps.map (·.json)))
  | .savePrompt name source => do
    let file ← ofAction (Prompt.save name (← source.read))
    return "Saved prompt template ".toList ++ file
  | .listPrompts => do
    return showNames (← ofAction Prompt.list)
  | .showPrompt name =>
    found ("Prompt template not found: ".toList ++ name) (Prompt.load name)

end Command
end Workbench
