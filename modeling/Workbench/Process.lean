import Workbench.Command.Run
import Workbench.Command.Words
import Workbench.EnvFile
import Workbench.Settings
set_option autoImplicit false

/-!
One start of the program: words in, then something to show or to complain of, and a number.
-/
namespace Workbench

def Settings.ofEnvironment (e : EnvFile.Environment) (file : Option Bytes) : Settings :=
  .ofLookup (EnvFile.extend e (file.getD [])).get?

inductive Outcome where
  | usage (u : Usage)
  | shown (t : Text)
  | failed (t : Text)
  deriving DecidableEq, Repr

namespace Usage

def isMistake : Usage → Bool
  | .help | .version => false
  | _ => true

def commandList : Text :=
  Text.joinWith [',',' '] ((Level.program.children.map (·.1)) ++ [Level.helpName])

def text : Usage → Text
  | .version => "workbench 0.1.0".toList
  | .help | .helpForNothing =>
    "workbench [--format json|yaml] COMMAND ...\nCommands: ".toList ++ commandList
  | .unknownArgument => "unknown argument".toList
  | .unknownCommand => "unknown command".toList
  | .missingCommand => "a command is missing".toList
  | .missingArgument => "an argument is missing".toList
  | .invalidValue => "a value is missing or not one of those that are possible".toList
  | .repeated => "an option is given twice".toList
  | .unwantedValue => "an option takes no value".toList

end Usage

namespace Outcome

def exitCode : Outcome → Nat
  | .usage u => if u.isMistake then 1 else 0
  | .shown _ => 0
  | .failed _ => 1

def line (t : Text) : Text := t ++ ['\n']

def output : Outcome → Text
  | .usage u => if u.isMistake then [] else line u.text
  | .shown t => line t
  | .failed _ => []

def complaint : Outcome → Text
  | .usage u => if u.isMistake then line u.text else []
  | .shown _ => []
  | .failed t => line t

def ofResult : Except Text Text → Outcome
  | .ok t => .shown t
  | .error t => .failed t

end Outcome

def start [Archive.Compressor] (words : List Text) : Program Outcome :=
  match Request.ofWords words with
  | .error u => .done (.usage u)
  | .ok r => Program.bind (ExceptT.run (r.command.run r.format)) fun result =>
    .done (Outcome.ofResult result)

end Workbench
