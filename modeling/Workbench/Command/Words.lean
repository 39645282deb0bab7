import Workbench.Command.Request
import Workbench.Text.Lines
set_option autoImplicit false

/-!
Requests as words. The words are read level by level: the program, then a command, for templates
also what to do with them. A level has options, which begin with a hyphen, and operands. What was
given last stays unsettled until something else is given, and is only then checked; so of two
mistakes the one that is settled first counts.
-/
namespace Workbench

/-- Why words are not a request. To ask for help or for the version is no mistake. -/
inductive Usage where
  | help
  | version
  | helpForNothing
  | unknownArgument
  | unknownCommand
  | missingCommand
  | missingArgument
  | invalidValue
  | repeated
  | unwantedValue
  deriving DecidableEq, Repr

inductive Verb where
  | analyze
  | scan
  | generateTests
  | scaffold
  | unpack
  | share
  | fetch
  | inventory
  | dependencies
  | breakDown
  | savePrompt
  | listPrompts
  | showPrompt
  deriving DecidableEq, Repr

/-- An operand is any text, or a path, which is not empty. One that repeats takes all that
follows. -/
structure Operand where
  isPath : Bool
  repeats : Bool
  deriving DecidableEq, Repr

namespace Verb

def text : Operand := ⟨false,false⟩
def path : Operand := ⟨true,false⟩
def texts : Operand := ⟨false,true⟩

def operands : Verb → List Operand
  | .analyze | .scan | .generateTests | .share => [path]
  | .scaffold | .breakDown => [texts]
  | .unpack | .fetch | .showPrompt => [text]
  | .inventory | .dependencies => [path]
  | .savePrompt => [text,path]
  | .listPrompts => []

def takesLanguage : Verb → Bool
  | .analyze | .scan | .generateTests | .share => true
  | _ => false

def sentence? : List Text → Option Text
  | [] => none
  | ws => some (Text.joinWith [' '] ws)

/-- The command that the operands make, none if one is missing. -/
def command? (v : Verb) (language : Text) (given : List Text) : Option Command :=
  match v with
  | .analyze => some (.analyze language (.ofPath? given.head?))
  | .scan => some (.scan language (.ofPath? given.head?))
  | .generateTests => some (.generateTests language (.ofPath? given.head?))
  | .share => some (.share language (.ofPath? given.head?))
  | .scaffold => (sentence? given).map .scaffold
  | .breakDown => (sentence? given).map .breakDown
  | .unpack => given.head?.map .unpack
  | .fetch => given.head?.map .fetch
  | .showPrompt => given.head?.map .showPrompt
  | .inventory => some (.inventory (given.head?.getD ['.']))
  | .dependencies => some (.dependencies (given.head?.getD ['.']))
  | .savePrompt => given.head?.map fun name => .savePrompt name (.ofPath? given.tail.head?)
  | .listPrompts => some .listPrompts

end Verb

inductive Level where
  | program
  | prompt
  | verb (v : Verb)
  deriving DecidableEq, Repr

inductive ValueOption where
  | format
  | language
  deriving DecidableEq, Repr

inductive Flag where
  | help
  | version
  | valued (o : ValueOption)
  deriving DecidableEq, Repr

namespace Level

def children : Level → List (Text × Level)
  | .program => [
    ("analyze".toList,.verb .analyze),
    ("scan".toList,.verb .scan),
    ("tests".toList,.verb .generateTests),
    ("scaffold".toList,.verb .scaffold),
    ("unpack".toList,.verb .unpack),
    ("share".toList,.verb .share),
    ("fetch".toList,.verb .fetch),
    ("tree".toList,.verb .inventory),
    ("deps".toList,.verb .dependencies),
    ("plan".toList,.verb .breakDown),
    ("prompt".toList,.prompt)]
  | .prompt => [
    ("save".toList,.verb .savePrompt),
    ("list".toList,.verb .listPrompts),
    ("show".toList,.verb .showPrompt)]
  | .verb _ => []

def helpName : Text := "help".toList

def child? (l : Level) (name : Text) : Option Level :=
  (l.children.find? fun c => c.1 = name).map (·.2)

def hasHelp (l : Level) (name : Text) : Bool := !l.children.isEmpty && name == helpName

def operands : Level → List Operand
  | .verb v => v.operands
  | _ => []

def takesLanguage : Level → Bool
  | .verb v => v.takesLanguage
  | _ => false

def long? (l : Level) (name : Text) : Option Flag :=
  if name = helpName then some .help
  else if name = "version".toList ∧ l = .program then some .version
  else if name = "format".toList then some (.valued .format)
  else if name = "language".toList ∧ l.takesLanguage then some (.valued .language)
  else none

def short? (l : Level) (c : Char) : Option Flag :=
  if c = 'h' then some .help
  else if c = 'V' ∧ l = .program then some .version
  else if c = 'l' ∧ l.takesLanguage then some (.valued .language)
  else none

end Level

inductive WordShape where
  | plain
  | operandsFollow
  | long (name : Text) (value : Option Text)
  | short (c : Char) (rest : Text)
  deriving DecidableEq, Repr

def attached? (t : Text) : Option Text :=
  match t.dropWhile (· != '=') with
  | _ :: v => some v
  | [] => none

def WordShape.of : Text → WordShape
  | ['-','-'] => .operandsFollow
  | '-' :: '-' :: t => .long (t.takeWhile (· != '=')) (attached? t)
  | '-' :: c :: rest => .short c rest
  | _ => .plain

structure Given where
  format : Option Format
  language : Option Text
  operands : List Text
  deriving DecidableEq, Repr

/-- What was given last; an option may still be waiting for its value. -/
inductive Pending where
  | option (o : ValueOption) (value : Option Text)
  | operand (o : Operand) (value : Text)
  deriving DecidableEq, Repr

def Given.settle (g : Given) : Pending → Except Usage Given
  | .option _ none => .error .invalidValue
  | .option .format (some v) =>
    if g.format.isSome then .error .repeated
    else match Format.ofName? v with
      | some f => .ok {g with format := some f}
      | none => .error .invalidValue
  | .option .language (some v) =>
    if g.language.isSome then .error .repeated else .ok {g with language := some v}
  | .operand o v =>
    if o.isPath ∧ v = [] then .error .invalidValue
    else .ok {g with operands := g.operands ++ [v]}

/-- The reading of one level: what is settled, what is not, the operands there is still room for,
and whether all that follows are operands. -/
structure Reading where
  given : Given
  pending : Option Pending
  room : List Operand
  operandsOnly : Bool
  deriving DecidableEq, Repr

namespace Reading

def start (l : Level) : Reading := ⟨⟨none,none,[]⟩,none,l.operands,false⟩

def settle (s : Reading) : Except Usage Reading :=
  match s.pending with
  | none => .ok s
  | some p => (s.given.settle p).map fun g => {s with given := g,pending := none}

def giveLater (s : Reading) (p : Pending) : Except Usage Reading :=
  s.settle.map fun s => {s with pending := some p}

def option (s : Reading) (o : ValueOption) : Option Text → Except Usage Reading
  | none => s.giveLater (.option o none)
  | some v => do
    let s ← s.settle
    let g ← s.given.settle (.option o (some v))
    return {s with given := g}

def stop (s : Reading) (u : Usage) : Except Usage Reading := s.settle.bind fun _ => .error u

def long (s : Reading) (f : Flag) (value : Option Text) : Except Usage Reading :=
  match f,value with
  | .valued o,v => s.option o v
  | _,some _ => .error .unwantedValue
  | .help,none => s.stop .help
  | .version,none => s.stop .version

/-- What follows the letter is its value; an equals sign in front of it does not belong to it. -/
def short (s : Reading) (f : Flag) (rest : Text) : Except Usage Reading :=
  match f,rest with
  | .valued o,[] => s.option o none
  | .valued o,'=' :: v => s.option o (some v)
  | .valued o,v => s.option o (some v)
  | .help,_ => s.stop .help
  | .version,_ => s.stop .version

def operand (s : Reading) (l : Level) (w : Text) : Except Usage Reading :=
  match s.room with
  | o :: more => (s.giveLater (.operand o w)).map fun s =>
    {s with room := if o.repeats then o :: more else more}
  | [] =>
    if l.children = [] ∨ s.operandsOnly ∧ ((l.child? w).isSome ∨ l.hasHelp w) then
      .error .unknownArgument
    else .error .unknownCommand

def awaiting? (s : Reading) : Option ValueOption :=
  match s.pending with
  | some (.option o none) => if s.operandsOnly then none else some o
  | _ => none

def word (s : Reading) (l : Level) (w : Text) : Except Usage Reading :=
  if s.operandsOnly then s.operand l w
  else
    match WordShape.of w with
    | .operandsFollow => .ok {s with operandsOnly := true}
    | .long name value =>
      match l.long? name with
      | some f => s.long f value
      | none => .error .unknownArgument
    | .short c rest =>
      match l.short? c with
      | some f => s.short f rest
      | none => .error .unknownArgument
    | .plain =>
      match s.awaiting? with
      | some o => .ok {s with pending := some (.option o (some w))}
      | none => s.operand l w

def enters? (s : Reading) (l : Level) (w : Text) : Option Level :=
  if s.operandsOnly ∨ s.awaiting?.isSome then none else l.child? w

def asksHelp (s : Reading) (l : Level) (w : Text) : Bool :=
  !s.operandsOnly && s.awaiting?.isNone && l.hasHelp w

def defaultLanguage : Text := "python".toList

def finish (s : Reading) (l : Level) : Except Usage (Option Format × Command) := do
  let s ← s.settle
  match l with
  | .verb v =>
    match v.command? (s.given.language.getD defaultLanguage) s.given.operands with
    | some c => return (s.given.format,c)
    | none => throw .missingArgument
  | _ => throw (if s.given.format.isSome then .missingCommand else .helpForNothing)

end Reading

def helpOn (l : Level) : List Text → Usage
  | [] => .help
  | w :: ws =>
    match l.child? w with
    | some l => helpOn l ws
    | none => if l.hasHelp w ∧ ws = [] then .help else .unknownCommand

/-- Reads the words from a level on. A format that is given further in counts more. -/
def Level.read (l : Level) (s : Reading) : List Text → Except Usage (Option Format × Command)
  | [] => s.finish l
  | w :: ws =>
    match s.enters? l w with
    | some inner => do
      let (format,command) ← inner.read (.start inner) ws
      let s ← s.settle
      return (format <|> s.given.format,command)
    | none =>
      if s.asksHelp l w then .error (helpOn l ws)
      else do
        let s ← s.word l w
        l.read s ws

def Request.ofWords (ws : List Text) : Except Usage Request :=
  (Level.program.read (.start .program) ws).map fun r => ⟨r.1.getD .json,r.2⟩

end Workbench
