import Workbench.Dictionary
import Workbench.File.Disk
import Workbench.Text.Literal
import Workbench.Text.WordChars
set_option autoImplicit false

/-!
Files that set variables of the environment, a line each: a name, an equals sign and a value. A
value may be quoted, go on over several lines, and use variables that are set before. Nothing after
the first line that cannot be read counts.
-/
namespace Workbench.EnvFile
open Text

def byteLines : Bytes → List Bytes
  | [] => []
  | b :: bs =>
    if b = 10 then [b] :: byteLines bs
    else match byteLines bs with
      | [] => [[b]]
      | l :: ls => (b :: l) :: ls

def leadingTexts : List Bytes → List Text
  | [] => []
  | l :: ls =>
    match utf8Decode? l with
    | some t => t :: leadingTexts ls
    | none => []

def withoutMark : Bytes → Bytes
  | 0xEF :: 0xBB :: 0xBF :: bs => bs
  | bs => bs

inductive Quoting where
  | plain
  | blank
  | escape
  | strong
  | strongEscape
  | weak
  | weakEscape
  deriving DecidableEq, Repr

namespace Quoting

def opening (c : Char) : Quoting :=
  if c = '\\' then .escape
  else if c = '"' then .weak
  else if c = '\x27' then .strong
  else .plain

/-- None where a comment begins: at a number sign after a blank. -/
def next : Quoting → Char → Option Quoting
  | .plain,c => some (if isBlank c ∧ c ≠ '\n' ∧ c ≠ '\r' then .blank else opening c)
  | .blank,c => if c = '#' then none else some (opening c)
  | .escape,_ => some .plain
  | .strong,c => some (if c = '\\' then .strongEscape else if c = '\x27' then .plain else .strong)
  | .strongEscape,_ => some .strong
  | .weak,c => some (if c = '\\' then .weakEscape else if c = '"' then .plain else .weak)
  | .weakEscape,_ => some .weak

/-- What stands before the comment, and what the line ends in the middle of. -/
def scan (q : Quoting) : Text → Text × Option Quoting
  | [] => ([],some q)
  | c :: cs =>
    match q.next c with
    | none => ([],none)
    | some q =>
      let (kept,last) := q.scan cs
      (c :: kept,last)

end Quoting

def chomp (l : Text) : Text :=
  match before? ['\r','\n'] l,before? ['\n'] l with
  | some t,_ => t
  | none,some t => t
  | none,none => l

def isComment (l : Text) : Bool := (trimStart l).head? == some '#'

/-- Lines put together until nothing is open; what stays open at the end is lost. -/
def logicalLines (q : Quoting) (held : Text) : List Text → List Text
  | [] => []
  | l :: ls =>
    if isComment (held ++ l) then logicalLines .plain [] ls
    else
      match q.scan l with
      | (kept,none) => (held ++ kept) :: logicalLines .plain [] ls
      | (_,some .plain) => chomp (held ++ l) :: logicalLines .plain [] ls
      | (_,some q) => logicalLines q (held ++ l) ls

inductive Piece where
  | char (c : Char)
  | variable (name : Text)
  deriving DecidableEq, Repr

/-- What the reading of a value is in the middle of; a flag says whether that stands in double
quotes. -/
inductive Mode where
  | plain
  | weak
  | strong
  | escaped (quoted : Bool)
  | variable (quoted : Bool) (name : Text)
  | braced (quoted : Bool) (name : Text)
  | ended
  deriving DecidableEq, Repr

def outer (quoted : Bool) : Mode := if quoted then .weak else .plain

def escaped? (c : Char) : Option Char :=
  if c = 'n' then some '\n'
  else if c = '\\' ∨ c = '"' ∨ c = '\x27' ∨ c = '$' ∨ c = ' ' then some c
  else none

/-- The character that ends the name of a variable belongs to the value, a closing quote too. -/
def pieces : Mode → Text → Option (List Piece)
  | .plain,[] => some []
  | .escaped false,[] => some []
  | .variable false name,[] => some [.variable name]
  | .ended,[] => some []
  | _,[] => none
  | .plain,c :: cs =>
    if c = '$' then pieces (.variable false []) cs
    else if c = '\x27' then pieces .strong cs
    else if c = '"' then pieces .weak cs
    else if c = '\\' then pieces (.escaped false) cs
    else if c = ' ' ∨ c = '\t' then pieces .ended cs
    else (pieces .plain cs).map (.char c :: ·)
  | .weak,c :: cs =>
    if c = '$' then pieces (.variable true []) cs
    else if c = '"' then pieces .plain cs
    else if c = '\\' then pieces (.escaped true) cs
    else (pieces .weak cs).map (.char c :: ·)
  | .strong,c :: cs =>
    if c = '\x27' then pieces .plain cs else (pieces .strong cs).map (.char c :: ·)
  | .escaped quoted,c :: cs =>
    match escaped? c with
    | some d => (pieces (outer quoted) cs).map (.char d :: ·)
    | none => none
  | .variable quoted name,c :: cs =>
    if isAlphanumeric c then pieces (.variable quoted (name ++ [c])) cs
    else if c = '\x7b' ∧ name = [] then pieces (.braced quoted []) cs
    else if c = '$' then (pieces (.variable quoted []) cs).map (.variable name :: ·)
    else (pieces (outer quoted) cs).map fun ps => .variable name :: .char c :: ps
  | .braced quoted name,c :: cs =>
    if c = '\x7d' then (pieces (outer quoted) cs).map (.variable name :: ·)
    else pieces (.braced quoted (name ++ [c])) cs
  | .ended,c :: cs =>
    if c = ' ' ∨ c = '\t' then pieces .ended cs
    else if c = '#' then some []
    else none

structure Assignment where
  name : Text
  value : List Piece
  deriving DecidableEq, Repr

inductive Line where
  | nothing
  | assignment (a : Assignment)
  | unreadable
  deriving DecidableEq, Repr

def isNamePart (c : Char) : Bool := isIdentPart c || c == '.'

def name? (t : Text) : Option (Text × Text) :=
  match t with
  | c :: _ =>
    if isIdentStart c then some (t.takeWhile isNamePart,trimStart (t.dropWhile isNamePart)) else none
  | [] => none

def endsHere (t : Text) : Bool := t.isEmpty || t.head? == some '#'

def valueOf (name t : Text) : Line :=
  let t := trimStart t
  if endsHere t then .assignment ⟨name,[]⟩
  else match pieces .plain t with
    | some value => .assignment ⟨name,value⟩
    | none => .unreadable

/-- The word export may stand before a name, or be one. -/
def Line.of (t : Text) : Line :=
  let t := trimStart (trimEnd t)
  if endsHere t then .nothing
  else match name? t with
    | none => .unreadable
    | some (name,rest) =>
      match after? ['='] rest with
      | some value => valueOf name value
      | none =>
        if name = "export".toList then
          match name? rest with
          | none => .unreadable
          | some (name,rest) =>
            match after? ['='] rest with
            | some value => valueOf name value
            | none => .unreadable
        else .unreadable

def leadingAssignments : List Text → List Assignment
  | [] => []
  | l :: ls =>
    match Line.of l with
    | .nothing => leadingAssignments ls
    | .assignment a => a :: leadingAssignments ls
    | .unreadable => []

def assignments (content : Bytes) : List Assignment :=
  leadingAssignments (logicalLines .plain [] (leadingTexts (byteLines (withoutMark content))))

abbrev Environment := Dictionary Text

def Piece.text (e : Environment) : Piece → Text
  | .char c => [c]
  | .variable name => (e.get? name).getD []

def Assignment.apply (e : Environment) (a : Assignment) : Environment :=
  if (e.get? a.name).isSome then e else e.insert a.name (a.value.flatMap (·.text e))

def extend (e : Environment) (content : Bytes) : Environment :=
  (assignments content).foldl Assignment.apply e

def Assignment.names (a : Assignment) : List Text :=
  a.name :: a.value.filterMap fun p => match p with
    | .variable name => some name
    | .char _ => none

def names (content : Bytes) : List Text := (assignments content).flatMap Assignment.names

def fileName : Text := ".env".toList

/-- The file in the current directory, or in the nearest directory above that has one. -/
def find? (d : File.Disk) : Option Bytes :=
  search ((List.range (d.current.length+1)).map fun i => d.current.take (d.current.length-i))
where
  search : List File.Place → Option Bytes
    | [] => none
    | p :: ps =>
      match d.walk true File.maxLinks p [utf8 fileName] with
      | .ok place =>
        match d.entry? place with
        | some (.file content) => some content
        | _ => search ps
      | .error .notFound => search ps
      | .error _ => none

end Workbench.EnvFile
