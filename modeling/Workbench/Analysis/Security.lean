import Workbench.Language
import Workbench.Source.Parameters
import Workbench.Text.Literal
set_option autoImplicit false

/-!
Findings that are cheap to see in raw text. Each rule asks whether its pattern occurs anywhere;
rules are independent, and a rule that holds is reported once.
-/
namespace Workbench.Analysis
open Text Source

inductive Severity where
  | medium
  | high
  deriving DecidableEq, Repr

def Severity.text : Severity → Text
  | .medium => "Medium".toList
  | .high => "High".toList

inductive Issue where
  | sqlInjection
  | hardcodedCredentials
  | codeInjection
  | unsafeDeserialization
  deriving DecidableEq, Repr

namespace Issue

def title : Issue → Text
  | .sqlInjection => "SQL Injection".toList
  | .hardcodedCredentials => "Hardcoded Credentials".toList
  | .codeInjection => "Code Injection".toList
  | .unsafeDeserialization => "Unsafe Deserialization".toList

def severity : Issue → Severity
  | .unsafeDeserialization => .medium
  | _ => .high

def description : Issue → Text
  | .sqlInjection =>
    "Possible SQL injection vulnerability detected. Use parameterized queries instead.".toList
  | .hardcodedCredentials =>
    "Hardcoded password detected. Use environment variables or a secure vault instead.".toList
  | .codeInjection =>
    "Use of eval()/exec() detected, which can lead to code injection vulnerabilities.".toList
  | .unsafeDeserialization =>
    "Use of pickle module detected. Be cautious with untrusted data.".toList

end Issue

/-- Some place of the text, with the character in front of it, passes the test. -/
def somewhereAfter (test : Option Char → Text → Bool) (before : Option Char) : Text → Bool
  | [] => test before []
  | c :: cs => test before (c :: cs) || somewhereAfter test (some c) cs

def somewhere (test : Option Char → Text → Bool) (t : Text) : Bool := somewhereAfter test none t

/-- Some place passes the test that is reached without stepping over a character that `stop`
picks. -/
def within (stop : Char → Bool) (test : Text → Bool) : Text → Bool
  | [] => test []
  | c :: cs => test (c :: cs) || (!stop c && within stop test cs)

def single (c : Char) : Bool := c == '\''

def closesFormat (t : Text) : Bool :=
  match one? isQuote t with
  | none => false
  | some t => (after? ['%'] (trimStart t)).isSome

/-- The inside of a literal with a placeholder that the formatting operator fills. -/
def formatted (t : Text) : Bool :=
  within single (fun t =>
    match after? "%s".toList t with
    | none => false
    | some t => within single closesFormat t) t

def executed? (t : Text) : Option Text :=
  match after? "execute".toList t with
  | none => none
  | some t => (one? (· == '(') (trimStart t)).map trimStart

def queryHere (t : Text) : Bool :=
  match executed? t with
  | none => false
  | some t =>
    (match one? isQuote t with
      | none => false
      | some t => formatted t) ||
    (match after? ['f'] t with
      | none => false
      | some t => (one? isQuote t).isSome)

/-- Letters that differ in case only; a long s counts as an s. -/
def sameLetter (k c : Char) : Bool := c.toLower == k || (k == 's' && c == 'ſ')

def afterFolded? : Text → Text → Option Text
  | [], t => some t
  | _ :: _, [] => none
  | k :: ks, c :: cs => if sameLetter k c then afterFolded? ks cs else none

def literalHere (t : Text) : Bool :=
  match one? isQuote t with
  | none => false
  | some t =>
    !(t.takeWhile fun c => !isQuote c).isEmpty &&
      (one? isQuote (t.dropWhile fun c => !isQuote c)).isSome

def passwordHere (t : Text) : Bool :=
  match afterFolded? "password".toList t with
  | none => false
  | some t =>
    match one? (· == '=') (trimStart t) with
    | none => false
    | some t => literalHere (trimStart t)

def appliedHere (name t : Text) : Bool :=
  match after? name t with
  | none => false
  | some t => (one? (· == '(') (trimStart t)).isSome

def evaluationHere (before : Option Char) (t : Text) : Bool :=
  edge before && (appliedHere "eval".toList t || appliedHere "exec".toList t)

def pickle? (t : Text) : Option Text :=
  match one? (fun c => c == 'P' || c == 'p') ((one? (· == 'c') t).getD t) with
  | none => none
  | some t => after? "ickle".toList t

def pickleImportHere (t : Text) : Bool :=
  match after? "import".toList t with
  | none => false
  | some t =>
    match blanks? t with
    | none => false
    | some t =>
      match pickle? t with
      | none => false
      | some t => edge t.head?

def pickleFromHere (t : Text) : Bool :=
  match after? "from".toList t with
  | none => false
  | some t =>
    match blanks? t with
    | none => false
    | some t =>
      match pickle? t with
      | none => false
      | some t =>
        match blanks? t with
        | none => false
        | some t =>
          match after? "import".toList t with
          | none => false
          | some t => edge t.head?

def deserializationHere (before : Option Char) (t : Text) : Bool :=
  edge before && (pickleImportHere t || pickleFromHere t)

namespace Issue

def here : Issue → Option Char → Text → Bool
  | .sqlInjection, _, t => queryHere t
  | .hardcodedCredentials, _, t => passwordHere t
  | .codeInjection, b, t => evaluationHere b t
  | .unsafeDeserialization, b, t => deserializationHere b t

def found (i : Issue) (code : Text) : Bool := somewhere i.here code

def all : List Issue :=
  [.sqlInjection,.hardcodedCredentials,.codeInjection,.unsafeDeserialization]

end Issue

structure Finding where
  issue : Issue
  severity : Severity
  description : Text
  deriving DecidableEq, Repr

def Issue.finding (i : Issue) : Finding := ⟨i,i.severity,i.description⟩

def findings (code : Text) : List Finding :=
  (Issue.all.filter (·.found code)).map Issue.finding

def scan (l : Language) (code : Text) : List Finding :=
  match l.profile? with
  | none => []
  | some _ => findings code

end Workbench.Analysis
