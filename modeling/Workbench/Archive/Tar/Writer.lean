import Workbench.Archive.Tar.Header
import Workbench.FileSet
import Workbench.Text.Lines
import Workbench.Text.Literal
set_option autoImplicit false

/-!
Writing members. A path that does not fit its field is written as a member of its own in front of
the file; the field then holds what fits of it.
-/
namespace Workbench.Archive.Tar
open Text

def blocked (bs : Bytes) : Bytes := bs ++ zeros (padded bs.length - bs.length)

def nameWidth : Nat := 100

def fileKind : UInt8 := 0
def longNameKind : UInt8 := 76

def cutTo (width : Nat) : Text → Text
  | [] => []
  | c :: cs => if utf8Width c ≤ width then c :: cutTo (width - utf8Width c) cs else []

/-- What fits of a long path; a component that would be a single dot is left away. -/
def shortened (path : Text) : Text :=
  let t := cutTo nameWidth path
  (before? ['/','.'] t).getD t

/-- The part of a path in front of the component with the first zero character, if there is one. -/
def beforeNul? (path : Text) : Option Text :=
  if path.contains '\x00' then
    some ((path.takeWhile (· ≠ '\x00')).reverse.dropWhile (· ≠ '/')).reverse
  else none

/-- A field ends at a zero byte, so a path that has one does not go into it. -/
def nameField (path : Text) : Except Text Bytes :=
  match beforeNul? path with
  | none => .ok (utf8 path)
  | some shown =>
    .error ("provided value contains a nul byte when setting path for ".toList ++ shown)

def longNameMember (path : Text) : Bytes :=
  let content := utf8 path ++ [0]
  (Header.make (utf8 "././@LongLink".toList) (octal 8 0 ++ octal 8 0) content.length
    longNameKind).block ++ blocked content

def fileMember (name content : Bytes) : Bytes :=
  (Header.make name (zeros 16) content.length fileKind).block ++ blocked content

def member (path content : Text) : Except Text Bytes :=
  let n := utf8Length path
  if n ≤ nameWidth ∧ (n < nameWidth ∨ (beforeNul? path).isNone) then
    (nameField path).map fun name => fileMember name (utf8 content)
  else
    (nameField (shortened path)).map fun name =>
      longNameMember path ++ fileMember name (utf8 content)

def ending : Bytes := zeros (2*blockSize)

end Workbench.Archive.Tar
