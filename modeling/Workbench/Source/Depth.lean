import Workbench.Language
import Workbench.Text.Lines
import Workbench.Text.Literal
set_option autoImplicit false

/-!
How deep source text nests, read off its indents alone.
-/
namespace Workbench.Source
open Text

def isCodeLine (mark l : Text) : Bool :=
  match trim l with
  | [] => false
  | t => (after? mark t).isNone

def depth (p : Profile) (code : Text) : Nat :=
  ((lines code).filter (isCodeLine p.commentMark)).foldl
    (fun d l => max d (indent l / max p.indentUnit 1)) 0

end Workbench.Source
