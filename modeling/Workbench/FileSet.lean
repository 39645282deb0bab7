import Workbench.Dictionary
set_option autoImplicit false

/-!
Sets of files.
-/
namespace Workbench

abbrev FileSet := Dictionary Text

end Workbench
