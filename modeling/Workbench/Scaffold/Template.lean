import Workbench.FileSet
import Workbench.Keyword
import Workbench.Scaffold.Files
set_option autoImplicit false

/-!
Project templates: three fixed sets of files, one of which the words of a description choose.
Nothing of the description reaches the files.
-/
namespace Workbench

inductive Template where
  | webApi
  | frontEnd
  | staticSite
  deriving DecidableEq, Repr

namespace Template
open Scaffold

def name : Template → Text
  | .webApi => "web_api".toList
  | .frontEnd => "front_end".toList
  | .staticSite => "static_site".toList

def rules : List (KeywordRule Template) := [
  ⟨.webApi,[["flask".toList],["api".toList]],.start⟩,
  ⟨.frontEnd,[["react".toList]],.start⟩]

def ofSpec (spec : Text) : Template := KeywordRule.select rules .staticSite spec

def files : Template → FileSet
  | .webApi => Dictionary.ofList [
    ("app.py".toList,webApiApp),
    ("requirements.txt".toList,webApiRequirements),
    ("README.md".toList,webApiReadme)]
  | .frontEnd => Dictionary.ofList [
    ("index.html".toList,frontEndPage),
    ("app.js".toList,frontEndApp),
    ("README.md".toList,frontEndReadme)]
  | .staticSite => Dictionary.ofList [
    ("index.html".toList,staticSitePage),
    ("styles.css".toList,staticSiteStyles),
    ("script.js".toList,staticSiteScript),
    ("README.md".toList,staticSiteReadme)]

end Template
end Workbench
