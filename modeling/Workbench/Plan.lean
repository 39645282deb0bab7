import Workbench.Keyword
set_option autoImplicit false

/-!
Plans for a task: four fixed lists of steps, one of which the words of the task choose.
-/
namespace Workbench

inductive Plan where
  | api
  | database
  | ui
  | generic
  deriving DecidableEq, Repr

namespace Plan

def steps : Plan → List Text
  | .api => [
    "Define API requirements and endpoints".toList,
    "Set up basic server structure".toList,
    "Implement data models".toList,
    "Implement API endpoints".toList,
    "Add error handling and validation".toList,
    "Test API endpoints".toList]
  | .database => [
    "Define database schema".toList,
    "Set up database connection".toList,
    "Implement data models".toList,
    "Create CRUD operations".toList,
    "Add data validation".toList,
    "Test database operations".toList]
  | .ui => [
    "Define UI requirements and wireframes".toList,
    "Set up basic UI structure".toList,
    "Implement UI components".toList,
    "Add styling and layout".toList,
    "Implement user interactions".toList,
    "Test UI functionality".toList]
  | .generic => [
    "Analyze requirements".toList,
    "Design solution architecture".toList,
    "Implement core functionality".toList,
    "Add error handling and edge cases".toList,
    "Write tests".toList,
    "Refactor and optimize".toList]

def rules : List (KeywordRule Plan) := [
  ⟨.api,[["api".toList,"endpoint".toList,"endpoints".toList]],.whole⟩,
  ⟨.database,[["database".toList,"db".toList]],.whole⟩,
  ⟨.ui,[["ui".toList,"interface".toList]],.whole⟩]

def ofTask (task : Text) : Plan := KeywordRule.select rules .generic task

end Plan

structure PlanStep where
  step : Nat
  description : Text
  deriving DecidableEq, Repr

def breakDown (task : Text) : List PlanStep :=
  (Plan.ofTask task).steps.zipIdx.map fun s => ⟨s.2+1,s.1⟩

end Workbench
