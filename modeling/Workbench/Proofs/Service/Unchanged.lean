import Workbench.Process
import Workbench.Proofs.Project.Walk
import Workbench.Proofs.Session.Operation
set_option autoImplicit false

/-!
Faults change nothing. Whatever is asked of a service whose store is held in memory, and whichever of
its calls the store refuses: if it ends in a fault, everything is as it was before. Only an entry that
an id was drawn for, and that then cannot be written, costs that id.
-/
namespace Workbench

/-- A new snippet or a new archive could not be written. -/
def Fault.Unwritten (f : Fault) : Prop := ∃ name reason,
  f = .storage (.writing .sharedCode name) reason ∨ f = .storage (.writing .generated name) reason

namespace Service

/-- All that is offered: what sessions are made of, and what only looks at what it is given. -/
inductive Operation where
  | session (o : Session.Operation)
  | analyze (code language : Text)
  | scan (code language : Text)
  | generateTests (code language : Text)
  | breakDown (task : Text)
  | inventory (root : Text)
  | dependencies (root : Text)

namespace Operation

def Answer : Operation → Type
  | .session o => o.Answer
  | .analyze _ _ => Analysis.Report
  | .scan _ _ => List Analysis.Finding
  | .generateTests _ _ => Text
  | .breakDown _ => List PlanStep
  | .inventory _ => Project.Inventory
  | .dependencies _ => Project.Dependencies

def action [Archive.Compressor] : (o : Operation) → Action o.Answer
  | .session o => o.action
  | .analyze code language => Service.analyze code language
  | .scan code language => Service.scan code language
  | .generateTests code language => Service.generateTests code language
  | .breakDown task => Service.breakDown task
  | .inventory root => Service.inventory root
  | .dependencies root => Service.dependencies root

def isReadOnly : Operation → Bool
  | .session (.share _ _) | .session (.scaffold _) | .session (.package _)
  | .session (.savePrompt _ _) => false
  | _ => true

end Operation

theorem still_need (field value : Text) : Still (Action.need field value) := by
  rw [Action.need]
  split
  · exact .throw _
  · exact .pure _

theorem still_fetch (id : Text) : Still (fetch id) := by
  rw [fetch,Snippet.get]
  split
  · exact .pure _
  · refine .read (.pure _) fun content => ?_
    dsimp only
    split
    · exact .pure _
    · exact .throw _

theorem still_unpack (name : Text) : Still (unpack name) := by
  rw [unpack,Archive.unpack]
  split
  · exact .pure _
  · refine .read (.pure _) fun content => ?_
    dsimp only
    split
    · exact .pure _
    · exact .throw _

theorem still_loadPrompt (name : Text) : Still (Prompt.load name) := by
  rw [Prompt.load]
  split
  · exact .pure _
  · refine .read (.pure _) fun content => ?_
    dsimp only
    split
    · exact .pure _
    · exact .throw _

theorem still_listPrompts : Still Prompt.list := .bind (.callOr _ rfl) fun _ => .pure _

theorem still_inventory (root : Text) : Still (inventory root) :=
  .bind (still_need _ _) fun _ => .bind (.callOr _ rfl) fun _ => .bind (.lift (.call rfl)) fun _ =>
    .lift (Project.walk_quiet _ _ _ _)

theorem still_firstPresent (root : Text) (ms : List Project.PythonManifest) :
    Still (Project.firstPresent root ms) := by
  induction ms with
  | nil => exact .pure _
  | cons m ms ih =>
    refine .bind (.lift (.call rfl)) fun present => ?_
    cases present with
    | true => exact .pure _
    | false => exact ih

theorem still_pythonDependencies (root : Text) : Still (Project.pythonDependencies root) := by
  refine .bind (still_firstPresent _ _) fun found => ?_
  cases found with
  | none => exact .pure _
  | some m =>
    cases m with
    | requirements => exact .bind (.callOr _ rfl) fun _ => .pure _
    | pipfile => exact .pure _
    | setup => exact .pure _

theorem still_packageDependencies (root : Text) : Still (Project.packageDependencies root) := by
  refine .bind (.lift (.call rfl)) fun present => ?_
  cases present with
  | true => exact .bind (.callOr _ rfl) fun _ => .pure _
  | false => exact .pure _

theorem still_dependencies (root : Text) : Still (dependencies root) :=
  .bind (still_need _ _) fun _ => .bind (.callOr _ rfl) fun _ =>
    .bind (still_pythonDependencies root) fun _ => .bind (still_packageDependencies root) fun _ =>
      .pure _

theorem Operation.still [Archive.Compressor] {o : Operation} (h : o.isReadOnly = true) :
    Still o.action := by
  cases o with
  | session o =>
    cases o with
    | share code language => simp [isReadOnly] at h
    | fetch id => exact still_fetch id
    | scaffold spec => simp [isReadOnly] at h
    | package files => simp [isReadOnly] at h
    | unpack name => exact still_unpack name
    | savePrompt name content => simp [isReadOnly] at h
    | listPrompts => exact still_listPrompts
    | loadPrompt name => exact still_loadPrompt name
  | analyze code language => exact .bind (still_need _ _) fun _ => .pure _
  | scan code language => exact .bind (still_need _ _) fun _ => .pure _
  | generateTests code language => exact .bind (still_need _ _) fun _ => .pure _
  | breakDown task => exact .bind (still_need _ _) fun _ => .pure _
  | inventory root => exact still_inventory root
  | dependencies root => exact still_dependencies root

theorem careful_share (code language : Text) : Careful Fault.Unwritten (share code language) :=
  .bind (still_need _ _) fun _ => .drawn fun id => .now fun _ =>
    .write (fun reason => ⟨_,reason,.inl rfl⟩) _ _ _ id

theorem careful_package [Archive.Compressor] (files : FileSet) :
    Careful Fault.Unwritten (Archive.package files) :=
  .bind (fun _ => rfl) fun _ => .drawn fun id =>
    .write (fun reason => ⟨_,reason,.inr rfl⟩) _ _ _ (Archive.nameOf id)

theorem careful_scaffold [Archive.Compressor] (spec : Text) :
    Careful Fault.Unwritten (scaffold spec) :=
  .bind (still_need _ _) fun _ => .map (careful_package _) _

theorem careful_savePrompt (name content : Text) :
    Careful Fault.Unwritten (Prompt.save name content) := by
  rw [Prompt.save]
  split
  · exact (Still.throw _).careful
  · exact (@FailsAtOnce.write _ _ (fun _ => True) (fun _ => trivial) _ _ _ _).careful

theorem Operation.careful [Archive.Compressor] (o : Operation) :
    Careful Fault.Unwritten o.action := by
  cases h : o.isReadOnly with
  | true => exact (Operation.still h).careful
  | false =>
    cases o with
    | session o =>
      cases o with
      | share code language => exact careful_share code language
      | scaffold spec => exact careful_scaffold spec
      | package files => exact careful_package files
      | savePrompt name content => exact careful_savePrompt name content
      | _ => simp [isReadOnly] at h
    | _ => simp [isReadOnly] at h

end Service

def TellsUnwritten (t : Text) : Prop := ∃ f : Fault, f.Unwritten ∧ t = f.message

namespace Telling
variable {α : Type}

theorem run_ofAction (a : Action α) (w : World) : (ExceptT.run (ofAction a)).run w =
    (((ExceptT.run a).run w).1.mapError Fault.message,((ExceptT.run a).run w).2) :=
  Program.run_bind _ _ w

theorem still_ofAction {a : Action α} (h : Still a) : Still (ofAction a) := fun w => by
  rw [run_ofAction]
  exact h w

theorem careful_ofAction {a : Action α} (h : Careful Fault.Unwritten a) :
    Careful TellsUnwritten (ofAction a) := by
  intro w s hs t w' hr
  rw [run_ofAction] at hr
  cases ha : (ExceptT.run a).run w with
  | mk r v =>
    rw [ha] at hr
    cases r with
    | ok x => cases hr
    | error f =>
      cases hr
      exact (h w s hs f _ ha).imp_right fun hf => ⟨⟨f,hf.1,rfl⟩,hf.2⟩

theorem still_found (missing : Text) {a : Action (Option α)} (h : Still a) :
    Still (found missing a) :=
  .bind (still_ofAction h) fun found => by
    cases found with
    | some v => exact .pure v
    | none => exact .throw missing

end Telling

theorem Origin.still_read (o : Origin) : Still o.read := by
  refine .bind (.lift (.call (by cases o <;> rfl))) fun r => ?_
  cases r with
  | ok t => exact .pure t
  | error reason => exact .throw _

namespace Command
open Telling Service

def isReadOnly : Command → Bool
  | .share _ _ | .scaffold _ | .savePrompt _ _ => false
  | _ => true

theorem still_run [Archive.Compressor] (f : Format) {c : Command} (h : c.isReadOnly = true) :
    Still (c.run f) := by
  have still : ∀ {o : Operation}, o.isReadOnly = true → Still (ofAction o.action) :=
    fun ho => still_ofAction (Operation.still ho)
  cases c with
  | analyze language source =>
    exact .bind source.still_read fun code =>
      .bind (still (o := .analyze code language) rfl) fun _ => .pure _
  | scan language source =>
    exact .bind source.still_read fun code =>
      .bind (still (o := .scan code language) rfl) fun _ => .pure _
  | generateTests language source =>
    exact .bind source.still_read fun code => still (o := .generateTests code language) rfl
  | scaffold spec => simp [isReadOnly] at h
  | unpack archive => exact .bind (still_found _ (still_unpack archive)) fun _ => .pure _
  | share language source => simp [isReadOnly] at h
  | fetch id => exact .bind (still_found _ (still_fetch id)) fun _ => .pure _
  | inventory root => exact .bind (still (o := .inventory root) rfl) fun _ => .pure _
  | dependencies root => exact .bind (still (o := .dependencies root) rfl) fun _ => .pure _
  | breakDown task => exact .bind (still (o := .breakDown task) rfl) fun _ => .pure _
  | savePrompt name source => simp [isReadOnly] at h
  | listPrompts => exact .bind (still_ofAction still_listPrompts) fun _ => .pure _
  | showPrompt name => exact still_found _ (still_loadPrompt name)

theorem careful_run [Archive.Compressor] (c : Command) (f : Format) :
    Careful TellsUnwritten (c.run f) := by
  cases h : c.isReadOnly with
  | true => exact (still_run f h).careful
  | false =>
    cases c with
    | share language source =>
      exact .bind source.still_read fun code => careful_ofAction (careful_share code language)
    | scaffold spec => exact .map (careful_ofAction (careful_scaffold spec)) _
    | savePrompt name source =>
      exact .bind source.still_read fun content =>
        .map (careful_ofAction (careful_savePrompt name content)) _
    | _ => simp [isReadOnly] at h

end Command

theorem careful_start [Archive.Compressor] (words : List Text) {w w' : World} {s : MemoryStore}
    (hs : w.store = .memory s) {o : Outcome} (hr : (start words).run w = (o,w')) (ho : o.exitCode ≠ 0) :
    w' = w ∨ (∃ t, o = .failed t ∧ TellsUnwritten t) ∧ w' = {w with ids := w.ids.draw.2} := by
  rw [start] at hr
  split at hr
  · cases hr
    exact .inl rfl
  · rename_i r hw
    rw [Program.run_bind] at hr
    cases hc : (ExceptT.run (r.command.run r.format)).run w with
    | mk e v =>
      rw [hc] at hr
      cases e with
      | ok t =>
        cases hr
        exact absurd rfl ho
      | error t =>
        cases hr
        exact (r.command.careful_run r.format w s hs t _ hc).imp_right fun h =>
          ⟨⟨t,rfl,h.1⟩,h.2⟩

/-- Surroundings whose store is held in memory; any of its calls may be refused. -/
def World.storing (base : World) (s : MemoryStore) : World := {base with store := .memory s}

/-- An operation or a command that ends in a fault leaves everything as it was, but for one drawn id
if a new snippet or a new archive could not be written. One that is there to look at things changes
nothing, however it ends. -/
theorem faults_change_nothing [Archive.Compressor] (base : World) (s : MemoryStore) :
    (∀ o : Service.Operation,
      (∀ f w', (ExceptT.run o.action).run (base.storing s) = (.error f,w') → w' = base.storing s ∨
        f.Unwritten ∧ w' = {base.storing s with ids := base.ids.draw.2}) ∧
      (o.isReadOnly = true → ((ExceptT.run o.action).run (base.storing s)).2 = base.storing s)) ∧
    (∀ (c : Command) (shown : Format),
      (∀ t w', (ExceptT.run (c.run shown)).run (base.storing s) = (.error t,w') →
        w' = base.storing s ∨
        TellsUnwritten t ∧ w' = {base.storing s with ids := base.ids.draw.2}) ∧
      (c.isReadOnly = true → ((ExceptT.run (c.run shown)).run (base.storing s)).2 = base.storing s)) ∧
    ∀ words o w', (start words).run (base.storing s) = (o,w') → o.exitCode ≠ 0 →
      w' = base.storing s ∨ (∃ t, o = .failed t ∧ TellsUnwritten t) ∧
        w' = {base.storing s with ids := base.ids.draw.2} :=
  ⟨fun o => ⟨o.careful _ s rfl,fun h => Service.Operation.still h _⟩,
    fun c shown => ⟨c.careful_run shown _ s rfl,fun h => Command.still_run shown h _⟩,
    fun words _ _ hr ho => careful_start words rfl hr ho⟩

example : ((ExceptT.run (Service.share "x".toList [])).run
      {World.bare with refusals := ⟨some [],none,none⟩}).2.ids = .sequential 1 ∧
    ((ExceptT.run (Service.share " ".toList [])).run
      {World.bare with refusals := ⟨some [],none,none⟩}).2.ids = .sequential 0 := by decide

end Workbench
