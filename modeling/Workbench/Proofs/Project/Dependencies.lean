import Workbench.Proofs.Project.Inventory
import Workbench.Proofs.Text.Blank
import Workbench.Proofs.Text.Lines
set_option autoImplicit false

/-!
The dependencies of a project in memory. A manifest that is read may be missing, may have a content, or
may be there as a directory alone. The last is the only cause of failure once the root is known to be a
directory; what a manifest says is never one.
-/
namespace Workbench.Project
open File Text

def isEntry (l : Text) : Bool := !l.isEmpty && l.head? != some '#'

/-- Line feeds alone divide the text, for a carriage return in front of one is trimmed away. -/
theorem requirementLines_eq (t : Text) :
    requirementLines t = ((splitOn '\n' t).map trim).filter isEntry := by
  have hr : ∀ l, trim (l ++ ['\r']) = trim l := fun l => trim_append_blanks l (by decide)
  induction t using line_induction with
  | last l h =>
    rw [requirementLines,(splitOn_piece h []).1]
    by_cases hl : l = []
    · subst hl
      rfl
    · rw [lines_of_not_mem hl h]
      rfl
  | line l t h ih =>
    have hc : ∀ ls, (trim l :: ls).filter isEntry = [trim l].filter isEntry ++ ls.filter isEntry :=
      fun ls => List.filter_append [trim l] ls
    rw [requirementLines,lines_line h,List.map_cons,apply_dropReturn hr,(splitOn_piece h t).2,
      List.map_cons,hc,← ih]
    exact hc _

theorem requirementLines_append (a b : Text) :
    requirementLines (a ++ '\n' :: b) = requirementLines a ++ requirementLines b := by
  simp only [requirementLines_eq,splitOn_append,List.map_append,List.filter_append]

theorem of_mem_requirementLines {t l : Text} (h : l ∈ requirementLines t) :
    '\n' ∉ l ∧ trim l = l ∧ isEntry l = true := by
  rw [requirementLines_eq] at h
  obtain ⟨hm,he⟩ := List.mem_filter.1 h
  obtain ⟨p,hp,rfl⟩ := List.mem_map.1 hm
  exact ⟨fun hn => not_mem_of_mem_splitOn hp (mem_of_mem_trim hn),trim_trim p,he⟩

theorem requirementLines_joinWith (t : Text) :
    requirementLines (joinWith ['\n'] (requirementLines t)) = requirementLines t := by
  have hl := fun l => @of_mem_requirementLines t l
  revert hl
  generalize requirementLines t = ls
  intro hl
  by_cases hn : ls = []
  · subst hn
    rfl
  · have ht : ls.map trim = ls := (List.map_congr_left fun l h => (hl l h).2.1).trans (List.map_id ls)
    rw [requirementLines_eq,splitOn_joinWith hn fun l h => (hl l h).1,ht]
    exact List.filter_eq_self.2 fun l h => (hl l h).2.2

example : requirementLines "a==1 # c\r\n\r\n\u2003#b\n\tb[x]\u00a0".toList =
    ["a==1 # c".toList,"b[x]".toList] := by cbv

/-- Of those that have the property this one comes first. -/
def First {α : Type} (P : α → Prop) (xs : List α) (x : α) : Prop :=
  ∃ before after, xs = before ++ x :: after ∧ P x ∧ ∀ y ∈ before, ¬ P y

def manifestKey (root name : Text) : List Component := components root ++ [.name name]

def readNames : List Text := [PythonManifest.requirements.fileName,packageFile]

/-- The manifest is in the root, but only as a directory. -/
def Blocked (as : List Addition) (root name : Text) : Prop :=
  HasDirectory as (manifestKey root name) ∧ ¬ HasFile as (manifestKey root name)

def blame (root name : Text) : Fault :=
  .unreadableFile (join root name) ("no such file: ".toList ++ join root name)

/-- The lines of the manifest that is read: trimmed, without blank ones and comments, and in order. -/
def Required (as : List Addition) (root : Text) (ls : List Text) : Prop :=
  ∃ text, HasContent as (manifestKey root PythonManifest.requirements.fileName) text ∧
    ls = ((splitOn '\n' text).map trim).filter isEntry

/-- A manifest that is noticed is named, and the lines are those of the one that is read. -/
structure PythonDeclared (as : List Addition) (root : Text) (p : Option PythonDependencies) : Prop where
  missing : p = none ↔ ∀ m : PythonManifest, ¬ Stored as (manifestKey root m.fileName)
  manifest : ∀ m, (∃ ls, p = some ⟨m,ls⟩) ↔
    First (fun m : PythonManifest => Stored as (manifestKey root m.fileName)) PythonManifest.all m
  requirements : ∀ m ls, p = some ⟨m,some ls⟩ ↔ m = .requirements ∧ Required as root ls

/-- What the manifest says may be an error, which is shown with both sections empty. -/
structure PackageDeclared (as : List Addition) (root : Text)
    (p : Option (Except Text PackageDependencies)) : Prop where
  missing : p = none ↔ ¬ Stored as (manifestKey root packageFile)
  content : ∀ r, p = some r ↔ ∃ text, HasContent as (manifestKey root packageFile) text ∧
    r = readPackage text
  failed : ∀ r ms reason, p = some r → packageJson r = .object ms → ("error".toList,reason) ∈ ms →
    ms = [("dependencies".toList,.object []),("devDependencies".toList,.object []),
      ("error".toList,reason)]

structure Outcome (as : List Addition) (root : Text) (r : Except Fault Dependencies) : Prop where
  refused : (∃ f, r = .error f ∧ f.kind = .invalidInput) ↔ ¬ HasDirectory as (components root)
  unreadable : (∃ f, r = .error f ∧ f.kind = .filesystem) ↔
    HasDirectory as (components root) ∧ ∃ n ∈ readNames, Blocked as root n
  blamed : ∀ f, r = .error f → f.kind = .filesystem → ∃ n,
    First (Blocked as root) readNames n ∧ f = blame root n
  answered : (∃ d, r = .ok d) ↔
    HasDirectory as (components root) ∧ ∀ n ∈ readNames, ¬ Blocked as root n
  python : ∀ d, r = .ok d → PythonDeclared as root d.python
  package : ∀ d, r = .ok d → PackageDeclared as root d.package

theorem members_of_failed {r : Except Text PackageDependencies} {ms : List (Text × Json)}
    {reason : Json} (hj : packageJson r = .object ms) (hm : ("error".toList,reason) ∈ ms) :
    ms = [("dependencies".toList,.object []),("devDependencies".toList,.object []),
      ("error".toList,reason)] := by
  cases r with
  | ok d =>
    cases hj
    simp at hm
  | error t =>
    cases hj
    have hr : reason = .string t := by simpa using hm
    rw [hr]

section
variable {base : World} {as : List Addition} {root : Text}

theorem first_iff {α : Type} {P : α → Prop} {p : α → Bool} (h : ∀ x, p x = true ↔ P x) {xs : List α}
    {x : α} : First P xs x ↔ xs.find? p = some x := by
  have hn : ∀ y, (!p y) = true ↔ ¬ P y := fun y => by rw [← h,Bool.not_eq_true',Bool.not_eq_true]
  rw [List.find?_eq_some_iff_append,h]
  constructor
  · rintro ⟨before,after,e,hx,hb⟩
    exact ⟨hx,before,after,e,fun y hy => (hn y).2 (hb y hy)⟩
  · rintro ⟨hx,before,after,e,hb⟩
    exact ⟨before,after,e,hx,fun y hy => (hn y).1 (hb y hy)⟩

theorem components_manifest (root : Text) (m : PythonManifest) :
    components (join root m.fileName) = manifestKey root m.fileName :=
  components_join root (by cases m <;> decide +kernel)

theorem components_package (root : Text) :
    components (join root packageFile) = manifestKey root packageFile :=
  components_join root (by decide +kernel)

theorem not_stored_or (as : List Addition) (root name : Text) :
    ¬ Stored as (manifestKey root name) ∨ Blocked as root name ∨
      ∃ text, HasContent as (manifestKey root name) text := by
  by_cases hf : HasFile as (manifestKey root name)
  · exact .inr (.inr (hasFile_iff.1 hf))
  by_cases hd : HasDirectory as (manifestKey root name)
  · exact .inr (.inl ⟨hd,hf⟩)
  · exact .inl (not_or.2 ⟨hd,hf⟩)

theorem stored_of_hasContent {key : List Component} {text : Text} (h : HasContent as key text) :
    Stored as key :=
  .inr (hasFile_iff.2 ⟨text,h⟩)

theorem readFile_of_hasContent {path text : Text} (h : HasContent as (components path) text) :
    (ExceptT.run (readFile path)).run (base.holding as) = (.ok text,base.holding as) := by
  have hr : (base.holding as).readProject path = .ok text := MemoryTree.read_eq_ok_iff.2 h
  rw [readFile,Action.run_callOr,World.answer,hr]

theorem readFile_of_not_hasFile {path : Text} (h : ¬ HasFile as (components path)) :
    (ExceptT.run (readFile path)).run (base.holding as) =
      (.error (.unreadableFile path ("no such file: ".toList ++ path)),base.holding as) := by
  have hr : (base.holding as).readProject path = .error _ := MemoryTree.read_eq_error h
  rw [readFile,Action.run_callOr,World.answer,hr]

def isThere (as : List Addition) (root : Text) (m : PythonManifest) : Bool :=
  (MemoryTree.ofAdditions as).present (join root m.fileName)

theorem isThere_iff (m : PythonManifest) :
    isThere as root m = true ↔ Stored as (manifestKey root m.fileName) := by
  rw [isThere,MemoryTree.present_iff,components_manifest]

theorem firstPresent_run (ms : List PythonManifest) :
    (ExceptT.run (firstPresent root ms)).run (base.holding as) =
      (.ok (ms.find? (isThere as root)),base.holding as) := by
  induction ms with
  | nil => rfl
  | cons m ms ih =>
    have hc : (ExceptT.run (Action.call (.present (join root m.fileName)))).run (base.holding as) =
        (.ok (isThere as root m),base.holding as) := rfl
    rw [firstPresent,Program.run_exceptBind,hc,List.find?_cons]
    cases isThere as root m with
    | true => rfl
    | false => exact ih

theorem pythonDeclared_of {p : Option PythonDependencies}
    (hm : p.map (·.manifest) = PythonManifest.all.find? (isThere as root))
    (hr : ∀ m ls, p = some ⟨m,some ls⟩ ↔ m = .requirements ∧ Required as root ls) :
    PythonDeclared as root p where
  missing := by
    rw [← Option.map_eq_none_iff,hm,List.find?_eq_none]
    refine ⟨fun h m => ?_,fun h m _ => (isThere_iff m).not.2 (h m)⟩
    exact (isThere_iff m).not.1 (h m (by cases m <;> decide))
  manifest m := by
    rw [first_iff isThere_iff,← hm]
    constructor
    · rintro ⟨ls,rfl⟩
      rfl
    · intro h
      obtain ⟨⟨k,ls⟩,rfl,rfl⟩ := Option.map_eq_some_iff.1 h
      exact ⟨ls,rfl⟩
  requirements := hr

theorem pythonDependencies_blocked (h : Blocked as root PythonManifest.requirements.fileName) :
    (ExceptT.run (pythonDependencies root)).run (base.holding as) =
      (.error (blame root PythonManifest.requirements.fileName),base.holding as) := by
  have hf : PythonManifest.all.find? (isThere as root) = some .requirements :=
    List.find?_cons_of_pos ((isThere_iff _).2 (.inl h.1))
  rw [pythonDependencies,Program.run_exceptBind,firstPresent_run,hf]
  refine (Program.run_exceptBind _ _ _).trans ?_
  rw [readFile_of_not_hasFile (by rw [components_manifest]; exact h.2)]
  rfl

theorem pythonDependencies_run (h : ¬ Blocked as root PythonManifest.requirements.fileName) : ∃ p,
    (ExceptT.run (pythonDependencies root)).run (base.holding as) = (.ok p,base.holding as) ∧
      PythonDeclared as root p := by
  rw [pythonDependencies,Program.run_exceptBind,firstPresent_run]
  rcases not_stored_or as root PythonManifest.requirements.fileName with hs | hb | ⟨text,ht⟩
  · -- The others are only noticed, so that there are no lines.
    have hr : ∀ (m : PythonManifest) ls, ¬ (m = .requirements ∧ Required as root ls) :=
      fun m ls ⟨_,text,ht,_⟩ => hs (stored_of_hasContent ht)
    cases hf : PythonManifest.all.find? (isThere as root) with
    | none => exact ⟨_,rfl,pythonDeclared_of hf.symm fun m ls => iff_of_false nofun (hr m ls)⟩
    | some m =>
      cases m with
      | requirements => exact absurd ((isThere_iff _).1 (List.find?_some hf)) hs
      | pipfile => exact ⟨_,rfl,pythonDeclared_of hf.symm fun m ls => iff_of_false nofun (hr m ls)⟩
      | setup => exact ⟨_,rfl,pythonDeclared_of hf.symm fun m ls => iff_of_false nofun (hr m ls)⟩
  · exact absurd hb h
  · have hf : PythonManifest.all.find? (isThere as root) = some .requirements :=
      List.find?_cons_of_pos ((isThere_iff _).2 (stored_of_hasContent ht))
    have hr : ∀ m ls, some (PythonDependencies.mk .requirements (some (requirementLines text))) =
        some ⟨m,some ls⟩ ↔ m = .requirements ∧ Required as root ls := fun m ls => by
      constructor
      · rintro ⟨⟩
        exact ⟨rfl,text,ht,requirementLines_eq text⟩
      · rintro ⟨rfl,other,ho,rfl⟩
        rw [MemoryTree.hasContent_unique ho ht,requirementLines_eq]
    rw [hf]
    refine ⟨some ⟨_,_⟩,?_,pythonDeclared_of hf.symm hr⟩
    refine (Program.run_exceptBind _ _ _).trans ?_
    rw [readFile_of_hasContent (by rwa [components_manifest])]
    rfl

theorem packageDependencies_blocked (h : Blocked as root packageFile) :
    (ExceptT.run (packageDependencies root)).run (base.holding as) =
      (.error (blame root packageFile),base.holding as) := by
  have hc : (base.holding as).present (join root packageFile) = true :=
    MemoryTree.present_iff.2 (by rw [components_package]; exact .inl h.1)
  rw [packageDependencies,Program.run_exceptBind,Action.run_call,World.answer,hc]
  refine (Program.run_exceptBind _ _ _).trans ?_
  rw [readFile_of_not_hasFile (by rw [components_package]; exact h.2)]
  rfl

theorem packageDependencies_run (h : ¬ Blocked as root packageFile) : ∃ p,
    (ExceptT.run (packageDependencies root)).run (base.holding as) = (.ok p,base.holding as) ∧
      PackageDeclared as root p := by
  rw [packageDependencies,Program.run_exceptBind,Action.run_call,World.answer]
  rcases not_stored_or as root packageFile with hs | hb | ⟨text,ht⟩
  · have hc : (base.holding as).present (join root packageFile) = false :=
      Bool.eq_false_iff.2 (MemoryTree.present_iff.not.2 (by rwa [components_package]))
    rw [hc]
    have hnone : ∀ r : Except Text PackageDependencies, none ≠ some r :=
      fun r => (Option.some_ne_none r).symm
    refine ⟨none,rfl,iff_of_true rfl hs,fun r => iff_of_false (hnone r) ?_,
      fun r _ _ hr => absurd hr (hnone r)⟩
    rintro ⟨text,ht,-⟩
    exact hs (stored_of_hasContent ht)
  · exact absurd hb h
  · have hstored := stored_of_hasContent ht
    have hc : (base.holding as).present (join root packageFile) = true :=
      MemoryTree.present_iff.2 (by rwa [components_package])
    rw [hc]
    refine ⟨some (readPackage text),?_,iff_of_false (Option.some_ne_none _) (not_not.2 hstored),
      fun r => ⟨fun hr => ⟨text,ht,(Option.some.inj hr).symm⟩,?_⟩,
      fun r ms reason _ hj hm => members_of_failed hj hm⟩
    · refine (Program.run_exceptBind _ _ _).trans ?_
      rw [readFile_of_hasContent (by rwa [components_package])]
      rfl
    · rintro ⟨other,ho,rfl⟩
      rw [MemoryTree.hasContent_unique ho ht]

theorem Outcome.of_refused (hd : ¬ HasDirectory as (components root)) (reason : Text) :
    Outcome as root (.error (.unreadableProject root reason)) where
  refused := iff_of_true ⟨_,rfl,rfl⟩ hd
  unreadable := iff_of_false (by rintro ⟨f,⟨⟩,hk⟩; cases hk) fun h => hd h.1
  blamed := by
    rintro f ⟨⟩ hk
    cases hk
  answered := iff_of_false nofun fun h => hd h.1
  python := nofun
  package := nofun

theorem Outcome.of_blocked {n : Text} (hd : HasDirectory as (components root))
    (h : First (Blocked as root) readNames n) : Outcome as root (.error (blame root n)) := by
  have hn : n ∈ readNames ∧ Blocked as root n := by
    obtain ⟨before,after,e,hb,-⟩ := h
    exact ⟨by rw [e]; simp,hb⟩
  exact {
    refused := iff_of_false (by rintro ⟨f,⟨⟩,hk⟩; cases hk) (not_not.2 hd)
    unreadable := iff_of_true ⟨_,rfl,rfl⟩ ⟨hd,n,hn⟩
    blamed := by
      rintro f ⟨⟩ -
      exact ⟨n,h,rfl⟩
    answered := iff_of_false nofun fun ha => ha.2 n hn.1 hn.2
    python := nofun
    package := nofun }

theorem Outcome.of_declared {d : Dependencies} (hd : HasDirectory as (components root))
    (hn : ∀ n ∈ readNames, ¬ Blocked as root n) (hp : PythonDeclared as root d.python)
    (hj : PackageDeclared as root d.package) : Outcome as root (.ok d) where
  refused := iff_of_false nofun (not_not.2 hd)
  unreadable := iff_of_false nofun fun ⟨_,n,hm,hb⟩ => hn n hm hb
  blamed := nofun
  answered := iff_of_true ⟨d,rfl⟩ ⟨hd,hn⟩
  python := by
    rintro _ ⟨⟩
    exact hp
  package := by
    rintro _ ⟨⟩
    exact hj

/-- What comes first in the order of evaluation is to blame. -/
theorem exists_outcome (hd : HasDirectory as (components root)) : ∃ r,
    (ExceptT.run (dependencies root)).run (base.holding as) = (r,base.holding as) ∧
      Outcome as root r := by
  obtain ⟨names,hl⟩ := @exists_listDirectory base as root hd
  have hrun : (ExceptT.run (dependencies root)).run (base.holding as) =
      (ExceptT.run (do return ⟨← pythonDependencies root,← packageDependencies root⟩)).run
        (base.holding as) := by
    rw [dependencies,Program.run_exceptBind,listRoot_run hl]
  rw [hrun,Program.run_exceptBind]
  by_cases hr : Blocked as root PythonManifest.requirements.fileName
  · rw [pythonDependencies_blocked hr]
    exact ⟨_,rfl,.of_blocked hd ⟨[],_,rfl,hr,nofun⟩⟩
  obtain ⟨p,hp,hpython⟩ := @pythonDependencies_run base as root hr
  simp only [hp]
  rw [Program.run_exceptBind]
  by_cases hj : Blocked as root packageFile
  · rw [packageDependencies_blocked hj]
    refine ⟨_,rfl,.of_blocked hd ⟨[_],[],rfl,hj,fun n hn => ?_⟩⟩
    rwa [List.mem_singleton.1 hn]
  obtain ⟨j,hrest,hpackage⟩ := @packageDependencies_run base as root hj
  rw [hrest]
  refine ⟨_,rfl,.of_declared hd (fun n hn => ?_) hpython hpackage⟩
  rcases List.mem_cons.1 hn with rfl | hn
  · exact hr
  · rwa [List.mem_singleton.1 hn]

end

/-- There are no dependencies of what is no directory. Of a directory there are, unless a manifest that
is read is there as a directory only; what is in the manifests makes no difference to that. The lines
of requirements are the same when they are read again, and those of two texts are one after another
those of a text made of both. -/
theorem dependencies_outcome (base : World) (as : List Addition) (root : Text) :
    (∃ r, (ExceptT.run (dependencies root)).run (base.holding as) = (r,base.holding as) ∧
      Outcome as root r) ∧
    (∀ t, requirementLines (joinWith ['\n'] (requirementLines t)) = requirementLines t) ∧
    ∀ a b, requirementLines (a ++ '\n' :: b) = requirementLines a ++ requirementLines b := by
  refine ⟨?_,requirementLines_joinWith,requirementLines_append⟩
  by_cases hd : HasDirectory as (components root)
  · exact exists_outcome hd
  · obtain ⟨reason,hr⟩ := @listRoot_refused base as root hd
    exact ⟨_,by rw [dependencies,Program.run_exceptBind,hr],.of_refused hd reason⟩

end Workbench.Project
