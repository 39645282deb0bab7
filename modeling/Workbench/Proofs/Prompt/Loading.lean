import Workbench.Proofs.Prompt.Library
import Workbench.Proofs.Store.Key
set_option autoImplicit false

/-!
Loading a template by any name after any sequence of savings. Names that are made into the same file
are names of one template: what was last saved by one of them is loaded by every other. The file is
itself one of them, since making a name into a file changes nothing the second time.
-/
namespace Workbench.Prompt
open Text

theorem fileOf?_eq_none_iff {name : Text} : fileOf? name = none ↔ allBlank name = true := by
  rw [fileOf?]
  cases allBlank name <;> simp

theorem endsWith_guarded (t : Text) : endsWith fileSuffix (guarded (withSuffix t)) = true := by
  obtain ⟨u,hu⟩ := exists_withSuffix t
  rw [hu,endsWith_iff]
  rcases guarded_eq (u ++ fileSuffix) with hg | ⟨hg,-⟩
  · exact ⟨'_' :: u,hg⟩
  · exact ⟨u,hg⟩

theorem fileOf?_file {name file : Text} (h : fileOf? name = some file) :
    fileOf? file = some file := by
  have hs : ∀ c ∈ file, isSafe c = true := fun c hc => isSafe_of_mem_file h hc
  obtain ⟨-,hf⟩ := fileOf?_eq_some h
  have he : endsWith fileSuffix file = true := by
    rw [hf]
    exact endsWith_guarded _
  have hn : file ≠ [] := by
    rintro rfl
    exact absurd he (by decide)
  have hw : withSuffix file = file := if_pos he
  have hg : guarded file = file := by rw [hf,guarded_guarded]
  rw [fileOf?_of_safe hn hs,hw,hg]

theorem fileOf?_spaced {b e : Text} (hb : Blanks b) (he : Blanks e) (name : Text) :
    fileOf? (b ++ name ++ e) = fileOf? name := by
  have ht : trim (b ++ name ++ e) = trim name := by
    rw [trim_append_blanks _ he,trim_blanks_append hb]
  have ha : allBlank (b ++ name ++ e) = allBlank name := by
    rw [Bool.eq_iff_iff,← trim_eq_nil_iff,ht,trim_eq_nil_iff]
  rw [fileOf?,fileOf?,ht,ha]

theorem load_congr {m n : Text} (h : fileOf? m = fileOf? n) : load m = load n := by
  rw [load,load,h]

def savingIn (w : World) (x : Text × Text) : Except Fault Text :=
  ((ExceptT.run (save x.1 x.2)).run w).1

theorem lastSaved_eq_some_iff {saves : Savings} {file c : Text} :
    lastSaved saves file = some c ↔ ∃ before x after, saves = before ++ x :: after ∧ x.2 = c ∧
      fileOf? x.1 = some file ∧ ∀ y ∈ after, fileOf? y.1 ≠ some file := by
  rw [lastSaved,Option.map_eq_some_iff]
  constructor
  · rintro ⟨x,hx,rfl⟩
    obtain ⟨hf,after,before,hr,ha⟩ := List.find?_eq_some_iff_append.1 hx
    refine ⟨before.reverse,x,after.reverse,?_,rfl,by simpa using hf,fun y hy => ?_⟩
    · simpa using congrArg List.reverse hr
    · simpa using ha y (List.mem_reverse.1 hy)
  · rintro ⟨before,x,after,rfl,rfl,hf,ha⟩
    refine ⟨x,List.find?_eq_some_iff_append.2 ⟨by simpa using hf,after.reverse,before.reverse,?_⟩,rfl⟩
    refine ⟨by simp,fun y hy => ?_⟩
    simpa using ha y (List.mem_reverse.1 hy)

section
variable (base : World) (s : MemoryStore) (saves : Savings)

theorem savingIn_savedTo (x : Text × Text) : savingIn (savedTo base s saves) x =
    match fileOf? x.1 with
    | some file => .ok file
    | none => .error .blankTemplateName := by
  obtain ⟨s',hw,-⟩ := savedTo_holds base s saves
  rw [hw]
  cases hf : fileOf? x.1 with
  | none => exact congrArg Prod.fst (comes_save_blank base s' 0 base.clock hf x.2).1
  | some file => exact congrArg Prod.fst (comes_save base s' 0 base.clock hf x.2).1

theorem loadedIn_savedTo (name : Text) :
    loadedIn (savedTo base s saves) name = .ok ((fileOf? name).bind (lastSaved saves)) := by
  obtain ⟨s',hw,hr⟩ := savedTo_holds base s saves
  rw [hw]
  refine (congrArg Prod.fst (comes_load base s' 0 base.clock name).1).trans ?_
  rw [loaded]
  cases fileOf? name with
  | none => rfl
  | some file =>
    simp only [hr,Option.bind_some]
    cases lastSaved saves file with
    | none => rfl
    | some c => simp only [Option.map_some,utf8Decode_utf8]

/-- Whatever has been saved, by any names: a saving succeeds with the file of its name, and fails only
for a blank one. Loading never fails; it gives what was last saved to the file of the name, and nothing
if there is no such saving or no such file. A template goes by its file and by its name between blanks
as it does by its name. -/
theorem load_lastSaved (name : Text) :
    (∀ x file, savingIn (savedTo base s saves) x = .ok file ↔ fileOf? x.1 = some file) ∧
    (∃ found, loadedIn (savedTo base s saves) name = .ok found ∧
      (∀ c, found = some c ↔ ∃ before x after file, saves = before ++ x :: after ∧ x.2 = c ∧
        savingIn (savedTo base s before) x = .ok file ∧ fileOf? name = some file ∧
        ∀ y ∈ after, fileOf? y.1 ≠ some file) ∧
      (found = none ↔ allBlank name = true ∨ ∀ x ∈ saves, fileOf? x.1 ≠ fileOf? name)) ∧
    (fileOf? name = none ↔ allBlank name = true) ∧
    (∀ file, fileOf? name = some file → fileOf? file = some file ∧ load file = load name) ∧
    ∀ b e, Blanks b → Blanks e → load (b ++ name ++ e) = load name := by
  have hsaving : ∀ saves x file,
      savingIn (savedTo base s saves) x = .ok file ↔ fileOf? x.1 = some file := by
    intro saves x file
    rw [savingIn_savedTo]
    cases fileOf? x.1 <;> simp
  refine ⟨hsaving saves,⟨_,loadedIn_savedTo base s saves name,fun c => ?_,?_⟩,
    fileOf?_eq_none_iff,fun file hf => ?_,fun b e hb he => load_congr (fileOf?_spaced hb he name)⟩
  · simp only [Option.bind_eq_some_iff,lastSaved_eq_some_iff,hsaving]
    constructor
    · rintro ⟨file,hn,before,x,after,hs,hc,hf,ha⟩
      exact ⟨before,x,after,file,hs,hc,hf,hn,ha⟩
    · rintro ⟨before,x,after,file,hs,hc,hf,hn,ha⟩
      exact ⟨file,hn,before,x,after,hs,hc,hf,ha⟩
  · rw [← fileOf?_eq_none_iff]
    cases hn : fileOf? name with
    | none => simp
    | some file => simp [lastSaved]
  · have hfile := fileOf?_file hf
    exact ⟨hfile,load_congr (hfile.trans hf.symm)⟩

end

example : loadedIn (savedTo .bare .empty [(" a b".toList,['x']),("c".toList,['y']),
    ("a_b.txt".toList,['z'])]) "a?b ".toList = .ok (some ['z']) := by
  rw [loadedIn_savedTo]
  exact congrArg Except.ok (by decide)

end Workbench.Prompt
