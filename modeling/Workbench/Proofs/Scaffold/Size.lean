import Workbench.Proofs.Archive.RoundTrip
import Workbench.Scaffold.Template
set_option autoImplicit false

/-!
The templates are small enough to be packed. Their files are counted line by line, without taking
the lines apart.
-/
namespace Workbench
open Text

theorem Scaffold.utf8Length_file (ls : List String) :
    utf8Length (file ls) ≤ (ls.map fun l => l.utf8ByteSize + 1).sum := by
  rw [file]
  induction ls with
  | nil => exact Nat.zero_le _
  | cons l ls ih =>
    have hl : utf8Length l.toList = l.utf8ByteSize := by
      rw [utf8Length_eq,String.ofList_toList]
    cases ls with
    | nil => simp [joinWith,hl]
    | cons m ls =>
      simp only [List.map_cons,joinWith,utf8Length_append,List.sum_cons,hl] at ih ⊢
      have hn : utf8Length ['\n'] = 1 := rfl
      omega

namespace Archive

def membersLength (fs : List (Text × Text)) : Nat := (fs.map fun f => memberLength f.1 f.2).sum

theorem membersLength_insertEntry (path content : Text) (fs : List (Text × Text)) :
    membersLength (insertEntry path content fs) ≤ memberLength path content + membersLength fs := by
  induction fs with
  | nil => simp [insertEntry,membersLength]
  | cons f fs ih =>
    simp only [insertEntry]
    split
    · simp [membersLength]
    · split
      · simp [membersLength]
      · simp only [membersLength,List.map_cons,List.sum_cons] at ih ⊢; omega

theorem membersLength_foldl (fs : List (Text × Text)) (d : FileSet) :
    membersLength (fs.foldl (fun d e => d.insert e.1 e.2) d).entries ≤
      membersLength fs + membersLength d.entries := by
  induction fs generalizing d with
  | nil => simp [membersLength]
  | cons f fs ih =>
    have hd := ih (d.insert f.1 f.2)
    have hi := membersLength_insertEntry f.1 f.2 d.entries
    simp only [List.foldl_cons,Dictionary.insert] at hd ⊢
    simp only [membersLength,List.map_cons,List.sum_cons] at hd hi ⊢
    omega

theorem streamLength_ofList (fs : List (Text × Text)) :
    streamLength (.ofList fs) ≤ membersLength fs + 2*Tar.blockSize :=
  Nat.add_le_add_right (membersLength_foldl fs .empty) _

theorem memberLength_le (path content : Text) :
    memberLength path content ≤ utf8Length path + utf8Length content + 5*Tar.blockSize := by
  have hp : ∀ n, Tar.padded n ≤ n + Tar.blockSize := by
    intro n
    simp only [Tar.padded,Tar.blockSize]; omega
  have h₁ := hp (utf8Length path + 1)
  have h₂ := hp (utf8Length content)
  rw [memberLength]
  split <;> simp only [Tar.blockSize] at * <;> omega

def written (fs : List (String × List String)) : List (Text × Text) :=
  fs.map fun f => (f.1.toList,Scaffold.file f.2)

def writtenLength (fs : List (String × List String)) : Nat :=
  (fs.map fun f => f.1.utf8ByteSize + (f.2.map fun l => l.utf8ByteSize + 1).sum +
    5*Tar.blockSize).sum

theorem membersLength_written (fs : List (String × List String)) :
    membersLength (written fs) ≤ writtenLength fs := by
  induction fs with
  | nil => exact Nat.le_refl _
  | cons f fs ih =>
    have hm := memberLength_le f.1.toList (Scaffold.file f.2)
    have hf := Scaffold.utf8Length_file f.2
    rw [utf8Length_eq f.1.toList,String.ofList_toList] at hm
    simp only [membersLength,written,writtenLength,List.map_cons,List.sum_cons] at ih ⊢
    omega

theorem streamLength_written {fs : List (String × List String)} (h : writtenLength fs < 1000000) :
    streamLength (.ofList (written fs)) < Tar.sizeLimit := by
  have hs := membersLength_written fs
  have hl : 1000000 + 2*Tar.blockSize ≤ Tar.sizeLimit := by decide
  have ho := streamLength_ofList (written fs)
  omega

theorem template_fits (t : Template) : streamLength t.files < Tar.sizeLimit := by
  cases t with
  | webApi =>
    exact @streamLength_written [("app.py",_),("requirements.txt",_),("README.md",_)]
      (by decide +kernel)
  | frontEnd =>
    exact @streamLength_written [("index.html",_),("app.js",_),("README.md",_)]
      (by decide +kernel)
  | staticSite =>
    exact @streamLength_written
      [("index.html",_),("styles.css",_),("script.js",_),("README.md",_)] (by decide +kernel)

end Archive
end Workbench
