import Mathlib.Data.List.Basic
import Mathlib.Data.List.Induction
import Workbench.File.MemoryTree
import Workbench.Proofs.File.Path
import Workbench.Proofs.Text.Order
set_option autoImplicit false

/-!
Trees in memory by what was added to them. A directory is what was added as one and what is above
anything added, so all that is stored in a tree can be reached from above.
-/
namespace Workbench.File
open Text

inductive Addition where
  | file (path content : Text)
  | dir (path : Text)

def Addition.key : Addition → List Component
  | .file path _ => components path
  | .dir path => components path

def HasFile (as : List Addition) (key : List Component) : Prop :=
  ∃ path content, Addition.file path content ∈ as ∧ components path = key

/-- The empty path is above everything, but is a directory only if it was added as one. -/
def HasDirectory (as : List Addition) (key : List Component) : Prop :=
  (∃ path, Addition.dir path ∈ as ∧ components path = key) ∨
    key ≠ [] ∧ ∃ a ∈ as, ∃ rest, rest ≠ [] ∧ a.key = key ++ rest

def Stored (as : List Addition) (key : List Component) : Prop :=
  HasDirectory as key ∨ HasFile as key

/-- What was last added as the file. -/
def HasContent (as : List Addition) (key : List Component) (content : Text) : Prop :=
  ∃ before path after, as = before ++ .file path content :: after ∧ components path = key ∧
    ¬ HasFile after key

theorem mem_ancestors {a k : List Component} :
    a ∈ ancestors k ↔ a ≠ [] ∧ ∃ rest, rest ≠ [] ∧ k = a ++ rest := by
  induction k using ancestors.induct generalizing a with
  | case1 => simp [ancestors]
  | case2 c =>
    simp only [ancestors,List.not_mem_nil,false_iff]
    rintro ⟨ha,r,hr,e⟩
    obtain ⟨x,a,rfl⟩ := List.exists_cons_of_ne_nil ha
    obtain ⟨y,r,rfl⟩ := List.exists_cons_of_ne_nil hr
    simp at e
  | case3 c d ks ih =>
    rw [ancestors,List.mem_cons,List.mem_map]
    constructor
    · rintro (rfl | ⟨b,hb,rfl⟩)
      · exact ⟨List.cons_ne_nil _ _,d :: ks,List.cons_ne_nil _ _,rfl⟩
      · obtain ⟨-,r,hr,e⟩ := ih.1 hb
        exact ⟨List.cons_ne_nil _ _,r,hr,by rw [e]; rfl⟩
    · rintro ⟨ha,r,hr,e⟩
      obtain ⟨x,b,rfl⟩ := List.exists_cons_of_ne_nil ha
      obtain ⟨rfl,he⟩ := List.cons_eq_cons.1 e
      by_cases hb : b = []
      · exact .inl (by rw [hb])
      · exact .inr ⟨b,ih.2 ⟨hb,r,hr,he⟩,rfl⟩

theorem hasDirectory_concat {as : List Addition} {a : Addition} {key : List Component} :
    HasDirectory (as ++ [a]) key ↔ HasDirectory as key ∨
      (∃ path, a = .dir path ∧ components path = key) ∨ key ∈ ancestors a.key := by
  rw [mem_ancestors]
  simp only [HasDirectory,List.mem_append,List.mem_singleton]
  constructor
  · rintro (⟨path,hm | rfl,e⟩ | ⟨hk,b,hm | rfl,h⟩)
    · exact .inl (.inl ⟨path,hm,e⟩)
    · exact .inr (.inl ⟨path,rfl,e⟩)
    · exact .inl (.inr ⟨hk,b,hm,h⟩)
    · exact .inr (.inr ⟨hk,h⟩)
  · rintro ((⟨path,hm,e⟩ | ⟨hk,b,hm,h⟩) | ⟨path,rfl,e⟩ | ⟨hk,h⟩)
    · exact .inl ⟨path,.inl hm,e⟩
    · exact .inr ⟨hk,b,.inl hm,h⟩
    · exact .inl ⟨path,.inr rfl,e⟩
    · exact .inr ⟨hk,a,.inr rfl,h⟩

theorem hasFile_append {as bs : List Addition} {key : List Component} :
    HasFile (as ++ bs) key ↔ HasFile as key ∨ HasFile bs key := by
  simp only [HasFile,List.mem_append,or_and_right,exists_or]

theorem hasFile_file {path content : Text} {key : List Component} :
    HasFile [.file path content] key ↔ components path = key := by
  constructor
  · rintro ⟨p,c,hm,e⟩
    rwa [← (Addition.file.inj (List.mem_singleton.1 hm)).1]
  · exact fun e => ⟨path,content,List.mem_singleton_self _,e⟩

theorem not_hasFile_dir {path : Text} {key : List Component} : ¬ HasFile [.dir path] key := by
  rintro ⟨p,c,hm,-⟩
  cases List.mem_singleton.1 hm

theorem hasContent_concat {as : List Addition} {a : Addition} {key : List Component} {content : Text} :
    HasContent (as ++ [a]) key content ↔
      (∃ path, a = .file path content ∧ components path = key) ∨
        ¬ HasFile [a] key ∧ HasContent as key content := by
  constructor
  · rintro ⟨before,path,after,he,hp,hn⟩
    rcases List.eq_nil_or_concat after with rfl | ⟨after,b,rfl⟩
    · exact .inl ⟨path,(List.append_singleton_inj.1 he).2,hp⟩
    · rw [List.concat_eq_append,← List.cons_append,← List.append_assoc,List.append_singleton_inj] at he
      rw [List.concat_eq_append,hasFile_append,not_or] at hn
      exact .inr ⟨he.2 ▸ hn.2,before,path,after,he.1,hp,hn.1⟩
  · rintro (⟨path,rfl,hp⟩ | ⟨ha,before,path,after,rfl,hp,hn⟩)
    · exact ⟨as,path,[],rfl,hp,fun ⟨_,_,hm,_⟩ => List.not_mem_nil hm⟩
    · refine ⟨before,path,after ++ [a],by simp,hp,?_⟩
      rw [hasFile_append,not_or]
      exact ⟨hn,ha⟩

theorem hasFile_iff {as : List Addition} {key : List Component} :
    HasFile as key ↔ ∃ content, HasContent as key content := by
  constructor
  · intro h
    induction as using List.reverseRecOn with
    | nil =>
      obtain ⟨_,_,hm,-⟩ := h
      exact absurd hm List.not_mem_nil
    | append_singleton as a ih =>
      by_cases ha : HasFile [a] key
      · obtain ⟨path,content,hm,e⟩ := ha
        exact ⟨content,hasContent_concat.2 (.inl ⟨path,(List.mem_singleton.1 hm).symm,e⟩)⟩
      · obtain ⟨content,hc⟩ := ih ((hasFile_append.1 h).resolve_right ha)
        exact ⟨content,hasContent_concat.2 (.inr ⟨ha,hc⟩)⟩
  · rintro ⟨content,before,path,after,rfl,e,-⟩
    exact ⟨path,content,by simp,e⟩

theorem hasDirectory_of_stored {as : List Addition} {key rest : List Component} (hk : key ≠ [])
    (hr : rest ≠ []) (h : Stored as (key ++ rest)) : HasDirectory as key := by
  right
  refine ⟨hk,?_⟩
  rcases h with (⟨path,hm,e⟩ | ⟨-,a,hm,r,hn,e⟩) | ⟨path,content,hm,e⟩
  · exact ⟨.dir path,hm,rest,hr,e⟩
  · exact ⟨a,hm,rest ++ r,by simp [hr],by rw [e,List.append_assoc]⟩
  · exact ⟨.file path content,hm,rest,hr,e⟩

theorem plainName_of_stored {as : List Addition} {key : List Component} (h : Stored as key)
    {n : Text} (hn : .name n ∈ key) : PlainName n := by
  have ha : ∀ a : Addition, .name n ∈ a.key → PlainName n := fun a ha => by
    cases a <;> exact plainName_of_mem ha
  rcases h with (⟨path,-,rfl⟩ | ⟨-,a,-,r,-,e⟩) | ⟨path,content,-,rfl⟩
  · exact plainName_of_mem hn
  · exact ha a (by rw [e]; exact List.mem_append_left _ hn)
  · exact plainName_of_mem hn

namespace MemoryTree

def add (t : MemoryTree) : Addition → MemoryTree
  | .file path content => t.addFile path content
  | .dir path => t.addDir path

def ofAdditions (as : List Addition) : MemoryTree := as.foldl add empty

def keys (t : MemoryTree) : List (List Component) := t.files.map (·.1) ++ t.dirs

theorem mem_dirs {as : List Addition} {k : List Component} :
    k ∈ (ofAdditions as).dirs ↔ HasDirectory as k := by
  induction as using List.reverseRecOn with
  | nil => simp [ofAdditions,empty,HasDirectory]
  | append_singleton as a ih =>
    rw [ofAdditions,List.foldl_append,← ofAdditions,hasDirectory_concat,← ih]
    cases a with
    | file path content => simp [add,addFile,Addition.key,or_comm]
    | dir path =>
      simp only [List.foldl_cons,List.foldl_nil,add,addDir,Addition.key,List.cons_append,
        List.mem_cons,List.mem_append,Addition.dir.injEq,exists_eq_left']
      rw [or_comm (a := k ∈ _),or_left_comm,eq_comm]

theorem isDir_iff {as : List Addition} {path : Text} :
    (ofAdditions as).isDir path = true ↔ HasDirectory as (components path) := by
  rw [← mem_dirs]
  exact List.contains_iff_mem

theorem mem_files {as : List Addition} {k : List Component} :
    k ∈ (ofAdditions as).files.map (·.1) ↔ HasFile as k := by
  induction as using List.reverseRecOn with
  | nil => simp [ofAdditions,empty,HasFile]
  | append_singleton as a ih =>
    rw [ofAdditions,List.foldl_append,← ofAdditions,hasFile_append,← ih]
    cases a with
    | file path content =>
      rw [hasFile_file]
      by_cases hp : components path = k
      · simp [add,addFile,hp]
      · have hq : k ≠ components path := fun e => hp e.symm
        simp [add,addFile,hp,hq]
    | dir path => simp [add,addDir,not_hasFile_dir]

theorem find_files {as : List Addition} {key : List Component} {content : Text} :
    ((ofAdditions as).files.find? fun f => f.1 = key).map (·.2) = some content ↔
      HasContent as key content := by
  induction as using List.reverseRecOn with
  | nil => simp [ofAdditions,empty,HasContent]
  | append_singleton as a ih =>
    rw [ofAdditions,List.foldl_append,← ofAdditions,hasContent_concat,← ih]
    cases a with
    | file path c =>
      rw [hasFile_file]
      by_cases hp : components path = key
      · simp [add,addFile,hp]
      · have hf : ((ofAdditions as).files.filter (·.1 ≠ components path)).find? (fun f => f.1 = key) =
            (ofAdditions as).files.find? fun f => f.1 = key := by
          rw [List.find?_filter]
          congr 1
          funext f
          by_cases hk : f.1 = key
          · simp [hk,Ne.symm hp]
          · simp [hk]
        simp only [List.foldl_cons,List.foldl_nil,add,addFile,List.find?_cons,hp,decide_false,hf]
        simp [hp]
    | dir path => simp [add,addDir,not_hasFile_dir]

theorem hasContent_unique {as : List Addition} {key : List Component} {a b : Text}
    (ha : HasContent as key a) (hb : HasContent as key b) : a = b :=
  Option.some.inj ((find_files.2 ha).symm.trans (find_files.2 hb))

/-- A file is read as it was last added. -/
theorem read_eq_ok_iff {as : List Addition} {path content : Text} :
    (ofAdditions as).read path = .ok content ↔ HasContent as (components path) content := by
  rw [← find_files,read]
  cases (ofAdditions as).files.find? fun f => f.1 = components path <;> simp

theorem read_eq_error {as : List Addition} {path : Text} (h : ¬ HasFile as (components path)) :
    (ofAdditions as).read path = .error ("no such file: ".toList ++ path) := by
  rw [read,List.find?_eq_none.2]
  intro f hf he
  exact h (mem_files.1 (List.mem_map.2 ⟨f,hf,of_decide_eq_true he⟩))

theorem present_iff {as : List Addition} {path : Text} :
    (ofAdditions as).present path = true ↔ Stored as (components path) := by
  rw [present,Bool.or_eq_true,isDir_iff,Stored,← mem_files]
  simp

theorem mem_keys {as : List Addition} {k : List Component} :
    k ∈ (ofAdditions as).keys ↔ Stored as k := by
  rw [keys,List.mem_append,mem_dirs,mem_files,or_comm]
  exact Iff.rfl

theorem nameIn?_eq_some_iff {dir child : List Component} {n : Text} :
    nameIn? dir child = some n ↔ child = dir ++ [.name n] := by
  rw [nameIn?]
  constructor
  · intro h
    split at h
    · rename_i hd
      split at h
      · rename_i m hm
        rw [← hd,← Option.some.inj h]
        exact (List.dropLast_append_getLast? _ hm).symm
      · simp at h
    · simp at h
  · rintro rfl
    simp

theorem list_of_isDir {t : MemoryTree} {path : Text} (h : t.isDir path = true) :
    t.list path = .ok (sortDistinct (t.keys.filterMap (nameIn? (components path)))) := if_pos h

theorem list_eq_error {t : MemoryTree} {path : Text} (h : t.isDir path = false) :
    t.list path = .error ("not a directory: ".toList ++ path) := if_neg (by simp [h])

theorem list_eq_ok_iff {t : MemoryTree} {path : Text} {names : List Text} :
    t.list path = .ok names ↔ t.isDir path = true ∧ names.Pairwise (· < ·) ∧
      ∀ n, n ∈ names ↔ components path ++ [.name n] ∈ t.keys := by
  cases hd : t.isDir path with
  | false => simp [list_eq_error hd]
  | true =>
    have hm : ∀ n, n ∈ sortDistinct (t.keys.filterMap (nameIn? (components path))) ↔
        components path ++ [.name n] ∈ t.keys := fun n => by
      simp [mem_sortDistinct,nameIn?_eq_some_iff]
    rw [list_of_isDir hd]
    constructor
    · intro h
      rw [← Except.ok.inj h]
      exact ⟨rfl,sortDistinct_ascending _,hm⟩
    · rintro ⟨-,hn,h⟩
      exact congrArg Except.ok
        (eq_of_ascending id (sortDistinct_ascending _) hn fun n => (hm n).trans (h n).symm)

theorem length_le_height {t : MemoryTree} {k : List Component} (h : k ∈ t.keys) :
    k.length ≤ t.height := by
  have hmax : ∀ (ns : List Nat) (b : Nat), b ≤ ns.foldl max b ∧ ∀ n ∈ ns, n ≤ ns.foldl max b := by
    intro ns
    induction ns with
    | nil => simp
    | cons m ns ih =>
      intro b
      obtain ⟨h₁,h₂⟩ := ih (max b m)
      refine ⟨Nat.le_trans (Nat.le_max_left _ _) h₁,fun n hn => ?_⟩
      rcases List.mem_cons.1 hn with rfl | hn
      · exact Nat.le_trans (Nat.le_max_right _ _) h₁
      · exact h₂ n hn
  exact (hmax _ 0).2 _ (List.mem_map.2 ⟨k,h,rfl⟩)

end MemoryTree
end Workbench.File
