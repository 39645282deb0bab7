import Workbench.Proofs.File.MemoryTree
set_option autoImplicit false

/-!
The answers of a tree in memory. They agree with each other and with what was added, and two
additions that follow one another can change places, unless they give one file different contents.
-/
namespace Workbench.File
open Text

/-- Two additions that give one file different contents. -/
inductive Clash : Addition → Addition → Prop where
  | file {p q c d : Text} : components p = components q → c ≠ d → Clash (.file p c) (.file q d)

theorem Clash.symm {a b : Addition} (h : Clash a b) : Clash b a := by
  cases h with
  | file hp hc => exact .file hp.symm hc.symm

variable {as bs before after : List Addition} {a b : Addition} {key : List Component} {content : Text}

theorem hasDirectory_congr (h : ∀ a, a ∈ as ↔ a ∈ bs) : HasDirectory as key ↔ HasDirectory bs key := by
  simp only [HasDirectory,h]

theorem HasContent.swap_last (hab : ¬ Clash a b) (h : HasContent (as ++ [a] ++ [b]) key content) :
    HasContent (as ++ [b] ++ [a]) key content := by
  rw [hasContent_concat] at h ⊢
  rcases h with ⟨p,rfl,hp⟩ | ⟨hb,h⟩
  · by_cases ha : HasFile [a] key
    · obtain ⟨q,d,hm,hq⟩ := ha
      obtain rfl := List.mem_singleton.1 hm
      obtain rfl : d = content := by
        by_contra hne
        exact hab (.file (hq.trans hp.symm) hne)
      exact .inl ⟨q,rfl,hq⟩
    · exact .inr ⟨ha,hasContent_concat.2 (.inl ⟨p,rfl,hp⟩)⟩
  · rcases hasContent_concat.1 h with ha | ⟨ha,h⟩
    · exact .inl ha
    · exact .inr ⟨ha,hasContent_concat.2 (.inr ⟨hb,h⟩)⟩

theorem hasContent_swap (hab : ¬ Clash a b) : HasContent (before ++ a :: b :: after) key content ↔
    HasContent (before ++ b :: a :: after) key content := by
  -- On what is added behind the two, which reaches both trees alike.
  induction after using List.reverseRecOn with
  | nil =>
    have h : ∀ c d : Addition, before ++ [c,d] = before ++ [c] ++ [d] := by simp
    rw [h,h]
    exact ⟨.swap_last hab,.swap_last fun k => hab k.symm⟩
  | append_singleton after d ih =>
    have h : ∀ c d' : Addition, before ++ c :: d' :: (after ++ [d]) =
      before ++ c :: d' :: after ++ [d] := by simp
    rw [h,h,hasContent_concat,hasContent_concat,ih]

namespace MemoryTree

/-- The answers of a tree that fit what was added. -/
structure Answers (as : List Addition) (t : MemoryTree) : Prop where
  isDir : ∀ path, t.isDir path = true ↔ HasDirectory as (components path)
  present : ∀ path, t.present path = true ↔
    HasDirectory as (components path) ∨ HasFile as (components path)
  read : ∀ path content, t.read path = .ok content ↔ HasContent as (components path) content
  unread : ∀ path, ¬ HasFile as (components path) →
    t.read path = .error ("no such file: ".toList ++ path)

structure Coherent (t : MemoryTree) : Prop where
  above : ∀ path directory rest, t.present path = true →
    components path = components directory ++ rest → components directory ≠ [] → rest ≠ [] →
      t.isDir directory = true
  list : ∀ directory, t.isDir directory = true → ∃ names, t.list directory = .ok names ∧
    names.Pairwise (· < ·) ∧ ∀ n, n ∈ names ↔ PlainName n ∧ t.present (join directory n) = true
  unlisted : ∀ path, t.isDir path = false →
    t.list path = .error ("not a directory: ".toList ++ path)

/-- No question tells the trees apart. -/
structure Alike (t u : MemoryTree) : Prop where
  isDir : ∀ path, t.isDir path = u.isDir path
  present : ∀ path, t.present path = u.present path
  list : ∀ path, t.list path = u.list path
  read : ∀ path, t.read path = u.read path

theorem answers_ofAdditions (as : List Addition) : Answers as (ofAdditions as) where
  isDir _ := isDir_iff
  present _ := present_iff
  read _ _ := read_eq_ok_iff
  unread _ := read_eq_error

theorem mem_keys_join {directory n : Text} :
    components directory ++ [.name n] ∈ (ofAdditions as).keys ↔
      PlainName n ∧ (ofAdditions as).present (join directory n) = true := by
  rw [mem_keys,present_iff]
  constructor
  · intro h
    have hn := plainName_of_stored h (n := n) (by simp)
    exact ⟨hn,by rwa [components_join directory hn]⟩
  · rintro ⟨hn,h⟩
    rwa [components_join directory hn] at h

theorem coherent_ofAdditions (as : List Addition) : Coherent (ofAdditions as) where
  above path directory rest hp he hd hr := by
    rw [present_iff,he] at hp
    exact isDir_iff.2 (hasDirectory_of_stored hd hr hp)
  list directory hd := by
    have hl := list_of_isDir hd
    obtain ⟨-,hn,hm⟩ := list_eq_ok_iff.1 hl
    exact ⟨_,hl,hn,fun n => (hm n).trans mem_keys_join⟩
  unlisted _ := list_eq_error

theorem alike_of (hd : ∀ key, HasDirectory as key ↔ HasDirectory bs key)
    (hc : ∀ key content, HasContent as key content ↔ HasContent bs key content) :
    Alike (ofAdditions as) (ofAdditions bs) := by
  have hf : ∀ key, HasFile as key ↔ HasFile bs key := fun key => by
    rw [hasFile_iff,hasFile_iff]
    exact exists_congr (hc key)
  have hs : ∀ key, Stored as key ↔ Stored bs key := fun key => or_congr (hd key) (hf key)
  have hdir : ∀ path, (ofAdditions as).isDir path = (ofAdditions bs).isDir path := fun path => by
    rw [Bool.eq_iff_iff,isDir_iff,isDir_iff,hd]
  refine ⟨hdir,fun path => ?_,fun path => ?_,fun path => ?_⟩
  · rw [Bool.eq_iff_iff,present_iff,present_iff,hs]
  · cases h : (ofAdditions as).isDir path with
    | false => rw [list_eq_error h,list_eq_error ((hdir path).symm.trans h)]
    | true =>
      have hl := list_of_isDir h
      obtain ⟨-,hn,hm⟩ := list_eq_ok_iff.1 hl
      refine hl.trans (list_eq_ok_iff.2 ⟨(hdir path).symm.trans h,hn,fun n => ?_⟩).symm
      rw [hm,mem_keys,mem_keys,hs]
  · by_cases h : HasFile as (components path)
    · obtain ⟨content,h⟩ := hasFile_iff.1 h
      rw [read_eq_ok_iff.2 h,read_eq_ok_iff.2 ((hc _ _).1 h)]
    · rw [read_eq_error h,read_eq_error fun k => h ((hf _).2 k)]

theorem alike_swap (hab : ¬ Clash a b) : Alike (ofAdditions (before ++ a :: b :: after))
    (ofAdditions (before ++ b :: a :: after)) :=
  alike_of (fun _ => hasDirectory_congr fun c => by simp [or_left_comm])
    fun _ _ => hasContent_swap hab

/-- Whatever was added in whatever order, what is above something in the tree is a directory, a
directory lists what can be found in it, and a file reads as it was last added. Neighbouring additions
commute unless they clash. -/
theorem ofAdditions_coherent (as : List Addition) :
    Answers as (ofAdditions as) ∧ Coherent (ofAdditions as) ∧
    ∀ before a b after, as = before ++ a :: b :: after → ¬ Clash a b →
      Alike (ofAdditions as) (ofAdditions (before ++ b :: a :: after)) := by
  refine ⟨answers_ofAdditions as,coherent_ofAdditions as,?_⟩
  rintro before a b after rfl hab
  exact alike_swap hab

def sampleAdditions : List Addition :=
  [.file "p/a".toList "x".toList,.dir "p/a/".toList,.file "q".toList "1".toList,
    .file "p//a".toList "y".toList]

theorem ofAdditions_coherent_sample :
    (ofAdditions sampleAdditions).present "p/a".toList = true ∧
    (ofAdditions sampleAdditions).isDir "p".toList = true ∧
    (∃ names, (ofAdditions sampleAdditions).list "p".toList = .ok names ∧ names.Pairwise (· < ·) ∧
      ∀ n, n ∈ names ↔ PlainName n ∧
        (ofAdditions sampleAdditions).present (join "p".toList n) = true) ∧
    HasContent sampleAdditions (components "p/./a".toList) "y".toList ∧
    (ofAdditions sampleAdditions).read "p/./a".toList = .ok "y".toList ∧
    ¬ HasFile sampleAdditions (components "p".toList) ∧
    (ofAdditions sampleAdditions).read "p".toList = .error "no such file: p".toList ∧
    (ofAdditions sampleAdditions).isDir "q".toList = false ∧
    (ofAdditions sampleAdditions).list "q".toList = .error "not a directory: q".toList ∧
    ¬ Clash (.dir "p/a/".toList) (.file "q".toList "1".toList) ∧
    Alike (ofAdditions sampleAdditions) (ofAdditions [.file "p/a".toList "x".toList,
      .file "q".toList "1".toList,.dir "p/a/".toList,.file "p//a".toList "y".toList]) := by
  obtain ⟨ha,hc,hs⟩ := ofAdditions_coherent sampleAdditions
  have hp : (ofAdditions sampleAdditions).present "p/a".toList = true := by decide +kernel
  have hd := hc.above "p/a".toList "p".toList [.name "a".toList] hp (by decide +kernel)
    (by decide +kernel) (by simp)
  have hy : HasContent sampleAdditions (components "p/./a".toList) "y".toList :=
    ⟨sampleAdditions.take 3,"p//a".toList,[],rfl,by decide +kernel,
      fun ⟨_,_,hm,_⟩ => List.not_mem_nil hm⟩
  have hf : ¬ HasFile sampleAdditions (components "p".toList) := fun h =>
    absurd (mem_files.2 h) (by decide +kernel)
  have hq : (ofAdditions sampleAdditions).isDir "q".toList = false := by decide +kernel
  have hn : ¬ Clash (.dir "p/a/".toList) (.file "q".toList "1".toList) := by rintro ⟨⟩
  exact ⟨hp,hd,hc.list _ hd,hy,(ha.read _ _).2 hy,hf,ha.unread _ hf,hq,hc.unlisted _ hq,hn,
    hs [_] _ _ [_] rfl hn⟩

end MemoryTree
end Workbench.File
