import Workbench.Archive.Package
import Workbench.Proofs.File.Path
import Workbench.Proofs.Prompt.Library
import Workbench.Snippet
import Workbench.Store.OnDisk
set_option autoImplicit false

/-!
Keys: the names under which the three areas hold their entries. Ids, names of archives and files of
templates are made in different ways, and each of them comes to a key, which on a disk is the name of
a file right in the directory of its area.
-/
namespace Workbench
open Text

def Area.suffix : Area → Text
  | .sharedCode => ".json".toList
  | .generated => Archive.nameSuffix
  | .prompts => Prompt.fileSuffix

/-- A name that an area holds an entry under. -/
structure Key (a : Area) (name : Text) : Prop where
  filled : name ≠ []
  whole : '/' ∉ name
  noNul : '\x00' ∉ name
  notHere : name ≠ ['.']
  notUp : ¬ ['.','.'] <+: name
  suffixed : ∃ stem, stem ≠ [] ∧ name = stem ++ a.suffix

/-- ASCII letters and digits, and at least one of them. -/
def IsId (id : Text) : Prop := id ≠ [] ∧ ∀ c ∈ id, c.isAlphanum = true

theorem Snippet.isId_iff {id : Text} : isId id = true ↔ IsId id := by
  simp [isId,IsId]

theorem isSafe_of_isAlphanum {c : Char} (h : c.isAlphanum = true) : Prompt.isSafe c = true := by
  simp [Prompt.isSafe,h]

theorem Area.isSafe_suffix (a : Area) : ∀ c ∈ a.suffix, Prompt.isSafe c = true := by
  cases a <;> exact List.all_eq_true.1 (by decide)

namespace Key
variable {a : Area} {name stem : Text}

/-- A name of safe characters cannot lead anywhere, unless it starts with two dots. -/
theorem of_safe (hs : ∀ c ∈ stem, Prompt.isSafe c = true) (hn : stem ≠ [])
    (hu : ¬ ['.','.'] <+: stem ++ a.suffix) : Key a (stem ++ a.suffix) := by
  have safe : ∀ c ∈ stem ++ a.suffix, Prompt.isSafe c = true := by
    intro c hc
    rcases List.mem_append.1 hc with hc | hc
    · exact hs c hc
    · exact a.isSafe_suffix c hc
  refine ⟨by simp [hn],fun h => ?_,fun h => ?_,fun h => ?_,hu,stem,hn,rfl⟩
  · exact absurd (safe _ h) (by decide)
  · exact absurd (safe _ h) (by decide)
  · have hl := congrArg List.length h
    have hp := List.length_pos_iff.2 hn
    have ha : 4 ≤ a.suffix.length := by cases a <;> decide
    simp only [List.length_append,List.length_singleton] at hl
    omega

theorem plain (h : Key a name) : File.PlainName name :=
  ⟨h.filled,h.notHere,fun e => h.notUp (e ▸ List.prefix_rfl),h.whole⟩

theorem snippet {id : Text} (h : IsId id) : Key .sharedCode (Snippet.entryOf id) := by
  obtain ⟨c,t,rfl⟩ := List.exists_cons_of_ne_nil h.1
  refine of_safe (a := .sharedCode) (fun d hd => isSafe_of_isAlphanum (h.2 d hd)) h.1 fun hp => ?_
  obtain ⟨u,hu⟩ := hp
  have hc : '.' = c := (List.cons_eq_cons.1 hu).1
  exact absurd (h.2 c List.mem_cons_self) (by rw [← hc]; decide)

theorem archive {id : Text} (h : IsId id) : Key .generated (Archive.nameOf id) := by
  have hs : ∀ c ∈ Archive.namePrefix, Prompt.isSafe c = true := List.all_eq_true.1 (by decide)
  refine of_safe (a := .generated) (fun c hc => ?_) (fun hn => ?_) fun hp => ?_
  · rcases List.mem_append.1 hc with hc | hc
    · exact hs c hc
    · exact isSafe_of_isAlphanum (h.2 c hc)
  · exact absurd (List.append_eq_nil_iff.1 hn).1 (by decide)
  · have hh : (Archive.namePrefix ++ id ++ Area.generated.suffix).head? = some 'p' := rfl
    obtain ⟨u,hu⟩ := hp
    rw [← hu] at hh
    simp at hh

end Key

theorem Archive.isName_iff {name : Text} : isName name = true ↔ ∃ id, IsId id ∧ name = nameOf id := by
  rw [isName]
  constructor
  · intro h
    split at h
    · simp at h
    · rename_i id he
      obtain ⟨rest,hr,hi⟩ := Option.bind_eq_some_iff.1 he
      refine ⟨id,Snippet.isId_iff.1 h,?_⟩
      rw [after?_eq_some_iff.1 hr,before?_eq_some_iff.1 hi,nameOf,List.append_assoc]
  · intro h
    obtain ⟨id,hid,rfl⟩ := h
    have ha : after? namePrefix (nameOf id) = some (id ++ nameSuffix) :=
      after?_eq_some_iff.2 (by simp [nameOf])
    rw [ha,Option.bind_some,before?_eq_some_iff.2 rfl]
    exact Snippet.isId_iff.2 hid

theorem Prompt.guarded_eq (t : Text) : guarded t = '_' :: t ∨
    guarded t = t ∧ t.dropWhile (· == '.') ≠ "txt".toList ∧ ¬ ['.','.'] <+: t := by
  by_cases h : t.dropWhile (· == '.') = "txt".toList ∨ (after? ['.','.'] t).isSome
  · exact .inl (if_pos h)
  · obtain ⟨ht,hd⟩ := not_or.1 h
    refine .inr ⟨if_neg h,ht,fun hp => hd ?_⟩
    obtain ⟨u,rfl⟩ := hp
    rw [after?_eq_some_iff.2 rfl]
    rfl

theorem Prompt.exists_withSuffix (t : Text) : ∃ u, withSuffix t = u ++ fileSuffix := by
  rw [withSuffix]
  split
  · rename_i h
    exact endsWith_iff.1 h
  · exact ⟨t,rfl⟩

theorem Key.template {name file : Text} (h : Prompt.fileOf? name = some file) : Key .prompts file := by
  obtain ⟨u,hu⟩ := Prompt.exists_withSuffix ((trim name).map fun c =>
    if Prompt.isSafe c then c else '_')
  have hf := (Prompt.fileOf?_eq_some h).2
  rw [hu] at hf
  have hs : ∀ c ∈ file, Prompt.isSafe c = true := fun c hc => Prompt.isSafe_of_mem_file h hc
  rcases Prompt.guarded_eq (u ++ Prompt.fileSuffix) with hg | ⟨hg,ht,hd⟩
  · -- With a low line in front the stem is not empty and the dots are not the first characters.
    rw [hf,hg] at hs ⊢
    refine @of_safe .prompts ('_' :: u) (fun c hc => hs c ?_) (List.cons_ne_nil _ _)
      fun hp => ?_
    · exact List.mem_append_left Prompt.fileSuffix hc
    · obtain ⟨v,hv⟩ := hp
      exact absurd (List.cons_eq_cons.1 hv).1 (by decide)
  · rw [hf,hg] at hs ⊢
    refine of_safe (a := .prompts) (fun c hc => hs c (List.mem_append_left _ hc)) (fun hn => ?_) hd
    rw [hn] at ht
    exact ht (by decide)

namespace StoreOnDisk
open File

theorem plainName_area (a : Area) : PlainName a.name := by
  cases a <;> exact ⟨by decide,by decide,by decide,by decide⟩

theorem components_directoryOf (root : Text) (a : Area) :
    components (directoryOf root a) = components root ++ [.name a.name] :=
  components_join root (plainName_area a)

theorem components_pathOf (root : Text) (a : Area) {name : Text} (h : PlainName name) :
    components (pathOf root a name) = components (directoryOf root a) ++ [.name name] :=
  components_join _ h

end StoreOnDisk
end Workbench
