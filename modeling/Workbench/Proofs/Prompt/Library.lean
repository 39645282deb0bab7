import Mathlib.Data.List.Induction
import Workbench.Proofs.Dictionary
import Workbench.Proofs.Held
import Workbench.Proofs.Text.Blank
import Workbench.Proofs.Text.Literal
import Workbench.Proofs.Text.Utf8
import Workbench.Prompt
set_option autoImplicit false

/-!
The library of prompt templates: what is listed after any sequence of savings, and what is loaded
by a listed name. Names are made from files by leaving out the suffix, files from names by adding
it unless it is there, so a listed name that ends in the suffix stands for another file.
-/
namespace Workbench.Prompt
open Text

def loaded (s : MemoryStore) (name : Text) : Except Fault (Option Text) :=
  match fileOf? name with
  | none => .ok none
  | some file =>
    match s.read .prompts file with
    | none => .ok none
    | some bytes =>
      match utf8Decode bytes with
      | .ok t => .ok (some t)
      | .error f => .error (.corrupt .prompts file f.message)

section
variable (base : World) (s : MemoryStore) (n : Nat) (t : Calendar.Instant)

theorem comes_save {name file : Text} (h : fileOf? name = some file) (content : Text) :
    Comes base s n t (save name content) (.ok file) (s.write .prompts file (utf8 content)) n 0 := by
  simp only [save,h]
  exact ⟨rfl,rfl⟩

theorem comes_save_blank {name : Text} (h : fileOf? name = none) (content : Text) :
    Comes base s n t (save name content) (.error .blankTemplateName) s n 0 := by
  simp only [save,h]
  exact ⟨rfl,rfl⟩

theorem comes_list :
    Comes base s n t list (.ok ((s.list .prompts).filterMap (before? fileSuffix))) s n 0 :=
  ⟨rfl,rfl⟩

theorem comes_load (name : Text) : Comes base s n t (load name) (loaded s name) s n 0 := by
  rw [load,loaded]
  cases fileOf? name with
  | none => exact ⟨rfl,rfl⟩
  | some file =>
    simp only
    refine comes_read base s n t _ _ _ _ ?_
    cases s.read .prompts file with
    | none => exact ⟨rfl,rfl⟩
    | some bytes =>
      simp only
      cases utf8Decode bytes with
      | ok t => exact ⟨rfl,rfl⟩
      | error f => exact ⟨rfl,rfl⟩

end

theorem isSafe_bounds {c : Char} (h : isSafe c = true) : 45 ≤ c.toNat ∧ c.toNat ≤ 122 := by
  simp only [isSafe,Bool.or_eq_true,beq_iff_eq] at h
  rcases h with ((h | rfl) | rfl) | rfl
  · have hb := isAlphanum_bounds h
    omega
  · decide
  · decide
  · decide

theorem isBlank_of_isSafe {c : Char} (h : isSafe c = true) : isBlank c = false := by
  have hb := isSafe_bounds h
  simp [isBlank]; omega

theorem guarded_guarded (t : Text) : guarded (guarded t) = guarded t := by
  have h : ∀ u : Text, guarded ('_' :: u) = '_' :: u := by
    intro u
    simp [guarded,after?]
  by_cases ht : t.dropWhile (· == '.') = "txt".toList ∨ (after? ['.','.'] t).isSome
  · rw [show guarded t = '_' :: t from if_pos ht,h]
  · rw [show guarded t = t from if_neg ht,show guarded t = t from if_neg ht]

theorem mem_guarded {t : Text} {c : Char} (h : c ∈ guarded t) : c = '_' ∨ c ∈ t := by
  rw [guarded] at h
  split at h
  · exact List.mem_cons.1 h
  · exact .inr h

theorem mem_withSuffix {t : Text} {c : Char} (h : c ∈ withSuffix t) : c ∈ t ∨ c ∈ fileSuffix := by
  rw [withSuffix] at h
  split at h
  · exact .inl h
  · exact List.mem_append.1 h

theorem fileOf?_eq_some {name file : Text} (h : fileOf? name = some file) :
    allBlank name = false ∧ file = guarded (withSuffix ((trim name).map fun c =>
      if isSafe c then c else '_')) := by
  rw [fileOf?] at h
  cases hb : allBlank name with
  | true => simp [hb] at h
  | false =>
    simp only [hb,Bool.false_eq_true,if_false,Option.some.injEq] at h
    exact ⟨rfl,h.symm⟩

theorem isSafe_of_mem_file {name file : Text} (h : fileOf? name = some file) {c : Char}
    (hc : c ∈ file) : isSafe c = true := by
  have hs : ∀ c ∈ fileSuffix, isSafe c = true := List.all_eq_true.1 (by decide)
  rw [(fileOf?_eq_some h).2] at hc
  rcases mem_guarded hc with rfl | hc
  · decide
  rcases mem_withSuffix hc with hc | hc
  · obtain ⟨d,_,rfl⟩ := List.mem_map.1 hc
    by_cases hd : isSafe d = true
    · rw [if_pos hd]; exact hd
    · rw [if_neg hd]; decide
  · exact hs c hc

theorem fileOf?_of_safe {t : Text} (hn : t ≠ []) (hs : ∀ c ∈ t, isSafe c = true) :
    fileOf? t = some (guarded (withSuffix t)) := by
  have hb : allBlank t = false := by
    obtain ⟨c,u,rfl⟩ := List.exists_cons_of_ne_nil hn
    simp [allBlank,isBlank_of_isSafe (hs c List.mem_cons_self)]
  have ht : trim t = t := trim_of_not_blank fun c hc => isBlank_of_isSafe (hs c hc)
  have hm : t.map (fun c => if isSafe c then c else '_') = t :=
    (List.map_congr_left fun c hc => if_pos (hs c hc)).trans (List.map_id t)
  rw [fileOf?,hb,if_neg (by decide),ht,hm]

/-- The file that is looked for by a listed name: the one that is listed, unless the name ends in
the suffix once more. -/
theorem fileOf?_stem {name t : Text} (h : fileOf? name = some (t ++ fileSuffix)) :
    fileOf? t = some (if endsWith fileSuffix t then guarded t else t ++ fileSuffix) := by
  -- A stem is safe as it is, so only the suffix and what it starts with matter.
  have hs : ∀ c ∈ t, isSafe c = true := fun c hc =>
    isSafe_of_mem_file h (List.mem_append_left _ hc)
  have hg : guarded (t ++ fileSuffix) = t ++ fileSuffix := by
    rw [(fileOf?_eq_some h).2,guarded_guarded]
  have hne : t ≠ [] := by
    rintro rfl
    exact absurd hg (by decide)
  rw [fileOf?_of_safe hne hs,withSuffix]
  by_cases he : endsWith fileSuffix t = true
  · rw [if_pos he,if_pos he]
  · rw [if_neg he,if_neg he,hg]

abbrev Savings := List (Text × Text)

/-- The content that was last saved to a file. -/
def lastSaved (saves : Savings) (file : Text) : Option Text :=
  (saves.reverse.find? fun x => fileOf? x.1 = some file).map (·.2)

def savedTo (base : World) (s : MemoryStore) (saves : Savings) : World :=
  saves.foldl (fun w x => ((ExceptT.run (save x.1 x.2)).run w).2)
    (base.held {s with prompts := .empty} 0 base.clock)

def listedIn (w : World) : Except Fault (List Text) := ((ExceptT.run list).run w).1

def loadedIn (w : World) (name : Text) : Except Fault (Option Text) :=
  ((ExceptT.run (load name)).run w).1

theorem lastSaved_concat (saves : Savings) (x : Text × Text) (file : Text) :
    lastSaved (saves ++ [x]) file =
      if fileOf? x.1 = some file then some x.2 else lastSaved saves file := by
  by_cases h : fileOf? x.1 = some file <;> simp [lastSaved,h]

theorem saved_of_lastSaved {saves : Savings} {file content : Text}
    (h : lastSaved saves file = some content) : ∃ name, fileOf? name = some file := by
  obtain ⟨x,hx,-⟩ := Option.map_eq_some_iff.1 h
  exact ⟨x.1,by simpa using List.find?_some hx⟩

theorem savedTo_holds (base : World) (s : MemoryStore) (saves : Savings) :
    ∃ s', savedTo base s saves = base.held s' 0 base.clock ∧
      ∀ file, s'.read .prompts file = (lastSaved saves file).map utf8 := by
  induction saves using List.reverseRecOn with
  | nil => exact ⟨_,rfl,fun _ => rfl⟩
  | append_singleton saves x ih =>
    obtain ⟨s',hw,hr⟩ := ih
    simp only [savedTo,List.foldl_append,List.foldl_cons,List.foldl_nil] at hw ⊢
    rw [hw]
    cases hf : fileOf? x.1 with
    | none =>
      refine ⟨s',congrArg Prod.snd (comes_save_blank base s' 0 base.clock hf x.2).1,fun file => ?_⟩
      simp [hr,lastSaved_concat,hf]
    | some f =>
      refine ⟨_,congrArg Prod.snd (comes_save base s' 0 base.clock hf x.2).1,fun file => ?_⟩
      rw [lastSaved_concat,hf]
      by_cases he : f = file
      · subst f
        simp [MemoryStore.read_write_self]
      · have hne : ¬ some f = some file := fun e => he (Option.some.inj e)
        rw [if_neg hne,MemoryStore.read_write_other _ _ (.inr (Ne.symm he)),hr]

/-- Each listed name stands for a file that was saved to. Loading by the name gives what was last
saved to that file if and only if the name does not end in the suffix itself, or the file that it
then names, a shorter one, was last saved the same content. -/
theorem load_listed (base : World) (s : MemoryStore) (saves : Savings) :
    ∃ names, listedIn (savedTo base s saves) = .ok names ∧
      ∀ t ∈ names, ∃ c, lastSaved saves (t ++ fileSuffix) = some c ∧
        loadedIn (savedTo base s saves) t =
          .ok (if endsWith fileSuffix t then lastSaved saves (guarded t) else some c) ∧
        (loadedIn (savedTo base s saves) t = .ok (some c) ↔
          (endsWith fileSuffix t = true → lastSaved saves (guarded t) = some c)) := by
  obtain ⟨s',hw,hr⟩ := savedTo_holds base s saves
  rw [hw]
  refine ⟨_,congrArg Prod.fst (comes_list base s' 0 base.clock).1,fun t ht => ?_⟩
  obtain ⟨file,hf,hb⟩ := List.mem_filterMap.1 ht
  obtain rfl := before?_eq_some_iff.1 hb
  obtain ⟨bytes,hk⟩ := Dictionary.mem_keys_iff.1 hf
  have hk : s'.read .prompts (t ++ fileSuffix) = some bytes := hk
  obtain ⟨c,hc,-⟩ : ∃ c, lastSaved saves (t ++ fileSuffix) = some c ∧ utf8 c = bytes := by
    rw [hr] at hk
    exact Option.map_eq_some_iff.1 hk
  obtain ⟨name,hname⟩ := saved_of_lastSaved hc
  have hl : loadedIn (base.held s' 0 base.clock) t =
      .ok (if endsWith fileSuffix t then lastSaved saves (guarded t) else some c) := by
    refine (congrArg Prod.fst (comes_load base s' 0 base.clock t).1).trans ?_
    rw [loaded,fileOf?_stem hname]
    simp only [hr]
    by_cases he : endsWith fileSuffix t = true
    · rw [if_pos he,if_pos he]
      cases lastSaved saves (guarded t) with
      | none => rfl
      | some d => simp only [Option.map_some,utf8Decode_utf8]
    · rw [if_neg he,if_neg he,hc]
      simp only [Option.map_some,utf8Decode_utf8]
  refine ⟨c,hc,hl,?_⟩
  rw [hl]
  by_cases he : endsWith fileSuffix t = true
  · simp [he]
  · simp [he]

/-- One template is saved whose name ends in the suffix twice: its listed name finds nothing. -/
theorem load_listed_twice_suffixed : ¬ ∀ saves names,
    listedIn (savedTo World.bare .empty saves) = .ok names → ∀ t ∈ names,
      ∃ c, lastSaved saves (t ++ fileSuffix) = some c ∧
        loadedIn (savedTo World.bare .empty saves) t = .ok (some c) := by
  intro h
  obtain ⟨c,-,hc⟩ := h [("a.txt.txt".toList,['x'])] ["a.txt".toList] rfl "a.txt".toList (by simp)
  cases hc

end Workbench.Prompt
