import Mathlib.Data.List.Basic
import Workbench.Proofs.File.Directory
set_option autoImplicit false

/-!
What a change of a disk leaves as it was. Making directories loses nothing and touches no file and no
link; taking a file away leaves every directory where it was; a move is a file at another place.
-/
namespace Workbench.File.Disk
variable {d d' : Disk} {p q here : Place} {e : Entry}

theorem erase_of_free (h : d.entry? p = none) : d.erase p = d := by
  have hf : d.entries.filter (fun x => x.1 ≠ p) = d.entries := by
    refine List.filter_eq_self.2 fun x hx => ?_
    have hne : x.1 ≠ p := fun he => by
      obtain ⟨f,hf⟩ := entry?_of_mem hx
      rw [he,h] at hf
      cases hf
    simpa using hne
  rw [erase,hf]

theorem erase_put_self (d : Disk) (p : Place) (e : Entry) : (d.put p e).erase p = d.erase p := by
  simp [put,erase]

theorem erase_put (h : d.entry? p = none) (e : Entry) : (d.put p e).erase p = d := by
  rw [erase_put_self,erase_of_free h]

/-- All that is not a directory. -/
def files (d : Disk) : List (Place × Entry) := d.entries.filter fun x => x.2 ≠ .directory

theorem extends_of_erase (hp : p ≠ []) (h : ∀ q, q ≠ p → d'.entry? q = d.entry? q)
    (hc : d'.current = d.current) : (d.erase p).Extends d' where
  current := hc
  old q e he := by
    have hq : q ≠ p := by
      rintro rfl
      rw [entry?_of_ne hp,erase] at he
      obtain ⟨x,hx,-⟩ := Option.map_eq_some_iff.1 he
      have hm := List.mem_filter.1 (List.mem_of_find?_eq_some hx)
      have hf := List.find?_some hx
      simp only [decide_eq_true_eq] at hf hm
      exact hm.2 hf
    rw [h q hq,← he,entry?_erase_other hq]

/-- Directories at most have been added. -/
structure Keeps (d d' : Disk) : Prop extends d.Extends d' where
  files : d'.files = d.files

theorem Keeps.refl (d : Disk) : d.Keeps d := ⟨.refl d,rfl⟩

theorem Keeps.trans {d'' : Disk} (h : d.Keeps d') (k : d'.Keeps d'') : d.Keeps d'' :=
  ⟨h.toExtends.trans k.toExtends,k.files.trans h.files⟩

theorem Keeps.entry?_iff (h : d.Keeps d') (he : e ≠ .directory) :
    d'.entry? q = some e ↔ d.entry? q = some e := by
  refine ⟨fun hq => ?_,h.old q e⟩
  have hn : q ≠ [] := fun hn => by
    rw [hn,entry?_nil] at hq
    exact he (Option.some.inj hq).symm
  have hm : (q,e) ∈ d'.files := List.mem_filter.2 ⟨mem_entries hn hq,by simpa using he⟩
  rw [h.files] at hm
  obtain ⟨f,hf⟩ := entry?_of_mem (List.mem_filter.1 hm).1
  rw [hf,← hq,h.old q f hf]

theorem files_put (he : e ≠ .directory) (d : Disk) :
    (d.put p e).files = (p,e) :: d.files.filter fun x => x.1 ≠ p := by
  rw [files,put,List.filter_cons_of_pos (by simpa using he),erase,files,List.filter_comm]

theorem Keeps.put (h : d.entry? p = none) : d.Keeps (d.put p .directory) where
  toExtends := .put h _
  files := by
    rw [Disk.files,Disk.put,erase_of_free h,List.filter_cons_of_neg (by simp),Disk.files]

theorem keeps_makeOne (d : Disk) (path : Bytes) : d.Keeps (d.makeOne path).1 := by
  rw [makeOne]
  split
  · rename_i h
    obtain ⟨p,n,-,-,he,rfl⟩ := makeDirectory_ok h
    exact .put he
  · exact .refl d

theorem keeps_makeAll (d : Disk) (paths : List Bytes) : d.Keeps (d.makeAll paths).1 := by
  induction paths generalizing d with
  | nil => exact .refl d
  | cons path above ih =>
    have hone := keeps_makeOne d path
    rw [makeAll]
    split
    · rename_i d₁ h
      rw [h] at hone
      have hall := hone.trans (ih d₁)
      split
      · rename_i h
        rwa [h] at hall
      · rename_i d₂ h
        rw [h] at hall
        exact hall.trans (keeps_makeOne d₂ path)
    · exact hone

/-- What a file or nothing is at is not on the way to a directory. -/
theorem walk_erase {links : Nat} {ns : List Bytes} (hp : ∀ e, d.entry? p = some e → ∃ c, e = .file c)
    (hw : d.walk true links here ns = .ok q) (hq : d.entry? q = some .directory) :
    (d.erase p).walk true links here ns = .ok q := by
  have hne : ∀ {r e}, d.entry? r = some e → (∀ c, e ≠ .file c) → r ≠ p := fun hr he h => by
    obtain ⟨c,hc⟩ := hp _ (h ▸ hr)
    exact he c hc
  have hdir : ∀ {r}, d.entry? r = some .directory → entry? (d.erase p) r = some .directory := by
    intro r hr
    rw [entry?_erase_other (hne hr (by simp)),hr]
  fun_induction walk d true links here ns with
  | case1 links here =>
    rw [walk]
    exact hw
  | case3 links here ns h ih =>
    rw [walk_dot _ (hdir (by simpa using h))]
    exact ih hw
  | case4 links here ns h _ ih =>
    rw [walk_dotDot _ (hdir (by simpa using h))]
    exact ih hw
  | case9 here n ns h h₁ h₂ hl target he hf links ih =>
    have he' : entry? (d.erase p) (here ++ [n]) = some (.link target) := by
      rw [entry?_erase_other (hne he (by simp)),he]
    rw [walk_link _ (hdir (by simpa using h)) ⟨h₁,h₂,by omega⟩ he']
    exact ih (by simpa only [dite_eq_ite] using hw)
  | case10 links here n ns h h₁ h₂ hl e hn he ih =>
    have hr : here ++ [n] ≠ p := by
      rintro rfl
      obtain ⟨c,rfl⟩ := hp e he
      -- Nothing can follow a file, and it is no directory itself.
      cases ns with
      | nil =>
        rw [walk] at hw
        cases hw
        rw [he] at hq
        cases hq
      | cons m ns =>
        rw [walk_stop _ (by simp [he])] at hw
        cases hw
    have he' : entry? (d.erase p) (here ++ [n]) = some e := by rw [entry?_erase_other hr,he]
    rw [walk_entry _ (hdir (by simpa using h)) ⟨h₁,h₂,by omega⟩ he' hn]
    exact ih hw
  | case7 links here n ns h h₁ h₂ hl target he hf => exact absurd hf.2 (by decide)
  | _ => simp at hw

theorem find_erase {path : Bytes} (hp : ∀ e, d.entry? p = some e → ∃ c, e = .file c)
    (hf : d.find true path = .ok q) (hq : d.entry? q = some .directory) :
    (d.erase p).find true path = .ok q := by
  rw [find] at hf ⊢
  split at hf
  · cases hf
  · exact walk_erase hp hf hq

theorem entry?_put_file {c : Bytes} (hp : d.entry? p = none) (hq : d.entry? q ≠ some .directory) :
    entry? (d.put p (.file c)) q ≠ some .directory := by
  by_cases hqp : q = p
  · have hn : p ≠ [] := fun hn => by simp [hn,entry?_nil] at hp
    rw [hqp,entry?_put_self hn]
    simp
  · rwa [entry?_put_other hqp]

theorem moveFile_ok {source : Place} {content path : Bytes}
    (h : d.moveFile source content path = .ok d') : ∃ p n, path.contains 0 = false ∧
      d.findParent path = .ok (p,.name n) ∧ n.length ≤ maxName ∧ endsInSlash path = false ∧
      d.entry? (p ++ [n]) ≠ some .directory ∧
      d' = (d.erase source).put (p ++ [n]) (.file content) := by
  rw [moveFile] at h
  split at h
  · cases h
  · rename_i hz
    split at h
    · cases h
    · cases h
    · rename_i p n hpar
      split at h
      · cases h
      · rename_i hl
        split at h
        · cases h
        · rename_i hs
          split at h
          · cases h
          · rename_i he
            cases h
            exact ⟨p,n,by simpa using hz,hpar,Nat.le_of_not_lt hl,by simpa using hs,he,rfl⟩

end Workbench.File.Disk
