import Workbench.Proofs.File.Change
import Workbench.Proofs.Store.OnDisk
import Workbench.World
set_option autoImplicit false

/-!
Writing to a store on a disk. The directory of the area is made if it is missing, a temporary file is
found a free name and moved into place; in the end the disk has one file more or a file anew, as the
store in memory has, or what is too long was refused and the disk holds what it held.
-/
namespace Workbench

namespace StoreOnDisk
open Text File Disk

theorem length_directory (root : Text) (a : Area) :
    (written (components root ++ [.name a.name])).length ≤ (utf8 (directoryOf root a)).length := by
  have hc : components (directoryOf root a) = components root ++ [.name a.name] ++ [] := by
    rw [components_directoryOf,List.append_nil]
  exact length_written hc

theorem write_current (d : Disk) (root : Text) (a : Area) (n : Text) (c : Bytes) :
    (write d root a n c).1.current = d.current := by
  have hall := (keeps_makeAll d (upward (directoryOf root a))).current
  rw [write]
  split
  · rename_i hm
    rwa [hm] at hall
  · rename_i d₁ hm
    rw [hm] at hall
    split
    · exact hall
    · rw [writeInto]
      split
      · exact hall
      · split
        · rename_i hmove
          obtain ⟨p,n,-,-,-,-,-,rfl⟩ := moveFile_ok hmove
          exact hall
        · exact hall

namespace Settled
variable {root : Text} {p : Place} {d : Disk} {s : MemoryStore}

/-- Nothing that the way to the store goes through is at a place below it. -/
theorem base_put (h : Settled root p d s) {q : Place} (hq : p <+: q) (hne : q ≠ p) (e : Entry) :
    ∃ d₀, Rooted d₀ root p ∧ d₀.Extends (d.put q e) := by
  obtain ⟨d₀,hr,he⟩ := h.base
  refine ⟨d₀,hr,he.current,fun r f hf => ?_⟩
  have hrq : r ≠ q := fun hrq => by
    subst hrq
    have hn : r ≠ [] := fun hn => by
      rw [hn] at hq hne
      exact hne (List.prefix_nil.1 hq).symm
    exact hne (hr.bare _ (mem_entries hn hf) hq)
  rw [entry?_put_other hrq]
  exact he.old r f hf

theorem put_area (h : Settled root p d s) (a : Area) (ha : d.entry? (areaPlace p a) = none) :
    Settled root p (d.put (areaPlace p a) .directory) s where
  base := h.base_put (prefix_areaPlace p a) (areaPlace_ne p a) _
  below x hx hp hn := by
    rcases mem_put.1 hx with hx | hx
    · exact .inl ⟨a,hx⟩
    · exact h.below x hx.1 hp hn
  stored b n c hr := by
    obtain ⟨hn,hf,hb,he⟩ := h.stored b n c hr
    have hm := Extends.put ha .directory
    exact ⟨hn,hf,hm.old _ _ hb,hm.old _ _ he⟩

theorem put_entry (h : Settled root p d s) {a : Area} {n : Text} (hn : LastingName n)
    (hf : Fits root a n) (ha : d.entry? (areaPlace p a) = some .directory) (c : Bytes) :
    Settled root p (d.put (entryPlace p a n) (.file c)) (s.write a n c) where
  base := h.base_put (prefix_entryPlace p a n) (entryPlace_ne p a n) _
  below x hx hp hne := by
    rcases mem_put.1 hx with hx | ⟨hx,hq⟩
    · exact .inr ⟨a,n,c,s.read_write_self a n c,hx⟩
    · refine (h.below x hx hp hne).imp_right fun ⟨b,m,e,hr,hxe⟩ => ⟨b,m,e,?_,hxe⟩
      rw [s.read_write_other c,hr]
      by_cases hb : b = a
      · exact .inr fun hm => hq (by rw [hxe,hb,hm])
      · exact .inl hb
  stored b m e hr := by
    have hdir : ∀ b, d.entry? (areaPlace p b) = some .directory →
        entry? (d.put (entryPlace p a n) (.file c)) (areaPlace p b) = some .directory := fun b hb => by
      rw [entry?_put_other (areaPlace_ne_entryPlace p b a n),hb]
    by_cases hbm : b = a ∧ m = n
    · obtain ⟨rfl,rfl⟩ := hbm
      rw [s.read_write_self] at hr
      obtain rfl := Option.some.inj hr
      exact ⟨hn,hf,hdir b ha,entry?_put_self (by simp [entryPlace]) _ _⟩
    · rw [s.read_write_other c (Decidable.not_and_iff_or_not.1 hbm)] at hr
      obtain ⟨hm,hfm,hb,he⟩ := h.stored b m e hr
      refine ⟨hm,hfm,hdir b hb,?_⟩
      rw [entry?_put_other fun hq => hbm (entryPlace_injective hq),he]

theorem makeArea (h : Settled root p d s) (a : Area) :
    (pathLimit ≤ (utf8 (directoryOf root a)).length ∧ ∃ r,
      d.makeAll (upward (directoryOf root a)) = (d,.error r)) ∨
    ∃ d', d.makeAll (upward (directoryOf root a)) = (d',.ok ()) ∧ Settled root p d' s ∧
      d'.entry? (areaPlace p a) = some .directory := by
  have hto := pathTo_written (plain_components root) (plainName_area a)
  have hz := noNul_written h.noNul a
  have hle := length_directory root a
  rw [upward_eq,components_directoryOf,ladder_concat,makeAll]
  by_cases hl : (written (components root ++ [.name a.name])).length < pathLimit
  · right
    rcases h.area_cases a with ha | ha
    · refine ⟨d.put (areaPlace p a) .directory,?_,h.put_area a ha,
        entry?_put_self (by simp [areaPlace]) _ _⟩
      rw [makeOne_missing hto hl h.leads (length_area a) hz ha]
      rfl
    · refine ⟨d,?_,h,ha⟩
      rw [makeOne_of_leadsTo hto hl hz (h.area_leads ha)]
  · left
    rw [makeOne_tooLong (Nat.le_of_not_lt hl) hz]
    exact ⟨by omega,_,rfl⟩

/-- The temporary file becomes the entry, or it is taken away again, if it could be made at all. -/
theorem writeInto (h : Settled root p d s) {a : Area} {n : Text} (hn : FlatName n)
    (ha : d.entry? (areaPlace p a) = some .directory) (c : Bytes) :
    (Writable d.current root a n ∧ StoreOnDisk.writeInto d root a (areaPlace p a) n c =
      (d.put (entryPlace p a n) (.file c),.ok ())) ∨
    (¬ Writable d.current root a n ∧ ∃ r, StoreOnDisk.writeInto d root a (areaPlace p a) n c =
      (d,.error r)) := by
  rw [StoreOnDisk.writeInto]
  by_cases hroom : Room d.current root a
  swap
  · obtain ⟨r,hr⟩ := temporaryPlace_of_not_room (p := areaPlace p a) hroom
    simp only [hr]
    exact .inr ⟨fun hf => hroom hf.room,r,rfl⟩
  obtain ⟨q,hq⟩ := temporaryPlace_of_room hroom (by decide) (h.temporary_free a 0)
  obtain ⟨-,hfree,i,-,rfl⟩ := temporaryPlace_ok hq
  have hback := erase_put hfree (.file c)
  have hto := pathTo_pathOf root a hn.toPlainName
  have hz := contains_zero (noNul_pathOf h.noNul a hn.noNul)
  simp only [hq]
  by_cases hp : (utf8 (pathOf root a n)).length < pathLimit
  · have hd := (h.area_leads ha).extends (Extends.put hfree (.file c))
    have hpar := findParent_directory hto hp hd
    by_cases hs : (utf8 n).length ≤ maxName
    · left
      have hdir : entry? (d.put (areaPlace p a ++ [utf8 (temporaryName i)]) (.file c))
          (areaPlace p a ++ [utf8 n]) ≠ some .directory := by
        refine entry?_put_file hfree ?_
        rw [show areaPlace p a ++ [utf8 n] = entryPlace p a n from rfl,h.entry_eq]
        simp
      refine ⟨⟨⟨hs,hp⟩,hroom⟩,?_⟩
      simp only [moveFile,hz,hpar,Nat.not_lt.2 hs,hto.noSlash,hdir,hback,Bool.false_eq_true,if_false]
      rfl
    · right
      refine ⟨fun hf => hs hf.name,Refusal.nameTooLong.message,?_⟩
      simp only [moveFile,hz,hpar,Nat.lt_of_not_le hs,hback,Bool.false_eq_true,if_false,if_true]
  · right
    refine ⟨fun hf => hp hf.path,Refusal.nameTooLong.message,?_⟩
    simp only [moveFile,hz,findParent_tooLong (Nat.le_of_not_lt hp),hback,Bool.false_eq_true,if_false]

theorem write (h : Settled root p d s) (a : Area) {n : Text} (hn : LastingName n) (c : Bytes) :
    (Writable d.current root a n ∧ ∃ d', StoreOnDisk.write d root a n c = (d',.ok ()) ∧
      Settled root p d' (s.write a n c)) ∨
    (¬ Writable d.current root a n ∧ ∃ d' r, StoreOnDisk.write d root a n c = (d',.error r) ∧
      Settled root p d' s) := by
  have hle := length_directoryOf_le root a hn.toPlainName
  rcases h.makeArea a with ⟨hl,r,hm⟩ | ⟨d₁,hm,h₁,ha⟩
  · right
    refine ⟨fun hf => ?_,d,r.message,?_,h⟩
    · have := hf.path
      omega
    · simp only [StoreOnDisk.write,hm]
  have hcur : d₁.current = d.current := by
    have hall := (keeps_makeAll d (upward (directoryOf root a))).current
    rwa [hm] at hall
  rw [← hcur]
  by_cases hl : (utf8 (directoryOf root a)).length < pathLimit
  · have hf := find_entry (pathTo_directoryOf root a) hl h₁.leads (length_area a) ha (by simp)
    have hf : d₁.find true (utf8 (directoryOf root a)) = .ok (areaPlace p a) := hf
    rcases h₁.writeInto hn.toFlatName ha c with ⟨hfit,hw⟩ | ⟨hfit,r,hw⟩
    · exact .inl ⟨hfit,_,by simp only [StoreOnDisk.write,hm,hf,hw],h₁.put_entry hn hfit.toFits ha c⟩
    · exact .inr ⟨hfit,d₁,r,by simp only [StoreOnDisk.write,hm,hf,hw],h₁⟩
  · right
    refine ⟨fun hf => ?_,d₁,Refusal.nameTooLong.message,?_,h₁⟩
    · have := hf.path
      omega
    · simp only [StoreOnDisk.write,hm,find_tooLong (Nat.le_of_not_lt hl)]

end Settled
end StoreOnDisk

namespace World
variable {w : World} {root : Text} (hs : w.store = .onDisk root) (hr : w.refusals = .none)
include hs hr

theorem write_onDisk (a : Area) (n : Text) (c : Bytes) : w.write a n c =
    ((StoreOnDisk.write w.disk root a n c).2,
      {w with disk := (StoreOnDisk.write w.disk root a n c).1}) := by
  simp only [World.write,hr,hs,Refusals.none]

theorem read_onDisk (a : Area) (n : Text) : w.read a n = StoreOnDisk.read w.disk root a n := by
  simp only [World.read,hr,hs,Refusals.none]

theorem list_onDisk (a : Area) : w.list a = StoreOnDisk.list w.disk root a := by
  simp only [World.list,hr,hs,Refusals.none]

end World
end Workbench
