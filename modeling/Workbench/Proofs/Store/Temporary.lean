import Mathlib.Data.List.Nodup
import Mathlib.Data.List.Perm.Subperm
import Workbench.Proofs.File.Directory
set_option autoImplicit false

/-!
Temporary files of a store on a disk. Their names are all different and of one length, and a new one has
a name that nothing in its directory has, unless all are taken or its path is too long.
-/
namespace Workbench.StoreOnDisk
open Text File Disk temporaryName

theorem letter_injective {i j : Nat} (hi : i < 62) (hj : j < 62) (h : letter i = letter j) : i = j := by
  have table : ∀ i < 62, ∀ j < 62, letter i = letter j → i = j := by decide +kernel
  exact table i hi j hj h

theorem mem_letters {k i : Nat} {c : Char} (h : c ∈ letters k i) : c ∈ alphabet := by
  induction k generalizing i with
  | zero => exact absurd h List.not_mem_nil
  | succ k ih =>
    rcases List.mem_cons.1 h with rfl | h
    · have table : ∀ i < 62, letter i ∈ alphabet := by decide +kernel
      exact table _ (Nat.mod_lt i (by decide))
    · exact ih h

theorem length_letters (k i : Nat) : (letters k i).length = k := by
  induction k generalizing i with
  | zero => rfl
  | succ k ih => rw [letters,List.length_cons,ih]

theorem letters_injective {k i j : Nat} (hi : i < 62^k) (hj : j < 62^k) (h : letters k i = letters k j) :
    i = j := by
  induction k generalizing i j with
  | zero => omega
  | succ k ih =>
    obtain ⟨hc,ht⟩ := List.cons.inj h
    have hd : ∀ {m}, m < 62^(k+1) → m/62 < 62^k := fun hm =>
      Nat.div_lt_of_lt_mul (by rwa [Nat.pow_succ,Nat.mul_comm] at hm)
    have hmod := letter_injective (Nat.mod_lt i (by decide)) (Nat.mod_lt j (by decide)) hc
    have := ih (hd hi) (hd hj) ht
    omega

theorem temporaryName_injective {i j : Nat} (hi : i < temporaryNames) (hj : j < temporaryNames)
    (h : temporaryName i = temporaryName j) : i = j :=
  letters_injective hi hj (List.append_cancel_left h)

theorem length_temporaryName (i : Nat) : (utf8 (temporaryName i)).length = 20 := by
  have hl : (temporaryName i).length = 20 := by
    rw [temporaryName,List.length_append,length_letters]
    decide
  rw [length_utf8_ascii,hl]
  intro c hc
  have hm : ∀ c ∈ temporaryMark, c.toNat < 0x80 := by decide
  have ha : ∀ c ∈ alphabet, c.toNat < 0x80 := by decide
  exact (List.mem_append.1 hc).elim (hm c) fun hc => ha c (mem_letters hc)

variable {d : Disk} {p : Place}

theorem freeName?_eq_some {t : Bytes} (h : freeName? d p = some t) :
    d.entry? (p ++ [t]) = none ∧ ∃ i < temporaryNames, t = utf8 (temporaryName i) := by
  have hs := List.find?_some h
  obtain ⟨i,hi,ht⟩ := List.mem_map.1 (List.mem_of_find?_eq_some h)
  exact ⟨by simpa using hs,i,(Nat.lt_min.1 (List.mem_range.1 hi)).2,ht.symm⟩

theorem nodup_temporaryPlaces {k : Nat} (hk : k ≤ temporaryNames) (p : Place) :
    ((List.range k).map fun i => p ++ [utf8 (temporaryName i)]).Nodup := by
  refine List.nodup_range.map_on fun i hi j hj h => ?_
  have hi := List.mem_range.1 hi
  have hj := List.mem_range.1 hj
  exact temporaryName_injective (by omega) (by omega)
    (utf8_injective (List.singleton_inj.1 (List.append_cancel_left h)))

/-- Of more names than there are entries one is free. -/
theorem exists_entry?_eq_none (hl : d.entries.length < temporaryNames) :
    ∃ i < d.entries.length+1, d.entry? (p ++ [utf8 (temporaryName i)]) = none := by
  by_contra hno
  have hsub : (List.range (d.entries.length+1)).map (fun i => p ++ [utf8 (temporaryName i)]) ⊆
      d.entries.map (·.1) := by
    intro q hq
    obtain ⟨i,hi,rfl⟩ := List.mem_map.1 hq
    obtain ⟨e,he⟩ := Option.ne_none_iff_exists'.1 fun he => hno ⟨i,List.mem_range.1 hi,he⟩
    exact List.mem_map.2 ⟨_,mem_entries (by simp) he,rfl⟩
  have hle := (List.subperm_of_subset (nodup_temporaryPlaces hl p) hsub).length_le
  simp only [List.length_map,List.length_range] at hle
  omega

theorem freeName?_of_lt {i : Nat} (hl : i < d.entries.length+1) (hi : i < temporaryNames)
    (he : d.entry? (p ++ [utf8 (temporaryName i)]) = none) : ∃ t, freeName? d p = some t := by
  refine Option.isSome_iff_exists.1 (List.find?_isSome.2 ⟨utf8 (temporaryName i),?_,by simp [he]⟩)
  exact List.mem_map_of_mem (List.mem_range.2 (Nat.lt_min.2 ⟨hl,hi⟩))

/-- If any name is free, one of those that are tried is. -/
theorem exists_freeName {i : Nat} (hi : i < temporaryNames)
    (he : d.entry? (p ++ [utf8 (temporaryName i)]) = none) : ∃ t, freeName? d p = some t := by
  by_cases hl : i < d.entries.length+1
  · exact freeName?_of_lt hl hi he
  · obtain ⟨j,hj,he⟩ := exists_entry?_eq_none (d := d) (p := p) (by omega)
    exact freeName?_of_lt hj (by omega) he

/-- The paths of temporary files of an area are not too long. -/
def Room (here : Place) (root : Text) (a : Area) : Prop :=
  ∀ i, (temporaryPath here root a (utf8 (temporaryName i))).length < pathLimit

/-- They are all too long or none is. -/
theorem room_iff {here : Place} {root : Text} {a : Area} :
    Room here root a ↔ (temporaryPath here root a (utf8 (temporaryName 0))).length < pathLimit := by
  have same : ∀ i, (temporaryPath here root a (utf8 (temporaryName i))).length =
      (temporaryPath here root a (utf8 (temporaryName 0))).length := fun i => by
    simp only [temporaryPath,List.length_append,List.length_cons,length_temporaryName]
  exact ⟨fun h => h 0,fun h i => same i ▸ h⟩

instance (here : Place) (root : Text) (a : Area) : Decidable (Room here root a) :=
  decidable_of_iff _ room_iff.symm

variable {root : Text} {a : Area}

theorem temporaryPlace_of_not_room (h : ¬ Room d.current root a) :
    ∃ reason, temporaryPlace d root a p = .error reason := by
  rw [temporaryPlace]
  simp only [check_tooLong (Nat.le_of_not_lt (mt room_iff.2 h))]
  exact ⟨_,rfl⟩

theorem temporaryPlace_ok {q : Place} (h : temporaryPlace d root a p = .ok q) :
    Room d.current root a ∧ d.entry? q = none ∧
      ∃ i < temporaryNames, q = p ++ [utf8 (temporaryName i)] := by
  refine ⟨by_contra fun hno => ?_,?_⟩
  · obtain ⟨r,hr⟩ := temporaryPlace_of_not_room (p := p) hno
    rw [hr] at h
    cases h
  · rw [temporaryPlace] at h
    split at h
    · cases h
    · split at h
      · rename_i t ht
        cases h
        obtain ⟨he,i,hi,rfl⟩ := freeName?_eq_some ht
        exact ⟨he,i,hi,rfl⟩
      · cases h

theorem temporaryPlace_of_room (h : Room d.current root a) {i : Nat} (hi : i < temporaryNames)
    (he : d.entry? (p ++ [utf8 (temporaryName i)]) = none) : ∃ q, temporaryPlace d root a p = .ok q := by
  obtain ⟨t,ht⟩ := exists_freeName hi he
  have hc : check (temporaryPath d.current root a (utf8 (temporaryName 0))) = .ok () :=
    check_ok (by simp [temporaryPath]) (h 0)
  simp only [temporaryPlace,hc,ht]
  exact ⟨_,rfl⟩

end Workbench.StoreOnDisk
