import Workbench.Proofs.Dictionary
import Workbench.Proofs.File.Directory
import Workbench.Proofs.Store.Key
import Workbench.Proofs.Store.Temporary
import Workbench.Store.Memory
set_option autoImplicit false

/-!
A store on a disk that holds what a store in memory holds. Each call of the one does what the same call
of the other does, up to what a disk cannot hold: names and paths that are too long.
-/
namespace Workbench

namespace StoreOnDisk
open Text File Disk

def areaPlace (p : Place) (a : Area) : Place := p ++ [utf8 a.name]

def entryPlace (p : Place) (a : Area) (n : Text) : Place := areaPlace p a ++ [utf8 n]

/-- A name that a file can have. -/
structure FlatName (n : Text) : Prop extends PlainName n where
  noNul : '\x00' ∉ n

instance (n : Text) : Decidable (FlatName n) :=
  decidable_of_iff (PlainName n ∧ '\x00' ∉ n) ⟨fun h => ⟨h.1,h.2⟩,fun h => ⟨h.1,h.2⟩⟩

/-- A name that no temporary file has. -/
structure LastingName (n : Text) : Prop extends FlatName n where
  lasting : ∀ i, n ≠ temporaryName i

/-- The disk has room for an entry: neither its name nor its path is too long. -/
structure Fits (root : Text) (a : Area) (n : Text) : Prop where
  name : (utf8 n).length ≤ maxName
  path : (utf8 (pathOf root a n)).length < pathLimit

instance (root : Text) (a : Area) (n : Text) : Decidable (Fits root a n) :=
  decidable_of_iff ((utf8 n).length ≤ maxName ∧ (utf8 (pathOf root a n)).length < pathLimit)
    ⟨fun h => ⟨h.1,h.2⟩,fun h => ⟨h.1,h.2⟩⟩

/-- An entry can be written: nor is the path of a temporary file beside it too long. -/
structure Writable (here : Place) (root : Text) (a : Area) (n : Text) : Prop extends Fits root a n where
  room : Room here root a

instance (here : Place) (root : Text) (a : Area) (n : Text) : Decidable (Writable here root a n) :=
  decidable_of_iff (Fits root a n ∧ Room here root a) ⟨fun h => ⟨h.1,h.2⟩,fun h => ⟨h.1,h.2⟩⟩

/-- The path of a store leads to an empty directory. -/
structure Rooted (d : Disk) (root : Text) (p : Place) : Prop where
  noNul : '\x00' ∉ root
  leads : d.LeadsTo (components root) p
  bare : ∀ x ∈ d.entries, p <+: x.1 → x.1 = p

/-- What the store in memory holds is below the place `p` of the disk, and nothing else is, apart from
directories of areas. -/
structure Settled (root : Text) (p : Place) (d : Disk) (s : MemoryStore) : Prop where
  base : ∃ d₀, Rooted d₀ root p ∧ d₀.Extends d
  below : ∀ x ∈ d.entries, p <+: x.1 → x.1 ≠ p → (∃ a, x = (areaPlace p a,.directory)) ∨
    ∃ a n c, s.read a n = some c ∧ x = (entryPlace p a n,.file c)
  stored : ∀ a n c, s.read a n = some c → LastingName n ∧ Fits root a n ∧
    d.entry? (areaPlace p a) = some .directory ∧ d.entry? (entryPlace p a n) = some (.file c)

theorem name_injective {a b : Area} (h : utf8 a.name = utf8 b.name) : a = b := by
  have hn := utf8_injective h
  cases a <;> cases b <;> first | rfl | exact absurd hn (by decide)

theorem length_area (a : Area) : (utf8 a.name).length ≤ maxName := by
  cases a <;> decide

theorem areaPlace_injective {p : Place} {a b : Area} (h : areaPlace p a = areaPlace p b) : a = b :=
  name_injective (List.singleton_inj.1 (List.append_cancel_left h))

theorem entryPlace_injective {p : Place} {a b : Area} {m n : Text}
    (h : entryPlace p a m = entryPlace p b n) : a = b ∧ m = n := by
  obtain ⟨ha,hn⟩ := List.append_inj h (by simp [areaPlace])
  exact ⟨areaPlace_injective ha,utf8_injective (List.singleton_inj.1 hn)⟩

theorem areaPlace_ne (p : Place) (a : Area) : areaPlace p a ≠ p := by
  simp [areaPlace]

theorem entryPlace_ne (p : Place) (a : Area) (n : Text) : entryPlace p a n ≠ p := by
  intro h
  have := congrArg List.length h
  simp [entryPlace,areaPlace] at this

theorem areaPlace_ne_entryPlace (p : Place) (a b : Area) (n : Text) :
    areaPlace p a ≠ entryPlace p b n := by
  intro h
  have := congrArg List.length h
  simp [entryPlace,areaPlace] at this

theorem prefix_areaPlace (p : Place) (a : Area) : p <+: areaPlace p a := ⟨_,rfl⟩

theorem prefix_entryPlace (p : Place) (a : Area) (n : Text) : p <+: entryPlace p a n :=
  ⟨[utf8 a.name,utf8 n],by simp [entryPlace,areaPlace]⟩

theorem pathTo_directoryOf (root : Text) (a : Area) :
    PathTo (components root) a.name (utf8 (directoryOf root a)) :=
  pathTo_join root (plainName_area a)

theorem pathTo_pathOf (root : Text) (a : Area) {n : Text} (h : PlainName n) :
    PathTo (components root ++ [.name a.name]) n (utf8 (pathOf root a n)) := by
  rw [← components_directoryOf]
  exact pathTo_join _ h

theorem mem_join {base path : Text} {c : Char} (h : c ∈ join base path) :
    c ∈ base ∨ c ∈ path ∨ c = '/' := by
  unfold join at h
  split at h
  · exact .inr (.inl h)
  · split at h
    · rcases List.mem_append.1 h with h | h
      · exact .inl h
      · exact .inr (.inl h)
    · rcases List.mem_append.1 h with h | h
      · rcases List.mem_append.1 h with h | h
        · exact .inl h
        · exact .inr (.inr (List.mem_singleton.1 h))
      · exact .inr (.inl h)

theorem mem_join_of_mem {base n : Text} (h : PlainName n) {c : Char} (hc : c ∈ base) : c ∈ join base n := by
  rw [join_plain base h]
  split <;> simp [hc]

theorem noNul_directoryOf {root : Text} (h : '\x00' ∉ root) (a : Area) :
    '\x00' ∉ directoryOf root a := by
  intro hm
  rcases mem_join hm with hm | hm | hm
  · exact h hm
  · exact absurd hm (by cases a <;> decide)
  · exact absurd hm (by decide)

theorem noNul_pathOf {root : Text} (h : '\x00' ∉ root) (a : Area) {n : Text} (hn : '\x00' ∉ n) :
    '\x00' ∉ pathOf root a n := by
  intro hm
  rcases mem_join hm with hm | hm | hm
  · exact noNul_directoryOf h a hm
  · exact hn hm
  · exact absurd hm (by decide)

theorem noNul_written {root : Text} (h : '\x00' ∉ root) (a : Area) :
    (written (components root ++ [.name a.name])).contains 0 = false :=
  ((nulFree_components h).concat (by cases a <;> decide)).written

theorem length_join (base : Text) {n : Text} (h : PlainName n) :
    (utf8 base).length + (utf8 n).length ≤ (utf8 (join base n)).length ∧
      (utf8 (join base n)).length ≤ (utf8 base).length + (utf8 n).length + 1 := by
  have hs : (utf8 ['/']).length = 1 := rfl
  rw [join_plain _ h]
  split <;> simp only [utf8_append,List.length_append] <;> omega

theorem length_directoryOf_le (root : Text) (a : Area) {n : Text} (h : PlainName n) :
    (utf8 (directoryOf root a)).length ≤ (utf8 (pathOf root a n)).length :=
  Nat.le_of_add_right_le (length_join _ h).1

theorem read_longPath {root : Text} {a : Area} {n : Text} (hz : '\x00' ∉ root) (hn : FlatName n)
    (hl : pathLimit ≤ (utf8 (pathOf root a n)).length) (d : Disk) :
    StoreOnDisk.read d root a n = .error Refusal.nameTooLong.message := by
  have hz := contains_zero (noNul_pathOf hz a hn.noNul)
  simp only [StoreOnDisk.read,readBytes,hz,find_tooLong hl,Bool.false_eq_true,if_false]

namespace Settled
variable {root : Text} {p : Place} {d : Disk} {s : MemoryStore} {n : Text}

theorem start (h : Rooted d root p) : Settled root p d .empty where
  base := ⟨d,h,.refl d⟩
  below x hx hp hn := absurd (h.bare x hx hp) hn
  stored a n c hr := by cases a <;> cases hr

section
variable (h : Settled root p d s)
include h

theorem noNul : '\x00' ∉ root := by
  obtain ⟨d₀,hr,-⟩ := h.base
  exact hr.noNul

theorem leads : d.LeadsTo (components root) p := by
  obtain ⟨d₀,hr,he⟩ := h.base
  exact hr.leads.extends he

theorem area_cases (a : Area) : d.entry? (areaPlace p a) = none ∨
    d.entry? (areaPlace p a) = some .directory := by
  cases he : d.entry? (areaPlace p a) with
  | none => exact .inl rfl
  | some e =>
    have hm := mem_entries (by simp [areaPlace]) he
    rcases h.below _ hm (prefix_areaPlace p a) (areaPlace_ne p a) with ⟨b,hb⟩ | ⟨b,m,c,-,hb⟩
    · exact .inr (congrArg some (Prod.mk.inj hb).2)
    · exact absurd (Prod.mk.inj hb).1 (areaPlace_ne_entryPlace p a b m)

theorem entry_eq (a : Area) (n : Text) :
    d.entry? (entryPlace p a n) = (s.read a n).map .file := by
  cases he : d.entry? (entryPlace p a n) with
  | none =>
    cases hs : s.read a n with
    | none => rfl
    | some c =>
      rw [(h.stored a n c hs).2.2.2] at he
      cases he
  | some e =>
    have hm := mem_entries (by simp [entryPlace]) he
    rcases h.below _ hm (prefix_entryPlace p a n) (entryPlace_ne p a n) with ⟨b,hb⟩ | ⟨b,m,c,hs,hb⟩
    · exact absurd (Prod.mk.inj hb).1.symm (areaPlace_ne_entryPlace p b a n)
    · obtain ⟨rfl,rfl⟩ := entryPlace_injective (Prod.mk.inj hb).1
      rw [hs,(Prod.mk.inj hb).2]
      rfl

theorem temporary_free (a : Area) (i : Nat) :
    d.entry? (areaPlace p a ++ [utf8 (temporaryName i)]) = none := by
  refine (h.entry_eq a (temporaryName i)).trans ?_
  cases hs : s.read a (temporaryName i) with
  | none => rfl
  | some c => exact absurd rfl ((h.stored _ _ _ hs).1.lasting i)

theorem read_eq_none {a : Area} (ha : d.entry? (areaPlace p a) = none) (n : Text) :
    s.read a n = none := by
  cases hs : s.read a n with
  | none => rfl
  | some c =>
    rw [(h.stored a n c hs).2.2.1] at ha
    cases ha

theorem area_leads {a : Area} (ha : d.entry? (areaPlace p a) = some .directory) :
    d.LeadsTo (components root ++ [.name a.name]) (areaPlace p a) :=
  h.leads.child (plainName_area a) (length_area a) ha

theorem read {a : Area} (hn : FlatName n) (hl : (utf8 (pathOf root a n)).length < pathLimit)
    (hs : d.entry? (areaPlace p a) = some .directory → (utf8 n).length ≤ maxName) :
    StoreOnDisk.read d root a n = .ok (s.read a n) := by
  have hz := contains_zero (noNul_pathOf h.noNul a hn.noNul)
  have hto := pathTo_pathOf root a hn.toPlainName
  rcases h.area_cases a with ha | ha
  · have hf : d.find true (utf8 (pathOf root a n)) = .error .notFound := by
      rw [find_pathTo hto hl]
      exact h.leads.nowhere (plainName_area a) (length_area a) ha _
    simp only [StoreOnDisk.read,readBytes,hz,hf,h.read_eq_none ha n,Bool.false_eq_true,if_false]
  · have he := h.entry_eq a n
    cases hr : s.read a n with
    | none =>
      rw [hr] at he
      have hf := find_missing hto hl (h.area_leads ha) (hs ha) he
      simp only [StoreOnDisk.read,readBytes,hz,hf,Bool.false_eq_true,if_false]
    | some c =>
      rw [hr] at he
      have hf := find_entry hto hl (h.area_leads ha) (hs ha) he (by simp)
      have he : d.entry? (areaPlace p a ++ [utf8 n]) = some (.file c) := he
      simp only [StoreOnDisk.read,readBytes,hz,hf,he,Bool.false_eq_true,if_false]

/-- What is too long is refused, though it cannot be there. -/
theorem read_tooLong {a : Area} (hn : FlatName n) (hl : pathLimit ≤ (utf8 (pathOf root a n)).length ∨
      d.entry? (areaPlace p a) = some .directory ∧ maxName < (utf8 n).length) :
    StoreOnDisk.read d root a n = .error Refusal.nameTooLong.message := by
  by_cases hp : pathLimit ≤ (utf8 (pathOf root a n)).length
  · exact read_longPath h.noNul hn hp d
  · obtain ⟨ha,hs⟩ := hl.resolve_left hp
    have hz := contains_zero (noNul_pathOf h.noNul a hn.noNul)
    have hf := find_longName (pathTo_pathOf root a hn.toPlainName) (by omega) (h.area_leads ha) hs
    simp only [StoreOnDisk.read,readBytes,hz,hf,Bool.false_eq_true,if_false]

theorem mem_children {a : Area} {x : Bytes × Entry} : x ∈ d.childrenAt (areaPlace p a) ↔
    ∃ m c, s.read a m = some c ∧ x = (utf8 m,.file c) := by
  obtain ⟨k,e⟩ := x
  rw [mem_childrenAt]
  constructor
  · intro hm
    have hne : areaPlace p a ++ [k] ≠ p := fun hq => by
      have := congrArg List.length hq
      simp [areaPlace] at this
    rcases h.below _ hm ((prefix_areaPlace p a).trans (List.prefix_append ..)) hne with
      ⟨b,hb⟩ | ⟨b,m,c,hr,hb⟩
    · have := congrArg List.length (Prod.mk.inj hb).1
      simp [areaPlace] at this
    · obtain ⟨hq,rfl⟩ := Prod.mk.inj hb
      obtain ⟨ha,hk⟩ := List.append_inj hq (by simp [areaPlace])
      rw [areaPlace_injective ha,List.singleton_inj.1 hk]
      exact ⟨m,c,hr,rfl⟩
  · intro hm
    obtain ⟨m,c,hr,hx⟩ := hm
    obtain ⟨rfl,rfl⟩ := Prod.mk.inj hx
    exact mem_entries (by simp) (h.stored a m c hr).2.2.2

theorem mem_listed {a : Area} {m : Text} : m ∈ (d.childrenAt (areaPlace p a)).filterMap listed? ↔
    (∃ c, s.read a m = some c) ∧ (after? temporaryMark m).isSome = false := by
  have hl : ∀ k c, listed? (utf8 k,.file c) = some m ↔
      k = m ∧ (after? temporaryMark m).isSome = false := by
    intro k c
    simp only [listed?,utf8Decode?_utf8]
    by_cases hk : k = m
    · rw [hk]
      cases (after? temporaryMark m).isSome <;> simp
    · cases (after? temporaryMark k).isSome <;> simp [hk]
  rw [List.mem_filterMap]
  constructor
  · intro hm
    obtain ⟨x,hx,he⟩ := hm
    obtain ⟨k,c,hr,rfl⟩ := h.mem_children.1 hx
    obtain ⟨rfl,ht⟩ := (hl k c).1 he
    exact ⟨⟨c,hr⟩,ht⟩
  · intro hm
    obtain ⟨⟨c,hr⟩,ht⟩ := hm
    exact ⟨_,h.mem_children.2 ⟨m,c,hr,rfl⟩,(hl m c).2 ⟨rfl,ht⟩⟩

/-- The names in memory are listed, in the same order, apart from those of temporary files. -/
theorem list (a : Area) : StoreOnDisk.list d root a =
    .ok ((s.list a).filter fun m => !(after? temporaryMark m).isSome) := by
  have hto := pathTo_directoryOf root a
  by_cases hd : d.entry? (areaPlace p a) = some .directory ∧
      (utf8 (directoryOf root a)).length < pathLimit
  · obtain ⟨ha,hl⟩ := hd
    have hf := find_entry hto hl h.leads (length_area a) ha (by simp)
    have ha : d.entry? (p ++ [utf8 a.name]) = some .directory := ha
    have hz := contains_zero (noNul_directoryOf h.noNul a)
    simp only [StoreOnDisk.list,leadsToDirectory,hf,ha,decide_true,if_true,children,hz,Bool.not_false,
      Bool.and_self,Bool.false_eq_true,if_false]
    refine congrArg Except.ok (eq_of_ascending id (sortDistinct_ascending _) ?_ fun m => ?_)
    · exact ((List.pairwise_map.2 (s.area a).ascending).filter _)
    · rw [mem_sortDistinct,show p ++ [utf8 a.name] = areaPlace p a from rfl,h.mem_listed,
        List.mem_filter,MemoryStore.list,Dictionary.mem_keys_iff]
      simp [MemoryStore.read]
  · have hn : s.list a = [] := by
      refine List.eq_nil_iff_forall_not_mem.2 fun m hm => ?_
      obtain ⟨c,hc⟩ := Dictionary.mem_keys_iff.1 hm
      obtain ⟨hflat,hfits,ha,-⟩ := h.stored a m c hc
      have := length_directoryOf_le root a hflat.toPlainName
      have := hfits.path
      exact hd ⟨ha,by omega⟩
    have hf : d.leadsToDirectory (utf8 (directoryOf root a)) = false := by
      by_cases hl : (utf8 (directoryOf root a)).length < pathLimit
      · have ha := (h.area_cases a).resolve_right fun ha => hd ⟨ha,hl⟩
        simp only [leadsToDirectory,find_missing hto hl h.leads (length_area a) ha,Bool.and_false]
      · simp only [leadsToDirectory,find_tooLong (Nat.le_of_not_lt hl),Bool.and_false]
    simp only [StoreOnDisk.list,hf,hn,Bool.false_eq_true,if_false,List.filter_nil]

end
end Settled
end StoreOnDisk

namespace Key
open StoreOnDisk
variable {a : Area} {n : Text} (h : Key a n)
include h

theorem flat : FlatName n := ⟨h.plain,h.noNul⟩

/-- The last dot of a key is among its last six characters, which are letters and digits in the name of a
temporary file. -/
theorem lasting : LastingName n where
  toFlatName := h.flat
  lasting i hn := by
    obtain ⟨stem,-,hs⟩ := h.suffixed
    obtain ⟨t,⟨u,hu⟩,hl⟩ : ∃ t, '.' :: t <:+ a.suffix ∧ t.length < 6 := by
      cases a
      · exact ⟨"json".toList,by decide,by decide⟩
      · exact ⟨"gz".toList,by decide,by decide⟩
      · exact ⟨"txt".toList,by decide,by decide⟩
    have hd : '.' :: t <:+ temporaryMark ++ temporaryName.letters 6 i := by
      rw [show temporaryMark ++ temporaryName.letters 6 i = n from hn.symm,hs,← hu]
      exact ⟨stem ++ u,by simp⟩
    have hm := List.suffix_of_suffix_length_le hd (List.suffix_append _ _)
      (by rw [length_letters]; exact hl)
    exact absurd (mem_letters (hm.subset List.mem_cons_self)) (by decide)

end Key

end Workbench
