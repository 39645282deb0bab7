import Mathlib.Data.List.Induction
import Workbench.Proofs.File.Names
set_option autoImplicit false

/-!
Directories by the components of their paths: what is found in them, what can be put into them, and how
those that are missing are made, the first of them first.
-/
namespace Workbench.File
open Text StoreOnDisk

theorem isName_utf8 {n : Text} (h : PlainName n) (hs : (utf8 n).length ≤ maxName) :
    Disk.IsName (utf8 n) :=
  ⟨fun e => h.notHere (utf8_injective e),fun e => h.notUp (utf8_injective e),hs⟩

namespace Disk
variable {d d' : Disk} {cs : List Component} {p : Place} {path : Bytes} {n : Text}

/-- Where the first of some components is looked for. -/
def origin (d : Disk) (cs : List Component) : Place :=
  if cs.head? = some .root then [] else d.current

theorem origin_concat (d : Disk) (cs : List Component) (n : Text) :
    d.origin (cs ++ [.name n]) = d.origin cs := by
  cases cs <;> simp [origin]

/-- Components that are followed to a directory. -/
def LeadsTo (d : Disk) (cs : List Component) (p : Place) : Prop :=
  d.walk true maxLinks (d.origin cs) (trail cs ++ [dotName]) = .ok p

/-- Components of which one is missing. -/
def LeadsNowhere (d : Disk) (cs : List Component) : Prop :=
  ∀ rest, d.walk true maxLinks (d.origin cs) (trail cs ++ rest) = .error .notFound

/-- A path to the name `n` in the directory that components lead to. -/
structure PathTo (cs : List Component) (n : Text) (path : Bytes) : Prop where
  filled : path ≠ []
  plain : PlainName n
  noSlash : endsInSlash path = false
  start : ∀ d : Disk, d.start path = d.origin cs
  follow : ∃ ns, names path = ns ++ [utf8 n] ∧ ∀ (d : Disk) links here rest, rest ≠ [] →
    d.walk true links here (ns ++ rest) = d.walk true links here (trail cs ++ rest)

theorem pathTo_join (base : Text) (h : PlainName n) :
    PathTo (components base) n (utf8 (join base n)) where
  filled := by
    obtain ⟨u,hu⟩ := exists_join base h
    rw [hu,Ne,utf8_eq_nil_iff]
    simp [h.filled]
  plain := h
  noSlash := endsInSlash_join base h
  start d := by rw [start_join base h,start_path,origin]
  follow := ⟨_,names_join base h,fun d links here _ hr => walk_names d links here base hr⟩

theorem pathTo_written (hc : Plain cs) (h : PlainName n) :
    PathTo cs n (written (cs ++ [.name n])) where
  filled := by
    obtain ⟨u,hu⟩ := exists_written cs n
    rw [hu,Ne,utf8_eq_nil_iff]
    simp [h.filled]
  plain := h
  noSlash := by
    obtain ⟨u,hu⟩ := exists_written cs n
    rw [hu,endsInSlash_name u h]
  start d := start_written hc h d
  follow := ⟨_,names_written hc h,fun _ _ _ _ _ => rfl⟩

theorem check_ok (hf : path ≠ []) (hl : path.length < pathLimit) : check path = .ok () := by
  rw [check,if_neg hf,if_neg (by omega)]

theorem check_tooLong (hl : pathLimit ≤ path.length) : check path = .error .nameTooLong := by
  have hf : path ≠ [] := fun h => by
    rw [h] at hl
    exact absurd hl (by decide)
  rw [check,if_neg hf,if_pos hl]

section
variable (hl : pathLimit ≤ path.length)
include hl

theorem find_tooLong (d : Disk) (follow : Bool) : d.find follow path = .error .nameTooLong := by
  simp only [find,check_tooLong hl]

theorem findParent_tooLong (d : Disk) : d.findParent path = .error .nameTooLong := by
  simp only [findParent,check_tooLong hl]

theorem makeOne_tooLong (hz : path.contains 0 = false) (d : Disk) :
    d.makeOne path = (d,.error .nameTooLong) := by
  simp only [makeOne,makeDirectory,hz,findParent_tooLong hl,leadsToDirectory,find_tooLong hl,
    Bool.and_false,Bool.false_eq_true,if_false]

end

section
variable (h : PathTo cs n path) (hl : path.length < pathLimit)
include h hl

theorem find_pathTo (d : Disk) : d.find true path =
    d.walk true maxLinks (d.origin cs) (trail cs ++ [utf8 n]) := by
  obtain ⟨ns,hn,hw⟩ := h.follow
  simp only [find,check_ok h.filled hl,steps,h.noSlash,h.start,hn]
  simpa using hw d _ _ [utf8 n] (by simp)

theorem findParent_pathTo (d : Disk) : d.findParent path =
    (d.walk true maxLinks (d.origin cs) (trail cs ++ [dotName])).map (·,.name (utf8 n)) := by
  obtain ⟨ns,hn,hw⟩ := h.follow
  have hd : utf8 n ≠ dotName := fun e => h.plain.notHere (utf8_injective e)
  have hu : utf8 n ≠ dotDotName := fun e => h.plain.notUp (utf8_injective e)
  simp only [findParent,check_ok h.filled hl,h.start,hn,List.dropLast_concat,
    hw d _ _ [dotName] (by simp),List.getLast?_append]
  cases d.walk true maxLinks (d.origin cs) (trail cs ++ [dotName]) <;> simp [Except.map,hd,hu]

theorem makeOne_nowhere (hz : path.contains 0 = false) (hd : d.LeadsNowhere cs) :
    d.makeOne path = (d,.error .notFound) := by
  simp only [makeOne,makeDirectory,hz,findParent_pathTo h hl,leadsToDirectory,find_pathTo h hl,hd _,
    Except.map,Bool.and_false,Bool.false_eq_true,if_false]

variable (hd : d.LeadsTo cs p)
include hd

theorem findParent_directory : d.findParent path = .ok (p,.name (utf8 n)) := by
  rw [findParent_pathTo h hl,show d.walk true maxLinks (d.origin cs) (trail cs ++ [dotName]) = _ from hd]
  rfl

theorem find_longName (hs : maxName < (utf8 n).length) : d.find true path = .error .nameTooLong := by
  obtain ⟨hp,left,hw⟩ := walk_directory hd
  rw [find_pathTo h hl,hw]
  exact walk_long _ hp (fun e => h.plain.notHere (utf8_injective e))
    (fun e => h.plain.notUp (utf8_injective e)) hs

variable (hs : (utf8 n).length ≤ maxName)
include hs

theorem find_missing (he : d.entry? (p ++ [utf8 n]) = none) : d.find true path = .error .notFound := by
  obtain ⟨hp,left,hw⟩ := walk_directory hd
  rw [find_pathTo h hl,hw]
  exact walk_missing _ hp (isName_utf8 h.plain hs) he

theorem find_entry {e : Entry} (he : d.entry? (p ++ [utf8 n]) = some e)
    (hn : ∀ target, e ≠ .link target) : d.find true path = .ok (p ++ [utf8 n]) := by
  obtain ⟨hp,left,hw⟩ := walk_directory hd
  rw [find_pathTo h hl,hw,walk_entry _ hp (isName_utf8 h.plain hs) he hn,walk]

theorem makeOne_missing (hz : path.contains 0 = false) (he : d.entry? (p ++ [utf8 n]) = none) :
    d.makeOne path = (d.put (p ++ [utf8 n]) .directory,.ok ()) := by
  have hm : ¬ maxName < (utf8 n).length := by omega
  simp only [makeOne,makeDirectory,hz,findParent_directory h hl hd,hm,he,Option.isSome_none,
    Bool.false_eq_true,if_false]

end

theorem makeDirectory_ok {path : Bytes} (h : d.makeDirectory path = .ok d') : ∃ p n,
    d.findParent path = .ok (p,.name n) ∧ n.length ≤ maxName ∧ d.entry? (p ++ [n]) = none ∧
      d' = d.put (p ++ [n]) .directory := by
  rw [makeDirectory] at h
  split at h
  · cases h
  split at h
  · cases h
  · cases h
  · rename_i p n hpar
    split at h
    · cases h
    · rename_i hl
      split at h
      · cases h
      · rename_i he
        cases h
        exact ⟨p,n,hpar,Nat.le_of_not_lt hl,by simpa using he,rfl⟩

theorem leadsTo_current (h : d.entry? d.current = some .directory) : d.LeadsTo [] d.current := by
  show d.walk true maxLinks d.current [dotName] = .ok d.current
  rw [walk_dot _ h,walk]

theorem leadsTo_iff : d.LeadsTo cs p ↔
    d.walk true maxLinks (d.origin cs) (trail cs) = .ok p ∧ d.entry? p = some .directory := by
  constructor
  · intro hd
    obtain ⟨hp,left,hw⟩ := walk_directory hd
    refine ⟨?_,hp⟩
    rw [← List.append_nil (trail cs),hw,walk]
  · rintro ⟨hw,hp⟩
    rcases walk_append d maxLinks (d.origin cs) (trail cs) with ⟨r,h⟩ | ⟨left,q,h⟩
    · rw [← List.append_nil (trail cs),h] at hw
      cases hw
    · rw [← List.append_nil (trail cs),h,walk] at hw
      cases hw
      rw [LeadsTo,h,walk_dot _ hp,walk]

theorem leadsTo_concat_iff (h : PathTo cs n path) (hl : path.length < pathLimit) :
    d.LeadsTo (cs ++ [.name n]) p ↔ d.find true path = .ok p ∧ d.entry? p = some .directory := by
  rw [leadsTo_iff,find_pathTo h hl,origin_concat,trail_append,trail_name h.plain]

theorem path_lt_of_findParent {r : Place × Last} (h : d.findParent path = .ok r) :
    path.length < pathLimit := by
  refine Nat.lt_of_not_le fun hl => ?_
  rw [findParent_tooLong hl] at h
  cases h

theorem leadsTo_of_findParent {m : Bytes} (h : PathTo cs n path)
    (hl : path.length < pathLimit) (hpar : d.findParent path = .ok (p,.name m)) :
    d.LeadsTo cs p ∧ m = utf8 n := by
  rw [findParent_pathTo h hl] at hpar
  cases hq : d.walk true maxLinks (d.origin cs) (trail cs ++ [dotName]) with
  | error r =>
    rw [hq] at hpar
    cases hpar
  | ok q =>
    rw [hq] at hpar
    cases hpar
    exact ⟨hq,rfl⟩

theorem exists_leadsTo {q : Place} (h : PathTo cs n path)
    (hl : path.length < pathLimit) (hf : d.find true path = .ok q) : ∃ p, d.LeadsTo cs p := by
  rw [find_pathTo h hl] at hf
  rcases walk_append d maxLinks (d.origin cs) (trail cs) with ⟨r,hw⟩ | ⟨left,p,hw⟩
  · cases (hw _).symm.trans hf
  · refine ⟨p,leadsTo_iff.2 ⟨?_,?_⟩⟩
    · rw [← List.append_nil (trail cs),hw,walk]
    · by_contra hp
      cases (walk_stop [] hp).symm.trans ((hw _).symm.trans hf)

theorem LeadsTo.child (hd : d.LeadsTo cs p) (h : PlainName n) (hs : (utf8 n).length ≤ maxName)
    (he : d.entry? (p ++ [utf8 n]) = some .directory) :
    d.LeadsTo (cs ++ [.name n]) (p ++ [utf8 n]) := by
  obtain ⟨hp,left,hw⟩ := walk_directory hd
  rw [LeadsTo,origin_concat,trail_append,trail_name h,List.append_assoc,hw,List.singleton_append,
    walk_entry _ hp (isName_utf8 h hs) he (by simp),walk_dot _ he,walk]

theorem LeadsTo.nowhere (hd : d.LeadsTo cs p) (h : PlainName n) (hs : (utf8 n).length ≤ maxName)
    (he : d.entry? (p ++ [utf8 n]) = none) : d.LeadsNowhere (cs ++ [.name n]) := by
  intro rest
  obtain ⟨hp,left,hw⟩ := walk_directory hd
  rw [origin_concat,trail_append,trail_name h,List.append_assoc,hw]
  exact walk_missing _ hp (isName_utf8 h hs) he

theorem makeOne_of_leadsTo (hto : PathTo cs n path)
    (hl : path.length < pathLimit) (hz : path.contains 0 = false) (hd : d.LeadsTo (cs ++ [.name n]) p) :
    d.makeOne path = (d,.ok ()) := by
  obtain ⟨hf,hp⟩ := (leadsTo_concat_iff hto hl).1 hd
  rw [makeOne]
  split
  · rename_i d' hm
    obtain ⟨q,m,hpar,hs,he,-⟩ := makeDirectory_ok hm
    obtain ⟨hq,rfl⟩ := leadsTo_of_findParent hto hl hpar
    cases (hq.nowhere hto.plain hs he _).symm.trans hd
  · simp only [leadsToDirectory,hz,hf,hp,Bool.not_false,Bool.true_and,decide_true,if_true]

theorem LeadsNowhere.append (hd : d.LeadsNowhere cs) (ds : List Component) :
    d.LeadsNowhere (cs ++ ds) := by
  intro rest
  cases cs with
  | nil =>
    have h := hd []
    simp [trail,walk] at h
  | cons c cs =>
    rw [trail_append,List.append_assoc]
    exact hd _

/-- One disk has all that another has, at the same current directory. -/
structure Extends (d d' : Disk) : Prop where
  current : d'.current = d.current
  old : ∀ q e, d.entry? q = some e → d'.entry? q = some e

theorem Extends.refl (d : Disk) : d.Extends d := ⟨rfl,fun _ _ h => h⟩

theorem Extends.trans {d'' : Disk} (h : d.Extends d') (k : d'.Extends d'') : d.Extends d'' :=
  ⟨k.current.trans h.current,fun q e he => k.old q e (h.old q e he)⟩

theorem Extends.put (hp : d.entry? p = none) (e : Entry) : d.Extends (d.put p e) where
  current := rfl
  old q f hf := by
    have hq : q ≠ p := fun h => by simp [h,hp] at hf
    rw [entry?_put_other hq,hf]

theorem LeadsTo.extends (hd : d.LeadsTo cs p) (h : d.Extends d') : d'.LeadsTo cs p := by
  have ho : d'.origin cs = d.origin cs := by rw [origin,origin,h.current]
  rw [LeadsTo,ho]
  exact walk_mono h.old hd

theorem Extends.find (h : d.Extends d') (hf : d.find true path = .ok p) :
    d'.find true path = .ok p := by
  have hs : d'.start path = d.start path := by rw [start,start,h.current]
  rw [Disk.find] at hf ⊢
  split at hf
  · cases hf
  · rw [hs]
    exact walk_mono h.old hf

/-- Nothing is at a place or below it. -/
def Free (d : Disk) (p : Place) : Prop := ∀ x ∈ d.entries, ¬ p <+: x.1

theorem Free.entry?_eq (h : d.Free p) {q : Place} (hp : p ≠ []) (hq : p <+: q) :
    d.entry? q = none := by
  cases he : d.entry? q with
  | none => rfl
  | some e =>
    have hn : q ≠ [] := fun h => hp (List.prefix_nil.1 (h ▸ hq))
    exact absurd hq (h _ (mem_entries hn he))

/-- A disk on which the directories `ns` have been made, each in the one before, the first in `q`. -/
structure Grown (d : Disk) (q : Place) (ns : List Text) (d' : Disk) : Prop where
  more : d.Extends d'
  made : ∀ k, k ≤ ns.length → d'.entry? (q ++ (ns.take k).map utf8) = some .directory
  only : ∀ x ∈ d'.entries, x ∈ d.entries ∨
    ∃ k, k ≤ ns.length ∧ x.1 = q ++ (ns.take k).map utf8

section
variable {q : Place} {ns : List Text} (hn : ∀ n ∈ ns, PlainName n ∧ (utf8 n).length ≤ maxName)

theorem Grown.refl (hq : d.entry? q = some .directory) : Grown d q [] d where
  more := .refl d
  made k _ := by simpa using hq
  only x hx := .inl hx

theorem Grown.concat (h : Grown d q ns d') (n : Text)
    (he : d'.entry? (q ++ ns.map utf8 ++ [utf8 n]) = none) :
    Grown d q (ns ++ [n]) (d'.put (q ++ ns.map utf8 ++ [utf8 n]) .directory) where
  more := h.more.trans (.put he _)
  made k hk := by
    rw [List.length_append,List.length_singleton] at hk
    by_cases hl : k ≤ ns.length
    · rw [List.take_append_of_le_length hl]
      exact (Extends.put he _).old _ _ (h.made k hl)
    · have hk : k = ns.length+1 := by omega
      rw [hk,List.take_of_length_le (by simp),List.map_append,← List.append_assoc]
      exact entry?_put_self (by simp) _ _
  only x hx := by
    rcases mem_put.1 hx with hx | ⟨hx,-⟩
    · exact .inr ⟨ns.length+1,by simp,by rw [hx,List.take_of_length_le (by simp)]; simp⟩
    · refine (h.only x hx).imp_right fun ⟨k,hk,he⟩ => ⟨k,by simp; omega,?_⟩
      rw [List.take_append_of_le_length hk,he]

theorem Grown.entry?_next (h : Grown d q ns d') {n m : Text} (hf : d.Free (q ++ [utf8 n]))
    (hp : [n] <+: ns) : d'.entry? (q ++ ns.map utf8 ++ [utf8 m]) = none := by
  cases he : d'.entry? (q ++ ns.map utf8 ++ [utf8 m]) with
  | none => rfl
  | some e =>
    rcases h.only _ (mem_entries (by simp) he) with hx | ⟨k,hk,hx⟩
    · obtain ⟨more,rfl⟩ := hp
      exact absurd ⟨more.map utf8 ++ [utf8 m],by simp⟩ (hf _ hx)
    · have hlen := congrArg List.length hx
      simp only [List.length_append,List.length_map,List.length_take,List.length_singleton] at hlen
      omega

include hn in
theorem Grown.leadsTo (h : Grown d q ns d') (hd : d.LeadsTo cs q) :
    d'.LeadsTo (cs ++ ns.map .name) (q ++ ns.map utf8) := by
  suffices hk : ∀ k, k ≤ ns.length →
      d'.LeadsTo (cs ++ (ns.take k).map .name) (q ++ (ns.take k).map utf8) by
    simpa using hk ns.length (Nat.le_refl _)
  intro k
  induction k with
  | zero =>
    intro _
    simpa using hd.extends h.more
  | succ k ih =>
    intro hk
    have hm : ns[k] ∈ ns := List.getElem_mem hk
    have he := h.made (k+1) hk
    rw [List.take_succ_eq_append_getElem hk,List.map_append,← List.append_assoc] at he ⊢
    rw [List.map_append,← List.append_assoc]
    exact (ih (by omega)).child (hn _ hm).1 (hn _ hm).2 he

end

/-- The paths to the first of some components, from the longest down. -/
def ladder (cs : List Component) : List Bytes :=
  ((List.range cs.length).map fun i => written (cs.take (i+1))).reverse

theorem upward_eq (path : Text) : upward path = ladder (components path) := rfl

theorem ladder_concat (cs : List Component) (c : Component) :
    ladder (cs ++ [c]) = written (cs ++ [c]) :: ladder cs := by
  have hm : ∀ i ∈ List.range cs.length,
      written ((cs ++ [c]).take (i+1)) = written (cs.take (i+1)) := by
    intro i hi
    have := List.mem_range.1 hi
    rw [List.take_append_of_le_length (by omega)]
  rw [ladder,List.length_append,List.length_singleton,List.range_succ,List.map_append,
    List.reverse_append,List.map_congr_left hm,← ladder]
  simp [List.take_of_length_le]

/-- Whatever is missing of the path is made, in order. -/
theorem makeAll_missing {q : Place} (hd : d.LeadsTo cs q) (hc : Plain cs) {n : Text} {ns : List Text}
    (hn : ∀ m ∈ n :: ns, PlainName m ∧ (utf8 m).length ≤ maxName)
    (hz : NulFree (cs ++ (n :: ns).map .name)) (hf : d.Free (q ++ [utf8 n]))
    (hl : ∀ more m, more ++ [m] <+: n :: ns →
      (written (cs ++ more.map .name ++ [.name m])).length < pathLimit) :
    ∃ d', d.makeAll (ladder (cs ++ (n :: ns).map .name)) = (d',.ok ()) ∧ Grown d q (n :: ns) d' := by
  have hp := hn n List.mem_cons_self
  have he : d.entry? (q ++ [utf8 n]) = none := hf.entry?_eq (by simp) List.prefix_rfl
  -- By the last of the names: it is missing, as one before it is, until those have been made.
  induction ns using List.reverseRecOn with
  | nil =>
    have hw := hl [] n List.prefix_rfl
    simp only [List.map_nil,List.append_nil] at hw
    have hm := makeOne_missing (pathTo_written hc hp.1) hw hd hp.2 hz.written he
    refine ⟨_,?_,(Grown.refl (walk_directory hd).1).concat n (by simpa using he)⟩
    rw [List.map_cons,List.map_nil,ladder_concat,makeAll,hm]
    simp
  | append_singleton ns m ih =>
    have hsub : n :: ns ⊆ n :: (ns ++ [m]) :=
      List.cons_subset_cons n (List.subset_append_left ns [m])
    have hns : ∀ k ∈ n :: ns, PlainName k ∧ (utf8 k).length ≤ maxName := fun k hk => hn k (hsub hk)
    have hm := hn m (by simp)
    have hsplit : cs ++ (n :: (ns ++ [m])).map .name = cs ++ (n :: ns).map .name ++ [.name m] := by simp
    rw [hsplit] at hz ⊢
    obtain ⟨d₁,h₁,hg⟩ := ih hns (hz.subset (List.subset_append_left _ _))
      fun more k hk => hl more k (hk.trans (List.prefix_append ..))
    have hto := pathTo_written (plain_append hc fun k hk => (hns k hk).1) hm.1
    have hw := hl (n :: ns) m List.prefix_rfl
    have hno : d.LeadsNowhere (cs ++ (n :: ns).map .name) := by
      have := (hd.nowhere hp.1 hp.2 he).append (ns.map .name)
      simpa using this
    have hfree : d₁.entry? (q ++ (n :: ns).map utf8 ++ [utf8 m]) = none :=
      hg.entry?_next hf (by simp)
    refine ⟨_,?_,hg.concat m hfree⟩
    rw [ladder_concat,makeAll,makeOne_nowhere hto hw hz.written hno]
    simp only [h₁]
    exact makeOne_missing hto hw (hg.leadsTo hns hd) hm.2 hz.written hfree

end Disk
end Workbench.File
