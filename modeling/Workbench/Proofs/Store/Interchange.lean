import Workbench.Proofs.Store.Writing
import Workbench.World
set_option autoImplicit false

/-!
A store on a disk answers as one in memory does, call for call, where it begins in an empty directory
or in one that is still missing and is made by the first writing.
-/
namespace Workbench

namespace StoreOnDisk
open Text File Disk

/-- The path of a store leads behind a directory to names that are missing, so that nothing is at the
first of them. -/
def Missing (d : Disk) (root : Text) : Prop :=
  '\x00' ∉ root ∧ ∃ base q n ns, components root = components base ++ (n :: ns).map .name ∧
    d.LeadsTo (components base) q ∧ d.Free (q ++ [utf8 n]) ∧
    ∀ m ∈ n :: ns, (utf8 m).length ≤ maxName

def Vacant (d : Disk) (root : Text) : Prop := (∃ p, Rooted d root p) ∨ Missing d root

namespace Missing
variable {d : Disk} {root : Text} (h : Missing d root)
include h

theorem nowhere : d.LeadsNowhere (components root) := by
  obtain ⟨-,base,q,n,ns,hc,hd,hf,hs⟩ := h
  have hmem : .name n ∈ components root := by simp [hc]
  have hp := plainName_of_mem hmem
  have he : d.entry? (q ++ [utf8 n]) = none := hf.entry?_eq (by simp) List.prefix_rfl
  have := (hd.nowhere hp (hs n List.mem_cons_self) he).append (ns.map .name)
  rw [hc]
  simpa using this

theorem read (a : Area) {n : Text} (hn : FlatName n) (hf : Fits root a n) :
    StoreOnDisk.read d root a n = .ok none := by
  have hz := contains_zero (noNul_pathOf h.1 a hn.noNul)
  have hm : d.find true (utf8 (pathOf root a n)) = .error .notFound := by
    rw [find_pathTo (pathTo_pathOf root a hn.toPlainName) hf.path]
    exact h.nowhere.append _ _
  simp only [StoreOnDisk.read,readBytes,hz,hm,Bool.false_eq_true,if_false]

theorem list (a : Area) : StoreOnDisk.list d root a = .ok [] := by
  have hl : d.leadsToDirectory (utf8 (directoryOf root a)) = false := by
    by_cases hp : (utf8 (directoryOf root a)).length < pathLimit
    · simp only [leadsToDirectory,find_pathTo (pathTo_directoryOf root a) hp,h.nowhere _,Bool.and_false]
    · simp only [leadsToDirectory,find_tooLong (Nat.le_of_not_lt hp),Bool.and_false]
  simp only [StoreOnDisk.list,hl,Bool.false_eq_true,if_false]

theorem makeAll (a : Area) (hl : (written (components root ++ [.name a.name])).length < pathLimit) :
    ∃ d' p, d.makeAll (upward root) = (d',.ok ()) ∧ Rooted d' root p ∧ d'.current = d.current := by
  obtain ⟨hz,base,q,n,ns,hc,hd,hf,hs⟩ := h
  have hmem : ∀ m ∈ n :: ns, .name m ∈ components root := fun m hm => by
    rw [hc]
    exact List.mem_append_right _ (List.mem_map_of_mem hm)
  have hn : ∀ m ∈ n :: ns, PlainName m ∧ (utf8 m).length ≤ maxName := fun m hm =>
    ⟨plainName_of_mem (hmem m hm),hs m hm⟩
  have hlen : ∀ more m, more ++ [m] <+: n :: ns →
      (written (components base ++ more.map .name ++ [.name m])).length < pathLimit := by
    intro more m hp
    obtain ⟨rest,hr⟩ := hp
    refine Nat.lt_of_le_of_lt (length_written_le ⟨rest.map .name ++ [.name a.name],?_⟩) hl
    rw [hc,← hr]
    simp
  have hnul : NulFree (components base ++ (n :: ns).map .name) := hc ▸ nulFree_components hz
  obtain ⟨d',hm,hg⟩ := makeAll_missing hd (plain_components base) hn hnul hf hlen
  refine ⟨d',q ++ (n :: ns).map utf8,?_,⟨hz,?_,fun x hx hp => ?_⟩,hg.more.current⟩
  · rw [upward_eq,hc,hm]
  · rw [hc]
    exact hg.leadsTo hn hd
  · rcases hg.only x hx with hx | ⟨k,hk,he⟩
    · refine absurd ?_ (hf x hx)
      exact List.IsPrefix.trans ⟨ns.map utf8,by simp⟩ hp
    · have hle := hp.length_le
      rw [he] at hle ⊢
      simp only [List.length_append,List.length_map,List.length_take] at hle
      rw [List.take_of_length_le (by omega)]

/-- Writing makes the directory first and goes on as if it had been there. -/
theorem begin (a : Area) (hl : (written (components root ++ [.name a.name])).length < pathLimit) :
    ∃ d' p, Rooted d' root p ∧ d'.current = d.current ∧
      ∀ n c, StoreOnDisk.write d root a n c = StoreOnDisk.write d' root a n c := by
  obtain ⟨d₁,p,hm,hr,hcur⟩ := h.makeAll a hl
  have hz := noNul_written h.1 a
  have hto := pathTo_written (plain_components root) (plainName_area a)
  -- Both times the directory of the area is made last, in a directory that is there.
  have hone : d₁.makeOne (written (components root ++ [.name a.name])) =
      (d₁.put (areaPlace p a) .directory,.ok ()) := by
    refine makeOne_missing hto hl hr.leads (length_area a) hz ?_
    exact ((Settled.start hr).area_cases a).resolve_right fun ha =>
      areaPlace_ne p a (hr.bare _ (mem_entries (by simp [areaPlace]) ha) (prefix_areaPlace p a))
  have hall : d.makeAll (upward (directoryOf root a)) = d₁.makeAll (upward (directoryOf root a)) := by
    rw [upward_eq] at hm
    rw [upward_eq,components_directoryOf,ladder_concat,Disk.makeAll,Disk.makeAll,
      makeOne_nowhere hto hl hz h.nowhere,hone]
    simp only [hm,hone]
  refine ⟨d₁,p,hr,hcur,fun n c => ?_⟩
  rw [StoreOnDisk.write,StoreOnDisk.write,hall]

theorem write (a : Area) (hl : (utf8 (directoryOf root a)).length < pathLimit) :
    ∃ d' p, Rooted d' root p ∧ d'.current = d.current ∧
      ∀ n c, StoreOnDisk.write d root a n c = StoreOnDisk.write d' root a n c :=
  h.begin a (Nat.lt_of_le_of_lt (length_directory root a) hl)

end Missing

/-- A directory whose path is too long is not made, nor are those above it. -/
theorem write_tooLong {root : Text} {a : Area} (hz : '\x00' ∉ root)
    (hl : pathLimit ≤ (written (components root ++ [.name a.name])).length) (d : Disk) (n : Text)
    (c : Bytes) : StoreOnDisk.write d root a n c = (d,.error Refusal.nameTooLong.message) := by
  rw [StoreOnDisk.write,upward_eq,components_directoryOf,ladder_concat,Disk.makeAll,
    makeOne_tooLong hl (noNul_written hz a)]

/-- The disk holds what the store in memory holds, which is nothing until the store has begun. -/
def Holds (root : Text) (d : Disk) (s : MemoryStore) : Prop :=
  (∃ p, Settled root p d s) ∨ Missing d root ∧ s = .empty

namespace Holds
variable {root : Text} {d : Disk} {s : MemoryStore}

theorem start (h : Vacant d root) : Holds root d .empty :=
  h.imp (fun ⟨p,hr⟩ => ⟨p,.start hr⟩) fun hm => ⟨hm,rfl⟩

theorem list (h : Holds root d s) (a : Area) : StoreOnDisk.list d root a =
    .ok ((s.list a).filter fun m => !(after? temporaryMark m).isSome) := by
  rcases h with ⟨p,hs⟩ | ⟨hm,rfl⟩
  · exact hs.list a
  · rw [hm.list a]
    cases a <;> rfl

theorem write (h : Holds root d s) (a : Area) {n : Text} (hn : LastingName n) (c : Bytes) :
    (Writable d.current root a n ∧ ∃ d', StoreOnDisk.write d root a n c = (d',.ok ()) ∧
      Holds root d' (s.write a n c)) ∨
    (¬ Writable d.current root a n ∧ ∃ d' r, StoreOnDisk.write d root a n c = (d',.error r) ∧
      Holds root d' s) := by
  have settled : ∀ {p d s}, Settled root p d s →
      (Writable d.current root a n ∧ ∃ d', StoreOnDisk.write d root a n c = (d',.ok ()) ∧
        Holds root d' (s.write a n c)) ∨
      (¬ Writable d.current root a n ∧ ∃ d' r, StoreOnDisk.write d root a n c = (d',.error r) ∧
        Holds root d' s) := fun {p d s} hs =>
    (hs.write a hn c).imp (fun ⟨hf,d',hd,hs⟩ => ⟨hf,d',hd,.inl ⟨p,hs⟩⟩)
      fun ⟨hf,d',r,hd,hs⟩ => ⟨hf,d',r,hd,.inl ⟨p,hs⟩⟩
  rcases h with ⟨p,hs⟩ | ⟨hm,rfl⟩
  · exact settled hs
  by_cases hl : (written (components root ++ [.name a.name])).length < pathLimit
  · obtain ⟨d₁,p,hr,hcur,hd⟩ := hm.begin a hl
    rw [hd,← hcur]
    exact settled (Settled.start hr)
  · refine .inr ⟨fun hf => ?_,d,_,write_tooLong hm.1 (Nat.le_of_not_lt hl) d n c,.inr ⟨hm,rfl⟩⟩
    have := length_directory root a
    have := length_directoryOf_le root a hn.toPlainName
    have := hf.path
    omega

end Holds

/-- An ordinary name that is not marked as one of a temporary file. -/
structure EntryName (n : Text) : Prop extends FlatName n where
  unmarked : (after? temporaryMark n).isSome = false

instance (n : Text) : Decidable (EntryName n) :=
  decidable_of_iff (FlatName n ∧ (after? temporaryMark n).isSome = false)
    ⟨fun h => ⟨h.1,h.2⟩,fun h => ⟨h.1,h.2⟩⟩

theorem EntryName.lasting {n : Text} (h : EntryName n) : LastingName n where
  toFlatName := h.toFlatName
  lasting i hn := by
    have hm : (after? temporaryMark n).isSome = true :=
      after?_isSome_iff.2 (hn ▸ List.prefix_append _ _)
    simp [h.unmarked] at hm

end StoreOnDisk

inductive StoreCall where
  | write (a : Area) (n : Text) (c : Bytes)
  | read (a : Area) (n : Text)
  | list (a : Area)

inductive StoreReply where
  | written (r : Except Text Unit)
  | found (r : Except Text (Option Bytes))
  | listed (r : Except Text (List Text))

/-- An entry with an ordinary name, for which the disk has room. -/
def StoreCall.Ordinary (here : File.Place) (root : Text) : StoreCall → Prop
  | .write a n _ => StoreOnDisk.EntryName n ∧ StoreOnDisk.Writable here root a n
  | .read a n => StoreOnDisk.EntryName n ∧ StoreOnDisk.Fits root a n
  | .list _ => True

instance (here : File.Place) (root : Text) : (c : StoreCall) → Decidable (c.Ordinary here root)
  | .write a n _ =>
    inferInstanceAs (Decidable (StoreOnDisk.EntryName n ∧ StoreOnDisk.Writable here root a n))
  | .read a n => inferInstanceAs (Decidable (StoreOnDisk.EntryName n ∧ StoreOnDisk.Fits root a n))
  | .list _ => .isTrue trivial

namespace World

/-- Surroundings with another store, which refuses nothing. -/
def backedBy (w : World) (s : Store) : World := {w with store := s, refusals := .none}

def reply (w : World) : StoreCall → StoreReply × World
  | .write a n c => ((w.write a n c).map .written id)
  | .read a n => (.found (w.read a n),w)
  | .list a => (.listed (w.list a),w)

def replies (w : World) : List StoreCall → List StoreReply
  | [] => []
  | c :: cs => (w.reply c).1 :: (w.reply c).2.replies cs

end World

namespace StoreOnDisk
open Text File Disk

/-- A disk and a store in memory that answer alike. -/
structure Alike (here : Place) (root : Text) (d : Disk) (s : MemoryStore) : Prop where
  holds : Holds root d s
  unmarked : ∀ a n c, s.read a n = some c → (after? temporaryMark n).isSome = false
  current : d.current = here

namespace Alike
variable {here : Place} {root : Text} {d : Disk} {s : MemoryStore}

theorem start (h : Vacant d root) : Alike d.current root d .empty where
  holds := .start h
  unmarked a n c hr := by cases a <;> cases hr
  current := rfl

section
variable (h : Alike here root d s)
include h

theorem read {a : Area} {n : Text} (hn : EntryName n) (hf : Fits root a n) :
    StoreOnDisk.read d root a n = .ok (s.read a n) := by
  rcases h.holds with ⟨p,hs⟩ | ⟨hm,rfl⟩
  · exact hs.read hn.toFlatName hf.path fun _ => hf.name
  · rw [hm.read a hn.toFlatName hf]
    cases a <;> rfl

theorem list (a : Area) : StoreOnDisk.list d root a = .ok (s.list a) := by
  rw [h.holds.list a,List.filter_eq_self.2]
  intro m hmem
  obtain ⟨c,hc⟩ := Dictionary.mem_keys_iff.1 hmem
  simp [h.unmarked a m c hc]

theorem write {a : Area} {n : Text} (hn : EntryName n) (hw : Writable here root a n) (c : Bytes) :
    ∃ d', StoreOnDisk.write d root a n c = (d',.ok ()) ∧ Alike here root d' (s.write a n c) := by
  have hcur := write_current d root a n c
  rw [← h.current] at hw
  rcases h.holds.write a hn.lasting c with ⟨-,d',hd,hs⟩ | ⟨hf,-⟩
  · rw [hd] at hcur
    refine ⟨d',hd,hs,fun b m e hr => ?_,hcur.trans h.current⟩
    by_cases hbm : b = a ∧ m = n
    · rw [hbm.2]
      exact hn.unmarked
    · rw [s.read_write_other c (Decidable.not_and_iff_or_not.1 hbm)] at hr
      exact h.unmarked b m e hr
  · exact absurd hw hf

theorem reply (w : World) {c : StoreCall} (hc : c.Ordinary here root) : ∃ r d' s',
    World.reply {w.backedBy (.onDisk root) with disk := d} c =
      (r,{w.backedBy (.onDisk root) with disk := d'}) ∧
    (w.backedBy (.memory s)).reply c = (r,w.backedBy (.memory s')) ∧
    Alike here root d' s' ∧ ∀ e, r ≠ .written (.error e) := by
  cases c with
  | write a n c =>
    obtain ⟨hn,hw⟩ := hc
    obtain ⟨d',hd,hs⟩ := h.write hn hw c
    refine ⟨.written (.ok ()),d',s.write a n c,?_,rfl,hs,by simp⟩
    simp [World.reply,World.write,World.backedBy,Refusals.none,hd]
  | read a n =>
    obtain ⟨hn,hf⟩ := hc
    refine ⟨.found (.ok (s.read a n)),d,s,?_,rfl,h,by simp⟩
    simp [World.reply,World.read,World.backedBy,Refusals.none,h.read hn hf]
  | list a =>
    refine ⟨.listed (.ok (s.list a)),d,s,?_,rfl,h,by simp⟩
    simp [World.reply,World.list,World.backedBy,Refusals.none,h.list a]

theorem replies (w : World) {cs : List StoreCall} (hc : ∀ c ∈ cs, c.Ordinary here root) :
    World.replies {w.backedBy (.onDisk root) with disk := d} cs = (w.backedBy (.memory s)).replies cs ∧
      ∀ e, .written (.error e) ∉ (w.backedBy (.memory s)).replies cs := by
  induction cs generalizing d s with
  | nil => exact ⟨rfl,fun e => List.not_mem_nil⟩
  | cons c cs ih =>
    obtain ⟨r,d',s',hd,hm,h',hr⟩ := h.reply w (hc c List.mem_cons_self)
    obtain ⟨hsame,hok⟩ := ih h' fun c hmem => hc c (List.mem_cons_of_mem _ hmem)
    rw [World.replies,World.replies,hd,hm]
    refine ⟨by rw [hsame],fun e hmem => ?_⟩
    rcases List.mem_cons.1 hmem with he | he
    · exact hr e he.symm
    · exact hok e he

end
end Alike

/-- Whatever is written, read and listed, in whatever order: a store on a disk, begun where nothing
is yet, answers every call as one in memory does, and takes every entry. -/
theorem replies_as_in_memory (w : World) {root : Text} (hv : Vacant w.disk root)
    {calls : List StoreCall} (hc : ∀ c ∈ calls, c.Ordinary w.disk.current root) :
    (w.backedBy (.onDisk root)).replies calls = (w.backedBy (.memory .empty)).replies calls ∧
      ∀ e, .written (.error e) ∉ (w.backedBy (.onDisk root)).replies calls := by
  obtain ⟨hsame,hok⟩ := (Alike.start hv).replies w hc
  have hsame : (w.backedBy (.onDisk root)).replies calls = _ := hsame
  exact ⟨hsame,by rw [hsame]; exact hok⟩

theorem missing_of_names {ns : List Text} (hne : ns ≠ [])
    (h : ∀ n ∈ ns, FlatName n ∧ (utf8 n).length ≤ maxName) : Missing ⟨[],[]⟩ (joinWith ['/'] ns) := by
  obtain ⟨n,ns,rfl⟩ := List.exists_cons_of_ne_nil hne
  refine ⟨fun hz => ?_,[],[],n,ns,?_,?_,fun x hx => ?_,fun m hm => (h m hm).2⟩
  · rcases mem_joinWith hz with hz | ⟨m,hm,hz⟩
    · exact absurd hz (by decide)
    · exact (h m hm).1.noNul hz
  · exact components_joinWith hne fun m hm => (h m hm).1.toPlainName
  · exact leadsTo_current (entry?_nil _)
  · exact absurd hx List.not_mem_nil

theorem replies_as_in_memory_sharing :
    let calls : List StoreCall := [.list .prompts,.write .prompts "a.txt".toList [1],
      .write .generated "a.txt".toList [2],.write .prompts "a.txt".toList [3],
      .read .prompts "a.txt".toList,.read .sharedCode "a.txt".toList,.list .prompts]
    (World.bare.backedBy (.onDisk "store".toList)).replies calls =
        (World.bare.backedBy (.memory .empty)).replies calls ∧
      ∀ e, .written (.error e) ∉ (World.bare.backedBy (.onDisk "store".toList)).replies calls := by
  intro calls
  have hm : Missing ⟨[],[]⟩ (joinWith ['/'] ["store".toList]) := missing_of_names (by simp) (by decide)
  exact replies_as_in_memory World.bare (.inr hm) (by decide)

/-- A path that leaves no room for long names. -/
def deepRoot : Text := joinWith ['/'] (List.replicate 19 (List.replicate 201 'r'))

def longName : Text := List.replicate 255 'n'

theorem flatName_replicate {k : Nat} {c : Char} (hk : 2 < k) (h : c ≠ '/') (hz : c ≠ '\x00') :
    FlatName (List.replicate k c) := by
  have hl : ∀ t : Text, List.replicate k c = t → k = t.length := fun t ht => by
    rw [← ht,List.length_replicate]
  refine ⟨⟨fun e => ?_,fun e => ?_,fun e => ?_,fun hm => ?_⟩,fun hm => ?_⟩
  · have := hl _ e
    simp at this
    omega
  · have := hl _ e
    simp at this
    omega
  · have := hl _ e
    simp at this
    omega
  · exact h (List.eq_of_mem_replicate hm).symm
  · exact hz (List.eq_of_mem_replicate hm).symm

theorem length_deepRoot : (utf8 deepRoot).length = 3837 := by
  have hs : (utf8 (List.replicate 201 'r')).length = 201 := length_replicate (by decide) 201
  have he : (utf8 deepRoot).length + 1 = extent (List.replicate 19 (List.replicate 201 'r')) := by
    rw [deepRoot]
    exact extent_joinWith (by simp)
  simp only [extent,List.map_replicate,hs,List.sum_replicate_nat] at he
  omega

theorem replies_refused {w : World} {root : Text} {a : Area} {n : Text} {c : Bytes} {d : Disk}
    {r : Text} (h : StoreOnDisk.write w.disk root a n c = (d,.error r)) :
    (w.backedBy (.onDisk root)).replies [.write a n c] = [.written (.error r)] := by
  simp [World.replies,World.reply,World.write,World.backedBy,Refusals.none,h]

/-- A name that is not too long by itself is too long behind such a path: the disk refuses what memory
takes. -/
theorem replies_deepRoot : Vacant World.bare.disk deepRoot ∧ FlatName longName ∧
    (utf8 longName).length ≤ maxName ∧ (after? temporaryMark longName).isSome = false ∧
    (∃ r, (World.bare.backedBy (.onDisk deepRoot)).replies [.write .prompts longName []] =
      [.written (.error r)]) ∧
    (World.bare.backedBy (.memory .empty)).replies [.write .prompts longName []] =
      [.written (.ok ())] := by
  have hname : FlatName longName := flatName_replicate (by decide) (by decide) (by decide)
  have hlen : (utf8 longName).length = 255 := by
    rw [longName]
    exact length_replicate (by decide) 255
  have hseg : FlatName (List.replicate 201 'r') :=
    flatName_replicate (by decide) (by decide) (by decide)
  have hm : Missing ⟨[],[]⟩ deepRoot := by
    rw [deepRoot]
    refine missing_of_names (by simp) fun n hn => ?_
    rw [List.eq_of_mem_replicate hn]
    exact ⟨hseg,Nat.le_trans (Nat.le_of_eq (length_replicate (by decide) 201)) (by decide)⟩
  have hdir := length_join deepRoot (plainName_area .prompts)
  have hpath := length_join (directoryOf deepRoot .prompts) hname.toPlainName
  have harea : (utf8 Area.prompts.name).length = 7 := by decide
  have hlim : pathLimit = 4096 := rfl
  have hroot := length_deepRoot
  have hlow : (utf8 (directoryOf deepRoot .prompts)).length < pathLimit := by
    rw [directoryOf]
    omega
  have hhigh : pathLimit ≤ (utf8 (pathOf deepRoot .prompts longName)).length := by
    rw [directoryOf] at hpath
    rw [pathOf,directoryOf]
    omega
  refine ⟨.inr hm,hname,by rw [hlen]; decide,rfl,?_,rfl⟩
  obtain ⟨d,p,hd,-,hw⟩ := hm.write .prompts hlow
  have hentry : EntryName longName := ⟨hname,rfl⟩
  rcases (Settled.start hd).write .prompts hentry.lasting [] with ⟨hf,-⟩ | ⟨-,d',r,hr,-⟩
  · exact absurd hf.path (Nat.not_lt.2 hhigh)
  · exact ⟨r,replies_refused ((hw _ _).trans hr)⟩

end StoreOnDisk
end Workbench
