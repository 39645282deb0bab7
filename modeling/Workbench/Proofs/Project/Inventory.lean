import Workbench.Proofs.File.MemoryTree
import Workbench.Proofs.Held
import Workbench.Proofs.Project.Walk
import Workbench.Report
set_option autoImplicit false

/-!
The inventory of a project in memory: all that was added below its root, and what is above that,
each once and none of it hidden. What the summary counts is what is listed.
-/
namespace Workbench
open File Text

/-- Surroundings in which the files of projects are those that were added. -/
def World.holding (base : World) (as : List Addition) : World :=
  {base with project := .memory (.ofAdditions as)}

namespace Project

/-- What leads from a root to something that is listed: at least one step down, no step hidden. -/
structure Shown (rest : List Component) : Prop where
  filled : rest ≠ []
  relative : .root ∉ rest
  visible : ∀ c ∈ rest, c.text.head? ≠ some '.'

def relativePath (rest : List Component) : Text := joinWith ['/'] (rest.map Component.text)

def OfKind (k path : Text) : Prop := ∃ directory stem ext, path = directory ++ (stem ++ '.' :: ext) ∧
  (directory = [] ∨ ∃ d, directory = d ++ ['/']) ∧ '/' ∉ stem ∧ '/' ∉ ext ∧
    stem ≠ [] ∧ ext ≠ [] ∧ '.' ∉ ext ∧ k = '.' :: lower ext

theorem place_cons {relative : Text} (h : relative ≠ []) (ns : List Text) :
    place relative ns = joinWith ['/'] (relative :: ns) := by
  induction ns generalizing relative with
  | nil => rfl
  | cons n ns ih =>
    have hb : below relative n = relative ++ ['/'] ++ n := if_neg h
    have hn : relative ++ ['/'] ++ n ≠ [] := by simp
    calc place relative (n :: ns)
        = place (below relative n) ns := rfl
      _ = joinWith ['/'] ((relative ++ ['/'] ++ n) :: ns) := by rw [hb,ih hn]
      _ = relative ++ ['/'] ++ joinWith ['/'] (n :: ns) := joinWith_cons_cons _ _ n ns
      _ = joinWith ['/'] (relative :: n :: ns) := rfl

theorem place_eq {ns : List Text} (h : ∀ n ∈ ns, n ≠ []) : place [] ns = joinWith ['/'] ns := by
  cases ns with
  | nil => rfl
  | cons n ns => exact place_cons (h n List.mem_cons_self) ns

theorem splitOn_place {ns : List Text} (hn : ns ≠ []) (h : ∀ n ∈ ns, PlainName n) :
    splitOn '/' (place [] ns) = ns := by
  rw [place_eq fun n hn => (h n hn).filled,splitOn_joinWith hn fun n hn => (h n hn).whole]

theorem place_injective {ms ns : List Text} (hm : ms ≠ []) (hn : ns ≠ [])
    (pm : ∀ n ∈ ms, PlainName n) (pn : ∀ n ∈ ns, PlainName n) (h : place [] ms = place [] ns) :
    ms = ns := by
  rw [← splitOn_place hm pm,h,splitOn_place hn pn]

theorem shown_map_name {ns : List Text} (hn : ns ≠ []) (h : ∀ n ∈ ns, isHidden n = false) :
    Shown (ns.map .name) := by
  refine ⟨by simpa using hn,by simp,fun c hc => ?_⟩
  obtain ⟨n,hn,rfl⟩ := List.mem_map.1 hc
  show n.head? ≠ some '.'
  simpa [isHidden] using h n hn

theorem relativePath_map_name (ns : List Text) :
    relativePath (ns.map .name) = joinWith ['/'] ns := by
  rw [relativePath,List.map_map]
  congr 1
  exact List.map_id' ns

theorem exists_names {rest : List Component} (h : Shown rest) :
    ∃ ns, rest = ns.map .name ∧ ns ≠ [] ∧ ∀ n ∈ ns, isHidden n = false := by
  have hc : ∀ c ∈ rest, c = .name c.text ∧ isHidden c.text = false := fun c hc => by
    cases c with
    | root => exact absurd hc h.relative
    | here => exact absurd rfl (h.visible _ hc)
    | up => exact absurd rfl (h.visible _ hc)
    | name n => exact ⟨rfl,by simpa [isHidden] using h.visible _ hc⟩
  refine ⟨rest.map Component.text,?_,by simpa using h.filled,fun n hn => ?_⟩
  · rw [List.map_map]
    exact ((List.map_congr_left fun c hm => (hc c hm).1.symm).trans (List.map_id rest)).symm
  · obtain ⟨c,hm,rfl⟩ := List.mem_map.1 hn
    exact (hc c hm).2

def lastName (path : Text) : Text := (splitOn '/' path).getLast?.getD []

theorem lastName_append {directory name : Text} (hd : directory = [] ∨ ∃ d, directory = d ++ ['/'])
    (hn : '/' ∉ name) : lastName (directory ++ name) = name := by
  have hs := (splitOn_piece hn []).1
  rcases hd with rfl | ⟨d,rfl⟩
  · simp [lastName,hs]
  · rw [lastName,List.append_assoc,List.singleton_append,splitOn_append,hs]
    simp

theorem exists_lastName (path : Text) : ∃ directory name, path = directory ++ name ∧
    (directory = [] ∨ ∃ d, directory = d ++ ['/']) ∧ '/' ∉ name := by
  obtain ⟨l,r,hp,-,-,hl,hr⟩ := exists_span (· != '/') path.reverse
  refine ⟨r.reverse,l.reverse,?_,?_,fun h => ?_⟩
  · rw [← List.reverse_append,← hp,List.reverse_reverse]
  · cases r with
    | nil => exact .inl rfl
    | cons c r =>
      obtain rfl : c = '/' := by simpa using hr
      exact .inr ⟨r.reverse,by simp⟩
  · simpa using hl '/' (List.mem_reverse.1 h)

theorem ofKind_iff {k path : Text} : OfKind k path ↔ kind? (lastName path) = some k := by
  constructor
  · rintro ⟨directory,stem,ext,rfl,hd,hs,he,hsn,hen,hdot,rfl⟩
    rw [lastName_append hd (by simp [hs,he])]
    exact kind?_eq_some_iff.2 ⟨stem,ext,rfl,hsn,hen,hdot,rfl⟩
  · intro h
    obtain ⟨directory,name,rfl,hd,hn⟩ := exists_lastName path
    rw [lastName_append hd hn] at h
    obtain ⟨stem,ext,rfl,hsn,hen,hdot,rfl⟩ := kind?_eq_some_iff.1 h
    simp only [List.mem_append,List.mem_cons,not_or] at hn
    exact ⟨directory,stem,ext,rfl,hd,hn.1,hn.2.2,hsn,hen,hdot,rfl⟩

def ofKind (k : Text) (files : List Text) : List Text :=
  files.filter fun f => kind? (lastName f) = some k

theorem get?_foldl_countKind (files : List Text) (k : Text) :
    (files.foldl countKind .empty).get? k =
      if (ofKind k files).length = 0 then none else some (ofKind k files).length := by
  induction files using List.reverseRecOn with
  | nil => rfl
  | append_singleton files f ih =>
    have ho : (ofKind k (files ++ [f])).length =
        (ofKind k files).length + if kind? (lastName f) = some k then 1 else 0 := by
      rw [ofKind,List.filter_append,List.length_append,← ofKind]
      by_cases hk : kind? (lastName f) = some k <;> simp [hk]
    rw [List.foldl_append,List.foldl_cons,List.foldl_nil,countKind,← lastName,ho]
    cases hf : kind? (lastName f) with
    | none => simpa using ih
    | some j =>
      by_cases hj : j = k
      · subst hj
        simp only [Dictionary.get?_insert_self,ih]
        by_cases hz : (ofKind j files).length = 0 <;> simp [hz]
      · have hn : some j ≠ some k := fun e => hj (Option.some.inj e)
        simp only [Dictionary.get?_insert_other _ _ (Ne.symm hj),ih]
        simp [hn]

/-- A file belongs to those of a kind by what its path says, so these can be counted in any way. -/
theorem length_ofKind {k : Text} {files fs : List Text} (hn : files.Nodup) (hs : fs.Sublist files)
    (hm : ∀ p ∈ files, p ∈ fs ↔ OfKind k p) : fs.length = (ofKind k files).length := by
  refine ((List.perm_ext_iff_of_nodup (hs.nodup hn) (hn.filter _)).2 fun p => ?_).length_eq
  rw [List.mem_filter,decide_eq_true_iff,← ofKind_iff]
  constructor
  · exact fun h => ⟨hs.subset h,(hm p (hs.subset h)).1 h⟩
  · exact fun h => (hm p h.1).2 h.2

theorem kinds_get?_iff {i : Inventory} (hn : i.files.Nodup) {k : Text} {n : Nat} :
    i.kinds.get? k = some n ↔ 0 < n ∧ ∃ fs : List Text, fs.Sublist i.files ∧
      (∀ p ∈ i.files, p ∈ fs ↔ OfKind k p) ∧ fs.length = n := by
  have hs : (ofKind k i.files).Sublist i.files := List.filter_sublist
  have hm : ∀ p ∈ i.files, p ∈ ofKind k i.files ↔ OfKind k p := fun p hp => by
    rw [ofKind,List.mem_filter,decide_eq_true_iff,ofKind_iff,and_iff_right hp]
  rw [Inventory.kinds,get?_foldl_countKind]
  constructor
  · intro h
    split at h
    · simp at h
    · rename_i hz
      obtain rfl := Option.some.inj h
      exact ⟨Nat.pos_of_ne_zero hz,_,hs,hm,rfl⟩
  · rintro ⟨hz,fs,hfs,hfm,rfl⟩
    rw [length_ofKind hn hfs hfm] at hz ⊢
    exact if_neg (Nat.pos_iff_ne_zero.1 hz)

section
variable {base : World} {as : List Addition} {directory : Text} {names : List Text}

def NamesIn (as : List Addition) (directory : Text) (names : List Text) : Prop :=
  ∀ n, n ∈ names ↔ Stored as (components directory ++ [.name n])

theorem exists_listDirectory (h : HasDirectory as (components directory)) : ∃ names,
    (base.holding as).listDirectory directory = .ok names :=
  ⟨_,MemoryTree.list_of_isDir (MemoryTree.isDir_iff.2 h)⟩

theorem of_listDirectory (h : (base.holding as).listDirectory directory = .ok names) :
    names.Nodup ∧ NamesIn as directory names := by
  obtain ⟨-,hn,hm⟩ := MemoryTree.list_eq_ok_iff.1 h
  exact ⟨hn.imp Text.ne_of_lt,fun n => (hm n).trans MemoryTree.mem_keys⟩

theorem components_join_of_mem (h : NamesIn as directory names) {n : Text} (hn : n ∈ names) :
    components (join directory n) = components directory ++ [.name n] :=
  components_join directory (plainName_of_stored ((h n).1 hn) (by simp))

theorem height_le_of_mem (h : NamesIn as directory names) {n : Text} (hn : n ∈ names) {depth : Nat}
    (hd : (MemoryTree.ofAdditions as).height ≤ (components directory).length + (depth+1)) :
    (MemoryTree.ofAdditions as).height ≤ (components (join directory n)).length + depth := by
  rw [components_join_of_mem h hn,List.length_append,List.length_singleton]
  omega

theorem eq_nil_of_height_le (h : NamesIn as directory names)
    (hd : (MemoryTree.ofAdditions as).height ≤ (components directory).length) : names = [] := by
  refine List.eq_nil_iff_forall_not_mem.2 fun n hn => ?_
  have hk := MemoryTree.length_le_height (MemoryTree.mem_keys.2 ((h n).1 hn))
  rw [List.length_append,List.length_singleton] at hk
  omega

/-- Where a walk may go deep enough its bound does not show: one that may go deeper comes upon the
same entries in the same order. -/
theorem entriesBelow_add {depth : Nat} (h : NamesIn as directory names)
    (hd : (MemoryTree.ofAdditions as).height ≤ (components directory).length + depth) (more : Nat) :
    entriesBelow (base.holding as) (depth+more) directory names =
      entriesBelow (base.holding as) depth directory names := by
  induction depth generalizing directory names with
  | zero =>
    rw [eq_nil_of_height_le h hd]
    cases more <;> rfl
  | succ depth ih =>
    have hi : ∀ n ∈ directoriesAmong (base.holding as) directory names,
        inside (base.holding as) (depth+more) directory n =
          inside (base.holding as) depth directory n := by
      intro n hn
      rw [inside,inside]
      cases hl : (base.holding as).listDirectory (join directory n) with
      | error reason => rfl
      | ok inner =>
        have hm := height_le_of_mem h (mem_directoriesAmong.1 hn).1 hd
        simp only [ih (of_listDirectory hl).2 hm]
    rw [Nat.add_right_comm,entriesBelow_succ,entriesBelow_succ,List.flatMap_congr hi]

/-- An entry that is listed, by the names that lead to it from a directory. -/
structure Listed (as : List Addition) (key : List Component) (ns : List Text) (b : Bool) : Prop where
  filled : ns ≠ []
  visible : ∀ n ∈ ns, isHidden n = false
  stored : Stored as (key ++ ns.map .name)
  directory : b = true ↔ HasDirectory as (key ++ ns.map .name)

theorem mem_own_iff (h : NamesIn as directory names) {n : Text} {b : Bool} :
    ([n],b) ∈ own (base.holding as) directory names ↔
      Listed as (components directory) [n] b := by
  have hd : n ∈ names → ((base.holding as).isDirectory (join directory n) = true ↔
      HasDirectory as (components directory ++ [.name n])) := fun hn => by
    rw [← components_join_of_mem h hn]
    exact MemoryTree.isDir_iff
  rw [mem_own]
  constructor
  · rintro ⟨m,hm,hh,he,rfl⟩
    obtain rfl : n = m := (List.cons_eq_cons.1 he).1
    exact ⟨List.cons_ne_nil _ _,by simpa using hh,(h n).1 hm,hd hm⟩
  · rintro ⟨-,hv,hs,hb⟩
    have hn := (h n).2 hs
    exact ⟨n,hn,hv n List.mem_cons_self,rfl,Bool.eq_iff_iff.2 (hb.trans (hd hn).symm)⟩

theorem listed_cons {key : List Component} {n : Text} {ns : List Text} {b : Bool} (hn : ns ≠ []) :
    Listed as key (n :: ns) b ↔ isHidden n = false ∧ Listed as (key ++ [.name n]) ns b := by
  have e : key ++ (n :: ns).map Component.name = key ++ [.name n] ++ ns.map .name := by simp
  constructor
  · rintro ⟨-,hv,hs,hb⟩
    rw [e] at hs hb
    exact ⟨hv n List.mem_cons_self,hn,fun m hm => hv m (List.mem_cons_of_mem _ hm),hs,hb⟩
  · rintro ⟨hh,-,hv,hs,hb⟩
    rw [← e] at hs hb
    refine ⟨List.cons_ne_nil _ _,fun m hm => ?_,hs,hb⟩
    rcases List.mem_cons.1 hm with rfl | hm
    · exact hh
    · exact hv m hm

/-- A walk that may go deep enough comes upon everything that is listed, and upon nothing else. -/
theorem mem_entriesBelow {depth : Nat} (h : NamesIn as directory names)
    (hd : (MemoryTree.ofAdditions as).height ≤ (components directory).length + depth)
    {ns : List Text} {b : Bool} :
    (ns,b) ∈ entriesBelow (base.holding as) depth directory names ↔
      Listed as (components directory) ns b := by
  induction depth generalizing directory names ns with
  | zero =>
    have hk : Listed as (components directory) ns b → ns.length = 0 := fun hl => by
      have hk := MemoryTree.length_le_height (MemoryTree.mem_keys.2 hl.stored)
      rw [List.length_append,List.length_map] at hk
      omega
    constructor
    · intro hm
      obtain ⟨n,-,-,rfl,-⟩ := mem_own.1 hm
      exact (mem_own_iff h).1 hm
    · exact fun hl => absurd (List.length_eq_zero_iff.1 (hk hl)) hl.filled
  | succ depth ih =>
    -- What holds of a directory among the names, by the induction hypothesis.
    have hi : ∀ {n inner}, n ∈ names →
        (base.holding as).listDirectory (join directory n) = .ok inner → ∀ {rest},
        ((rest,b) ∈ entriesBelow (base.holding as) depth (join directory n) inner ↔
          Listed as (components directory ++ [.name n]) rest b) := by
      intro n inner hn hl rest
      rw [← components_join_of_mem h hn]
      exact ih (of_listDirectory hl).2 (height_le_of_mem h hn hd)
    rw [entriesBelow_succ,List.mem_append,List.mem_flatMap]
    constructor
    · rintro (hm | ⟨n,hn,hm⟩)
      · obtain ⟨n,-,-,rfl,-⟩ := mem_own.1 hm
        exact (mem_own_iff h).1 hm
      · obtain ⟨hn,hh,-⟩ := mem_directoriesAmong.1 hn
        obtain ⟨inner,rest,hl,hr,rfl⟩ := mem_inside.1 hm
        exact (listed_cons (ne_nil_of_mem hr)).2 ⟨hh,(hi hn hl).1 hr⟩
    · intro hl
      obtain ⟨n,rest,rfl⟩ := List.exists_cons_of_ne_nil hl.filled
      by_cases hr : rest = []
      · subst hr
        exact .inl ((mem_own_iff h).2 hl)
      · right
        obtain ⟨hh,hl⟩ := (listed_cons hr).1 hl
        have hdir : HasDirectory as (components directory ++ [.name n]) :=
          hasDirectory_of_stored (by simp) (by simpa using hr) hl.stored
        have hn : n ∈ names := (h n).2 (.inl hdir)
        have hj := components_join_of_mem h hn
        obtain ⟨inner,he⟩ := @exists_listDirectory base as (join directory n) (by rwa [hj])
        refine ⟨n,mem_directoriesAmong.2 ⟨hn,hh,?_⟩,mem_inside.2 ⟨inner,rest,he,?_,rfl⟩⟩
        · exact MemoryTree.isDir_iff.2 (by rwa [hj])
        · exact (hi hn he).2 hl

theorem Listed.plainName {key : List Component} {ns : List Text} {b : Bool} (h : Listed as key ns b)
    {n : Text} (hn : n ∈ ns) : PlainName n :=
  plainName_of_stored h.stored (List.mem_append_right _ (List.mem_map_of_mem hn))

theorem exists_listed_iff {key : List Component} {b : Bool} {p : Text} :
    (∃ ns, Listed as key ns b ∧ p = place [] ns) ↔ ∃ rest, Shown rest ∧ p = relativePath rest ∧
      Stored as (key ++ rest) ∧ (b = true ↔ HasDirectory as (key ++ rest)) := by
  constructor
  · rintro ⟨ns,h,rfl⟩
    refine ⟨ns.map .name,shown_map_name h.filled h.visible,?_,h.stored,h.directory⟩
    rw [relativePath_map_name,place_eq fun n hn => (h.plainName hn).filled]
  · rintro ⟨rest,h,rfl,hs,hd⟩
    obtain ⟨ns,rfl,hn,hv⟩ := exists_names h
    have hl : Listed as key ns b := ⟨hn,hv,hs,hd⟩
    refine ⟨ns,hl,?_⟩
    rw [relativePath_map_name,place_eq fun n hn => (hl.plainName hn).filled]

theorem mem_map_place {key : List Component} {es : List (List Text × Bool)} {b : Bool}
    {keep : List Text × Bool → Bool} (he : ∀ {ns b}, (ns,b) ∈ es ↔ Listed as key ns b)
    (hk : ∀ e, keep e = true ↔ e.2 = b) (p : Text) : p ∈ (es.filter keep).map (place [] ·.1) ↔
      ∃ rest, Shown rest ∧ p = relativePath rest ∧ Stored as (key ++ rest) ∧
        (b = true ↔ HasDirectory as (key ++ rest)) := by
  rw [← exists_listed_iff,List.mem_map]
  constructor
  · rintro ⟨⟨ns,c⟩,hm,rfl⟩
    obtain ⟨hm,hc⟩ := List.mem_filter.1 hm
    obtain rfl : c = b := (hk _).1 hc
    exact ⟨ns,he.1 hm,rfl⟩
  · rintro ⟨ns,h,rfl⟩
    exact ⟨(ns,b),List.mem_filter.2 ⟨he.2 h,(hk _).2 rfl⟩,rfl⟩

theorem mem_directories {key : List Component} {es : List (List Text × Bool)}
    (he : ∀ {ns b}, (ns,b) ∈ es ↔ Listed as key ns b) (p : Text) :
    p ∈ (Inventory.ofEntries [] es).directories ↔ ∃ rest, Shown rest ∧ p = relativePath rest ∧
      HasDirectory as (key ++ rest) := by
  refine (mem_map_place he (b := true) (fun e => Iff.rfl) p).trans ?_
  refine exists_congr fun rest => and_congr_right fun _ => and_congr_right fun _ => ?_
  exact ⟨fun h => h.2.1 rfl,fun h => ⟨.inl h,fun _ => h,fun _ => rfl⟩⟩

theorem mem_files {key : List Component} {es : List (List Text × Bool)}
    (he : ∀ {ns b}, (ns,b) ∈ es ↔ Listed as key ns b) (p : Text) :
    p ∈ (Inventory.ofEntries [] es).files ↔ ∃ rest, Shown rest ∧ p = relativePath rest ∧
      HasFile as (key ++ rest) ∧ ¬ HasDirectory as (key ++ rest) := by
  refine (mem_map_place he (b := false) (fun e => by cases e.2 <;> simp) p).trans ?_
  refine exists_congr fun rest => and_congr_right fun _ => and_congr_right fun _ => ?_
  constructor
  · rintro ⟨hs,hd⟩
    have hn : ¬ HasDirectory as (key ++ rest) := fun h => absurd (hd.2 h) (by decide)
    exact ⟨hs.resolve_left hn,hn⟩
  · exact fun h => ⟨.inr h.1,fun e => absurd e (by decide),fun hd => absurd hd h.2⟩

theorem nodup_paths {key : List Component} {es : List (List Text × Bool)}
    (hn : (es.map (·.1)).Nodup) (he : ∀ {ns b}, (ns,b) ∈ es → Listed as key ns b) :
    ((Inventory.ofEntries [] es).directories ++ (Inventory.ofEntries [] es).files).Nodup := by
  have hl : ∀ ns ∈ es.map (·.1), ∃ b, Listed as key ns b := fun ns h => by
    obtain ⟨e,hm,rfl⟩ := List.mem_map.1 h
    exact ⟨e.2,he hm⟩
  have hp := hn.map_on (f := place []) fun ms hm ns hn h => by
    obtain ⟨b,hm⟩ := hl ms hm
    obtain ⟨c,hn⟩ := hl ns hn
    exact place_injective hm.filled hn.filled (fun _ => hm.plainName) (fun _ => hn.plainName) h
  rw [List.map_map] at hp
  rw [Inventory.ofEntries,← List.map_append]
  exact ((List.filter_append_perm (fun e => e.2) es).map _).nodup_iff.2 hp

theorem listRoot_run (hl : (base.holding as).listDirectory directory = .ok names) :
    (ExceptT.run (listRoot directory)).run (base.holding as) = (.ok names,base.holding as) := by
  rw [listRoot,Action.run_callOr,World.answer,hl]

theorem inventory_run (hl : (base.holding as).listDirectory directory = .ok names) :
    (ExceptT.run (inventory directory)).run (base.holding as) =
      (.ok (.ofEntries [] (entriesBelow (base.holding as) (MemoryTree.ofAdditions as).height
        directory names)),base.holding as) := by
  rw [inventory,Program.run_exceptBind,listRoot_run hl]
  refine (Program.run_exceptBind (Action.call .nesting) _ _).trans ?_
  rw [Action.call,Program.run_lift]
  refine (Program.run_lift _ _).trans ?_
  rw [walk_run]
  rfl

theorem listRoot_refused (h : ¬ HasDirectory as (components directory)) : ∃ reason,
    (ExceptT.run (listRoot directory)).run (base.holding as) =
      (.error (.unreadableProject directory reason),base.holding as) := by
  have hl : ∃ reason, (base.holding as).listDirectory directory = .error reason :=
    ⟨_,if_neg fun hd => h (MemoryTree.isDir_iff.1 hd)⟩
  obtain ⟨reason,hl⟩ := hl
  exact ⟨reason,by rw [listRoot,Action.run_callOr,World.answer,hl]⟩

theorem inventory_refused (h : ¬ HasDirectory as (components directory)) : ∃ reason,
    (ExceptT.run (inventory directory)).run (base.holding as) =
      (.error (.unreadableProject directory reason),base.holding as) := by
  obtain ⟨reason,hr⟩ := @listRoot_refused base as directory h
  exact ⟨reason,by rw [inventory,Program.run_exceptBind,hr]⟩

end

/-- The inventory of a directory of a tree lists all that the tree has below it, each thing once and
nothing else, unless a name on the way begins with a dot: the directories as directories and all else
as files. The walk ends by itself, before its bound does. The summary counts what is listed. There is
no inventory of what is no directory. -/
theorem inventory_exact (base : World) (as : List Addition) (root : Text) :
    (HasDirectory as (components root) → ∃ i,
      (ExceptT.run (inventory root)).run (base.holding as) = (.ok i,base.holding as) ∧
      (∀ depth names, (MemoryTree.ofAdditions as).height ≤ depth →
        (base.holding as).listDirectory root = .ok names →
          (walk depth root [] names).run (base.holding as) = (i,base.holding as)) ∧
      (i.directories ++ i.files).Nodup ∧
      (∀ p, p ∈ i.directories ↔ ∃ rest, Shown rest ∧ p = relativePath rest ∧
        HasDirectory as (components root ++ rest)) ∧
      (∀ p, p ∈ i.files ↔ ∃ rest, Shown rest ∧ p = relativePath rest ∧
        HasFile as (components root ++ rest) ∧ ¬ HasDirectory as (components root ++ rest)) ∧
      (∀ k n, i.kinds.get? k = some n ↔ 0 < n ∧ ∃ fs : List Text, fs.Sublist i.files ∧
        (∀ p ∈ i.files, p ∈ fs ↔ OfKind k p) ∧ fs.length = n) ∧
      i.json = .object [
        ("directories".toList,.strings i.directories),
        ("files".toList,.strings i.files),
        ("summary".toList,.object [
          ("total_directories".toList,.nat i.directories.length),
          ("total_files".toList,.nat i.files.length),
          ("file_types".toList,.object (i.kinds.entries.map fun k => (k.1,.nat k.2)))])]) ∧
    (¬ HasDirectory as (components root) → ∃ f,
      (ExceptT.run (inventory root)).run (base.holding as) = (.error f,base.holding as) ∧
        f.kind = .invalidInput) := by
  constructor
  · intro hd
    obtain ⟨names,hl⟩ := @exists_listDirectory base as root hd
    obtain ⟨hn,hk⟩ := of_listDirectory hl
    refine ⟨_,inventory_run hl,fun depth names' hb hl' => ?_,?_⟩
    · obtain ⟨more,rfl⟩ := Nat.exists_eq_add_of_le hb
      obtain rfl : names = names' := Except.ok.inj (hl.symm.trans hl')
      rw [walk_run,entriesBelow_add hk (Nat.le_add_left _ _)]
    generalize hes : entriesBelow (base.holding as) (MemoryTree.ofAdditions as).height root names = es
    have he : ∀ {ns b}, (ns,b) ∈ es ↔ Listed as (components root) ns b := by
      rw [← hes]
      exact mem_entriesBelow hk (Nat.le_add_left _ _)
    have hes : (es.map (·.1)).Nodup := hes ▸
      nodup_entriesBelow (fun _ _ hl => (of_listDirectory hl).1) hn
    have hall := nodup_paths hes he.1
    refine ⟨hall,mem_directories he,mem_files he,fun k n => ?_,rfl⟩
    exact kinds_get?_iff (List.nodup_append.1 hall).2.1
  · intro hd
    obtain ⟨reason,hr⟩ := @inventory_refused base as root hd
    exact ⟨_,hr,rfl⟩

/-- What was added as a file and has something below it is a directory; a final slash of the root and
what is hidden make no difference. -/
example : ((ExceptT.run (inventory "p/".toList)).run (World.bare.holding
    [.file "p/a".toList [],.file "p/a/b.Txt".toList [],.file "p/.c/d".toList []])).1 =
      .ok ⟨["a".toList],["a/b.Txt".toList]⟩ := by cbv

end Project
end Workbench
