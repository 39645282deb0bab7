import Workbench.Proofs.Project.Inventory
import Workbench.Proofs.Text.Order
set_option autoImplicit false

/-!
The order of an inventory. Of two paths that part in a directory, one that ends there comes before one
that goes on; otherwise the names by which they part decide. So what is below a directory stands
together.
-/
namespace Workbench
open File Text

theorem World.listDirectory_ascending {w : World} {path : Text} {names : List Text}
    (h : w.listDirectory path = .ok names) : names.Pairwise (· < ·) := by
  rw [World.listDirectory] at h
  split at h
  · exact (MemoryTree.list_eq_ok_iff.1 h).2.1
  · rw [Disk.list] at h
    split at h
    · cases h
    · cases h
      exact sortDistinct_ascending _

namespace Project

section
variable {α : Type} {R : α → α → Prop} {xs : List α}

theorem pair_sublist_iff (h : xs.Pairwise R) (hR : ∀ a b, R a b → ¬ R b a) {x y : α} (hx : x ∈ xs)
    (hy : y ∈ xs) (hne : x ≠ y) : [x,y].Sublist xs ↔ R x y := by
  refine ⟨List.pairwise_iff_forall_sublist.1 h,fun hxy => ?_⟩
  induction xs with
  | nil => exact absurd hx List.not_mem_nil
  | cons a xs ih =>
    obtain ⟨ha,hxs⟩ := List.pairwise_cons.1 h
    rcases List.mem_cons.1 hx with rfl | hxin
    · exact (List.singleton_sublist.2 ((List.mem_cons.1 hy).resolve_left hne.symm)).cons_cons x
    rcases List.mem_cons.1 hy with rfl | hyin
    · exact absurd (ha x hxin) (hR x y hxy)
    · exact (ih hxs hxin hyin).cons a

/-- Members of a kind stand together, if what is between two of them is of the kind. -/
theorem exists_block (h : xs.Pairwise R) {Q : α → Prop}
    (hQ : ∀ x y z, R x y → R y z → Q x → Q z → Q y) : ∃ before inside after,
      xs = before ++ inside ++ after ∧ (∀ x ∈ inside, Q x) ∧ ∀ x ∈ before ++ after, ¬ Q x := by
  induction xs with
  | nil => exact ⟨[],[],[],rfl,by simp,by simp⟩
  | cons x xs ih =>
    obtain ⟨hx,hxs⟩ := List.pairwise_cons.1 h
    obtain ⟨before,inside,after,rfl,hin,hout⟩ := ih hxs
    by_cases hq : Q x
    · -- The block begins here, so that nothing can stand between this member and the others.
      cases inside with
      | nil => exact ⟨[],[x],before ++ after,by simp,by simpa using hq,hout⟩
      | cons z inside =>
        have hb : before = [] := List.eq_nil_iff_forall_not_mem.2 fun y hy => by
          have hyz : R y z := (List.pairwise_append.1 (List.append_assoc before _ after ▸ hxs)).2.2 y hy
            z (by simp)
          exact hout y (List.mem_append_left _ hy)
            (hQ x y z (hx y (by simp [hy])) hyz hq (hin z List.mem_cons_self))
        subst hb
        exact ⟨[],x :: z :: inside,after,rfl,List.forall_mem_cons.2 ⟨hq,hin⟩,hout⟩
    · exact ⟨x :: before,inside,after,rfl,hin,List.forall_mem_cons.2 ⟨hq,hout⟩⟩

end

section
variable {R : Text → Text → Prop} {m n : Text} {ms ns : List Text}

theorem Earlier.filled (h : Earlier R ms ns) : ms ≠ [] ∧ ns ≠ [] := by
  cases h <;> simp

theorem earlier_own_iff : Earlier R [m] [n] ↔ R m n := by
  refine ⟨fun h => ?_,.own⟩
  cases h with
  | own h => exact h
  | ownFirst m n hn => exact absurd rfl hn
  | directory hm hn h => exact h
  | within n h => exact absurd rfl h.filled.1

theorem not_earlier_own (hm : ms ≠ []) : ¬ Earlier R (m :: ms) [n] := by
  intro h
  cases h with
  | own h => exact hm rfl
  | ownFirst m n hn => exact hn rfl
  | directory hm hn h => exact hn rfl
  | within n h => exact h.filled.2 rfl

theorem earlier_deep_iff (hm : ms ≠ []) (hn : ns ≠ []) :
    Earlier R (m :: ms) (n :: ns) ↔ R m n ∨ m = n ∧ Earlier R ms ns := by
  constructor
  · intro h
    cases h with
    | own h => exact absurd rfl hm
    | ownFirst m n hn => exact absurd rfl hm
    | directory hm hn h => exact .inl h
    | within n h => exact .inr ⟨rfl,h⟩
  · rintro (h | ⟨rfl,h⟩)
    · exact .directory hm hn h
    · exact .within m h

variable (hR : ∀ m n, R m n → ¬ R n m)
include hR

theorem Earlier.asymm (h : Earlier R ms ns) : ¬ Earlier R ns ms := by
  induction h with
  | own h => exact fun k => hR _ _ h (earlier_own_iff.1 k)
  | ownFirst m n hn => exact not_earlier_own hn
  | directory hm hn h =>
    intro k
    rcases (earlier_deep_iff hn hm).1 k with k | ⟨rfl,-⟩
    · exact hR _ _ h k
    · exact hR _ _ h h
  | within n h ih =>
    intro k
    rcases (earlier_deep_iff h.filled.2 h.filled.1).1 k with k | ⟨-,k⟩
    · exact hR _ _ k k
    · exact ih k

theorem earlier_append_iff (c : List Text) (hm : ms ≠ []) (hn : ns ≠ []) :
    Earlier R (c ++ ms) (c ++ ns) ↔ Earlier R ms ns := by
  induction c with
  | nil => rfl
  | cons k c ih =>
    rw [List.cons_append,List.cons_append,earlier_deep_iff (by simp [hm]) (by simp [hn]),ih]
    exact ⟨fun h => (h.resolve_left fun h => hR _ _ h h).2,fun h => .inr ⟨rfl,h⟩⟩

/-- Between two entries below a directory there is nothing but what is below it. -/
theorem Earlier.between {c ks : List Text} (hm : ms ≠ []) (hn : ns ≠ [])
    (h : Earlier R (c ++ ms) ks) (k : Earlier R ks (c ++ ns)) : ∃ rest, rest ≠ [] ∧ ks = c ++ rest := by
  induction c generalizing ks with
  | nil => exact ⟨ks,h.filled.2,rfl⟩
  | cons a c ih =>
    obtain ⟨b,ks,rfl⟩ := List.exists_cons_of_ne_nil h.filled.2
    have hcm : c ++ ms ≠ [] := by simp [hm]
    have hcn : c ++ ns ≠ [] := by simp [hn]
    have hks : ks ≠ [] := by
      rintro rfl
      exact not_earlier_own hcm h
    rw [List.cons_append,earlier_deep_iff hcm hks] at h
    rw [List.cons_append,earlier_deep_iff hks hcn] at k
    rcases h with h | ⟨rfl,h⟩
    · rcases k with k | ⟨rfl,-⟩
      · exact absurd k (hR _ _ h)
      · exact absurd h (hR _ _ h)
    · obtain ⟨rest,hrest,rfl⟩ := ih h (k.resolve_left fun k => hR _ _ k k).2
      exact ⟨rest,hrest,rfl⟩

end

/-- A path goes on below the directory that is reached by the names `c`. -/
def Below (c : List Text) (path : Text) : Prop :=
  ∃ rest, rest ≠ [] ∧ splitOn '/' path = c ++ rest

/-- The deepest directory that two paths are below. -/
structure Deepest (c : List Text) (x y : Text) : Prop where
  left : Below c x
  right : Below c y
  greatest : ∀ d, Below d x → Below d y → d.length ≤ c.length

/-- Paths in the order of a walk, each once. Any two of them part somewhere: one that ends where they
part comes before one that goes on, and otherwise the first names behind decide by their bytes. What is
below a directory stands together. -/
structure InWalkOrder (paths : List Text) : Prop where
  nodup : paths.Nodup
  parting : ∀ x ∈ paths, ∀ y ∈ paths, x ≠ y → ∃ c m ms n ns, Deepest c x y ∧
    splitOn '/' x = c ++ m :: ms ∧ splitOn '/' y = c ++ n :: ns ∧
    (ms = [] → ns ≠ [] → [x,y].Sublist paths) ∧
    ((ms = [] ↔ ns = []) → ([x,y].Sublist paths ↔ utf8 m < utf8 n))
  contiguous : ∀ c, ∃ before inside after, paths = before ++ inside ++ after ∧
    (∀ x ∈ inside, Below c x) ∧ ∀ x ∈ before ++ after, ¬ Below c x

/-- Where two lists of names part: as long as both go on behind a name in common. -/
theorem exists_parting {xs ys : List Text} (hx : xs ≠ []) (hy : ys ≠ []) : ∃ c m ms n ns,
    xs = c ++ m :: ms ∧ ys = c ++ n :: ns ∧ (m = n → ms = [] ∨ ns = []) := by
  induction xs generalizing ys with
  | nil => exact absurd rfl hx
  | cons m ms ih =>
    obtain ⟨n,ns,rfl⟩ := List.exists_cons_of_ne_nil hy
    by_cases hm : m = n ∧ ms ≠ [] ∧ ns ≠ []
    · obtain ⟨rfl,hms,hns⟩ := hm
      obtain ⟨c,k,ks,l,ls,rfl,rfl,hkl⟩ := ih hms hns
      exact ⟨m :: c,k,ks,l,ls,rfl,rfl,hkl⟩
    · refine ⟨[],m,ms,n,ns,rfl,rfl,fun he => ?_⟩
      by_cases hms : ms = []
      · exact .inl hms
      · exact .inr (Classical.byContradiction fun hns => hm ⟨he,hms,hns⟩)

theorem deepest_of_parting {x y : Text} {c : List Text} {m n : Text} {ms ns : List Text}
    (hx : splitOn '/' x = c ++ m :: ms) (hy : splitOn '/' y = c ++ n :: ns)
    (hmn : m = n → ms = [] ∨ ns = []) : Deepest c x y where
  left := ⟨_,List.cons_ne_nil _ _,hx⟩
  right := ⟨_,List.cons_ne_nil _ _,hy⟩
  greatest d hdx hdy := by
    obtain ⟨r,hr,hdx⟩ := hdx
    obtain ⟨t,ht,hdy⟩ := hdy
    rw [hx] at hdx
    rw [hy] at hdy
    refine Nat.le_of_not_lt fun hlt => ?_
    rcases List.append_eq_append_iff.1 hdx with ⟨a,rfl,ha⟩ | ⟨a,rfl,-⟩
    · rw [List.append_assoc,List.append_cancel_left_eq] at hdy
      cases a with
      | nil => simp at hlt
      | cons k a =>
        obtain ⟨rfl,rfl⟩ := List.cons_eq_cons.1 ha
        obtain ⟨rfl,rfl⟩ := List.cons_eq_cons.1 hdy
        rcases hmn rfl with h | h
        · exact hr (List.append_eq_nil_iff.1 h).2
        · exact ht (List.append_eq_nil_iff.1 h).2
    · rw [List.length_append] at hlt
      omega

theorem inWalkOrder_of_pairwise {paths : List Text}
    (h : paths.Pairwise fun x y => Earlier (· < ·) (splitOn '/' x) (splitOn '/' y)) :
    InWalkOrder paths := by
  have hR : ∀ m n : Text, m < n → ¬ n < m := fun _ _ => Text.lt_asymm
  have hfilled : ∀ x : Text, splitOn '/' x ≠ [] := splitWhere_ne_nil _
  refine ⟨h.imp fun h e => h.asymm hR (by rwa [e] at h ⊢),fun x hx y hy hne => ?_,fun c => ?_⟩
  · obtain ⟨c,m,ms,n,ns,hm,hn,hmn⟩ := exists_parting (hfilled x) (hfilled y)
    have hxy : [x,y].Sublist paths ↔ Earlier (· < ·) (m :: ms) (n :: ns) := by
      rw [pair_sublist_iff h (fun _ _ h => h.asymm hR) hx hy hne,hm,hn]
      exact earlier_append_iff hR c (List.cons_ne_nil _ _) (List.cons_ne_nil _ _)
    refine ⟨c,m,ms,n,ns,deepest_of_parting hm hn hmn,hm,hn,?_,fun hboth => ?_⟩
    · rintro rfl hns
      exact hxy.2 (.ownFirst m n hns)
    · rw [hxy,utf8_lt_iff]
      by_cases hms : ms = []
      · rw [hms,hboth.1 hms]
        exact earlier_own_iff
      · have hns : ns ≠ [] := fun hns => hms (hboth.2 hns)
        rw [earlier_deep_iff hms hns]
        exact or_iff_left fun he => (hmn he.1).elim hms hns
  · refine exists_block h fun x y z hxy hyz hbx hbz => ?_
    obtain ⟨r,hr,hx⟩ := hbx
    obtain ⟨t,ht,hz⟩ := hbz
    rw [hx] at hxy
    rw [hz] at hyz
    exact hxy.between hR hr ht hyz

/-- The directories of an inventory are in the order of a walk, and so are its files. With what they are
this says which lists they are. -/
theorem inventory_in_order (base : World) {as : List Addition} {root : Text}
    (h : HasDirectory as (components root)) : ∃ i,
      (ExceptT.run (inventory root)).run (base.holding as) = (.ok i,base.holding as) ∧
        InWalkOrder i.directories ∧ InWalkOrder i.files ∧
        (∀ p, p ∈ i.directories ↔ ∃ rest, Shown rest ∧ p = relativePath rest ∧
          HasDirectory as (components root ++ rest)) ∧
        ∀ p, p ∈ i.files ↔ ∃ rest, Shown rest ∧ p = relativePath rest ∧
          HasFile as (components root ++ rest) ∧ ¬ HasDirectory as (components root ++ rest) := by
  obtain ⟨names,hl⟩ := @exists_listDirectory base as root h
  have hall := @pairwise_entriesBelow (base.holding as) (MemoryTree.ofAdditions as).height root names
    (· < ·) (fun _ _ => World.listDirectory_ascending) (World.listDirectory_ascending hl)
  refine ⟨_,inventory_run hl,?_⟩
  generalize hes : entriesBelow (base.holding as) (MemoryTree.ofAdditions as).height root names = es
    at hall ⊢
  have he : ∀ {ns b}, (ns,b) ∈ es ↔ Listed as (components root) ns b := by
    rw [← hes]
    exact mem_entriesBelow (of_listDirectory hl).2 (Nat.le_add_left _ _)
  have hsplit : ∀ e ∈ es, splitOn '/' (place [] e.1) = e.1 := fun e hm =>
    splitOn_place (he.1 hm).filled fun n hn => (he.1 hm).plainName hn
  have hpaths : ∀ keep : List Text × Bool → Bool,
      InWalkOrder ((es.filter keep).map (place [] ·.1)) := fun keep => by
    refine inWalkOrder_of_pairwise (List.pairwise_map.2 ?_)
    refine ((List.pairwise_map.1 hall).filter keep).imp_of_mem fun {e f} hme hmf hef => ?_
    rwa [hsplit e (List.mem_of_mem_filter hme),hsplit f (List.mem_of_mem_filter hmf)]
  exact ⟨hpaths _,hpaths _,mem_directories he,mem_files he⟩

/-- The file that is directly in the project comes first, however late its name; what is in a
directory's own directories comes behind its files. -/
theorem inventory_in_order_nested :
    let as : List Addition := [.file "p/z".toList [],.file "p/b/c/x".toList [],.file "p/b/d".toList [],
      .file "p/a/y".toList []]
    HasDirectory as (components "p".toList) ∧
      (ExceptT.run (inventory "p".toList)).run (World.bare.holding as) =
        (.ok ⟨["a".toList,"b".toList,"b/c".toList],
          ["z".toList,"a/y".toList,"b/d".toList,"b/c/x".toList]⟩,World.bare.holding as) ∧
      InWalkOrder ["a".toList,"b".toList,"b/c".toList] ∧
      InWalkOrder ["z".toList,"a/y".toList,"b/d".toList,"b/c/x".toList] := by
  intro as
  have hd : HasDirectory as (components "p".toList) :=
    .inr ⟨by decide +kernel,.file "p/z".toList [],List.mem_cons_self,[.name ['z']],List.cons_ne_nil _ _,
      by cbv⟩
  have hrun : (ExceptT.run (inventory "p".toList)).run (World.bare.holding as) =
      (.ok ⟨["a".toList,"b".toList,"b/c".toList],
        ["z".toList,"a/y".toList,"b/d".toList,"b/c/x".toList]⟩,World.bare.holding as) := by cbv
  obtain ⟨i,hi,hdirectories,hfiles,-⟩ := inventory_in_order World.bare hd
  cases hrun.symm.trans hi
  exact ⟨hd,hrun,hdirectories,hfiles⟩

end Project
end Workbench
