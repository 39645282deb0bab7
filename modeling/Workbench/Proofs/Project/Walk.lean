import Mathlib.Data.List.Nodup
import Workbench.Project.Inventory
import Workbench.Proofs.Frame
set_option autoImplicit false

/-!
What a walk through a directory comes to: the entries below it by the names that lead to them, in the
order of the walk, whatever the files of projects are. It leaves everything as it was.
-/
namespace Workbench.Project
open File

def own (w : World) (directory : Text) (names : List Text) : List (List Text × Bool) :=
  (names.filter fun n => !isHidden n).map fun n => ([n],w.isDirectory (join directory n))

def directoriesAmong (w : World) (directory : Text) (names : List Text) : List Text :=
  (names.filter fun n => !isHidden n).filter fun n => w.isDirectory (join directory n)

/-- The entries below a directory whose names are known, by the names that lead to them; `depth`
bounds how deep the directories in it nest. -/
def entriesBelow (w : World) : Nat → Text → List Text → List (List Text × Bool)
  | 0,directory,names => own w directory names
  | depth+1,directory,names => own w directory names ++
    (directoriesAmong w directory names).flatMap fun n =>
      match w.listDirectory (join directory n) with
      | .ok inner => (entriesBelow w depth (join directory n) inner).map fun e => (n :: e.1,e.2)
      | .error _ => []

def inside (w : World) (depth : Nat) (directory n : Text) : List (List Text × Bool) :=
  match w.listDirectory (join directory n) with
  | .ok inner => (entriesBelow w depth (join directory n) inner).map fun e => (n :: e.1,e.2)
  | .error _ => []

theorem entriesBelow_succ (w : World) (depth : Nat) (directory : Text) (names : List Text) :
    entriesBelow w (depth+1) directory names =
      own w directory names ++
        (directoriesAmong w directory names).flatMap (inside w depth directory) := rfl

def place (relative : Text) (names : List Text) : Text := names.foldl below relative

def Inventory.ofEntries (relative : Text) (es : List (List Text × Bool)) : Inventory :=
  ⟨(es.filter (·.2)).map (place relative ·.1),(es.filter (!·.2)).map (place relative ·.1)⟩

theorem Inventory.ofEntries_append (relative : Text) (es fs : List (List Text × Bool)) :
    ofEntries relative (es ++ fs) = (ofEntries relative es).append (ofEntries relative fs) := by
  simp [ofEntries,append]

theorem Inventory.ofEntries_cons (relative name : Text) (es : List (List Text × Bool)) :
    ofEntries relative (es.map fun e => (name :: e.1,e.2)) = ofEntries (below relative name) es := by
  simp [ofEntries,List.filter_map,Function.comp_def,place]

variable (w : World)

theorem sortOut_run (directory : Text) (names : List Text) :
    (sortOut directory names).run w =
      ((names.filter fun n => w.isDirectory (join directory n),
        names.filter fun n => !w.isDirectory (join directory n)),w) := by
  induction names with
  | nil => rfl
  | cons n ns ih =>
    rw [sortOut,Program.run_monadBind,Program.run_monadBind]
    have hc : (Program.call (.isDirectory (join directory n))).run w =
        (w.isDirectory (join directory n),w) := rfl
    rw [hc,ih]
    cases h : w.isDirectory (join directory n) <;> simp [h] <;> rfl

theorem ofEntries_own (directory relative : Text) (names : List Text) :
    Inventory.ofEntries relative (own w directory names) =
      ⟨(directoriesAmong w directory names).map (below relative),
        ((names.filter fun n => !isHidden n).filter fun n =>
          !w.isDirectory (join directory n)).map (below relative)⟩ := by
  simp [Inventory.ofEntries,own,directoriesAmong,List.filter_map,Function.comp_def,place]

theorem walkAll_run {depth : Nat} (h : ∀ directory relative names,
      (walk depth directory relative names).run w =
        (.ofEntries relative (entriesBelow w depth directory names),w))
    (directory relative : Text) (names : List Text) :
    (walkAll depth directory relative names).run w =
      (.ofEntries relative (names.flatMap (inside w depth directory)),w) := by
  induction names with
  | nil =>
    rw [walkAll]
    rfl
  | cons n ns ih =>
    have hc : (Program.call (.listDirectory (join directory n))).run w =
        (w.listDirectory (join directory n),w) := rfl
    rw [walkAll,Program.run_monadBind,hc,List.flatMap_cons,Inventory.ofEntries_append,inside]
    cases w.listDirectory (join directory n) with
    | error reason =>
      refine (Program.run_monadBind (walkAll depth directory relative ns) _ w).trans ?_
      rw [ih]
      rfl
    | ok inner =>
      refine (Program.run_monadBind _ _ w).trans ?_
      rw [h]
      refine (Program.run_monadBind _ _ w).trans ?_
      rw [ih,Inventory.ofEntries_cons]
      rfl

theorem walk_run (depth : Nat) (directory relative : Text) (names : List Text) :
    (walk depth directory relative names).run w =
      (.ofEntries relative (entriesBelow w depth directory names),w) := by
  induction depth generalizing directory relative names with
  | zero =>
    rw [walk,Program.run_monadBind,sortOut_run,entriesBelow,ofEntries_own]
    rfl
  | succ depth ih =>
    rw [walk,Program.run_monadBind,sortOut_run,entriesBelow_succ,Inventory.ofEntries_append,
      ofEntries_own]
    refine (Program.run_monadBind _ _ w).trans ?_
    rw [walkAll_run w ih]
    rfl

theorem walk_quiet (depth : Nat) (directory relative : Text) (names : List Text) :
    (walk depth directory relative names).Quiet := fun w => by rw [walk_run]

section
variable {w : World} {depth : Nat} {directory : Text} {names ns : List Text} {b : Bool}

theorem mem_own : (ns,b) ∈ own w directory names ↔ ∃ n ∈ names, isHidden n = false ∧ ns = [n] ∧
    b = w.isDirectory (join directory n) := by
  rw [own,List.mem_map]
  constructor
  · rintro ⟨n,hn,he⟩
    obtain ⟨rfl,rfl⟩ := Prod.mk.inj he
    obtain ⟨hn,hh⟩ := List.mem_filter.1 hn
    exact ⟨n,hn,by simpa using hh,rfl,rfl⟩
  · rintro ⟨n,hn,hh,rfl,rfl⟩
    exact ⟨n,List.mem_filter.2 ⟨hn,by simpa using hh⟩,rfl⟩

theorem mem_directoriesAmong {n : Text} : n ∈ directoriesAmong w directory names ↔
    n ∈ names ∧ isHidden n = false ∧ w.isDirectory (join directory n) = true := by
  simp only [directoriesAmong,List.mem_filter,Bool.not_eq_true',and_assoc]

theorem mem_inside {n : Text} : (ns,b) ∈ inside w depth directory n ↔ ∃ inner rest,
    w.listDirectory (join directory n) = .ok inner ∧
      (rest,b) ∈ entriesBelow w depth (join directory n) inner ∧ ns = n :: rest := by
  rw [inside]
  cases w.listDirectory (join directory n) with
  | error reason => simp
  | ok inner =>
    rw [List.mem_map]
    constructor
    · rintro ⟨⟨rest,c⟩,hr,he⟩
      obtain ⟨rfl,rfl⟩ := Prod.mk.inj he
      exact ⟨inner,rest,rfl,hr,rfl⟩
    · rintro ⟨_,rest,he,hr,rfl⟩
      rw [← Except.ok.inj he] at hr
      exact ⟨(rest,b),hr,rfl⟩

theorem ne_nil_of_mem (h : (ns,b) ∈ entriesBelow w depth directory names) : ns ≠ [] := by
  have ho : (ns,b) ∈ own w directory names → ns ≠ [] := fun h => by
    obtain ⟨n,-,-,rfl,-⟩ := mem_own.1 h
    exact List.cons_ne_nil _ _
  cases depth with
  | zero => exact ho h
  | succ depth =>
    rw [entriesBelow_succ,List.mem_append] at h
    rcases h with h | h
    · exact ho h
    · obtain ⟨n,-,h⟩ := List.mem_flatMap.1 h
      obtain ⟨inner,rest,-,-,rfl⟩ := mem_inside.1 h
      exact List.cons_ne_nil _ _

end

/-- The order of a walk on the names that lead to entries, where the names in a directory are in the
order `R`: what is in a directory itself comes first, then what is below one directory in it after
another. -/
inductive Earlier (R : Text → Text → Prop) : List Text → List Text → Prop where
  | own {m n : Text} (h : R m n) : Earlier R [m] [n]
  | ownFirst (m n : Text) {ns : List Text} (hn : ns ≠ []) : Earlier R [m] (n :: ns)
  | directory {m n : Text} {ms ns : List Text} (hm : ms ≠ []) (hn : ns ≠ []) (h : R m n) :
    Earlier R (m :: ms) (n :: ns)
  | within (n : Text) {ms ns : List Text} (h : Earlier R ms ns) : Earlier R (n :: ms) (n :: ns)

section
variable {w : World} {depth : Nat} {directory : Text} {names : List Text} {R : Text → Text → Prop}

theorem Earlier.ne (hR : ∀ m n, R m n → m ≠ n) {ms ns : List Text} (h : Earlier R ms ns) :
    ms ≠ ns := by
  induction h with
  | own h => exact fun e => hR _ _ h (List.cons_eq_cons.1 e).1
  | ownFirst m n hn => exact fun e => hn (List.cons_eq_cons.1 e).2.symm
  | directory hm hn h => exact fun e => hR _ _ h (List.cons_eq_cons.1 e).1
  | within n h ih => exact fun e => ih (List.cons_eq_cons.1 e).2

theorem pairwise_entriesBelow
    (hw : ∀ path names, w.listDirectory path = .ok names → names.Pairwise R)
    (hn : names.Pairwise R) :
    ((entriesBelow w depth directory names).map (·.1)).Pairwise (Earlier R) := by
  have ho : ∀ {directory : Text} {names : List Text}, names.Pairwise R →
      ((own w directory names).map (·.1)).Pairwise (Earlier R) := fun {directory names} hn => by
    rw [own,List.map_map]
    exact (hn.filter _).map _ fun m n h => .own h
  induction depth generalizing directory names with
  | zero => exact ho hn
  | succ depth ih =>
    have hi : ∀ n, ∀ ns ∈ (inside w depth directory n).map (·.1), ∃ rest, rest ≠ [] ∧ ns = n :: rest := by
      intro n ns h
      obtain ⟨⟨_,b⟩,hm,rfl⟩ := List.mem_map.1 h
      obtain ⟨inner,rest,-,hr,e⟩ := mem_inside.1 hm
      exact ⟨rest,ne_nil_of_mem hr,e⟩
    rw [entriesBelow_succ,List.map_append,List.pairwise_append,List.map_flatMap,
      List.pairwise_flatMap]
    refine ⟨ho hn,⟨fun n _ => ?_,((hn.filter _).filter _).imp fun {m n} h ms hm ns hn => ?_⟩,?_⟩
    · rw [inside]
      cases hl : w.listDirectory (join directory n) with
      | error reason => exact List.Pairwise.nil
      | ok inner =>
        have hs := @ih (join directory n) inner (hw _ _ hl)
        have hm := hs.map (n :: ·) fun _ _ h => Earlier.within n h
        rw [List.map_map] at hm ⊢
        exact hm
    · obtain ⟨k,hk,rfl⟩ := hi m ms hm
      obtain ⟨l,hl,rfl⟩ := hi n ns hn
      exact .directory hk hl h
    · intro ms hm ns hn
      obtain ⟨⟨k,b⟩,hk,rfl⟩ := List.mem_map.1 hm
      obtain ⟨m,-,-,rfl,-⟩ := mem_own.1 hk
      obtain ⟨n,-,hn⟩ := List.mem_flatMap.1 hn
      obtain ⟨rest,hr,rfl⟩ := hi n ns hn
      exact .ownFirst m n hr

theorem nodup_entriesBelow (hw : ∀ path names, w.listDirectory path = .ok names → names.Nodup)
    (hn : names.Nodup) : ((entriesBelow w depth directory names).map (·.1)).Nodup :=
  (pairwise_entriesBelow hw hn).imp fun h => h.ne fun _ _ => id

end
end Workbench.Project
