import Mathlib.Data.List.Basic
import Workbench.Proofs.Prompt.Library
import Workbench.Proofs.Text.Order
set_option autoImplicit false

/-!
The order of the listed templates. A store lists its files by their bytes; the names of templates
are those of the files without their suffix, and stay in that order. It is not always that of the
names: what one name has more than another stands against the suffix of the other.
-/
namespace Workbench

/-- Surroundings of any kind that list the names of an area in ascending order of their bytes. -/
structure Surroundings (σ : Type) where
  answer : {α : Type} → σ → Call α → α × σ
  ascending : ∀ (s : σ) (a : Area) (names : List Text), (answer s (.list a)).1 = .ok names →
    names.Pairwise fun m n => Text.utf8 m < Text.utf8 n

def outcome {α β : Type} (fault : Text → Fault) (f : α → β) :
    Except Text α → Except Fault β
  | .ok a => .ok (f a)
  | .error reason => .error (fault reason)

namespace Surroundings
variable {σ α β : Type}

def run (e : Surroundings σ) : Program α → σ → α × σ
  | .done a, s => (a,s)
  | .ask c next, s =>
    let (b,s) := e.answer s c
    e.run (next b) s

theorem run_callOr (e : Surroundings σ) (fault : Text → Fault) (c : Call (Except Text α))
    (f : α → β) (s : σ) : e.run (ExceptT.run (Action.callOr fault c >>= fun a => pure (f a))) s =
      (outcome fault f (e.answer s c).1,(e.answer s c).2) := by
  have hrun : ExceptT.run (Action.callOr fault c >>= fun a => pure (f a)) =
      .ask c fun answer => .done (outcome fault f answer) :=
    congrArg (Program.ask c) (funext fun answer => by cases answer <;> rfl)
  rw [hrun]
  rfl

end Surroundings

theorem MemoryStore.list_ascending (s : MemoryStore) (a : Area) : (s.list a).Pairwise (· < ·) :=
  (s.area a).ascending.map _ fun _ _ => id

theorem MemoryStore.mem_list_iff {s : MemoryStore} {a : Area} {n : Text} :
    n ∈ s.list a ↔ s.read a n ≠ none :=
  Dictionary.mem_keys_iff.trans Option.ne_none_iff_exists'.symm

/-- Both kinds of store list by bytes. -/
theorem World.list_ascending {w : World} {a : Area} {names : List Text}
    (h : w.list a = .ok names) : names.Pairwise (· < ·) := by
  rw [World.list] at h
  split at h
  · cases h
  · cases h
    exact MemoryStore.list_ascending _ a
  · rw [StoreOnDisk.list] at h
    split at h
    · split at h
      · cases h
        exact Text.sortDistinct_ascending _
      · cases h
    · cases h
      exact List.Pairwise.nil

def World.surroundings : Surroundings World where
  answer := World.answer
  ascending _ _ _ h := (list_ascending h).imp Text.utf8_lt_utf8

theorem World.run_surroundings {α : Type} (p : Program α) (w : World) :
    surroundings.run p w = p.run w := by
  induction p generalizing w with
  | done a => rfl
  | ask c next ih => exact ih _ _

namespace Prompt
open Text
variable {σ : Type}

/-- One saving: what it comes to, and what is left behind. -/
def saving (e : Surroundings σ) (x : Text × Text) (s : σ) : Except Fault Text × σ :=
  e.run (ExceptT.run (save x.1 x.2)) s

/-- What is left behind by one saving after another, whatever each of them comes to. -/
def savedIn (e : Surroundings σ) (saves : Savings) (s : σ) : σ :=
  saves.foldl (fun s x => (saving e x s).2) s

def listing (e : Surroundings σ) (s : σ) : Except Fault (List Text) :=
  (e.run (ExceptT.run list) s).1

theorem saving_blank (e : Surroundings σ) {x : Text × Text} (h : fileOf? x.1 = none) (s : σ) :
    saving e x s = (.error .blankTemplateName,s) := by
  simp only [saving,save,h]
  rfl

theorem saving_file (e : Surroundings σ) {x : Text × Text} {file : Text}
    (h : fileOf? x.1 = some file) (s : σ) : saving e x s =
      (outcome (.storage (.writing .prompts file)) (fun _ => file)
        (e.answer s (.write .prompts file (utf8 x.2))).1,
        (e.answer s (.write .prompts file (utf8 x.2))).2) := by
  simp only [saving,save,h]
  exact e.run_callOr _ _ _ s

theorem listing_eq (e : Surroundings σ) (s : σ) : listing e s =
    outcome (.storage (.listing .prompts)) (List.filterMap (before? fileSuffix))
      (e.answer s (.list .prompts)).1 :=
  congrArg Prod.fst (e.run_callOr _ _ _ s)

/-- What is left of the suffix behind a part of it is greater than the whole, which begins with a
dot. -/
theorem fileSuffix_lt {r t : Text} (h : fileSuffix = r ++ t) (hr : r ≠ []) (ht : t ≠ []) :
    fileSuffix < t := by
  obtain ⟨d,r,rfl⟩ := List.exists_cons_of_ne_nil hr
  obtain ⟨c,t,rfl⟩ := List.exists_cons_of_ne_nil ht
  have hall : ∀ c ∈ "txt".toList, '.' < c := by decide
  have hc : c ∈ "txt".toList := by
    rw [show "txt".toList = r ++ c :: t from (List.cons.inj h).2]
    simp
  exact List.Lex.rel (hall c hc)

theorem append_fileSuffix_lt_iff {r : Text} (h : r ≠ []) :
    r ++ fileSuffix < fileSuffix ↔ r < fileSuffix := by
  constructor
  · intro hlt
    have hr : r ++ [] < r ++ fileSuffix := (append_lt_append_iff r).2 (by decide)
    exact Text.lt_trans (by simpa using hr) hlt
  · intro hlt
    rcases Text.lt_cases hlt with hlt | ⟨t,ht,he⟩
    · simpa using hlt fileSuffix []
    · rw [he,append_lt_append_iff,← he]
      exact fileSuffix_lt he h ht

/-- Names in the order of their files are in their own order unless one of them goes on behind
another with less than the suffix. -/
theorem ascending_iff_of_files {names : List Text}
    (h : names.Pairwise fun a b => a ++ fileSuffix < b ++ fileSuffix) :
    names.Pairwise (· < ·) ↔ ∀ a r, a ∈ names → a ++ r ∈ names → r = [] ∨ ¬ r < fileSuffix := by
  rw [pairwise_iff_of_pairwise h fun _ _ => Text.lt_asymm]
  constructor
  · intro hall a r ha hr
    by_cases hne : r = []
    · exact .inl hne
    refine .inr fun hlt => ?_
    have hfiles : a ++ r ++ fileSuffix < a ++ fileSuffix := by
      rw [List.append_assoc,append_lt_append_iff]
      exact (append_fileSuffix_lt_iff hne).2 hlt
    have hback : a ++ r < a ++ [] := by simpa using hall _ hr a ha hfiles
    exact List.not_lt_nil r ((append_lt_append_iff a).1 hback)
  · intro hall a ha b hb hfiles
    refine Classical.byContradiction fun hn => ?_
    have hne : a ≠ b := by
      rintro rfl
      exact Text.lt_irrefl _ hfiles
    rcases Text.lt_cases (Text.lt_of_not_lt hn hne) with hlt | ⟨r,hr,rfl⟩
    · exact Text.lt_asymm hfiles (hlt fileSuffix fileSuffix)
    · rw [List.append_assoc,append_lt_append_iff,append_fileSuffix_lt_iff hr] at hfiles
      exact ((hall b r hb ha).resolve_left hr) hfiles

theorem stems_ascending_iff {files : List Text} (h : files.Pairwise (· < ·)) :
    let names := files.filterMap (before? fileSuffix)
    names.map (· ++ fileSuffix) = files.filter (endsWith fileSuffix) ∧ names.Nodup ∧
      ((names.Pairwise fun a b => utf8 a < utf8 b) ↔
        ∀ a r, a ∈ names → a ++ r ∈ names → r = [] ∨ ¬ utf8 r < utf8 fileSuffix) := by
  intro names
  have hnames : names.Pairwise fun a b => a ++ fileSuffix < b ++ fileSuffix := by
    refine h.filterMap _ fun m n hmn a ha b hb => ?_
    rwa [← before?_eq_some_iff.1 ha,← before?_eq_some_iff.1 hb]
  refine ⟨?_,?_,?_⟩
  · rw [List.map_filterMap,← List.filterMap_eq_filter]
    exact List.filterMap_congr fun file _ => map_before? fileSuffix file
  · refine hnames.imp fun {a b} hab he => ?_
    exact Text.lt_irrefl _ (he ▸ hab)
  · simp only [utf8_lt_iff]
    exact ascending_iff_of_files hnames

/-- Whatever the store and however templates were saved in it, the names of its files are listed
without their suffix: in the order of the files, each once. They are in their own order, by bytes,
if and only if no listed name goes on behind another with less than the suffix, which is to say with
a hyphen, or with a dot and what is less than its rest. -/
theorem listing_ascending_iff (e : Surroundings σ) (saves : Savings) (s : σ) {files : List Text}
    (h : (e.answer (savedIn e saves s) (.list .prompts)).1 = .ok files) :
    ∃ names, listing e (savedIn e saves s) = .ok names ∧
      names.map (· ++ fileSuffix) = files.filter (endsWith fileSuffix) ∧ names.Nodup ∧
      ((names.Pairwise fun a b => utf8 a < utf8 b) ↔
        ∀ a r, a ∈ names → a ++ r ∈ names → r = [] ∨ ¬ utf8 r < utf8 fileSuffix) := by
  have hfiles := (e.ascending _ _ _ h).imp fun {m n} => (utf8_lt_iff (s := m) (t := n)).1
  exact ⟨_,by rw [listing_eq,h]; rfl,stems_ascending_iff hfiles⟩

theorem listing_ascending_two : ∃ names, listing World.surroundings
      (savedIn World.surroundings [(['b'],['x']),(['a'],['y'])] World.bare) = .ok names ∧
    names.Nodup ∧ names.Pairwise fun a b => utf8 a < utf8 b := by
  have hfiles : (World.surroundings.answer
      (savedIn World.surroundings [(['b'],['x']),(['a'],['y'])] World.bare) (.list .prompts)).1 =
        .ok ["a.txt".toList,"b.txt".toList] := rfl
  obtain ⟨names,hl,-,hd,hi⟩ := listing_ascending_iff World.surroundings
    [(['b'],['x']),(['a'],['y'])] World.bare hfiles
  obtain rfl : [['a'],['b']] = names := Except.ok.inj hl
  refine ⟨_,hl,hd,hi.2 fun a r ha hr => .inl ?_⟩
  have hlen : ∀ t ∈ [['a'],['b']], t.length = 1 := by decide
  have har : a.length + r.length = 1 := by
    rw [← List.length_append]
    exact hlen _ hr
  have ha := hlen a ha
  exact List.eq_nil_of_length_eq_zero (by omega)

/-- A name and another that goes on behind it with a hyphen, which is less than a dot. -/
theorem listing_hyphen : ¬ ∀ saves names,
    listing World.surroundings (savedIn World.surroundings saves World.bare) = .ok names →
      names.Pairwise fun a b => utf8 a < utf8 b := by
  intro h
  have hab := h [(['a'],['x']),("a-b".toList,['y'])] ["a-b".toList,['a']] rfl
  exact absurd hab (by decide)

theorem lastSaved_ne_none_iff {saves : Savings} {file : Text} :
    lastSaved saves file ≠ none ↔ ∃ x ∈ saves, fileOf? x.1 = some file := by
  simp [lastSaved]

/-- In memory: the names come in order if and only if no two that were saved stand in the way. -/
theorem savedTo_ascending_iff (base : World) (s : MemoryStore) (saves : Savings) :
    ∃ names, listedIn (savedTo base s saves) = .ok names ∧
      ((names.Pairwise fun a b => utf8 a < utf8 b) ↔ ∀ x ∈ saves, ∀ y ∈ saves, ∀ a r,
        fileOf? x.1 = some (a ++ fileSuffix) → fileOf? y.1 = some (a ++ r ++ fileSuffix) →
          r = [] ∨ ¬ utf8 r < utf8 fileSuffix) := by
  obtain ⟨s',hw,hr⟩ := savedTo_holds base s saves
  have hmem : ∀ t, t ∈ (s'.list .prompts).filterMap (before? fileSuffix) ↔
      ∃ x ∈ saves, fileOf? x.1 = some (t ++ fileSuffix) := by
    intro t
    have hread : s'.read .prompts (t ++ fileSuffix) ≠ none ↔
        lastSaved saves (t ++ fileSuffix) ≠ none := by simp [hr]
    simp only [List.mem_filterMap,before?_eq_some_iff,exists_eq_right]
    rw [← lastSaved_ne_none_iff,← hread]
    exact MemoryStore.mem_list_iff
  rw [hw]
  refine ⟨_,congrArg Prod.fst (comes_list base s' 0 base.clock).1,?_⟩
  rw [(stems_ascending_iff (s'.list_ascending .prompts)).2.2]
  simp only [hmem]
  constructor
  · exact fun h x hx y hy a r ha hb => h a r ⟨x,hx,ha⟩ ⟨y,hy,hb⟩
  · rintro h a r ⟨x,hx,ha⟩ ⟨y,hy,hb⟩
    exact h x hx y hy a r ha hb

end Prompt
end Workbench
