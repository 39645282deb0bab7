import Mathlib.Data.List.Infix
import Workbench.Proofs.Prompt.Listing
import Workbench.Proofs.Store.Interchange
set_option autoImplicit false

/-!
The library of prompt templates on a disk. What is saved there is listed from then on, apart from
templates whose names begin as those of temporary files do: the store takes them for such files.
-/
namespace Workbench
open Text File StoreOnDisk

namespace Prompt

/-- Safe characters in front of a name stay, and no others become them, the low line apart. -/
theorem prefix_map_iff {k t : Text} (h : ∀ c ∈ k, isSafe c = true ∧ c ≠ '_') :
    k <+: t.map (fun c => if isSafe c then c else '_') ↔ k <+: t := by
  induction k generalizing t with
  | nil => simp
  | cons c k ih =>
    cases t with
    | nil => simp
    | cons d t =>
      obtain ⟨⟨hs,hne⟩,hk⟩ := List.forall_mem_cons.1 h
      have hd : c = (if isSafe d then d else '_') ↔ c = d := by
        by_cases hd : isSafe d = true
        · rw [if_pos hd]
        · rw [if_neg hd]
          exact ⟨fun he => absurd he hne,fun he => absurd (he ▸ hs) hd⟩
      rw [List.map_cons,List.cons_prefix_cons,List.cons_prefix_cons,ih hk,hd]

/-- The mark is in front of what the suffix was added to, for it does not end in a part of it. -/
theorem marked_withSuffix {t : Text} : temporaryMark <+: withSuffix t ↔ temporaryMark <+: t := by
  rw [withSuffix]
  split
  · rfl
  refine ⟨fun h => ?_,fun h => h.trans (List.prefix_append _ _)⟩
  rcases List.prefix_or_prefix_of_prefix h (List.prefix_append t fileSuffix) with hp | ⟨v,hv⟩
  · exact hp
  have hends : ∀ v ∈ fileSuffix.inits, v <:+ temporaryMark → v = [] := by decide
  rw [← hv,List.prefix_append_right_inj] at h
  have hnil := hends v ((List.mem_inits _ _).2 h) ⟨t,hv⟩
  rw [← hv,hnil,List.append_nil]

theorem marked_guarded {t : Text} : temporaryMark <+: guarded t ↔ temporaryMark <+: t := by
  constructor
  · intro h
    rcases guarded_eq t with hg | ⟨hg,-⟩
    · obtain ⟨u,hu⟩ := hg ▸ h
      exact absurd (List.cons.inj hu).1 (by decide)
    · rwa [hg] at h
  · rintro ⟨u,rfl⟩
    have hg : guarded (temporaryMark ++ u) = temporaryMark ++ u := rfl
    rw [hg]
    exact List.prefix_append _ _

/-- The file of a template is marked as a temporary one if and only if the name is. -/
theorem marked_file {name file : Text} (h : fileOf? name = some file) :
    temporaryMark <+: file ↔ temporaryMark <+: trim name := by
  have hsafe : ∀ c ∈ temporaryMark, isSafe c = true ∧ c ≠ '_' := by decide
  rw [(fileOf?_eq_some h).2,marked_guarded,marked_withSuffix,prefix_map_iff hsafe]

end Prompt

/-- Surroundings whose store is on the disk and holds what `s` holds. -/
structure World.Holding (here : Place) (root : Text) (w : World) (s : MemoryStore) : Prop where
  store : w.store = .onDisk root
  willing : w.refusals = .none
  current : w.disk.current = here
  holds : Holds root w.disk s

namespace World.Holding
open Prompt
variable {here : Place} {root : Text} {w : World} {s : MemoryStore} (h : w.Holding here root s)
include h

theorem write (a : Area) {n : Text} (hn : LastingName n) (c : Bytes) :
    (Writable here root a n ∧ (w.write a n c).1 = .ok () ∧
      (w.write a n c).2.Holding here root (s.write a n c)) ∨
    (¬ Writable here root a n ∧ (∃ r, (w.write a n c).1 = .error r) ∧
      (w.write a n c).2.Holding here root s) := by
  have hcur := (write_current w.disk root a n c).trans h.current
  rw [w.write_onDisk h.store h.willing,← h.current]
  rcases h.holds.write a hn c with ⟨hf,d',hd,hs⟩ | ⟨hf,d',r,hd,hs⟩
  · rw [hd] at hcur ⊢
    exact .inl ⟨hf,rfl,h.store,h.willing,hcur.trans h.current.symm,hs⟩
  · rw [hd] at hcur ⊢
    exact .inr ⟨hf,⟨r,rfl⟩,h.store,h.willing,hcur.trans h.current.symm,hs⟩

/-- One saving: the template is taken if it has a file and the disk has room for that. -/
theorem saving (x : Text × Text) :
    (∃ file, fileOf? x.1 = some file ∧ Writable here root .prompts file ∧
      (saving surroundings x w).1 = .ok file ∧
      (saving surroundings x w).2.Holding here root (s.write .prompts file (utf8 x.2))) ∨
    ((∀ file, fileOf? x.1 = some file → ¬ Writable here root .prompts file) ∧
      (∃ f, (saving surroundings x w).1 = .error f) ∧ (saving surroundings x w).2.Holding here root s) := by
  cases hf : fileOf? x.1 with
  | none =>
    rw [saving_blank _ hf]
    exact .inr ⟨by simp,⟨_,rfl⟩,h⟩
  | some file =>
    rw [saving_file _ hf]
    rcases h.write .prompts (Key.template hf).lasting (utf8 x.2) with ⟨hfit,hok,hs⟩ | ⟨hfit,⟨r,hr⟩,hs⟩
    · have hok : (surroundings.answer w (.write .prompts file (utf8 x.2))).1 = .ok () := hok
      exact .inl ⟨file,rfl,hfit,by rw [hok]; rfl,hs⟩
    · have hr : (surroundings.answer w (.write .prompts file (utf8 x.2))).1 = .error r := hr
      refine .inr ⟨?_,⟨_,by rw [hr]; rfl⟩,hs⟩
      rintro _ ⟨⟩
      exact hfit

theorem savedIn (saves : Savings) : ∃ s', (savedIn surroundings saves w).Holding here root s' ∧
    ∀ file, s.read .prompts file ≠ none → s'.read .prompts file ≠ none := by
  induction saves generalizing w s with
  | nil => exact ⟨s,h,fun _ => id⟩
  | cons x saves ih =>
    rcases h.saving x with ⟨file,-,-,-,hs⟩ | ⟨-,-,hs⟩
    · obtain ⟨s',hs',hk⟩ := ih hs
      refine ⟨s',hs',fun f hf => hk f ?_⟩
      by_cases he : f = file
      · rw [he,s.read_write_self]
        simp
      · rwa [s.read_write_other _ (.inr he)]
    · exact ih hs

theorem listing : ∃ names, listing surroundings w = .ok names ∧ ∀ t, t ∈ names ↔
    s.read .prompts (t ++ fileSuffix) ≠ none ∧ ¬ temporaryMark <+: t ++ fileSuffix := by
  have hw : (surroundings.answer w (.list .prompts)).1 =
      .ok ((s.list .prompts).filter fun m => !(after? temporaryMark m).isSome) :=
    (w.list_onDisk h.store h.willing .prompts).trans (h.holds.list .prompts)
  refine ⟨_,by rw [listing_eq,hw]; rfl,fun t => ?_⟩
  simp only [List.mem_filterMap,before?_eq_some_iff,exists_eq_right,List.mem_filter,
    MemoryStore.mem_list_iff,Bool.not_eq_true',← Bool.not_eq_true,after?_isSome_iff]

theorem listed {x : Text × Text} {file : Text} (hf : fileOf? x.1 = some file)
    (hfit : Writable here root .prompts file) : ∃ stem, file = stem ++ fileSuffix ∧ ∀ later, ∃ names,
      Prompt.listing surroundings
        (Prompt.savedIn surroundings later (Prompt.saving surroundings x w).2) = .ok names ∧
      (stem ∈ names ↔ ¬ temporaryMark <+: trim x.1) := by
  obtain ⟨stem,-,hstem⟩ := (Key.template hf).suffixed
  refine ⟨stem,hstem,fun later => ?_⟩
  rcases h.saving x with ⟨f,hf',-,-,hs⟩ | ⟨hno,-⟩
  · obtain rfl : file = f := Option.some.inj (hf.symm.trans hf')
    obtain ⟨s',hs',hkept⟩ := hs.savedIn later
    obtain ⟨names,hnames,hmem⟩ := hs'.listing
    refine ⟨names,hnames,?_⟩
    have hread : s'.read .prompts file ≠ none := hkept _ (by rw [s.read_write_self]; simp)
    rw [hmem,← show file = stem ++ fileSuffix from hstem,marked_file hf]
    exact and_iff_right hread
  · exact absurd hfit (hno file hf)

end World.Holding

namespace Prompt

def onEmptyDisk : World := World.bare.backedBy (.onDisk "store".toList)

theorem vacant_onEmptyDisk : Vacant onEmptyDisk.disk "store".toList := by
  have hm : Missing ⟨[],[]⟩ (joinWith ['/'] ["store".toList]) := missing_of_names (by simp) (by decide)
  exact .inr hm

/-- On a disk, begun where nothing is yet: a saving succeeds if and only if its template has a file
that the disk has room for. The template is listed from then on, whatever is saved after it, if and
only if its name does not begin as those of temporary files do. -/
theorem saved_listed_iff {w : World} {root : Text} (hs : w.store = .onDisk root)
    (hr : w.refusals = .none) (hv : Vacant w.disk root) (saves : Savings) (x : Text × Text) :
    let v := savedIn World.surroundings saves w
    (∀ file, (saving World.surroundings x v).1 = .ok file ↔
      fileOf? x.1 = some file ∧ Writable w.disk.current root .prompts file) ∧
    ∀ file, (saving World.surroundings x v).1 = .ok file → ∃ stem, file = stem ++ fileSuffix ∧
      ∀ later, ∃ names, listing World.surroundings
        (savedIn World.surroundings later (saving World.surroundings x v).2) = .ok names ∧
      (stem ∈ names ↔ ¬ temporaryMark <+: trim x.1) := by
  intro v
  obtain ⟨s,hw,-⟩ := World.Holding.savedIn ⟨hs,hr,rfl,.start hv⟩ saves
  have hok : ∀ file, (saving World.surroundings x v).1 = .ok file ↔
      fileOf? x.1 = some file ∧ Writable w.disk.current root .prompts file := by
    intro file
    rcases hw.saving x with ⟨f,hf,hfit,hsave,-⟩ | ⟨hno,⟨f,hsave⟩,-⟩
    · rw [hsave,hf]
      constructor
      · rintro ⟨⟩
        exact ⟨rfl,hfit⟩
      · rintro ⟨⟨⟩,-⟩
        rfl
    · rw [hsave]
      constructor
      · rintro ⟨⟩
      · rintro ⟨hf,hfit⟩
        exact absurd hfit (hno file hf)
  refine ⟨hok,fun file hsave => ?_⟩
  obtain ⟨hf,hfit⟩ := (hok file).1 hsave
  exact hw.listed hf hfit

theorem saved_listed_plain :
    let v := saving World.surroundings (['a'],['x']) onEmptyDisk
    v.1 = .ok "a.txt".toList ∧ ∃ names, listing World.surroundings v.2 = .ok names ∧ ['a'] ∈ names := by
  intro v
  obtain ⟨hok,hlisted⟩ := saved_listed_iff (w := onEmptyDisk) rfl rfl vacant_onEmptyDisk []
    (['a'],['x'])
  have hsave : v.1 = .ok "a.txt".toList := (hok _).2 (by decide)
  obtain ⟨stem,hstem,hlater⟩ := hlisted _ hsave
  obtain ⟨names,hnames,hmem⟩ := hlater []
  obtain rfl : ['a'] = stem := List.append_cancel_right hstem
  exact ⟨hsave,names,hnames,hmem.2 (by decide)⟩

/-- A template that is called what the names of temporary files begin with is taken, and not listed. -/
theorem saved_unlisted : ¬ ∀ saves x file,
    (saving World.surroundings x (savedIn World.surroundings saves onEmptyDisk)).1 = .ok file →
      ∃ stem, file = stem ++ fileSuffix ∧ ∀ later, ∃ names, listing World.surroundings
        (savedIn World.surroundings later
          (saving World.surroundings x (savedIn World.surroundings saves onEmptyDisk)).2) =
            .ok names ∧ stem ∈ names := by
  intro h
  have hw : onEmptyDisk.Holding [] "store".toList .empty :=
    ⟨rfl,rfl,rfl,.start vacant_onEmptyDisk⟩
  have hf : fileOf? temporaryMark = some (temporaryMark ++ fileSuffix) := by decide
  have hfit : Writable [] "store".toList .prompts (temporaryMark ++ fileSuffix) := by decide
  rcases hw.saving (temporaryMark,['x']) with ⟨file,hf',-,hsave,-⟩ | ⟨hno,-⟩
  · obtain rfl : file = temporaryMark ++ fileSuffix := Option.some.inj (hf'.symm.trans hf)
    obtain ⟨stem,hstem,hlisted⟩ := h [] (temporaryMark,['x']) _ hsave
    obtain ⟨names,hnames,hmem⟩ := hlisted []
    obtain ⟨stem',hstem',hlisted'⟩ := hw.listed (x := (temporaryMark,['x'])) hf hfit
    obtain ⟨names',hnames',hmem'⟩ := hlisted' []
    obtain rfl : stem = stem' := List.append_cancel_right (hstem.symm.trans hstem')
    obtain rfl : names = names' := Except.ok.inj (hnames.symm.trans hnames')
    exact hmem'.1 hmem (by decide)
  · exact hno _ hf hfit

end Prompt
end Workbench
