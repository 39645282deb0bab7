import Mathlib.Algebra.Ring.Nat
import Workbench.Proofs.File.Disk
import Workbench.Proofs.File.Path
import Workbench.Proofs.Text.Utf8
import Workbench.Store.OnDisk
set_option autoImplicit false

/-!
Paths as texts and as the names that are followed on a disk: the names are those between the slashes of
the text, and they are the same, dots left aside, when the path is written again from its components.
-/
namespace Workbench.File
open Text StoreOnDisk

theorem slash_not_mem_utf8Char {c : Char} (h : c ≠ '/') : (47 : UInt8) ∉ utf8Char c := by
  intro hm
  rcases byte_of_mem_utf8Char hm with ⟨_,e⟩ | ⟨_,e⟩
  · exact h (Char.toNat_inj.1 e.symm)
  · simp at e

theorem splitSlashes_of_not_mem {bs : Bytes} (h : (47 : UInt8) ∉ bs) (rest n : Bytes)
    (ns : List Bytes) (hr : splitSlashes rest = n :: ns) :
    splitSlashes (bs ++ rest) = (bs ++ n) :: ns := by
  induction bs with
  | nil => exact hr
  | cons b bs ih =>
    simp only [List.mem_cons,not_or] at h
    simp [splitSlashes,Ne.symm h.1,ih h.2]

theorem splitSlashes_utf8 (t : Text) : splitSlashes (utf8 t) = (splitOn '/' t).map utf8 := by
  induction t with
  | nil => rfl
  | cons c t ih =>
    by_cases hc : c = '/'
    · subst hc
      rw [splitOn_sep,List.map_cons,← ih]
      rfl
    · obtain ⟨w,ws,e,f⟩ := splitOn_other hc t
      rw [e,List.map_cons] at ih
      rw [f,List.map_cons,utf8_cons,utf8_cons]
      exact splitSlashes_of_not_mem (slash_not_mem_utf8Char hc) _ _ _ ih

theorem utf8_eq_nil_iff {t : Text} : utf8 t = [] ↔ t = [] :=
  ⟨fun h => utf8_injective h,fun h => by rw [h]; rfl⟩

theorem filter_map_utf8 (ps : List Text) :
    (ps.map utf8).filter (fun n => !n.isEmpty) = (ps.filter (· ≠ [])).map utf8 := by
  rw [List.filter_map]
  congr 2
  funext p
  cases p with
  | nil => rfl
  | cons c p =>
    have h : utf8 (c :: p) ≠ [] := fun h => absurd (utf8_eq_nil_iff.1 h) (List.cons_ne_nil _ _)
    simp [h]

theorem names_utf8 (t : Text) : names (utf8 t) = ((splitOn '/' t).filter (· ≠ [])).map utf8 := by
  rw [names,splitSlashes_utf8,filter_map_utf8]

/-- The bytes that a component is followed by. -/
def trail (cs : List Component) : List Bytes :=
  ((cs.map upward.piece).filter (· ≠ [])).map utf8

theorem trail_append (cs ds : List Component) : trail (cs ++ ds) = trail cs ++ trail ds := by
  simp [trail]

theorem trail_name {n : Text} (h : PlainName n) : trail [.name n] = [utf8 n] := by
  simp [trail,upward.piece,h.filled]

theorem dotName_eq : dotName = utf8 ['.'] := rfl

theorem trail_lead (ps : List Text) : (trail (lead ps)).filter (· ≠ dotName) = [] := by
  unfold lead
  split
  · rfl
  · rfl
  · rfl

theorem trail_pieces (ps : List Text) : trail (ps.filterMap Component.ofPiece?) =
    ((ps.filter (· ≠ [])).map utf8).filter (· ≠ dotName) := by
  induction ps with
  | nil => rfl
  | cons p ps ih =>
    by_cases hn : p = []
    · subst hn
      have hs : ([] :: ps).filterMap Component.ofPiece? = ps.filterMap Component.ofPiece? := rfl
      rw [hs,ih]
      simp
    by_cases hd : p = ['.']
    · subst hd
      have hs : (['.'] :: ps).filterMap Component.ofPiece? = ps.filterMap Component.ofPiece? := rfl
      rw [hs,ih]
      simp [dotName_eq]
    have hu : utf8 p ≠ dotName := fun h => hd (utf8_injective h)
    by_cases hp : p = ['.','.']
    · subst hp
      have hs : (['.','.'] :: ps).filterMap Component.ofPiece? =
        [.up] ++ ps.filterMap Component.ofPiece? := rfl
      rw [hs,trail_append,ih]
      rfl
    · have hs : (p :: ps).filterMap Component.ofPiece? =
          [.name p] ++ ps.filterMap Component.ofPiece? := by
        simp [Component.ofPiece?,hn,hd,hp]
      rw [hs,trail_append,ih]
      simp [trail,upward.piece,hn,hu]

theorem trail_components (path : Text) : (trail (components path)).filter (· ≠ dotName) =
    (names (utf8 path)).filter (· ≠ dotName) := by
  rw [components_eq,trail_append,List.filter_append,trail_lead,trail_pieces,names_utf8]
  simp

theorem walk_names (d : Disk) (links : Nat) (here : Place) (path : Text) {rest : List Bytes}
    (hr : rest ≠ []) : d.walk true links here (names (utf8 path) ++ rest) =
      d.walk true links here (trail (components path) ++ rest) := by
  rw [← Disk.walk_dots d links here (names (utf8 path)) hr,← trail_components,
    Disk.walk_dots d links here (trail (components path)) hr]

theorem isAbsolute_utf8 (t : Text) : isAbsolute (utf8 t) = true ↔ t.head? = some '/' := by
  cases t with
  | nil => simp [isAbsolute,utf8]
  | cons c t =>
    by_cases hc : c = '/'
    · subst hc
      simp [isAbsolute,utf8_cons,utf8Char]
    · obtain ⟨b,more,hb,-⟩ := utf8Step_utf8Char c
      have hm := slash_not_mem_utf8Char hc
      rw [hb,List.mem_cons,not_or] at hm
      have hn : b ≠ 47 := Ne.symm hm.1
      rw [isAbsolute,utf8_cons,hb]
      simp [hc,hn]

theorem root_not_mem_ofPiece (ps : List Text) : .root ∉ ps.filterMap Component.ofPiece? := by
  intro h
  obtain ⟨p,-,hp⟩ := List.mem_filterMap.1 h
  rw [Component.ofPiece?] at hp
  split at hp
  · simp at hp
  · split at hp <;> simp at hp

theorem isAbsolute_path (path : Text) :
    isAbsolute (utf8 path) = true ↔ (components path).head? = some .root := by
  rw [isAbsolute_utf8,components_eq]
  have hr : ∀ ps : List Text, (ps.filterMap Component.ofPiece?).head? ≠ some Component.root :=
    fun ps h => root_not_mem_ofPiece ps (List.mem_of_mem_head? h)
  cases path with
  | nil => simp [splitOn,splitWhere,lead,Component.ofPiece?]
  | cons c t =>
    by_cases hc : c = '/'
    · subst hc
      obtain ⟨w,ws,hw⟩ := List.exists_cons_of_ne_nil (splitWhere_ne_nil (· == '/') t)
      rw [splitOn_sep,show splitOn '/' t = w :: ws from hw]
      simp [lead]
    · obtain ⟨w,ws,-,f⟩ := splitOn_other hc t
      rw [f]
      by_cases hd : c :: w = ['.']
      · rw [hd]
        simp [lead,hc]
      · rw [lead_of_ne (List.cons_ne_nil _ _) hd,List.nil_append]
        simp only [hr]
        simp [hc]

theorem start_path (d : Disk) (path : Text) : d.start (utf8 path) =
    if (components path).head? = some .root then [] else d.current := by
  simp [Disk.start,isAbsolute_path]

theorem endsInSlash_name (t : Text) {n : Text} (h : PlainName n) :
    endsInSlash (utf8 (t ++ n)) = false := by
  have hn := List.dropLast_concat_getLast h.filled
  have hc : n.getLast h.filled ≠ '/' := fun e => h.whole (e ▸ List.getLast_mem h.filled)
  generalize n.getLast h.filled = c at hn hc
  have hu : utf8 (t ++ n) = utf8 (t ++ n.dropLast) ++ utf8Char c := by
    rw [← hn,← List.append_assoc,utf8_append]
    simp [utf8]
  rw [endsInSlash,hu,List.getLast?_append]
  cases hl : (utf8Char c).getLast? with
  | none =>
    obtain ⟨b,more,hb,-⟩ := utf8Step_utf8Char c
    simp [hb] at hl
  | some l =>
    have hs : l ≠ 47 := fun e => slash_not_mem_utf8Char hc (e ▸ List.mem_of_getLast? hl)
    simpa using hs

theorem names_slash {n : Text} (hn : n ≠ []) (hw : '/' ∉ n) (u : Text) :
    names (utf8 (u ++ ['/'] ++ n)) = names (utf8 u) ++ [utf8 n] := by
  have hf : [n].filter (· ≠ []) = [n] := by simp [hn]
  rw [names_utf8,List.append_assoc,List.singleton_append,splitOn_append,(splitOn_piece hw []).1,
    List.filter_append,hf,List.map_append,← names_utf8]
  rfl

section
variable (base : Text) {n : Text} (h : PlainName n)
include h

theorem exists_join : ∃ u, join base n = u ++ n := by
  rw [join_plain base h]
  split
  · exact ⟨base,rfl⟩
  · exact ⟨base ++ ['/'],rfl⟩

theorem names_join : names (utf8 (join base n)) = names (utf8 base) ++ [utf8 n] := by
  have hs := (splitOn_piece h.whole []).1
  have hf : [n].filter (· ≠ []) = [n] := by simp [h.filled]
  rw [join_plain base h]
  by_cases hb : base = []
  · rw [if_pos (.inl hb),hb,List.nil_append,names_utf8,hs,hf]
    rfl
  by_cases he : endsWith ['/'] base = true
  · obtain ⟨u,rfl⟩ := endsWith_iff.1 he
    rw [if_pos (.inr he),names_slash h.filled h.whole,names_utf8 (u ++ ['/']),splitOn_append,
      List.filter_append,List.map_append,← names_utf8]
    simp [splitOn,splitWhere]
  · rw [if_neg (by simp [hb,he]),names_slash h.filled h.whole]

theorem endsInSlash_join : endsInSlash (utf8 (join base n)) = false := by
  obtain ⟨u,hu⟩ := exists_join base h
  rw [hu,endsInSlash_name u h]

theorem start_join (d : Disk) : d.start (utf8 (join base n)) = d.start (utf8 base) := by
  rw [start_path,start_path,components_join base h]
  cases components base <;> simp

end

def written (cs : List Component) : Bytes := utf8 (upward.render cs)

/-- The names among components can be components. -/
def Plain (cs : List Component) : Prop := ∀ n, .name n ∈ cs → PlainName n

theorem Plain.piece {cs : List Component} (h : Plain cs) :
    ∀ p ∈ cs.map upward.piece, '/' ∉ p := by
  intro p hp
  obtain ⟨c,hc,rfl⟩ := List.mem_map.1 hp
  cases c with
  | name n => exact (h n hc).whole
  | _ => simp [upward.piece]

theorem plain_append {cs : List Component} (h : Plain cs) {ns : List Text}
    (hn : ∀ n ∈ ns, PlainName n) : Plain (cs ++ ns.map .name) := by
  intro m hm
  rcases List.mem_append.1 hm with hm | hm
  · exact h m hm
  · obtain ⟨n,hns,e⟩ := List.mem_map.1 hm
    rw [← Component.name.inj e]
    exact hn n hns

theorem plain_components (path : Text) : Plain (components path) := fun _ => plainName_of_mem

def NulFree (cs : List Component) : Prop := ∀ n, .name n ∈ cs → '\x00' ∉ n

theorem NulFree.subset {cs ds : List Component} (h : NulFree ds) (hs : cs ⊆ ds) : NulFree cs :=
  fun n hn => h n (hs hn)

theorem NulFree.concat {cs : List Component} (h : NulFree cs) {n : Text} (hn : '\x00' ∉ n) :
    NulFree (cs ++ [.name n]) := by
  intro m hm
  rcases List.mem_append.1 hm with hm | hm
  · exact h m hm
  · rw [Component.name.inj (List.mem_singleton.1 hm)]
    exact hn

theorem contains_zero {t : Text} (h : '\x00' ∉ t) : (utf8 t).contains 0 = false := by
  simpa using zero_not_mem_utf8 h

theorem NulFree.written {cs : List Component} (h : NulFree cs) : (written cs).contains 0 = false := by
  refine contains_zero fun hm => ?_
  have hj : '\x00' ∉ joinWith ['/'] (cs.map upward.piece) := by
    intro hm
    rcases mem_joinWith hm with hm | ⟨p,hp,hm⟩
    · exact absurd hm (by decide)
    · obtain ⟨c,hc,rfl⟩ := List.mem_map.1 hp
      cases c with
      | name n => exact h n hc hm
      | _ => exact absurd hm (by decide)
  unfold upward.render at hm
  split at hm
  · exact absurd hm (by decide)
  · exact hj hm

/-- The length of pieces with a separator behind each. -/
def extent (ps : List Text) : Nat := (ps.map fun p => (utf8 p).length+1).sum

theorem extent_joinWith {ps : List Text} (h : ps ≠ []) :
    (utf8 (joinWith ['/'] ps)).length + 1 = extent ps := by
  induction ps using joinWith.induct with
  | case1 => exact absurd rfl h
  | case2 p => simp [joinWith,extent]
  | case3 p ps hp ih =>
    have hs : (utf8 ['/']).length = 1 := rfl
    have := ih (by simpa using hp)
    rw [joinWith.eq_3 _ p ps hp,utf8_append,utf8_append,List.length_append,List.length_append,hs]
    simp only [extent,List.map_cons,List.sum_cons] at this ⊢
    omega

theorem extent_le {ps qs : List Text} (h : ps.Sublist qs) : extent ps ≤ extent qs := by
  induction h with
  | slnil => exact Nat.le_refl _
  | cons q _ ih => exact Nat.le_trans ih (Nat.le_add_left _ _)
  | cons_cons q _ ih => exact Nat.add_le_add_left ih _

theorem pieces_sublist (ps : List Text) :
    ((ps.filterMap Component.ofPiece?).map upward.piece).Sublist ps := by
  induction ps with
  | nil => exact List.Sublist.refl _
  | cons p ps ih =>
    cases hp : Component.ofPiece? p with
    | none =>
      rw [List.filterMap_cons_none hp]
      exact ih.cons p
    | some c =>
      have hc : upward.piece c = p := by
        rw [Component.ofPiece?] at hp
        split at hp
        · simp at hp
        · split at hp
          · rename_i hu
            rw [← Option.some.inj hp,hu]
            rfl
          · rw [← Option.some.inj hp]
            rfl
      rw [List.filterMap_cons_some hp,List.map_cons,hc]
      exact ih.cons_cons p

theorem components_sublist (path : Text) :
    ((components path).map upward.piece).Sublist (splitOn '/' path) := by
  rw [components_eq]
  generalize splitOn '/' path = ps
  unfold lead
  split
  · rename_i p ps
    exact (pieces_sublist (p :: ps)).cons_cons []
  · rename_i ps
    exact (pieces_sublist ps).cons_cons ['.']
  · exact pieces_sublist _

theorem nulFree_components {path : Text} (h : '\x00' ∉ path) : NulFree (components path) := by
  intro n hn hz
  have hp : n ∈ splitOn '/' path :=
    (components_sublist path).subset (List.mem_map_of_mem (f := upward.piece) hn)
  refine h ?_
  rw [← joinWith_splitOn path]
  exact mem_joinWith_of_mem hp hz

section
variable {cs : List Component} (hc : Plain cs) {n : Text} (hn : PlainName n)

theorem render_name (cs : List Component) (n : Text) : upward.render (cs ++ [.name n]) =
    joinWith ['/'] (cs.map upward.piece ++ [n]) := by
  unfold upward.render
  split
  · rename_i h
    have hl := congrArg List.getLast? h
    simp at hl
  · rw [List.map_append]
    rfl

theorem exists_written (cs : List Component) (n : Text) :
    ∃ u, written (cs ++ [.name n]) = utf8 (u ++ n) := by
  have h : ∀ ps : List Text, ∃ u, joinWith ['/'] (ps ++ [n]) = u ++ n := by
    intro ps
    induction ps with
    | nil => exact ⟨[],rfl⟩
    | cons p ps ih =>
      obtain ⟨u,hu⟩ := ih
      rw [List.cons_append,joinWith.eq_3 _ p _ (by simp),hu]
      exact ⟨p ++ ['/'] ++ u,by simp⟩
  obtain ⟨u,hu⟩ := h (cs.map upward.piece)
  rw [written,render_name]
  exact ⟨u,congrArg utf8 hu⟩

include hc hn

theorem names_written : names (written (cs ++ [.name n])) = trail cs ++ [utf8 n] := by
  have hp : cs.map upward.piece ++ [n] = (cs ++ [n].map Component.name).map upward.piece := by
    rw [List.map_append]
    rfl
  have hw := (plain_append hc fun m hm => List.mem_singleton.1 hm ▸ hn).piece
  rw [written,render_name,names_utf8,hp,splitOn_joinWith (by simp) hw,← trail,trail_append,
    List.map_singleton,trail_name hn]

theorem start_written (d : Disk) : d.start (written (cs ++ [.name n])) =
    if cs.head? = some .root then [] else d.current := by
  simp only [written,render_name,Disk.start,isAbsolute_utf8]
  cases cs with
  | nil =>
    have hh : n.head? ≠ some '/' := fun e => hn.whole (List.mem_of_mem_head? e)
    simp [joinWith,hh]
  | cons c cs =>
    rw [List.map_cons,List.cons_append,joinWith.eq_3 _ _ _ (by simp)]
    cases c with
    | name m =>
      have hm := hc m List.mem_cons_self
      obtain ⟨a,u,rfl⟩ := List.exists_cons_of_ne_nil hm.filled
      have ha : a ≠ '/' := fun e => hm.whole (e ▸ List.mem_cons_self)
      simp [upward.piece,ha]
    | _ => simp [upward.piece]

end

theorem length_render (cs : List Component) (n : Text) :
    (written (cs ++ [.name n])).length + 1 = extent ((cs ++ [Component.name n]).map upward.piece) := by
  rw [written,render_name,extent_joinWith (by simp),List.map_append]
  rfl

/-- What more is written behind components makes the path no shorter. -/
theorem length_written_le {cs ds : List Component} {m n : Text}
    (h : cs ++ [.name m] <+: ds ++ [.name n]) :
    (written (cs ++ [.name m])).length ≤ (written (ds ++ [.name n])).length := by
  have := length_render cs m
  have := length_render ds n
  have := extent_le (h.sublist.map upward.piece)
  omega

theorem length_written {path n : Text} {cs more : List Component}
    (h : components path = cs ++ [.name n] ++ more) :
    (written (cs ++ [.name n])).length ≤ (utf8 path).length := by
  have hs : ((cs ++ [Component.name n]).map upward.piece).Sublist (splitOn '/' path) := by
    refine List.Sublist.trans ?_ (components_sublist path)
    rw [h]
    exact (List.sublist_append_left _ more).map upward.piece
  have hl := length_render cs n
  have hp := extent_joinWith (splitWhere_ne_nil (· == '/') path)
  have hj := show joinWith ['/'] (splitOn '/' path) = path from joinWith_splitOn path
  rw [show splitWhere (· == '/') path = splitOn '/' path from rfl,hj] at hp
  have := extent_le hs
  omega

end Workbench.File
