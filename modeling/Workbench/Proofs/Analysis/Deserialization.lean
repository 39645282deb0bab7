import Workbench.Analysis.Structure
import Workbench.Proofs.Analysis.Findings
import Workbench.Proofs.Source.Import
set_option autoImplicit false

/-!
Imports of the module that restores objects. Two readers see them: the outline of a text takes every
module of a list, while the rule looks at the word behind the keyword. So the rule follows the
outline, except where lists alone name the module, and all of them behind another one.
-/
namespace Workbench.Analysis
open Text Source Pattern

def pickleNames : List Text :=
  ["pickle".toList,"Pickle".toList,"cPickle".toList,"cpickle".toList]

/-- The name stands right behind the keyword, and no word goes on into the keyword or from the name. -/
inductive ImportOf (p : Text) : Text → Prop
  | module {b x : Text} (blank : SomeBlanks b) (ends : edge x.head? = true) :
    ImportOf p ("import".toList ++ (b ++ (p ++ x)))
  | names {b d x : Text} (blank : SomeBlanks b) (between : SomeBlanks d) (ends : edge x.head? = true) :
    ImportOf p ("from".toList ++ (b ++ (p ++ (d ++ ("import".toList ++ x)))))

def NamedFirst (p code : Text) : Prop := ∃ u v, code = u ++ v ∧ edge u.getLast? = true ∧ ImportOf p v

/-- A list of modules that names `m`, but not by its first item. -/
def ListsLater (m v : Text) : Prop := ∃ b l r w ws, v = "import".toList ++ (b ++ (l ++ r)) ∧
  SomeBlanks b ∧ l.head?.any isBlank = false ∧ (∀ c ∈ l, endsList c = false) ∧
  r.head?.all endsList = true ∧ splitOn ',' l = w :: ws ∧ listedModule? w ≠ some m ∧
  m ∈ ws.filterMap listedModule?

/-- Every statement of the text that names `m` is such a list, and there is one. -/
def OnlyListedLater (m code : Text) : Prop := (∃ ms v, Stands ms v code ∧ m ∈ ms) ∧
  ∀ ms v, Stands ms v code → m ∈ ms → ListsLater m v

theorem pickle?_eq_some_iff {t r : Text} : pickle? t = some r ↔ ∃ p ∈ pickleNames, t = p ++ r := by
  constructor
  · intro h
    rw [pickle?] at h
    split at h
    · simp at h
    · rename_i v hv
      obtain ⟨d,hd,hu⟩ := one?_eq_some_iff.1 hv
      have hd : d = 'P' ∨ d = 'p' := by simpa using hd
      rw [after?_eq_some_iff.1 h] at hu
      cases hc : one? (· == 'c') t with
      | none =>
        rw [hc,Option.getD_none] at hu
        rcases hd with rfl | rfl
        · exact ⟨"Pickle".toList,by decide,hu⟩
        · exact ⟨"pickle".toList,by decide,hu⟩
      | some s =>
        obtain ⟨c,hc',rfl⟩ := one?_eq_some_iff.1 hc
        rw [hc,Option.getD_some] at hu
        rw [hu,eq_of_beq hc']
        rcases hd with rfl | rfl
        · exact ⟨"cPickle".toList,by decide,rfl⟩
        · exact ⟨"cpickle".toList,by decide,rfl⟩
  · rintro ⟨p,hp,rfl⟩
    simp only [pickleNames,List.mem_cons,List.not_mem_nil,or_false] at hp
    rcases hp with rfl | rfl | rfl | rfl <;> exact after?_eq_some_iff.2 rfl

theorem head_of_mem_pickleNames {p : Text} (hp : p ∈ pickleNames) (x : Text) :
    (p ++ x).head?.any isBlank = false := by
  simp only [pickleNames,List.mem_cons,List.not_mem_nil,or_false] at hp
  rcases hp with rfl | rfl | rfl | rfl <;> rfl

theorem blanks?_eq_some_iff {t r : Text} : blanks? t = some r ↔
    ∃ b, SomeBlanks b ∧ t = b ++ r ∧ r.head?.any isBlank = false := by
  constructor
  · intro h
    exact blanks?_eq_some h
  · rintro ⟨b,hb,rfl,hr⟩
    exact blanks?_append hb hr

theorem pickleImportHere_iff {v : Text} : pickleImportHere v = true ↔ ∃ p ∈ pickleNames, ∃ b x,
    v = "import".toList ++ (b ++ (p ++ x)) ∧ SomeBlanks b ∧ edge x.head? = true := by
  simp only [pickleImportHere_eq,Option.any_eq_true,after?_eq_some_iff,blanks?_eq_some_iff,
    pickle?_eq_some_iff]
  constructor
  · rintro ⟨t,rfl,r,⟨b,hb,rfl,-⟩,x,⟨p,hp,rfl⟩,hx⟩
    exact ⟨p,hp,b,x,rfl,hb,hx⟩
  · rintro ⟨p,hp,b,x,rfl,hb,hx⟩
    exact ⟨_,rfl,_,⟨b,hb,rfl,head_of_mem_pickleNames hp x⟩,x,⟨p,hp,rfl⟩,hx⟩

theorem pickleFromHere_iff {v : Text} : pickleFromHere v = true ↔ ∃ p ∈ pickleNames, ∃ b d x,
    v = "from".toList ++ (b ++ (p ++ (d ++ ("import".toList ++ x)))) ∧ SomeBlanks b ∧ SomeBlanks d ∧
      edge x.head? = true := by
  simp only [pickleFromHere_eq,Option.any_eq_true,after?_eq_some_iff,blanks?_eq_some_iff,
    pickle?_eq_some_iff]
  constructor
  · rintro ⟨t,rfl,r,⟨b,hb,rfl,-⟩,y,⟨p,hp,rfl⟩,z,⟨d,hd,rfl,-⟩,x,rfl,hx⟩
    exact ⟨p,hp,b,d,x,rfl,hb,hd,hx⟩
  · rintro ⟨p,hp,b,d,x,rfl,hb,hd,hx⟩
    exact ⟨_,rfl,_,⟨b,hb,rfl,head_of_mem_pickleNames hp _⟩,_,⟨p,hp,rfl⟩,_,⟨d,hd,rfl,rfl⟩,x,rfl,hx⟩

theorem found_iff (code : Text) : Issue.unsafeDeserialization.found code = true ↔
    ∃ p ∈ pickleNames, NamedFirst p code := by
  rw [Issue.found,somewhere,somewhereAfter_iff]
  simp only [Option.or_none,Issue.here,deserializationHere,Bool.and_eq_true,Bool.or_eq_true]
  constructor
  · rintro ⟨u,v,e,hu,hv | hv⟩
    · obtain ⟨p,hp,b,x,rfl,hb,hx⟩ := pickleImportHere_iff.1 hv
      exact ⟨p,hp,u,_,e,hu,.module hb hx⟩
    · obtain ⟨p,hp,b,d,x,rfl,hb,hd,hx⟩ := pickleFromHere_iff.1 hv
      exact ⟨p,hp,u,_,e,hu,.names hb hd hx⟩
  · rintro ⟨p,hp,u,v,e,hu,hv⟩
    refine ⟨u,v,e,hu,?_⟩
    cases hv with
    | module hb hx => exact .inl (pickleImportHere_iff.2 ⟨p,hp,_,_,rfl,hb,hx⟩)
    | names hb hd hx => exact .inr (pickleFromHere_iff.2 ⟨p,hp,_,_,_,rfl,hb,hd,hx⟩)

theorem edge_append {a b : Text} (ha : edge a.head? = true) (hb : edge b.head? = true) :
    edge (a ++ b).head? = true := by
  cases a with
  | nil => exact hb
  | cons c a => exact ha

theorem edge_cons {c : Char} (h : isWordChar c = false) (t : Text) :
    edge (c :: t).head? = true := by simp [edge,h]

theorem edge_of_lineEnd {w : Text} (h : LineEnd w) : edge w.head? = true := by
  rcases h with rfl | ⟨u,rfl⟩ | ⟨u,rfl⟩
  · rfl
  · exact edge_cons (by decide) _
  · exact edge_cons (by decide) _

theorem edge_of_listEnd {r : Text} (h : r.head?.all endsList = true) : edge r.head? = true := by
  cases r with
  | nil => rfl
  | cons c r =>
    have hc : c = ';' ∨ c = '#' := by simpa [endsList] using h
    rcases hc with rfl | rfl <;> exact edge_cons (by decide) _

theorem exists_firstItem {l m w : Text} {ws : List Text} (hs : splitOn ',' l = w :: ws)
    (hl : l.head?.any isBlank = false) (hm : listedModule? w = some m) :
    ∃ x, l = m ++ x ∧ edge x.head? = true := by
  have hj : joinWith [','] (splitOn ',' l) = l := joinWith_splitOn l
  rw [hs] at hj
  obtain ⟨y,hy,hw⟩ : ∃ y, l = w ++ y ∧ edge y.head? = true := by
    cases ws with
    | nil => exact ⟨[],by rw [← hj]; simp [joinWith],rfl⟩
    | cons v ws => exact ⟨',' :: joinWith [','] (v :: ws),by rw [← hj]; simp [joinWith],
        edge_cons (by decide) _⟩
  obtain ⟨-,rfl⟩ : isModule (firstWord w) = true ∧ firstWord w = m := by
    simpa [listedModule?] using hm
  have ht : trimStart w = w := by
    refine trimStart_of_head ?_
    cases w with
    | nil => rfl
    | cons c w => simpa [hy] using hl
  obtain ⟨k,e,he,hk,-,-,hn⟩ := exists_span (fun c => !isBlank c) w
  rw [firstWord,ht,hk]
  refine ⟨e ++ y,by rw [hy,he,List.append_assoc],edge_append ?_ hw⟩
  cases e with
  | nil => rfl
  | cons c e => exact edge_cons (isWordChar_of_isBlank (by simpa using hn)) e

/-- A statement that names a module names it right behind the keyword, or it is a list that names it
later. -/
theorem first_or_later {ms : List Text} {v code m : Text} (h : Stands ms v code) (hm : m ∈ ms) :
    NamedFirst m code ∨ ListsLater m v := by
  obtain ⟨u,w,rfl,hu,hv,-,hw⟩ := h
  cases hv with
  | @names b n d r hb hd hr =>
    rw [List.mem_singleton.1 hm]
    have h := ImportOf.names (p := n) hb hd (edge_append hr (edge_of_lineEnd hw))
    exact .inl ⟨u,_,rfl,hu.edge,by simpa using h⟩
  | @list b l r hb hl hi hr =>
    obtain ⟨i,is,hs⟩ := List.exists_cons_of_ne_nil (splitWhere_ne_nil (· == ',') l)
    by_cases h₁ : listedModule? i = some m
    · obtain ⟨x,rfl,hx⟩ := exists_firstItem hs hl h₁
      have h := ImportOf.module (p := m) hb
        (edge_append (edge_append hx (edge_of_listEnd hr)) (edge_of_lineEnd hw))
      exact .inl ⟨u,_,rfl,hu.edge,by simpa using h⟩
    · refine .inr ⟨b,l,r,i,is,rfl,hb,hl,hi,hr,hs,h₁,?_⟩
      obtain ⟨j,hj,hjm⟩ := List.mem_filterMap.1 hm
      rw [splitOn,hs] at hj
      rcases List.mem_cons.1 hj with rfl | hj
      · exact absurd hjm h₁
      · exact List.mem_filterMap.2 ⟨j,hj,hjm⟩

def IsPickle (m : Text) : Prop := ∃ p ∈ pickleNames, m = p ∨ ∃ k, m = p ++ '.' :: k

theorem eq_dot_of_edge {c : Char} {t : Text} (hm : isModulePart c = true)
    (he : edge (c :: t).head? = true) : c = '.' := by
  have hw : isWordChar c = false := by simpa [edge] using he
  rcases Bool.or_eq_true_iff.1 hm with h | h
  · rw [isWordChar_of_isIdentPart h] at hw
    exact absurd hw (by decide)
  · exact eq_of_beq h

theorem startsList_iff {n : Text} (ns : List Text) (h : isModule n = true) :
    (∃ p ∈ pickleNames, ∃ x, joinWith [',',' '] (n :: ns) = p ++ x ∧ edge x.head? = true) ↔
      IsPickle n := by
  obtain ⟨y,hy,he,hc⟩ : ∃ y, joinWith [',',' '] (n :: ns) = n ++ y ∧ edge y.head? = true ∧
      y.head?.all (· == ',') = true := by
    cases ns with
    | nil => exact ⟨[],by simp [joinWith],rfl,rfl⟩
    | cons m ns => exact ⟨',' :: ' ' :: joinWith [',',' '] (m :: ns),by simp [joinWith],
        edge_cons (by decide) _,rfl⟩
  rw [hy]
  constructor
  · rintro ⟨p,hp,x,e,hxe⟩
    rcases List.append_eq_append_iff.1 e with ⟨k,rfl,rfl⟩ | ⟨k,rfl,rfl⟩
    · cases k with
      | nil => exact ⟨_,hp,.inl (by simp)⟩
      | cons c k =>
        have hk : ∀ p ∈ pickleNames, ',' ∉ p := by decide
        have hc : c = ',' := by simpa using hc
        rw [hc] at hp
        exact absurd (by simp) (hk _ hp)
    · cases k with
      | nil => exact ⟨p,hp,.inl (by simp)⟩
      | cons c k =>
        have hd := eq_dot_of_edge (mem_of_isModule h (by simp)) hxe
        exact ⟨p,hp,.inr ⟨k,by rw [hd]⟩⟩
  · rintro ⟨p,hp,rfl | ⟨k,rfl⟩⟩
    · exact ⟨_,hp,y,rfl,he⟩
    · exact ⟨p,hp,'.' :: k ++ y,by simp,edge_cons (by decide) _⟩

theorem found_importText {n : Text} {ns : List Text} (h : ∀ m ∈ n :: ns, isModule m = true) :
    Issue.unsafeDeserialization.found (importText (n :: ns)) = true ↔ IsPickle n := by
  have hj := head_moduleList ns (h n List.mem_cons_self)
  rw [found_iff,← startsList_iff ns (h n List.mem_cons_self)]
  constructor
  · -- Only the blank behind the keyword stands behind no comma.
    rintro ⟨p,hp,u,v,e,-,hv⟩
    cases hv with
    | @module b x hb hx =>
      obtain ⟨c,d,rfl,hc,hd⟩ := hb.exists_cons
      have e : importText (n :: ns) = (u ++ "impor".toList) ++ 't' :: c :: (d ++ (p ++ x)) := by
        rw [e]; simp
      have hz := (blank_importText h e hc (by decide)).2
      have hn : d = [] := by
        cases d with
        | nil => rfl
        | cons f d =>
          rw [← hz] at hj
          simp [hd f List.mem_cons_self] at hj
      exact ⟨p,hp,x,by rw [← hz,hn]; rfl,hx⟩
    | @names b d x hb =>
      obtain ⟨c,f,rfl,hc,-⟩ := hb.exists_cons
      have e : importText (n :: ns) = (u ++ "fro".toList) ++
          'm' :: c :: (f ++ (p ++ (d ++ ("import".toList ++ x)))) := by
        rw [e]; simp
      have hk : u ++ "fro".toList ++ ['m'] = "impor".toList ++ ['t'] :=
        (blank_importText h e hc (by decide)).1
      obtain ⟨-,hk⟩ := List.append_inj' hk rfl
      exact absurd hk (by decide)
  · rintro ⟨p,hp,x,hj,he⟩
    have hb : SomeBlanks [' '] := ⟨List.cons_ne_nil _ _,by simp [isBlank]⟩
    have hi : importText (n :: ns) = "import".toList ++ ([' '] ++ (p ++ x)) := by rw [← hj]; rfl
    exact ⟨p,hp,[],_,hi,rfl,.module hb he⟩

/-- The scan finds a text if and only if one of the names stands right behind the keyword somewhere.
Where the outline of a text names the module the scan finds it, unless lists alone name it, each of them
behind another module. A text that is a list of modules is found if and only if its first module is the
one, or lies inside of it. -/
theorem scan_of_imports (code : Text) :
    (.unsafeDeserialization ∈ (scan .python code).map (·.issue) ↔
      ∃ p ∈ pickleNames, NamedFirst p code) ∧
    (∀ m ∈ pickleNames, m ∈ (analyze .python code).outline.imports →
      .unsafeDeserialization ∈ (scan .python code).map (·.issue) ∨ OnlyListedLater m code) ∧
    ∀ n ns, (∀ m ∈ n :: ns, isModule m = true) →
      (analyze .python (importText (n :: ns))).outline.imports = n :: ns ∧
      (.unsafeDeserialization ∈ (scan .python (importText (n :: ns))).map (·.issue) ↔ IsPickle n) := by
  have hscan : .unsafeDeserialization ∈ (scan .python code).map (·.issue) ↔
      ∃ p ∈ pickleNames, NamedFirst p code := by
    rw [mem_scan_iff]
    exact found_iff code
  refine ⟨hscan,fun m hp hm => ?_,fun n ns h => ⟨imports_importText h,?_⟩⟩
  · have hi : m ∈ imports code := hm
    rw [hscan]
    by_cases hf : ∃ p ∈ pickleNames, NamedFirst p code
    · exact .inl hf
    · exact .inr ⟨mem_imports hi,fun ms v hv hm =>
        (first_or_later hv hm).resolve_left fun hn => hf ⟨m,hp,hn⟩⟩
  · rw [mem_scan_iff]
    exact found_importText h

theorem scan_of_imports_order : let code := importText ["os".toList,"pickle".toList]
    (∀ m ∈ ["pickle".toList,"os".toList], isModule m = true) ∧
    .unsafeDeserialization ∈ (scan .python (importText ["pickle".toList,"os".toList])).map (·.issue) ∧
    "pickle".toList ∈ (analyze .python code).outline.imports ∧ OnlyListedLater "pickle".toList code := by
  intro code
  have hm : ∀ m ∈ ["pickle".toList,"os".toList], isModule m = true := by decide
  have hm' : ∀ m ∈ ["os".toList,"pickle".toList], isModule m = true := by decide
  have hp : IsPickle "pickle".toList := ⟨_,by decide,.inl rfl⟩
  have ho : ¬ IsPickle "os".toList := by
    rintro ⟨p,hp,h⟩
    have hl : ∀ p ∈ pickleNames, "os".toList.length < p.length := by decide
    have := hl p hp
    rcases h with h | ⟨k,h⟩
    · rw [h] at this
      omega
    · rw [h,List.length_append] at this
      omega
  obtain ⟨-,hlater,hlists⟩ := scan_of_imports code
  obtain ⟨hi,hf⟩ := hlists _ _ hm'
  have hi : "pickle".toList ∈ (analyze .python code).outline.imports := by
    rw [hi]
    decide
  refine ⟨hm,(hlists _ _ hm).2.2 hp,hi,(hlater _ (by decide) hi).resolve_left fun h => ho (hf.1 h)⟩

/-- No list of modules is looked through. -/
theorem imports_not_scanned : ¬ ∀ code : Text, ∀ m ∈ ["pickle".toList,"cPickle".toList],
    m ∈ (analyze .python code).outline.imports →
      .unsafeDeserialization ∈ (scan .python code).map (·.issue) := by
  intro h
  have hm : ∀ m ∈ ["os".toList,"pickle".toList], isModule m = true := by decide
  have hi : (analyze .python "import os, pickle".toList).outline.imports =
      ["os".toList,"pickle".toList] := imports_importText hm
  exact absurd (h "import os, pickle".toList "pickle".toList (by decide) (by rw [hi]; decide))
    (by decide)

end Workbench.Analysis
