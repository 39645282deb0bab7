import Workbench.Proofs.Source.Import
import Workbench.Proofs.Text.Spacing
set_option autoImplicit false

/-!
A blank at the end of a line changes nothing of what the line imports: it may go into the last item
of a list, and an item is known by its first word.
-/
namespace Workbench.Source
open Text

def onRest (g : Text → Text) (i : List Text × Text) : List Text × Text := (i.1,g i.2)

/-- The same modules. What is left has the change as well, or it is nothing. -/
def SameModules (g : Text → Text) (i j : List Text × Text) : Prop :=
  i.1 = j.1 ∧ (i.2 = g j.2 ∨ i.2 = [] ∧ j.2 = [])

theorem sameModules_of_map {g : Text → Text} {x y : Option (List Text × Text)}
    (h : x = y.map (onRest g)) : Option.Rel (SameModules g) x y := by
  rw [h]
  cases y with
  | none => exact .none
  | some i => exact .some ⟨rfl,.inl rfl⟩

def thenImport? (m t : Text) : Option (List Text × Text) :=
  (after? "import".toList t).bind fun t => (edge? t).map fun t => ([m],t)

def fromModule? (t : Text) : Option (List Text × Text) :=
  if (relativeModule t).1 = [] then none
  else (blanks? (relativeModule t).2).bind (thenImport? (relativeModule t).1)

theorem importFrom?_eq (t : Text) : importFrom? t =
    (after? "from".toList t).bind fun t => (blanks? t).bind fromModule? := by
  rw [importFrom?]
  cases after? "from".toList t with
  | none => rfl
  | some t =>
    simp only [Option.bind_some]
    cases blanks? t with
    | none => rfl
    | some t =>
      simp only [Option.bind_some,fromModule?]
      cases h : relativeModule t with
      | mk m r =>
        cases m with
        | nil => rfl
        | cons c m =>
          simp only [reduceCtorEq,if_false]
          cases blanks? r with
          | none => rfl
          | some r =>
            simp only [Option.bind_some,thenImport?]
            cases after? "import".toList r <;> rfl

theorem fromModule?_of_end {t : Text} (h : t.head?.all (· == ';') = true) :
    fromModule? t = none := by
  cases t with
  | nil => rfl
  | cons c t =>
    have hc : c = ';' := by simpa using h
    rw [hc]
    rfl

def moduleFrom (dots t : Text) : Text × Text :=
  if (one? isIdentStart t).isSome then (dots ++ t.takeWhile isModulePart,t.dropWhile isModulePart)
  else (dots,t)

theorem relativeModule_eq (t : Text) :
    relativeModule t = moduleFrom (t.takeWhile (· == '.')) (t.dropWhile (· == '.')) := by
  rw [relativeModule]
  cases t.dropWhile (· == '.') with
  | nil => rfl
  | cons c r =>
    cases hc : isIdentStart c with
    | false => simp [moduleFrom,one?,hc]
    | true => simp [moduleFrom,one?,hc,isModulePart_of_isIdentStart hc]

section
variable {g : Text → Text} (hg : KeepsWords g)
include hg

theorem relativeModule_keepsWords (t : Text) :
    relativeModule (g t) = ((relativeModule t).1,g (relativeModule t).2) := by
  have hs := hg.one (p := isIdentStart) (solid_of rfl (by decide))
  have hm := hg.span (p := isModulePart) (solid_of rfl (by decide))
  have hd := hg.span (p := (· == '.')) (solid_of rfl (by decide)) t
  rw [relativeModule_eq,relativeModule_eq,hd.1,hd.2,moduleFrom,moduleFrom,hs,Option.isSome_map,
    (hm _).1,(hm _).2]
  split <;> rfl

theorem thenImport?_keepsWords (m t : Text) :
    thenImport? m (g t) = (thenImport? m t).map (onRest g) := by
  rw [thenImport?,thenImport?,hg.after (solids_of (by decide))]
  cases after? "import".toList t with
  | none => rfl
  | some t =>
    simp only [Option.map_some,Option.bind_some,edge?,hg.edge]
    split <;> rfl

theorem fromModule?_keepsWords (t : Text) :
    fromModule? (g t) = (fromModule? t).map (onRest g) := by
  rw [fromModule?,fromModule?,relativeModule_keepsWords hg]
  split
  · rfl
  · refine hg.someBlanks (thenImport?_keepsWords hg _) (fun u hu => ?_) _
    cases u with
    | nil => rfl
    | cons c u =>
      have hc : c = ';' := by simpa using hu
      rw [hc]
      rfl

theorem importFrom?_keepsWords (t : Text) :
    importFrom? (g t) = (importFrom? t).map (onRest g) := by
  rw [importFrom?_eq,importFrom?_eq,hg.after (solids_of (by decide))]
  cases after? "from".toList t with
  | none => rfl
  | some t => exact hg.someBlanks (fromModule?_keepsWords hg) (fun _ h => fromModule?_of_end h) t

end

def listed? (t : Text) : Option (List Text × Text) :=
  match t.takeWhile fun c => !endsList c with
  | [] => none
  | l => some ((splitOn ',' l).filterMap listedModule?,t.dropWhile fun c => !endsList c)

theorem importList?_eq (t : Text) : importList? t =
    (after? "import".toList t).bind fun t => (blanks? t).bind listed? := by
  rw [importList?]
  cases after? "import".toList t with
  | none => rfl
  | some t =>
    simp only [Option.bind_some]
    cases blanks? t with
    | none => rfl
    | some t => rfl

variable {w : Char} (hw : isBlank w = true)
include hw

theorem ne_of_blank {c : Char} (hc : isBlank c = false) : w ≠ c := by
  intro e
  rw [e,hc] at hw
  exact absurd hw (by decide)

theorem firstWord_append_blank (t : Text) : firstWord (t ++ [w]) = firstWord t := by
  rw [firstWord,firstWord,trimStart,trimStart,List.dropWhile_append]
  split
  · rename_i h
    rw [List.isEmpty_iff.1 h]
    simp [hw]
  · rw [List.takeWhile_append]
    split
    · rename_i h
      simp [hw,(List.takeWhile_sublist _).eq_of_length h]
    · rfl

theorem listed_append_blank (l : Text) :
    (splitOn ',' (l ++ [w])).filterMap listedModule? = (splitOn ',' l).filterMap listedModule? := by
  obtain ⟨ps,q,h₁,h₂⟩ := splitOn_append_other (ne_of_blank hw (c := ',') (by decide)) l
  have hq : listedModule? (q ++ [w]) = listedModule? q := by
    rw [listedModule?,listedModule?,firstWord_append_blank hw]
  rw [h₁,h₂,List.filterMap_append,List.filterMap_append,List.filterMap_cons,List.filterMap_cons,hq]

theorem listed?_append_blank {c : Char} (t : Text) :
    Option.Rel (SameModules (· ++ [w])) (listed? (c :: t ++ [w])) (listed? (c :: t)) := by
  have hn : endsList w = false := by
    have h₁ : w ≠ ';' := ne_of_blank hw (by decide)
    have h₂ : w ≠ '#' := ne_of_blank hw (by decide)
    simp [endsList,h₁,h₂]
  obtain ⟨l,r,ht,hl,hd,hi,hr⟩ := exists_span (fun c => !endsList c) (c :: t)
  cases r with
  | nil =>
    -- The list goes on to the end, and takes the blank along.
    obtain rfl : c :: t = l := by simpa using ht
    have hi' : ∀ d ∈ c :: t ++ [w], (!endsList d) = true := by
      intro d hm
      obtain hm | hm := List.mem_append.1 hm
      · exact hi d hm
      · simp [List.mem_singleton.1 hm,hn]
    have hl' := List.takeWhile_eq_self_iff.2 hi'
    have hd' := List.dropWhile_eq_nil_iff.2 hi'
    rw [listed?,listed?,hl,hd,hl',hd']
    exact .some ⟨listed_append_blank hw (c :: t),.inr ⟨rfl,rfl⟩⟩
  | cons d r =>
    refine sameModules_of_map ?_
    have hd' : endsList d = true := by simpa using hr
    have e₁ : (c :: t ++ [w]).takeWhile (fun c => !endsList c) = l := by
      rw [ht,List.append_assoc,List.takeWhile_append_of_pos hi]
      simp [hd']
    have e₂ : (c :: t ++ [w]).dropWhile (fun c => !endsList c) = d :: r ++ [w] := by
      rw [ht,List.append_assoc,List.dropWhile_append_of_pos hi]
      simp [hd']
    rw [listed?,listed?,hl,hd,e₁,e₂]
    cases l <;> rfl

theorem importList?_append_blank (t : Text) :
    Option.Rel (SameModules (· ++ [w])) (importList? (t ++ [w])) (importList? t) := by
  have hg : KeepsWords (· ++ [w]) := keepsWords_append (by simp [trimStart,hw])
  rw [importList?_eq,importList?_eq,hg.after (solids_of (by decide))]
  cases after? "import".toList t with
  | none => exact .none
  | some t =>
    refine hg.rel_someBlanks .none (fun u hu => ?_) (fun c u _ => listed?_append_blank hw u) t
    cases u with
    | nil => rfl
    | cons c u =>
      have hc : c = ';' := by simpa using hu
      rw [hc]
      rfl

def statement? (t : Text) : Option (List Text × Text) := (importList? t).or (importFrom? t)

omit hw in
theorem importHere?_eq (t : Text) : importHere? t = statement? (trimStart t) := by
  rw [importHere?,statement?]
  cases importList? (trimStart t) <;> rfl

omit hw in
theorem statement?_of_end {t : Text} (h : t.head?.all (· == ';') = true) :
    statement? t = none := by
  cases t with
  | nil => rfl
  | cons c t =>
    have hc : c = ';' := by simpa using h
    rw [hc]
    rfl

omit hw in
theorem rel_or {α β : Type} {R : α → β → Prop} {a a' : Option α} {b b' : Option β}
    (h : Option.Rel R a b) (h' : Option.Rel R a' b') : Option.Rel R (a.or a') (b.or b') := by
  cases h with
  | none => exact h'
  | some h => exact .some h

theorem importHere?_append_blank (t : Text) :
    Option.Rel (SameModules (· ++ [w])) (importHere? (t ++ [w])) (importHere? t) := by
  have hg : KeepsWords (· ++ [w]) := keepsWords_append (by simp [trimStart,hw])
  rw [importHere?_eq,importHere?_eq]
  refine hg.rel_spaced .none (fun u hu => statement?_of_end hu) (fun c u _ => ?_) t
  exact rel_or (importList?_append_blank hw (c :: u))
    (sameModules_of_map (importFrom?_keepsWords hg (c :: u)))

omit hw in
theorem importsAfter_some {c : Char} {t : Text} {i : List Text × Text}
    (hc : startsStatement c = true) (h : importHere? t = some i) :
    importsAfter (c :: t) = i.1 ++ importsAfter i.2 := by
  rw [importsAfter]
  split <;> simp_all

omit hw in
theorem importsAfter_none {c : Char} {t : Text}
    (h : startsStatement c = true → importHere? t = none) :
    importsAfter (c :: t) = importsAfter t := by
  rw [importsAfter]
  split <;> simp_all

omit hw in
theorem SameModules.imports {g : Text → Text} {i j : List Text × Text} (h : SameModules g i j)
    (hj : importsAfter (g j.2) = importsAfter j.2) :
    i.1 ++ importsAfter i.2 = j.1 ++ importsAfter j.2 := by
  obtain ⟨hm,hr | ⟨hi,hn⟩⟩ := h
  · rw [hm,hr,hj]
  · rw [hm,hi,hn]

theorem importsAfter_append_blank (t : Text) : importsAfter (t ++ [w]) = importsAfter t := by
  induction t using importsAfter.induct with
  | case1 =>
    have hs : startsStatement w = false := by
      have h₁ : w ≠ ';' := ne_of_blank hw (by decide)
      have h₂ : w ≠ ':' := ne_of_blank hw (by decide)
      simp [startsStatement,h₁,h₂]
    exact importsAfter_none fun h => by simp [hs] at h
  | case2 c t ms r h ih =>
    cases hc : startsStatement c with
    | false => simp [hc] at h
    | true =>
      rw [dif_pos hc] at h
      have hr := importHere?_append_blank hw t
      rw [h] at hr
      cases hi : importHere? (t ++ [w]) with
      | none => rw [hi] at hr; cases hr
      | some i =>
        rw [hi] at hr
        cases hr with
        | some hr =>
          rw [List.cons_append,importsAfter_some hc hi,importsAfter_some hc h]
          exact hr.imports ih
  | case3 c t h ih =>
    have hn : startsStatement c = true → importHere? t = none := by
      intro hc
      rwa [dif_pos hc] at h
    rw [List.cons_append,importsAfter_none hn,← ih]
    refine importsAfter_none fun hc => ?_
    have hr := importHere?_append_blank hw t
    rw [hn hc] at hr
    cases hi : importHere? (t ++ [w]) with
    | none => rfl
    | some i => rw [hi] at hr; cases hr

theorem lineImports_append_blank (l : Text) : lineImports (l ++ [w]) = lineImports l := by
  have h := importHere?_append_blank hw l
  have ha := importsAfter_append_blank hw
  rw [lineImports,lineImports]
  revert h
  generalize importHere? (l ++ [w]) = x
  generalize importHere? l = y
  intro h
  cases h with
  | none => exact ha l
  | some h => exact h.imports (ha _)

omit hw in
theorem imports_eq (code : Text) : imports code = ((lines code).map lineImports).flatten := by
  rw [imports,List.flatMap_def]

omit hw in
theorem imports_crlf (code : Text) : imports (crlf code) = imports code := by
  rw [imports_eq,imports_eq,map_lines_crlf fun l => lineImports_append_blank (by decide) l]

omit hw in
theorem imports_divided (a b : Text) : imports (divided a b) = imports a ++ imports b := by
  have hn : importHere? [] = none := rfl
  have hs : importHere? [';'] = none := rfl
  have h₀ : lineImports [] = [] := by simp [lineImports,hn,importsAfter]
  have h₁ : lineImports [';'] = [] := by
    simp only [lineImports,hs]
    rw [importsAfter_none fun _ => hn,importsAfter]
  rw [imports_eq,imports_eq,imports_eq,
    map_lines_divided fun l => lineImports_append_blank (by decide) l,h₀,h₁]
  split <;> simp

end Workbench.Source
