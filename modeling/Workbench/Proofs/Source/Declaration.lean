import Workbench.Proofs.Text.Spacing
import Workbench.Source.Outline
set_option autoImplicit false

/-!
Declarations in a changed text. Other line ends declare the same names, and between two texts that a
semicolon on a line of its own divides no declaration is made or lost.
-/
namespace Workbench.Source
open Text

def Opening.onRest (g : Text → Text) (o : Opening) : Opening := ⟨o.name,o.opener,g o.rest⟩

/-- The character that opens the rest, behind the name `n`. -/
def opened? (opens : Char → Bool) (n : Text) : Text → Option Opening
  | [] => none
  | c :: rest => if opens c then some ⟨n,c,rest⟩ else none

def named? (opens : Char → Bool) (t : Text) : Option Opening :=
  (ident? t).bind fun i => opened? opens i.1 (trimStart i.2)

theorem opening?_eq (keyword : Text) (opens : Char → Bool) (t : Text) : opening? keyword opens t =
    (after? keyword t).bind fun t => (blanks? t).bind (named? opens) := by
  rw [opening?]
  cases after? keyword t with
  | none => rfl
  | some t =>
    simp only [Option.bind_some]
    cases blanks? t with
    | none => rfl
    | some t =>
      simp only [Option.bind_some,named?]
      cases ident? t with
      | none => rfl
      | some i => cases h : trimStart i.2 <;> simp [opened?,h]

section
variable {keyword : Text} (hn : keyword ≠ []) (hk : Solids keyword) {opens : Char → Bool}
  (ho : Solid opens)

include ho in
theorem opened?_of_end {n t : Text} (h : t.head?.all (· == ';') = true) :
    opened? opens n t = none := by
  cases t with
  | nil => rfl
  | cons c t =>
    have hc : c = ';' := by simpa using h
    simp [opened?,ho c (.inr hc)]

theorem named?_of_end {t : Text} (h : t.head?.all (· == ';') = true) : named? opens t = none := by
  cases t with
  | nil => rfl
  | cons c t =>
    have hc : c = ';' := by simpa using h
    rw [hc]
    rfl

section
variable {g : Text → Text} (hg : KeepsWords g)
include ho hg

theorem opened?_keepsWords (n t : Text) :
    opened? opens n (g t) = (opened? opens n t).map (.onRest g) := by
  have h := hg.one ho t
  cases t with
  | nil =>
    cases e : g [] with
    | nil => rfl
    | cons c u => simpa [e,one?,opened?] using h
  | cons c t =>
    cases hc : opens c with
    | true =>
      rw [hg.word c t (ho.blank hc)]
      simp [opened?,hc,Opening.onRest]
    | false =>
      cases e : g (c :: t) with
      | nil => simp [opened?,hc]
      | cons d u =>
        have hd : opens d = false := by simpa [e,one?,hc] using h
        simp [opened?,hc,hd]

theorem named?_keepsWords (t : Text) :
    named? opens (g t) = (named? opens t).map (.onRest g) := by
  rw [named?,named?,hg.ident]
  cases ident? t with
  | none => rfl
  | some i => exact hg.spaced (opened?_keepsWords ho hg i.1) (fun _ h => opened?_of_end ho h) i.2

include hk in
theorem opening?_keepsWords (t : Text) :
    opening? keyword opens (g t) = (opening? keyword opens t).map (.onRest g) := by
  rw [opening?_eq,opening?_eq,hg.after hk]
  cases after? keyword t with
  | none => rfl
  | some t => exact hg.someBlanks (named?_keepsWords ho hg) (fun _ h => named?_of_end h) t

end

theorem openingsFrom_some {before : Option Char} {t : Text} {o : Opening}
    (hb : edge before = true) (h : opening? keyword opens t = some o) :
    openingsFrom keyword opens before t =
      o :: openingsFrom keyword opens (some o.opener) o.rest := by
  cases t with
  | nil => exact absurd (length_of_opening? h) (Nat.not_lt_zero _)
  | cons c t =>
    have e : (if edge before then opening? keyword opens (c :: t) else none) = some o := by
      rw [if_pos hb,h]
    rw [openingsFrom]
    split
    · rename_i p hp
      rw [Option.some.inj (hp.symm.trans e)]
    · rename_i hp
      exact absurd (hp.symm.trans e) (by simp)

theorem openingsFrom_none {before : Option Char} {c : Char} {t : Text}
    (h : edge before = true → opening? keyword opens (c :: t) = none) :
    openingsFrom keyword opens before (c :: t) = openingsFrom keyword opens (some c) t := by
  have e : (if edge before then opening? keyword opens (c :: t) else none) = none := by
    split
    · exact h (by assumption)
    · rfl
  rw [openingsFrom]
  split
  · rename_i p hp
    exact absurd (hp.symm.trans e) (by simp)
  · rfl

/-- Of the character in front of a text it matters only whether a word can start behind it. -/
theorem openingsFrom_edge {b d : Option Char} (h : edge b = edge d) (t : Text) :
    openingsFrom keyword opens b t = openingsFrom keyword opens d t := by
  cases t with
  | nil => rw [openingsFrom,openingsFrom]
  | cons c t => rw [openingsFrom,openingsFrom,h]

include hn hk in
theorem openingsFrom_skip {c : Char} (hc : isBlank c = true ∨ c = ';') (before : Option Char)
    (t : Text) :
    openingsFrom keyword opens before (c :: t) = openingsFrom keyword opens (some c) t := by
  refine openingsFrom_none fun _ => ?_
  cases keyword with
  | nil => exact absurd rfl hn
  | cons k ks =>
    have h : (c == k) = false := hk k List.mem_cons_self c hc
    rw [opening?_eq,after?_cons]
    simp [one?,h]

theorem eq_some_of_ite {before : Option Char} {x : Option Opening} {o : Opening}
    (h : (if edge before then x else none) = some o) : edge before = true ∧ x = some o := by
  split at h
  · exact ⟨by assumption,h⟩
  · simp at h

theorem eq_none_of_ite {before : Option Char} {x : Option Opening}
    (h : (if edge before then x else none) = none) : edge before = true → x = none := by
  intro hb
  rwa [if_pos hb] at h

include hn hk ho

theorem openingsFrom_crlf (before : Option Char) (t : Text) :
    openingsFrom keyword opens before (crlf t) =
      (openingsFrom keyword opens before t).map (.onRest crlf) := by
  have hg := opening?_keepsWords hk ho keepsWords_crlf
  induction before, t using openingsFrom.induct keyword opens with
  | case1 before => simp [crlf,openingsFrom]
  | case2 before c t o h ih =>
    obtain ⟨hb,h⟩ := eq_some_of_ite h
    have e : opening? keyword opens (crlf (c :: t)) = some (o.onRest crlf) := by
      rw [hg,h]
      rfl
    rw [openingsFrom_some hb h,openingsFrom_some hb e,List.map_cons,← ih]
    rfl
  | case3 before c t h ih =>
    have h := eq_none_of_ite h
    rw [openingsFrom_none h,← ih]
    by_cases hc : c = '\n'
    · -- The search steps over both characters of the line end.
      rw [hc,crlf_feed,openingsFrom_skip hn hk (.inl (by decide)),
        openingsFrom_skip hn hk (.inl (by decide))]
    · rw [crlf_cons hc]
      refine openingsFrom_none fun hb => ?_
      rw [← crlf_cons hc,hg,h hb]
      rfl

theorem openingsFrom_divided (before : Option Char) (a b : Text) :
    openingsFrom keyword opens before (divided a b) =
      (openingsFrom keyword opens before a).map (.onRest (divided · b)) ++
        openings keyword opens b := by
  have hg := opening?_keepsWords hk ho (keepsWords_divided b)
  induction before, a using openingsFrom.induct keyword opens with
  | case1 before =>
    rw [openingsFrom,List.map_nil,List.nil_append,divided,List.nil_append,
      openingsFrom_skip hn hk (.inl (by decide)),openingsFrom_skip hn hk (.inr rfl),
      openingsFrom_skip hn hk (.inl (by decide)),openings]
    exact openingsFrom_edge (by decide) b
  | case2 before c t o h ih =>
    obtain ⟨hb,h⟩ := eq_some_of_ite h
    have e := hg (c :: t)
    rw [h,Option.map_some] at e
    rw [openingsFrom_some hb h,openingsFrom_some hb e,List.map_cons,List.cons_append,← ih]
    rfl
  | case3 before c t h ih =>
    have h := eq_none_of_ite h
    rw [openingsFrom_none h,← ih]
    refine openingsFrom_none fun hb => ?_
    have e := hg (c :: t)
    rwa [h hb] at e

theorem names_crlf (t : Text) : (openings keyword opens (crlf t)).map (·.name) =
    (openings keyword opens t).map (·.name) := by
  rw [openings,openingsFrom_crlf hn hk ho,List.map_map]
  rfl

theorem names_divided (a b : Text) : (openings keyword opens (divided a b)).map (·.name) =
    (openings keyword opens a).map (·.name) ++ (openings keyword opens b).map (·.name) := by
  rw [openings,openingsFrom_divided hn hk ho,List.map_append,List.map_map]
  rfl

end

theorem isIdentPart_of_opening? {keyword t : Text} {opens : Char → Bool} {o : Opening}
    (h : opening? keyword opens t = some o) : ∀ c ∈ o.name, isIdentPart c = true := by
  simp only [opening?_eq,named?,Option.bind_eq_some_iff] at h
  obtain ⟨u,-,v,-,⟨n,r⟩,hi,h⟩ := h
  have hn : o.name = n := by
    cases ht : trimStart r with
    | nil => simp [ht,opened?] at h
    | cons c u =>
      simp only [ht,opened?] at h
      split at h
      · rw [← Option.some.inj h]
      · simp at h
  rw [hn]
  exact (ident?_eq_some_iff.1 hi).2.1.2

theorem isIdentPart_of_mem_openings {keyword : Text} {opens : Char → Bool} {before : Option Char}
    {t : Text} {o : Opening} (h : o ∈ openingsFrom keyword opens before t) :
    ∀ c ∈ o.name, isIdentPart c = true := by
  induction before, t using openingsFrom.induct keyword opens with
  | case1 before => simp [openingsFrom] at h
  | case2 before c t p hp ih =>
    obtain ⟨hb,hp⟩ := eq_some_of_ite hp
    rw [openingsFrom_some hb hp] at h
    rcases List.mem_cons.1 h with rfl | h
    · exact isIdentPart_of_opening? hp
    · exact ih h
  | case3 before c t hn ih =>
    rw [openingsFrom_none (eq_none_of_ite hn)] at h
    exact ih h

theorem signature_texts {p : Profile} {code : Text} {f : Signature} (h : f ∈ signatures p code) :
    (∀ c ∈ f.name, isIdentPart c = true) ∧
    ∀ q ∈ f.params.getD [], q.head?.any isBlank = false := by
  obtain ⟨o,ho,rfl⟩ := List.mem_map.1 h
  refine ⟨isIdentPart_of_mem_openings ho,fun q hq => ?_⟩
  cases he : enclosed? o.rest with
  | none => simp [he] at hq
  | some t =>
    simp only [he,Option.map_some,Option.getD_some,splitTop,List.mem_filter] at hq
    obtain ⟨w,-,rfl⟩ := List.mem_map.1 hq.1
    exact head_trim w

theorem functionNames_eq (code : Text) : (signatures .python code).map (·.name) =
    (openings "def".toList opensCall code).map (·.name) := List.map_map

theorem solids_def : Solids "def".toList := solids_of (by decide)

theorem solids_class : Solids "class".toList := solids_of (by decide)

theorem solid_opensCall : Solid opensCall := solid_of rfl (by decide)

theorem solid_opensClass : Solid opensClass := solid_of rfl (by decide)

theorem functionNames_crlf (code : Text) : (signatures .python (crlf code)).map (·.name) =
    (signatures .python code).map (·.name) := by
  rw [functionNames_eq,functionNames_eq]
  exact names_crlf (by decide) solids_def solid_opensCall code

theorem classes_crlf (code : Text) : classes .python (crlf code) = classes .python code :=
  names_crlf (by decide) solids_class solid_opensClass code

theorem functionNames_divided (a b : Text) : (signatures .python (divided a b)).map (·.name) =
    (signatures .python a).map (·.name) ++ (signatures .python b).map (·.name) := by
  rw [functionNames_eq,functionNames_eq,functionNames_eq]
  exact names_divided (by decide) solids_def solid_opensCall a b

theorem classes_divided (a b : Text) :
    classes .python (divided a b) = classes .python a ++ classes .python b :=
  names_divided (by decide) solids_class solid_opensClass a b

end Workbench.Source
