import Workbench.Proofs.Text.Lines
import Workbench.Proofs.Text.Literal
set_option autoImplicit false

/-!
Changes of a text that leave its words alone: other spacing, or more text behind a semicolon. The
small readers, which look for words and skip blanks, take from the changed text what they take from
the text itself, and leave its rest changed in the same way.
-/
namespace Workbench.Text

/-- What is no blank stays, and a blank becomes blanks. Behind it all there may be blanks, then
nothing or a semicolon and anything else. -/
structure KeepsWords (g : Text → Text) : Prop where
  word : ∀ c t, isBlank c = false → g (c :: t) = c :: g t
  blank : ∀ c t, isBlank c = true →
    ∃ d u, g (c :: t) = d :: u ∧ isBlank d = true ∧ trimStart u = trimStart (g t)
  ending : (trimStart (g [])).head?.all (· == ';') = true

/-- The characters that `p` picks are neither blanks nor semicolons. -/
def Solid (p : Char → Bool) : Prop := ∀ c, isBlank c = true ∨ c = ';' → p c = false

theorem solid_of {p : Char → Bool} (hs : p ';' = false)
    (hb : ∀ n ∈ blankPoints, p (Char.ofNat n) = false) : Solid p := by
  intro c hc
  obtain hc | hc := hc
  · exact forall_blank (P := (p · = false)) hb hc
  · rw [hc,hs]

theorem Solid.blank {p : Char → Bool} (hp : Solid p) {c : Char} (hc : p c = true) :
    isBlank c = false := by
  cases hb : isBlank c with
  | false => rfl
  | true => simp [hp c (.inl hb)] at hc

def Solids (k : Text) : Prop := ∀ c ∈ k, Solid (· == c)

theorem solids_of {k : Text} (h : (k.all fun c => !isBlank c && c != ';') = true) : Solids k := by
  intro c hc d hd
  obtain ⟨hb,hs⟩ : isBlank c = false ∧ c ≠ ';' := by simpa using List.all_eq_true.1 h c hc
  rw [beq_eq_false_iff_ne]
  intro e
  subst e
  obtain hd | hd := hd
  · simp [hb] at hd
  · exact hs hd

theorem one?_trimStart_of_solid {p : Char → Bool} (hp : Solid p) {t : Text}
    (h : (trimStart t).head?.all (· == ';') = true) : one? p t = none := by
  cases t with
  | nil => rfl
  | cons c t =>
    cases hc : isBlank c with
    | true => simp [one?,hp c (.inl hc)]
    | false =>
      have e : c = ';' := by simpa [trimStart,hc] using h
      simp [one?,hp c (.inr e)]

theorem takeWhile_of_one? {p : Char → Bool} {t : Text} (h : one? p t = none) :
    t.takeWhile p = [] ∧ t.dropWhile p = t := by
  cases t with
  | nil => simp
  | cons c t =>
    have hc : p c = false := by simpa [one?] using h
    simp [hc]

theorem head_trimStart {t u : Text} {c : Char} (h : trimStart t = c :: u) : isBlank c = false := by
  obtain ⟨b,-,-,hh⟩ := exists_trimStart t
  simpa [h] using hh

namespace KeepsWords
variable {g : Text → Text} (hg : KeepsWords g) {p : Char → Bool} (hp : Solid p)
include hg

include hp in
theorem one (t : Text) : one? p (g t) = (one? p t).map g := by
  cases t with
  | nil => exact one?_trimStart_of_solid hp hg.ending
  | cons c t =>
    cases hc : isBlank c with
    | true =>
      obtain ⟨d,u,e,hd,-⟩ := hg.blank c t hc
      simp [e,one?,hp c (.inl hc),hp d (.inl hd)]
    | false =>
      rw [hg.word c t hc,one?,one?]
      split <;> rfl

theorem after {k : Text} (hk : Solids k) (t : Text) : after? k (g t) = (after? k t).map g := by
  induction k generalizing t with
  | nil => rfl
  | cons a k ih =>
    have ih := ih fun c hc => hk c (List.mem_cons_of_mem _ hc)
    rw [after?_cons,after?_cons,hg.one (hk a List.mem_cons_self)]
    cases one? (· == a) t with
    | none => rfl
    | some t => exact ih t

include hp in
theorem span (t : Text) :
    (g t).takeWhile p = t.takeWhile p ∧ (g t).dropWhile p = g (t.dropWhile p) := by
  have stop : ∀ t, one? p t = none →
      (g t).takeWhile p = t.takeWhile p ∧ (g t).dropWhile p = g (t.dropWhile p) := by
    intro t h
    have e : one? p (g t) = none := by rw [hg.one hp,h]; rfl
    obtain ⟨h₁,h₂⟩ := takeWhile_of_one? e
    obtain ⟨h₃,h₄⟩ := takeWhile_of_one? h
    rw [h₁,h₂,h₃,h₄]
    exact ⟨rfl,rfl⟩
  induction t with
  | nil => exact stop [] rfl
  | cons c t ih =>
    cases hc : p c with
    | false => exact stop (c :: t) (by simp [one?,hc])
    | true =>
      rw [hg.word c t (hp.blank hc)]
      simp [hc,ih]

theorem ident (t : Text) : ident? (g t) = (ident? t).map fun i => (i.1,g i.2) := by
  have hs : Solid isIdentStart := solid_of rfl (by decide)
  have hi : Solid isIdentPart := solid_of rfl (by decide)
  have none_iff : ∀ t, one? isIdentStart t = none → ident? t = none := by
    intro t h
    cases t with
    | nil => rfl
    | cons c t => simpa [one?,ident?] using h
  cases h : one? isIdentStart t with
  | none =>
    have e : one? isIdentStart (g t) = none := by rw [hg.one hs,h]; rfl
    rw [none_iff _ e,none_iff _ h]
    rfl
  | some r =>
    cases t with
    | nil => simp [one?] at h
    | cons c t =>
      have hc : isIdentStart c = true := by
        cases hc : isIdentStart c with
        | true => rfl
        | false => simp [one?,hc] at h
      obtain ⟨h₁,h₂⟩ := hg.span hi t
      rw [hg.word c t (hs.blank hc)]
      simp [ident?,hc,h₁,h₂]

theorem edge (t : Text) : Text.edge (g t).head? = Text.edge t.head? := by
  have outside : ∀ c u, isBlank c = true → Text.edge (c :: u : Text).head? = true := by
    intro c u hc
    simp [Text.edge,isWordChar_of_isBlank hc]
  cases t with
  | nil =>
    have he := hg.ending
    cases h : g [] with
    | nil => rfl
    | cons c u =>
      cases hc : isBlank c with
      | true => exact outside c u hc
      | false =>
        have e : c = ';' := by simpa [h,trimStart,hc] using he
        rw [e]
        rfl
  | cons c t =>
    cases hc : isBlank c with
    | true =>
      obtain ⟨d,u,e,hd,-⟩ := hg.blank c t hc
      rw [e,outside d u hd,outside c t hc]
    | false => rw [hg.word c t hc]; rfl

theorem trimStart (t : Text) : Text.trimStart (g t) = Text.trimStart (g (Text.trimStart t)) := by
  induction t with
  | nil => rfl
  | cons c t ih =>
    cases hc : isBlank c with
    | true =>
      obtain ⟨d,u,e,hd,hu⟩ := hg.blank c t hc
      have h₁ : Text.trimStart (c :: t) = Text.trimStart t := by simp [Text.trimStart,hc]
      have h₂ : Text.trimStart (d :: u) = Text.trimStart u := by simp [Text.trimStart,hd]
      rw [h₁,e,h₂,hu,ih]
    | false =>
      have h₁ : Text.trimStart (c :: t) = c :: t := by simp [Text.trimStart,hc]
      rw [h₁]

section
variable {α : Type} {R : Option α → Option α → Prop} (hr : R none none) {k : Text → Option α}
  (hn : ∀ t, t.head?.all (· == ';') = true → k t = none)
  (hk : ∀ c t, isBlank c = false → R (k (g (c :: t))) (k (c :: t)))
include hr hn hk

/-- Blanks, then what `k` reads, which is something and starts with no semicolon. -/
theorem rel_spaced (t : Text) : R (k (Text.trimStart (g t))) (k (Text.trimStart t)) := by
  rw [hg.trimStart]
  cases h : Text.trimStart t with
  | nil => rwa [hn _ hg.ending,hn [] rfl]
  | cons c u =>
    have hc := head_trimStart h
    have e : Text.trimStart (g (c :: u)) = g (c :: u) := by
      rw [hg.word c u hc]
      simp [Text.trimStart,hc]
    rw [e]
    exact hk c u hc

theorem rel_someBlanks (t : Text) : R ((blanks? (g t)).bind k) ((blanks? t).bind k) := by
  cases t with
  | nil =>
    have he := hg.ending
    cases h : g [] with
    | nil => exact hr
    | cons c u =>
      cases hc : isBlank c with
      | false => simpa [blanks?,hc] using hr
      | true =>
        have hu : (Text.trimStart u).head?.all (· == ';') = true := by
          simpa [h,Text.trimStart,hc] using he
        simpa [blanks?,hc,hn _ hu] using hr
  | cons c t =>
    cases hc : isBlank c with
    | true =>
      obtain ⟨d,u,e,hd,hu⟩ := hg.blank c t hc
      simpa [e,blanks?,hc,hd,hu] using hg.rel_spaced hr hn hk t
    | false =>
      rw [hg.word c t hc]
      simpa [blanks?,hc] using hr

end

variable {α : Type} {G : α → α} {k : Text → Option α} (hk : ∀ t, k (g t) = (k t).map G)
  (hn : ∀ t, t.head?.all (· == ';') = true → k t = none)
include hk hn

theorem spaced (t : Text) : k (Text.trimStart (g t)) = (k (Text.trimStart t)).map G :=
  hg.rel_spaced (R := fun x y => x = y.map G) rfl hn (fun _ _ _ => hk _) t

theorem someBlanks (t : Text) : (blanks? (g t)).bind k = ((blanks? t).bind k).map G :=
  hg.rel_someBlanks (R := fun x y => x = y.map G) rfl hn (fun _ _ _ => hk _) t

end KeepsWords

theorem keepsWords_crlf : KeepsWords crlf where
  word := by
    intro c t hc
    have hn : c ≠ '\n' := by
      intro e
      simp [e,isBlank] at hc
    exact crlf_cons hn t
  blank := by
    intro c t hc
    by_cases h : c = '\n'
    · exact ⟨'\r','\n' :: crlf t,by rw [h,crlf_feed],by decide,by simp [trimStart,isBlank]⟩
    · exact ⟨c,crlf t,crlf_cons h t,hc,rfl⟩
  ending := rfl

theorem keepsWords_append {s : Text} (hs : (trimStart s).head?.all (· == ';') = true) :
    KeepsWords (· ++ s) where
  word := fun _ _ _ => rfl
  blank := fun c t hc => ⟨c,t ++ s,rfl,hc,rfl⟩
  ending := hs

/-- Text after text, with a semicolon on a line of its own between them. -/
def divided (a b : Text) : Text := a ++ '\n' :: ';' :: '\n' :: b

theorem keepsWords_divided (b : Text) : KeepsWords (divided · b) := keepsWords_append rfl

theorem map_lines_divided {α : Type} {f : Text → α} (hf : ∀ l, f (l ++ ['\r']) = f l) (a b : Text) :
    (lines (divided a b)).map f = (lines a).map f ++
      (if a = [] ∨ a.getLast? = some '\n' then [f []] else []) ++ f [';'] :: (lines b).map f := by
  have h : lines (';' :: '\n' :: b) = [';'] :: lines b := lines_line (l := [';']) (by decide) b
  rw [divided,lines_append,List.map_append,map_lines_feed hf,h,List.map_cons]

theorem length_lines_divided (a b : Text) : (lines (divided a b)).length =
    (lines a).length + (lines b).length + if a = [] ∨ a.getLast? = some '\n' then 2 else 1 := by
  have h := congrArg List.length (map_lines_divided (f := fun _ => ()) (fun _ => rfl) a b)
  simp only [List.length_append,List.length_cons,List.length_map] at h
  rw [h]
  split <;> simp <;> omega

end Workbench.Text
