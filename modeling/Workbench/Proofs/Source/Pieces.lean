import Workbench.Proofs.Source.Parameters
set_option autoImplicit false

/-!
The pieces of any text, in order or not. The scanner is in its first state again behind every comma
that it cuts at, so that each piece is read as if it stood alone.
-/
namespace Workbench.Source
open Text

def Nesting.Quoting (s : Nesting) : Prop := ∀ q, s.quote = some q → isQuote q = true

theorem quoting_start : Nesting.start.Quoting := nofun

theorem Nesting.Quoting.plainStep {s : Nesting} (h : s.Quoting) (c : Char) :
    (s.plainStep c).Quoting := by
  intro q hq
  unfold Nesting.plainStep at hq
  split at hq
  · rename_i r hr
    split at hq
    · cases hq
    · exact h q hq
  · unfold Nesting.outside at hq
    split at hq
    · rename_i hc
      cases hq
      exact hc
    · split at hq
      · exact h q hq
      · split at hq <;> exact h q hq

theorem Nesting.Quoting.plainRun {s : Nesting} (h : s.Quoting) (t : Text) :
    (plainRun s t).Quoting := by
  induction t generalizing s with
  | nil => exact h
  | cons c t ih => exact ih (h.plainStep c)

theorem plain_of_blank {c : Char} (hc : isBlank c = true) :
    isQuote c = false ∧ isOpening c = false ∧ isClosing c = false ∧ c ≠ ',' :=
  forall_blank (P := fun c => isQuote c = false ∧ isOpening c = false ∧ isClosing c = false ∧ c ≠ ',')
    (by decide) hc

theorem Nesting.Quoting.plainStep_blank {s : Nesting} (h : s.Quoting) {c : Char}
    (hc : isBlank c = true) : s.plainStep c = s := by
  obtain ⟨hq,ho,hl,-⟩ := plain_of_blank hc
  unfold Nesting.plainStep
  split
  · rename_i q hs
    refine if_neg ?_
    rintro rfl
    rw [h c hs] at hq
    cases hq
  · exact outside_plain hq ho hl s

theorem Nesting.Quoting.plain_blanks {s : Nesting} (h : s.Quoting) {b : Text} (hb : Blanks b) :
    Source.plainRun s b = s ∧ breaks s b = false := by
  induction b with
  | nil => exact ⟨rfl,rfl⟩
  | cons c b ih =>
    obtain ⟨hc,hb⟩ := List.forall_mem_cons.1 hb
    obtain ⟨hr,hn⟩ := ih hb
    have hm : (c == ',') = false := beq_eq_false_iff_ne.2 (plain_of_blank hc).2.2.2
    have hs := h.plainStep_blank hc
    exact ⟨by rw [Source.plainRun,List.foldl_cons,hs]; exact hr,
      by rw [breaks,hs,hn,hm,Bool.and_false,Bool.or_false]⟩

theorem plain_trim (w : Text) : plainRun .start (trim w) = plainRun .start w ∧
    breaks .start (trim w) = breaks .start w := by
  obtain ⟨b,hb,hw,-⟩ := exists_trimStart w
  obtain ⟨d,hd,ht⟩ := exists_trimEnd (trimStart w)
  have hs := quoting_start.plain_blanks hb
  have he := (quoting_start.plainRun (trim w)).plain_blanks hd
  have e : w = b ++ (trim w ++ d) := by
    rw [trim,← ht]
    exact hw
  constructor
  · conv => rhs; rw [e,plainRun_append,plainRun_append,hs.1,he.1]
  · conv => rhs; rw [e,breaks_append,breaks_append,hs.1,hs.2,he.2,Bool.or_false,Bool.false_or]

theorem exists_piece {s : Nesting} {t : Text} (he : s.escaped = false) (h : breaks s t = true) :
    ∃ w u, t = w ++ ',' :: u ∧ breaks s w = false ∧ plainRun s w = .start := by
  induction t generalizing s with
  | nil => cases h
  | cons c t ih =>
    by_cases hc : (s.isTop && c == ',') = true
    · rw [Bool.and_eq_true,beq_iff_eq] at hc
      exact ⟨[],t,by rw [hc.2]; rfl,rfl,isTop_eq_start he hc.1⟩
    · rw [Bool.not_eq_true] at hc
      rw [breaks,hc,Bool.false_or] at h
      obtain ⟨w,u,rfl,hb,hr⟩ := ih ((plainStep_escaped s c).trans he) h
      exact ⟨c :: w,u,rfl,by rw [breaks,hc,hb]; rfl,hr⟩

/-- What holds of a text without commas outside and, piece by piece, of all that follows such a text
and a comma holds of every text. -/
@[elab_as_elim]
theorem piece_induction {motive : Text → Prop} (last : ∀ w, breaks .start w = false → motive w)
    (piece : ∀ w u, breaks .start w = false → plainRun .start w = .start → motive u →
      motive (w ++ ',' :: u)) (t : Text) : motive t := by
  cases h : breaks .start t with
  | false => exact last t h
  | true =>
    obtain ⟨w,u,ht,hb,hr⟩ := exists_piece rfl h
    have : u.length < t.length := by simp [ht]; omega
    exact ht ▸ piece w u hb hr (piece_induction last piece u)
termination_by t.length

theorem splitTop_blanks {w : Text} (hw : allBlank w = true) : splitTop w = [] := by
  have hb : breaks .start w = false := (quoting_start.plain_blanks (List.all_eq_true.1 hw)).2
  have hs : splitTopFrom .start (w ++ []) = [w ++ []] := splitTopFrom_append hb rfl
  rw [List.append_nil] at hs
  simp [splitTop,hs,(trim_eq_nil_iff w).2 hw]

theorem splitTop_pieces {w : Text} (hb : breaks .start w = false) (hr : plainRun .start w = .start)
    (u : Text) : splitTop (w ++ ',' :: u) = splitTop w ++ splitTop u := by
  have hs : splitTopFrom .start (w ++ ',' :: u) = (w ++ []) :: splitTopFrom .start u :=
    splitTopFrom_append hb (by rw [hr]; rfl)
  rw [List.append_nil] at hs
  cases hw : allBlank w with
  | true =>
    rw [splitTop_blanks hw,List.nil_append,splitTop,hs,List.map_cons,(trim_eq_nil_iff w).2 hw]
    rfl
  | false =>
    rw [splitTop_piece hw hb hr,splitTop_last hw hb]
    rfl

theorem splitTop_unbroken {w : Text} (hb : breaks .start w = false) :
    splitTop w = [] ∧ Blanks w ∨ splitTop w = [trim w] ∧ trim w ≠ [] := by
  cases hw : allBlank w with
  | true => exact .inl ⟨splitTop_blanks hw,List.all_eq_true.1 hw⟩
  | false =>
    refine .inr ⟨splitTop_last hw hb,fun h => ?_⟩
    rw [trim_eq_nil_iff,hw] at h
    cases h

theorem of_mem_splitTop {t p : Text} (h : p ∈ splitTop t) :
    trim p = p ∧ p ≠ [] ∧ breaks .start p = false := by
  have single : ∀ {w p : Text}, breaks .start w = false → p ∈ splitTop w →
      trim p = p ∧ p ≠ [] ∧ breaks .start p = false := by
    intro w p hb h
    rcases splitTop_unbroken hb with ⟨hw,-⟩ | ⟨hw,hn⟩
    · rw [hw] at h
      cases h
    · rw [hw,List.mem_singleton] at h
      subst h
      exact ⟨trim_trim w,hn,(plain_trim w).2.trans hb⟩
  induction t using piece_induction with
  | last w hb => exact single hb h
  | piece w u hb hr ih =>
    rw [splitTop_pieces hb hr] at h
    exact (List.mem_append.1 h).elim (single hb) ih

theorem separate_splitTop (t : Text) : Separate (splitTop t) := by
  refine ⟨fun p hp => (of_mem_splitTop hp).2.2,?_⟩
  induction t using piece_induction with
  | last w hb =>
    rcases splitTop_unbroken hb with ⟨hw,-⟩ | ⟨hw,-⟩ <;> simp [hw]
  | piece w u hb hr ih =>
    intro p hp
    have hc : ∀ p ∈ splitTop w, (plainRun .start p).isTop = true := by
      intro p hp
      rcases splitTop_unbroken hb with ⟨hw,-⟩ | ⟨hw,-⟩
      · rw [hw] at hp
        cases hp
      · rw [hw,List.mem_singleton] at hp
        rw [hp,(plain_trim w).1,hr]
        rfl
    rw [splitTop_pieces hb hr] at hp
    by_cases hu : splitTop u = []
    · rw [hu,List.append_nil] at hp
      exact hc p ((List.dropLast_sublist _).subset hp)
    · rw [List.dropLast_append_of_ne_nil hu] at hp
      exact (List.mem_append.1 hp).elim (hc p) (ih p)

/-- Commas and blanks. -/
def Loose (g : Text) : Prop := ∀ c ∈ g, c = ',' ∨ isBlank c = true

/-- The parts stand in the text one behind the other, with commas and blanks around them. -/
inductive Scattered : List Text → Text → Prop where
  | nil {g : Text} (hg : Loose g) : Scattered [] g
  | cons {g p t : Text} {ps : List Text} (hg : Loose g) (h : Scattered ps t) :
    Scattered (p :: ps) (g ++ (p ++ t))

theorem Loose.append {g k : Text} (hg : Loose g) (hk : Loose k) : Loose (g ++ k) :=
  List.forall_mem_append.2 ⟨hg,hk⟩

theorem loose_of_blanks {b : Text} (hb : Blanks b) : Loose b := fun c hc => .inr (hb c hc)

theorem Scattered.behind {ps : List Text} {t g : Text} (h : Scattered ps t) (hg : Loose g) :
    Scattered ps (g ++ t) := by
  cases h with
  | nil hk => exact .nil (hg.append hk)
  | cons hk h =>
    rw [← List.append_assoc]
    exact .cons (hg.append hk) h

theorem scattered_unbroken {w : Text} (hb : breaks .start w = false) {ps : List Text} {t : Text}
    (h : Scattered ps t) : Scattered (splitTop w ++ ps) (w ++ t) := by
  rcases splitTop_unbroken hb with ⟨hw,hl⟩ | ⟨hw,-⟩
  · rw [hw,List.nil_append]
    exact h.behind (loose_of_blanks hl)
  · obtain ⟨b,hbl,he,-⟩ := exists_trimStart w
    obtain ⟨d,hd,ht⟩ := exists_trimEnd (trimStart w)
    have e : w ++ t = b ++ (trim w ++ (d ++ t)) := by
      rw [← List.append_assoc (trim w),trim,← ht,← List.append_assoc,← he]
    rw [hw,e]
    exact .cons (loose_of_blanks hbl) (h.behind (loose_of_blanks hd))

theorem scattered_splitTop (t : Text) : Scattered (splitTop t) t := by
  induction t using piece_induction with
  | last w hb =>
    have h := scattered_unbroken hb (.nil (g := []) nofun)
    rwa [List.append_nil,List.append_nil] at h
  | piece w u hb hr ih =>
    rw [splitTop_pieces hb hr]
    have hg : Loose [','] := List.forall_mem_singleton.2 (.inl rfl)
    exact scattered_unbroken hb (ih.behind hg)

/-- However a text is made, its parts are trimmed and not empty, they are cut no further when they are
cut again, one by one or joined together, and all of the text that is in none of them is commas and
blanks. No part holds a comma that is outside of its brackets and strings. -/
theorem splitTop_stable (t : Text) :
    (∀ p ∈ splitTop t, trim p = p ∧ p ≠ [] ∧ splitTop p = [p]) ∧
    Scattered (splitTop t) t ∧ Separate (splitTop t) ∧
    splitTop (joinWith [',',' '] (splitTop t)) = splitTop t := by
  have hp : ∀ p ∈ splitTop t, trim p = p ∧ allBlank p = false := by
    intro p hp
    obtain ⟨ht,hn,-⟩ := of_mem_splitTop hp
    refine ⟨ht,Bool.eq_false_iff.2 fun h => hn ?_⟩
    rwa [← trim_eq_nil_iff,ht] at h
  refine ⟨fun p h => ?_,scattered_splitTop t,separate_splitTop t,
    splitTop_joined hp (separate_splitTop t)⟩
  obtain ⟨ht,hn,hb⟩ := of_mem_splitTop h
  exact ⟨ht,hn,by rw [splitTop_last (hp p h).2 hb,ht]⟩

end Workbench.Source
