import Workbench.Text.Lines
set_option autoImplicit false

/-!
Splitting a text at a separator and joining the pieces again undo each other. A line stands in the
text between the ends of lines. Lines are read one after another, so texts that are put together at
the end of a line have the lines of both, and a reader that ignores a final carriage return cannot
tell line feeds from carriage returns with line feeds.
-/
namespace Workbench.Text
variable {sep : Char}

theorem splitWhere_append {p : Char → Bool} {c : Char} (hc : p c = true) (a b : Text) :
    splitWhere p (a ++ c :: b) = splitWhere p a ++ splitWhere p b := by
  induction a with
  | nil => simp [splitWhere,hc]
  | cons d a ih =>
    obtain ⟨w,ws,e⟩ := List.exists_cons_of_ne_nil (splitWhere_ne_nil p a)
    cases hd : p d <;> simp [splitWhere,hd,ih,e]

theorem splitWhere_map {p : Char → Bool} {f : Char → Char} (hf : ∀ c, p (f c) = p c) (t : Text) :
    splitWhere p (t.map f) = (splitWhere p t).map (·.map f) := by
  induction t with
  | nil => rfl
  | cons c t ih =>
    rw [List.map_cons,splitWhere,splitWhere,hf,ih]
    cases p c with
    | true => rfl
    | false => cases splitWhere p t <;> rfl

theorem splitWhere_of_forall {p : Char → Bool} {w : Text} (h : ∀ c ∈ w, p c = false) :
    splitWhere p w = [w] := by
  induction w with
  | nil => rfl
  | cons c w ih =>
    obtain ⟨hc,hw⟩ := List.forall_mem_cons.1 h
    simp [splitWhere,hc,ih hw]

theorem splitOn_sep (t : Text) : splitOn sep (sep :: t) = [] :: splitOn sep t := by
  simp [splitOn,splitWhere]

theorem splitOn_other {c : Char} (h : c ≠ sep) (t : Text) : ∃ w ws,
    splitOn sep t = w :: ws ∧ splitOn sep (c :: t) = (c :: w) :: ws := by
  obtain ⟨w,ws,e⟩ := List.exists_cons_of_ne_nil (splitWhere_ne_nil (· == sep) t)
  exact ⟨w,ws,e,by simp [splitOn,splitWhere,h,e]⟩

theorem joinWith_cons_cons (s c w : Text) (ws : List Text) :
    joinWith s ((c ++ w) :: ws) = c ++ joinWith s (w :: ws) := by
  cases ws <;> simp [joinWith]

theorem joinWith_nil_cons (s : Text) {ws : List Text} (h : ws ≠ []) :
    joinWith s ([] :: ws) = s ++ joinWith s ws := by
  cases ws with
  | nil => exact absurd rfl h
  | cons w ws => simp [joinWith]

theorem joinWith_splitOn (t : Text) : joinWith [sep] (splitOn sep t) = t := by
  induction t with
  | nil => rfl
  | cons c t ih =>
    by_cases hc : c = sep
    · subst hc
      have hn : splitOn c t ≠ [] := splitWhere_ne_nil _ t
      rw [splitOn_sep,joinWith_nil_cons _ hn,ih]; rfl
    · obtain ⟨w,ws,e,f⟩ := splitOn_other hc t
      have := joinWith_cons_cons [sep] [c] w ws
      rw [e] at ih
      rwa [f,ih] at *

theorem not_mem_of_mem_splitOn {t p : Text} (h : p ∈ splitOn sep t) : sep ∉ p := by
  induction t generalizing p with
  | nil => rw [List.mem_singleton.1 h]; exact List.not_mem_nil
  | cons c t ih =>
    by_cases hc : c = sep
    · subst hc
      rw [splitOn_sep] at h
      rcases List.mem_cons.1 h with rfl | h
      · exact List.not_mem_nil
      · exact ih h
    · obtain ⟨w,ws,e,f⟩ := splitOn_other hc t
      rw [f] at h
      rcases List.mem_cons.1 h with rfl | h
      · have hw : sep ∉ w := ih (by rw [e]; exact List.mem_cons_self)
        simp [hw,Ne.symm hc]
      · exact ih (by rw [e]; exact List.mem_cons_of_mem _ h)

theorem splitOn_append (a b : Text) :
    splitOn sep (a ++ sep :: b) = splitOn sep a ++ splitOn sep b :=
  splitWhere_append (p := (· == sep)) (beq_self_eq_true sep) a b

theorem splitOn_piece {p : Text} (h : sep ∉ p) (t : Text) :
    splitOn sep p = [p] ∧ splitOn sep (p ++ sep :: t) = p :: splitOn sep t := by
  have hp : splitOn sep p = [p] :=
    splitWhere_of_forall fun c hc => beq_eq_false_iff_ne.2 (ne_of_mem_of_not_mem hc h)
  exact ⟨hp,by rw [splitOn_append,hp,List.singleton_append]⟩

theorem splitOn_append_other {w : Char} (hw : w ≠ sep) (t : Text) : ∃ ps q,
    splitOn sep t = ps ++ [q] ∧ splitOn sep (t ++ [w]) = ps ++ [q ++ [w]] := by
  induction t with
  | nil => exact ⟨[],[],rfl,by simp [splitOn,splitWhere,hw]⟩
  | cons c t ih =>
    obtain ⟨ps,q,h₁,h₂⟩ := ih
    by_cases hc : c = sep
    · subst hc
      exact ⟨[] :: ps,q,by rw [splitOn_sep,h₁]; rfl,by rw [List.cons_append,splitOn_sep,h₂]; rfl⟩
    · obtain ⟨v,vs,e,f⟩ := splitOn_other hc t
      obtain ⟨x,xs,e',f'⟩ := splitOn_other hc (t ++ [w])
      rw [h₁] at e
      rw [h₂] at e'
      rw [List.cons_append,f,f']
      cases ps with
      | nil =>
        obtain ⟨rfl,rfl⟩ := List.cons_eq_cons.1 e
        obtain ⟨rfl,rfl⟩ := List.cons_eq_cons.1 e'
        exact ⟨[],c :: q,rfl,rfl⟩
      | cons p ps =>
        obtain ⟨rfl,rfl⟩ := List.cons_eq_cons.1 e
        obtain ⟨rfl,rfl⟩ := List.cons_eq_cons.1 e'
        exact ⟨(c :: p) :: ps,q,rfl,rfl⟩

theorem splitOn_joinWith {ps : List Text} (hn : ps ≠ []) (h : ∀ p ∈ ps, sep ∉ p) :
    splitOn sep (joinWith [sep] ps) = ps := by
  induction ps using joinWith.induct with
  | case1 => exact absurd rfl hn
  | case2 p => exact (splitOn_piece (h p (by simp)) []).1
  | case3 p ps hp ih =>
    have e := ih (by simpa using hp) fun q hq => h q (List.mem_cons_of_mem _ hq)
    rw [joinWith,List.append_assoc,List.singleton_append,
      (splitOn_piece (h p (by simp)) _).2,e]
    simpa using hp

theorem mem_joinWith {s : Text} {ws : List Text} {c : Char} (h : c ∈ joinWith s ws) :
    c ∈ s ∨ ∃ w ∈ ws, c ∈ w := by
  induction ws using joinWith.induct with
  | case1 => simp [joinWith] at h
  | case2 w => exact .inr ⟨w,List.mem_singleton_self w,h⟩
  | case3 w ws hn ih =>
    rw [joinWith.eq_3 s w ws hn,List.mem_append,List.mem_append] at h
    rcases h with (h | h) | h
    · exact .inr ⟨w,List.mem_cons_self,h⟩
    · exact .inl h
    · exact (ih h).imp_right fun ⟨v,hv,hc⟩ => ⟨v,List.mem_cons_of_mem _ hv,hc⟩

theorem mem_joinWith_of_mem {s w : Text} {ws : List Text} {c : Char} (hw : w ∈ ws) (h : c ∈ w) :
    c ∈ joinWith s ws := by
  induction ws using joinWith.induct with
  | case1 => simp at hw
  | case2 v =>
    rw [List.mem_singleton.1 hw] at h
    exact h
  | case3 v ws hn ih =>
    rw [joinWith.eq_3 s v ws hn,List.mem_append,List.mem_append]
    rcases List.mem_cons.1 hw with rfl | hw
    · exact .inl (.inl h)
    · exact .inr (ih hw)

theorem joinWith_append (a b w : Text) (ws : List Text) :
    joinWith (a ++ b) (w :: ws) = joinWith a (w :: ws.map (b ++ ·)) := by
  induction ws generalizing w with
  | nil => rfl
  | cons v ws ih =>
    have e := joinWith_cons_cons a b v (ws.map (b ++ ·))
    calc joinWith (a ++ b) (w :: v :: ws)
        = w ++ (a ++ b) ++ joinWith (a ++ b) (v :: ws) := rfl
      _ = w ++ a ++ (b ++ joinWith a (v :: ws.map (b ++ ·))) := by rw [ih]; simp
      _ = joinWith a (w :: (v :: ws).map (b ++ ·)) := by rw [← e]; rfl

def ended (ls : List Text) : Text := ls.flatMap (· ++ ['\n'])

theorem ended_append (ls ms : List Text) : ended (ls ++ ms) = ended ls ++ ended ms :=
  List.flatMap_append

/-- The lines come back if and only if none of them holds a line feed itself. -/
theorem splitOn_ended (ls : List Text) :
    splitOn '\n' (ended ls) = ls ++ [[]] ↔ ∀ l ∈ ls, '\n' ∉ l := by
  constructor
  · intro h l hl
    refine not_mem_of_mem_splitOn (t := ended ls) ?_
    rw [h]
    exact List.mem_append_left _ hl
  · intro h
    induction ls with
    | nil => rfl
    | cons l ls ih =>
      have e : ended (l :: ls) = l ++ '\n' :: ended ls := by simp [ended]
      rw [e,(splitOn_piece (h l List.mem_cons_self) _).2,
        ih fun m hm => h m (List.mem_cons_of_mem _ hm),List.cons_append]

theorem joinWith_ended (s : List Text) (bs : List (List Text)) :
    joinWith (ended s) (bs.map ended) = ended (s.intercalate bs) := by
  induction bs with
  | nil => rfl
  | cons b bs ih =>
    cases bs with
    | nil => rw [List.intercalate_singleton,List.map_singleton,joinWith]
    | cons d bs =>
      rw [List.intercalate_cons_cons,ended_append,ended_append,← ih]
      rfl

theorem forall_mem_intercalate {α : Type} {P : α → Prop} {s : List α} (hs : ∀ a ∈ s, P a)
    (bs : List (List α)) : (∀ a ∈ s.intercalate bs, P a) ↔ ∀ b ∈ bs, ∀ a ∈ b, P a := by
  induction bs with
  | nil => simp
  | cons b bs ih =>
    cases bs with
    | nil => simp
    | cons d bs =>
      have h : (∀ a ∈ s, P a) ↔ True := iff_true_intro hs
      simp only [List.intercalate_cons_cons,List.forall_mem_append,h,and_true,ih,
        List.forall_mem_cons]

/-- Nothing more, or the end of a line. -/
def LineEnd (t : Text) : Prop := t = [] ∨ (∃ u, t = '\n' :: u) ∨ ∃ u, t = '\r' :: '\n' :: u

theorem lines_eq_nil {t : Text} (h : lines t = []) : t = [] := by
  cases t with
  | nil => rfl
  | cons c cs =>
    unfold lines at h
    split at h
    · simp_all
    · simp at h
    · simp at h
    · split at h <;> simp at h

theorem lines_eq_cons {t l : Text} {ls : List Text} (h : lines t = l :: ls) :
    (∃ v, t = l ++ v ∧ LineEnd v) ∧ ∀ k ∈ ls, ∃ u v, t = u ++ '\n' :: (k ++ v) ∧ LineEnd v := by
  -- What follows the first line is a text of lines itself, so its first line is one of the others.
  have later : ∀ {a cs : Text}, (∀ l ls, lines cs = l :: ls → (∃ v, cs = l ++ v ∧ LineEnd v) ∧
      ∀ k ∈ ls, ∃ u v, cs = u ++ '\n' :: (k ++ v) ∧ LineEnd v) →
      ∀ k ∈ lines cs, ∃ u v, a ++ '\n' :: cs = u ++ '\n' :: (k ++ v) ∧ LineEnd v := by
    intro a cs ih k hk
    cases hl : lines cs with
    | nil => simp [hl] at hk
    | cons l ls =>
      obtain ⟨⟨v,hv,he⟩,hr⟩ := ih l ls hl
      rw [hl] at hk
      rcases List.mem_cons.1 hk with rfl | hk
      · exact ⟨a,v,by rw [hv],he⟩
      · obtain ⟨u,v,hv,he⟩ := hr k hk
        exact ⟨a ++ '\n' :: u,v,by rw [hv]; simp,he⟩
  induction t using lines.induct generalizing l ls with
  | case1 => simp [lines] at h
  | case2 cs ih =>
    rw [lines,List.cons.injEq] at h
    obtain ⟨rfl,rfl⟩ := h
    exact ⟨⟨_,rfl,.inr (.inr ⟨cs,rfl⟩)⟩,later (a := ['\r']) fun l ls hl => ih hl⟩
  | case3 cs ih =>
    rw [lines,List.cons.injEq] at h
    obtain ⟨rfl,rfl⟩ := h
    exact ⟨⟨_,rfl,.inr (.inl ⟨cs,rfl⟩)⟩,later (a := []) fun l ls hl => ih hl⟩
  | case4 c cs hr hn he ih =>
    rw [lines.eq_4 _ _ hr hn,he,List.cons.injEq] at h
    obtain ⟨rfl,rfl⟩ := h
    rw [lines_eq_nil he]
    exact ⟨⟨[],rfl,.inl rfl⟩,by simp⟩
  | case5 c cs hr hn m ms he ih =>
    rw [lines.eq_4 _ _ hr hn,he,List.cons.injEq] at h
    obtain ⟨rfl,rfl⟩ := h
    obtain ⟨⟨v,hv,hl⟩,hk⟩ := ih he
    refine ⟨⟨v,by rw [hv]; rfl,hl⟩,fun k hm => ?_⟩
    obtain ⟨u,w,hw,hl⟩ := hk k hm
    exact ⟨c :: u,w,by rw [hw]; rfl,hl⟩

theorem lines_of_not_mem {t : Text} (hn : t ≠ []) (h : '\n' ∉ t) : lines t = [t] := by
  cases hl : lines t with
  | nil => exact absurd (lines_eq_nil hl) hn
  | cons l ls =>
    obtain ⟨⟨v,rfl,hv⟩,hk⟩ := lines_eq_cons hl
    have hls : ls = [] := List.eq_nil_iff_forall_not_mem.2 fun k hm => by
      obtain ⟨u,w,e,-⟩ := hk k hm
      rw [e] at h
      simp at h
    rcases hv with rfl | ⟨u,rfl⟩ | ⟨u,rfl⟩
    · rw [hls,List.append_nil]
    · simp at h
    · simp at h

theorem mem_lines {t l : Text} (h : l ∈ lines t) : ∃ u v, t = u ++ (l ++ v) ∧
    (u = [] ∨ ∃ a, u = a ++ ['\n']) ∧ LineEnd v := by
  cases hl : lines t with
  | nil => simp [hl] at h
  | cons k ls =>
    obtain ⟨⟨v,hv,he⟩,hr⟩ := lines_eq_cons hl
    rw [hl] at h
    rcases List.mem_cons.1 h with rfl | h
    · exact ⟨[],v,hv,.inl rfl,he⟩
    · obtain ⟨u,v,hv,he⟩ := hr l h
      exact ⟨u ++ ['\n'],v,by rw [hv]; simp,.inr ⟨u,rfl⟩,he⟩

def dropReturn : Text → Text
  | [] => []
  | c :: cs => if c = '\r' ∧ cs = [] then [] else c :: dropReturn cs

theorem dropReturn_return (l : Text) : dropReturn (l ++ ['\r']) = l := by
  induction l with
  | nil => rfl
  | cons c l ih => simp [dropReturn,ih]

theorem eq_dropReturn (l : Text) : l = dropReturn l ∨ l = dropReturn l ++ ['\r'] := by
  induction l with
  | nil => exact .inl rfl
  | cons c l ih =>
    by_cases h : c = '\r' ∧ l = []
    · right
      simp [dropReturn,h]
    · simpa [dropReturn,h] using ih

theorem lines_line {l : Text} (h : '\n' ∉ l) (t : Text) :
    lines (l ++ '\n' :: t) = dropReturn l :: lines t := by
  induction l with
  | nil => simp [lines,dropReturn]
  | cons c l ih =>
    simp only [List.mem_cons,not_or] at h
    obtain ⟨hc,hl⟩ := h
    by_cases hr : c = '\r' ∧ l = []
    · simp [hr,lines,dropReturn]
    · have hn : ∀ cs, c = '\r' → l ++ '\n' :: t = '\n' :: cs → False := by
        intro cs he ht
        cases l with
        | nil => exact hr ⟨he,rfl⟩
        | cons d l => simp [(List.cons_eq_cons.1 ht).1] at hl
      rw [List.cons_append,lines.eq_4 _ _ hn (Ne.symm hc),ih hl]
      simp [dropReturn,hr]

/-- What holds of a text without line feeds and, line by line, of all that follows such a text
holds of every text. -/
@[elab_as_elim]
theorem line_induction {motive : Text → Prop} (last : ∀ l, '\n' ∉ l → motive l)
    (line : ∀ l t, '\n' ∉ l → motive t → motive (l ++ '\n' :: t)) (t : Text) : motive t := by
  by_cases h : '\n' ∈ t
  · obtain ⟨l,u,ht,hl⟩ := List.eq_append_cons_of_mem h
    have : u.length < t.length := by simp [ht]; omega
    exact ht ▸ line l u hl (line_induction last line u)
  · exact last t h
termination_by t.length

theorem feed_not_mem_lines {t l : Text} (h : l ∈ lines t) : '\n' ∉ l := by
  induction t using line_induction with
  | last t ht =>
    by_cases hn : t = []
    · rw [hn] at h
      exact absurd h List.not_mem_nil
    · rw [lines_of_not_mem hn ht] at h
      rwa [List.mem_singleton.1 h]
  | line k t hk ih =>
    rw [lines_line hk] at h
    rcases List.mem_cons.1 h with rfl | h
    · intro hm
      rcases eq_dropReturn k with he | he <;> exact hk (by rw [he]; simp [hm])
    · exact ih h

theorem lines_append (a b : Text) : lines (a ++ '\n' :: b) = lines (a ++ ['\n']) ++ lines b := by
  induction a using line_induction with
  | last l h => simp [lines_line h,lines]
  | line l t h ih => simp [lines_line h,ih]

section
variable {α : Type} {f : Text → α} (hf : ∀ l, f (l ++ ['\r']) = f l)
include hf

theorem apply_dropReturn (l : Text) : f (dropReturn l) = f l := by
  obtain h | h := eq_dropReturn l
  · rw [← h]
  · calc f (dropReturn l) = f (dropReturn l ++ ['\r']) := (hf _).symm
      _ = f l := by rw [← h]

/-- A line feed at the end adds an empty line, unless it ends a line that was begun. -/
theorem map_lines_feed (a : Text) : (lines (a ++ ['\n'])).map f =
    (lines a).map f ++ if a = [] ∨ a.getLast? = some '\n' then [f []] else [] := by
  induction a using line_induction with
  | last l h =>
    have hl : l.getLast? ≠ some '\n' := fun e => h (List.mem_of_getLast? e)
    rw [lines_line h]
    by_cases hn : l = []
    · simp [hn,lines,dropReturn]
    · simp [hn,hl,lines_of_not_mem hn h,apply_dropReturn hf,lines]
  | line l t h ih =>
    have he : ('\n' :: t).getLast? = some '\n' ↔ t = [] ∨ t.getLast? = some '\n' := by
      cases t <;> simp [List.getLast?_cons]
    simp [lines_line h,ih,he]

end

def crlf (t : Text) : Text := t.flatMap fun c => if c = '\n' then ['\r','\n'] else [c]

theorem crlf_feed (t : Text) : crlf ('\n' :: t) = '\r' :: '\n' :: crlf t := rfl

theorem crlf_cons {c : Char} (h : c ≠ '\n') (t : Text) : crlf (c :: t) = c :: crlf t := by
  simp [crlf,h]

theorem crlf_line {l : Text} (h : '\n' ∉ l) (t : Text) : crlf (l ++ t) = l ++ crlf t := by
  induction l with
  | nil => rfl
  | cons c l ih =>
    simp only [List.mem_cons,not_or] at h
    rw [List.cons_append,crlf_cons (Ne.symm h.1),ih h.2,List.cons_append]

theorem map_lines_crlf {α : Type} {f : Text → α} (hf : ∀ l, f (l ++ ['\r']) = f l) (t : Text) :
    (lines (crlf t)).map f = (lines t).map f := by
  induction t using line_induction with
  | last l h =>
    have e : crlf l = l := by simpa [crlf] using crlf_line h []
    rw [e]
  | line l t h ih =>
    have hr : '\n' ∉ l ++ ['\r'] := by simp [h]
    have e : crlf (l ++ '\n' :: t) = (l ++ ['\r']) ++ '\n' :: crlf t := by
      rw [crlf_line h,crlf_feed]
      simp
    rw [e,lines_line hr,lines_line h]
    simp [dropReturn_return,apply_dropReturn hf,ih]

theorem length_lines_crlf (t : Text) : (lines (crlf t)).length = (lines t).length := by
  simpa using congrArg List.length (map_lines_crlf (f := fun _ => ()) (fun _ => rfl) t)

end Workbench.Text
