import Workbench.Proofs.Source.Depth
set_option autoImplicit false

/-!
Only the indents of code lines count for the depth of a text. Spaces in front of every line make it
deeper by as many units as they are, and a line that is blank or a comment can stand anywhere.
-/
namespace Workbench.Source
open Text

def CodeAt (n : Nat) (l : Text) : Prop :=
  ∃ b c u, l = b ++ c :: u ∧ b.length = n ∧ Blanks b ∧ isBlank c = false ∧ c ≠ '#'

/-- A line that is blank, or a comment from its first character on that is no blank. -/
def Idle (l : Text) : Prop := Blanks l ∨ ∃ b u, l = b ++ '#' :: u ∧ Blanks b

theorem trim_head {b : Text} (hb : Blanks b) {c : Char} (hc : isBlank c = false) (u : Text) :
    trim (b ++ c :: u) = c :: trimEnd u := by
  have hs : trimStart (c :: u) = c :: u := trimStart_of_head (by simp [hc])
  rw [trim_blanks_append hb,trim,hs,trimEnd_cons hc]

theorem isCodeLine_of_codeAt {n : Nat} {l : Text} (h : CodeAt n l) :
    isCodeLine ['#'] l = true := by
  obtain ⟨b,c,u,rfl,-,hb,hc,hn⟩ := h
  simp [isCodeLine,trim_head hb hc,after?,Ne.symm hn]

theorem indent_of_codeAt {n : Nat} {l : Text} (h : CodeAt n l) : indent l = n := by
  obtain ⟨b,c,u,rfl,hl,hb,hc,-⟩ := h
  rw [indent,List.takeWhile_append_of_pos hb,takeWhile_of_head (by simp [hc]),List.append_nil,hl]

theorem isCodeLine_of_idle {l : Text} (h : Idle l) : isCodeLine ['#'] l = false := by
  obtain h | ⟨b,u,rfl,hb⟩ := h
  · have ht : trim l = [] := (trim_eq_nil_iff l).2 (List.all_eq_true.2 h)
    rw [isCodeLine,ht]
  · simp [isCodeLine,trim_head hb (show isBlank '#' = false by decide),after?]

theorem idle_or_codeAt (l : Text) : Idle l ∨ CodeAt (indent l) l := by
  obtain ⟨b,r,hl,hi,-,hb,hr⟩ := exists_span isBlank l
  cases r with
  | nil =>
    rw [List.append_nil] at hl
    exact .inl (.inl (hl ▸ hb))
  | cons c u =>
    by_cases hc : c = '#'
    · exact .inl (.inr ⟨b,u,hc ▸ hl,hb⟩)
    · exact .inr ⟨b,c,u,hl,by rw [indent,hi],hb,by simpa using hr,hc⟩

theorem codeAt_iff {n : Nat} {l : Text} :
    CodeAt n l ↔ isCodeLine ['#'] l = true ∧ indent l = n := by
  constructor
  · exact fun h => ⟨isCodeLine_of_codeAt h,indent_of_codeAt h⟩
  · rintro ⟨hc,rfl⟩
    refine (idle_or_codeAt l).resolve_left fun h => ?_
    rw [isCodeLine_of_idle h] at hc
    cases hc

theorem codeAt_append {b : Text} (hb : Blanks b) {n : Nat} {l : Text} :
    CodeAt n (b ++ l) ↔ ∃ m, CodeAt m l ∧ n = b.length + m := by
  have hc : isCodeLine ['#'] (b ++ l) = isCodeLine ['#'] l := by
    rw [isCodeLine,isCodeLine,trim_blanks_append hb]
  have hi : indent (b ++ l) = b.length + indent l := by
    rw [indent,List.takeWhile_append_of_pos hb,List.length_append,indent]
  simp only [codeAt_iff,hc,hi]
  constructor
  · rintro ⟨h,rfl⟩
    exact ⟨_,⟨h,rfl⟩,rfl⟩
  · rintro ⟨m,⟨h,rfl⟩,rfl⟩
    exact ⟨h,rfl⟩

theorem lineDepth_of_idle {l : Text} (h : Idle l) : lineDepth .python l = 0 := by
  rw [lineDepth,show Profile.python.commentMark = ['#'] from rfl,isCodeLine_of_idle h]
  rfl

theorem le_deepest_iff {m : Nat} (hm : 0 < m) {f : Text → Nat} {ls : List Text} :
    m ≤ deepest (ls.map f) ↔ ∃ l ∈ ls, m ≤ f l := by
  induction ls with
  | nil => simp [deepest]; omega
  | cons l ls ih =>
    have hc : m ≤ max (f l) (deepest (ls.map f)) ↔ m ≤ f l ∨ m ≤ deepest (ls.map f) := by omega
    rw [List.map_cons,deepest_cons,hc,ih]
    simp

theorem le_lineDepth_iff {d : Nat} (hd : 0 < d) {l : Text} :
    d ≤ lineDepth .python l ↔ ∃ n, CodeAt n l ∧ 4*d ≤ n := by
  have hu : max Profile.python.indentUnit 1 = 4 := rfl
  rw [lineDepth,hu,show Profile.python.commentMark = ['#'] from rfl]
  constructor
  · intro h
    split at h
    · rename_i hc
      exact ⟨indent l,codeAt_iff.2 ⟨hc,rfl⟩,by omega⟩
    · omega
  · rintro ⟨n,hn,hl⟩
    rw [if_pos (isCodeLine_of_codeAt hn),indent_of_codeAt hn]
    omega

theorem le_depth_iff {d : Nat} (hd : 0 < d) {t : Text} :
    d ≤ depth .python t ↔ ∃ l ∈ lines t, ∃ n, CodeAt n l ∧ 4*d ≤ n := by
  rw [depth_eq,le_deepest_iff hd]
  simp only [le_lineDepth_iff hd]

theorem depth_eq_iff {d : Nat} {t : Text} : depth .python t = d ↔
    (∀ l ∈ lines t, ∀ n, CodeAt n l → n < 4*(d+1)) ∧
      (0 < d → ∃ l ∈ lines t, ∃ n, CodeAt n l ∧ 4*d ≤ n) := by
  have hup : (∀ l ∈ lines t, ∀ n, CodeAt n l → n < 4*(d+1)) ↔ ¬ d+1 ≤ depth .python t := by
    rw [le_depth_iff (Nat.succ_pos d)]
    simp only [not_exists,not_and,Nat.not_le]
  rw [hup]
  constructor
  · rintro rfl
    exact ⟨by omega,fun h => (le_depth_iff h).1 (Nat.le_refl _)⟩
  · rintro ⟨hn,hd⟩
    rcases Nat.eq_zero_or_pos d with rfl | h
    · omega
    · have := (le_depth_iff h).2 (hd h)
      omega

def behindFeeds (s : Text) : Text → Text
  | [] => []
  | c :: t => if c = '\n' ∧ t ≠ [] then c :: (s ++ behindFeeds s t) else c :: behindFeeds s t

def shifted (s t : Text) : Text := if t = [] then [] else s ++ behindFeeds s t

theorem behindFeeds_last (s : Text) {l : Text} (h : '\n' ∉ l) : behindFeeds s l = l := by
  induction l with
  | nil => rfl
  | cons c l ih =>
    simp only [List.mem_cons,not_or] at h
    rw [behindFeeds,if_neg (by simp [Ne.symm h.1]),ih h.2]

theorem behindFeeds_line (s : Text) {l : Text} (h : '\n' ∉ l) (t : Text) :
    behindFeeds s (l ++ '\n' :: t) = l ++ '\n' :: shifted s t := by
  induction l with
  | nil => by_cases ht : t = [] <;> simp [behindFeeds,shifted,ht]
  | cons c l ih =>
    simp only [List.mem_cons,not_or] at h
    rw [List.cons_append,behindFeeds,if_neg (by simp [Ne.symm h.1]),ih h.2,List.cons_append]

theorem shifted_line (s : Text) {l : Text} (h : '\n' ∉ l) (t : Text) :
    shifted s (l ++ '\n' :: t) = (s ++ l) ++ '\n' :: shifted s t := by
  rw [shifted,if_neg (by simp),behindFeeds_line s h,List.append_assoc]

theorem dropReturn_append {s : Text} (hs : '\r' ∉ s) (l : Text) :
    dropReturn (s ++ l) = s ++ dropReturn l := by
  induction s with
  | nil => rfl
  | cons c s ih =>
    simp only [List.mem_cons,not_or] at hs
    rw [List.cons_append,dropReturn,if_neg fun h => hs.1 h.1.symm,ih hs.2,List.cons_append]

theorem lines_shifted {s : Text} (hn : '\n' ∉ s) (hr : '\r' ∉ s) (t : Text) :
    lines (shifted s t) = (lines t).map (s ++ ·) := by
  induction t using line_induction with
  | last l h =>
    by_cases hl : l = []
    · subst hl
      rfl
    · rw [shifted,if_neg hl,behindFeeds_last s h,lines_of_not_mem hl h,
        lines_of_not_mem (by simp [hl]) (by simp [hn,h]),List.map_singleton]
  | line l t h ih =>
    rw [shifted_line s h,lines_line (by simp [hn,h]),lines_line h,List.map_cons,ih,
      dropReturn_append hr]

def spaces (n : Nat) : Text := List.replicate n ' '

theorem lines_shifted_spaces (n : Nat) (t : Text) :
    lines (shifted (spaces n) t) = (lines t).map (spaces n ++ ·) := by
  have hc : ∀ c ∈ spaces n, c = ' ' := fun c => List.eq_of_mem_replicate
  exact lines_shifted (fun h => absurd (hc _ h) (by decide)) (fun h => absurd (hc _ h) (by decide)) t

/-- Each code line has `4*k` blanks more, and there are no other code lines. -/
theorem depth_shifted {t : Text} (h : ∃ l ∈ lines t, ∃ n, CodeAt n l) (k : Nat) :
    depth .python (shifted (spaces (4*k)) t) = depth .python t + k := by
  have hb : Blanks (spaces (4*k)) := fun c hc => by
    rw [List.eq_of_mem_replicate hc]
    decide
  have hl : (spaces (4*k)).length = 4*k := List.length_replicate
  obtain ⟨hup,hlow⟩ := (depth_eq_iff (t := t)).1 rfl
  rw [depth_eq_iff,lines_shifted_spaces]
  constructor
  · intro l hm n hc
    obtain ⟨m,hin,rfl⟩ := List.mem_map.1 hm
    obtain ⟨n,hn,rfl⟩ := (codeAt_append hb).1 hc
    have := hup m hin n hn
    omega
  · intro hd
    obtain ⟨l,hm,n,hc,hn⟩ : ∃ l ∈ lines t, ∃ n, CodeAt n l ∧ 4*depth .python t ≤ n := by
      rcases Nat.eq_zero_or_pos (depth .python t) with hz | hp
      · obtain ⟨l,hm,n,hc⟩ := h
        exact ⟨l,hm,n,hc,by omega⟩
      · exact hlow hp
    exact ⟨_,List.mem_map_of_mem hm,_,(codeAt_append hb).2 ⟨n,hc,rfl⟩,by omega⟩

/-- The line `l` put into a text: in front of a line, or behind the last one, with a line feed of its
own or without one. -/
inductive Inserted (l : Text) : Text → Text → Prop where
  | line {a : Text} (ha : a = [] ∨ a.getLast? = some '\n') (b : Text) :
    Inserted l (a ++ b) (a ++ (l ++ '\n' :: b))
  | ending {a : Text} (ha : a = [] ∨ a.getLast? = some '\n') : Inserted l a (a ++ l)
  | behind (a : Text) : Inserted l a (a ++ '\n' :: l)

theorem lines_ended {a : Text} (ha : a = [] ∨ a.getLast? = some '\n') (b : Text) :
    lines (a ++ b) = lines a ++ lines b := by
  rcases ha with rfl | ha
  · rfl
  · obtain ⟨c,rfl⟩ := List.getLast?_eq_some_iff.1 ha
    rw [List.append_assoc,List.singleton_append,lines_append]

theorem depth_ended {a : Text} (ha : a = [] ∨ a.getLast? = some '\n') (b : Text) :
    depth .python (a ++ b) = max (depth .python a) (depth .python b) := by
  rw [depth_eq,depth_eq,depth_eq,lines_ended ha,List.map_append,deepest_append]

theorem depth_line {l : Text} (hn : '\n' ∉ l) (b : Text) :
    depth .python (l ++ '\n' :: b) = max (lineDepth .python l) (depth .python b) := by
  rw [depth_eq,depth_eq,lines_line hn,List.map_cons,deepest_cons,
    apply_dropReturn fun l => lineDepth_append_blank .python l (by decide)]

theorem depth_last {l : Text} (hn : '\n' ∉ l) : depth .python l = lineDepth .python l := by
  by_cases hl : l = []
  · subst hl
    rfl
  · rw [depth_eq,lines_of_not_mem hl hn,List.map_singleton,deepest_cons,deepest]
    exact Nat.max_zero _

theorem depth_behind (a b : Text) :
    depth .python (a ++ '\n' :: b) = max (depth .python a) (depth .python b) := by
  have h₀ : lineDepth .python [] = 0 := rfl
  rw [depth_eq,depth_eq,depth_eq,lines_append,List.map_append,
    map_lines_feed fun l => lineDepth_append_blank .python l (by decide),h₀]
  split
  · have hz : deepest [0] = 0 := rfl
    rw [deepest_append,deepest_append,hz,Nat.max_zero]
  · rw [List.append_nil,deepest_append]

theorem depth_inserted {l t u : Text} (h : Inserted l t u) (hn : '\n' ∉ l) (hi : Idle l) :
    depth .python u = depth .python t := by
  have hz : lineDepth .python l = 0 := lineDepth_of_idle hi
  cases h with
  | line ha b => rw [depth_ended ha,depth_ended ha,depth_line hn,hz,Nat.zero_max]
  | ending ha => rw [depth_ended ha,depth_last hn,hz,Nat.max_zero]
  | behind a => rw [depth_behind,depth_last hn,hz,Nat.max_zero]

/-- The depth of a text is a matter of how far its code lines are indented, in whole units. Moved to the
right by `k` units, a text with code is deeper by `k`; lines without code, put in anywhere and indented in
any way, make no difference. -/
theorem depth_indents (t : Text) :
    (∀ d, depth .python t = d ↔ (∀ l ∈ lines t, ∀ n, CodeAt n l → n < 4*(d+1)) ∧
      (0 < d → ∃ l ∈ lines t, ∃ n, CodeAt n l ∧ 4*d ≤ n)) ∧
    ((∃ l ∈ lines t, ∃ n, CodeAt n l) → ∀ k,
      depth .python (shifted (spaces (4*k)) t) = depth .python t + k) ∧
    ∀ l u, '\n' ∉ l → Idle l → Inserted l t u → depth .python u = depth .python t :=
  ⟨fun _ => depth_eq_iff,depth_shifted,fun _ _ hn hi h => depth_inserted h hn hi⟩

end Workbench.Source
