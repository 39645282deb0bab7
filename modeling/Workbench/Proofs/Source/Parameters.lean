import Workbench.Proofs.Source.Balanced
import Workbench.Proofs.Text.Blank
set_option autoImplicit false

/-!
Parameter lists whose brackets and strings are in order. Such a list is enclosed as a whole, but
the scanner that cuts it at its commas does not know escapes, and cuts it right if and only if
reading without escapes comes to the same commas.
-/
namespace Workbench.Source
open Text

def plainRun (s : Nesting) (t : Text) : Nesting := t.foldl Nesting.plainStep s

/-- Whether reading without escapes meets a comma outside brackets and strings. -/
def breaks (s : Nesting) : Text → Bool
  | [] => false
  | c :: cs => (s.isTop && c == ',') || breaks (s.plainStep c) cs

theorem splitTopFrom_ne_nil (s : Nesting) (t : Text) : ∃ w ws, splitTopFrom s t = w :: ws := by
  cases t with
  | nil => exact ⟨[],[],rfl⟩
  | cons c t =>
    rw [splitTopFrom]
    split
    · exact ⟨_,_,rfl⟩
    · split <;> exact ⟨_,_,rfl⟩

theorem splitTopFrom_append {s : Nesting} {t u w : Text} {ws : List Text}
    (h : breaks s t = false) (hu : splitTopFrom (plainRun s t) u = w :: ws) :
    splitTopFrom s (t ++ u) = (t ++ w) :: ws := by
  induction t generalizing s with
  | nil => exact hu
  | cons c t ih =>
    obtain ⟨hc,ht⟩ := Bool.or_eq_false_iff.1 h
    simp [splitTopFrom,hc,ih ht hu]

theorem splitTopFrom_breaks {s : Nesting} {t : Text} (h : breaks s t = true) (u : Text) :
    ∃ w v ws, t = w ++ ',' :: v ∧ splitTopFrom s (t ++ u) = w :: ws := by
  induction t generalizing s with
  | nil => exact absurd h (by simp [breaks])
  | cons c t ih =>
    by_cases hc : (s.isTop && c == ',') = true
    · have e : c = ',' := by simpa using (Bool.and_eq_true_iff.1 hc).2
      exact ⟨[],t,splitTopFrom s (t ++ u),by rw [e]; rfl,
        by simp only [List.cons_append,splitTopFrom,hc,if_true]⟩
    · have ht : breaks (s.plainStep c) t = true := by
        rw [breaks,Bool.or_eq_true] at h
        exact h.resolve_left hc
      obtain ⟨w,v,ws,rfl,hw⟩ := ih ht
      exact ⟨c :: w,v,ws,rfl,by simp only [List.cons_append,splitTopFrom,hc,hw]; rfl⟩

theorem plainStep_escaped (s : Nesting) (c : Char) : (s.plainStep c).escaped = s.escaped := by
  rw [Nesting.plainStep]
  split
  · split <;> rfl
  · rw [Nesting.outside]
    split
    · rfl
    · split
      · rfl
      · split <;> rfl

theorem plainRun_escaped (s : Nesting) (t : Text) : (plainRun s t).escaped = s.escaped := by
  induction t generalizing s with
  | nil => rfl
  | cons c t ih => exact (ih _).trans (plainStep_escaped s c)

theorem isTop_eq_start {s : Nesting} (he : s.escaped = false) (h : s.isTop = true) : s = .start := by
  obtain ⟨d,q,e⟩ := s
  simp only [Nesting.isTop,Bool.and_eq_true,Option.isNone_iff_eq_none,beq_iff_eq] at h
  simp only at he
  rw [Nesting.start,h.1,h.2,he]

theorem plainRun_of_isTop {t : Text} (h : (plainRun .start t).isTop = true) :
    plainRun .start t = .start :=
  isTop_eq_start (plainRun_escaped .start t) h

/-- A parameter as it is written: not blank, trimmed, in order, and without a comma of its own. -/
structure Parameter (p : Text) : Prop where
  notBlank : allBlank p = false
  trimmed : trim p = p
  balanced : Balanced false p

/-- Reading without escapes comes to the same commas: it meets none in a parameter, and is outside
all brackets and strings behind each but the last. -/
structure Separate (ps : List Text) : Prop where
  unbroken : ∀ p ∈ ps, breaks .start p = false
  closed : ∀ p ∈ ps.dropLast, (plainRun .start p).isTop = true

theorem splitTop_cons {t w : Text} {ws : List Text} (h : splitTopFrom .start t = w :: ws)
    (hw : allBlank w = false) :
    splitTop t = trim w :: ((ws.map trim).filter fun p => !p.isEmpty) := by
  have hn : trim w ≠ [] := fun e => by
    rw [trim_eq_nil_iff] at e
    rw [hw] at e; cases e
  simp [splitTop,h,hn]

theorem splitTop_piece {w : Text} (hw : allBlank w = false) (hb : breaks .start w = false)
    (hc : plainRun .start w = .start) (u : Text) :
    splitTop (w ++ ',' :: u) = trim w :: splitTop u := by
  have hs : splitTopFrom .start (w ++ ',' :: u) = (w ++ []) :: splitTopFrom .start u :=
    splitTopFrom_append hb (by rw [hc]; rfl)
  rw [List.append_nil] at hs
  exact splitTop_cons hs hw

theorem splitTop_last {w : Text} (hw : allBlank w = false) (hb : breaks .start w = false) :
    splitTop w = [trim w] := by
  have hs : splitTopFrom .start (w ++ []) = [w ++ []] := splitTopFrom_append hb rfl
  rw [List.append_nil] at hs
  rw [splitTop_cons hs hw]
  rfl

theorem splitTop_blank (t : Text) : splitTop (' ' :: t) = splitTop t := by
  obtain ⟨w,ws,h⟩ := splitTopFrom_ne_nil .start t
  have hs : splitTopFrom .start (' ' :: t) = (' ' :: w) :: ws := by
    have he : Nesting.plainStep .start ' ' = .start := rfl
    simp [splitTopFrom,he,h]
  have ht : trim (' ' :: w) = trim w := rfl
  simp [splitTop,hs,h,ht]

namespace Parameter
variable {p : Text}

theorem exists_head (h : Parameter p) : ∃ c t, p = c :: t ∧ isBlank c = false ∧ c ≠ ',' := by
  obtain ⟨hb,ht,hp⟩ := h
  cases p with
  | nil => exact absurd hb (by decide)
  | cons c t =>
    refine ⟨c,t,rfl,head_of_trim ht,?_⟩
    rintro rfl
    cases hp with
    | plain _ _ _ hm _ => exact absurd (hm rfl) (by decide)
    | bracket ho _ _ => exact absurd ho (by decide)
    | string hq _ _ => exact absurd hq (by decide)

theorem splitTop_separate (h : Parameter p) (hb : breaks .start p = false)
    (hc : (plainRun .start p).isTop = true) (t : Text) :
    splitTop (p ++ ',' :: ' ' :: t) = p :: splitTop t := by
  rw [splitTop_piece h.notBlank hb (plainRun_of_isTop hc),h.trimmed,splitTop_blank]

/-- A parameter that is cut comes out shorter. -/
theorem splitTop_breaks (h : Parameter p) (hb : breaks .start p = true) (t : Text)
    (ps : List Text) : splitTop (p ++ t) ≠ p :: ps := by
  obtain ⟨c,u,rfl,hc,hm⟩ := h.exists_head
  obtain ⟨w,v,ws,hp,hs⟩ := splitTopFrom_breaks hb t
  cases w with
  | nil => injection hp with e _; exact absurd e hm
  | cons d w =>
    injection hp with e hp
    have hp : u = w ++ ',' :: v := hp
    subst d
    rw [splitTop_cons hs (by simp [allBlank,hc])]
    intro he
    injection he with he _
    have hl := length_trim_le (c :: w)
    rw [he,hp] at hl
    simp only [List.length_cons,List.length_append] at hl
    omega

/-- A parameter that is left open takes the comma along. -/
theorem splitTop_open (h : Parameter p) (hb : breaks .start p = false)
    (ho : (plainRun .start p).isTop = false) (t : Text) (ps : List Text) :
    splitTop (p ++ ',' :: t) ≠ p :: ps := by
  obtain ⟨c,u,rfl,hc,_⟩ := h.exists_head
  obtain ⟨w,ws,hw⟩ := splitTopFrom_ne_nil ((plainRun .start (c :: u)).plainStep ',') t
  have hs : splitTopFrom .start (c :: u ++ ',' :: t) = (c :: u ++ ',' :: w) :: ws :=
    splitTopFrom_append hb (by simp [splitTopFrom,ho,hw])
  rw [splitTop_cons hs (by simp [allBlank,hc])]
  intro he
  injection he with he _
  obtain ⟨e,hx⟩ := trim_append_cons (t := u) (u := w) hc (show isBlank ',' = false by decide)
  rw [List.cons_append,hx] at he
  have hl := congrArg List.length he
  simp at hl

end Parameter

theorem Separate.tail {p : Text} {ps : List Text} (h : Separate (p :: ps)) : Separate ps := by
  refine ⟨fun q hq => h.unbroken q (List.mem_cons_of_mem _ hq),?_⟩
  cases ps with
  | nil => simp
  | cons q ps => exact fun x hx => h.closed x (List.mem_cons_of_mem _ hx)

theorem joinWith_cons (p q : Text) (ps : List Text) :
    joinWith [',',' '] (p :: q :: ps) = p ++ ',' :: ' ' :: joinWith [',',' '] (q :: ps) := by
  simp [joinWith]

theorem splitTop_joined {ps : List Text} (h : ∀ p ∈ ps, trim p = p ∧ allBlank p = false)
    (hs : Separate ps) : splitTop (joinWith [',',' '] ps) = ps := by
  induction ps with
  | nil => rfl
  | cons p ps ih =>
    obtain ⟨ht,hw⟩ := h p List.mem_cons_self
    have hb := hs.unbroken p List.mem_cons_self
    cases ps with
    | nil => rw [joinWith,splitTop_last hw hb,ht]
    | cons q ps =>
      have hc := plainRun_of_isTop (hs.closed p List.mem_cons_self)
      rw [joinWith_cons,splitTop_piece hw hb hc,splitTop_blank,ht,
        ih (fun x hx => h x (List.mem_cons_of_mem _ hx)) hs.tail]

/-- The first parameter that is read wrong shows at once: it comes out shorter, or longer. -/
theorem separate_of_splitTop {ps : List Text} (h : ∀ p ∈ ps, Parameter p)
    (he : splitTop (joinWith [',',' '] ps) = ps) : Separate ps := by
  induction ps with
  | nil => exact ⟨by simp,by simp⟩
  | cons p ps ih =>
    have hp := h p List.mem_cons_self
    cases ps with
    | nil =>
      cases hb : breaks .start p with
      | true =>
        refine absurd ?_ (hp.splitTop_breaks hb [] [])
        rwa [List.append_nil]
      | false => exact ⟨by simpa using hb,by simp⟩
    | cons q ps =>
      rw [joinWith_cons] at he
      cases hb : breaks .start p with
      | true => exact absurd he (hp.splitTop_breaks hb _ _)
      | false =>
        cases hc : (plainRun .start p).isTop with
        | false => exact absurd he (hp.splitTop_open hb hc _ _)
        | true =>
          rw [hp.splitTop_separate hb hc,List.cons.injEq] at he
          have hs := ih (fun x hx => h x (List.mem_cons_of_mem _ hx)) he.2
          exact ⟨List.forall_mem_cons.2 ⟨hb,hs.unbroken⟩,by simpa [hc] using hs.closed⟩

theorem splitTop_joinWith {ps : List Text} (h : ∀ p ∈ ps, Parameter p) :
    splitTop (joinWith [',',' '] ps) = ps ↔ Separate ps :=
  ⟨separate_of_splitTop h,splitTop_joined fun p hp => ⟨(h p hp).trimmed,(h p hp).notBlank⟩⟩

theorem balanced_joinWith {ps : List Text} (h : ∀ p ∈ ps, Parameter p) :
    Balanced true (joinWith [',',' '] ps) := by
  induction ps with
  | nil => exact .nil
  | cons p ps ih =>
    have hp := (h p List.mem_cons_self).balanced.weaken
    have ih := ih fun q hq => h q (List.mem_cons_of_mem _ hq)
    cases ps with
    | nil => exact hp
    | cons q ps =>
      have hs : Balanced true [',',' '] :=
        .plain rfl rfl rfl (fun _ => rfl) (.plain rfl rfl rfl (fun _ => rfl) .nil)
      exact (hp.append hs).append ih

theorem enclosed_joinWith {ps : List Text} (h : ∀ p ∈ ps, Parameter p) :
    enclosed? (joinWith [',',' '] ps ++ "):".toList) = some (joinWith [',',' '] ps) := by
  have he := enclosedFrom_balanced (balanced_joinWith h) 0 "):".toList
  rw [enclosed?,Nesting.start,he]
  simp [enclosedFrom,Nesting.isTop]

def headOf (params : Text) : Text := "def f(".toList ++ params ++ "):".toList

theorem openings_headOf (params : Text) : ∃ os, openings "def".toList opensCall (headOf params) =
    ⟨"f".toList,'(',params ++ "):".toList⟩ :: os := by
  have ho : opening? "def".toList opensCall (headOf params) =
      some ⟨"f".toList,'(',params ++ "):".toList⟩ := rfl
  have hc : headOf params = 'd' :: (headOf params).tail := rfl
  rw [hc] at ho ⊢
  rw [openings,openingsFrom]
  split
  · rename_i o h
    rw [show edge none = true from rfl,if_pos rfl,ho] at h
    cases h
    exact ⟨_,rfl⟩
  · rename_i h
    rw [show edge none = true from rfl,if_pos rfl,ho] at h
    cases h

theorem signatures_headOf {ps : List Text} (h : ∀ p ∈ ps, Parameter p) :
    (signatures .python (headOf (joinWith [',',' '] ps))).head? =
      some ⟨"f".toList,some (splitTop (joinWith [',',' '] ps))⟩ := by
  obtain ⟨os,ho⟩ := openings_headOf (joinWith [',',' '] ps)
  have hk : Profile.python.functionKeyword = "def".toList := rfl
  rw [signatures,hk,ho]
  simp only [List.map_cons,List.head?_cons,enclosed_joinWith h,Option.map_some]

theorem plainRun_append (s : Nesting) (t u : Text) :
    plainRun s (t ++ u) = plainRun (plainRun s t) u := List.foldl_append

theorem breaks_append (s : Nesting) (t u : Text) :
    breaks s (t ++ u) = (breaks s t || breaks (plainRun s t) u) := by
  induction t generalizing s with
  | nil => rfl
  | cons c t ih => simp [breaks,plainRun,ih,Bool.or_assoc]

theorem plain_string {q : Char} {t : Text} (h : StringBody q t) (hb : '\\' ∉ t) (d : Nat) :
    plainRun ⟨d,some q,false⟩ t = ⟨d,some q,false⟩ ∧ breaks ⟨d,some q,false⟩ t = false := by
  induction h with
  | nil => exact ⟨rfl,rfl⟩
  | plain he hq _ ih =>
    obtain ⟨hr,hn⟩ := ih fun hm => hb (List.mem_cons_of_mem _ hm)
    have hs : ∀ c, c ≠ q → Nesting.plainStep ⟨d,some q,false⟩ c = ⟨d,some q,false⟩ :=
      fun c hc => by simp [Nesting.plainStep,hc]
    exact ⟨by rw [plainRun,List.foldl_cons,hs _ hq]; exact hr,
      by rw [breaks,hs _ hq,hn]; rfl⟩
  | escaped _ _ => exact absurd List.mem_cons_self hb

theorem plain_balanced {commas : Bool} {t : Text} (h : Balanced commas t) (hb : '\\' ∉ t) (d : Nat)
    (hd : commas = true → 0 < d) :
    plainRun ⟨d,none,false⟩ t = ⟨d,none,false⟩ ∧ breaks ⟨d,none,false⟩ t = false := by
  induction h generalizing d with
  | nil => exact ⟨rfl,rfl⟩
  | @plain commas c t hq ho hc hm _ ih =>
    obtain ⟨hr,hn⟩ := ih (fun h => hb (List.mem_cons_of_mem _ h)) d hd
    have hs : Nesting.plainStep ⟨d,none,false⟩ c = ⟨d,none,false⟩ := outside_plain hq ho hc _
    have ht : (Nesting.isTop ⟨d,none,false⟩ && c == ',') = false := by
      by_cases e : c = ','
      · have := hd (hm e)
        simp [Nesting.isTop]; omega
      · simp [e]
    exact ⟨by rw [plainRun,List.foldl_cons,hs]; exact hr,by rw [breaks,ht,hs,hn]; rfl⟩
  | @bracket commas c inner t ho _ _ hi ih =>
    simp only [List.mem_cons,List.mem_append,not_or] at hb
    obtain ⟨hir,hin⟩ := hi hb.2.1 (d+1) (fun _ => Nat.succ_pos d)
    obtain ⟨hr,hn⟩ := ih hb.2.2.2 d hd
    have hs : Nesting.plainStep ⟨d,none,false⟩ c = ⟨d+1,none,false⟩ := outside_opening ho d false
    have hs' : Nesting.plainStep ⟨d+1,none,false⟩ (closing c) = ⟨d,none,false⟩ :=
      outside_closing ho d false
    have hc : (c == ',') = false := by rcases isOpening_cases ho with rfl | rfl | rfl <;> decide
    constructor
    · rw [plainRun,List.foldl_cons,hs,← plainRun,plainRun_append,hir,plainRun,List.foldl_cons,hs']
      exact hr
    · rw [breaks,hs,breaks_append,hin,hir,breaks,hs',hn,hc]
      simp [Nesting.isTop]
  | @string commas q inner t hq hi _ ih =>
    simp only [List.mem_cons,List.mem_append,not_or] at hb
    obtain ⟨hir,hin⟩ := plain_string hi hb.2.1 d
    obtain ⟨hr,hn⟩ := ih hb.2.2.2 d hd
    have hs : Nesting.plainStep ⟨d,none,false⟩ q = ⟨d,some q,false⟩ := by
      simp [Nesting.plainStep,Nesting.outside,hq]
    have hs' : Nesting.plainStep ⟨d,some q,false⟩ q = ⟨d,none,false⟩ := by
      simp [Nesting.plainStep]
    have hc : (q == ',') = false := by
      rw [beq_eq_false_iff_ne]
      rintro rfl
      exact absurd hq (by decide)
    constructor
    · rw [plainRun,List.foldl_cons,hs,← plainRun,plainRun_append,hir,plainRun,List.foldl_cons,hs']
      exact hr
    · rw [breaks,hs,breaks_append,hin,hir,breaks,hs',hn,hc]
      simp [Nesting.isTop]

theorem separate_of_no_backslash {ps : List Text} (h : ∀ p ∈ ps, Parameter p)
    (hb : ∀ p ∈ ps, '\\' ∉ p) : Separate ps := by
  have hr : ∀ p ∈ ps, plainRun .start p = .start ∧ breaks .start p = false := fun p hp =>
    plain_balanced (h p hp).balanced (hb p hp) 0 (by simp)
  refine ⟨fun p hp => (hr p hp).2,fun p hp => ?_⟩
  rw [(hr p ((List.dropLast_sublist ps).subset hp)).1]
  rfl

theorem head_signature_of_no_backslash {ps : List Text} (h : ∀ p ∈ ps, Parameter p)
    (hb : ∀ p ∈ ps, '\\' ∉ p) :
    (signatures .python (headOf (joinWith [',',' '] ps))).head? = some ⟨"f".toList,some ps⟩ := by
  rw [signatures_headOf h,(splitTop_joinWith h).2 (separate_of_no_backslash h hb)]

/-- A list of parameters is always enclosed as a whole. It is reported as it was if and only if
the parameters are separate when they are read without escapes. -/
theorem head_signature (ps : List Text) (h : ∀ p ∈ ps, Parameter p) :
    enclosed? (joinWith [',',' '] ps ++ "):".toList) = some (joinWith [',',' '] ps) ∧
    ((signatures .python (headOf (joinWith [',',' '] ps))).head? = some ⟨"f".toList,some ps⟩ ↔
      Separate ps) := by
  refine ⟨enclosed_joinWith h,?_⟩
  rw [signatures_headOf h,← splitTop_joinWith h]
  simp

def tupled : Text := "b=(1,',\\t')".toList

theorem parameter_tupled : Parameter tupled := by
  refine ⟨by decide,by decide,?_⟩
  have hs : StringBody '\'' [',','\\','t'] := .plain (by decide) (by decide) (.escaped .nil)
  have hi : Balanced true "1,',\\t'".toList :=
    .plain rfl rfl rfl (fun _ => rfl) (.plain rfl rfl rfl (fun _ => rfl)
      (@Balanced.string true '\'' _ [] rfl hs .nil))
  exact .plain rfl rfl rfl (by decide) (.plain rfl rfl rfl (by decide)
    (@Balanced.bracket false '(' _ [] rfl hi .nil))

theorem parameter_name {c : Char} (hq : isQuote c = false) (ho : isOpening c = false)
    (hc : isClosing c = false) (hm : c ≠ ',') (hb : isBlank c = false) : Parameter [c] :=
  ⟨by simp [allBlank,hb],by simp [trim,trimStart,trimEnd,hb],
    .plain hq ho hc (fun e => absurd e hm) .nil⟩

theorem head_signature_tupled : (∀ p ∈ [['a'],tupled], Parameter p) ∧
    (signatures .python (headOf (joinWith [',',' '] [['a'],tupled]))).head? =
      some ⟨"f".toList,some [['a'],tupled]⟩ := by
  have h : ∀ p ∈ [['a'],tupled], Parameter p := by
    intro p hp
    rcases List.mem_cons.1 hp with rfl | hp
    · exact parameter_name rfl rfl rfl (by decide) (by decide)
    · rw [List.mem_singleton.1 hp]; exact parameter_tupled
  exact ⟨h,(head_signature [['a'],tupled] h).2.2 ⟨by decide,by decide⟩⟩

def quoting : Text := "s=\"\\\"\"".toList

theorem parameter_quoting : Parameter quoting := by
  refine ⟨by decide,by decide,?_⟩
  have hs : StringBody '"' ['\\','"'] := .escaped .nil
  exact .plain rfl rfl rfl (by decide) (.plain rfl rfl rfl (by decide)
    (@Balanced.string false '"' _ [] rfl hs .nil))

/-- Behind an escaped quote the string seems to go on, and the comma that follows is lost. -/
theorem head_signature_quoting : ¬ ∀ ps : List Text, (∀ p ∈ ps, Parameter p) →
    (signatures .python (headOf (joinWith [',',' '] ps))).head? = some ⟨"f".toList,some ps⟩ := by
  intro hall
  have h : ∀ p ∈ [quoting,['t']], Parameter p := by
    intro p hp
    rcases List.mem_cons.1 hp with rfl | hp
    · exact parameter_quoting
    · rw [List.mem_singleton.1 hp]
      exact parameter_name rfl rfl rfl (by decide) (by decide)
  have he := hall _ h
  rw [signatures_headOf h] at he
  have hs : Separate [quoting,['t']] := (splitTop_joinWith h).1 (by simpa using he)
  exact absurd hs.closed (by decide)

end Workbench.Source
