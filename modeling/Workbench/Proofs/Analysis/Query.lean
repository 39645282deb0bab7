import Workbench.Proofs.Analysis.Findings
import Workbench.Proofs.Text.Literal
set_option autoImplicit false

/-!
Queries and their rule. Whatever quote opens a literal, the rule goes on to the next single quote: a
literal with a single quote inside may be missed, and a literal that ends earlier is not seen to end.
So a query is found where nothing formats it, if a later literal of the text is formatted.
-/
namespace Workbench.Analysis
open Text Source Pattern

def Operator (t : Text) : Prop := ∃ b u, t = b ++ '%' :: u ∧ Blanks b

theorem operator_iff (t : Text) : Operator t ↔ (trimStart t).head? = some '%' := by
  constructor
  · rintro ⟨b,u,rfl,hb⟩
    have hp : (('%' :: u : Text)).head?.any isBlank = false := rfl
    rw [trimStart,List.dropWhile_append_of_pos hb,dropWhile_of_head hp,List.head?_cons]
  · intro h
    obtain ⟨b,hb,ht,-⟩ := exists_trimStart t
    cases hu : trimStart t with
    | nil => simp [hu] at h
    | cons c u =>
      have hc : c = '%' := by simpa [hu] using h
      exact ⟨b,u,by rw [← hc,← hu]; exact ht,hb⟩

theorem operator_append {q : Char} (hq : isQuote q = true) (e t : Text) :
    Operator (e ++ q :: t) ↔ Operator e := by
  have hb : isBlank q = false := by
    rw [Bool.eq_false_iff]
    intro h
    rw [isQuote_of_blank h] at hq
    cases hq
  have hp : q ≠ '%' := by
    rintro rfl
    exact absurd hq (by decide)
  rw [operator_iff,operator_iff,trimStart,dropWhile_stop hb]
  cases h : trimStart e with
  | nil =>
    rw [trimStart] at h
    simp [h,hp]
  | cons c u =>
    rw [trimStart] at h
    simp [h]

theorem closesFormat_iff (t : Text) :
    closesFormat t = true ↔ ∃ q u, t = q :: u ∧ isQuote q = true ∧ Operator u := by
  rw [closesFormat]
  cases h : one? isQuote t with
  | none =>
    simp only [Bool.false_eq_true,false_iff]
    rintro ⟨q,u,rfl,hq,-⟩
    simp [one?,hq] at h
  | some v =>
    obtain ⟨c,hc,rfl⟩ := one?_eq_some_iff.1 h
    have ho : (after? ['%'] (trimStart v)).isSome = true ↔ Operator v := by
      rw [operator_iff,Option.isSome_iff_exists]
      simp only [after?_eq_some_iff]
      cases trimStart v <;> simp
    simp only [ho,List.cons.injEq]
    constructor
    · exact fun h => ⟨c,v,⟨rfl,rfl⟩,hc,h⟩
    · rintro ⟨q,u,⟨rfl,rfl⟩,-,h⟩
      exact h

theorem within_iff (stop : Char → Bool) (test : Text → Bool) (t : Text) : within stop test t = true ↔
    ∃ a v, t = a ++ v ∧ (∀ c ∈ a, stop c = false) ∧ test v = true := by
  rw [← then_many (k := fun _ v => test v = true) (fun _ _ => Iff.rfl) stop [] t]
  simp [Then,Matches]

/-- The inside of a literal is read as a format if a placeholder stands in front of a quote that the
operator follows, with no single quote between. -/
theorem formatted_iff (t : Text) : formatted t = true ↔ ∃ p q u, t = p ++ q :: u ∧ '\'' ∉ p ∧
    "%s".toList <:+: p ∧ isQuote q = true ∧ Operator u := by
  have hs : ∀ {a : Text}, (∀ c ∈ a, single c = false) ↔ '\'' ∉ a := by
    intro a
    simp only [single,beq_eq_false_iff_ne]
    exact ⟨fun h hm => h _ hm rfl,fun h c hc e => h (e ▸ hc)⟩
  simp only [formatted_eq,within_iff,hs,Option.any_eq_true,after?_eq_some_iff,closesFormat_iff]
  constructor
  · rintro ⟨a,v,rfl,ha,_,rfl,d,e,rfl,hd,q,u,rfl,hq,hu⟩
    exact ⟨a ++ ("%s".toList ++ d),q,u,by simp,by simp [ha,hd],⟨a,d,by simp⟩,hq,hu⟩
  · rintro ⟨p,q,u,rfl,hp,⟨a,d,rfl⟩,hq,hu⟩
    have ha : '\'' ∉ a ∧ '\'' ∉ d := by
      constructor <;> (intro h; exact hp (by simp [h]))
    exact ⟨a,"%s".toList ++ (d ++ q :: u),by simp,ha.1,d ++ q :: u,rfl,d,q :: u,rfl,ha.2,q,u,rfl,
      hq,hu⟩

theorem formatted_append {w r : Text} (hw : ∀ c ∈ w, isQuote c = false) :
    formatted (w ++ r) = true ↔ ∃ a q u, r = a ++ q :: u ∧ '\'' ∉ a ∧ "%s".toList <:+: w ++ a ∧
      isQuote q = true ∧ Operator u := by
  have hs : '\'' ∉ w := fun h => absurd (hw _ h) (by decide)
  rw [formatted_iff]
  constructor
  · rintro ⟨p,q,u,h,hp,hi,hq,hu⟩
    obtain ⟨a,rfl,rfl⟩ := behind_of_first h hw hq
    exact ⟨a,q,u,rfl,fun h => hp (List.mem_append_right _ h),hi,hq,hu⟩
  · rintro ⟨a,q,u,rfl,ha,hi,hq,hu⟩
    exact ⟨w ++ a,q,u,(List.append_assoc ..).symm,by simp [hs,ha],hi,hq,hu⟩

theorem assembled_iff (t : Text) : assembled t = true ↔
    (∃ q u, t = q :: u ∧ isQuote q = true ∧ formatted u = true) ∨
      ∃ q u, t = 'f' :: q :: u ∧ isQuote q = true := by
  simp only [assembled,Bool.or_eq_true,Option.any_eq_true,Option.isSome_iff_exists,
    one?_eq_some_iff,after?_eq_some_iff]
  refine or_congr ⟨?_,?_⟩ ⟨?_,?_⟩
  · rintro ⟨u,⟨q,hq,rfl⟩,hu⟩
    exact ⟨q,u,rfl,hq,hu⟩
  · rintro ⟨q,u,rfl,hq,hu⟩
    exact ⟨u,⟨q,hq,rfl⟩,hu⟩
  · rintro ⟨_,rfl,u,q,hq,rfl⟩
    exact ⟨q,u,rfl,hq⟩
  · rintro ⟨q,u,rfl,hq⟩
    exact ⟨q :: u,rfl,u,q,hq,rfl⟩

theorem queryHere_iff (t : Text) : queryHere t = true ↔ ∃ b d x,
    t = "execute".toList ++ (b ++ '(' :: (d ++ x)) ∧ Blanks b ∧ Blanks d ∧ assembled x = true := by
  simp only [queryHere_eq,Option.any_eq_true,after?_eq_some_iff,one?_eq_some_iff,beq_iff_eq]
  constructor
  · rintro ⟨v,rfl,y,⟨_,rfl,hy⟩,hx⟩
    obtain ⟨b,hb,hv,-⟩ := exists_trimStart v
    obtain ⟨d,hd,hz,-⟩ := exists_trimStart y
    exact ⟨b,d,trimStart y,by rw [← hz,← hy,← hv],hb,hd,hx⟩
  · rintro ⟨b,d,x,rfl,hb,hd,hx⟩
    have hp : ('(' :: (d ++ x) : Text).head?.any isBlank = false := rfl
    have hh : x.head?.any isBlank = false := by
      cases x with
      | nil => rfl
      | cons c x =>
        rw [List.head?_cons,Option.any_some,Bool.eq_false_iff]
        intro hc
        rw [assembled_of_blank hc] at hx
        cases hx
    refine ⟨_,rfl,d ++ x,⟨'(',rfl,?_⟩,?_⟩
    · rw [trimStart,List.dropWhile_append_of_pos hb,dropWhile_of_head hp]
    · rwa [trimStart,List.dropWhile_append_of_pos hd,dropWhile_of_head hh]

theorem isQuote_call {b d : Text} (hb : Blanks b) (hd : ∀ c ∈ d, isQuote c = false) :
    ∀ c ∈ "execute".toList ++ (b ++ '(' :: d), isQuote c = false := by
  have he : ∀ c ∈ "execute".toList, isQuote c = false := by decide
  have hp : isQuote '(' = false := rfl
  simp only [List.mem_append,List.mem_cons]
  rintro c (h | h | rfl | h)
  · exact he c h
  · exact isQuote_of_blank (hb c h)
  · exact hp
  · exact hd c h

/-- The first quote opens the literal that a call in front of it is applied to, and the inside of the
literal is whatever follows. -/
theorem queryHere_quote {q : Char} {e : Text} (hq : isQuote q = true)
    (he : ∀ c ∈ e, isQuote c = false) (t : Text) : queryHere (e ++ q :: t) = true ↔
      ∃ b d, Blanks b ∧ Blanks d ∧ ((e = "execute".toList ++ (b ++ '(' :: d) ∧ formatted t = true) ∨
        e = "execute".toList ++ (b ++ '(' :: (d ++ ['f']))) := by
  rw [queryHere_iff]
  constructor
  · rintro ⟨b,d,x,h,hb,hd,hx⟩
    have hn : ∀ c ∈ d, isQuote c = false := fun c hc => isQuote_of_blank (hd c hc)
    refine ⟨b,d,hb,hd,?_⟩
    rcases (assembled_iff x).1 hx with ⟨k,u,rfl,hk,hu⟩ | ⟨k,u,rfl,hk⟩
    · have h' : e ++ q :: t = ("execute".toList ++ (b ++ '(' :: d)) ++ k :: u := by simpa using h
      obtain ⟨rfl,-,rfl⟩ := eq_of_first h' he (isQuote_call hb hn) hq hk
      exact .inl ⟨rfl,hu⟩
    · have h' : e ++ q :: t = ("execute".toList ++ (b ++ '(' :: (d ++ ['f']))) ++ k :: u := by
        simpa using h
      have hf : ∀ c ∈ d ++ ['f'], isQuote c = false := by
        simp only [List.mem_append,List.mem_singleton]
        rintro c (hc | rfl)
        · exact hn c hc
        · rfl
      exact .inr (eq_of_first h' he (isQuote_call hb hf) hq hk).1
  · rintro ⟨b,d,hb,hd,⟨rfl,ht⟩ | rfl⟩
    · exact ⟨b,d,q :: t,by simp,hb,hd,(assembled_iff _).2 (.inl ⟨q,t,rfl,hq,ht⟩)⟩
    · exact ⟨b,d,'f' :: q :: t,by simp,hb,hd,(assembled_iff _).2 (.inr ⟨q,t,rfl,hq⟩)⟩

theorem queryHere_literal {q : Char} (hq : isQuote q = true) (t : Text) :
    queryHere ("execute(".toList ++ q :: t) = true ↔ formatted t = true := by
  rw [queryHere_quote hq (by decide)]
  constructor
  · rintro ⟨b,d,-,-,⟨-,h⟩ | h⟩
    · exact h
    · have h' : "execute(".toList = ("execute".toList ++ (b ++ '(' :: d)) ++ ['f'] := by
        simpa using h
      have hl := congrArg List.getLast? h'
      rw [List.getLast?_concat] at hl
      exact absurd (show some '(' = some 'f' from hl) (by decide)
  · exact fun h => ⟨[],[],by decide,by decide,.inl ⟨rfl,h⟩⟩

theorem somewhereAfter_query (b : Option Char) (t : Text) :
    somewhereAfter Issue.sqlInjection.here b t = Issue.sqlInjection.found t := by
  cases t <;> rfl

theorem found_cons (c : Char) (t : Text) : Issue.sqlInjection.found (c :: t) =
    (queryHere (c :: t) || Issue.sqlInjection.found t) := by
  rw [← somewhereAfter_query (some c) t]
  rfl

/-- A query starts inside the first part or is found in the second. -/
theorem found_append (a t : Text) : Issue.sqlInjection.found (a ++ t) = true ↔
    (∃ s e, a = s ++ e ∧ e ≠ [] ∧ queryHere (e ++ t) = true) ∨ Issue.sqlInjection.found t = true := by
  induction a with
  | nil =>
    constructor
    · exact .inr
    · rintro (⟨s,e,h,hn,-⟩ | h)
      · exact absurd (List.append_eq_nil_iff.1 h.symm).2 hn
      · exact h
  | cons c a ih =>
    rw [List.cons_append,found_cons,Bool.or_eq_true,ih]
    constructor
    · rintro (h | ⟨s,e,rfl,hn,h⟩ | h)
      · exact .inl ⟨[],c :: a,rfl,List.cons_ne_nil _ _,h⟩
      · exact .inl ⟨c :: s,e,rfl,hn,h⟩
      · exact .inr h
    · rintro (⟨_ | ⟨d,s⟩,e,he,hn,h⟩ | h)
      · left
        rw [List.nil_append] at he
        rwa [← he] at h
      · obtain ⟨rfl,rfl⟩ := List.cons_eq_cons.1 he
        exact .inr (.inl ⟨s,e,rfl,hn,h⟩)
      · exact .inr (.inr h)

/-- The call with the body `w` in the quotes `q`, and the operator behind blanks. -/
def formatCall (q : Char) (w b : Text) : Text :=
  "execute(".toList ++ q :: (w ++ q :: (b ++ ['%',' ']))

/-- There is no single quote in the body, or the first one has a placeholder in front of it and the
operator behind it. -/
def Caught (w : Text) : Prop :=
  '\'' ∉ w ∨ ∃ a e, w = a ++ '\'' :: e ∧ '\'' ∉ a ∧ "%s".toList <:+: a ∧ Operator e

theorem formatted_single {a e : Text} (ha : ∀ c ∈ a, isQuote c = false) :
    formatted (a ++ '\'' :: e) = true ↔ "%s".toList <:+: a ∧ Operator e := by
  rw [formatted_append ha]
  constructor
  · rintro ⟨p,q,u,h,hp,hi,-,hu⟩
    cases p with
    | nil =>
      obtain ⟨rfl,rfl⟩ := List.cons_eq_cons.1 h
      exact ⟨by simpa using hi,hu⟩
    | cons c p =>
      rw [(List.cons_eq_cons.1 h).1] at hp
      exact absurd List.mem_cons_self hp
  · rintro ⟨hi,hu⟩
    exact ⟨[],'\'',e,rfl,List.not_mem_nil,by simpa using hi,rfl,hu⟩

theorem caught_single {a e : Text} (ha : '\'' ∉ a) :
    Caught (a ++ '\'' :: e) ↔ "%s".toList <:+: a ∧ Operator e := by
  have hp : ∀ {b : Text}, '\'' ∉ b → ∀ c ∈ b, (c == '\'') = false := by
    intro b hb c hc
    rw [beq_eq_false_iff_ne]
    rintro rfl
    exact hb hc
  constructor
  · rintro (h | ⟨b,d,h,hb,hi,hd⟩)
    · exact absurd (by simp) h
    · obtain ⟨rfl,-,rfl⟩ := eq_of_first (p := (· == '\'')) h (hp ha) (hp hb) rfl rfl
      exact ⟨hi,hd⟩
  · exact fun ⟨hi,hd⟩ => .inr ⟨a,e,rfl,ha,hi,hd⟩

theorem formatted_body {q : Char} {w : Text} (hq : isQuote q = true) (hw : q ∉ w)
    (hs : "%s".toList <:+: w) {u : Text} (hu : Operator u) :
    formatted (w ++ q :: u) = true ↔ Caught w := by
  by_cases hm : '\'' ∈ w
  · obtain ⟨a,e,rfl,ha⟩ := List.eq_append_cons_of_mem hm
    -- The other kind of quote opens the literal, so none stands in front of the single one.
    have hn : ∀ c ∈ a, isQuote c = false := by
      intro c hc
      have hd : ∀ d, isQuote d = true ↔ d = '\'' ∨ d = '"' := by simp [isQuote]
      rw [Bool.eq_false_iff,ne_eq,hd]
      rintro (rfl | rfl)
      · exact ha hc
      · rcases (hd q).1 hq with rfl | rfl
        · exact hw hm
        · exact hw (List.mem_append_left _ hc)
    rw [List.append_assoc,List.cons_append,formatted_single hn,caught_single ha,operator_append hq]
  · rw [formatted_iff]
    exact ⟨fun _ => .inl hm,fun _ => ⟨w,q,u,rfl,hm,hs,hq,hu⟩⟩

/-- A call with a format is one that the rule describes if and only if it is caught. A scan finds an
injection if and only if the call is caught, or the rule describes something elsewhere. -/
theorem scan_formatCall {q : Char} {w b : Text} (hq : isQuote q = true) (hw : q ∉ w)
    (hs : "%s".toList <:+: w) (hb : Blanks b) (u v : Text) :
    (Issue.sqlInjection.pattern.Here u (formatCall q w b ++ v) ↔ Caught w) ∧
    (.sqlInjection ∈ (scan .python (u ++ (formatCall q w b ++ v))).map (·.issue) ↔ Caught w ∨
      ∃ s t, u ++ (formatCall q w b ++ v) = s ++ t ∧ s ≠ u ∧
        Issue.sqlInjection.pattern.Here s t) := by
  have hh : Issue.sqlInjection.pattern.Here u (formatCall q w b ++ v) ↔ Caught w := by
    have he : formatCall q w b ++ v = "execute(".toList ++ q :: (w ++ q :: (b ++ '%' :: ' ' :: v)) := by
      unfold formatCall
      simp
    have ho : Operator (b ++ '%' :: ' ' :: v) := ⟨b,' ' :: v,rfl,hb⟩
    rw [here_query,he,queryHere_literal hq,formatted_body hq hw hs ho]
  refine ⟨hh,?_⟩
  rw [mem_scan_iff,Issue.found_iff,occurs_iff]
  constructor
  · rintro ⟨s,t,h,ht⟩
    by_cases hu : s = u
    · subst hu
      rw [← List.append_cancel_left h] at ht
      exact .inl (hh.1 ht)
    · exact .inr ⟨s,t,h,hu,ht⟩
  · rintro (h | ⟨s,t,h,-,ht⟩)
    · exact ⟨u,_,rfl,hh.2 h⟩
    · exact ⟨s,t,h,ht⟩

/-- The literal ends behind its placeholder, but the operator is behind the other quote. -/
theorem scan_formatCall_closed : isQuote '"' = true ∧ '"' ∉ "%s' % ".toList ∧
    "%s".toList <:+: "%s' % ".toList ∧ Blanks [' '] ∧ .sqlInjection ∈
      (scan .python ("cur.".toList ++ (formatCall '"' "%s' % ".toList [' '] ++ ['x',')']))).map
        (·.issue) := by
  have hq : isQuote '"' = true := rfl
  have hw : '"' ∉ "%s' % ".toList := by decide
  have hs : "%s".toList <:+: "%s' % ".toList := ⟨[],"' % ".toList,rfl⟩
  have hb : Blanks [' '] := by decide
  have hc : Caught "%s' % ".toList :=
    .inr ⟨"%s".toList,[' ','%',' '],rfl,by decide,⟨[],[],rfl⟩,[' '],[' '],rfl,hb⟩
  exact ⟨hq,hw,hs,hb,(scan_formatCall hq hw hs hb "cur.".toList ['x',')']).2.2 (.inl hc)⟩

/-- A placeholder in single quotes keeps a literal in double quotes from being found. -/
theorem scan_formatCall_quoted : ¬ ∀ (q : Char) (w b u v : Text), isQuote q = true →
    (∀ c ∈ w, c ∉ [q,'\\','\n','\r']) → "%s".toList <:+: w → Blanks b →
    .sqlInjection ∈ (scan .python (u ++ (formatCall q w b ++ v))).map (·.issue) := by
  intro h
  have hs : "%s".toList <:+: "SELECT * FROM t WHERE name = '%s'".toList :=
    ⟨"SELECT * FROM t WHERE name = '".toList,['\''],rfl⟩
  have hn : .sqlInjection ∉ (scan .python ("cur.".toList ++
      (formatCall '"' "SELECT * FROM t WHERE name = '%s'".toList [' '] ++ "name)".toList))).map
        (·.issue) := by
    decide +kernel
  exact hn (h '"' _ [' '] _ _ rfl (by decide) hs (by decide))

def parameters : Text := ", (user_id,))\n".toList

/-- The line of a call with the body `w` and its parameters, which nothing formats. -/
def parameterized (w : Text) : Text :=
  "cur.execute(\"".toList ++ (w ++ '"' :: parameters)

/-- In the text behind the line the operator follows a quote in front of which there is no single
one, and a placeholder stands in the query or in front of that quote. -/
def FormatsLater (w r : Text) : Prop :=
  ∃ a q u, r = a ++ q :: u ∧ '\'' ∉ a ∧ ("%s".toList <:+: w ∨ "%s".toList <:+: a) ∧
    isQuote q = true ∧ Operator u

/-- The body ends like a call with an interpolated literal, which its own closing quote seems to
open. -/
def OpensInterpolated (w : Text) : Prop :=
  ∃ s b d, w = s ++ ("execute".toList ++ (b ++ '(' :: (d ++ ['f']))) ∧ Blanks b ∧ Blanks d

theorem isQuote_parameters : ∀ c ∈ parameters, isQuote c = false := by
  decide

theorem not_operator_parameters (t : Text) : ¬ Operator (parameters ++ t) := by
  rw [operator_iff]
  intro h
  have hc : some ',' = some '%' := h
  simp at hc

theorem infix_parameters {a : Text} (h : "%s".toList <:+: parameters ++ a) :
    "%s".toList <:+: a := by
  have he : parameters ++ a = ", (user_id,))".toList ++ '\n' :: a := rfl
  rw [he] at h
  rcases infix_append (by decide) h with h | h
  · exact absurd (h.subset (List.mem_cons_self : '%' ∈ ['%','s'])) (by decide)
  · exact h

theorem formatted_query {w r : Text} (hw : ∀ c ∈ w, isQuote c = false) :
    formatted (w ++ '"' :: (parameters ++ r)) = true ↔ FormatsLater w r := by
  rw [formatted_append hw]
  constructor
  · rintro ⟨_ | ⟨c,a⟩,q,u,h,ha,hi,hq,hu⟩
    · rw [← (List.cons_eq_cons.1 h).2] at hu
      exact absurd hu (not_operator_parameters r)
    · obtain ⟨rfl,ht⟩ := List.cons_eq_cons.1 h
      obtain ⟨a,rfl,rfl⟩ := behind_of_first ht isQuote_parameters hq
      have hp : "%s".toList <:+: w ∨ "%s".toList <:+: a :=
        (infix_append (by decide) hi).imp_right infix_parameters
      exact ⟨a,q,u,rfl,fun h => ha (by simp [h]),hp,hq,hu⟩
  · rintro ⟨a,q,u,rfl,ha,hi,hq,hu⟩
    have hs : '\'' ∉ '"' :: (parameters ++ a) := by
      have hp : '\'' ∉ '"' :: parameters := by decide
      rw [← List.cons_append,List.mem_append]
      exact fun h => h.elim hp ha
    refine ⟨'"' :: (parameters ++ a),q,u,by simp,hs,?_,hq,hu⟩
    rcases hi with h | h
    · exact h.trans ⟨[],'"' :: (parameters ++ a),by simp⟩
    · exact h.trans ⟨w ++ '"' :: parameters,[],by simp⟩

theorem found_call (t : Text) : Issue.sqlInjection.found ("cur.execute(\"".toList ++ t) =
    (queryHere ("execute(".toList ++ '"' :: t) || Issue.sqlInjection.found t) := by
  rw [← somewhereAfter_query (some '"') t]
  rfl

theorem found_parameters (t : Text) : Issue.sqlInjection.found ('"' :: (parameters ++ t)) =
    Issue.sqlInjection.found t := by
  rw [← somewhereAfter_query (some '\n') t]
  rfl

theorem found_body {w r : Text} (hw : ∀ c ∈ w, isQuote c = false)
    (h : Issue.sqlInjection.found (w ++ '"' :: (parameters ++ r)) = true) :
    Issue.sqlInjection.found r = true ∨ FormatsLater w r ∨ OpensInterpolated w := by
  rw [found_append,found_parameters] at h
  rcases h with ⟨s,e,rfl,-,h⟩ | h
  · have he : ∀ c ∈ e, isQuote c = false := fun c hc => hw c (List.mem_append_right _ hc)
    obtain ⟨b,d,hb,hd,⟨-,hf⟩ | rfl⟩ := (queryHere_quote rfl he _).1 h
    · obtain ⟨a,q,u,rfl,ha,hi,hq,hu⟩ := (formatted_append isQuote_parameters).1 hf
      exact .inr (.inl ⟨a,q,u,rfl,ha,.inr (infix_parameters hi),hq,hu⟩)
    · exact .inr (.inr ⟨s,b,d,rfl,hb,hd⟩)
  · exact .inl h

/-- A scan of a query with parameters and of what follows it finds an injection if and only if a scan
of what follows does, or a later literal is formatted where a placeholder stands behind the opening
quote, or the body ends like a call with an interpolated literal. -/
theorem scan_parameterized {w : Text} (hw : ∀ c ∈ w, isQuote c = false) (r : Text) :
    .sqlInjection ∈ (scan .python (parameterized w ++ r)).map (·.issue) ↔
      .sqlInjection ∈ (scan .python r).map (·.issue) ∨ FormatsLater w r ∨ OpensInterpolated w := by
  have ht : parameterized w ++ r =
      "cur.execute(\"".toList ++ (w ++ '"' :: (parameters ++ r)) := by
    unfold parameterized
    simp
  rw [mem_scan_iff,mem_scan_iff,ht,found_call,Bool.or_eq_true,queryHere_literal rfl,
    formatted_query hw]
  constructor
  · rintro (h | h)
    · exact .inr (.inl h)
    · exact found_body hw h
  · rintro (h | h | ⟨s,b,d,rfl,hb,hd⟩)
    · rw [← found_parameters r] at h
      exact .inr ((found_append ..).2 (.inr h))
    · exact .inl h
    · have he : ∀ c ∈ "execute".toList ++ (b ++ '(' :: (d ++ ['f'])), isQuote c = false :=
        fun c hc => hw c (List.mem_append_right _ hc)
      have hf := (queryHere_quote (q := '"') rfl he (parameters ++ r)).2
        ⟨b,d,hb,hd,.inr rfl⟩
      exact .inr ((found_append ..).2 (.inl ⟨s,_,rfl,by simp,hf⟩))

theorem scan_parameterized_later : (∀ c ∈ "id = %s".toList, isQuote c = false) ∧
    .sqlInjection ∈ (scan .python
      (parameterized "id = %s".toList ++ "print(\"total: %d\" % n)".toList)).map (·.issue) := by
  have hw : ∀ c ∈ "id = %s".toList, isQuote c = false := by decide
  have hl : FormatsLater "id = %s".toList "print(\"total: %d\" % n)".toList :=
    ⟨"print(\"total: %d".toList,'"'," % n)".toList,rfl,by decide,.inl ⟨"id = ".toList,[],rfl⟩,rfl,
      [' ']," n)".toList,rfl,by decide⟩
  exact ⟨hw,(scan_parameterized hw _).2 (.inr (.inl hl))⟩

/-- A formatted message behind a query with parameters makes it a finding. -/
theorem scan_parameterized_message : ¬ ∀ w r : Text,
    (∀ c ∈ w, c ∉ ['\'','"','\\','\n','\r']) → .sqlInjection ∉ (scan .python r).map (·.issue) →
    .sqlInjection ∉ (scan .python (parameterized w ++ r)).map (·.issue) := by
  intro h
  have hr : .sqlInjection ∉ (scan .python "print(\"total: %d\" % n)".toList).map (·.issue) := by
    decide +kernel
  have hf : .sqlInjection ∈ (scan .python
      (parameterized "SELECT * FROM t WHERE id = %s".toList ++
        "print(\"total: %d\" % n)".toList)).map (·.issue) := by
    decide +kernel
  exact h _ _ (by decide) hr hf

end Workbench.Analysis
