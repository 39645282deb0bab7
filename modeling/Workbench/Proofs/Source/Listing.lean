import Mathlib.Data.List.Forall2
import Workbench.Proofs.Source.Occurrence
import Workbench.Proofs.Source.Parameters
set_option autoImplicit false

/-!
A function as it is declared: parameters of every kind, each with an annotation and a default
perhaps, and blanks anywhere between them. Their list is enclosed as a whole, it is cut into them,
and nothing in it is a declaration of its own.
-/
namespace Workbench.Source
open Text

/-- The text does not hold the keyword. -/
abbrev Undeclared (t : Text) : Prop := ¬ "def".toList <:+: t

/-- An annotation or a default: brackets and strings are in order, commas stand only inside of them,
and there is neither a backslash nor the keyword. -/
structure Expression (t : Text) : Prop where
  balanced : Balanced false t
  unescaped : '\\' ∉ t
  undeclared : Undeclared t

/-- An expression behind its mark, or nothing. -/
def Marked (m : Char) (t : Text) : Prop :=
  t = [] ∨ ∃ b e, t = b ++ m :: e ∧ Blanks b ∧ Expression e

theorem Expression.marked {t : Text} (h : Expression t) (m : Char) {b : Text} (hb : Blanks b) :
    Marked m (b ++ m :: t) :=
  .inr ⟨b,t,rfl,hb,h⟩

/-- A parameter, without what its annotation and its default say. -/
inductive Formal where
  | plain (name : Text)
  | slash
  | star
  | starred (name : Text)
  | doubleStarred (name : Text)
  deriving DecidableEq, Repr

/-- The name of a parameter with the stars in front of it, or the marker that it is. -/
def Formal.shown : Formal → Text
  | .plain n => n
  | .slash => ['/']
  | .star => ['*']
  | .starred n => '*' :: n
  | .doubleStarred n => '*' :: '*' :: n

/-- A single star; what stands behind it is passed by name. -/
def Formal.isStar : Formal → Bool
  | .star => true
  | .starred _ => true
  | _ => false

def Formal.name? : Formal → Option Text
  | .plain n => some n
  | _ => none

theorem Formal.shown_of_name? {p : Formal} {n : Text} (h : p.name? = some n) : p.shown = n := by
  cases p with
  | plain m => exact Option.some.inj h
  | _ => cases h

inductive Formal.Written : Formal → Text → Prop where
  | plain {n s t : Text} (hn : IsIdent n) (hs : Marked ':' s) (ht : Marked '=' t) :
    Written (.plain n) (n ++ (s ++ t))
  | slash : Written .slash ['/']
  | star : Written .star ['*']
  | starred {n s : Text} (hn : IsIdent n) (hs : Marked ':' s) : Written (.starred n) ('*' :: (n ++ s))
  | doubleStarred {n s : Text} (hn : IsIdent n) (hs : Marked ':' s) :
    Written (.doubleStarred n) ('*' :: '*' :: (n ++ s))

def Formal.Spaced (p : Formal) (w : Text) : Prop :=
  ∃ a t b, w = a ++ (t ++ b) ∧ p.Written t ∧ Blanks a ∧ Blanks b

theorem Formal.Written.spaced {p : Formal} {t a b : Text} (h : p.Written t) (ha : Blanks a)
    (hb : Blanks b) : p.Spaced (a ++ (t ++ b)) :=
  ⟨a,t,b,rfl,h,ha,hb⟩

inductive Listed : List Formal → Text → Prop where
  | nil {b : Text} (hb : Blanks b) : Listed [] b
  | single {p : Formal} {w : Text} (hp : p.Spaced w) : Listed [p] w
  | cons {p q : Formal} {ps : List Formal} {w u : Text} (hp : p.Spaced w)
    (h : Listed (q :: ps) u) : Listed (p :: q :: ps) (w ++ ',' :: u)

def specials : Text := ['\'','"','(',')','[',']','\x7b','\x7d',',','\\']

theorem not_special_of_isIdentPart {c : Char} (h : isIdentPart c = true) : c ∉ specials := by
  intro hc
  have hs : ∀ d ∈ specials, isIdentPart d = false := by decide
  rw [hs c hc] at h
  cases h

theorem not_special_of_isBlank {c : Char} (h : isBlank c = true) : c ∉ specials := by
  intro hc
  have hs : ∀ d ∈ specials, isBlank d = false := by decide
  rw [hs c hc] at h
  cases h

theorem balanced_of_forall {commas : Bool} {t : Text} (h : ∀ c ∈ t, c ∉ specials) :
    Balanced commas t := by
  induction t with
  | nil => exact .nil
  | cons c t ih =>
    obtain ⟨hc,ht⟩ := List.forall_mem_cons.1 h
    have hn : isQuote c = false ∧ isOpening c = false ∧ isClosing c = false ∧ c ≠ ',' := by
      simp [specials] at hc
      simp [isQuote,isOpening,isClosing,hc]
    exact .plain hn.1 hn.2.1 hn.2.2.1 (fun e => absurd e hn.2.2.2) (ih ht)

/-- In order, and without a backslash. -/
structure Orderly (t : Text) : Prop where
  balanced : Balanced false t
  unescaped : '\\' ∉ t

theorem orderly_of_forall {t : Text} (h : ∀ c ∈ t, c ∉ specials) : Orderly t :=
  ⟨balanced_of_forall h,fun hm => h _ hm (by decide)⟩

theorem Orderly.append {t u : Text} (ht : Orderly t) (hu : Orderly u) : Orderly (t ++ u) :=
  ⟨ht.balanced.append hu.balanced,by simp [ht.unescaped,hu.unescaped]⟩

theorem orderly_blanks {b : Text} (hb : Blanks b) : Orderly b :=
  orderly_of_forall fun c hc => not_special_of_isBlank (hb c hc)

theorem Marked.orderly {m : Char} (hm : m ∉ specials) {t : Text} (h : Marked m t) :
    Orderly t := by
  rcases h with rfl | ⟨b,e,rfl,hb,he⟩
  · exact orderly_of_forall (by simp)
  · have ho : Orderly [m] := orderly_of_forall (by simpa using hm)
    exact (orderly_blanks hb).append (ho.append ⟨he.balanced,he.unescaped⟩)

/-- What follows the name of a parameter. -/
def Tail (t : Text) : Prop := ∃ s d, t = s ++ d ∧ Marked ':' s ∧ Marked '=' d

theorem Tail.orderly {t : Text} (h : Tail t) : Orderly t := by
  obtain ⟨s,d,rfl,hs,hd⟩ := h
  exact (hs.orderly (by decide)).append (hd.orderly (by decide))

def isShown (c : Char) : Bool := isIdentPart c || c == '*' || c == '/'

def isNamePart (c : Char) : Bool := c != ':' && c != '='

theorem of_isShown {c : Char} (h : isShown c = true) :
    c ∉ specials ∧ isBlank c = false ∧ isNamePart c = true := by
  simp only [isShown,Bool.or_eq_true,beq_iff_eq,or_assoc] at h
  rcases h with h | rfl | rfl
  · refine ⟨not_special_of_isIdentPart h,?_,?_⟩
    · cases hb : isBlank c with
      | false => rfl
      | true => rw [isIdentPart_of_isBlank hb] at h; cases h
    · have hn : ∀ d ∈ [':','='], isIdentPart d = false := by decide
      simp only [isNamePart,Bool.and_eq_true,bne_iff_ne]
      constructor <;> (rintro rfl; rw [hn _ (by simp)] at h; cases h)
  · decide
  · decide

namespace Formal
variable {p : Formal} {t w : Text}

theorem Written.shown (h : p.Written t) :
    p.shown ≠ [] ∧ ∀ c ∈ p.shown, isShown c = true := by
  have hi : ∀ {n : Text}, IsIdent n → n ≠ [] ∧ ∀ c ∈ n, isShown c = true := by
    intro n hn
    refine ⟨?_,fun c hc => by simp [isShown,hn.2 c hc]⟩
    rintro rfl
    exact absurd hn.1 (by simp)
  cases h with
  | plain hn hs ht => exact hi hn
  | slash => decide
  | star => decide
  | starred hn hs =>
    exact ⟨List.cons_ne_nil _ _,List.forall_mem_cons.2 ⟨by decide,(hi hn).2⟩⟩
  | doubleStarred hn hs =>
    exact ⟨List.cons_ne_nil _ _,
      List.forall_mem_cons.2 ⟨by decide,List.forall_mem_cons.2 ⟨by decide,(hi hn).2⟩⟩⟩

theorem Written.exists_tail (h : p.Written t) : ∃ r, t = p.shown ++ r ∧ Tail r := by
  have hn : ∀ {m : Char}, Marked m [] := .inl rfl
  cases h with
  | @plain n s d _ hs hd => exact ⟨s ++ d,rfl,s,d,rfl,hs,hd⟩
  | slash => exact ⟨[],rfl,[],[],rfl,hn,hn⟩
  | star => exact ⟨[],rfl,[],[],rfl,hn,hn⟩
  | @starred n s _ hs => exact ⟨s,rfl,s,[],by simp,hs,hn⟩
  | @doubleStarred n s _ hs => exact ⟨s,rfl,s,[],by simp,hs,hn⟩

theorem Spaced.orderly (h : p.Spaced w) : Orderly w := by
  obtain ⟨a,t,b,rfl,ht,ha,hb⟩ := h
  obtain ⟨r,rfl,hr⟩ := ht.exists_tail
  have hs : Orderly p.shown := orderly_of_forall fun c hc => (of_isShown (ht.shown.2 c hc)).1
  exact (orderly_blanks ha).append ((hs.append hr.orderly).append (orderly_blanks hb))

theorem Spaced.notBlank (h : p.Spaced w) : allBlank w = false := by
  obtain ⟨a,t,b,rfl,ht,ha,hb⟩ := h
  obtain ⟨r,rfl,-⟩ := ht.exists_tail
  obtain ⟨hn,hs⟩ := ht.shown
  obtain ⟨c,s,hc⟩ := List.exists_cons_of_ne_nil hn
  have h := (of_isShown (hs c (by simp [hc]))).2.1
  simp [allBlank,hc,h]

end Formal

theorem Orderly.plain {t : Text} (h : Orderly t) :
    plainRun .start t = .start ∧ breaks .start t = false :=
  plain_balanced h.balanced h.unescaped 0 (by simp)

theorem Listed.splitTop {ps : List Formal} {t : Text} (h : Listed ps t) :
    List.Forall₂ (fun q p => ∃ w, q = trim w ∧ Formal.Spaced p w) (splitTop t) ps := by
  induction h with
  | @nil b hb =>
    have hs : splitTopFrom .start (b ++ []) = [b ++ []] :=
      splitTopFrom_append (orderly_blanks hb).plain.2 rfl
    have ht : trim b = [] := (trim_eq_nil_iff b).2 (List.all_eq_true.2 hb)
    rw [List.append_nil] at hs
    simp [Source.splitTop,hs,ht]
  | @single p w hp =>
    rw [splitTop_last hp.notBlank hp.orderly.plain.2]
    exact .cons ⟨w,rfl,hp⟩ .nil
  | @cons p q ps w u hp _ ih =>
    obtain ⟨hc,hb⟩ := hp.orderly.plain
    rw [splitTop_piece hp.notBlank hb hc]
    exact .cons ⟨w,rfl,hp⟩ ih

theorem Listed.balanced {ps : List Formal} {t : Text} (h : Listed ps t) : Balanced true t := by
  induction h with
  | nil hb => exact (orderly_blanks hb).balanced.weaken
  | single hp => exact hp.orderly.balanced.weaken
  | cons hp _ ih =>
    exact hp.orderly.balanced.weaken.append (.plain rfl rfl rfl (fun _ => rfl) ih)

theorem Listed.enclosed {ps : List Formal} {t : Text} (h : Listed ps t) (rest : Text) :
    enclosed? (t ++ ')' :: rest) = some t := by
  rw [enclosed?,Nesting.start,enclosedFrom_balanced h.balanced]
  simp [enclosedFrom,Nesting.isTop]

def IsMark (c : Char) : Prop := isWordChar c = false ∧ isBlank c = false

theorem IsMark.isIdentPart {c : Char} (h : IsMark c) : isIdentPart c = false := by
  rw [Bool.eq_false_iff]
  intro hp
  have hw := h.1
  rw [isWordChar_of_isIdentPart hp] at hw
  cases hw

theorem IsMark.not_mem_def {c : Char} (h : IsMark c) : c ∉ "def".toList := by
  intro hc
  have hp := isIdent_def.2 c hc
  rw [h.isIdentPart] at hp
  cases hp

theorem undeclared_of_not_mem {t : Text} (h : 'd' ∉ t) : Undeclared t :=
  fun hi => h (hi.subset (by decide))

theorem Undeclared.append_blanks {t b : Text} (ht : Undeclared t) (hb : Blanks b) :
    Undeclared (t ++ b) := by
  have hn : ∀ {c}, isBlank c = true → c ∉ "def".toList := by
    intro c hc hm
    have hp := isIdent_def.2 c hm
    rw [isIdentPart_of_isBlank hc] at hp
    cases hp
  cases b with
  | nil => simpa using ht
  | cons c b =>
    obtain ⟨hc,hb⟩ := List.forall_mem_cons.1 hb
    intro h
    rcases infix_append (hn hc) h with h | h
    · exact ht h
    · exact absurd (h.subset (by decide : 'd' ∈ "def".toList)) fun hm => hn (hb _ hm) (by decide)

theorem opening?_of_undeclared {c : Char} {t : Text} {opens : Char → Bool}
    (h : ¬ "def".toList <+: c :: t) : opening? "def".toList opens (c :: t) = none := by
  rw [opening?_eq,Option.bind_eq_none_iff]
  intro u hu
  exact absurd ⟨u,(after?_eq_some_iff.1 hu).symm⟩ h

theorem occurrences_undeclared {t : Text} (h : Undeclared t) (start : Bool) (p : Nat) :
    occurrences "def".toList opensCall start p t = [] := by
  induction t generalizing start p with
  | nil => rfl
  | cons c t ih =>
    rw [occurrences_none p (opening?_of_undeclared fun hp => h hp.isInfix)]
    exact ih (fun ht => h (List.infix_cons ht)) _ _

/-- No declaration starts in the text if a mark follows it. -/
def Undeclaring (t : Text) : Prop := ∀ start p c u, IsMark c → ∃ q,
  occurrences "def".toList opensCall start p (t ++ c :: u) =
    occurrences "def".toList opensCall true q u

theorem Undeclared.undeclaring {t : Text} (h : Undeclared t) : Undeclaring t := by
  intro start p c u hc
  induction t generalizing start p with
  | nil =>
    rw [List.nil_append,occurrences_none p (opening?_of_head isIdent_def hc.isIdentPart u),hc.1]
    exact ⟨p+1,rfl⟩
  | cons d t ih =>
    have hn : ¬ "def".toList <+: d :: (t ++ c :: u) := fun hp =>
      h (prefix_of_append (t := d :: t) hc.not_mem_def hp).isInfix
    rw [List.cons_append,occurrences_none p (opening?_of_undeclared hn)]
    exact ih (fun ht => h (List.infix_cons ht)) _ _

namespace Undeclaring

theorem mark {t u : Text} {c : Char} (ht : Undeclaring t) (hc : IsMark c) (hu : Undeclaring u) :
    Undeclaring (t ++ c :: u) := by
  intro start p d v hd
  obtain ⟨q,hq⟩ := ht start p c (u ++ d :: v) hc
  rw [List.append_assoc,List.cons_append,hq]
  exact hu true q d v hd

theorem blanks {b t : Text} (hb : Blanks b) (ht : Undeclaring t) : Undeclaring (b ++ t) := by
  cases b with
  | nil => exact ht
  | cons c b =>
    intro start p d u hd
    rw [List.append_assoc,occurrences_outside isIdent_def (List.cons_ne_nil _ _)
      (fun e he => isWordChar_of_isBlank (hb e he))]
    exact ht true _ d u hd

end Undeclaring

/-- Blanks, and then nothing more or a mark. -/
def Leads (t : Text) : Prop :=
  ∃ b, Blanks b ∧ (t = b ∨ ∃ m u, IsMark m ∧ t = b ++ m :: u)

theorem Leads.append {t : Text} (h : Leads t) {c : Char} (hc : IsMark c) (u : Text) :
    (t ++ c :: u).head?.any isIdentPart = false ∧
      (trimStart (t ++ c :: u)).head?.any isIdentStart = false := by
  have hm : ∀ {b : Text} {m : Char} {v : Text}, Blanks b → IsMark m →
      (b ++ m :: v).head?.any isIdentPart = false ∧
        (trimStart (b ++ m :: v)).head?.any isIdentStart = false := by
    intro b m v hb hm
    have ho : Outside (· == m) := fun c hc => beq_iff_eq.1 hc ▸ hm
    obtain ⟨hh,ht⟩ := head_behindName ho hb (beq_self_eq_true m) v
    refine ⟨hh,?_⟩
    rw [ht,List.head?_cons,Option.any_some,Bool.eq_false_iff]
    intro hi
    have hp := isIdentPart_of_isIdentStart hi
    rw [hm.isIdentPart] at hp
    cases hp
  obtain ⟨b,hb,rfl | ⟨m,v,hv,rfl⟩⟩ := h
  · exact hm hb hc
  · rw [List.append_assoc,List.cons_append]
    exact hm hb hv

theorem Undeclaring.ident {n t : Text} (hn : IsIdent n) (hl : Leads t) (ht : Undeclaring t) :
    Undeclaring (n ++ t) := by
  intro start p c u hc
  obtain ⟨hr,hs⟩ := hl.append hc u
  rw [List.append_assoc,occurrences_ident isIdent_def hn hr hs]
  exact ht false _ c u hc

/-- What follows a name, with blanks behind it: no declaration starts in it, whatever expression
stands in front of it. -/
structure Quiet (t : Text) : Prop where
  leads : Leads t
  undeclaring : ∀ e, Undeclared e → Undeclaring (e ++ t)

theorem quiet_blanks {b : Text} (hb : Blanks b) : Quiet b where
  leads := ⟨b,hb,.inl rfl⟩
  undeclaring := fun _ he => (he.append_blanks hb).undeclaring

theorem Marked.quiet {m : Char} {t u : Text} (ht : Marked m t) (hm : IsMark m) (hu : Quiet u) :
    Quiet (t ++ u) := by
  rcases ht with rfl | ⟨b,e,rfl,hb,he⟩
  · exact hu
  · refine ⟨⟨b,hb,.inr ⟨m,e ++ u,hm,by simp⟩⟩,fun f hf => ?_⟩
    have h := (hf.append_blanks hb).undeclaring.mark hm (hu.undeclaring e he.undeclared)
    simpa using h

theorem Formal.Spaced.undeclaring {p : Formal} {w : Text} (h : p.Spaced w) : Undeclaring w := by
  obtain ⟨a,t,b,rfl,ht,ha,hb⟩ := h
  have hm : IsMark ':' ∧ IsMark '=' ∧ IsMark '*' := by
    unfold IsMark; decide +kernel
  have hq := quiet_blanks hb
  have hn : Undeclaring [] := Undeclared.undeclaring (by decide)
  refine .blanks ha ?_
  cases ht with
  | @plain n s d hi hs hd =>
    have h := hs.quiet hm.1 (hd.quiet hm.2.1 hq)
    simpa using Undeclaring.ident hi h.leads (h.undeclaring [] (by decide))
  | slash => exact hq.undeclaring ['/'] (by decide)
  | star => exact hq.undeclaring ['*'] (by decide)
  | @starred n s hi hs =>
    have h := hs.quiet hm.1 hq
    simpa using hn.mark hm.2.2 (.ident hi h.leads (h.undeclaring [] (by decide)))
  | @doubleStarred n s hi hs =>
    have h := hs.quiet hm.1 hq
    simpa using hn.mark hm.2.2 (hn.mark hm.2.2
      (.ident hi h.leads (h.undeclaring [] (by decide))))

theorem Listed.undeclaring {ps : List Formal} {t : Text} (h : Listed ps t) : Undeclaring t := by
  induction h with
  | nil hb => exact Undeclared.undeclaring (Undeclared.append_blanks (t := []) (by decide) hb)
  | single hp => exact hp.undeclaring
  | cons hp _ ih => exact hp.undeclaring.mark ⟨by decide +kernel,by decide⟩ ih

/-- A function with its list of parameters and all that follows. -/
def functionText (f params body : Text) : Text :=
  "def".toList ++ ' ' :: (f ++ '(' :: (params ++ ')' :: ':' :: body))

theorem declares_functionText {f : Text} (hf : IsIdent f) (params body : Text) :
    Declares "def".toList opensCall (functionText f params body)
      ⟨f,'(',params ++ ')' :: ':' :: body⟩ :=
  ⟨[' '],[],rfl,⟨by simp,by decide⟩,hf,by simp,rfl⟩

theorem openings_functionText {f params body : Text} {ps : List Formal} (hf : IsIdent f)
    (hl : Listed ps params) (hb : Undeclared body) :
    openings "def".toList opensCall (functionText f params body) =
      [⟨f,'(',params ++ ')' :: ':' :: body⟩] := by
  have ho := (opening?_eq_some_iff outside_opensCall).2 (declares_functionText hf params body)
  obtain ⟨q,hq⟩ := hl.undeclaring true 0 ')' (':' :: body) ⟨by decide +kernel,by decide⟩
  obtain ⟨r,hr⟩ := Undeclared.undeclaring (t := []) (by decide) true q ':' body
    ⟨by decide +kernel,by decide⟩
  have he : openingsFrom "def".toList opensCall (some '(') (params ++ ')' :: ':' :: body) = [] := by
    rw [openingsFrom_eq isIdent_def outside_opensCall _ _ 0,
      show edge (some '(') = true by decide +kernel,hq]
    rw [List.nil_append] at hr
    rw [hr,occurrences_undeclared hb,List.map_nil]
  rw [openings,openingsFrom_some rfl ho,he]

/-- The function is the only declaration, with exactly its own list of parameters. -/
theorem signatures_functionText {f params body : Text} {ps : List Formal} (hf : IsIdent f)
    (hl : Listed ps params) (hb : Undeclared body) :
    signatures .python (functionText f params body) = [⟨f,some (splitTop params)⟩] := by
  rw [signatures,show Profile.python.functionKeyword = "def".toList from rfl,
    openings_functionText hf hl hb,List.map_singleton,hl.enclosed,Option.map_some]

end Workbench.Source
