import Workbench.Proofs.Analysis.Findings
import Workbench.Proofs.Text.Literal
set_option autoImplicit false

/-!
Passwords and their rule. The rule ends a literal at the next quote, whichever quote opened it, and
asks for something in front of that quote. So a literal that holds the other quote is found, unless it
starts with it: then the rule sees an empty one, and no finding reaches over the two quotes.
-/
namespace Workbench.Analysis
open Text Source Pattern

/-- The name of the variable in any case, blanks perhaps, the equals sign, and blanks perhaps. -/
def Assigning (a : Text) : Prop :=
  ∃ k b d, a = k ++ (b ++ '=' :: d) ∧ k.map foldCase = "password".toList ∧ Blanks b ∧ Blanks d

/-- Something without quotes stands between two of them, which may be of both kinds. -/
def Quoted (t : Text) : Prop :=
  ∃ q w r v, t = q :: (w ++ r :: v) ∧ isQuote q = true ∧ w ≠ [] ∧ (∀ c ∈ w, isQuote c = false) ∧
    isQuote r = true

theorem isQuote_assigning {a : Text} (h : Assigning a) : ∀ c ∈ a, isQuote c = false := by
  obtain ⟨k,b,d,rfl,hk,hb,hd⟩ := h
  have hq : ∀ c ∈ k, isQuote c = false := by
    intro c hc
    have hm : foldCase c ∈ "password".toList := hk ▸ List.mem_map_of_mem hc
    rw [Bool.eq_false_iff]
    intro h
    have hc : c = '\'' ∨ c = '"' := by simpa [isQuote] using h
    rcases hc with rfl | rfl <;> exact absurd hm (by decide)
  have he : isQuote '=' = false := rfl
  simp only [List.mem_append,List.mem_cons]
  rintro c (h | h | rfl | h)
  · exact hq c h
  · exact isQuote_of_blank (hb c h)
  · exact he
  · exact isQuote_of_blank (hd c h)

theorem ne_nil_of_assigning {a : Text} (h : Assigning a) : a ≠ [] := by
  obtain ⟨k,b,d,rfl,-⟩ := h
  simp

/-- The rule describes what is assigned and then quoted. -/
theorem password_occurs_iff (t : Text) : Issue.hardcodedCredentials.pattern.Occurs t ↔
    ∃ u a z, t = u ++ (a ++ z) ∧ Assigning a ∧ Quoted z := by
  constructor
  · rintro ⟨u,_,v,rfl,_,_,rfl,⟨_,d,rfl,⟨_,_,rfl,⟨k,b,rfl,hk,hb⟩,c,hc,rfl⟩,hd⟩,hz⟩
    obtain ⟨_,_,rfl,⟨_,w,rfl,⟨_,_,rfl,⟨q,hq,rfl⟩,e,he,rfl⟩,hw⟩,r,hr,rfl⟩ := hz
    obtain rfl : c = '=' := by simpa using hc
    refine ⟨u,k ++ (b ++ '=' :: d),q :: (e :: w ++ r :: v),by simp,⟨k,b,d,rfl,hk,hb,hd⟩,
      q,e :: w,r,v,rfl,hq,List.cons_ne_nil _ _,?_,hr⟩
    exact List.forall_mem_cons.2 ⟨by simpa using he,fun c hc => by simpa using hw c hc⟩
  · rintro ⟨u,_,_,rfl,⟨k,b,d,rfl,hk,hb,hd⟩,q,w,r,v,rfl,hq,hn,hw,hr⟩
    obtain ⟨e,w,rfl⟩ := List.exists_cons_of_ne_nil hn
    obtain ⟨he,hw⟩ := List.forall_mem_cons.1 hw
    refine ⟨u,k ++ b ++ ['='] ++ d ++ ([q] ++ [e] ++ w ++ [r]),v,by simp,
      _,_,rfl,⟨_,d,rfl,⟨_,_,rfl,⟨k,b,rfl,hk,hb⟩,'=',rfl,rfl⟩,hd⟩,
      _,_,rfl,⟨_,w,rfl,⟨_,_,rfl,⟨q,hq,rfl⟩,e,by simpa using he,rfl⟩,fun c hc => by simpa using hw c hc⟩,
      r,hr,rfl⟩

theorem quoted_append {z : Text} (h : Quoted z) (t : Text) : Quoted (z ++ t) := by
  obtain ⟨q,w,r,v,rfl,hq,hn,hw,hr⟩ := h
  exact ⟨q,w,r,v ++ t,by simp,hq,hn,hw,hr⟩

theorem quoted_of_head {q c : Char} (hq : isQuote q = true) (hc : isQuote c = false) (w v : Text) :
    Quoted (q :: (c :: w ++ q :: v)) := by
  obtain ⟨l,t,ht,-,-,hl,hh⟩ := exists_span (fun c => !isQuote c) (w ++ q :: v)
  have hl : ∀ d ∈ l, isQuote d = false := fun d hd => by simpa using hl d hd
  cases t with
  | nil =>
    have hm : q ∈ l := by
      rw [List.append_nil] at ht
      simp [← ht]
    rw [hl q hm] at hq
    cases hq
  | cons r t =>
    exact ⟨q,c :: l,r,t,by simp [ht],hq,List.cons_ne_nil _ _,List.forall_mem_cons.2 ⟨hc,hl⟩,
      by simpa using hh⟩

section
variable {q r : Char} (hq : isQuote q = true) (hr : isQuote r = true)
include hq hr

theorem quoted_of_quotes {z t : Text} (h : Quoted (z ++ q :: r :: t)) : Quoted (z ++ [q]) := by
  obtain ⟨p,w,s,v,hz,hp,hn,hw,hs⟩ := h
  cases z with
  | nil =>
    obtain ⟨e,w,rfl⟩ := List.exists_cons_of_ne_nil hn
    obtain ⟨-,ht⟩ := List.cons_eq_cons.1 hz
    have he := hw e List.mem_cons_self
    rw [← (List.cons_eq_cons.1 ht).1,hr] at he
    cases he
  | cons c z =>
    obtain ⟨rfl,ht⟩ := List.cons_eq_cons.1 hz
    obtain ⟨e,rfl,he⟩ := behind_of_first ht.symm hw hq
    cases e with
    | nil => exact ⟨c,w,q,[],by simp,hp,hn,hw,hq⟩
    | cons d e =>
      obtain ⟨rfl,-⟩ := List.cons_eq_cons.1 he
      exact ⟨c,w,s,e ++ [q],by simp,hp,hn,hw,hs⟩

/-- Two quotes side by side part a text: what the rule describes stands on one side of them. -/
theorem password_occurs_quotes (x t : Text) :
    Issue.hardcodedCredentials.pattern.Occurs (x ++ q :: r :: t) ↔
      Issue.hardcodedCredentials.pattern.Occurs (x ++ [q]) ∨
        Issue.hardcodedCredentials.pattern.Occurs t := by
  simp only [password_occurs_iff]
  constructor
  · rintro ⟨u,a,z,h,ha,hz⟩
    have hna := isQuote_assigning ha
    rcases List.append_eq_append_iff.1 h with ⟨e,rfl,he⟩ | ⟨e,rfl,he⟩
    · -- The name starts behind both quotes, as it holds none.
      right
      obtain ⟨c,a,rfl⟩ := List.exists_cons_of_ne_nil (ne_nil_of_assigning ha)
      have hc := hna c List.mem_cons_self
      match e,he with
      | [],he =>
        rw [← (List.cons_eq_cons.1 he).1,hq] at hc
        cases hc
      | [_],he =>
        obtain ⟨-,he⟩ := List.cons_eq_cons.1 he
        rw [← (List.cons_eq_cons.1 he).1,hr] at hc
        cases hc
      | _ :: _ :: e,he =>
        obtain ⟨-,he⟩ := List.cons_eq_cons.1 he
        exact ⟨e,c :: a,z,(List.cons_eq_cons.1 he).2,ha,hz⟩
    · left
      obtain ⟨f,rfl,rfl⟩ := behind_of_first he hna hq
      exact ⟨u,a,f ++ [q],by simp,ha,quoted_of_quotes hq hr hz⟩
  · rintro (⟨u,a,z,h,ha,hz⟩ | ⟨u,a,z,rfl,ha,hz⟩)
    · have ht : x ++ q :: r :: t = (x ++ [q]) ++ r :: t := by simp
      exact ⟨u,a,z ++ r :: t,by rw [ht,h]; simp,ha,quoted_append hz _⟩
    · exact ⟨x ++ q :: r :: u,a,z,by simp,ha,hz⟩

end

/-- A literal that is assigned to the name is found if it does not start with a quote. One that does
is found only where the scan finds something in front of that quote or behind it. -/
theorem scan_password {a w : Text} {q : Char} (ha : Assigning a) (hq : isQuote q = true)
    (hw : w ≠ []) (u v : Text) :
    .hardcodedCredentials ∈ (scan .python (u ++ (a ++ q :: (w ++ q :: v)))).map (·.issue) ↔
      w.head?.any isQuote = false ∨
      .hardcodedCredentials ∈ (scan .python (u ++ (a ++ [q]))).map (·.issue) ∨
      .hardcodedCredentials ∈ (scan .python (w.tail ++ q :: v)).map (·.issue) := by
  simp only [mem_scan_iff,Issue.found_iff]
  obtain ⟨c,w,rfl⟩ := List.exists_cons_of_ne_nil hw
  cases hc : isQuote c with
  | true =>
    have ht : u ++ (a ++ q :: (c :: w ++ q :: v)) = (u ++ a) ++ q :: c :: (w ++ q :: v) := by simp
    rw [ht,password_occurs_quotes hq hc]
    simp [hc]
  | false =>
    simp only [List.head?_cons,Option.any_some,hc,true_or,iff_true]
    exact (password_occurs_iff _).2 ⟨u,a,_,rfl,ha,quoted_of_head hq hc w v⟩

theorem scan_password_apostrophe : Assigning "PassWord=\t".toList ∧ isQuote '"' = true ∧
    "it's".toList ≠ [] ∧ .hardcodedCredentials ∈
      (scan .python ("db_".toList ++ ("PassWord=\t".toList ++
        '"' :: ("it's".toList ++ '"' :: ['\n'])))).map (·.issue) := by
  have ha : Assigning "PassWord=\t".toList :=
    ⟨"PassWord".toList,[],['\t'],rfl,by decide,by decide,by decide⟩
  have hw : "it's".toList ≠ [] := by decide
  exact ⟨ha,rfl,hw,(scan_password ha rfl hw "db_".toList ['\n']).2 (.inl rfl)⟩

/-- A literal in double quotes that starts with a single one is not found. -/
theorem scan_password_quoted : ¬ ∀ (q : Char) (k b d w u v : Text), isQuote q = true →
    k.map Char.toLower = "password".toList → Blanks b → Blanks d → w ≠ [] →
    (∀ c ∈ w, c ∉ [q,'\\','\n','\r']) → .hardcodedCredentials ∈
      (scan .python (u ++ (k ++ (b ++ '=' :: (d ++ q :: (w ++ q :: v)))))).map (·.issue) := by
  intro h
  have hn : .hardcodedCredentials ∉ (scan .python ([] ++ ("password".toList ++ ([' '] ++
      '=' :: ([' '] ++ '"' :: ("'tis".toList ++ '"' :: [])))))).map (·.issue) := by
    decide +kernel
  exact hn (h '"' "password".toList [' '] [' '] "'tis".toList [] [] rfl (by decide) (by decide)
    (by decide) (by decide) (by decide))

end Workbench.Analysis
