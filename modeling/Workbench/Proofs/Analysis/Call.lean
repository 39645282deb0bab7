import Mathlib.Data.List.TakeWhile
import Workbench.Proofs.Analysis.TestSkeleton
import Workbench.Proofs.Source.Listing
set_option autoImplicit false

/-!
The test of a function that is declared by itself: its call supplies the plain parameters, those
behind the first star by name, and neither markers, starred parameters nor a leading receiver.
-/
namespace Workbench.Analysis
open Text Source

theorem isNamePart_of_isBlank {c : Char} (h : isBlank c = true) : isNamePart c = true := by
  simp only [isNamePart,Bool.and_eq_true,bne_iff_ne]
  constructor <;> (rintro rfl; exact absurd h (by decide))

theorem declaredName_trim (w : Text) : declaredName (trim w) = declaredName w := by
  obtain ⟨a,ha,hw,-⟩ := exists_trimStart w
  obtain ⟨b,hb,ht⟩ := exists_trimEnd (trimStart w)
  have hs : ∀ {s : Text}, Blanks s → ∀ c ∈ s, isNamePart c = true :=
    fun hs c hc => isNamePart_of_isBlank (hs c hc)
  have hl : declaredName w = trim ((trimStart w).takeWhile isNamePart) := by
    conv_lhs => rw [hw]
    change trim ((a ++ trimStart w).takeWhile isNamePart) = _
    rw [List.takeWhile_append_of_pos (hs ha),trim_blanks_append ha]
  rw [hl]
  conv_rhs => rw [ht,List.takeWhile_append]
  change trim ((trim w).takeWhile isNamePart) = _
  split
  · rename_i h
    have he := (List.takeWhile_prefix isNamePart).eq_of_length h
    rw [List.takeWhile_eq_self_iff.2 (hs hb),trim_append_blanks _ hb]
    exact congrArg trim he
  · rfl

def Bare (t : Text) : Prop := Blanks (t.takeWhile isNamePart)

theorem bare_blanks {b : Text} (hb : Blanks b) : Bare b :=
  fun c hc => hb c ((List.takeWhile_sublist _).subset hc)

theorem bare_marked {m : Char} (hm : m = ':' ∨ m = '=') {t u : Text} (ht : Marked m t)
    (hu : Bare u) : Bare (t ++ u) := by
  rcases ht with rfl | ⟨b,e,rfl,hb,-⟩
  · exact hu
  · have hn : isNamePart m = false := by rcases hm with rfl | rfl <;> decide
    have he : ((b ++ m :: e) ++ u).takeWhile isNamePart = b := by
      rw [List.append_assoc,List.takeWhile_append_of_pos fun c hc => isNamePart_of_isBlank (hb c hc)]
      simp [hn]
    rw [Bare,he]
    exact hb

theorem declaredName_spaced {p : Formal} {w : Text} (h : p.Spaced w) :
    declaredName (trim w) = p.shown := by
  obtain ⟨a,t,b,rfl,ht,ha,hb⟩ := h
  obtain ⟨r,rfl,s,d,rfl,hs,hd⟩ := ht.exists_tail
  have hn := fun c hc => of_isShown (ht.shown.2 c hc)
  have hr : Bare (s ++ (d ++ b)) :=
    bare_marked (.inl rfl) hs (bare_marked (.inr rfl) hd (bare_blanks hb))
  have he : trimEnd ((s ++ (d ++ b)).takeWhile isNamePart) = [] :=
    (trimEnd_eq_nil_iff _).2 (List.all_eq_true.2 hr)
  have hw : a ++ (p.shown ++ (s ++ d) ++ b) = a ++ (p.shown ++ (s ++ (d ++ b))) := by simp
  rw [declaredName_trim,hw]
  change trim ((a ++ (p.shown ++ (s ++ (d ++ b)))).takeWhile isNamePart) = _
  rw [List.takeWhile_append_of_pos fun c hc => isNamePart_of_isBlank (ha c hc),
    trim_blanks_append ha,List.takeWhile_append_of_pos fun c hc => (hn c hc).2.2,
    trim_append_blanks _ hr,trim_of_not_blank fun c hc => (hn c hc).2.1]

/-- The parameters without the receiver of a method, if it comes first. -/
def withoutReceiver : List Formal → List Formal
  | .plain n :: ps => if isReceiver n then ps else .plain n :: ps
  | ps => ps

/-- The plain parameters in front of the first star. -/
def byPlace (ps : List Formal) : List Text :=
  ((withoutReceiver ps).takeWhile fun p => !p.isStar).filterMap Formal.name?

/-- The plain parameters behind the first star. -/
def byName (ps : List Formal) : List Text :=
  ((withoutReceiver ps).dropWhile fun p => !p.isStar).filterMap Formal.name?

structure Shows (q : Text) (p : Formal) : Prop where
  name : declaredName q = p.shown
  head : q.head?.any isBlank = false
  ident : ∀ n, p = .plain n ∨ p = .starred n → IsIdent n

theorem shows_spaced {p : Formal} {w : Text} (h : p.Spaced w) : Shows (trim w) p where
  name := declaredName_spaced h
  head := head_trim w
  ident := by
    obtain ⟨a,t,b,-,ht,-⟩ := h
    rintro n (rfl | rfl)
    · cases ht with
      | plain hn _ _ => exact hn
    · cases ht with
      | starred hn _ => exact hn

theorem IsIdent.head_ne {n : Text} (h : IsIdent n) : n ≠ [] ∧ n.head? ≠ some '*' ∧ n ≠ ['/'] := by
  obtain ⟨c,d,rfl,hc,-⟩ := h.exists_cons
  refine ⟨List.cons_ne_nil _ _,?_,?_⟩
  · intro e
    rw [Option.some.inj e] at hc
    exact absurd hc (by decide)
  · intro e
    rw [(List.cons_eq_cons.1 e).1] at hc
    exact absurd hc (by decide)

namespace Shows
variable {q : Text} {p : Formal} (h : Shows q p)
include h

theorem isStar : isStar q = p.isStar := by
  rw [← isStar_declaredName h.head,h.name]
  cases p with
  | plain n =>
    have hn := (IsIdent.head_ne (h.ident n (.inl rfl))).2.1
    simp [Analysis.isStar,isStarred,Formal.shown,Formal.isStar,hn]
  | slash => rfl
  | star => rfl
  | starred n =>
    obtain ⟨c,d,rfl,-⟩ := (h.ident n (.inr rfl)).exists_cons
    have hn := (IsIdent.head_ne (h.ident _ (.inr rfl))).2.1
    have hc : c ≠ '*' := fun e => hn (congrArg some e)
    simp [Analysis.isStar,isStarred,isDoubleStarred,after?,Formal.shown,Formal.isStar,Ne.symm hc]
  | doubleStarred n =>
    simp [Analysis.isStar,isDoubleStarred,after?,Formal.shown,Formal.isStar]

theorem isSupplied : isSupplied q = p.name?.isSome := by
  rw [Analysis.isSupplied,h.name]
  cases p with
  | plain n =>
    have hn := IsIdent.head_ne (h.ident n (.inl rfl))
    simp [isStarred,Formal.shown,Formal.name?,hn]
  | slash => rfl
  | star => rfl
  | starred n => simp [isStarred,Formal.shown,Formal.name?]
  | doubleStarred n => simp [isStarred,Formal.shown,Formal.name?]

end Shows

section
variable {qs : List Text} {ps : List Formal} (h : List.Forall₂ Shows qs ps)
include h

theorem suppliedNames_shows : suppliedNames qs = ps.filterMap Formal.name? := by
  induction h with
  | nil => rfl
  | @cons q p qs ps hq _ ih =>
    have hs := hq.isSupplied
    rw [suppliedNames] at ih ⊢
    cases hn : p.name? with
    | none =>
      rw [hn] at hs
      rw [List.filterMap_cons_none hn,List.filter_cons_of_neg (by simp [hs]),ih]
    | some n =>
      rw [hn] at hs
      rw [List.filterMap_cons_some hn,List.filter_cons_of_pos hs,List.map_cons,ih,hq.name,
        Formal.shown_of_name? hn]

theorem takeWhile_shows : List.Forall₂ Shows (qs.takeWhile fun q => !isStar q)
    (ps.takeWhile fun p => !p.isStar) := by
  induction h with
  | nil => exact .nil
  | @cons q p qs ps hq _ ih =>
    simp only [List.takeWhile_cons,hq.isStar]
    split
    · exact .cons hq ih
    · exact .nil

theorem dropWhile_shows : List.Forall₂ Shows (qs.dropWhile fun q => !isStar q)
    (ps.dropWhile fun p => !p.isStar) := by
  induction h with
  | nil => exact .nil
  | @cons q p qs ps hq hqs ih =>
    simp only [List.dropWhile_cons,hq.isStar]
    split
    · exact ih
    · exact .cons hq hqs

theorem dropReceiver_shows : List.Forall₂ Shows (dropReceiver qs) (withoutReceiver ps) := by
  cases h with
  | nil => exact .nil
  | @cons q p qs ps hq hqs =>
    rw [dropReceiver,hq.name]
    cases p with
    | plain n =>
      rw [withoutReceiver,Formal.shown]
      split
      · exact hqs
      · exact .cons hq hqs
    | slash => exact .cons hq hqs
    | star => exact .cons hq hqs
    | starred n => exact .cons hq hqs
    | doubleStarred n => exact .cons hq hqs

theorem placed_shows : placed qs = byPlace ps :=
  suppliedNames_shows (takeWhile_shows (dropReceiver_shows h))

theorem keyworded_shows : keyworded qs = byName ps :=
  suppliedNames_shows (dropWhile_shows (dropReceiver_shows h))

end

/-- The test of a function whose parameters are well formed, whatever follows them without another
declaration. -/
theorem generateTests_functionText {f params body : Text} {ps : List Formal} (hf : IsIdent f)
    (hp : f.head? ≠ some '_') (hl : Listed ps params) (hb : Undeclared body) :
    generateTests .python (functionText f params body) =
      testHeader ++ ended (templateLines f (byPlace ps) (byName ps)) := by
  have hs : List.Forall₂ Shows (splitTop params) ps := hl.splitTop.imp fun q p hq => by
    obtain ⟨w,rfl,hw⟩ := hq
    exact shows_spaced hw
  have he : publicFunctions (functionText f params body) = [⟨f,some (splitTop params)⟩] := by
    rw [publicFunctions,signatures_functionText hf hl hb]
    simp [isPublic,hp]
  have hn : publicNames (functionText f params body) ≠ [] := by
    rw [← publicFunctions_names,he]
    exact List.cons_ne_nil _ _
  rw [generateTests_of_ne_nil hn,he]
  simp [joinWith,testLines,placed_shows hs,keyworded_shows hs]

/-- The receiver, the star and its parameter are not passed; commas inside an annotation or a
default do not count. -/
theorem generateTests_functionText_run : generateTests .python
      "def run(self, xs : list[int, str],\n *rest, key='a, b'):\n    return xs".toList =
    testHeader ++ ended (templateLines "run".toList ["xs".toList] ["key".toList]) := by
  have hn {m : Char} : Marked m [] := .inl rfl
  have hb : ∀ b ∈ [[],[' '],['\n',' ']], Blanks b := by decide
  have hc : Balanced true (',' :: " str".toList) :=
    .plain (by decide) (by decide) (by decide) (fun _ => rfl) (balanced_of_forall (by decide))
  have hi : Balanced true ("int".toList ++ ',' :: " str".toList) :=
    (balanced_of_forall (by decide)).append hc
  have hx : Expression
      (" list".toList ++ '[' :: (("int".toList ++ ',' :: " str".toList) ++ [closing '['])) :=
    ⟨(balanced_of_forall (by decide)).append (.bracket (by decide) hi .nil),by decide,
      undeclared_of_not_mem (by decide)⟩
  have hs : StringBody '\'' ['a',',',' ','b'] :=
    .plain (by decide) (by decide) (.plain (by decide) (by decide)
      (.plain (by decide) (by decide) (.plain (by decide) (by decide) .nil)))
  have hk : Expression ('\'' :: (['a',',',' ','b'] ++ ['\''])) :=
    ⟨.string (by decide) hs .nil,by decide,undeclared_of_not_mem (by decide)⟩
  have he := hb [] (by decide)
  have ho := hb [' '] (by decide)
  have self := Formal.Written.plain (by decide : IsIdent "self".toList) hn hn
  have xs := Formal.Written.plain (by decide : IsIdent "xs".toList) (hx.marked ':' ho) hn
  have rest := Formal.Written.starred (by decide : IsIdent "rest".toList) hn
  have key := Formal.Written.plain (by decide : IsIdent "key".toList) hn (hk.marked '=' he)
  have hp := Listed.cons (self.spaced he he) (.cons (xs.spaced ho he)
    (.cons (rest.spaced (hb ['\n',' '] (by decide)) he) (.single (key.spaced ho he))))
  exact generateTests_functionText (by decide : IsIdent "run".toList) (by decide) hp
    (undeclared_of_not_mem (by decide : 'd' ∉ "\n    return xs".toList))

end Workbench.Analysis
