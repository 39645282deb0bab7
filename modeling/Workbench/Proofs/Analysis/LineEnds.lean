import Workbench.Analysis.Structure
import Workbench.Proofs.Analysis.Findings
import Workbench.Proofs.Source.Declaration
import Workbench.Proofs.Source.Depth
import Workbench.Proofs.Source.ImportLine
set_option autoImplicit false

/-!
Reports do not depend on how lines end, and texts on lines of their own are reported on their own.
With carriage returns in front of the line feeds a text has the same report and the same findings.
The report of two texts that a semicolon on a line of its own divides is put together from the
reports of the two: nothing that is left open at the end of the first reaches into the second.
-/
namespace Workbench.Analysis
open Text Source

def Stable (test : Text → Bool) : Prop := ∀ t, test (crlf t) = test t

theorem afterFolded?_cons (a : Char) (k t : Text) :
    afterFolded? (a :: k) t = (one? (sameLetter a) t).bind (afterFolded? k) := by
  cases t with
  | nil => rfl
  | cons c t => cases hc : sameLetter a c <;> simp [afterFolded?,one?,hc]

theorem dropWhile_crlf {p : Char → Bool} (hr : p '\r' = true) (hn : p '\n' = true) (t : Text) :
    (crlf t).dropWhile p = crlf (t.dropWhile p) := by
  induction t with
  | nil => rfl
  | cons c t ih =>
    by_cases hc : c = '\n'
    · simp [hc,crlf_feed,hr,hn,ih]
    · cases hp : p c <;> simp [crlf_cons hc,hp,ih]

section
variable {test : Text → Bool} (h : Stable test)
include h

theorem any_map_crlf (o : Option Text) : (o.map crlf).any test = o.any test := by
  cases o with
  | none => rfl
  | some t => exact h t

theorem stable_one {p : Char → Bool} (hp : Solid p) : Stable fun t => (one? p t).any test := by
  intro t
  show (one? p (crlf t)).any test = _
  rw [keepsWords_crlf.one hp,any_map_crlf h]

theorem stable_after {k : Text} (hk : Solids k) : Stable fun t => (after? k t).any test := by
  intro t
  show (after? k (crlf t)).any test = _
  rw [keepsWords_crlf.after hk,any_map_crlf h]

theorem stable_folded {w : Text} (hw : ∀ a ∈ w, Solid (sameLetter a)) :
    Stable fun t => (afterFolded? w t).any test := by
  induction w with
  | nil => exact h
  | cons a w ih =>
    intro t
    have ih := ih fun b hb => hw b (List.mem_cons_of_mem _ hb)
    show (afterFolded? (a :: w) (crlf t)).any test = (afterFolded? (a :: w) t).any test
    rw [afterFolded?_cons,afterFolded?_cons,keepsWords_crlf.one (hw a List.mem_cons_self)]
    cases one? (sameLetter a) t with
    | none => rfl
    | some t => exact ih t

theorem stable_spaced : Stable fun t => test (trimStart t) := by
  intro t
  show test (trimStart (crlf t)) = _
  rw [trimStart,dropWhile_crlf (by decide) (by decide),h]
  rfl

theorem stable_blanks : Stable fun t => (blanks? t).any test := by
  intro t
  cases t with
  | nil => rfl
  | cons c t =>
    cases hc : isBlank c with
    | false =>
      show (blanks? (crlf (c :: t))).any test = _
      rw [keepsWords_crlf.word c t hc]
      simp [blanks?,hc]
    | true =>
      obtain ⟨d,u,e,hd,hu⟩ := keepsWords_crlf.blank c t hc
      have hs := stable_spaced h t
      simp only [e,blanks?,hc,hd,hu,if_true,Option.any_some]
      exact hs

theorem stable_run {p : Char → Bool} (hr : p '\r' = true) (hn : p '\n' = true) :
    Stable fun t => (one? p t).any fun t => test (t.dropWhile p) := by
  intro t
  cases t with
  | nil => rfl
  | cons c t =>
    by_cases hc : c = '\n'
    · simp [hc,crlf_feed,one?,hr,hn,dropWhile_crlf hr hn,h _]
    · cases hp : p c <;> simp [crlf_cons hc,one?,hp,dropWhile_crlf hr hn,h _]

theorem stable_within {stop : Char → Bool} (hn : ∀ t, test ('\n' :: t) = false)
    (hs : stop '\r' = false ∧ stop '\n' = false) : Stable (within stop test) := by
  intro t
  induction t with
  | nil => rfl
  | cons c t ih =>
    by_cases hc : c = '\n'
    · have hr : test ('\r' :: '\n' :: crlf t) = false := by
        rw [← crlf_feed,h,hn]
      simp [hc,crlf_feed,within,hr,hn,hs,ih]
    · rw [crlf_cons hc,within,within,ih,← crlf_cons hc,h]

end

theorem stable_somewhere {test : Option Char → Text → Bool} (h : ∀ b, Stable (test b))
    (hn : ∀ b t, test b ('\n' :: t) = false) (b : Option Char) :
    Stable (somewhereAfter test b) := by
  intro t
  induction t generalizing b with
  | nil => exact h b []
  | cons c t ih =>
    by_cases hc : c = '\n'
    · have hr : test b ('\r' :: '\n' :: crlf t) = false := by
        rw [← crlf_feed,h,hn]
      simp [hc,crlf_feed,somewhereAfter,hr,hn,ih]
    · rw [crlf_cons hc,somewhereAfter,somewhereAfter,ih,← crlf_cons hc,h]

theorem stable_true : Stable fun _ => true := fun _ => rfl

theorem solid_isQuote : Solid isQuote := solid_of rfl (by decide)

theorem solid_opensParen : Solid (· == '(') := solid_of rfl (by decide)

theorem isSome_eq_any (o : Option Text) : o.isSome = o.any fun _ => true := by
  cases o <;> rfl

theorem stable_isQuote : Stable fun t => (one? isQuote t).isSome := by
  intro t
  simp only [isSome_eq_any]
  exact stable_one stable_true solid_isQuote t

theorem stable_closesFormat : Stable closesFormat := by
  have hk : Solids ['%'] := solids_of (by decide)
  have e : closesFormat = fun t => (one? isQuote t).any fun t =>
      (after? ['%'] (trimStart t)).any fun _ => true := by
    funext t
    rw [closesFormat]
    cases one? isQuote t <;> simp
  rw [e]
  exact stable_one (stable_spaced (stable_after stable_true hk)) solid_isQuote

theorem stable_formatted : Stable formatted := by
  have hk : Solids "%s".toList := solids_of (by decide)
  have h : Stable (within single closesFormat) :=
    stable_within stable_closesFormat (fun _ => rfl) ⟨rfl,rfl⟩
  rw [formatted_eq]
  exact stable_within (stable_after h hk) (fun _ => rfl) ⟨rfl,rfl⟩

theorem stable_assembled : Stable assembled := by
  intro t
  have hk : Solids ['f'] := solids_of (by decide)
  have h₁ := stable_one stable_formatted solid_isQuote t
  have h₂ := stable_after stable_isQuote hk t
  rw [assembled,assembled]
  exact congrArg₂ _ h₁ h₂

theorem stable_query : Stable queryHere := by
  have hk : Solids "execute".toList := solids_of (by decide)
  rw [funext queryHere_eq]
  have h := stable_one (stable_spaced stable_assembled) solid_opensParen
  exact stable_after (stable_spaced h) hk

theorem stable_literal : Stable literalHere := by
  rw [funext literalHere_eq]
  exact stable_one (stable_run stable_isQuote rfl rfl) solid_isQuote

theorem stable_password : Stable passwordHere := by
  have hw : ("password".toList.all fun a => !sameLetter a ';' &&
      blankPoints.all fun n => !sameLetter a (Char.ofNat n)) = true := by decide
  have he : Solid (· == '=') := solid_of rfl (by decide)
  rw [funext passwordHere_eq]
  refine stable_folded (stable_spaced (stable_one (stable_spaced stable_literal) he)) fun a ha => ?_
  have h := List.all_eq_true.1 hw a ha
  simp only [Bool.and_eq_true,Bool.not_eq_true',List.all_eq_true] at h
  exact solid_of h.1 h.2

theorem stable_applied {name : Text} (hk : Solids name) : Stable (appliedHere name) := by
  rw [funext (appliedHere_eq name)]
  simp only [isSome_eq_any]
  exact stable_after (stable_spaced (stable_one stable_true solid_opensParen)) hk

theorem stable_evaluation (b : Option Char) : Stable (evaluationHere b) := by
  intro t
  have h₁ : Solids "eval".toList := solids_of (by decide)
  have h₂ : Solids "exec".toList := solids_of (by decide)
  rw [evaluationHere,evaluationHere,stable_applied h₁,stable_applied h₂]

theorem stable_edge : Stable fun t => edge t.head? := keepsWords_crlf.edge

theorem stable_pickle {test : Text → Bool} (h : Stable test) :
    Stable fun t => (pickle? t).any test := by
  have hp : Solid fun c => c == 'P' || c == 'p' := solid_of rfl (by decide)
  have hs := stable_one (stable_after h (k := "ickle".toList) (solids_of (by decide))) hp
  intro t
  simp only [pickle?_any,keepsWords_crlf.one (p := (· == 'c')) (solid_of rfl (by decide))]
  cases one? (· == 'c') t with
  | none => exact hs t
  | some t => exact hs t

theorem stable_pickleImport : Stable pickleImportHere := by
  have hk : Solids "import".toList := solids_of (by decide)
  rw [funext pickleImportHere_eq]
  exact stable_after (stable_blanks (stable_pickle stable_edge)) hk

theorem stable_pickleFrom : Stable pickleFromHere := by
  have hf : Solids "from".toList := solids_of (by decide)
  have hi : Solids "import".toList := solids_of (by decide)
  rw [funext pickleFromHere_eq]
  have h := stable_blanks (stable_after stable_edge hi)
  exact stable_after (stable_blanks (stable_pickle h)) hf

theorem stable_deserialization (b : Option Char) : Stable (deserializationHere b) := by
  intro t
  rw [deserializationHere,deserializationHere,stable_pickleImport,stable_pickleFrom]

theorem stable_here (i : Issue) (b : Option Char) : Stable (i.here b) := by
  cases i with
  | sqlInjection => exact stable_query
  | hardcodedCredentials => exact stable_password
  | codeInjection => exact stable_evaluation b
  | unsafeDeserialization => exact stable_deserialization b

theorem here_feed (i : Issue) (b : Option Char) (t : Text) : i.here b ('\n' :: t) = false := by
  cases i with
  | sqlInjection => rfl
  | hardcodedCredentials => rfl
  | codeInjection => exact Bool.and_false _
  | unsafeDeserialization => exact Bool.and_false _

theorem found_crlf (i : Issue) (code : Text) : i.found (crlf code) = i.found code :=
  stable_somewhere (stable_here i) (here_feed i) none code

theorem findings_crlf (code : Text) : findings (crlf code) = findings code := by
  simp only [findings,found_crlf]

theorem reportWith_crlf (code : Text) :
    reportWith .python (crlf code) = reportWith .python code := by
  rw [reportWith,reportWith,depth_crlf,functionNames_crlf,classes_crlf,imports_crlf,
    length_lines_crlf]

/-- Neither the report of a text nor the findings in it depend on carriage returns in front of its
line feeds. -/
theorem reports_crlf (code : Text) : analyze .python (crlf code) = analyze .python code ∧
    scan .python (crlf code) = scan .python code :=
  ⟨reportWith_crlf code,findings_crlf code⟩

/-- Names in the order of the texts, the greater depth, and the lines of both with those between
them: the semicolon, and an empty one if no line of the first text was begun. -/
theorem analyze_divided (a b : Text) :
    (analyze .python (divided a b)).outline.functions =
      (analyze .python a).outline.functions ++ (analyze .python b).outline.functions ∧
    (analyze .python (divided a b)).outline.classes =
      (analyze .python a).outline.classes ++ (analyze .python b).outline.classes ∧
    (analyze .python (divided a b)).outline.imports =
      (analyze .python a).outline.imports ++ (analyze .python b).outline.imports ∧
    (analyze .python (divided a b)).complexity =
      max (analyze .python a).complexity (analyze .python b).complexity ∧
    (analyze .python (divided a b)).outline.loc =
      (analyze .python a).outline.loc + (analyze .python b).outline.loc +
        if a = [] ∨ a.getLast? = some '\n' then 2 else 1 :=
  ⟨functionNames_divided a b,classes_divided a b,imports_divided a b,depth_divided a b,
    length_lines_divided a b⟩

end Workbench.Analysis
