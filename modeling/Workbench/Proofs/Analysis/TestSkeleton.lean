import Workbench.Analysis.Structure
import Workbench.Analysis.TestSkeleton
import Workbench.Proofs.Source.Declaration
import Workbench.Proofs.Text.Lines
set_option autoImplicit false

/-!
Generated tests. There is one test for each public function of the outline, in its order, and it
calls the function with values by place first and by name from a single star on. The lines of the
text are those of the tests if and only if no name of a parameter holds a line feed. A comment
inside a parameter list becomes part of the name behind it, so such names do occur.
-/
namespace Workbench.Analysis
open Text Source

def isStar (t : Text) : Bool := isStarred t && !isDoubleStarred t

def isSupplied (p : Text) : Bool :=
  !((declaredName p).isEmpty || declaredName p == ['/'] || isStarred (declaredName p))

theorem isStarred_eq (t : Text) : isStarred t = (after? ['*'] t).isSome := by
  cases t with
  | nil => rfl
  | cons c t =>
    by_cases h : c = '*'
    · simp [isStarred,after?,h]
    · simp [isStarred,after?,h,Ne.symm h]

theorem declaredName_eq {p : Text} (hp : p.head?.any isBlank = false) :
    declaredName p = trimEnd (p.takeWhile fun c => c != ':' && c != '=') := by
  have h : (p.takeWhile fun c => c != ':' && c != '=').head?.any isBlank = false := by
    cases p with
    | nil => rfl
    | cons c p =>
      rw [List.takeWhile_cons]
      split
      · exact hp
      · rfl
  rw [declaredName,trim,trimStart_of_head h]

theorem after?_declaredName {k : Text}
    (hk : (k.all fun c => !isBlank c && (c != ':' && c != '=')) = true) {p : Text}
    (hp : p.head?.any isBlank = false) :
    (after? k (declaredName p)).isSome = (after? k p).isSome := by
  have hk : ∀ c ∈ k, isBlank c = false ∧ (c != ':' && c != '=') = true := by
    simpa only [List.all_eq_true,Bool.and_eq_true,Bool.not_eq_true'] using hk
  rw [declaredName_eq hp,Bool.eq_iff_iff,Option.isSome_iff_exists,Option.isSome_iff_exists]
  simp only [after?_eq_some_iff]
  constructor
  · rintro ⟨r,hr⟩
    obtain ⟨b,-,hb⟩ := exists_trimEnd (p.takeWhile fun c => c != ':' && c != '=')
    rw [hr] at hb
    refine ⟨r ++ b ++ p.dropWhile fun c => c != ':' && c != '=',?_⟩
    rw [← List.append_assoc,← List.append_assoc,← hb,List.takeWhile_append_dropWhile]
  · rintro ⟨r,rfl⟩
    rw [List.takeWhile_append_of_pos fun c hc => (hk c hc).2,
      trimEnd_append fun c hc => (hk c hc).1]
    exact ⟨_,rfl⟩

theorem isStar_declaredName {p : Text} (hp : p.head?.any isBlank = false) :
    isStar (declaredName p) = isStar p := by
  simp only [isStar,isDoubleStarred,isStarred_eq]
  rw [after?_declaredName (by decide) hp,after?_declaredName (by decide) hp]

theorem isSupplied_of_isStar {p : Text} (h : isStar (declaredName p) = true) :
    isSupplied p = false := by
  rw [isStar,Bool.and_eq_true] at h
  simp [isSupplied,h.1]

def suppliedNames (ps : List Text) : List Text := (ps.filter isSupplied).map declaredName

def dropReceiver : List Text → List Text
  | [] => []
  | p :: ps => if isReceiver (declaredName p) then ps else p :: ps

/-- What is declared in front of the first star. -/
def placed (ps : List Text) : List Text :=
  suppliedNames ((dropReceiver ps).takeWhile fun p => !isStar p)

/-- What is declared from the first star on; the star itself has no value. -/
def keyworded (ps : List Text) : List Text :=
  suppliedNames ((dropReceiver ps).dropWhile fun p => !isStar p)

theorem length_placed_add_length_keyworded (ps : List Text) :
    (placed ps).length + (keyworded ps).length = (dropReceiver ps).countP isSupplied := by
  simp only [placed,keyworded,suppliedNames,List.length_map,← List.countP_eq_length_filter]
  rw [← List.countP_append,List.takeWhile_append_dropWhile]

theorem argumentsFrom_cons (byName : Bool) (p : Text) (ps : List Text) :
    argumentsFrom false byName (p :: ps) =
      if isSupplied p then ⟨declaredName p,byName⟩ :: argumentsFrom false byName ps
      else argumentsFrom false (byName || isStar (declaredName p)) ps := by
  rw [argumentsFrom]
  cases hs : isStar (declaredName p) with
  | true =>
    rw [isStar] at hs
    simp only [isSupplied_of_isStar hs,hs,Bool.or_true,if_true,Bool.false_eq_true,if_false]
  | false =>
    rw [isStar] at hs
    simp only [hs,Bool.false_eq_true,if_false,Bool.or_false,Bool.false_and,Bool.false_or]
    cases h : isSupplied p with
    | true =>
      rw [isSupplied,Bool.not_eq_true'] at h
      simp [h]
    | false =>
      rw [isSupplied,Bool.not_eq_false'] at h
      simp [h]

theorem argumentsFrom_keyworded (ps : List Text) :
    argumentsFrom false true ps = (suppliedNames ps).map (⟨·,true⟩) := by
  induction ps with
  | nil => rfl
  | cons p ps ih =>
    rw [argumentsFrom_cons,Bool.true_or,ih]
    cases h : isSupplied p with
    | true => simp [suppliedNames,h]
    | false => simp [suppliedNames,h]

theorem argumentsFrom_placed {ps : List Text} (hp : ∀ p ∈ ps, p.head?.any isBlank = false) :
    argumentsFrom false false ps =
      (suppliedNames (ps.takeWhile fun p => !isStar p)).map (⟨·,false⟩) ++
        (suppliedNames (ps.dropWhile fun p => !isStar p)).map (⟨·,true⟩) := by
  induction ps with
  | nil => rfl
  | cons p ps ih =>
    have ih := ih fun q hq => hp q (List.mem_cons_of_mem _ hq)
    have he := isStar_declaredName (hp p List.mem_cons_self)
    rw [argumentsFrom_cons,Bool.false_or,he]
    cases hs : isStar p with
    | true =>
      have h := isSupplied_of_isStar (he.trans hs)
      rw [argumentsFrom_keyworded]
      simp [suppliedNames,h,hs]
    | false =>
      rw [ih]
      cases h : isSupplied p with
      | true => simp [suppliedNames,h,hs]
      | false => simp [suppliedNames,h,hs]

theorem callArguments_eq (ps : List Text) :
    callArguments ps = argumentsFrom false false (dropReceiver ps) := by
  cases ps with
  | nil => rfl
  | cons p ps =>
    rw [callArguments,dropReceiver]
    cases hr : isReceiver (declaredName p) with
    | true =>
      have hs : isStarred (declaredName p) = false := by
        simp only [isReceiver,Bool.or_eq_true,beq_iff_eq] at hr
        rcases hr with hr | hr <;> (rw [hr]; rfl)
      simp [argumentsFrom,hr,hs]
    | false => simp [argumentsFrom,hr]

section
variable {ps : List Text} (hp : ∀ p ∈ ps, p.head?.any isBlank = false)
include hp

theorem callArguments_split : callArguments ps =
    (placed ps).map (⟨·,false⟩) ++ (keyworded ps).map (⟨·,true⟩) := by
  rw [callArguments_eq]
  refine argumentsFrom_placed fun p h => hp p ?_
  cases ps with
  | nil => exact h
  | cons q ps =>
    rw [dropReceiver] at h
    split at h
    · exact List.mem_cons_of_mem _ h
    · exact h

theorem names_callArguments : (callArguments ps).map (·.name) = placed ps ++ keyworded ps := by
  rw [callArguments_split hp]
  simp [Function.comp_def]

/-- Values by name never stand in front of values by place. -/
theorem calls_callArguments : (callArguments ps).map Argument.call =
    List.replicate (placed ps).length "None".toList ++
      (keyworded ps).map (· ++ "=None".toList) := by
  rw [callArguments_split hp]
  simp [Argument.call,Function.comp_def,List.map_const']

end

/-- A test of the function `n` with the names of the values that it passes. -/
def templateLines (n : Text) (byPlace byName : List Text) : List Text :=
  ["def test_".toList ++ n ++ "():".toList,"    # Arrange".toList] ++
  (if byPlace ++ byName = [] then ["    pass".toList]
    else ["    # TODO: Set up test parameters".toList,
      "    # Parameters: ".toList ++ commaSeparated (byPlace ++ byName)]) ++
  [[],"    # Act".toList,
    "    result = ".toList ++ n ++ "(".toList ++
      commaSeparated (List.replicate byPlace.length "None".toList ++
        byName.map (· ++ "=None".toList)) ++ ")".toList,
    [],"    # Assert".toList,
    "    assert result is not None  # Replace with actual assertion".toList]

def testLines (f : Signature) : List Text :=
  templateLines f.name (placed (f.params.getD [])) (keyworded (f.params.getD []))

def publicFunctions (code : Text) : List Signature := (signatures .python code).filter isPublic

def publicNames (code : Text) : List Text :=
  (analyze .python code).outline.functions.filter fun n => n.head? != some '_'

/-- The lines of the whole text, two empty ones between two tests. -/
def fileLines (fs : List Signature) : List Text :=
  ["import pytest".toList,[]] ++ [[],[]].intercalate (fs.map testLines)

theorem publicFunctions_names (code : Text) :
    (publicFunctions code).map (·.name) = publicNames code := by
  have hf : (analyze .python code).outline.functions = (signatures .python code).map (·.name) := rfl
  rw [publicFunctions,publicNames,hf,List.filter_map]
  rfl

theorem skeletonLines_eq {f : Signature}
    (hf : ∀ p ∈ f.params.getD [], p.head?.any isBlank = false) :
    skeletonLines f = testLines f := by
  have hn := names_callArguments hf
  have he : (callArguments (f.params.getD [])).isEmpty = true ↔
      placed (f.params.getD []) ++ keyworded (f.params.getD []) = [] := by
    rw [← hn,List.map_eq_nil_iff,List.isEmpty_iff]
  simp only [skeletonLines,testLines,templateLines,arrangement,hn,calls_callArguments hf,he]

theorem skeleton_eq {code : Text} {f : Signature} (hf : f ∈ publicFunctions code) :
    skeleton f = ended (testLines f) := by
  rw [← skeletonLines_eq (signature_texts (List.mem_filter.1 hf).1).2]
  rfl

theorem map_ended_testLines (fs : List Signature) :
    (fs.map fun f => ended (testLines f)) = (fs.map testLines).map ended := List.map_map.symm

theorem generateTests_of_nil {code : Text} (h : publicNames code = []) :
    generateTests .python code = noTestable := by
  have hp : publicFunctions code = [] := by
    rwa [← publicFunctions_names,List.map_eq_nil_iff] at h
  have he : generateTests .python code = testsFor (publicFunctions code) := rfl
  rw [he,hp]
  rfl

theorem generateTests_of_ne_nil {code : Text} (h : publicNames code ≠ []) :
    generateTests .python code = testHeader ++
      joinWith "\n\n".toList ((publicFunctions code).map fun f => ended (testLines f)) := by
  have hp : publicFunctions code ≠ [] := fun e => h (by rw [← publicFunctions_names,e]; rfl)
  have he : generateTests .python code = testsFor (publicFunctions code) := rfl
  rw [he,testsFor,if_neg (by simpa using hp),List.map_congr_left fun f hf => skeleton_eq hf]

theorem testHeader_append_ne (t : Text) : testHeader ++ t ≠ noTestable := by
  have hh : testHeader = 'i' :: testHeader.tail := by decide
  have hm : noTestable = '#' :: noTestable.tail := by decide
  rw [hh,hm,List.cons_append]
  simp

/-- For every text, the tests that are generated are one for each public name of the outline. -/
theorem generateTests_outline (code : Text) :
    (publicFunctions code).map (·.name) = publicNames code ∧
    (generateTests .python code = noTestable ↔ publicNames code = []) ∧
    generateTests .python code = (if publicNames code = [] then noTestable else testHeader ++
      joinWith "\n\n".toList ((publicFunctions code).map fun f => ended (testLines f))) ∧
    ∀ f ∈ publicFunctions code,
      (placed (f.params.getD [])).length + (keyworded (f.params.getD [])).length =
        (dropReceiver (f.params.getD [])).countP isSupplied := by
  have hn := publicFunctions_names code
  refine ⟨hn,?_,?_,fun f _ => length_placed_add_length_keyworded _⟩
  · by_cases h : publicNames code = []
    · exact iff_of_true (generateTests_of_nil h) h
    · refine iff_of_false (fun e => ?_) h
      exact testHeader_append_ne _ ((generateTests_of_ne_nil h).symm.trans e)
  · split
    · exact generateTests_of_nil (by assumption)
    · exact generateTests_of_ne_nil (by assumption)

def method : Text :=
  "class A:\n    def run(self, job, /, n: int = 3, *args, key=None, **rest): pass\n".toList

theorem generateTests_outline_method : publicNames method = ["run".toList] ∧
    generateTests .python method =
      testHeader ++ ended (templateLines "run".toList ["job".toList,"n".toList] ["key".toList]) := by
  have hn : publicNames method = ["run".toList] := by decide +kernel
  have hf : (publicFunctions method).map testLines =
      [templateLines "run".toList ["job".toList,"n".toList] ["key".toList]] := by decide +kernel
  obtain ⟨-,-,ht,-⟩ := generateTests_outline method
  rw [ht,if_neg (by rw [hn]; exact List.cons_ne_nil _ _),map_ended_testLines,hf]
  exact ⟨hn,rfl⟩

theorem mem_commaSeparated {ts : List Text} :
    '\n' ∈ commaSeparated ts ↔ ∃ t ∈ ts, '\n' ∈ t := by
  constructor
  · intro h
    exact (mem_joinWith h).resolve_left (by decide)
  · rintro ⟨t,ht,hc⟩
    exact mem_joinWith_of_mem ht hc

theorem templateLines_unbroken {n : Text} (hn : '\n' ∉ n) (byPlace byName : List Text) :
    (∀ l ∈ templateLines n byPlace byName, '\n' ∉ l) ↔ ∀ m ∈ byPlace ++ byName, '\n' ∉ m := by
  rw [templateLines,List.forall_mem_append,List.forall_mem_append]
  constructor
  · rintro ⟨⟨-,h⟩,-⟩ m hm hc
    rw [if_neg (List.ne_nil_of_mem hm)] at h
    refine h _ (List.mem_cons_of_mem _ List.mem_cons_self) (List.mem_append_right _ ?_)
    exact mem_commaSeparated.2 ⟨m,hm,hc⟩
  · intro h
    have hl : '\n' ∉ commaSeparated (byPlace ++ byName) := fun hc => by
      obtain ⟨m,hm,hc⟩ := mem_commaSeparated.1 hc
      exact h m hm hc
    have ha : '\n' ∉ commaSeparated (List.replicate byPlace.length "None".toList ++
        byName.map (· ++ "=None".toList)) := fun hc => by
      obtain ⟨m,hm,hc⟩ := mem_commaSeparated.1 hc
      rcases List.mem_append.1 hm with hm | hm
      · rw [List.eq_of_mem_replicate hm] at hc
        exact absurd hc (by decide)
      · obtain ⟨k,hk,rfl⟩ := List.mem_map.1 hm
        rcases List.mem_append.1 hc with hc | hc
        · exact h k (List.mem_append_right _ hk) hc
        · exact absurd hc (by decide)
    refine ⟨⟨?_,?_⟩,?_⟩
    · simp [hn]
    · split
      · simp
      · simp [hl]
    · generalize commaSeparated _ = t at ha ⊢
      simp [hn,ha]

def NamesUnbroken (f : Signature) : Prop :=
  ∀ n ∈ placed (f.params.getD []) ++ keyworded (f.params.getD []), '\n' ∉ n

instance (f : Signature) : Decidable (NamesUnbroken f) :=
  inferInstanceAs (Decidable (∀ n ∈ _, '\n' ∉ n))

theorem testLines_unbroken {code : Text} {f : Signature} (hf : f ∈ publicFunctions code) :
    (∀ l ∈ testLines f, '\n' ∉ l) ↔ NamesUnbroken f := by
  have hi := (signature_texts (List.mem_filter.1 hf).1).1
  have hn : '\n' ∉ f.name := fun h => absurd (hi _ h) (by decide)
  exact templateLines_unbroken hn _ _

theorem fileLines_unbroken (fs : List Signature) :
    (∀ l ∈ fileLines fs, '\n' ∉ l) ↔ ∀ f ∈ fs, ∀ l ∈ testLines f, '\n' ∉ l := by
  have hb : ∀ l ∈ ([[],[]] : List Text), '\n' ∉ l := by decide
  have hh : ∀ l ∈ ["import pytest".toList,[]], '\n' ∉ l := by decide
  rw [fileLines,List.forall_mem_append,forall_mem_intercalate hb,List.forall_mem_map]
  exact and_iff_right hh

theorem ended_fileLines (fs : List Signature) : ended (fileLines fs) = testHeader ++
    joinWith "\n\n".toList (fs.map fun f => ended (testLines f)) := by
  rw [map_ended_testLines,fileLines,ended_append,← joinWith_ended]
  rfl

theorem generateTests_lines_iff {code : Text} (h : publicNames code ≠ []) :
    splitOn '\n' (generateTests .python code) = fileLines (publicFunctions code) ++ [[]] ↔
      ∀ f ∈ publicFunctions code, NamesUnbroken f := by
  rw [generateTests_of_ne_nil h,← ended_fileLines,splitOn_ended,fileLines_unbroken]
  exact forall₂_congr fun f hf => testLines_unbroken hf

/-- A test has exactly the lines of its template, and the whole text exactly the lines of its tests,
if and only if no parameter's name brings a line feed. -/
theorem generateTests_lines (code : Text) (h : publicNames code ≠ []) :
    (∀ f ∈ publicFunctions code,
      (splitOn '\n' (skeleton f) = testLines f ++ [[]] ↔ NamesUnbroken f)) ∧
    (splitOn '\n' (generateTests .python code) = fileLines (publicFunctions code) ++ [[]] ↔
      ∀ f ∈ publicFunctions code, NamesUnbroken f) := by
  refine ⟨fun f hf => ?_,generateTests_lines_iff h⟩
  rw [skeleton_eq hf,splitOn_ended]
  exact testLines_unbroken hf

def overLines : Text := "def build(\n    name,\n    size,\n):\n    pass\n".toList

def build : Signature := ⟨"build".toList,some ["name".toList,"size".toList]⟩

theorem generateTests_lines_overLines : publicNames overLines ≠ [] ∧
    build ∈ publicFunctions overLines ∧ splitOn '\n' (skeleton build) = testLines build ++ [[]] ∧
    splitOn '\n' (generateTests .python overLines) =
      fileLines (publicFunctions overLines) ++ [[]] := by
  have h : publicNames overLines ≠ [] := by decide +kernel
  have hb : build ∈ publicFunctions overLines := by decide +kernel
  obtain ⟨hs,hl⟩ := generateTests_lines overLines h
  exact ⟨h,hb,(hs build hb).2 (by decide +kernel),hl.2 (by decide +kernel)⟩

/-- A comment behind a parameter, which the name of the next one takes along. -/
def commented : Text := "def f(\n    a,  # first\n    b,\n):\n    pass\n".toList

theorem generateTests_commented : publicNames commented = ["f".toList] ∧
    splitOn '\n' (generateTests .python commented) ≠
      fileLines (publicFunctions commented) ++ [[]] ∧
    ((splitOn '\n' (generateTests .python commented)).drop 5).take 2 =
      ["    # Parameters: a, # first".toList,"    b".toList] := by
  decide +kernel

end Workbench.Analysis
