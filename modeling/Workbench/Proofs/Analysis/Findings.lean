import Workbench.Proofs.Analysis.Pattern
set_option autoImplicit false

/-!
The findings in a text: those of the rules whose patterns occur in it, each of them once and in the
order of the rules. A rule reads from left to right and takes what it can, while its pattern allows
every way to divide a text.
-/
namespace Workbench.Analysis
open Text Source Pattern

def quote : Pattern := .one isQuote
def blanks : Pattern := .many isBlank
def someBlanks : Pattern := .one isBlank ++ .many isBlank
def opensParen : Pattern := .one (· == '(')
def unlessSingle : Pattern := .many fun c => !single c
def notQuote : Pattern := .one fun c => !isQuote c
def notQuotes : Pattern := .many fun c => !isQuote c

def closingFormat : Pattern := quote ++ blanks ++ .lit ['%']
def formatBody : Pattern := unlessSingle ++ .lit "%s".toList ++ unlessSingle ++ closingFormat
def literal : Pattern := quote ++ notQuote ++ notQuotes ++ quote

def pickleName : Pattern :=
  (.lit ['c'] ||| .lit []) ++ .one (fun c => c == 'P' || c == 'p') ++ .lit "ickle".toList

def pickleImport : Pattern := .lit "import".toList ++ someBlanks ++ pickleName ++ .boundary
def pickleFrom : Pattern :=
  .lit "from".toList ++ someBlanks ++ pickleName ++ someBlanks ++ .lit "import".toList ++ .boundary

def Issue.pattern : Issue → Pattern
  | .sqlInjection => .lit "execute".toList ++ blanks ++ opensParen ++ blanks ++
    (quote ++ formatBody ||| .lit ['f'] ++ quote)
  | .hardcodedCredentials =>
    .folded "password".toList ++ blanks ++ .one (· == '=') ++ blanks ++ literal
  | .codeInjection =>
    .boundary ++ (.lit "eval".toList ||| .lit "exec".toList) ++ blanks ++ opensParen
  | .unsafeDeserialization => .boundary ++ pickleImport ||| .boundary ++ pickleFrom

theorem one?_of_false {p : Char → Bool} {c : Char} (h : p c = false) (v : Text) :
    one? p (c :: v) = none := by simp [one?,h]

theorem after?_of_blank {w : Text} {c : Char} (hw : w.head?.any (fun d => !isBlank d) = true)
    (hc : isBlank c = true) (v : Text) : after? w (c :: v) = none := by
  cases w with
  | nil => simp at hw
  | cons d w =>
    have hd : d ≠ c := by
      rintro rfl
      simp [hc] at hw
    simp [after?,hd]

theorem isQuote_of_blank {c : Char} (h : isBlank c = true) : isQuote c = false := by
  cases hq : isQuote c with
  | false => rfl
  | true =>
    have hc : c = '\'' ∨ c = '"' := by simpa [isQuote] using hq
    rcases hc with rfl | rfl <;> simp [isBlank] at h

theorem one?_of_blank {c d : Char} (hd : isBlank d = false) (hc : isBlank c = true) (v : Text) :
    one? (· == d) (c :: v) = none := by
  refine one?_of_false (beq_eq_false_iff_ne.2 ?_) v
  rintro rfl
  simp [hc] at hd

theorem here_closingFormat (u t : Text) : closingFormat.Here u t ↔ closesFormat t = true := by
  have h₁ : ∀ u v, (lit ['%']).Then u v (fun _ _ => True) ↔
      (after? ['%'] v).any (fun _ => true) = true := fun u v => then_lit (by simp) v
  have h₂ := then_blanks h₁ fun c v hc => by rw [after?_of_blank rfl hc]; rfl
  rw [Here,closingFormat,then_seq,then_seq]
  refine (then_one h₂ _ u t).trans ?_
  rw [closesFormat]
  cases one? isQuote t with
  | none => rfl
  | some t => simp

theorem formatted_eq : formatted = within single fun t =>
    (after? "%s".toList t).any (within single closesFormat) := by
  funext t
  rw [formatted]
  congr
  funext t
  cases after? "%s".toList t <;> rfl

theorem here_formatBody (u t : Text) : formatBody.Here u t ↔ formatted t = true := by
  have h₁ := then_many here_closingFormat single
  have h₂ : ∀ u v, (lit "%s".toList).Then u v (fun u v => unlessSingle.Then u v closingFormat.Here) ↔
      (after? "%s".toList v).any (within single closesFormat) = true :=
    fun u v => then_lit (fun v => h₁ _ v) v
  rw [Here,formatBody,then_seq,then_seq,then_seq,formatted_eq]
  exact then_many h₂ single u t

def assembled (t : Text) : Bool :=
  (one? isQuote t).any formatted || (after? ['f'] t).any fun t => (one? isQuote t).isSome

theorem queryHere_eq (t : Text) : queryHere t = (after? "execute".toList t).any fun t =>
    (one? (· == '(') (trimStart t)).any fun t => assembled (trimStart t) := by
  rw [queryHere,executed?]
  cases after? "execute".toList t with
  | none => rfl
  | some t =>
    simp only [Option.any_some]
    cases one? (· == '(') (trimStart t) with
    | none => rfl
    | some t =>
      simp only [Option.map_some,Option.any_some,assembled]
      cases one? isQuote (trimStart t) <;> cases after? ['f'] (trimStart t) <;> rfl

theorem here_assembled (u t : Text) :
    (quote ++ formatBody ||| .lit ['f'] ++ quote).Here u t ↔ assembled t = true := by
  have h₁ := then_one here_formatBody isQuote
  have h₂ : ∀ u v, quote.Then u v (fun _ _ => True) ↔ (one? isQuote v).isSome = true := here_one _
  rw [Here,then_alt,then_seq,then_seq,assembled,Bool.or_eq_true]
  exact or_congr (h₁ u t) (then_lit (fun v => h₂ _ v) t)

theorem assembled_of_blank {c : Char} (hc : isBlank c = true) (v : Text) :
    assembled (c :: v) = false := by
  rw [assembled,one?_of_false (isQuote_of_blank hc),after?_of_blank rfl hc]; rfl

theorem here_query (u t : Text) : Issue.sqlInjection.pattern.Here u t ↔ queryHere t = true := by
  have h₁ := then_blanks here_assembled fun c v hc => assembled_of_blank hc v
  have h₂ := then_one h₁ (· == '(')
  have h₃ := then_blanks h₂ fun c v hc => by rw [one?_of_blank rfl hc]; rfl
  rw [Here,Issue.pattern,then_seq,then_seq,then_seq,then_seq,queryHere_eq]
  exact then_lit (fun v => h₃ _ v) t

theorem foldCase_eq_iff {k : Char} (hk : k ≠ 'k') (hs : k ≠ '\u017f') (hK : k ≠ '\u212a') (c : Char) :
    foldCase c = k ↔ sameLetter k c = true := by
  rw [foldCase,sameLetter]
  by_cases h₁ : c = '\u017f'
  · subst h₁
    have e : ('\u017f' : Char).toLower = '\u017f' := by decide
    simp [e,hs.symm,@eq_comm _ 's' k]
  · by_cases h₂ : c = '\u212a'
    · subst h₂
      have e : ('\u212a' : Char).toLower = '\u212a' := by decide
      simp [e,hk.symm,hK.symm]
    · simp [h₁,h₂]

theorem afterFolded?_eq_some_iff {w t v : Text}
    (hw : ∀ k ∈ w, k ≠ 'k' ∧ k ≠ '\u017f' ∧ k ≠ '\u212a') :
    afterFolded? w t = some v ↔ ∃ s, t = s ++ v ∧ s.map foldCase = w := by
  induction w generalizing t with
  | nil => simp [afterFolded?]
  | cons k w ih =>
    obtain ⟨hk,hs,hK⟩ := hw k List.mem_cons_self
    cases t with
    | nil => simp [afterFolded?]
    | cons c t =>
      have ih := @ih t fun k hk => hw k (List.mem_cons_of_mem _ hk)
      by_cases hc : sameLetter k c = true
      · rw [afterFolded?,if_pos hc,ih]
        constructor
        · rintro ⟨s,rfl,rfl⟩
          exact ⟨c :: s,rfl,by simp [(foldCase_eq_iff hk hs hK c).2 hc]⟩
        · rintro ⟨_ | ⟨d,s⟩,ht,hm⟩
          · simp at hm
          · obtain ⟨rfl,rfl⟩ := List.cons_eq_cons.1 ht
            exact ⟨s,rfl,(List.cons_eq_cons.1 hm).2⟩
      · rw [afterFolded?,if_neg hc]
        constructor
        · simp
        · rintro ⟨_ | ⟨d,s⟩,ht,hm⟩
          · simp at hm
          · obtain ⟨rfl,rfl⟩ := List.cons_eq_cons.1 ht
            exact absurd ((foldCase_eq_iff hk hs hK c).1 (List.cons_eq_cons.1 hm).1) hc

theorem then_folded {w : Text} (hw : ∀ k ∈ w, k ≠ 'k' ∧ k ≠ '\u017f' ∧ k ≠ '\u212a')
    {k : Text → Text → Prop} {test : Text → Bool} (h : ∀ u v, k u v ↔ test v = true) (u t : Text) :
    (folded w).Then u t k ↔ (afterFolded? w t).any test = true := by
  rw [Option.any_eq_true]
  constructor
  · rintro ⟨s,v,rfl,hs,hk⟩
    exact ⟨v,(afterFolded?_eq_some_iff hw).2 ⟨s,rfl,hs⟩,(h _ v).1 hk⟩
  · rintro ⟨v,hv,hk⟩
    obtain ⟨s,rfl,hs⟩ := (afterFolded?_eq_some_iff hw).1 hv
    exact ⟨s,v,rfl,hs,(h _ v).2 hk⟩

theorem literalHere_eq (t : Text) : literalHere t = (one? isQuote t).any fun t =>
    (one? (fun c => !isQuote c) t).any fun t =>
      (one? isQuote (t.dropWhile fun c => !isQuote c)).isSome := by
  rw [literalHere]
  cases one? isQuote t with
  | none => rfl
  | some t =>
    cases t with
    | nil => rfl
    | cons c t => cases hc : isQuote c <;> simp [one?,hc]

theorem here_literal (u t : Text) : literal.Here u t ↔ literalHere t = true := by
  have h₁ := then_run (p := fun c => !isQuote c) (here_one isQuote) fun c v hc => by
    rw [one?_of_false (by simpa using hc)]; rfl
  have h₂ := then_one h₁ fun c => !isQuote c
  rw [Here,literal,then_seq,then_seq,then_seq,literalHere_eq]
  exact then_one h₂ _ u t

theorem passwordHere_eq (t : Text) : passwordHere t =
    (afterFolded? "password".toList t).any fun t =>
      (one? (· == '=') (trimStart t)).any fun t => literalHere (trimStart t) := by
  rw [passwordHere]
  cases afterFolded? "password".toList t with
  | none => rfl
  | some t => cases h : one? (· == '=') (trimStart t) <;> simp [h]

theorem literalHere_of_blank {c : Char} (hc : isBlank c = true) (v : Text) :
    literalHere (c :: v) = false := by
  rw [literalHere,one?_of_false (isQuote_of_blank hc)]

theorem here_password (u t : Text) :
    Issue.hardcodedCredentials.pattern.Here u t ↔ passwordHere t = true := by
  have h₁ := then_blanks here_literal fun c v hc => literalHere_of_blank hc v
  have h₂ := then_one h₁ (· == '=')
  have h₃ := then_blanks h₂ fun c v hc => by rw [one?_of_blank rfl hc]; rfl
  have ha : ("password".toList.all fun k => k != 'k' && (k != '\u017f' && k != '\u212a')) = true := rfl
  have hw : ∀ k ∈ "password".toList, k ≠ 'k' ∧ k ≠ '\u017f' ∧ k ≠ '\u212a' := fun k hk => by
    simpa using List.all_eq_true.1 ha k hk
  rw [Here,Issue.pattern,then_seq,then_seq,then_seq,then_seq,passwordHere_eq]
  exact then_folded hw h₃ u t

theorem appliedHere_eq (name t : Text) : appliedHere name t = (after? name t).any fun t =>
    (one? (· == '(') (trimStart t)).isSome := by
  rw [appliedHere]
  cases after? name t <;> rfl

theorem head_of_after? {w t : Text} {test : Text → Bool} (hw : w.head?.any isWordChar = true)
    (h : (after? w t).any test = true) : t.head?.any isWordChar = true := by
  obtain ⟨v,hv,-⟩ := (Option.any_eq_true ..).1 h
  rw [after?_eq_some_iff.1 hv]
  cases w with
  | nil => simp at hw
  | cons c w => exact hw

theorem here_evaluation (u t : Text) :
    Issue.codeInjection.pattern.Here u t ↔ evaluationHere u.getLast? t = true := by
  have h₁ : ∀ u v, opensParen.Then u v (fun _ _ => True) ↔ (one? (· == '(') v).isSome = true := here_one _
  have h₂ := then_blanks h₁ fun c v hc => by rw [one?_of_blank rfl hc]; rfl
  rw [Here,Issue.pattern,then_seq,then_seq,then_seq,evaluationHere]
  refine @boundary_and_iff _ (fun t =>
    appliedHere "eval".toList t || appliedHere "exec".toList t) _ _ ?_ fun h => ?_
  · rw [then_alt,Bool.or_eq_true,appliedHere_eq,appliedHere_eq]
    exact or_congr (then_lit (fun v => h₂ _ v) t) (then_lit (fun v => h₂ _ v) t)
  · rw [appliedHere_eq,appliedHere_eq,Bool.or_eq_true] at h
    rcases h with h | h <;> exact head_of_after? (by decide) h

theorem after?_singleton (d : Char) (t : Text) : after? [d] t = one? (· == d) t := by
  cases t with
  | nil => rfl
  | cons c t => by_cases hc : d = c <;> simp [after?,one?,hc,@eq_comm _ c d]

theorem pickle?_any (test : Text → Bool) (t : Text) : (pickle? t).any test =
    (one? (fun c => c == 'P' || c == 'p') ((one? (· == 'c') t).getD t)).any fun t =>
      (after? "ickle".toList t).any test := by
  rw [pickle?]
  cases one? (fun c => c == 'P' || c == 'p') ((one? (· == 'c') t).getD t) <;> rfl

theorem then_pickleName {k : Text → Text → Prop} {test : Text → Bool}
    (h : ∀ u v, k (u ++ "ickle".toList) v ↔ test v = true) (u t : Text) :
    pickleName.Then u t k ↔ (pickle? t).any test = true := by
  have h₁ := then_one (k := fun u v => (lit "ickle".toList).Then u v k)
    (fun u v => then_lit (h u) v) fun c => c == 'P' || c == 'p'
  rw [pickleName,then_seq,then_seq,then_alt,then_lit (fun v => h₁ _ v),then_lit (fun v => h₁ _ v),
    pickle?_any,after?_singleton]
  -- With a c in front the name cannot start without it as well.
  cases hc : one? (· == 'c') t with
  | none => simp [after?]
  | some v =>
    have ht : one? (fun c => c == 'P' || c == 'p') t = none := by
      rw [← after?_singleton,after?_eq_some_iff] at hc
      rw [hc]
      exact one?_of_false (by decide) v
    simp [after?,ht]

theorem pickle?_of_blank {c : Char} (hc : isBlank c = true) (v : Text) : pickle? (c :: v) = none := by
  have hp : (c == 'P' || c == 'p') = false := by
    rw [Bool.or_eq_false_iff,beq_eq_false_iff_ne,beq_eq_false_iff_ne]
    constructor <;> rintro rfl <;> simp [isBlank] at hc
  rw [pickle?,one?_of_blank rfl hc,Option.getD_none,one?_of_false hp]

theorem pickleImportHere_eq (t : Text) : pickleImportHere t = (after? "import".toList t).any fun t =>
    (blanks? t).any fun t => (pickle? t).any fun t => edge t.head? := by
  rw [pickleImportHere]
  cases after? "import".toList t with
  | none => rfl
  | some t =>
    simp only [Option.any_some]
    cases blanks? t with
    | none => rfl
    | some t =>
      simp only [Option.any_some]
      cases pickle? t <;> rfl

theorem pickleFromHere_eq (t : Text) : pickleFromHere t = (after? "from".toList t).any fun t =>
    (blanks? t).any fun t => (pickle? t).any fun t => (blanks? t).any fun t =>
      (after? "import".toList t).any fun t => edge t.head? := by
  rw [pickleFromHere]
  cases after? "from".toList t with
  | none => rfl
  | some t =>
    simp only [Option.any_some]
    cases blanks? t with
    | none => rfl
    | some t =>
      simp only [Option.any_some]
      cases pickle? t with
      | none => rfl
      | some t =>
        simp only [Option.any_some]
        cases blanks? t with
        | none => rfl
        | some t =>
          simp only [Option.any_some]
          cases after? "import".toList t <;> rfl

theorem here_edge (w : Text) (hw : w.getLast?.any isWordChar = true) (u v : Text) :
    boundary.Here (u ++ w) v ↔ edge v.head? = true := by
  refine here_boundary ?_ v
  rw [List.getLast?_append]
  cases h : w.getLast? with
  | none => simp [h] at hw
  | some c => simpa [h] using hw

theorem here_pickleImport (u t : Text) : pickleImport.Here u t ↔ pickleImportHere t = true := by
  have h₁ := then_pickleName (here_edge "ickle".toList (by decide))
  have h₂ := then_some_blanks h₁ fun c v hc => by rw [pickle?_of_blank hc]; rfl
  rw [Here,pickleImport,then_seq,then_seq,then_seq,pickleImportHere_eq]
  exact then_lit (fun v => h₂ _ v) t

theorem here_pickleFrom (u t : Text) : pickleFrom.Here u t ↔ pickleFromHere t = true := by
  have h₁ : ∀ u v, (lit "import".toList).Then u v boundary.Here ↔
      (after? "import".toList v).any (fun t => edge t.head?) = true :=
    fun u v => then_lit (here_edge "import".toList (by decide) u) v
  have h₂ := then_some_blanks h₁ fun c v hc => by rw [after?_of_blank rfl hc]; rfl
  have h₃ := then_pickleName (k := fun u v => someBlanks.Then u v
    fun u v => (lit "import".toList).Then u v boundary.Here) fun u v => h₂ (u ++ "ickle".toList) v
  have h₄ := then_some_blanks h₃ fun c v hc => by rw [pickle?_of_blank hc]; rfl
  rw [Here,pickleFrom,then_seq,then_seq,then_seq,then_seq,then_seq,pickleFromHere_eq]
  exact then_lit (fun v => h₄ _ v) t

theorem here_deserialization (u t : Text) :
    Issue.unsafeDeserialization.pattern.Here u t ↔ deserializationHere u.getLast? t = true := by
  have hi : pickleImportHere t = true → t.head?.any isWordChar = true := fun h => by
    rw [pickleImportHere_eq] at h
    exact head_of_after? (by decide) h
  have hf : pickleFromHere t = true → t.head?.any isWordChar = true := fun h => by
    rw [pickleFromHere_eq] at h
    exact head_of_after? (by decide) h
  rw [Here,Issue.pattern,then_alt,then_seq,then_seq,deserializationHere,Bool.and_or_distrib_left,
    Bool.or_eq_true]
  exact or_congr (boundary_and_iff (here_pickleImport u t) hi)
    (boundary_and_iff (here_pickleFrom u t) hf)

theorem here_iff (i : Issue) (u t : Text) : i.pattern.Here u t ↔ i.here u.getLast? t = true := by
  cases i with
  | sqlInjection => exact here_query u t
  | hardcodedCredentials => exact here_password u t
  | codeInjection => exact here_evaluation u t
  | unsafeDeserialization => exact here_deserialization u t

theorem somewhereAfter_iff (test : Option Char → Text → Bool) (before : Option Char) (t : Text) :
    somewhereAfter test before t = true ↔
      ∃ u v, t = u ++ v ∧ test (u.getLast?.or before) v = true := by
  induction t generalizing before with
  | nil =>
    rw [somewhereAfter]
    constructor
    · exact fun h => ⟨[],[],rfl,h⟩
    · rintro ⟨u,v,ht,h⟩
      obtain ⟨rfl,rfl⟩ := List.append_eq_nil_iff.1 ht.symm
      exact h
  | cons c t ih =>
    rw [somewhereAfter,Bool.or_eq_true,ih]
    constructor
    · rintro (h | ⟨u,v,rfl,h⟩)
      · exact ⟨[],c :: t,rfl,h⟩
      · refine ⟨c :: u,v,rfl,?_⟩
        cases u with
        | nil => exact h
        | cons d u => simpa [List.getLast?_cons] using h
    · rintro ⟨_ | ⟨d,u⟩,v,ht,h⟩
      · left
        rw [ht]
        exact h
      · obtain ⟨rfl,rfl⟩ := List.cons_eq_cons.1 ht
        right
        refine ⟨u,v,rfl,?_⟩
        cases u with
        | nil => exact h
        | cons e u => simpa [List.getLast?_cons] using h

theorem Issue.found_iff (i : Issue) (code : Text) : i.found code = true ↔ i.pattern.Occurs code := by
  rw [Issue.found,somewhere,somewhereAfter_iff,occurs_iff]
  simp only [Option.or_none,here_iff]

theorem scan_issues (code : Text) :
    (scan .python code).map (·.issue) = Issue.all.filter (·.found code) := by
  rw [scan,Language.profile?]
  simp [findings,Issue.finding,Function.comp_def]

theorem mem_scan_iff (i : Issue) (code : Text) :
    i ∈ (scan .python code).map (·.issue) ↔ i.found code = true := by
  have hi : i ∈ Issue.all := by cases i <;> decide
  rw [scan_issues,List.mem_filter]
  simp [hi]

/-- A scan finds each kind of issue at most once, in the order of the rules and with the severity of
its rule, and it finds a kind if and only if its pattern occurs in the text. -/
theorem scan_iff_occurs (code : Text) :
    ((scan .python code).map (·.issue)).Sublist
      [.sqlInjection,.hardcodedCredentials,.codeInjection,.unsafeDeserialization] ∧
    (∀ f ∈ scan .python code,
      f.severity = if f.issue = .unsafeDeserialization then .medium else .high) ∧
    ∀ i : Issue, i ∈ (scan .python code).map (·.issue) ↔ i.pattern.Occurs code := by
  refine ⟨?_,fun f hf => ?_,fun i => ?_⟩
  · rw [scan_issues]
    exact List.filter_sublist
  · obtain ⟨i,-,rfl⟩ := List.mem_map.1 hf
    cases i <;> rfl
  · rw [mem_scan_iff,i.found_iff]

/-- Quotes of the other kind and a placeholder too early do not keep a later one from being found;
without blanks the words of an import run together. -/
example : (scan .python "execute ( \"%s\" 'a' + \"b %s\" 'c' \" % x".toList).map (·.issue) = [] ∧
    (scan .python "execute ( \"%s\" \"b %s\" % x".toList).map (·.issue) = [.sqlInjection] ∧
    scan .python "frompickle import x".toList = [] := by decide

end Workbench.Analysis
