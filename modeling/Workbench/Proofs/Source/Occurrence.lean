import Workbench.Proofs.Source.Declaration
set_option autoImplicit false

/-!
No declaration is skipped. Two declarations never overlap, so the search from left to right, which
goes on behind each one that it finds, finds the declarations at all positions of a text.
-/
namespace Workbench.Source
open Text

/-- The text starts with a declaration: the keyword, blanks, an identifier, blanks perhaps, and a
character that opens the rest. -/
def Declares (keyword : Text) (opens : Char → Bool) (t : Text) (o : Opening) : Prop :=
  ∃ a b, t = keyword ++ (a ++ (o.name ++ (b ++ o.opener :: o.rest))) ∧ SomeBlanks a ∧
    IsIdent o.name ∧ (∀ c ∈ b, isBlank c = true) ∧ opens o.opener = true

/-- A declaration starts behind the first `p` characters, where a word can start. -/
def DeclaredAt (keyword : Text) (opens : Char → Bool) (t : Text) (p : Nat) (o : Opening) : Prop :=
  ∃ u v, t = u ++ v ∧ u.length = p ∧ edge u.getLast? = true ∧ Declares keyword opens v o

theorem opened?_eq_some_iff {opens : Char → Bool} {n t : Text} {o : Opening} :
    opened? opens n t = some o ↔ t = o.opener :: o.rest ∧ opens o.opener = true ∧ n = o.name := by
  obtain ⟨m,d,r⟩ := o
  cases t with
  | nil => simp [opened?]
  | cons c t =>
    cases hc : opens c with
    | true =>
      simp only [opened?,hc,if_true,Option.some.injEq,Opening.mk.injEq,List.cons.injEq]
      constructor
      · rintro ⟨rfl,rfl,rfl⟩
        exact ⟨⟨rfl,rfl⟩,hc,rfl⟩
      · rintro ⟨⟨rfl,rfl⟩,-,rfl⟩
        exact ⟨rfl,rfl,rfl⟩
    | false =>
      simp only [opened?,hc,Bool.false_eq_true,if_false,reduceCtorEq,List.cons.injEq,false_iff]
      rintro ⟨⟨rfl,-⟩,hd,-⟩
      simp [hc] at hd

theorem isIdentPart_of_isBlank {c : Char} (h : isBlank c = true) : isIdentPart c = false := by
  rw [Bool.eq_false_iff]
  intro hp
  have hw := isWordChar_of_isIdentPart hp
  rw [isWordChar_of_isBlank h] at hw
  cases hw

theorem isBlank_of_isIdentStart {c : Char} (h : isIdentStart c = true) : isBlank c = false := by
  rw [Bool.eq_false_iff]
  intro hb
  have hp := isIdentPart_of_isIdentStart h
  rw [isIdentPart_of_isBlank hb] at hp
  cases hp

def Outside (opens : Char → Bool) : Prop :=
  ∀ c, opens c = true → isWordChar c = false ∧ isBlank c = false

section
variable {keyword : Text} {opens : Char → Bool} (ho : Outside opens)
include ho

theorem isIdentPart_of_opens {c : Char} (h : opens c = true) : isIdentPart c = false := by
  rw [Bool.eq_false_iff]
  intro hp
  have hw := isWordChar_of_isIdentPart hp
  rw [(ho c h).1] at hw
  cases hw

theorem head_behindName {b : Text} {c : Char} (hb : ∀ d ∈ b, isBlank d = true)
    (hc : opens c = true) (t : Text) : (b ++ c :: t).head?.any isIdentPart = false ∧
      trimStart (b ++ c :: t) = c :: t := by
  constructor
  · cases b with
    | nil => simpa using isIdentPart_of_opens ho hc
    | cons d b => simpa using isIdentPart_of_isBlank (hb d List.mem_cons_self)
  · rw [trimStart,List.dropWhile_append_of_pos hb]
    exact dropWhile_of_head (by simp [(ho c hc).2])

theorem opening?_eq_some_iff {t : Text} {o : Opening} :
    opening? keyword opens t = some o ↔ Declares keyword opens t o := by
  simp only [opening?_eq,named?,Option.bind_eq_some_iff,after?_eq_some_iff,opened?_eq_some_iff]
  constructor
  · rintro ⟨u,rfl,v,hv,⟨n,r⟩,hi,hr,hc,rfl⟩
    obtain ⟨a,ha,rfl,-⟩ := blanks?_eq_some hv
    obtain ⟨rfl,hn,-⟩ := ident?_eq_some_iff.1 hi
    obtain ⟨b,hb,ht,-⟩ := exists_trimStart r
    exact ⟨a,b,by rw [ht,hr],ha,hn,hb,hc⟩
  · rintro ⟨a,b,rfl,ha,hn,hb,hc⟩
    obtain ⟨hs,ht⟩ := head_behindName ho hb hc o.rest
    have hv : (o.name ++ (b ++ o.opener :: o.rest)).head?.any isBlank = false := by
      obtain ⟨d,e,he,hd,-⟩ := hn.exists_cons
      simp [he,isBlank_of_isIdentStart hd]
    exact ⟨_,rfl,_,blanks?_append ha hv,(o.name,_),ident?_eq_some_iff.2 ⟨rfl,hn,hs⟩,ht,hc,rfl⟩

end

section
variable {keyword : Text} (hk : IsIdent keyword) {opens : Char → Bool}
include hk

theorem opening?_of_head {c : Char} (hc : isIdentPart c = false) (t : Text) :
    opening? keyword opens (c :: t) = none := by
  obtain ⟨k,ks,rfl,hs,-⟩ := hk.exists_cons
  have hn : (c == k) = false := by
    rw [beq_eq_false_iff_ne]
    rintro rfl
    rw [isIdentPart_of_isIdentStart hs] at hc
    cases hc
  rw [opening?_eq,after?_cons]
  simp [one?,hn]

/-- An identifier that is not followed by another one, blanks between them, declares nothing, even
if it is the keyword. -/
theorem opening?_of_ident {n r : Text} (hn : ∀ c ∈ n, isIdentPart c = true)
    (hr : r.head?.any isIdentPart = false) (ht : (trimStart r).head?.any isIdentStart = false) :
    opening? keyword opens (n ++ r) = none := by
  rw [opening?_eq,Option.bind_eq_none_iff]
  intro u hu
  rw [Option.bind_eq_none_iff]
  intro v hv
  obtain ⟨a,ha,rfl,hb⟩ := blanks?_eq_some hv
  obtain ⟨d,e,rfl,hd,he⟩ := ha.exists_cons
  -- The identifier and the keyword are the same run of the text.
  have hw := congrArg (List.takeWhile isIdentPart) (after?_eq_some_iff.1 hu)
  have hs := congrArg (List.dropWhile isIdentPart) (after?_eq_some_iff.1 hu)
  have hp := isIdentPart_of_isBlank hd
  rw [List.dropWhile_append_of_pos hn,List.dropWhile_append_of_pos hk.2,dropWhile_of_head hr,
    dropWhile_of_head (by simpa using hp)] at hs
  have hv : v = trimStart r := by
    rw [hs,List.cons_append,trimStart,List.dropWhile_cons_of_pos hd,
      List.dropWhile_append_of_pos he,dropWhile_of_head hb]
  rw [named?]
  cases hi : ident? v with
  | none => rfl
  | some i =>
    obtain ⟨rfl,hm,-⟩ := ident?_eq_some_iff.1 hi
    obtain ⟨c,m,hc,hs,-⟩ := hm.exists_cons
    rw [← hv,hc] at ht
    simp [hs] at ht

end

/-- The declarations at all positions, of which the first is `p`. `start` says whether a word can
start there. -/
def occurrences (keyword : Text) (opens : Char → Bool) (start : Bool) (p : Nat) :
    Text → List (Nat × Opening)
  | [] => []
  | c :: t =>
    match (if start then opening? keyword opens (c :: t) else none) with
    | some o => (p,o) :: occurrences keyword opens (!isWordChar c) (p+1) t
    | none => occurrences keyword opens (!isWordChar c) (p+1) t

section
variable {keyword : Text} {opens : Char → Bool}

theorem occurrences_some {c : Char} {t : Text} {o : Opening} (p : Nat)
    (h : opening? keyword opens (c :: t) = some o) : occurrences keyword opens true p (c :: t) =
      (p,o) :: occurrences keyword opens (!isWordChar c) (p+1) t := by
  simp [occurrences,h]

theorem occurrences_none {c : Char} {t : Text} {start : Bool} (p : Nat)
    (h : opening? keyword opens (c :: t) = none) : occurrences keyword opens start p (c :: t) =
      occurrences keyword opens (!isWordChar c) (p+1) t := by
  simp [occurrences,h]

theorem mem_occurrences_cons {c : Char} {t : Text} {start : Bool} {p : Nat} {d : Nat × Opening} :
    d ∈ occurrences keyword opens start p (c :: t) ↔
      (start = true ∧ d.1 = p ∧ opening? keyword opens (c :: t) = some d.2) ∨
        d ∈ occurrences keyword opens (!isWordChar c) (p+1) t := by
  rw [occurrences]
  cases start with
  | false => simp
  | true =>
    cases h : opening? keyword opens (c :: t) with
    | none => simp
    | some o =>
      obtain ⟨q,r⟩ := d
      simp [eq_comm]

theorem mem_occurrences_iff {t : Text} {start : Bool} {p q : Nat} {o : Opening} :
    (q,o) ∈ occurrences keyword opens start p t ↔ ∃ u v, t = u ++ v ∧ q = p+u.length ∧
      (u.getLast?.elim start fun c => !isWordChar c) = true ∧ opening? keyword opens v = some o := by
  induction t generalizing start p with
  | nil =>
    simp only [occurrences,List.not_mem_nil,false_iff]
    rintro ⟨u,v,ht,-,-,h⟩
    obtain ⟨-,rfl⟩ := List.append_eq_nil_iff.1 ht.symm
    exact absurd (length_of_opening? h) (Nat.not_lt_zero _)
  | cons c t ih =>
    rw [mem_occurrences_cons,ih]
    constructor
    · rintro (⟨hs,rfl,h⟩ | ⟨u,v,rfl,rfl,he,h⟩)
      · exact ⟨[],c :: t,rfl,rfl,hs,h⟩
      · refine ⟨c :: u,v,rfl,by simp only [List.length_cons]; omega,?_,h⟩
        cases u with
        | nil => exact he
        | cons d u => rwa [List.getLast?_cons_cons]
    · rintro ⟨u,v,ht,rfl,he,h⟩
      cases u with
      | nil =>
        rw [List.nil_append] at ht
        exact .inl ⟨he,rfl,by rw [ht]; exact h⟩
      | cons d u =>
        obtain ⟨rfl,rfl⟩ := List.cons_eq_cons.1 ht
        refine .inr ⟨u,v,rfl,by simp only [List.length_cons]; omega,?_,h⟩
        cases u with
        | nil => exact he
        | cons e u => rwa [List.getLast?_cons_cons] at he

theorem occurrences_ascending (t : Text) (start : Bool) (p : Nat) :
    (occurrences keyword opens start p t).Pairwise (·.1 < ·.1) := by
  induction t generalizing start p with
  | nil => exact List.Pairwise.nil
  | cons c t ih =>
    rw [occurrences]
    split
    · refine List.pairwise_cons.2 ⟨fun d hd => ?_,ih _ _⟩
      obtain ⟨u,v,-,hq,-⟩ := mem_occurrences_iff.1 hd
      simp only
      omega
    · exact ih _ _

theorem occurrences_inside {w : Text} (hw : ∀ c ∈ w, isIdentPart c = true) (p : Nat) (t : Text) :
    occurrences keyword opens false p (w ++ t) =
      occurrences keyword opens false (p+w.length) t := by
  induction w generalizing p with
  | nil => rfl
  | cons c w ih =>
    obtain ⟨hc,hw⟩ := List.forall_mem_cons.1 hw
    rw [List.cons_append,occurrences]
    simp only [Bool.false_eq_true,if_false,isWordChar_of_isIdentPart hc,Bool.not_true]
    rw [ih hw (p+1),List.length_cons,Nat.add_assoc,Nat.add_comm 1]

section
variable (hk : IsIdent keyword)
include hk

theorem occurrences_outside {w : Text} (hn : w ≠ []) (hw : ∀ c ∈ w, isWordChar c = false)
    (start : Bool) (p : Nat) (t : Text) : occurrences keyword opens start p (w ++ t) =
      occurrences keyword opens true (p+w.length) t := by
  induction w generalizing start p with
  | nil => exact absurd rfl hn
  | cons c w ih =>
    obtain ⟨hc,hw⟩ := List.forall_mem_cons.1 hw
    have hp : isIdentPart c = false := by
      rw [Bool.eq_false_iff]
      intro hp
      simp [isWordChar_of_isIdentPart hp] at hc
    rw [List.cons_append,occurrences_none p (opening?_of_head hk hp _),hc,Bool.not_false]
    cases w with
    | nil => rfl
    | cons d w =>
      rw [ih (List.cons_ne_nil _ _) hw true (p+1),List.length_cons (a := c),Nat.add_assoc,
        Nat.add_comm 1]

theorem occurrences_ident {n r : Text} (hn : IsIdent n) (hr : r.head?.any isIdentPart = false)
    (ht : (trimStart r).head?.any isIdentStart = false) (start : Bool) (p : Nat) :
    occurrences keyword opens start p (n ++ r) =
      occurrences keyword opens false (p+n.length) r := by
  have h : opening? keyword opens (n ++ r) = none := opening?_of_ident hk hn.2 hr ht
  obtain ⟨c,d,rfl,hc,hd⟩ := hn.exists_cons
  rw [List.cons_append] at h ⊢
  rw [occurrences_none p h,isWordChar_of_isIdentPart (isIdentPart_of_isIdentStart hc),
    Bool.not_true,occurrences_inside hd,List.length_cons,Nat.add_assoc,Nat.add_comm 1]

variable (ho : Outside opens)
include ho

/-- Between the start of a declaration and what follows its opening character no other declaration
starts, even if its name is the keyword. -/
theorem occurrences_declared {t : Text} {o : Opening} (h : opening? keyword opens t = some o)
    (p : Nat) : ∃ q, occurrences keyword opens true p t =
      (p,o) :: occurrences keyword opens true q o.rest := by
  obtain ⟨a,b,rfl,ha,hn,hb,hc⟩ := (opening?_eq_some_iff ho).1 h
  obtain ⟨hr,ht⟩ := head_behindName ho hb hc o.rest
  have hs : (trimStart (b ++ o.opener :: o.rest)).head?.any isIdentStart = false := by
    rw [ht,List.head?_cons,Option.any_some,Bool.eq_false_iff]
    intro hi
    simpa [isIdentPart_of_opens ho hc] using isIdentPart_of_isIdentStart hi
  have hw : ∀ c ∈ b ++ [o.opener], isWordChar c = false := by
    intro c hm
    rcases List.mem_append.1 hm with hm | hm
    · exact isWordChar_of_isBlank (hb c hm)
    · rw [List.mem_singleton.1 hm]
      exact (ho _ hc).1
  have hd : b ++ o.opener :: o.rest = (b ++ [o.opener]) ++ o.rest := by simp
  obtain ⟨k,ks,rfl,-,hp⟩ := hk.exists_cons
  rw [List.cons_append] at h ⊢
  rw [occurrences_some p h,isWordChar_of_isIdentPart (hk.2 k List.mem_cons_self),Bool.not_true,
    occurrences_inside hp,
    occurrences_outside hk ha.1 (fun c hc => isWordChar_of_isBlank (ha.2 c hc)),
    occurrences_ident hk hn hr hs,hd,occurrences_outside hk (by simp) hw]
  exact ⟨_,rfl⟩

theorem openingsFrom_eq (before : Option Char) (t : Text) (p : Nat) :
    openingsFrom keyword opens before t =
      (occurrences keyword opens (edge before) p t).map (·.2) := by
  induction before, t using openingsFrom.induct keyword opens generalizing p with
  | case1 before => simp [openingsFrom,occurrences]
  | case2 before c t o h ih =>
    obtain ⟨hb,h⟩ := eq_some_of_ite h
    obtain ⟨q,hq⟩ := occurrences_declared hk ho h p
    have hc : edge (some o.opener) = true := by
      obtain ⟨-,-,-,-,-,-,hc⟩ := (opening?_eq_some_iff ho).1 h
      simp [edge,(ho _ hc).1]
    rw [openingsFrom_some hb h,ih q,hb,hq,hc]
    rfl
  | case3 before c t h ih =>
    have h := eq_none_of_ite h
    have he : occurrences keyword opens (edge before) p (c :: t) =
        occurrences keyword opens (!isWordChar c) (p+1) t := by
      cases hb : edge before with
      | false => simp [occurrences]
      | true => exact occurrences_none p (h hb)
    rw [openingsFrom_none h,ih (p+1),he]
    rfl

theorem openings_complete (t : Text) : ∃ ds : List (Nat × Opening),
    ds.Pairwise (·.1 < ·.1) ∧ (∀ p o, (p,o) ∈ ds ↔ DeclaredAt keyword opens t p o) ∧
    openings keyword opens t = ds.map (·.2) := by
  refine ⟨occurrences keyword opens true 0 t,occurrences_ascending t true 0,fun p o => ?_,
    openingsFrom_eq hk ho none t 0⟩
  have he : ∀ u : Text, edge u.getLast? = u.getLast?.elim true fun c => !isWordChar c := by
    intro u
    cases u.getLast? <;> rfl
  simp only [mem_occurrences_iff,DeclaredAt,Nat.zero_add,he,opening?_eq_some_iff ho,@eq_comm Nat p]

end
end

theorem isIdent_def : IsIdent "def".toList := by decide

theorem isIdent_class : IsIdent "class".toList := by decide

theorem outside_opensCall : Outside opensCall := by
  intro c hc
  rw [beq_iff_eq.1 hc]
  decide +kernel

theorem outside_opensClass : Outside opensClass := by
  intro c hc
  simp only [opensClass,Bool.or_eq_true,beq_iff_eq] at hc
  rcases hc with rfl | rfl <;> decide +kernel

/-- For every text, the declared functions and classes are those that a declaration at some position
names, in the order of the positions and one for each. The parameters of a function are read off
what follows its own parenthesis. -/
theorem outline_complete (code : Text) :
    (∃ ds : List (Nat × Opening), ds.Pairwise (·.1 < ·.1) ∧
      (∀ p o, (p,o) ∈ ds ↔ DeclaredAt "def".toList (· == '(') code p o) ∧
      signatures .python code = ds.map fun d => ⟨d.2.name,(enclosed? d.2.rest).map splitTop⟩) ∧
    ∃ ds : List (Nat × Opening), ds.Pairwise (·.1 < ·.1) ∧
      (∀ p o, (p,o) ∈ ds ↔ DeclaredAt "class".toList (fun c => c == ':' || c == '(') code p o) ∧
      classes .python code = ds.map (·.2.name) := by
  constructor
  · obtain ⟨ds,ha,hd,h⟩ := openings_complete isIdent_def outside_opensCall code
    refine ⟨ds,ha,hd,?_⟩
    rw [signatures,show Profile.python.functionKeyword = "def".toList from rfl,h,List.map_map]
    rfl
  · obtain ⟨ds,ha,hd,h⟩ := openings_complete isIdent_class outside_opensClass code
    refine ⟨ds,ha,hd,?_⟩
    rw [classes,show Profile.python.classKeyword = "class".toList from rfl,h,List.map_map]
    rfl

end Workbench.Source
