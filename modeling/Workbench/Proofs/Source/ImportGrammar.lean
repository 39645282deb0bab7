import Workbench.Proofs.Source.StatementEnd
set_option autoImplicit false

/-!
Lines of imports, given by a grammar. What is read from such lines is exactly what they name, in the
order of the text and with its repeats.
-/
namespace Workbench.Source
open Text

/-- Dots and a module, not both of them missing. -/
def IsOrigin (m : Text) : Prop :=
  m ≠ [] ∧ ∃ d n, m = d ++ n ∧ (∀ c ∈ d, c = '.') ∧ (n = [] ∨ isModule n = true)

/-- Any text that ends neither an item nor a list; the identifiers of all scripts are among them. -/
def IsAlias (i : Text) : Prop :=
  i ≠ [] ∧ ∀ c ∈ i, isBlank c = false ∧ c ≠ ',' ∧ endsList c = false

/-- The texts of a module in a list, under another name perhaps, with blanks around them. -/
inductive ItemText (m : Text) : Text → Prop
  | plain {a b : Text} (hm : isModule m = true) (ha : Blanks a) (hb : Blanks b) :
    ItemText m (a ++ (m ++ b))
  | renamed {a b d i e : Text} (hm : isModule m = true) (ha : Blanks a) (hb : SomeBlanks b)
    (hd : SomeBlanks d) (hi : IsAlias i) (he : Blanks e) :
    ItemText m (a ++ (m ++ (b ++ ("as".toList ++ (d ++ (i ++ e))))))

/-- The texts of a list of modules, which is not empty. -/
inductive ItemsText : List Text → Text → Prop
  | single {m w : Text} (h : ItemText m w) : ItemsText [m] w
  | cons {m w u : Text} {ms : List Text} (h : ItemText m w) (hu : ItemsText ms u) :
    ItemsText (m :: ms) (w ++ ',' :: u)

/-- The texts of a statement, with the modules that it names. What is imported from a module is any
text without a semicolon and a colon. -/
inductive StatementText : List Text → Text → Prop
  | list {b u : Text} {ms : List Text} (hb : SomeBlanks b) (hu : ItemsText ms u) :
    StatementText ms ("import".toList ++ (b ++ u))
  | names {b m d e r : Text} (hb : SomeBlanks b) (hm : IsOrigin m) (hd : SomeBlanks d)
    (he : SomeBlanks e) (hr : ∀ c ∈ r, startsStatement c = false) :
    StatementText [m] ("from".toList ++ (b ++ (m ++ (d ++ ("import".toList ++ (e ++ r))))))

def SpacedStatement (ms : List Text) (w : Text) : Prop :=
  ∃ a t b, w = a ++ (t ++ b) ∧ StatementText ms t ∧ Blanks a ∧ Blanks b

/-- The texts of a line: statements with semicolons between them, and a comment perhaps. -/
inductive LineText : List Text → Text → Prop
  | single {ms : List Text} {w : Text} (h : SpacedStatement ms w) : LineText ms w
  | commented {ms : List Text} {w c : Text} (h : SpacedStatement ms w)
    (hc : ∀ d ∈ c, startsStatement d = false) : LineText ms (w ++ '#' :: c)
  | cons {ms ns : List Text} {w u : Text} (h : SpacedStatement ms w) (hu : LineText ns u) :
    LineText (ms ++ ns) (w ++ ';' :: u)

theorem head_blanks {b : Text} (hb : SomeBlanks b) (t : Text) {p : Char → Bool}
    (hp : ∀ c, isBlank c = true → p c = false) : (b ++ t).head?.any p = false := by
  obtain ⟨c,d,rfl,hc,-⟩ := hb.exists_cons
  simpa using hp c hc

/-- What is asked of a character holds of all those in an item, if it holds of the modules' characters
and of those in a name, and of the blanks. -/
theorem ItemText.forall_mem {m w : Text} (h : ItemText m w) {p : Char → Prop}
    (hm : ∀ c, isModulePart c = true → p c) (hb : ∀ c, isBlank c = true → p c)
    (hi : ∀ c, isBlank c = false ∧ c ≠ ',' ∧ endsList c = false → p c) : ∀ c ∈ w, p c := by
  have has : ∀ c ∈ "as".toList, isModulePart c = true := by decide
  cases h with
  | plain h ha he =>
    simp only [List.forall_mem_append]
    exact ⟨fun c hc => hb c (ha c hc),fun c hc => hm c (mem_of_isModule h hc),
      fun c hc => hb c (he c hc)⟩
  | renamed h ha hs hd hn he =>
    simp only [List.forall_mem_append]
    exact ⟨fun c hc => hb c (ha c hc),fun c hc => hm c (mem_of_isModule h hc),
      fun c hc => hb c (hs.2 c hc),fun c hc => hm c (has c hc),fun c hc => hb c (hd.2 c hc),
      fun c hc => hi c (hn.2 c hc),fun c hc => hb c (he c hc)⟩

theorem ItemText.listedModule? {m w : Text} (h : ItemText m w) : listedModule? w = some m := by
  cases h with
  | @plain a b hm ha hb =>
    refine listedModule?_of_isModule hm ha ?_
    cases b with
    | nil => rfl
    | cons c b => simpa using hb c List.mem_cons_self
  | renamed hm ha hb hd hi he => exact listedModule?_of_isModule hm ha (head_blanks hb _ (by simp))

theorem not_endsList_of {c : Char} (h : isModulePart c = true ∨ isBlank c = true) :
    c ≠ ',' ∧ endsList c = false := by
  have hs : ∀ d ∈ [',',';','#'], isModulePart d = false ∧ isBlank d = false := by decide
  have hn : c ∉ [',',';','#'] := by
    intro hc
    obtain ⟨h₁,h₂⟩ := hs c hc
    simp [h₁,h₂] at h
  simpa [endsList] using hn

theorem ItemText.inside {m w : Text} (h : ItemText m w) :
    ∀ c ∈ w, c ≠ ',' ∧ endsList c = false :=
  h.forall_mem (fun _ hc => not_endsList_of (.inl hc)) (fun _ hc => not_endsList_of (.inr hc))
    fun _ hc => hc.2

theorem ItemsText.inside {ms : List Text} {u : Text} (h : ItemsText ms u) :
    ∀ c ∈ u, endsList c = false := by
  induction h with
  | single h => exact fun c hc => (h.inside c hc).2
  | cons h _ ih =>
    exact List.forall_mem_append.2 ⟨fun c hc => (h.inside c hc).2,
      List.forall_mem_cons.2 ⟨by decide,ih⟩⟩

theorem ItemsText.listed {ms : List Text} {u : Text} (h : ItemsText ms u) :
    (splitOn ',' u).filterMap listedModule? = ms := by
  induction h with
  | @single m w h =>
    have hn : ',' ∉ w := fun hc => (h.inside _ hc).1 rfl
    rw [(splitOn_piece hn []).1,List.filterMap_cons_some h.listedModule?,List.filterMap_nil]
  | @cons m w u ms h _ ih =>
    have hn : ',' ∉ w := fun hc => (h.inside _ hc).1 rfl
    rw [(splitOn_piece hn u).2,List.filterMap_cons_some h.listedModule?,ih]

theorem listed_trimStart (t : Text) : (splitOn ',' (trimStart t)).filterMap listedModule? =
    (splitOn ',' t).filterMap listedModule? := by
  induction t with
  | nil => rfl
  | cons c t ih =>
    cases hc : isBlank c with
    | false => simp [trimStart,hc]
    | true =>
      have hn : c ≠ ',' := (not_endsList_of (.inr hc)).1
      obtain ⟨w,ws,h₁,h₂⟩ := splitOn_other hn t
      have hf : firstWord (c :: w) = firstWord w := by simp [firstWord,trimStart,hc]
      have hw : listedModule? (c :: w) = listedModule? w := by rw [listedModule?,hf,listedModule?]
      have ht : trimStart (c :: t) = trimStart t := by simp [trimStart,hc]
      rw [ht,ih,h₁,h₂,List.filterMap_cons,List.filterMap_cons,hw]

theorem ItemsText.modules_ne_nil {ms : List Text} {u : Text} (h : ItemsText ms u) : ms ≠ [] := by
  cases h <;> exact List.cons_ne_nil _ _

theorem importList?_text {b u : Text} {ms : List Text} (hb : SomeBlanks b) (h : ItemsText ms u) :
    importList? ("import".toList ++ (b ++ u)) = some (ms,[]) := by
  have ht : blanks? (b ++ u) = some (trimStart u) := by
    obtain ⟨c,d,rfl,hc,hd⟩ := hb.exists_cons
    rw [List.cons_append,blanks?,if_pos hc,trimStart,List.dropWhile_append_of_pos hd]
    rfl
  have hi : ∀ c ∈ trimStart u, (!endsList c) = true := by
    intro c hc
    simp [h.inside c ((List.dropWhile_sublist _).subset hc)]
  have hl := listed_trimStart u
  rw [h.listed] at hl
  rw [importList?_eq,after?_eq_some_iff.2 rfl,Option.bind_some,ht,Option.bind_some,listed?,
    List.takeWhile_eq_self_iff.2 hi,List.dropWhile_eq_nil_iff.2 hi]
  cases hu : trimStart u with
  | nil =>
    rw [hu] at hl
    exact absurd hl.symm h.modules_ne_nil
  | cons c v =>
    rw [hu] at hl
    simp only [hl]

theorem moduleFrom_end {r : Text} (hr : r.head?.any isModulePart = false) (d : Text) :
    moduleFrom d r = (d,r) := by
  cases r with
  | nil => simp [moduleFrom,one?]
  | cons c r => simp [moduleFrom,one?,isIdentStart_eq_false (by simpa using hr)]

theorem moduleFrom_module {n r : Text} (hn : isModule n = true)
    (hr : r.head?.any isModulePart = false) (d : Text) : moduleFrom d (n ++ r) = (d ++ n,r) := by
  have hp : ∀ e ∈ n, isModulePart e = true := fun e he => mem_of_isModule hn he
  have hs : (one? isIdentStart (n ++ r)).isSome = true := by
    cases n with
    | nil => simp [isModule] at hn
    | cons c n =>
      rw [isModule,Bool.and_eq_true] at hn
      simp [one?,hn.1]
  rw [moduleFrom,if_pos hs,List.takeWhile_append_of_pos hp,List.dropWhile_append_of_pos hp,
    dropWhile_of_head hr,takeWhile_of_head hr,List.append_nil]

theorem head_ne_dot {n r : Text} (hn : n = [] ∨ isModule n = true)
    (hr : r.head?.any isModulePart = false) : (n ++ r).head?.any (· == '.') = false := by
  rcases hn with rfl | hn
  · cases r with
    | nil => rfl
    | cons c r =>
      have hc : isModulePart c = false := by simpa using hr
      rw [isModulePart,Bool.or_eq_false_iff] at hc
      simpa using hc.2
  · cases n with
    | nil => simp [isModule] at hn
    | cons c n =>
      rw [isModule,Bool.and_eq_true] at hn
      have hc : c ≠ '.' := by
        rintro rfl
        exact absurd hn.1 (by decide)
      simpa using hc

theorem relativeModule_origin {m r : Text} (hm : IsOrigin m)
    (hr : r.head?.any isModulePart = false) : relativeModule (m ++ r) = (m,r) := by
  obtain ⟨-,d,n,rfl,hd,hn⟩ := hm
  have hd : ∀ c ∈ d, (c == '.') = true := fun c hc => by simp [hd c hc]
  have hs := head_ne_dot hn hr
  rw [List.append_assoc,relativeModule_eq,List.takeWhile_append_of_pos hd,
    List.dropWhile_append_of_pos hd,dropWhile_of_head hs,takeWhile_of_head hs,List.append_nil]
  rcases hn with rfl | hn
  · rw [List.nil_append,List.append_nil]
    exact moduleFrom_end hr d
  · exact moduleFrom_module hn hr d

theorem IsOrigin.mem {m : Text} (h : IsOrigin m) : ∀ c ∈ m, isModulePart c = true := by
  obtain ⟨-,d,n,rfl,hd,hn⟩ := h
  refine List.forall_mem_append.2 ⟨fun c hc => by rw [hd c hc]; decide,fun c hc => ?_⟩
  rcases hn with rfl | hn
  · cases hc
  · exact mem_of_isModule hn hc

theorem importFrom?_text {b m d e r : Text} (hb : SomeBlanks b) (hm : IsOrigin m)
    (hd : SomeBlanks d) (he : SomeBlanks e) :
    importFrom? ("from".toList ++ (b ++ (m ++ (d ++ ("import".toList ++ (e ++ r)))))) =
      some ([m],e ++ r) := by
  have hh : (m ++ (d ++ ("import".toList ++ (e ++ r)))).head?.any isBlank = false := by
    obtain ⟨c,n,rfl⟩ := List.exists_cons_of_ne_nil hm.1
    simpa using isBlank_of_isModulePart (hm.mem c List.mem_cons_self)
  have hp : (d ++ ("import".toList ++ (e ++ r))).head?.any isModulePart = false := by
    refine head_blanks hd _ fun c hc => ?_
    rw [Bool.eq_false_iff]
    intro h
    rw [isBlank_of_isModulePart h] at hc
    cases hc
  have hw : edge (e ++ r).head? = true := by
    obtain ⟨c,f,rfl,hc,-⟩ := he.exists_cons
    simp [edge,isWordChar_of_isBlank hc]
  have hi : ("import".toList ++ (e ++ r)).head?.any isBlank = false := rfl
  rw [importFrom?_eq,after?_eq_some_iff.2 rfl,Option.bind_some,blanks?_append hb hh,
    Option.bind_some,fromModule?,relativeModule_origin hm hp,if_neg hm.1,blanks?_append hd hi,
    Option.bind_some,thenImport?,after?_eq_some_iff.2 rfl,Option.bind_some,edge?,if_pos hw,
    Option.map_some]

theorem importsAfter_of_forall {t : Text} (h : ∀ c ∈ t, startsStatement c = false) :
    importsAfter t = [] := by
  induction t with
  | nil => rw [importsAfter]
  | cons c t ih =>
    obtain ⟨hc,ht⟩ := List.forall_mem_cons.1 h
    rw [importsAfter_none fun hs => absurd hs (by simp [hc]),ih ht]

theorem startsStatement_of_isBlank {c : Char} (h : isBlank c = true) : startsStatement c = false := by
  rw [Bool.eq_false_iff]
  intro hs
  have hc : c = ';' ∨ c = ':' := by simpa [startsStatement] using hs
  rcases hc with rfl | rfl <;> exact absurd h (by decide)

theorem StatementText.lineImports {ms : List Text} {t : Text} (h : StatementText ms t) :
    lineImports t = ms := by
  cases h with
  | @list b u ms hb hu =>
    have hs : importHere? ("import".toList ++ (b ++ u)) = some (ms,[]) := by
      rw [importHere?_eq,trimStart_of_head rfl,statement?,importList?_text hb hu,Option.some_or]
    simp only [Source.lineImports,hs,importsAfter,List.append_nil]
  | @names b m d e r hb hm hd he hr =>
    have hl : ∀ t, importList? ("from".toList ++ t) = none := fun t => rfl
    have hs := importFrom?_text hb hm hd he (r := r)
    have hn : importsAfter (e ++ r) = [] :=
      importsAfter_of_forall (List.forall_mem_append.2
        ⟨fun c hc => startsStatement_of_isBlank (he.2 c hc),hr⟩)
    have hh : importHere? ("from".toList ++ (b ++ (m ++ (d ++ ("import".toList ++ (e ++ r)))))) =
        some ([m],e ++ r) := by
      rw [importHere?_eq,trimStart_of_head rfl,statement?,hl,Option.none_or,hs]
    simp only [Source.lineImports,hh,hn,List.append_nil]

theorem lineImports_blanks {a : Text} (ha : Blanks a) (t : Text) :
    lineImports (a ++ t) = lineImports t := by
  induction a with
  | nil => rfl
  | cons c a ih =>
    obtain ⟨hc,ha⟩ := List.forall_mem_cons.1 ha
    have ht : importHere? (c :: (a ++ t)) = importHere? (a ++ t) := by
      rw [importHere?_eq,importHere?_eq]
      simp [trimStart,hc]
    have hn : importsAfter (c :: (a ++ t)) = importsAfter (a ++ t) :=
      importsAfter_none fun hs => absurd hs (by simp [startsStatement_of_isBlank hc])
    rw [← ih ha,List.cons_append,lineImports,lineImports,ht,hn]

theorem lineImports_append_blanks (t : Text) {b : Text} (hb : Blanks b) :
    lineImports (t ++ b) = lineImports t := by
  induction b generalizing t with
  | nil => rw [List.append_nil]
  | cons c b ih =>
    obtain ⟨hc,hb⟩ := List.forall_mem_cons.1 hb
    rw [← lineImports_append_blank hc t,← ih (t ++ [c]) hb,List.append_assoc,List.singleton_append]

theorem SpacedStatement.lineImports {ms : List Text} {w : Text} (h : SpacedStatement ms w) :
    lineImports w = ms := by
  obtain ⟨a,t,b,rfl,ht,ha,hb⟩ := h
  rw [lineImports_blanks ha,lineImports_append_blanks t hb,ht.lineImports]

theorem LineText.lineImports {ms : List Text} {l : Text} (h : LineText ms l) :
    lineImports l = ms := by
  induction h with
  | single h => exact h.lineImports
  | @commented ms w c h hc =>
    rw [lineImports_stop rfl,importsAfter_comment,importsAfter_of_forall hc,List.append_nil,
      h.lineImports]
  | @cons ms ns w u h _ ih =>
    rw [lineImports_stop rfl,importsAfter_semicolon,h.lineImports,ih]

theorem imports_joined {ls : List Text} (h : ∀ l ∈ ls, '\n' ∉ l) :
    imports (joinWith ['\n'] ls) = (ls.map lineImports).flatten := by
  induction ls using joinWith.induct with
  | case1 => simp [joinWith,imports,lines]
  | case2 l =>
    have hl := h l List.mem_cons_self
    rw [joinWith,imports_last hl,List.map_singleton,List.flatten_singleton]
  | case3 l ls hn ih =>
    have hl := h l List.mem_cons_self
    have ih := ih fun k hk => h k (List.mem_cons_of_mem _ hk)
    rw [joinWith.eq_3 _ _ _ hn,List.append_assoc,List.singleton_append,imports_line hl,ih,
      List.map_cons,List.flatten_cons]

/-- From lines of import statements come all the modules that the statements name, and no others. -/
theorem imports_lineTexts {mss : List (List Text)} {ls : List Text}
    (h : List.Forall₂ LineText mss ls) (hl : ∀ l ∈ ls, '\n' ∉ l) :
    imports (joinWith ['\n'] ls) = mss.flatten := by
  have hm : ls.map lineImports = mss := by
    clear hl
    induction h with
    | nil => rfl
    | cons h _ ih => rw [List.map_cons,h.lineImports,ih]
  rw [imports_joined hl,hm]

theorem imports_lineTexts_mixed :
    imports (joinWith ['\n'] ["import a.b as c , import;from . import x # y".toList,
      " from ..import import (z)".toList]) =
      ["a.b".toList,"import".toList,['.'],"..import".toList] := by
  have he : Blanks [] := by decide
  have ho : Blanks [' '] := by decide
  have hs : SomeBlanks [' '] := ⟨List.cons_ne_nil _ _,ho⟩
  have hp : ItemText "a.b".toList "a.b as c ".toList :=
    .renamed (by decide) he hs hs (i := ['c']) ⟨List.cons_ne_nil _ _,by decide⟩ ho
  have hi : ItemText "import".toList " import".toList := .plain (by decide) ho he
  have h₁ : StatementText ["a.b".toList,"import".toList] "import a.b as c , import".toList :=
    .list hs (.cons hp (.single hi))
  have h₂ : StatementText [['.']] "from . import x ".toList :=
    .names (r := ['x',' ']) hs ⟨by decide,['.'],[],rfl,by decide,.inl rfl⟩ hs hs (by decide)
  have h₃ : StatementText ["..import".toList] "from ..import import (z)".toList :=
    .names (r := "(z)".toList) hs ⟨by decide,"..".toList,"import".toList,rfl,by decide,.inr rfl⟩ hs hs
      (by decide)
  have l₁ : LineText ["a.b".toList,"import".toList,['.']]
      "import a.b as c , import;from . import x # y".toList :=
    .cons ⟨[],_,[],rfl,h₁,he,he⟩ (.commented (c := [' ','y']) ⟨[],_,[],rfl,h₂,he,he⟩ (by decide))
  have l₂ : LineText ["..import".toList] " from ..import import (z)".toList :=
    .single ⟨[' '],_,[],rfl,h₃,ho,he⟩
  exact imports_lineTexts (.cons l₁ (.cons l₂ .nil)) (by decide)

end Workbench.Source
