import Mathlib.Data.List.Chain
import Mathlib.Data.List.Induction
import Mathlib.Data.List.TakeWhile
import Workbench.Proofs.Text.Lines
import Workbench.Proofs.Text.Literal
import Workbench.Source.Import
set_option autoImplicit false

/-!
Import statements as they are written, and where they stand. Every module that is read off a text is
named by a statement of that text, and no word goes on into the statement.
-/
namespace Workbench.Source
open Text

/-- A statement that names modules. A list of them ends at a semicolon or a comment; behind the
statement that names one there may be anything that does not go on with its last word. -/
inductive ImportStatement : List Text → Text → Prop
  | list {b l r : Text} (blank : SomeBlanks b) (starts : l.head?.any isBlank = false)
    (inside : ∀ c ∈ l, endsList c = false) (ends : r.head?.all endsList = true) :
    ImportStatement ((splitOn ',' l).filterMap listedModule?) ("import".toList ++ (b ++ (l ++ r)))
  | names {b m d r : Text} (blank : SomeBlanks b) (between : SomeBlanks d)
    (ends : edge r.head? = true) :
    ImportStatement [m] ("from".toList ++ (b ++ (m ++ (d ++ ("import".toList ++ r)))))

theorem importList?_sound {t r : Text} {ms : List Text} (h : importList? t = some (ms,r)) :
    ImportStatement ms t ∧ ∃ u, t = u ++ r := by
  simp only [importList?] at h
  split at h
  · simp at h
  · rename_i t₁ h₁
    split at h
    · simp at h
    · rename_i t₂ h₂
      obtain ⟨b,hb,rfl,hs⟩ := blanks?_eq_some h₂
      obtain ⟨l,e,rfl,hl,he,hi,hn⟩ := exists_span (fun c => !endsList c) t₂
      rw [after?_eq_some_iff.1 h₁]
      rw [hl,he] at h
      cases l with
      | nil => simp at h
      | cons c l =>
        simp only [Option.some.injEq,Prod.mk.injEq] at h
        obtain ⟨rfl,rfl⟩ := h
        refine ⟨.list hb hs (fun d hd => by simpa using hi d hd) ?_,
          "import".toList ++ (b ++ c :: l),by simp⟩
        cases e with
        | nil => rfl
        | cons d e => simpa using hn

theorem relativeModule_append (t : Text) : (relativeModule t).1 ++ (relativeModule t).2 = t := by
  have e : (t.takeWhile (· == '.')) ++ t.dropWhile (· == '.') = t := List.takeWhile_append_dropWhile
  simp only [relativeModule]
  split
  · exact e
  · rename_i c cs h
    split
    · rw [List.append_assoc,List.cons_append,List.takeWhile_append_dropWhile,← h,e]
    · exact e

theorem edge?_eq_some {t r : Text} (h : edge? t = some r) : r = t ∧ edge t.head? = true := by
  rw [edge?] at h
  split at h
  · exact ⟨(Option.some.inj h).symm,by assumption⟩
  · simp at h

theorem importFrom?_sound {t r : Text} {ms : List Text} (h : importFrom? t = some (ms,r)) :
    ImportStatement ms t ∧ ∃ u, t = u ++ r := by
  simp only [importFrom?] at h
  split at h
  · simp at h
  · rename_i t₁ h₁
    split at h
    · simp at h
    · rename_i t₂ h₂
      have e := relativeModule_append t₂
      split at h
      · simp at h
      · rename_i m t₃ _ h₃
        rw [h₃] at e
        split at h
        · simp at h
        · rename_i t₄ h₄
          split at h
          · simp at h
          · rename_i t₅ h₅
            obtain ⟨t₆,h₆,e₆⟩ := Option.map_eq_some_iff.1 h
            obtain ⟨rfl,hr⟩ := edge?_eq_some h₆
            obtain ⟨rfl,rfl⟩ := Prod.mk.inj e₆
            obtain ⟨b,hb,rfl,-⟩ := blanks?_eq_some h₂
            obtain ⟨d,hd,rfl,-⟩ := blanks?_eq_some h₄
            rw [after?_eq_some_iff.1 h₁,← e,after?_eq_some_iff.1 h₅]
            exact ⟨.names hb hd hr,"from".toList ++ (b ++ (m ++ (d ++ "import".toList))),by simp⟩

theorem importHere?_sound {t r : Text} {ms : List Text} (h : importHere? t = some (ms,r)) :
    (∃ b v, (∀ c ∈ b, isBlank c = true) ∧ t = b ++ v ∧ ImportStatement ms v) ∧ ∃ u, t = u ++ r := by
  obtain ⟨b,hb,ht,-⟩ := exists_trimStart t
  have hs : ImportStatement ms (trimStart t) ∧ ∃ u, trimStart t = u ++ r := by
    rw [importHere?] at h
    split at h
    · rename_i q hq
      rw [Option.some.inj h] at hq
      exact importList?_sound hq
    · exact importFrom?_sound h
  obtain ⟨hs,u,hu⟩ := hs
  exact ⟨⟨b,_,hb,ht,hs⟩,b ++ u,by rw [List.append_assoc,← hu]; exact ht⟩

/-- Where a statement can begin: with a line or behind a semicolon or a colon, blanks aside. -/
def Begins (u : Text) : Prop := ∃ a b, u = a ++ b ∧ (∀ c ∈ b, isBlank c = true) ∧
  a.getLast?.all (fun c => c == '\n' || startsStatement c) = true

theorem Begins.append {a u : Text} (ha : a = [] ∨ ∃ b, a = b ++ ['\n']) (h : Begins u) :
    Begins (a ++ u) := by
  obtain ⟨v,b,rfl,hb,hv⟩ := h
  refine ⟨a ++ v,b,by rw [List.append_assoc],hb,?_⟩
  cases v with
  | cons c v => rwa [List.getLast?_append_of_ne_nil _ (List.cons_ne_nil _ _)]
  | nil =>
    rcases ha with rfl | ⟨a,rfl⟩
    · rfl
    · simp

theorem Begins.edge {u : Text} (h : Begins u) : edge u.getLast? = true := by
  obtain ⟨a,b,rfl,hb,ha⟩ := h
  rw [List.getLast?_append]
  cases hl : b.getLast? with
  | some c => simp [Text.edge,isWordChar_of_isBlank (hb c (List.mem_of_getLast? hl))]
  | none =>
    cases hc : a.getLast? with
    | none => rfl
    | some c =>
      have hc : c ∈ ['\n',';',':'] := by simpa [hc,startsStatement] using ha
      have hw : ∀ d ∈ ['\n',';',':'], Text.edge (some d) = true := by decide
      exact hw c hc

/-- A statement stands in the text behind a semicolon or a colon, with blanks between them perhaps. -/
def Follows (ms : List Text) (t : Text) : Prop := ∃ a s b v,
  t = a ++ s :: (b ++ v) ∧ startsStatement s = true ∧ (∀ c ∈ b, isBlank c = true) ∧
    ImportStatement ms v

theorem Follows.append {ms : List Text} {t : Text} (h : Follows ms t) (u : Text) :
    Follows ms (u ++ t) := by
  obtain ⟨a,s,b,v,rfl,hs,hb,hv⟩ := h
  exact ⟨u ++ a,s,b,v,by rw [List.append_assoc],hs,hb,hv⟩

theorem mem_importsAfter {t m : Text} (h : m ∈ importsAfter t) :
    ∃ ms, Follows ms t ∧ m ∈ ms := by
  induction t using importsAfter.induct with
  | case1 => simp [importsAfter] at h
  | case2 c cs ms r hs ih =>
    have e : importsAfter (c :: cs) = ms ++ importsAfter r := by
      rw [importsAfter]
      split <;> simp_all
    have hc : startsStatement c = true := by
      cases hc : startsStatement c with
      | true => rfl
      | false => simp [hc] at hs
    rw [dif_pos hc] at hs
    obtain ⟨⟨b,v,hb,ht,hv⟩,w,hw⟩ := importHere?_sound hs
    rw [e] at h
    rcases List.mem_append.1 h with h | h
    · exact ⟨ms,⟨[],c,b,v,by rw [ht]; rfl,hc,hb,hv⟩,h⟩
    · obtain ⟨ns,hn,hm⟩ := ih h
      exact ⟨ns,by rw [hw]; exact hn.append (c :: w),hm⟩
  | case3 c cs hs ih =>
    have e : importsAfter (c :: cs) = importsAfter cs := by
      rw [importsAfter]
      split <;> simp_all
    obtain ⟨ns,hn,hm⟩ := ih (e ▸ h)
    exact ⟨ns,hn.append [c],hm⟩

theorem mem_lineImports {l m : Text} (h : m ∈ lineImports l) : ∃ u v ms,
    l = u ++ v ∧ Begins u ∧ ImportStatement ms v ∧ m ∈ ms := by
  have later : ∀ {w r : Text}, l = w ++ r → m ∈ importsAfter r → ∃ u v ms,
      l = u ++ v ∧ Begins u ∧ ImportStatement ms v ∧ m ∈ ms := by
    intro w r hl hm
    obtain ⟨ms,⟨a,s,b,v,hr,hs,hb,hv⟩,hm⟩ := mem_importsAfter hm
    exact ⟨(w ++ (a ++ [s])) ++ b,v,ms,by rw [hl,hr]; simp,⟨_,b,rfl,hb,by simp [hs]⟩,hv,hm⟩
  rw [lineImports] at h
  split at h
  · rename_i ms r hs
    obtain ⟨⟨b,v,hb,ht,hv⟩,w,hw⟩ := importHere?_sound hs
    rcases List.mem_append.1 h with h | h
    · exact ⟨b,v,ms,ht,⟨[],b,rfl,hb,rfl⟩,hv,h⟩
    · exact later hw h
  · exact later (w := []) rfl h

/-- A statement that stands in a text, within one line and up to its end. -/
def Stands (ms : List Text) (v code : Text) : Prop := ∃ u w, code = u ++ (v ++ w) ∧ Begins u ∧
  ImportStatement ms v ∧ '\n' ∉ v ∧ LineEnd w

theorem mem_imports {code m : Text} (h : m ∈ imports code) : ∃ ms v, Stands ms v code ∧ m ∈ ms := by
  obtain ⟨l,hl,hm⟩ := List.mem_flatMap.1 h
  have hn := feed_not_mem_lines hl
  obtain ⟨a,w,hc,ha,hw⟩ := mem_lines hl
  obtain ⟨u,v,ms,rfl,hu,hv,hm⟩ := mem_lineImports hm
  exact ⟨ms,v,⟨a ++ u,w,by rw [hc]; simp,hu.append ha,hv,fun hf => hn (List.mem_append_right u hf),hw⟩,hm⟩

def importText (ms : List Text) : Text := "import".toList ++ ([' '] ++ joinWith [',',' '] ms)

theorem isModulePart_of_isIdentStart {c : Char} (h : isIdentStart c = true) :
    isModulePart c = true := by
  rw [isIdentStart,Bool.or_eq_true] at h
  rcases h with h | h <;> simp [isModulePart,Char.isAlphanum,h]

theorem isIdentStart_eq_false {c : Char} (h : isModulePart c = false) : isIdentStart c = false := by
  rw [Bool.eq_false_iff] at h ⊢
  exact fun hs => h (isModulePart_of_isIdentStart hs)

theorem mem_of_isModule {m : Text} {c : Char} (h : isModule m = true) (hc : c ∈ m) :
    isModulePart c = true := by
  cases m with
  | nil => simp at hc
  | cons d m =>
    rw [isModule,Bool.and_eq_true] at h
    rcases List.mem_cons.1 hc with rfl | hc
    · exact isModulePart_of_isIdentStart h.1
    · exact List.all_eq_true.1 h.2 c hc

theorem isBlank_of_isModulePart {c : Char} (h : isModulePart c = true) : isBlank c = false :=
  isBlank_eq_false_of (by decide) h

theorem firstWord_of_isModule {m b r : Text} (h : isModule m = true) (hb : ∀ c ∈ b, isBlank c = true)
    (hr : r.head?.any (fun c => !isBlank c) = false) : firstWord (b ++ (m ++ r)) = m := by
  have hm : ∀ c ∈ m, (!isBlank c) = true := by
    intro c hc
    simp [isBlank_of_isModulePart (mem_of_isModule h hc)]
  have hh : (m ++ r).head?.any isBlank = false := by
    cases m with
    | nil => simp [isModule] at h
    | cons c m => simpa using hm c List.mem_cons_self
  rw [firstWord,trimStart,List.dropWhile_append_of_pos hb,dropWhile_of_head hh,
    List.takeWhile_append_of_pos hm,takeWhile_of_head hr,List.append_nil]

theorem listedModule?_of_isModule {m b r : Text} (h : isModule m = true)
    (hb : ∀ c ∈ b, isBlank c = true) (hr : r.head?.any (fun c => !isBlank c) = false) :
    listedModule? (b ++ (m ++ r)) = some m := by
  rw [listedModule?,firstWord_of_isModule h hb hr,if_pos h]

theorem forall_mem_moduleList {p : Char → Prop} (hp : ∀ c, isModulePart c = true → p c)
    (hc : p ',') (hb : p ' ') {ms : List Text} (h : ∀ m ∈ ms, isModule m = true) :
    ∀ c ∈ joinWith [',',' '] ms, p c := by
  intro c hm
  rcases mem_joinWith hm with hm | ⟨m,hm,hd⟩
  · rcases List.mem_cons.1 hm with rfl | hm
    · exact hc
    · rw [List.mem_singleton.1 hm]
      exact hb
  · exact hp c (mem_of_isModule (h m hm) hd)

theorem splitOn_moduleList {n : Text} {ns : List Text} (h : ∀ m ∈ n :: ns, isModule m = true) :
    splitOn ',' (joinWith [',',' '] (n :: ns)) = n :: ns.map ([' '] ++ ·) := by
  have hk : ∀ m ∈ n :: ns, ',' ∉ m := fun m hm hc =>
    absurd (mem_of_isModule (h m hm) hc) (by decide)
  rw [← List.singleton_append,joinWith_append]
  refine splitOn_joinWith (List.cons_ne_nil _ _) fun p hp => ?_
  rcases List.mem_cons.1 hp with rfl | hp
  · exact hk p List.mem_cons_self
  · obtain ⟨m,hm,rfl⟩ := List.mem_map.1 hp
    simpa using hk m (List.mem_cons_of_mem _ hm)

theorem listed_moduleList {ms : List Text} (h : ∀ m ∈ ms, isModule m = true) :
    (ms.map ([' '] ++ ·)).filterMap listedModule? = ms := by
  induction ms with
  | nil => rfl
  | cons m ms ih =>
    have hm := listedModule?_of_isModule (b := [' ']) (r := []) (h m List.mem_cons_self)
      (by simp [isBlank]) rfl
    rw [List.append_nil] at hm
    rw [List.map_cons,List.filterMap_cons_some hm,ih fun k hk => h k (List.mem_cons_of_mem _ hk)]

theorem head_moduleList {n : Text} (ns : List Text) (h : isModule n = true) :
    (joinWith [',',' '] (n :: ns)).head?.any isBlank = false := by
  cases n with
  | nil => simp [isModule] at h
  | cons c n =>
    have hc := isBlank_of_isModulePart (mem_of_isModule h List.mem_cons_self)
    cases ns with
    | nil => simpa [joinWith] using hc
    | cons m ns => simpa [joinWith] using hc

/-- Blanks stand only behind commas, the first character apart. -/
def Spaced (t : Text) : Prop := t.IsChain fun c d => isBlank d = true → c = ','

theorem Spaced.cons {t : Text} {c : Char} (h : Spaced t) (ht : t.head?.any isBlank = false) :
    Spaced (c :: t) := by
  refine List.isChain_cons.2 ⟨fun d hd hb => ?_,h⟩
  rw [Option.mem_def.1 hd,Option.any_some,hb] at ht
  exact absurd ht (by decide)

theorem spaced_moduleList {ms : List Text} (h : ∀ m ∈ ms, isModule m = true) :
    Spaced (joinWith [',',' '] ms) := by
  have hw : ∀ m ∈ ms, Spaced m := fun m hm =>
    List.isChain_iff_forall_rel_of_append_cons_cons.2 fun c d l r e hb => by
      have hd := isBlank_of_isModulePart (mem_of_isModule (h m hm) (c := d) (by simp [e]))
      rw [hd] at hb
      exact absurd hb (by decide)
  induction ms using joinWith.induct with
  | case1 => exact .nil
  | case2 m => exact hw m List.mem_cons_self
  | case3 m ms hn ih =>
    have ht : ∀ k ∈ ms, isModule k = true := fun k hk => h k (List.mem_cons_of_mem _ hk)
    have hs := ih ht fun k hk => hw k (List.mem_cons_of_mem _ hk)
    obtain ⟨k,ks,rfl⟩ := List.exists_cons_of_ne_nil hn
    have hk := head_moduleList ks (ht k List.mem_cons_self)
    rw [joinWith.eq_3 _ _ _ hn,List.append_assoc]
    refine List.isChain_append.2 ⟨hw m List.mem_cons_self,.cons_cons (fun _ => rfl) (hs.cons hk),?_⟩
    intro c _ d hd hb
    rw [← Option.some.inj hd] at hb
    exact absurd hb (by decide)

theorem blank_importText {n : Text} {ns : List Text} (h : ∀ m ∈ n :: ns, isModule m = true)
    {a z : Text} {c d : Char} (e : importText (n :: ns) = a ++ c :: d :: z) (hd : isBlank d = true)
    (hc : c ≠ ',') : a ++ [c] = "import".toList ∧ z = joinWith [',',' '] (n :: ns) := by
  have hs : Spaced (' ' :: joinWith [',',' '] (n :: ns)) :=
    (spaced_moduleList h).cons (head_moduleList ns (h n List.mem_cons_self))
  rw [← List.singleton_append (l := d :: z),← List.append_assoc] at e
  rcases List.append_eq_append_iff.1 e with ⟨b,he,hb⟩ | ⟨b,he,hb⟩
  · cases b using List.reverseRecOn with
    | nil => exact ⟨by rw [he,List.append_nil],(List.cons_eq_cons.1 hb).2.symm⟩
    | append_singleton b g =>
      rw [← List.append_assoc] at he
      obtain ⟨-,hg⟩ := List.append_inj' he rfl
      rw [List.append_assoc,← hg] at hb
      exact absurd (List.isChain_iff_forall_rel_of_append_cons_cons.1 hs hb hd) hc
  · cases b with
    | nil => exact ⟨by rw [he,List.append_nil],(List.cons_eq_cons.1 hb).2⟩
    | cons g b =>
      have hm : d ∈ "import".toList := by
        rw [he,(List.cons_eq_cons.1 hb).1]
        simp
      have hn : ("import".toList.all fun k => !isBlank k) = true := rfl
      have hk := List.all_eq_true.1 hn d hm
      rw [hd] at hk
      exact absurd hk (by decide)

theorem importList?_importText {n : Text} {ns : List Text} (h : ∀ m ∈ n :: ns, isModule m = true) :
    importList? (importText (n :: ns)) = some (n :: ns,[]) := by
  have hn := h n List.mem_cons_self
  have ha : after? "import".toList (importText (n :: ns)) =
      some ([' '] ++ joinWith [',',' '] (n :: ns)) := after?_eq_some_iff.2 rfl
  have hb : blanks? ([' '] ++ joinWith [',',' '] (n :: ns)) = some (joinWith [',',' '] (n :: ns)) :=
    blanks?_append ⟨List.cons_ne_nil _ _,by simp [isBlank]⟩ (head_moduleList ns hn)
  have hi : ∀ c ∈ joinWith [',',' '] (n :: ns), (!endsList c) = true := by
    refine forall_mem_moduleList (p := fun c => (!endsList c) = true) (fun c hc => ?_) rfl rfl h
    cases he : endsList c with
    | false => rfl
    | true =>
      have he : c = ';' ∨ c = '#' := by simpa [endsList] using he
      rcases he with rfl | rfl <;> exact absurd hc (by decide)
  have hm : listedModule? n = some n := by
    simpa using listedModule?_of_isModule (b := []) (r := []) hn (by simp) rfl
  have ht : (joinWith [',',' '] (n :: ns)).takeWhile (fun c => !endsList c) =
      joinWith [',',' '] (n :: ns) := List.takeWhile_eq_self_iff.2 hi
  have hd : (joinWith [',',' '] (n :: ns)).dropWhile (fun c => !endsList c) = [] :=
    List.dropWhile_eq_nil_iff.2 hi
  have hs : (splitOn ',' (joinWith [',',' '] (n :: ns))).filterMap listedModule? = n :: ns := by
    rw [splitOn_moduleList h,List.filterMap_cons_some hm,
      listed_moduleList fun m hm => h m (List.mem_cons_of_mem _ hm)]
  simp only [importList?,ha,hb,ht,hd]
  cases hj : joinWith [',',' '] (n :: ns) with
  | nil =>
    rw [hj] at hs
    exact absurd (show [] = n :: ns from hs) (List.cons_ne_nil _ _).symm
  | cons c l =>
    rw [hj] at hs
    simp only [hs]

theorem imports_importText {n : Text} {ns : List Text} (h : ∀ m ∈ n :: ns, isModule m = true) :
    imports (importText (n :: ns)) = n :: ns := by
  have hl : '\n' ∉ importText (n :: ns) := by
    intro hc
    rcases List.mem_append.1 hc with hc | hc
    · exact absurd hc (by decide)
    · rcases List.mem_append.1 hc with hc | hc
      · exact absurd hc (by decide)
      · have hp : ∀ c, isModulePart c = true → c ≠ '\n' := fun c hc e => by
          rw [e] at hc
          exact absurd hc (by decide)
        exact forall_mem_moduleList hp (by decide) (by decide) h _ hc rfl
  have hn : importText (n :: ns) ≠ [] := List.cons_ne_nil _ _
  have ht : trimStart (importText (n :: ns)) = importText (n :: ns) := rfl
  have hs : importHere? (importText (n :: ns)) = some (n :: ns,[]) := by
    simp only [importHere?,ht,importList?_importText h]
  have hi : lineImports (importText (n :: ns)) = n :: ns := by
    simp only [lineImports,hs,importsAfter,List.append_nil]
  rw [imports,lines_of_not_mem hn hl,List.flatMap_singleton,hi]

end Workbench.Source
