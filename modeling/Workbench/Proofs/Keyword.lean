import Workbench.Keyword
import Workbench.Proofs.Text.Blank
import Workbench.Proofs.Text.Lines
import Workbench.Proofs.Text.Lowercase
set_option autoImplicit false

/-!
The words of a description are its longest runs of letters and digits, lowered, and the first rule
that applies to them decides. More words never move the choice to a later rule, and neither the order of
the words nor how often they stand in the text makes a difference.
-/
namespace Workbench
open Text

/-- A run of letters and digits that neither what stands in front of it nor what stands behind it
continues. -/
def IsWord (w t : Text) : Prop := ∃ a b, t = a ++ (w ++ b) ∧ w ≠ [] ∧
  (∀ c ∈ w, isAlphanumeric c = true) ∧ a.getLast?.any isAlphanumeric = false ∧
  b.head?.any isAlphanumeric = false

def runs (t : Text) : List Text :=
  (splitWhere (fun c => !isAlphanumeric c) t).filter fun w => !w.isEmpty

theorem runs_append {s : Char} (hs : isAlphanumeric s = false) (a b : Text) :
    runs (a ++ s :: b) = runs a ++ runs b := by
  rw [runs,splitWhere_append (by simp [hs]),List.filter_append]
  rfl

theorem runs_of_forall {w : Text} (hn : w ≠ []) (h : ∀ c ∈ w, isAlphanumeric c = true) :
    runs w = [w] := by
  have hw : splitWhere (fun c => !isAlphanumeric c) w = [w] :=
    splitWhere_of_forall fun c hc => by simp [h c hc]
  simp [runs,hw,hn]

theorem isWord_of_mem_runs {w t : Text} (h : w ∈ runs t) : IsWord w t := by
  -- The text is its first run and what follows it, which is over or starts with a separator.
  obtain ⟨l,r,rfl,-,-,hl,hr⟩ := exists_span isAlphanumeric t
  have here : ∀ v ∈ runs l, IsWord v (l ++ r) := by
    intro v hv
    cases l with
    | nil => simp [runs,splitWhere] at hv
    | cons c l =>
      rw [runs_of_forall (List.cons_ne_nil _ _) hl] at hv
      rw [List.mem_singleton.1 hv]
      exact ⟨[],r,rfl,List.cons_ne_nil _ _,hl,rfl,hr⟩
  cases r with
  | nil =>
    rw [List.append_nil] at h
    exact here w h
  | cons s u =>
    have hs : isAlphanumeric s = false := by simpa using hr
    rw [runs_append hs,List.mem_append] at h
    rcases h with h | h
    · exact here w h
    · obtain ⟨a,b,rfl,hn,hw,ha,hb⟩ := isWord_of_mem_runs h
      refine ⟨l ++ s :: a,b,by simp,hn,hw,?_,hb⟩
      cases a with
      | nil => simp [hs]
      | cons d a => simpa [List.getLast?_cons] using ha
termination_by t.length
decreasing_by simp_all; omega

theorem mem_runs_iff {w t : Text} : w ∈ runs t ↔ IsWord w t := by
  refine ⟨isWord_of_mem_runs,?_⟩
  rintro ⟨a,b,rfl,hn,hw,ha,hb⟩
  have hr : w ∈ runs (w ++ b) := by
    cases b with
    | nil => simp [runs_of_forall hn hw]
    | cons s b =>
      have hs : isAlphanumeric s = false := by simpa using hb
      simp [runs_append hs,runs_of_forall hn hw]
  rcases List.eq_nil_or_concat a with rfl | ⟨a,s,rfl⟩
  · exact hr
  · have hs : isAlphanumeric s = false := by simpa using ha
    rw [List.concat_eq_append,List.append_assoc,List.singleton_append,runs_append hs]
    exact List.mem_append_right _ hr

theorem isWord_append {s : Char} (hs : isAlphanumeric s = false) {w a b : Text} :
    IsWord w (a ++ s :: b) ↔ IsWord w a ∨ IsWord w b := by
  simp only [← mem_runs_iff,runs_append hs,List.mem_append]

theorem mem_words_iff {v t : Text} : v ∈ words t ↔ ∃ w, IsWord w t ∧ lower w = v := by
  simp only [← mem_runs_iff]
  rw [words,mem_sortDistinct,List.mem_map]
  rfl

theorem runs_lowerAscii (t : Text) : runs (lowerAscii t) = (runs t).map lowerAscii := by
  have hs : ∀ c : Char, (!isAlphanumeric c.toLower) = !isAlphanumeric c := fun c => by
    rw [isAlphanumeric_toLower]
  rw [runs,lowerAscii,splitWhere_map hs,List.filter_map]
  exact congrArg (List.map lowerAscii) (List.filter_congr fun w _ => by simp)

theorem words_lowerAscii (t : Text) : words (lowerAscii t) = words t := by
  have hl : lower ∘ lowerAscii = lower := funext lower_lowerAscii
  calc words (lowerAscii t)
      = sortDistinct ((runs (lowerAscii t)).map lower) := rfl
    _ = sortDistinct ((runs t).map lower) := by rw [runs_lowerAscii,List.map_map,hl]
    _ = words t := rfl

/-- A text has the words that stand in it, lowered each by itself. What a separator divides has the
words of both parts, and the case of ASCII letters makes no difference, whatever letters they stand
beside. -/
theorem words_union_caseless :
    (∀ t v, v ∈ words t ↔ ∃ w, IsWord w t ∧ lower w = v) ∧
    (∀ a b s, isAlphanumeric s = false →
      ∀ v, v ∈ words (a ++ s :: b) ↔ v ∈ words a ∨ v ∈ words b) ∧
    ∀ t u, SameLetters t u → words t = words u := by
  refine ⟨fun _ _ => mem_words_iff,fun a b s hs v => ?_,fun t u h => ?_⟩
  · simp only [mem_words_iff,isWord_append hs,or_and_right,exists_or]
  · rw [← words_lowerAscii t,h.lowerAscii_eq,words_lowerAscii]

theorem words_union_caseless_sigma : isAlphanumeric '.' = false ∧
    (∀ v, v ∈ words ("ABΣ".toList ++ '.' :: "İΣx".toList) ↔
      v ∈ words "ABΣ".toList ∨ v ∈ words "İΣx".toList) ∧
    words "ABΣ".toList = ["abς".toList] ∧ words "İΣx".toList = ["i\u0307σx".toList] ∧
    SameLetters "ABΣ.İΣx".toList "aBΣ.İΣX".toList ∧
    words "ABΣ.İΣx".toList = words "aBΣ.İΣX".toList := by
  obtain ⟨-,hu,hc⟩ := words_union_caseless
  have hs : isAlphanumeric '.' = false := by decide +kernel
  have hl : SameLetters "ABΣ.İΣx".toList "aBΣ.İΣX".toList := by
    simp [SameLetters]
  exact ⟨hs,hu _ _ _ hs,by decide +kernel,by decide +kernel,hl,hc _ _ hl⟩

/-- The same words, whatever their order, their number and what stands between them. -/
def SameWords (t u : Text) : Prop := ∀ w, IsWord w t ↔ IsWord w u

def Matching.Fits (m : Matching) (w k : Text) : Prop :=
  match m with
  | .whole => w = k
  | .start => k <+: w

theorem Matching.holds_iff (m : Matching) (w k : Text) : m.holds w k = true ↔ m.Fits w k := by
  cases m with
  | whole => exact beq_iff_eq
  | start =>
    rw [holds,Option.isSome_iff_exists]
    exact exists_congr fun r => after?_eq_some_iff.trans eq_comm

namespace KeywordRule
variable {α : Type}

/-- Each clause has a keyword that some word of the text fits. -/
def Applies (r : KeywordRule α) (t : Text) : Prop :=
  ∀ clause ∈ r.clauses, ∃ k ∈ clause, ∃ w, IsWord w t ∧ r.matching.Fits (lower w) k

theorem holds_iff (r : KeywordRule α) (t : Text) : r.holds (words t) = true ↔ r.Applies t := by
  simp only [holds,Applies,List.all_eq_true,List.any_eq_true,Matching.holds_iff,mem_words_iff]
  constructor
  · intro h clause hc
    obtain ⟨k,hk,-,⟨w,hw,rfl⟩,hf⟩ := h clause hc
    exact ⟨k,hk,w,hw,hf⟩
  · intro h clause hc
    obtain ⟨k,hk,w,hw,hf⟩ := h clause hc
    exact ⟨k,hk,lower w,⟨w,hw,rfl⟩,hf⟩

theorem Applies.mono {r : KeywordRule α} {t u : Text} (h : ∀ w, IsWord w t → IsWord w u)
    (hr : r.Applies t) : r.Applies u := by
  intro clause hc
  obtain ⟨k,hk,w,hw,hf⟩ := hr clause hc
  exact ⟨k,hk,w,h w hw,hf⟩

/-- The place of the rule that decides; the number of rules if none does. -/
def rank (rules : List (KeywordRule α)) (t : Text) : Nat :=
  rules.findIdx fun r => r.holds (words t)

/-- The rule at `i` is the first one that applies, or `i` is the number of rules and none applies. -/
structure IsFirst (rules : List (KeywordRule α)) (t : Text) (i : Nat) : Prop where
  le_length : i ≤ rules.length
  applies : ∀ h : i < rules.length, rules[i].Applies t
  least : ∀ j, (h : j < rules.length) → j < i → ¬ rules[j].Applies t

theorem isFirst_rank (rules : List (KeywordRule α)) (t : Text) :
    IsFirst rules t (rank rules t) where
  le_length := List.findIdx_le_length
  applies := fun h => (holds_iff _ t).1 (List.findIdx_getElem (w := h))
  least := by
    intro j hj hlt ha
    have hn := List.not_of_lt_findIdx hlt
    exact absurd ((holds_iff _ t).2 ha) (by simpa using hn)

theorem select_eq (rules : List (KeywordRule α)) (fallback : α) (t : Text) :
    select rules fallback t = (rules[rank rules t]?).elim fallback (·.target) := by
  rw [select,rank,← List.find?_eq_getElem?_findIdx]
  cases rules.find? fun r => r.holds (words t) <;> rfl

theorem rank_le_rank (rules : List (KeywordRule α)) {t u : Text}
    (h : ∀ w, IsWord w t → IsWord w u) : rank rules u ≤ rank rules t := by
  refine List.findIdx_le_findIdx fun r _ hr => ?_
  rw [holds_iff] at hr ⊢
  exact hr.mono h

theorem rank_append_le (rules : List (KeywordRule α)) (a b : Text) {s : Char}
    (hs : isAlphanumeric s = false) :
    rank rules (a ++ s :: b) ≤ min (rank rules a) (rank rules b) :=
  Nat.le_min.2 ⟨rank_le_rank rules fun _ hw => (isWord_append hs).2 (.inl hw),
    rank_le_rank rules fun _ hw => (isWord_append hs).2 (.inr hw)⟩

theorem rank_congr (rules : List (KeywordRule α)) {t u : Text} (h : SameWords t u) :
    rank rules t = rank rules u :=
  Nat.le_antisymm (rank_le_rank rules fun w => (h w).2) (rank_le_rank rules fun w => (h w).1)

/-- For every table of rules, the first rule that applies decides. A text that a separator divides is
decided no later than either of its parts, and texts of the same words are decided alike. -/
theorem select_first (rules : List (KeywordRule α)) (fallback : α) :
    (∀ t, IsFirst rules t (rank rules t) ∧
      select rules fallback t = (rules[rank rules t]?).elim fallback (·.target)) ∧
    (∀ a b s, isAlphanumeric s = false →
      rank rules (a ++ s :: b) ≤ min (rank rules a) (rank rules b)) ∧
    ∀ t u, SameWords t u → rank rules t = rank rules u ∧
      select rules fallback t = select rules fallback u := by
  refine ⟨fun t => ⟨isFirst_rank rules t,select_eq rules fallback t⟩,
    fun a b s hs => rank_append_le rules a b hs,fun t u h => ?_⟩
  have hr := rank_congr rules h
  exact ⟨hr,by rw [select_eq,select_eq,hr]⟩

def sampleRules : List (KeywordRule Nat) :=
  [⟨1,[["flask".toList],["api".toList,"apis".toList]],.whole⟩,⟨2,[["react".toList]],.start⟩]

theorem select_first_halves : isAlphanumeric '-' = false ∧
    rank sampleRules "a FLASK".toList = 2 ∧ rank sampleRules "ReactJS api".toList = 1 ∧
    rank sampleRules ("a FLASK".toList ++ '-' :: "ReactJS api".toList) ≤ min 2 1 ∧
    SameWords "vue, React".toList "React vue (React)".toList ∧
    select sampleRules 0 "vue, React".toList = select sampleRules 0 "React vue (React)".toList := by
  have hs : isAlphanumeric '-' = false := by decide +kernel
  have ha : rank sampleRules "a FLASK".toList = 2 := by decide +kernel
  have hb : rank sampleRules "ReactJS api".toList = 1 := by decide +kernel
  have hw : SameWords "vue, React".toList "React vue (React)".toList := by
    have ht : runs "vue, React".toList = ["vue".toList,"React".toList] := by decide +kernel
    have hu : runs "React vue (React)".toList = ["React".toList,"vue".toList,"React".toList] := by
      decide +kernel
    intro w
    rw [← mem_runs_iff,← mem_runs_iff,ht,hu]
    simp [or_comm]
  obtain ⟨-,hm,hc⟩ := select_first sampleRules 0
  have h := hm "a FLASK".toList "ReactJS api".toList '-' hs
  rw [ha,hb] at h
  exact ⟨hs,ha,hb,h,hw,(hc _ _ hw).2⟩

end KeywordRule
end Workbench
