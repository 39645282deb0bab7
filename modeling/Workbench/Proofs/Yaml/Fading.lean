import Workbench.Command.Run
import Workbench.Proofs.Json.StringText
import Workbench.Proofs.Yaml.Document
import Workbench.Proofs.Yaml.Twin
set_option autoImplicit false

/-!
What trimming takes of a document: the final line feed and nothing else, unless the value ends in a
text that fades. Of the texts in which values are shown the one format then tells apart what the
other does.
-/
namespace Workbench.Yaml
open Text Json

theorem whole_unblank (b : Text) {t : Text} (hu : Unblank t) (ht : t ≠ []) : Whole (b ++ t) := by
  obtain rfl | ⟨s,c,rfl⟩ := List.eq_nil_or_concat' t
  · exact absurd rfl ht
  · rw [← List.append_assoc]
    exact whole_concat _ (hu c (by simp))

theorem unblank_leaf (n : Nat) {l : Json} (hl : isLeaf l = true) (ht : ∀ t, l ≠ .string t) :
    Unblank (inner n l) ∧ inner n l ≠ [] := by
  cases l with
  | null =>
    rw [inner]
    decide
  | bool x =>
    cases x <;> (rw [inner]; decide)
  | int i =>
    rw [inner,intText]
    have hd := unblank_decimal i.natAbs
    split
    · exact ⟨unblank_cons (by decide) hd,List.cons_ne_nil _ _⟩
    · exact ⟨hd,decimal_ne_nil _⟩
  | float x =>
    rw [inner]
    exact x.unblank_text _
  | string t => exact absurd rfl (ht t)
  | array vs =>
    rw [isLeaf_array hl,inner]
    decide
  | object ms =>
    rw [isLeaf_object hl,inner]
    decide

/-- The value ends in a text that fades. -/
def Fades (v : Json) : Prop := ∃ f t, LastPlace f ∧ v = f (.string t) ∧ fades t = true

/-- Trimming takes the final line feed of a document and nothing else, but for values that end in a
text that fades. -/
theorem document_eq_iff (v : Json) :
    document v = Format.yaml.render v ++ ['\n'] ↔ ¬ Fades v := by
  change onNewLine (inner 0 v) = trimEnd (onNewLine (inner 0 v)) ++ ['\n'] ↔ _
  rw [trimEnd_onNewLine]
  change Whole (inner 0 v) ↔ _
  constructor
  · rintro hw ⟨f,t,hf,rfl,ht⟩
    obtain ⟨b,m,hb⟩ := inner_lastPlace hf 0
    rw [hb _ rfl] at hw
    have hs := (whole_scalar_iff b m t).1 hw
    rw [ht] at hs
    cases hs
  · intro hn
    obtain ⟨f,l,hf,hl,rfl⟩ := exists_lastPlace v
    obtain ⟨b,m,hb⟩ := inner_lastPlace hf 0
    rw [hb l hl]
    by_cases ht : ∃ t, l = .string t
    · obtain ⟨t,rfl⟩ := ht
      refine (whole_scalar_iff b m t).2 ?_
      rw [Bool.eq_false_iff]
      exact fun h => hn ⟨f,t,hf,rfl,h⟩
    · obtain ⟨hu,he⟩ := unblank_leaf m hl (not_exists.1 ht)
      exact whole_unblank b hu he

/-- In the place of a text that fades another text is shown alike in one format, but not in the other. -/
theorem exists_alike {f : Json → Json} (hf : LastPlace f) {t : Text} (ht : fades t = true) :
    ∃ u, Format.yaml.render (f (.string u)) = Format.yaml.render (f (.string t)) ∧
      Format.json.render (f (.string u)) ≠ Format.json.render (f (.string t)) := by
  obtain ⟨u,hu,he⟩ := exists_twin ht
  refine ⟨u,?_,fun h => hu ?_⟩
  · obtain ⟨b,m,hb⟩ := inner_lastPlace hf 0
    change trimEnd (onNewLine (inner 0 _)) = trimEnd (onNewLine (inner 0 _))
    rw [trimEnd_onNewLine,trimEnd_onNewLine,hb _ rfl,hb _ rfl]
    exact he b m
  · obtain ⟨b,a,hb⟩ := hf.prettyAt 0
    change Json.prettyAt 0 _ = Json.prettyAt 0 _ at h
    rw [hb _ rfl,hb _ rfl] at h
    exact stringText_injective (List.append_cancel_right (List.append_cancel_left h))

theorem render_eq_iff {v w : Json} (hv : ¬ Fades v) (hw : ¬ Fades w) :
    Format.yaml.render v = Format.yaml.render w ↔ document v = document w := by
  constructor
  · intro h
    rw [(document_eq_iff v).2 hv,(document_eq_iff w).2 hw,h]
  · intro h
    exact congrArg trimEnd h

end Workbench.Yaml
