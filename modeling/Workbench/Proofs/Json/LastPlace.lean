import Mathlib.Data.List.Basic
import Workbench.Json.Value
set_option autoImplicit false

/-!
The part of a value that is written last. In the text on several lines everything in front of it and
behind it is the same whatever stands there.
-/
namespace Workbench.Json

/-- A value with its last place left open. -/
inductive LastPlace : (Json → Json) → Prop where
  | here : LastPlace fun v => v
  | item (vs : List Json) {f : Json → Json} (h : LastPlace f) :
    LastPlace fun v => .array (vs ++ [f v])
  | member (ms : List (Text × Json)) (k : Text) {f : Json → Json} (h : LastPlace f) :
    LastPlace fun v => .object (ms ++ [(k,f v)])

def isLeaf : Json → Bool
  | .array (_ :: _) => false
  | .object (_ :: _) => false
  | _ => true

theorem isLeaf_array {vs : List Json} (h : isLeaf (.array vs) = true) : vs = [] := by
  cases vs with
  | nil => rfl
  | cons v vs => cases h

theorem isLeaf_object {ms : List (Text × Json)} (h : isLeaf (.object ms) = true) : ms = [] := by
  cases ms with
  | nil => rfl
  | cons m ms => cases h

theorem exists_lastPlace (v : Json) : ∃ f l, LastPlace f ∧ isLeaf l = true ∧ v = f l := by
  match v with
  | .null => exact ⟨_,.null,.here,rfl,rfl⟩
  | .bool b => exact ⟨_,.bool b,.here,rfl,rfl⟩
  | .int n => exact ⟨_,.int n,.here,rfl,rfl⟩
  | .float x => exact ⟨_,.float x,.here,rfl,rfl⟩
  | .string t => exact ⟨_,.string t,.here,rfl,rfl⟩
  | .array vs =>
    rcases List.eq_nil_or_concat' vs with hv | ⟨us,w,hv⟩
    · exact ⟨_,.array [],.here,rfl,by rw [hv]⟩
    · obtain ⟨f,l,hf,hl,hw⟩ := exists_lastPlace w
      exact ⟨_,l,.item us hf,hl,by rw [hv,hw]⟩
  | .object ms =>
    rcases List.eq_nil_or_concat' ms with hm | ⟨ns,⟨k,w⟩,hm⟩
    · exact ⟨_,.object [],.here,rfl,by rw [hm]⟩
    · obtain ⟨f,l,hf,hl,hw⟩ := exists_lastPlace w
      exact ⟨_,l,.member ns k hf,hl,by rw [hm,hw]⟩
termination_by sizeOf v
decreasing_by
  · have h := List.sizeOf_lt_of_mem (show w ∈ vs by simp [hv])
    simp only [Json.array.sizeOf_spec]
    omega
  · have h := List.sizeOf_lt_of_mem (show (k,w) ∈ ms by simp [hm])
    simp only [Json.object.sizeOf_spec,Prod.mk.sizeOf_spec] at h ⊢
    omega

namespace LastPlace
variable {f : Json → Json} (hf : LastPlace f) {t : Text}
include hf

theorem member_cases (ms : List (Text × Json)) {k : Text} {v : Json}
    (h : .object (ms ++ [(k,v)]) = f (.string t)) :
    ∃ g, LastPlace g ∧ v = g (.string t) ∧ ∀ l, f l = .object (ms ++ [(k,g l)]) := by
  cases hf with
  | here => cases h
  | item vs hg => cases h
  | member ns n hg =>
    obtain ⟨rfl,hm⟩ := List.append_inj' (Json.object.inj h) rfl
    obtain ⟨rfl,rfl⟩ := Prod.mk.inj (List.singleton_inj.1 hm)
    exact ⟨_,hg,rfl,fun _ => rfl⟩

theorem leaf_cases {v : Json} (hv : isLeaf v = true) (h : v = f (.string t)) :
    v = .string t ∧ ∀ l, f l = l := by
  cases hf with
  | here => exact ⟨h,fun _ => rfl⟩
  | item vs hg =>
    rw [h] at hv
    exact absurd (isLeaf_array hv) (by simp)
  | member ms k hg =>
    rw [h] at hv
    exact absurd (isLeaf_object hv) (by simp)

end LastPlace

theorem prettyItems_append (d : Nat) (vs : List Json) (v : Json) : prettyItems d (vs ++ [v]) =
    (vs.flatMap fun w => prettyAt (d+1) w ++ [','] ++ lineAt (d+1)) ++
      (prettyAt (d+1) v ++ (lineAt d ++ [']'])) := by
  induction vs with
  | nil => simp [prettyItems]
  | cons w vs ih =>
    cases vs with
    | nil => simp [prettyItems]
    | cons x vs => simpa [prettyItems] using ih

theorem prettyMembers_append (d : Nat) (ms : List (Text × Json)) (k : Text) (v : Json) :
    prettyMembers d (ms ++ [(k,v)]) =
      (ms.flatMap fun m => stringText m.1 ++ ": ".toList ++ prettyAt (d+1) m.2 ++ [','] ++
        lineAt (d+1)) ++ (stringText k ++ ": ".toList) ++
          (prettyAt (d+1) v ++ (lineAt d ++ ['\x7d'])) := by
  induction ms with
  | nil => simp [prettyMembers]
  | cons m ms ih =>
    cases ms with
    | nil => simp [prettyMembers]
    | cons n ms => simpa [prettyMembers] using ih

theorem prettyAt_of_isLeaf {l : Json} (h : isLeaf l = true) (d : Nat) :
    prettyAt d l = l.pretty := by
  cases l with
  | array vs =>
    rw [isLeaf_array h]
    rfl
  | object ms =>
    rw [isLeaf_object h]
    rfl
  | bool b => cases b <;> rfl
  | _ => rfl

theorem LastPlace.prettyAt {f : Json → Json} (h : LastPlace f) (d : Nat) :
    ∃ b a, ∀ l, isLeaf l = true → (f l).prettyAt d = b ++ (l.pretty ++ a) := by
  induction h generalizing d with
  | here => exact ⟨[],[],fun l hl => by rw [prettyAt_of_isLeaf hl,List.append_nil,List.nil_append]⟩
  | item vs _ ih =>
    obtain ⟨b,a,hb⟩ := ih (d+1)
    refine ⟨'[' :: lineAt (d+1) ++ (vs.flatMap fun w => Json.prettyAt (d+1) w ++ [','] ++
      lineAt (d+1)) ++ b,a ++ (lineAt d ++ [']']),fun l hl => ?_⟩
    have he : ∀ ws : List Json, ws ≠ [] → Json.prettyAt d (.array ws) =
        '[' :: lineAt (d+1) ++ prettyItems d ws := by
      intro ws hw
      obtain ⟨v,vs,rfl⟩ := List.exists_cons_of_ne_nil hw
      rfl
    rw [he _ (by simp),prettyItems_append,hb l hl]
    simp
  | member ms k _ ih =>
    obtain ⟨b,a,hb⟩ := ih (d+1)
    refine ⟨'\x7b' :: lineAt (d+1) ++ (ms.flatMap fun m => stringText m.1 ++ ": ".toList ++
      Json.prettyAt (d+1) m.2 ++ [','] ++ lineAt (d+1)) ++ (stringText k ++ ": ".toList) ++ b,
      a ++ (lineAt d ++ ['\x7d']),fun l hl => ?_⟩
    have he : ∀ ns : List (Text × Json), ns ≠ [] → Json.prettyAt d (.object ns) =
        '\x7b' :: lineAt (d+1) ++ prettyMembers d ns := by
      intro ns hn
      obtain ⟨m,ms,rfl⟩ := List.exists_cons_of_ne_nil hn
      rfl
    rw [he _ (by simp),prettyMembers_append,hb l hl]
    simp

end Workbench.Json
