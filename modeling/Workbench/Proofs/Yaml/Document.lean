import Workbench.Proofs.Json.LastPlace
import Workbench.Yaml.Writer
set_option autoImplicit false

/-!
A document ends as the leaf in its last place does: everything in front of it is the same whatever
leaf stands there.
-/
namespace Workbench.Yaml
open Text Json

theorem stacked_append (n : Nat) (ts : List Text) (t : Text) :
    stacked n (ts ++ [t]) = (ts.flatMap fun u => onNewLine u ++ spaces n) ++ t := by
  induction ts with
  | nil => rfl
  | cons u ts ih =>
    cases ts with
    | nil => simp [stacked]
    | cons w ts => simpa [stacked] using ih

theorem items_append (n : Nat) (vs : List Json) (v : Json) :
    items n (vs ++ [v]) = items n vs ++ ["- ".toList ++ inner (n+2) v] := by
  induction vs with
  | nil => rfl
  | cons w vs ih => simp [items,ih]

theorem entries_append (n : Nat) (ms : List (Text × Json)) (k : Text) (v : Json) :
    entries n (ms ++ [(k,v)]) =
      entries n ms ++ [entry n k (behindKey n v) (inner (n+2) v)] := by
  induction ms with
  | nil => rfl
  | cons m ms ih => simp [entries,ih]

theorem inner_array (n : Nat) {vs : List Json} (h : vs ≠ []) :
    inner n (.array vs) = stacked n (items n vs) ∧
      behindKey n (.array vs) = ['\n'] ++ spaces n ++ stacked n (items n vs) := by
  obtain ⟨v,vs,rfl⟩ := List.exists_cons_of_ne_nil h
  exact ⟨rfl,rfl⟩

theorem inner_object (n : Nat) {ms : List (Text × Json)} (h : ms ≠ []) :
    inner n (.object ms) = stacked n (entries n ms) ∧
      behindKey n (.object ms) = ['\n'] ++ spaces (n+2) ++ stacked (n+2) (entries (n+2) ms) := by
  obtain ⟨m,ms,rfl⟩ := List.exists_cons_of_ne_nil h
  exact ⟨rfl,rfl⟩

theorem behindKey_of_isLeaf {l : Json} (h : isLeaf l = true) (n : Nat) :
    behindKey n l = ' ' :: inner (n+2) l := by
  cases l with
  | array vs =>
    rw [isLeaf_array h]
    rfl
  | object ms =>
    rw [isLeaf_object h]
    rfl
  | bool b => cases b <;> rfl
  | _ => rfl

def EndsIn (t : Json → Text) : Prop :=
  ∃ b m, ∀ l, isLeaf l = true → t l = b ++ inner m l

theorem EndsIn.append {t : Json → Text} (h : EndsIn t) (s : Text) : EndsIn fun l => s ++ t l := by
  obtain ⟨b,m,hb⟩ := h
  exact ⟨s ++ b,m,fun l hl => by simp only [hb l hl,List.append_assoc]⟩

theorem EndsIn.entry {f : Json → Json} (n : Nat) (k : Text) (hk : EndsIn fun l => behindKey n (f l))
    (hi : EndsIn fun l => inner (n+2) (f l)) :
    EndsIn fun l => entry n k (behindKey n (f l)) (inner (n+2) (f l)) := by
  unfold Yaml.entry
  split
  · exact hk.append _
  · exact hi.append _

theorem endsIn_lastPlace {f : Json → Json} (h : LastPlace f) (n : Nat) :
    EndsIn (fun l => inner n (f l)) ∧ EndsIn (fun l => behindKey n (f l)) := by
  induction h generalizing n with
  | here =>
    exact ⟨⟨[],n,fun l _ => rfl⟩,[' '],n+2,fun l hl => behindKey_of_isLeaf hl n⟩
  | @item vs f _ ih =>
    have hs : EndsIn fun l => stacked n (items n (vs ++ [f l])) := by
      simp only [items_append,stacked_append]
      exact ((ih (n+2)).1.append _).append _
    have hn : ∀ l, vs ++ [f l] ≠ [] := by simp
    simp only [inner_array n (hn _)]
    exact ⟨hs,hs.append _⟩
  | @member ms k f _ ih =>
    have hs : ∀ n, EndsIn fun l => stacked n (entries n (ms ++ [(k,f l)])) := by
      intro n
      simp only [entries_append,stacked_append]
      exact .append (.entry n k (ih n).2 (ih (n+2)).1) _
    have hn : ∀ l, ms ++ [(k,f l)] ≠ [] := by simp
    simp only [inner_object n (hn _)]
    exact ⟨hs n,(hs (n+2)).append _⟩

theorem inner_lastPlace {f : Json → Json} (h : LastPlace f) (n : Nat) :
    ∃ b m, ∀ l, isLeaf l = true → inner n (f l) = b ++ inner m l :=
  (endsIn_lastPlace h n).1

end Workbench.Yaml
