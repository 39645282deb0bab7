import Workbench.Text.Ranges
set_option autoImplicit false

/-!
The order of texts, by code point from the left, and ascending lists of texts without repeats.
The same order is that of the bytes in which texts are stored.
-/
namespace Workbench.Text

theorem lt_trans {a b c : Text} (h : a < b) (k : b < c) : a < c := List.lt_trans h k

theorem lt_irrefl (a : Text) : ¬ a < a := List.lt_irrefl a

theorem lt_of_not_lt {a b : Text} (h : ¬ a < b) (k : a ≠ b) : b < a := by
  refine Classical.byContradiction fun g => k ?_
  exact List.le_antisymm (List.not_lt.1 g) (List.not_lt.1 h)

def insertSorted (t : Text) : List Text → List Text
  | [] => [t]
  | s :: ss => if t < s then t :: s :: ss else if t = s then s :: ss else s :: insertSorted t ss

def sortDistinct (ts : List Text) : List Text := ts.foldr insertSorted []

theorem mem_insertSorted {a t : Text} {ss : List Text} :
    a ∈ insertSorted t ss ↔ a = t ∨ a ∈ ss := by
  induction ss with
  | nil => simp [insertSorted]
  | cons s ss ih =>
    simp only [insertSorted]
    split
    · simp
    · split
      · simp_all
      · simp [ih,or_left_comm]

theorem mem_sortDistinct {a : Text} {ts : List Text} : a ∈ sortDistinct ts ↔ a ∈ ts := by
  induction ts with
  | nil => simp [sortDistinct]
  | cons t ts ih => simp only [sortDistinct,List.foldr_cons] at ih ⊢; simp [mem_insertSorted,ih]

theorem insertSorted_ascending {t : Text} {ss : List Text} (h : ss.Pairwise (· < ·)) :
    (insertSorted t ss).Pairwise (· < ·) := by
  induction ss with
  | nil => simp [insertSorted]
  | cons s ss ih =>
    have hs := List.pairwise_cons.1 h
    simp only [insertSorted]
    split
    · rename_i hlt
      refine List.pairwise_cons.2 ⟨fun a ha => ?_,h⟩
      rcases List.mem_cons.1 ha with rfl | ha
      · exact hlt
      · exact lt_trans hlt (hs.1 a ha)
    · split
      · exact h
      · rename_i hn hne
        refine List.pairwise_cons.2 ⟨fun a ha => ?_,ih hs.2⟩
        rcases mem_insertSorted.1 ha with rfl | ha
        · exact lt_of_not_lt hn hne
        · exact hs.1 a ha

theorem sortDistinct_ascending (ts : List Text) : (sortDistinct ts).Pairwise (· < ·) := by
  induction ts with
  | nil => simp [sortDistinct]
  | cons t ts ih => exact insertSorted_ascending ih

end Workbench.Text
