import Mathlib.Data.List.Basic
import Workbench.Proofs.Analysis.Findings
set_option autoImplicit false

/-!
Findings in a part of a text. What a pattern describes depends on what stands around it only where it
asks for the boundary of a word, and there the end of a text counts as a character of no word. So
whatever is written before a text and behind it, on lines of its own, hides no finding.
-/
namespace Workbench.Analysis
open Text Source

namespace Pattern

section
variable {d e : Char} (hd : isWordChar d = false) (he : isWordChar e = false) (a c : Text)

include hd in
theorem last_behind (u : Text) :
    (a ++ d :: u).getLast?.any isWordChar = u.getLast?.any isWordChar := by
  rcases List.eq_nil_or_concat u with rfl | ⟨u,x,rfl⟩
  · simp [hd]
  · simp [List.getLast?_append,List.getLast?_cons]

include he in
theorem head_before (v : Text) : (v ++ e :: c).head?.any isWordChar = v.head?.any isWordChar := by
  cases v with
  | nil => simp [he]
  | cons x v => rfl

include hd he

theorem Matches.surrounded {p : Pattern} {u s v : Text} (h : p.Matches u s v) :
    p.Matches (a ++ d :: u) s (v ++ e :: c) := by
  induction p generalizing u s v with
  | boundary =>
    refine ⟨h.1,?_⟩
    rw [Boundary,last_behind hd,head_before he]
    exact h.2
  | seq p q ihp ihq =>
    obtain ⟨s₁,s₂,rfl,h₁,h₂⟩ := h
    refine ⟨s₁,s₂,rfl,?_,?_⟩
    · rw [← List.append_assoc]
      exact ihp h₁
    · rw [List.append_assoc,List.cons_append]
      exact ihq h₂
  | alt p q ihp ihq => exact h.imp ihp ihq
  -- The others do not look beyond the part itself.
  | _ => exact h

theorem Occurs.surrounded {p : Pattern} {t : Text} (h : p.Occurs t) :
    p.Occurs (a ++ d :: (t ++ e :: c)) := by
  obtain ⟨u,s,v,rfl,h⟩ := h
  exact ⟨a ++ d :: u,s,v ++ e :: c,by simp,h.surrounded hd he a c⟩

end
end Pattern

theorem Issue.found_surrounded (i : Issue) (a c : Text) {b : Text} (h : i.found b = true) :
    i.found (a ++ '\n' :: (b ++ '\n' :: c)) = true := by
  have hn : isWordChar '\n' = false := isWordChar_of_isBlank rfl
  rw [i.found_iff] at h ⊢
  exact h.surrounded hn hn a c

/-- All that is found in a text is found, in the same order, when other lines are put before it and
behind it. -/
theorem scan_surrounded (l : Language) (a b c : Text) :
    (scan l b).Sublist (scan l (a ++ '\n' :: (b ++ '\n' :: c))) := by
  unfold scan
  split
  · exact List.Sublist.refl _
  · exact (List.monotone_filter_right Issue.all fun i => i.found_surrounded a c).map Issue.finding

end Workbench.Analysis
