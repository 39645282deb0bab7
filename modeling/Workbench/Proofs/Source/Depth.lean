import Workbench.Proofs.Text.Spacing
import Workbench.Source.Depth
set_option autoImplicit false

/-!
The depth of a text is that of its deepest line, and no blank at the end of a line makes it deeper.
So the depth of two texts on lines of their own is that of the deeper one.
-/
namespace Workbench.Source
open Text

/-- A line without code has no depth. -/
def lineDepth (p : Profile) (l : Text) : Nat :=
  if isCodeLine p.commentMark l then indent l / max p.indentUnit 1 else 0

def deepest (ds : List Nat) : Nat := ds.foldl max 0

theorem foldl_max (m : Nat) (ds : List Nat) : ds.foldl max m = max m (deepest ds) := by
  induction ds generalizing m with
  | nil => simp [deepest]
  | cons d ds ih =>
    rw [deepest,List.foldl_cons,List.foldl_cons,ih,ih (max 0 d)]
    omega

theorem deepest_append (ds es : List Nat) : deepest (ds ++ es) = max (deepest ds) (deepest es) := by
  rw [deepest,List.foldl_append,foldl_max]
  rfl

theorem deepest_cons (d : Nat) (ds : List Nat) : deepest (d :: ds) = max d (deepest ds) := by
  rw [deepest,List.foldl_cons,foldl_max,Nat.zero_max]

theorem depth_eq (p : Profile) (code : Text) :
    depth p code = deepest ((lines code).map (lineDepth p)) := by
  have h : ∀ (ls : List Text) (m : Nat), (ls.filter (isCodeLine p.commentMark)).foldl
      (fun d l => max d (indent l / max p.indentUnit 1)) m =
        (ls.map (lineDepth p)).foldl max m := by
    intro ls
    induction ls with
    | nil => simp
    | cons l ls ih =>
      intro m
      cases hl : isCodeLine p.commentMark l <;> simp [hl,lineDepth,ih]
  exact h _ 0

theorem trim_append_blank (l : Text) {w : Char} (hw : isBlank w = true) :
    trim (l ++ [w]) = trim l :=
  trim_append_blanks l (List.forall_mem_singleton.2 hw)

theorem indent_append {l : Text} (h : allBlank l = false) (s : Text) :
    indent (l ++ s) = indent l := by
  induction l with
  | nil => simp [allBlank] at h
  | cons c l ih =>
    cases hc : isBlank c with
    | false => simp [indent,hc]
    | true =>
      have hl : allBlank l = false := by simpa [allBlank,hc] using h
      simpa [indent,hc] using ih hl

theorem lineDepth_append_blank (p : Profile) (l : Text) {w : Char} (hw : isBlank w = true) :
    lineDepth p (l ++ [w]) = lineDepth p l := by
  have hc : isCodeLine p.commentMark (l ++ [w]) = isCodeLine p.commentMark l := by
    rw [isCodeLine,isCodeLine,trim_append_blank l hw]
  rw [lineDepth,lineDepth,hc]
  split
  · rename_i h
    have hl : allBlank l = false := by
      rw [Bool.eq_false_iff]
      intro e
      rw [← trim_eq_nil_iff] at e
      simp [isCodeLine,e] at h
    rw [indent_append hl]
  · rfl

theorem depth_crlf (p : Profile) (code : Text) : depth p (crlf code) = depth p code := by
  rw [depth_eq,depth_eq,map_lines_crlf fun l => lineDepth_append_blank p l (by decide)]

theorem depth_divided (a b : Text) : depth .python (divided a b) =
    max (depth .python a) (depth .python b) := by
  have h₀ : lineDepth .python [] = 0 := rfl
  have h₁ : lineDepth .python [';'] = 0 := rfl
  rw [depth_eq,depth_eq,depth_eq,
    map_lines_divided fun l => lineDepth_append_blank .python l (by decide),h₀,h₁]
  split <;> simp [deepest_append,deepest_cons]

end Workbench.Source
