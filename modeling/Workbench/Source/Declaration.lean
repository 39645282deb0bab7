import Workbench.Text.Literal
set_option autoImplicit false

/-!
Declarations in source text: a keyword at the start of a word, blanks, an identifier, blanks
perhaps, and a character that opens the rest. The text is raw, so a declaration inside a string
or a comment counts like any other.
-/
namespace Workbench.Source
open Text

structure Opening where
  name : Text
  opener : Char
  rest : Text
  deriving DecidableEq, Repr

def opening? (keyword : Text) (opens : Char → Bool) (t : Text) : Option Opening :=
  match after? keyword t with
  | none => none
  | some t =>
    match blanks? t with
    | none => none
    | some t =>
      match ident? t with
      | none => none
      | some (name,t) =>
        match trimStart t with
        | [] => none
        | c :: rest => if opens c then some ⟨name,c,rest⟩ else none

theorem length_of_opening? {keyword t : Text} {opens : Char → Bool} {o : Opening}
    (h : opening? keyword opens t = some o) : o.rest.length < t.length := by
  simp only [opening?] at h
  split at h
  · simp at h
  · rename_i t₁ h₁
    split at h
    · simp at h
    · rename_i t₂ h₂
      split at h
      · simp at h
      · rename_i name t₃ h₃
        have e₁ := length_of_after? h₁
        have e₂ := length_of_blanks? h₂
        have e₃ := length_of_ident? h₃
        have e₄ := length_trimStart t₃
        split at h
        · simp at h
        · rename_i c rest h₄
          split at h
          · simp only [Option.some.injEq] at h
            subst h
            simp [h₄] at e₄
            simp; omega
          · simp at h

/-- Declarations from left to right, each search beginning where the last declaration ended.
`before` is the character in front of the text. -/
def openingsFrom (keyword : Text) (opens : Char → Bool) (before : Option Char) (t : Text) :
    List Opening :=
  match t with
  | [] => []
  | c :: cs =>
    match _h : (if edge before then opening? keyword opens (c :: cs) else none) with
    | some o => o :: openingsFrom keyword opens (some o.opener) o.rest
    | none => openingsFrom keyword opens (some c) cs
termination_by t.length
decreasing_by
  · split at _h
    · exact length_of_opening? _h
    · simp at _h
  · simp

def openings (keyword : Text) (opens : Char → Bool) (t : Text) : List Opening :=
  openingsFrom keyword opens none t

end Workbench.Source
