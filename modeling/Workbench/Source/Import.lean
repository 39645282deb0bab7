import Workbench.Text.Literal
import Workbench.Text.Lines
set_option autoImplicit false

/-!
Imported modules. A statement starts a line or follows a semicolon or a colon; it either lists
modules or names the one it imports from. Each line is read from left to right, and a statement
that is read is not read again.
-/
namespace Workbench.Source
open Text

def isModulePart (c : Char) : Bool := c.isAlphanum || c == '_' || c == '.'

def isModule : Text → Bool
  | [] => false
  | c :: cs => isIdentStart c && cs.all isModulePart

def endsList (c : Char) : Bool := c == ';' || c == '#'

/-- The module that an item of a list names, which is its first word. -/
def listedModule? (item : Text) : Option Text :=
  let w := firstWord item
  if isModule w then some w else none

def importList? (t : Text) : Option (List Text × Text) :=
  match after? "import".toList t with
  | none => none
  | some t =>
    match blanks? t with
    | none => none
    | some t =>
      match t.takeWhile fun c => !endsList c with
      | [] => none
      | l => some ((splitOn ',' l).filterMap listedModule?,t.dropWhile fun c => !endsList c)

def relativeModule (t : Text) : Text × Text :=
  let dots := t.takeWhile (· == '.')
  let t := t.dropWhile (· == '.')
  match t with
  | [] => (dots,t)
  | c :: cs =>
    if isIdentStart c then (dots ++ c :: cs.takeWhile isModulePart,cs.dropWhile isModulePart)
    else (dots,t)

def importFrom? (t : Text) : Option (List Text × Text) :=
  match after? "from".toList t with
  | none => none
  | some t =>
    match blanks? t with
    | none => none
    | some t =>
      match relativeModule t with
      | ([],_) => none
      | (m,t) =>
        match blanks? t with
        | none => none
        | some t =>
          match after? "import".toList t with
          | none => none
          | some t => (edge? t).map fun t => ([m],t)

def importHere? (t : Text) : Option (List Text × Text) :=
  match importList? (trimStart t) with
  | some r => some r
  | none => importFrom? (trimStart t)

theorem length_of_importList? {t r : Text} {ms : List Text} (h : importList? t = some (ms,r)) :
    r.length < t.length := by
  simp only [importList?] at h
  split at h
  · simp at h
  · rename_i t₁ h₁
    split at h
    · simp at h
    · rename_i t₂ h₂
      split at h
      · simp at h
      · have e₁ := length_of_after? h₁
        have e₂ := length_of_blanks? h₂
        have e₃ := (List.dropWhile_sublist (l := t₂) (fun c => !endsList c)).length_le
        simp only [Option.some.injEq,Prod.mk.injEq] at h
        rw [← h.2]; omega

theorem length_relativeModule (t : Text) : (relativeModule t).2.length ≤ t.length := by
  have e := (List.dropWhile_sublist (l := t) (· == '.')).length_le
  simp only [relativeModule]
  split
  · exact e
  · rename_i c cs h
    have f := (List.dropWhile_sublist (l := cs) isModulePart).length_le
    rw [h] at e
    split
    · simp at e ⊢; omega
    · simpa [h] using e

theorem length_of_importFrom? {t r : Text} {ms : List Text} (h : importFrom? t = some (ms,r)) :
    r.length < t.length := by
  simp only [importFrom?] at h
  split at h
  · simp at h
  · rename_i t₁ h₁
    split at h
    · simp at h
    · rename_i t₂ h₂
      have e₃ := length_relativeModule t₂
      split at h
      · simp at h
      · rename_i m t₃ _ h₃
        rw [h₃] at e₃
        split at h
        · simp at h
        · rename_i t₄ h₄
          split at h
          · simp at h
          · rename_i t₅ h₅
            have e₁ := length_of_after? h₁
            have e₂ := length_of_blanks? h₂
            have e₄ := length_of_blanks? h₄
            have e₅ := length_of_after? h₅
            simp only [Option.map_eq_some_iff,Prod.mk.injEq] at h
            obtain ⟨t₆,h₆,_,rfl⟩ := h
            rw [length_of_edge? h₆]
            simp only at e₃
            omega

theorem length_of_importHere? {t r : Text} {ms : List Text} (h : importHere? t = some (ms,r)) :
    r.length < t.length := by
  have e := length_trimStart t
  simp only [importHere?] at h
  split at h
  · rename_i q hq
    simp only [Option.some.injEq] at h
    subst h
    have := length_of_importList? hq
    omega
  · have := length_of_importFrom? h
    omega

def startsStatement (c : Char) : Bool := c == ';' || c == ':'

def importsAfter (t : Text) : List Text :=
  match t with
  | [] => []
  | c :: cs =>
    match _h : (if startsStatement c then importHere? cs else none) with
    | some (ms,r) => ms ++ importsAfter r
    | none => importsAfter cs
termination_by t.length
decreasing_by
  · split at _h
    · have := length_of_importHere? _h
      simp; omega
    · simp at _h
  · simp

def lineImports (l : Text) : List Text :=
  match importHere? l with
  | some (ms,r) => ms ++ importsAfter r
  | none => importsAfter l

def imports (code : Text) : List Text := (lines code).flatMap lineImports

end Workbench.Source
