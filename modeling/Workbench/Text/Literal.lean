import Workbench.Text.Blank
import Workbench.Text.WordChars
set_option autoImplicit false

/-!
Small readers. Each takes a text and gives what follows the thing read; none looks ahead further
than the thing itself, so a sequence of them reads left to right without going back.
-/
namespace Workbench.Text

def after? : Text → Text → Option Text
  | [], t => some t
  | _ :: _, [] => none
  | k :: ks, c :: cs => if k = c then after? ks cs else none

def one? (p : Char → Bool) : Text → Option Text
  | [] => none
  | c :: cs => if p c then some cs else none

def blanks? : Text → Option Text
  | [] => none
  | c :: cs => if isBlank c then some (trimStart cs) else none

def ident? : Text → Option (Text × Text)
  | [] => none
  | c :: cs =>
    if isIdentStart c then some (c :: cs.takeWhile isIdentPart,cs.dropWhile isIdentPart)
    else none

def edge? (t : Text) : Option Text := if edge t.head? then some t else none

def endsWith (k t : Text) : Bool := (after? k.reverse t.reverse).isSome

def before? (k t : Text) : Option Text := (after? k.reverse t.reverse).map List.reverse

theorem after?_eq_some_iff {k t r : Text} : after? k t = some r ↔ t = k ++ r := by
  induction k generalizing t with
  | nil => simp [after?,eq_comm]
  | cons a k ih =>
    cases t with
    | nil => simp [after?]
    | cons c cs =>
      by_cases h : a = c
      · subst h; simp [after?,ih]
      · simp [after?,h]; intro hc; exact absurd hc.symm h

theorem length_trimStart (t : Text) : (trimStart t).length ≤ t.length :=
  (List.dropWhile_sublist _).length_le

theorem length_of_after? {k t r : Text} (h : after? k t = some r) : r.length ≤ t.length := by
  rw [after?_eq_some_iff.1 h]; simp

theorem length_of_blanks? {t r : Text} (h : blanks? t = some r) : r.length < t.length := by
  cases t with
  | nil => simp [blanks?] at h
  | cons c cs =>
    simp only [blanks?] at h
    split at h
    · have e := length_trimStart cs
      simp only [Option.some.injEq] at h
      subst h
      simp only [List.length_cons]
      omega
    · simp at h

theorem length_of_ident? {t n r : Text} (h : ident? t = some (n,r)) : r.length < t.length := by
  cases t with
  | nil => simp [ident?] at h
  | cons c cs =>
    simp only [ident?] at h
    split at h
    · have e := (List.dropWhile_sublist (l := cs) isIdentPart).length_le
      simp only [Option.some.injEq,Prod.mk.injEq] at h
      rw [← h.2]
      simp only [List.length_cons]
      omega
    · simp at h

theorem length_of_edge? {t r : Text} (h : edge? t = some r) : r = t := by
  simp only [edge?] at h; split at h <;> simp_all

end Workbench.Text
