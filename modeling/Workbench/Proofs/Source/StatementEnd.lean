import Workbench.Proofs.Source.ImportLine
set_option autoImplicit false

/-!
Where a statement ends. No reader goes on behind a semicolon or the sign of a comment, so what stands
in front of it is read as if it stood alone. Behind a semicolon the text is read like a line of its
own. A comment is not the start of a line: of its statements only those are read that follow a
semicolon or a colon, and the words in front of them are no modules.
-/
namespace Workbench.Source
open Text

theorem of_endsList {x : Char} (h : endsList x = true) :
    isBlank x = false ∧ isModulePart x = false ∧ isWordChar x = false ∧ x ∉ "import".toList ∧
      x ∉ "from".toList := by
  have hx : x = ';' ∨ x = '#' := by simpa [endsList] using h
  rcases hx with rfl | rfl <;> decide

section
variable {x : Char} (hx : endsList x = true) (t c : Text)
include hx

theorem trimStart_stop : trimStart (t ++ x :: c) = trimStart t ++ x :: c :=
  dropWhile_stop (of_endsList hx).1 t c

theorem blanks?_stop : blanks? (t ++ x :: c) = (blanks? t).map (· ++ x :: c) := by
  cases t with
  | nil => simp [blanks?,(of_endsList hx).1]
  | cons d t => cases hd : isBlank d <;> simp [blanks?,hd,trimStart_stop hx]

theorem listed?_stop : listed? (t ++ x :: c) = (listed? t).map (onRest (· ++ x :: c)) := by
  have he : (!endsList x) = false := by simp [hx]
  rw [listed?,listed?,takeWhile_stop he,dropWhile_stop he]
  cases t.takeWhile fun c => !endsList c <;> rfl

theorem importList?_stop :
    importList? (t ++ x :: c) = (importList? t).map (onRest (· ++ x :: c)) := by
  rw [importList?_eq,importList?_eq,after?_stop (of_endsList hx).2.2.2.1]
  cases after? "import".toList t with
  | none => rfl
  | some t =>
    simp only [Option.map_some,Option.bind_some,blanks?_stop hx]
    cases blanks? t with
    | none => rfl
    | some t => exact listed?_stop hx t c

theorem relativeModule_stop :
    relativeModule (t ++ x :: c) = ((relativeModule t).1,(relativeModule t).2 ++ x :: c) := by
  have hm := (of_endsList hx).2.1
  have hd : (x == '.') = false := by
    rw [isModulePart,Bool.or_eq_false_iff] at hm
    exact hm.2
  rw [relativeModule_eq,relativeModule_eq,takeWhile_stop (p := (· == '.')) hd,
    dropWhile_stop (p := (· == '.')) hd,moduleFrom,moduleFrom,
    one?_stop (isIdentStart_eq_false hm),Option.isSome_map,takeWhile_stop hm,dropWhile_stop hm]
  split <;> rfl

theorem thenImport?_stop (m : Text) :
    thenImport? m (t ++ x :: c) = (thenImport? m t).map (onRest (· ++ x :: c)) := by
  rw [thenImport?,thenImport?,after?_stop (of_endsList hx).2.2.2.1]
  cases after? "import".toList t with
  | none => rfl
  | some t =>
    have he : edge (t ++ x :: c).head? = edge t.head? := by
      cases t with
      | nil => simp [edge,(of_endsList hx).2.2.1]
      | cons d t => rfl
    simp only [Option.map_some,Option.bind_some,edge?,he]
    split <;> rfl

theorem importFrom?_stop :
    importFrom? (t ++ x :: c) = (importFrom? t).map (onRest (· ++ x :: c)) := by
  rw [importFrom?_eq,importFrom?_eq,after?_stop (of_endsList hx).2.2.2.2]
  cases after? "from".toList t with
  | none => rfl
  | some t =>
    simp only [Option.map_some,Option.bind_some,blanks?_stop hx]
    cases blanks? t with
    | none => rfl
    | some t =>
      simp only [Option.map_some,Option.bind_some,fromModule?,relativeModule_stop hx,blanks?_stop hx]
      split
      · rfl
      · cases blanks? (relativeModule t).2 with
        | none => rfl
        | some u => exact thenImport?_stop hx u c _

theorem importHere?_stop :
    importHere? (t ++ x :: c) = (importHere? t).map (onRest (· ++ x :: c)) := by
  rw [importHere?_eq,importHere?_eq,trimStart_stop hx,statement?,statement?,importList?_stop hx,
    importFrom?_stop hx]
  cases importList? (trimStart t) <;> rfl

theorem importsAfter_stop :
    importsAfter (t ++ x :: c) = importsAfter t ++ importsAfter (x :: c) := by
  induction t using importsAfter.induct with
  | case1 => rw [importsAfter,List.nil_append,List.nil_append]
  | case2 d t ms r h ih =>
    cases hd : startsStatement d with
    | false => simp [hd] at h
    | true =>
      rw [dif_pos hd] at h
      have hs : importHere? (t ++ x :: c) = some (ms,r ++ x :: c) := by
        rw [importHere?_stop hx,h]
        rfl
      rw [List.cons_append,importsAfter_some hd hs,importsAfter_some hd h,ih,List.append_assoc]
  | case3 d t h ih =>
    have hn : startsStatement d = true → importHere? t = none := by
      intro hd
      rwa [dif_pos hd] at h
    have hs : startsStatement d = true → importHere? (t ++ x :: c) = none := by
      intro hd
      rw [importHere?_stop hx,hn hd]
      rfl
    rw [List.cons_append,importsAfter_none hs,importsAfter_none hn,ih]

theorem lineImports_stop :
    lineImports (t ++ x :: c) = lineImports t ++ importsAfter (x :: c) := by
  rw [lineImports,lineImports,importHere?_stop hx]
  cases importHere? t with
  | none => exact importsAfter_stop hx t c
  | some i =>
    simp only [Option.map_some,onRest,importsAfter_stop hx,List.append_assoc]

end

theorem importsAfter_semicolon (t : Text) : importsAfter (';' :: t) = lineImports t := by
  rw [lineImports]
  cases h : importHere? t with
  | none => exact importsAfter_none fun _ => h
  | some i => exact importsAfter_some rfl h

theorem importsAfter_comment (c : Text) : importsAfter ('#' :: c) = importsAfter c :=
  importsAfter_none fun h => absurd h (by decide)

theorem lineImports_comment (c : Text) : lineImports ('#' :: c) = importsAfter c := by
  have h : importHere? ('#' :: c) = none := rfl
  rw [lineImports,h]
  exact importsAfter_comment c

theorem imports_last {l : Text} (h : '\n' ∉ l) : imports l = lineImports l := by
  cases l with
  | nil =>
    have hn : importHere? [] = none := rfl
    simp [imports,lines,lineImports,hn,importsAfter]
  | cons c l => rw [imports,lines_of_not_mem (List.cons_ne_nil _ _) h,List.flatMap_singleton]

theorem imports_line {l : Text} (h : '\n' ∉ l) (t : Text) :
    imports (l ++ '\n' :: t) = lineImports l ++ imports t := by
  have hr := apply_dropReturn (f := lineImports) (fun l => lineImports_append_blank (by decide) l) l
  rw [imports,lines_line h,List.flatMap_cons,hr,imports]

theorem imports_append_comment (l c : Text) :
    imports (l ++ '#' :: c) = imports l ++ imports ('#' :: c) := by
  induction l using line_induction with
  | last l hl =>
    have hs : ∀ c, lineImports (l ++ '#' :: c) = lineImports l ++ lineImports ('#' :: c) := by
      intro c
      rw [lineImports_stop rfl,importsAfter_comment,lineImports_comment]
    induction c using line_induction with
    | last c hc =>
      have h₁ : '\n' ∉ '#' :: c := by simp [hc]
      have h₂ : '\n' ∉ l ++ '#' :: c := by simp [hl,hc]
      rw [imports_last hl,imports_last h₁,imports_last h₂,hs]
    | line c t hc _ =>
      have h₁ : '\n' ∉ '#' :: c := by simp [hc]
      have h₂ : '\n' ∉ l ++ '#' :: c := by simp [hl,hc]
      have e₁ := imports_line h₁ t
      have e₂ := imports_line h₂ t
      simp only [List.cons_append,List.append_assoc] at e₁ e₂
      rw [imports_last hl,e₁,e₂,hs,List.append_assoc]
  | line l t hl ih =>
    rw [List.append_assoc,List.cons_append,imports_line hl,imports_line hl,ih,List.append_assoc]

/-- A comment adds to what a text imports the modules that it would name alone, whatever stands in
front of it. Each of them is named by a statement inside the comment, behind a semicolon or a
colon. -/
theorem imports_comment (l c : Text) :
    imports (l ++ '#' :: c) = imports l ++ imports ('#' :: c) ∧
      ('\n' ∉ c → ∀ m ∈ imports ('#' :: c), ∃ ms, Follows ms c ∧ m ∈ ms) := by
  refine ⟨imports_append_comment l c,fun hc m hm => ?_⟩
  have h : '\n' ∉ '#' :: c := by simp [hc]
  rw [imports_last h,lineImports_comment] at hm
  exact mem_importsAfter hm

theorem imports_comment_trailing : '\n' ∉ " needs sys, json; import re".toList ∧
    imports ("import os ".toList ++ '#' :: " needs sys, json; import re".toList) =
      ["os".toList,"re".toList] ∧
    ∃ ms, Follows ms " needs sys, json; import re".toList ∧ "re".toList ∈ ms := by
  obtain ⟨he,hf⟩ := imports_comment "import os ".toList " needs sys, json; import re".toList
  have hl : imports "import os ".toList = ["os".toList] := by decide +kernel
  have hc : imports ('#' :: " needs sys, json; import re".toList) = ["re".toList] := by decide +kernel
  have hn : '\n' ∉ " needs sys, json; import re".toList := by decide
  rw [hl,hc] at he
  exact ⟨hn,he,hf hn _ (by rw [hc]; exact List.mem_singleton_self _)⟩

theorem imports_comment_colon : ¬ ∀ l c : Text, (∀ d ∈ l, d ∉ ['#','\'','"','\n','\r']) →
    (∀ d ∈ c, d ∉ ['\n','\r']) → imports (l ++ '#' :: c) = imports l := by
  intro h
  have he := h "x = 1  ".toList " TODO: import os".toList (by decide) (by decide)
  exact absurd he (by decide +kernel)

end Workbench.Source
