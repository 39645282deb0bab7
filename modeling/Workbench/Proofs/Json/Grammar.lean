import Workbench.Json.Value
import Workbench.Proofs.Dictionary
import Workbench.Proofs.Text.Digits
set_option autoImplicit false

/-!
The texts of a JSON value: spaces between tokens, the members of an object in any order, the characters
of a string as themselves or escaped. The text that is written without spaces is one of them.
-/
namespace Workbench.Json
open Text

def Gap (g : Text) : Prop := ∀ c ∈ g, c = ' ' ∨ c = '\n' ∨ c = '\t' ∨ c = '\r'

theorem gap_nil : Gap [] := nofun

def HexChar (d : Nat) (x : Char) : Prop := d < 16 ∧ (x = hexDigit d ∨ x = (hexDigit d).toUpper)

/-- Four digits of the value `n`. -/
inductive HexText : Nat → Text → Prop where
  | mk {a b c d : Nat} {w x y z : Char} (hw : HexChar a w) (hx : HexChar b x) (hy : HexChar c y)
    (hz : HexChar d z) : HexText (a*4096+b*256+c*16+d) [w,x,y,z]

def shortEscapes : List (Char × Char) := [('"','"'),('\\','\\'),('/','/'),('b','\x08'),
  ('f','\x0c'),('n','\n'),('r','\r'),('t','\t')]

/-- A character of a string: as it is, with a letter, by its number, or by two numbers. -/
inductive CharText (c : Char) : Text → Prop where
  | plain (hq : c ≠ '"') (he : c ≠ '\\') (hc : 32 ≤ c.toNat) : CharText c [c]
  | short {e : Char} (h : (e,c) ∈ shortEscapes) : CharText c ['\\',e]
  | number {ds : Text} (h : HexText c.toNat ds) : CharText c ('\\' :: 'u' :: ds)
  | pair {m n : Nat} {ds es : Text} (hd : HexText m ds) (he : HexText n es)
    (hm : 0xD800 ≤ m ∧ m < 0xDC00) (hn : 0xDC00 ≤ n ∧ n < 0xE000)
    (hc : c.toNat = (m-0xD800)*1024+(n-0xDC00)+0x10000) :
    CharText c ('\\' :: 'u' :: (ds ++ '\\' :: 'u' :: es))

inductive Spelt : Text → Text → Prop where
  | nil : Spelt [] []
  | cons {c : Char} {s t u : Text} (hc : CharText c u) (h : Spelt s t) : Spelt (c :: s) (u ++ t)

inductive StringText (s : Text) : Text → Prop where
  | quoted {t : Text} (h : Spelt s t) : StringText s ('"' :: (t ++ ['"']))

theorem hexText_fixedDigits {n : Nat} (h : n < 16^4) : HexText n (fixedDigits 16 4 n) := by
  let value : Char → Nat := fun c => if c.toNat < 58 then c.toNat-48 else c.toNat-87
  have hv : ∀ d < 16, value (hexDigit d) = d := by decide
  have hn := foldl_fixedDigits (by omega) hv 4 n
  have hl : (fixedDigits 16 4 n).length = 4 := length_fixedDigits (by omega) (by omega) h
  have hm : ∀ c ∈ fixedDigits 16 4 n, ∃ d < 16, c = hexDigit d :=
    fun c hc => mem_fixedDigits (by omega) hc
  obtain ⟨c₁,c₂,c₃,c₄,e⟩ : ∃ c₁ c₂ c₃ c₄, fixedDigits 16 4 n = [c₁,c₂,c₃,c₄] := by
    match fixedDigits 16 4 n,hl with
    | [c₁,c₂,c₃,c₄],_ => exact ⟨c₁,c₂,c₃,c₄,rfl⟩
  rw [e] at hn hm ⊢
  obtain ⟨d₁,h₁,rfl⟩ := hm c₁ (by simp)
  obtain ⟨d₂,h₂,rfl⟩ := hm c₂ (by simp)
  obtain ⟨d₃,h₃,rfl⟩ := hm c₃ (by simp)
  obtain ⟨d₄,h₄,rfl⟩ := hm c₄ (by simp)
  simp only [List.foldl_cons,List.foldl_nil,hv d₁ h₁,hv d₂ h₂,hv d₃ h₃,hv d₄ h₄] at hn
  rw [show n = d₁*4096+d₂*256+d₃*16+d₄ by omega]
  exact .mk ⟨h₁,.inl rfl⟩ ⟨h₂,.inl rfl⟩ ⟨h₃,.inl rfl⟩ ⟨h₄,.inl rfl⟩

theorem charText_escapeChar (c : Char) : CharText c (escapeChar c) := by
  unfold escapeChar
  -- Seven characters have a letter of their own; of the others only control characters are escaped.
  by_cases h₁ : c = '"'
  · subst c; exact .short (by decide)
  by_cases h₂ : c = '\\'
  · subst c; exact .short (by decide)
  by_cases h₃ : c = '\n'
  · subst c; exact .short (by decide)
  by_cases h₄ : c = '\r'
  · subst c; exact .short (by decide)
  by_cases h₅ : c = '\t'
  · subst c; exact .short (by decide)
  by_cases h₆ : c = '\x08'
  · subst c; exact .short (by decide)
  by_cases h₇ : c = '\x0c'
  · subst c; exact .short (by decide)
  simp only [beq_iff_eq,h₁,h₂,h₃,h₄,h₅,h₆,h₇,if_false]
  by_cases h₈ : c.toNat < 32
  · rw [if_pos h₈]
    exact .number (hexText_fixedDigits (by omega))
  · rw [if_neg h₈]
    exact .plain h₁ h₂ (Nat.not_lt.1 h₈)

theorem spelt_escaped (s : Text) : Spelt s (s.flatMap escapeChar) := by
  induction s with
  | nil => exact .nil
  | cons c s ih => exact .cons (charText_escapeChar c) ih

theorem stringText_written (s : Text) : StringText s (stringText s) := .quoted (spelt_escaped s)

/-- The integers that 64 bits hold, with a sign or without. -/
def Fits (i : Int) : Prop := -((2^63 : Nat) : Int) ≤ i ∧ i < ((2^64 : Nat) : Int)

/-- What stands in front of an item: a gap, behind another item also a comma. -/
inductive Lead : Bool → Text → Prop where
  | first {g : Text} (hg : Gap g) : Lead true g
  | next {g k : Text} (hg : Gap g) (hk : Gap k) : Lead false (g ++ ',' :: k)

mutual

/-- The texts of a value in which lists and objects nest at most `n` deep. -/
inductive ValueText : Nat → Json → Text → Prop where
  | null {n : Nat} : ValueText n .null "null".toList
  | bool {n : Nat} {b : Bool} :
    ValueText n (.bool b) (if b then "true".toList else "false".toList)
  | int {n : Nat} {i : Int} (hi : Fits i) : ValueText n (.int i) (intText i)
  | string {n : Nat} {s t : Text} (h : StringText s t) : ValueText n (.string s) t
  | array {n : Nat} {vs : List Json} {t : Text} (h : ItemsText true n vs t) :
    ValueText (n+1) (.array vs) ('[' :: t)
  | object {n : Nat} {ms : List (Text × Json)} {d : Dictionary Json} {t : Text}
    (h : MembersText true n ms t) (hd : d.Says ms) : ValueText (n+1) (.object d.entries) ('\x7b' :: t)

/-- The items of a list, or those that follow another one, and the bracket behind them. -/
inductive ItemsText : Bool → Nat → List Json → Text → Prop where
  | close {first : Bool} {n : Nat} {g : Text} (hg : Gap g) : ItemsText first n [] (g ++ [']'])
  | item {first : Bool} {n : Nat} {v : Json} {vs : List Json} {l t u : Text} (hl : Lead first l)
    (h : ValueText n v t) (hr : ItemsText false n vs u) :
    ItemsText first n (v :: vs) (l ++ (t ++ u))

/-- The members of an object in their order, and the brace. A key may be there more than once. -/
inductive MembersText : Bool → Nat → List (Text × Json) → Text → Prop where
  | close {first : Bool} {n : Nat} {g : Text} (hg : Gap g) : MembersText first n [] (g ++ ['\x7d'])
  | member {first : Bool} {n : Nat} {k : Text} {v : Json} {ms : List (Text × Json)}
    {l key g a t u : Text} (hl : Lead first l) (hk : StringText k key) (hg : Gap g) (ha : Gap a)
    (h : ValueText n v t) (hr : MembersText false n ms u) :
    MembersText first n ((k,v) :: ms) (l ++ (key ++ (g ++ ':' :: (a ++ (t ++ u)))))

end

/-- Values whose numbers are integers of 64 bits and whose objects have each key once, with lists and
objects nested at most `n` deep. -/
inductive Standard : Nat → Json → Prop where
  | null {n : Nat} : Standard n .null
  | bool {n : Nat} {b : Bool} : Standard n (.bool b)
  | int {n : Nat} {i : Int} (hi : Fits i) : Standard n (.int i)
  | string {n : Nat} {s : Text} : Standard n (.string s)
  | array {n : Nat} {vs : List Json} (h : ∀ v ∈ vs, Standard n v) : Standard (n+1) (.array vs)
  | object {n : Nat} {d : Dictionary Json} (h : ∀ m ∈ d.entries, Standard n m.2) :
    Standard (n+1) (.object d.entries)

section
variable {n : Nat}

theorem itemsText_lead {v : Json} {vs : List Json} {first : Bool} {l : Text} (hl : Lead first l)
    (h : ∀ w ∈ v :: vs, ValueText n w w.compact) :
    ItemsText first n (v :: vs) (l ++ compactItems (v :: vs)) := by
  obtain ⟨hv,hs⟩ := List.forall_mem_cons.1 h
  induction vs generalizing v first l with
  | nil => exact .item hl hv (.close gap_nil)
  | cons w vs ih =>
    have hr := ih (.next gap_nil gap_nil) hs (List.forall_mem_cons.1 hs).1 (List.forall_mem_cons.1 hs).2
    have e : compactItems (v :: w :: vs) = v.compact ++ ([] ++ ',' :: [] ++ compactItems (w :: vs)) :=
      List.append_assoc _ _ _
    rw [e]
    exact .item hl hv hr

theorem itemsText_written {vs : List Json} (h : ∀ v ∈ vs, ValueText n v v.compact) :
    ItemsText true n vs (compactItems vs) := by
  cases vs with
  | nil => exact .close gap_nil
  | cons v vs => exact itemsText_lead (.first gap_nil) h

theorem membersText_lead {m : Text × Json} {ms : List (Text × Json)} {first : Bool} {l : Text}
    (hl : Lead first l) (h : ∀ q ∈ m :: ms, ValueText n q.2 q.2.compact) :
    MembersText first n (m :: ms) (l ++ compactMembers (m :: ms)) := by
  obtain ⟨hm,hs⟩ := List.forall_mem_cons.1 h
  induction ms generalizing m first l with
  | nil =>
    have e : compactMembers [m] = stringText m.1 ++ ([] ++ ':' :: ([] ++ (m.2.compact ++ ['\x7d']))) := by
      rw [compactMembers]
      simp
    rw [e]
    exact .member hl (stringText_written m.1) gap_nil gap_nil hm (.close gap_nil)
  | cons q ms ih =>
    have hr := ih (.next gap_nil gap_nil) hs (List.forall_mem_cons.1 hs).1 (List.forall_mem_cons.1 hs).2
    have e : compactMembers (m :: q :: ms) = stringText m.1 ++ ([] ++ ':' :: ([] ++ (m.2.compact ++
        ([] ++ ',' :: [] ++ compactMembers (q :: ms))))) := by
      rw [compactMembers]
      simp
    rw [e]
    exact .member hl (stringText_written m.1) gap_nil gap_nil hm hr

theorem membersText_written {ms : List (Text × Json)} (h : ∀ m ∈ ms, ValueText n m.2 m.2.compact) :
    MembersText true n ms (compactMembers ms) := by
  cases ms with
  | nil => exact .close gap_nil
  | cons m ms => exact membersText_lead (.first gap_nil) h

end

theorem valueText_written {n : Nat} {v : Json} (h : Standard n v) : ValueText n v v.compact := by
  induction h with
  | null => exact .null
  | @bool _ b =>
    cases b with
    | true => exact .bool
    | false => exact .bool
  | int hi => exact .int hi
  | string => exact .string (stringText_written _)
  | array _ ih => exact .array (itemsText_written ih)
  | @object _ d _ ih => exact .object (membersText_written ih) d.says_entries

end Workbench.Json
