import Workbench.Json.Reader
import Workbench.Proofs.Json.Grammar
import Workbench.Proofs.Text.Utf8
set_option autoImplicit false

/-!
Reading a string undoes writing it, for every text and however its characters are spelt: what is
escaped comes back as one character, and all other characters go through byte by byte.
-/
namespace Workbench.Json
open Text

/-- From `rest` a string of the bytes `bs` is read, up to `tail`, wherever the cursor stands. -/
def Yields (rest bs tail : Bytes) : Prop :=
  ∀ fuel, rest.length < fuel → ∀ l k, ∃ k', stringBytes fuel ⟨rest,l,k⟩ = .ok (bs,⟨tail,l,k'⟩)

theorem yields_quote (tail : Bytes) : Yields (34 :: tail) [] (34 :: tail) := by
  intro fuel hf l k
  obtain ⟨f,rfl⟩ := Nat.exists_eq_add_of_lt hf
  exact ⟨k,by simp [stringBytes]⟩

/-- The step of every character: one round of the reader leads to the rest with less fuel. -/
theorem yields_of_more (front ch : Bytes) {rest bs tail : Bytes} (h : Yields rest bs tail)
    (hl : 0 < front.length)
    (hs : ∀ fuel l k, ∃ k', stringBytes (fuel+1) ⟨front ++ rest,l,k⟩ =
      stringBytes.more ch fuel ⟨rest,l,k'⟩) : Yields (front ++ rest) (ch ++ bs) tail := by
  intro fuel hf l k
  rw [List.length_append] at hf
  obtain ⟨f,rfl⟩ : ∃ f, fuel = f+1 := ⟨fuel-1,by omega⟩
  obtain ⟨k₁,h₁⟩ := hs f l k
  obtain ⟨k₂,h₂⟩ := h f (by omega) l k₁
  exact ⟨k₂,by rw [h₁,stringBytes.more,h₂]⟩

theorem yields_plain {b : UInt8} {rest bs tail : Bytes} (h : Yields rest bs tail) (hq : b ≠ 34)
    (he : b ≠ 92) (hc : 32 ≤ b) : Yields (b :: rest) (b :: bs) tail := by
  have hlt : ¬ b < 32 := UInt8.not_lt.2 hc
  have hn : b ≠ 10 := by rintro rfl; exact absurd hc (by decide)
  refine yields_of_more [b] [b] h (by simp) fun fuel l k => ⟨k+1,?_⟩
  simp [stringBytes,hq,he,hlt,Cursor.skip,Cursor.past,hn]

theorem yields_plains {front rest bs tail : Bytes} (h : Yields rest bs tail)
    (hp : ∀ b ∈ front, b ≠ 34 ∧ b ≠ 92 ∧ 32 ≤ b) : Yields (front ++ rest) (front ++ bs) tail := by
  induction front with
  | nil => exact h
  | cons b front ih =>
    have hb := hp b List.mem_cons_self
    exact yields_plain (ih fun b hb => hp b (List.mem_cons_of_mem _ hb)) hb.1 hb.2.1 hb.2.2

theorem yields_short {e : UInt8} {c : Char} {rest bs tail : Bytes} (h : Yields rest bs tail)
    (hu : e ≠ 117) (hn : e ≠ 10) (hs : shortEscape? e = some c) :
    Yields (92 :: e :: rest) (utf8Char c ++ bs) tail := by
  refine yields_of_more [92,e] _ h (by simp) fun fuel l k => ⟨k+2,?_⟩
  simp [stringBytes,hu,hs,Cursor.skip,Cursor.past,hn]

theorem byte_of_hexChar {d : Nat} {x : Char} (h : HexChar d x) :
    ∃ b, utf8Char x = [b] ∧ hexValue? b = some d ∧ b ≠ 10 := by
  let good (d : Nat) (x : Char) : Prop := utf8Char x = [x.toNat.toUInt8] ∧
    hexValue? x.toNat.toUInt8 = some d ∧ x.toNat.toUInt8 ≠ 10
  have lower : ∀ d < 16, good d (hexDigit d) := by decide
  have upper : ∀ d < 16, good d (hexDigit d).toUpper := by decide
  obtain ⟨hd,rfl | rfl⟩ := h
  · exact ⟨_,lower d hd⟩
  · exact ⟨_,upper d hd⟩

theorem hexEscape_hexText {n : Nat} {ds : Text} (h : HexText n ds) (rest : Bytes) (l k : Nat) :
    hexEscape ⟨utf8 ds ++ rest,l,k⟩ = .ok (n,⟨rest,l,k+4⟩) := by
  cases h with
  | mk hw hx hy hz =>
    obtain ⟨b₁,u₁,v₁,n₁⟩ := byte_of_hexChar hw
    obtain ⟨b₂,u₂,v₂,n₂⟩ := byte_of_hexChar hx
    obtain ⟨b₃,u₃,v₃,n₃⟩ := byte_of_hexChar hy
    obtain ⟨b₄,u₄,v₄,n₄⟩ := byte_of_hexChar hz
    simp only [utf8,List.flatMap_cons,List.flatMap_nil,u₁,u₂,u₃,u₄,List.cons_append,List.nil_append]
    simp only [hexEscape,v₁,v₂,v₃,v₄,Cursor.skipMany,Cursor.skip,Cursor.past,n₁,n₂,n₃,n₄,if_false]

theorem yields_number {c : Char} {ds : Text} (h : HexText c.toNat ds) {rest bs tail : Bytes}
    (hr : Yields rest bs tail) :
    Yields (92 :: 117 :: (utf8 ds ++ rest)) (utf8Char c ++ bs) tail := by
  refine yields_of_more (92 :: 117 :: utf8 ds) _ hr (by simp) fun fuel l k => ⟨k+6,?_⟩
  have hc := codePoint_bounds c
  have hu : unicodeEscape ⟨utf8 ds ++ rest,l,k+2⟩ = .ok (c,⟨rest,l,k+6⟩) := by
    rw [unicodeEscape,hexEscape_hexText h]
    have h₁ : (decide (0xDC00 ≤ c.toNat) && decide (c.toNat ≤ 0xDFFF)) = false := by simp; omega
    have h₂ : (decide (c.toNat < 0xD800) || decide (0xDBFF < c.toNat)) = true := by simp; omega
    simp only [h₁,h₂,Bool.false_eq_true,if_false,if_true,Char.ofNat_toNat]
  simp [stringBytes,Cursor.skip,Cursor.past,hu]

theorem yields_pair {c : Char} {m n : Nat} {ds es : Text} (hd : HexText m ds) (he : HexText n es)
    (hm : 0xD800 ≤ m ∧ m < 0xDC00) (hn : 0xDC00 ≤ n ∧ n < 0xE000)
    (hc : c.toNat = (m-0xD800)*1024+(n-0xDC00)+0x10000) {rest bs tail : Bytes}
    (hr : Yields rest bs tail) :
    Yields (92 :: 117 :: (utf8 ds ++ 92 :: 117 :: (utf8 es ++ rest))) (utf8Char c ++ bs) tail := by
  have hl := yields_of_more (92 :: 117 :: (utf8 ds ++ 92 :: 117 :: utf8 es)) (utf8Char c) hr (by simp)
  simp only [List.cons_append,List.append_assoc] at hl
  refine hl fun fuel l k => ⟨k+12,?_⟩
  have hu : unicodeEscape ⟨utf8 ds ++ 92 :: 117 :: (utf8 es ++ rest),l,k+2⟩ =
      .ok (c,⟨rest,l,k+12⟩) := by
    rw [unicodeEscape,hexEscape_hexText hd]
    have h₁ : (decide (0xDC00 ≤ m) && decide (m ≤ 0xDFFF)) = false := by simp; omega
    have h₂ : (decide (m < 0xD800) || decide (0xDBFF < m)) = false := by simp; omega
    have h₃ : (decide (n < 0xDC00) || decide (0xDFFF < n)) = false := by simp; omega
    have hx := hexEscape_hexText he rest l (k+8)
    simp [h₁,h₂,Cursor.skip,Cursor.past,hx,h₃,← hc]
  simp [stringBytes,Cursor.skip,Cursor.past,hu]

/-- No byte of a longer character is taken for a quote or a backslash. -/
theorem plain_of_mem_utf8Char {c : Char} (hq : c ≠ '"') (he : c ≠ '\\') (hc : 32 ≤ c.toNat) :
    ∀ b ∈ utf8Char c, b ≠ 34 ∧ b ≠ 92 ∧ 32 ≤ b := by
  intro b hb
  have hq : c.toNat ≠ 34 := fun e => hq (Char.toNat_inj.1 e)
  have he : c.toNat ≠ 92 := fun e => he (Char.toNat_inj.1 e)
  have hb := byte_of_mem_utf8Char hb
  refine ⟨?_,?_,?_⟩
  · rintro rfl; simp at hb; omega
  · rintro rfl; simp at hb; omega
  · rw [UInt8.le_iff_toNat_le]; simp; omega

theorem bytes_of_shortEscape {e c : Char} (h : (e,c) ∈ shortEscapes) :
    ∃ b, utf8 ['\\',e] = [92,b] ∧ b ≠ 117 ∧ b ≠ 10 ∧ shortEscape? b = some c := by
  have all : ∀ p ∈ shortEscapes, utf8 ['\\',p.1] = [92,p.1.toNat.toUInt8] ∧
      p.1.toNat.toUInt8 ≠ 117 ∧ p.1.toNat.toUInt8 ≠ 10 ∧
      shortEscape? p.1.toNat.toUInt8 = some p.2 := by decide
  exact ⟨_,all _ h⟩

theorem utf8_number (ds : Text) : utf8 ('\\' :: 'u' :: ds) = 92 :: 117 :: utf8 ds := rfl

theorem yields_charText {c : Char} {u : Text} (h : CharText c u) {rest bs tail : Bytes}
    (hr : Yields rest bs tail) : Yields (utf8 u ++ rest) (utf8Char c ++ bs) tail := by
  cases h with
  | plain hq he hc =>
    rw [utf8_cons,show utf8 [] = [] from rfl,List.append_nil]
    exact yields_plains hr (plain_of_mem_utf8Char hq he hc)
  | short h =>
    obtain ⟨b,hu,hn,hf,hs⟩ := bytes_of_shortEscape h
    rw [hu]
    exact yields_short hr hn hf hs
  | number h => exact yields_number h hr
  | pair hd he hm hn hc =>
    rw [utf8_number,utf8_append,utf8_number,List.cons_append,List.cons_append,List.append_assoc]
    exact yields_pair hd he hm hn hc hr

theorem yields_spelt {s t : Text} (h : Spelt s t) (tail : Bytes) :
    Yields (utf8 t ++ 34 :: tail) (utf8 s) (34 :: tail) := by
  induction h with
  | nil => exact yields_quote tail
  | cons hc _ ih =>
    rw [utf8_append,utf8_cons,List.append_assoc]
    exact yields_charText hc ih

/-- A string comes back from all its texts, up to the closing quote. -/
theorem readString_spelt {s t : Text} (h : Spelt s t) (tail : Bytes) (l k : Nat) :
    ∃ k', readString ⟨utf8 t ++ 34 :: tail,l,k⟩ = .ok (s,⟨tail,l,k'⟩) := by
  obtain ⟨k',h⟩ := yields_spelt h tail _ (Nat.lt_succ_self _) l k
  refine ⟨k'+1,?_⟩
  simp only [readString,h,utf8Decode?_utf8,Cursor.skip,Cursor.past]
  rfl

theorem readString_stringText (t : Text) (tail : Bytes) (l k : Nat) :
    ∃ k', readString ⟨utf8 (t.flatMap escapeChar) ++ 34 :: tail,l,k⟩ = .ok (t,⟨tail,l,k'⟩) :=
  readString_spelt (spelt_escaped t) tail l k

theorem skipSpaces_of_not_space {b : UInt8} (h : isSpace b = false) (rest : Bytes) (l k : Nat) :
    skipSpaces ⟨b :: rest,l,k⟩ = ⟨b :: rest,l,k⟩ := by
  simp [skipSpaces,skipWhile,skipWhile.go,h]

theorem utf8_stringText (t : Text) :
    utf8 (stringText t) = 34 :: (utf8 (t.flatMap escapeChar) ++ [34]) := by
  simp only [stringText,utf8_append,List.append_assoc]
  rfl

theorem wantString_stringText (wanted t : Text) (tail : Bytes) (l k : Nat) :
    ∃ k', wantString wanted ⟨utf8 (stringText t) ++ tail,l,k⟩ = .ok (t,⟨tail,l,k'⟩) := by
  obtain ⟨k',h⟩ := readString_stringText t tail l (k+1)
  refine ⟨k',?_⟩
  rw [utf8_stringText,List.cons_append,List.append_assoc,List.singleton_append]
  rw [wantString,skipSpaces_of_not_space (by decide)]
  simpa [Cursor.peek,Cursor.skip,Cursor.past] using h

theorem stringText_injective {t u : Text} (h : stringText t = stringText u) : t = u := by
  obtain ⟨k,ht⟩ := wantString_stringText [] t [] 0 0
  obtain ⟨m,hu⟩ := wantString_stringText [] u [] 0 0
  rw [h,hu] at ht
  exact (Prod.mk.inj (Except.ok.inj ht)).1.symm

end Workbench.Json
