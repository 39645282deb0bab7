import Workbench.Proofs.Json.Reading
set_option autoImplicit false

/-!
Every text of a value is read over up to its end, however deep its lists and objects nest.
-/
namespace Workbench.Json
open Text

/-- In front of whatever follows, these bytes of a string are read over. -/
def Skipped (front : Bytes) : Prop := ∀ (c : Cursor) (bs : Bytes) (fuel : Nat), c.rest = front ++ bs →
  c.rest.length < fuel → ∃ d f, skipStringFrom fuel c = skipStringFrom f d ∧ d.rest = bs ∧
    bs.length < f

theorem skipped_nil : Skipped [] := by
  intro c bs fuel hc hf
  exact ⟨c,fuel,rfl,hc,by rwa [hc] at hf⟩

theorem Skipped.append {as bs : Bytes} (ha : Skipped as) (hb : Skipped bs) : Skipped (as ++ bs) := by
  intro c rest fuel hc hf
  obtain ⟨d,f,e,hd,hf⟩ := ha c (bs ++ rest) fuel (by rw [hc,List.append_assoc]) hf
  obtain ⟨d',f',e',hd',hf'⟩ := hb d rest f hd (hd ▸ hf)
  exact ⟨d',f',e.trans e',hd',hf'⟩

theorem skipped_of_step {front : Bytes} (hl : 0 < front.length)
    (hs : ∀ (c : Cursor) (bs : Bytes) (fuel : Nat), c.rest = front ++ bs →
      ∃ d, skipStringFrom (fuel+1) c = skipStringFrom fuel d ∧ d.rest = bs) : Skipped front := by
  intro c bs fuel hc hf
  rw [hc,List.length_append] at hf
  obtain ⟨f,rfl⟩ : ∃ f, fuel = f+1 := ⟨fuel-1,by omega⟩
  obtain ⟨d,e,hd⟩ := hs c bs f hc
  exact ⟨d,f,e,hd,by omega⟩

theorem skipped_plain {b : UInt8} (hq : b ≠ 34) (he : b ≠ 92) (hc : 32 ≤ b) : Skipped [b] := by
  refine skipped_of_step (by simp) fun c bs fuel h => ⟨c.skip,?_,rest_skip h⟩
  have hlt : ¬ b < 32 := UInt8.not_lt.2 hc
  rw [skipStringFrom,h]
  simp [hq,he,hlt]

theorem skipped_plains {bs : Bytes} (h : ∀ b ∈ bs, b ≠ 34 ∧ b ≠ 92 ∧ 32 ≤ b) : Skipped bs := by
  induction bs with
  | nil => exact skipped_nil
  | cons b bs ih =>
    obtain ⟨hb,hbs⟩ := List.forall_mem_cons.1 h
    exact (skipped_plain hb.1 hb.2.1 hb.2.2).append (ih hbs)

theorem skipped_short {e : UInt8} {c : Char} (hu : e ≠ 117) (hs : shortEscape? e = some c) :
    Skipped [92,e] := by
  refine skipped_of_step (by simp) fun c bs fuel h => ⟨c.skip.skip,?_,rest_skip (rest_skip h)⟩
  rw [skipStringFrom,h]
  simp [rest_skip h,hu,hs]

theorem skipped_number {n : Nat} {ds : Text} (h : HexText n ds) :
    Skipped (92 :: 117 :: utf8 ds) := by
  refine skipped_of_step (by simp) fun c bs fuel hc => ?_
  have hs := rest_skip hc
  obtain ⟨l,k,e⟩ : ∃ l k, c.skip.skip = ⟨utf8 ds ++ bs,l,k⟩ := by
    have ht := rest_skip hs
    exact ⟨_,_,congrArg (fun r => Cursor.mk r c.skip.skip.line c.skip.skip.column) ht⟩
  refine ⟨⟨bs,l,k+4⟩,?_,rfl⟩
  rw [skipStringFrom,hc]
  simp [hs,e,hexEscape_hexText h]

theorem skipped_charText {c : Char} {u : Text} (h : CharText c u) : Skipped (utf8 u) := by
  cases h with
  | plain hq he hc =>
    rw [utf8_cons,show utf8 [] = [] from rfl,List.append_nil]
    exact skipped_plains (plain_of_mem_utf8Char hq he hc)
  | short h =>
    obtain ⟨b,hu,hn,-,hs⟩ := bytes_of_shortEscape h
    rw [hu]
    exact skipped_short hn hs
  | number h => exact skipped_number h
  | pair hd he _ _ _ =>
    -- Each half of a pair is read over by itself.
    rw [utf8_number,utf8_append,utf8_number]
    exact (skipped_number hd).append (skipped_number he)

theorem skipped_spelt {s t : Text} (h : Spelt s t) : Skipped (utf8 t) := by
  induction h with
  | nil => exact skipped_nil
  | cons hc _ ih =>
    rw [utf8_append]
    exact (skipped_charText hc).append ih

theorem skipString_ok {s t : Text} (h : StringText s t) {c : Cursor} {bs : Bytes}
    (hc : c.rest = utf8 t ++ bs) : ∃ rest, c.rest = 34 :: rest ∧ Reaches (skipString c.skip) bs := by
  cases h with
  | @quoted t h =>
    rw [utf8_quoted] at hc
    refine ⟨_,hc,?_⟩
    have hs := rest_skip hc
    obtain ⟨d,f,e,hd,hf⟩ := skipped_spelt h c.skip (34 :: bs) (c.skip.rest.length+1) hs
      (Nat.lt_succ_self _)
    obtain ⟨f,rfl⟩ : ∃ g, f = g+1 := ⟨f-1,by omega⟩
    refine ⟨d.skip,?_,rest_skip hd⟩
    rw [skipString,e,skipStringFrom,hd]
    rfl

theorem skipNumber_ok {n : Nat} {c : Cursor} {bs : Bytes} (hc : c.rest = utf8 (decimal n) ++ bs)
    (he : Ends bs) : Reaches (skipNumber c) bs := by
  obtain ⟨b,rest,hfront,hb,hzero,-,hrest⟩ := decimal_read hc he
  have hp := Ends.peek (hrest ▸ he)
  refine ⟨skipWhile isDigit c,?_,hrest⟩
  rw [skipNumber,hfront]
  simp only [hb,hzero,Bool.not_true,Bool.false_eq_true,if_false]
  have hpoint := hp.1
  simp [skipNumber.afterDigits,hp.2.1,hp.2.2]

theorem skipValueAt_skipSpaces (fuel : Nat) (c : Cursor) :
    skipValueAt (fuel+1) (skipSpaces c) = skipValueAt (fuel+1) c := by
  rw [skipValueAt,skipValueAt,skipSpaces_skipSpaces]

def skipItemsFrom (fuel : Nat) : Bool → Cursor → Except Fault Cursor
  | true, c =>
    let c := skipSpaces c
    match c.peek with
    | none => .error (c.faultNext .eofList)
    | some 93 => .ok c.skip
    | some _ => skipItemsAt fuel c
  | false, c =>
    let c := skipSpaces c
    match c.peek with
    | none => .error (c.faultNext .eofList)
    | some 44 => skipItemsAt fuel c.skip
    | some 93 => .ok c.skip
    | some _ => .error (c.faultNext .expectedListEnd)

theorem skipItemsAt_succ (fuel : Nat) (c : Cursor) : skipItemsAt (fuel+1) c =
    match skipValueAt fuel c with
    | .error f => .error f
    | .ok c => skipItemsFrom fuel false c := by
  rw [skipItemsAt]
  rfl

theorem skipValueAt_list {c : Cursor} {bs : Bytes} (hc : c.rest = 91 :: bs) (hs : skipSpaces c = c)
    (fuel : Nat) : skipValueAt (fuel+1) c = skipItemsFrom fuel true c.skip := by
  rw [skipValueAt,hs,peek_eq hc]
  rfl

def skipMembersFrom (fuel : Nat) : Bool → Cursor → Except Fault Cursor
  | true, c =>
    let c := skipSpaces c
    match c.peek with
    | none => .error (c.faultNext .eofObject)
    | some 125 => .ok c.skip
    | some _ => skipMembersAt fuel c
  | false, c =>
    let c := skipSpaces c
    match c.peek with
    | none => .error (c.faultNext .eofObject)
    | some 44 => skipMembersAt fuel c.skip
    | some 125 => .ok c.skip
    | some _ => .error (c.faultNext .expectedObjectEnd)

theorem skipMembersAt_succ (fuel : Nat) {c c₁ c₂ : Cursor} {bs : Bytes}
    (hs : (skipSpaces c).rest = 34 :: bs) (hk : skipString (skipSpaces c).skip = .ok c₁)
    (hc : colon c₁ = .ok c₂) : skipMembersAt (fuel+1) c =
    match skipValueAt fuel c₂ with
    | .error f => .error f
    | .ok c => skipMembersFrom fuel false c := by
  rw [skipMembersAt,peek_eq hs]
  simp only [hk,hc]
  rfl

theorem skipValueAt_object {c : Cursor} {bs : Bytes} (hc : c.rest = 123 :: bs)
    (hs : skipSpaces c = c) (fuel : Nat) :
    skipValueAt (fuel+1) c = skipMembersFrom fuel true c.skip := by
  rw [skipValueAt,hs,peek_eq hc]
  rfl

theorem skipItemsFrom_lead (fuel : Nat) {first : Bool} {l : Text} (hl : Lead first l) {c : Cursor}
    {b : UInt8} {bs : Bytes} (hc : c.rest = utf8 l ++ b :: bs) (hb : isSpace b = false) (hn : b ≠ 93) :
    ∃ d k, skipItemsFrom fuel first c = skipItemsAt fuel d ∧ Gap k ∧ d.rest = utf8 k ++ b :: bs ∧
      d.rest.length ≤ c.rest.length := by
  cases hl with
  | first hg =>
    have hs := rest_skipSpaces hg hc hb
    refine ⟨skipSpaces c,[],?_,gap_nil,hs,by rw [hs,hc]; simp⟩
    rw [skipItemsFrom,peek_eq hs]
    simp
  | @next g k hg hk =>
    rw [utf8_comma,List.append_assoc,List.cons_append] at hc
    have hs := rest_skipSpaces hg hc (by decide)
    have ht := rest_skip hs
    refine ⟨(skipSpaces c).skip,k,?_,hk,ht,by rw [ht,hc]; simp; omega⟩
    rw [skipItemsFrom,peek_eq hs]
    rfl

theorem skipMembersFrom_lead (fuel : Nat) {first : Bool} {l : Text} (hl : Lead first l) {c : Cursor}
    {bs : Bytes} (hc : c.rest = utf8 l ++ 34 :: bs) :
    ∃ d k, skipMembersFrom fuel first c = skipMembersAt fuel d ∧ Gap k ∧
      d.rest = utf8 k ++ 34 :: bs ∧ d.rest.length ≤ c.rest.length := by
  cases hl with
  | first hg =>
    have hs := rest_skipSpaces hg hc (by decide)
    refine ⟨skipSpaces c,[],?_,gap_nil,hs,by rw [hs,hc]; simp⟩
    rw [skipMembersFrom,peek_eq hs]
    rfl
  | @next g k hg hk =>
    rw [utf8_comma,List.append_assoc,List.cons_append] at hc
    have hs := rest_skipSpaces hg hc (by decide)
    have ht := rest_skip hs
    refine ⟨(skipSpaces c).skip,k,?_,hk,ht,by rw [ht,hc]; simp; omega⟩
    rw [skipMembersFrom,peek_eq hs]
    rfl

def SkipsValue (t : Text) : Prop := ∀ (fuel : Nat) (c : Cursor) (g : Text) (bs : Bytes), Gap g →
  c.rest = utf8 g ++ (utf8 t ++ bs) → Ends bs → 2*c.rest.length ≤ fuel →
  Reaches (skipValueAt fuel c) bs

def SkipsItems (first : Bool) (t : Text) : Prop := ∀ (fuel : Nat) (c : Cursor) (bs : Bytes),
  c.rest = utf8 t ++ bs → 2*c.rest.length < fuel → Reaches (skipItemsFrom fuel first c) bs

def SkipsMembers (first : Bool) (t : Text) : Prop := ∀ (fuel : Nat) (c : Cursor) (bs : Bytes),
  c.rest = utf8 t ++ bs → 2*c.rest.length < fuel → Reaches (skipMembersFrom fuel first c) bs

section
variable {n : Nat} {v : Json} {first : Bool} {t u : Text}

theorem skipsValue_of_front {b : UInt8} {rest : Bytes} (e : utf8 t = b :: rest)
    (hb : isSpace b = false) (hs : ∀ (fuel : Nat) (c : Cursor) (bs : Bytes),
      c.rest = b :: (rest ++ bs) → skipSpaces c = c → Ends bs → 2*c.rest.length ≤ fuel+1 →
      Reaches (skipValueAt (fuel+1) c) bs) : SkipsValue t := by
  intro fuel c g bs hg hc he hf
  rw [e,List.cons_append] at hc
  have hr := rest_skipSpaces hg hc hb
  have hlen := congrArg List.length hc
  have hlen₁ := congrArg List.length hr
  simp only [List.length_append,List.length_cons] at hlen hlen₁
  obtain ⟨f,rfl⟩ : ∃ f, fuel = f+1 := ⟨fuel-1,by omega⟩
  rw [← skipValueAt_skipSpaces]
  exact hs f _ bs hr (skipSpaces_skipSpaces c) he (by omega)

theorem skipsValue_word {b : UInt8} {ws : Bytes} (e : utf8 t = b :: ws) (hb : isSpace b = false)
    (hs : ∀ (fuel : Nat) (c : Cursor), c.peek = some b → skipSpaces c = c →
      skipValueAt (fuel+1) c = ident ws c.skip) : SkipsValue t := by
  refine skipsValue_of_front e hb fun fuel c bs hc hsp _ _ => ?_
  rw [hs fuel c (peek_eq hc) hsp]
  exact ident_ok (rest_skip hc)

theorem skipsValue_int (i : Int) : SkipsValue (intText i) := by
  obtain ⟨b,rest,e,hb,-⟩ := intText_head i
  refine skipsValue_of_front e hb fun fuel c bs hc hs he _ => ?_
  rw [← List.cons_append,← e,intText] at hc
  by_cases hn : i < 0
  · rw [if_pos hn] at hc
    have hc : c.rest = 45 :: (utf8 (decimal i.natAbs) ++ bs) := hc
    rw [skipValueAt,hs,peek_eq hc]
    exact skipNumber_ok (rest_skip hc) he
  · rw [if_neg hn] at hc
    have hr := skipNumber_ok hc he
    obtain ⟨b,ds,e,hb⟩ := decimal_front i.natAbs
    rw [e,List.cons_append] at hc
    have hm := ne_of_isDigit hb
    rw [skipValueAt,hs,peek_eq hc]
    simpa [hm,hb] using hr

theorem skipsValue_string {s : Text} (h : StringText s t) : SkipsValue t := by
  obtain ⟨rest,e⟩ := h.head
  refine skipsValue_of_front e (by decide) fun fuel c bs hc hs _ _ => ?_
  rw [skipValueAt,hs,peek_eq hc]
  rw [← List.cons_append,← e] at hc
  obtain ⟨-,-,hr⟩ := skipString_ok h hc
  exact hr

theorem skipsValue_list (h : SkipsItems true t) : SkipsValue ('[' :: t) := by
  refine skipsValue_of_front (show utf8 ('[' :: t) = 91 :: utf8 t from rfl) (by decide)
    fun fuel c bs hc hs _ hf => ?_
  have hlen := length_skip hc
  rw [skipValueAt_list hc hs]
  exact h fuel c.skip bs (rest_skip hc) (by omega)

theorem skipsValue_object (h : SkipsMembers true t) : SkipsValue ('\x7b' :: t) := by
  refine skipsValue_of_front (show utf8 ('\x7b' :: t) = 123 :: utf8 t from rfl) (by decide)
    fun fuel c bs hc hs _ hf => ?_
  have hlen := length_skip hc
  rw [skipValueAt_object hc hs]
  exact h fuel c.skip bs (rest_skip hc) (by omega)

theorem skipsItems_close {g : Text} (hg : Gap g) : SkipsItems first (g ++ [']']) := by
  intro fuel c bs hc _
  rw [utf8_append,List.append_assoc] at hc
  have hs := rest_skipSpaces hg hc (by decide)
  refine ⟨(skipSpaces c).skip,?_,rest_skip hs⟩
  cases first <;>
    · rw [skipItemsFrom,peek_eq hs]
      rfl

theorem skipsItems_item {l : Text} (hl : Lead first l) (h : ValueText n v t) (hv : SkipsValue t)
    (he : ∀ bs, Ends (utf8 u ++ bs)) (hr : SkipsItems false u) : SkipsItems first (l ++ (t ++ u)) := by
  intro fuel c bs hc hf
  obtain ⟨f,rfl⟩ : ∃ f, fuel = f+1 := ⟨fuel-1,by omega⟩
  rw [utf8_append,utf8_append,List.append_assoc,List.append_assoc] at hc
  obtain ⟨b,rest,e,hb,hn⟩ := h.head
  rw [e,List.cons_append] at hc
  obtain ⟨d,k,hd,hk,h₁,hlen⟩ := skipItemsFrom_lead (f+1) hl hc hb hn
  have hlen₁ := congrArg List.length h₁
  rw [← List.cons_append,← e] at h₁
  obtain ⟨d₂,hv,h₂⟩ := hv f d k _ hk h₁ (he bs) (by omega)
  have hlen₂ := congrArg List.length h₂
  simp only [List.length_append,List.length_cons] at hlen₁ hlen₂
  rw [hd,skipItemsAt_succ,hv]
  exact hr f d₂ bs h₂ (by omega)

theorem skipsMembers_close {g : Text} (hg : Gap g) : SkipsMembers first (g ++ ['\x7d']) := by
  intro fuel c bs hc _
  rw [utf8_append,List.append_assoc] at hc
  have hs := rest_skipSpaces hg hc (by decide)
  refine ⟨(skipSpaces c).skip,?_,rest_skip hs⟩
  cases first <;>
    · rw [skipMembersFrom,peek_eq hs]
      rfl

theorem skipsMembers_member {k l key g a : Text} (hl : Lead first l) (hk : StringText k key)
    (hg : Gap g) (ha : Gap a) (hv : SkipsValue t) (he : ∀ bs, Ends (utf8 u ++ bs))
    (hr : SkipsMembers false u) : SkipsMembers first (l ++ (key ++ (g ++ ':' :: (a ++ (t ++ u))))) := by
  intro fuel c bs hc hf
  obtain ⟨f,rfl⟩ : ∃ f, fuel = f+1 := ⟨fuel-1,by omega⟩
  obtain ⟨q,e⟩ := hk.head
  rw [utf8_member,e,List.cons_append] at hc
  obtain ⟨d,j,hd,hj,h₁,hlen⟩ := skipMembersFrom_lead (f+1) hl hc
  have hs := rest_skipSpaces hj h₁ (by decide)
  have hkey := hs
  rw [← List.cons_append,← e] at hkey
  obtain ⟨-,-,d₁,hr₁,h₂⟩ := skipString_ok hk hkey
  obtain ⟨d₂,hcol,h₃⟩ := colon_ok hg h₂
  have hlen₁ := congrArg List.length h₁
  have hlen₃ := congrArg List.length h₃
  simp only [List.length_append,List.length_cons] at hlen₁ hlen₃
  obtain ⟨d₃,hv,h₄⟩ := hv f d₂ a _ ha h₃ (he bs) (by omega)
  have hlen₄ := congrArg List.length h₄
  rw [List.length_append] at hlen₄
  rw [hd,skipMembersAt_succ f hs hr₁ hcol,hv]
  exact hr f d₃ bs h₄ (by omega)

end

theorem skipsValue_null : SkipsValue "null".toList := by
  refine skipsValue_word (show utf8 _ = 110 :: ascii "ull" from rfl) (by decide) fun fuel c hp hs => ?_
  rw [skipValueAt,hs,hp]
  rfl

theorem skipsValue_bool (b : Bool) :
    SkipsValue (if b then "true".toList else "false".toList) := by
  cases b with
  | true =>
    refine skipsValue_word (show utf8 _ = 116 :: ascii "rue" from rfl) (by decide)
      fun fuel c hp hs => ?_
    rw [skipValueAt,hs,hp]
    rfl
  | false =>
    refine skipsValue_word (show utf8 _ = 102 :: ascii "alse" from rfl) (by decide)
      fun fuel c hp hs => ?_
    rw [skipValueAt,hs,hp]
    rfl

mutual

theorem ValueText.skip {n : Nat} {v : Json} {t : Text} : ValueText n v t → SkipsValue t
  | .null => skipsValue_null
  | .bool => skipsValue_bool _
  | .int _ => skipsValue_int _
  | .string h => skipsValue_string h
  | .array h => skipsValue_list h.skip
  | .object h _ => skipsValue_object h.skip

theorem ItemsText.skip {n : Nat} {first : Bool} {vs : List Json} {t : Text} :
    ItemsText first n vs t → SkipsItems first t
  | .close hg => skipsItems_close hg
  | .item hl h hr => skipsItems_item hl h h.skip (fun _ => hr.ends) hr.skip

theorem MembersText.skip {n : Nat} {first : Bool} {ms : List (Text × Json)} {t : Text} :
    MembersText first n ms t → SkipsMembers first t
  | .close hg => skipsMembers_close hg
  | .member hl hk hg ha h hr =>
    skipsMembers_member hl hk hg ha h.skip (fun _ => hr.ends) hr.skip

end

end Workbench.Json
