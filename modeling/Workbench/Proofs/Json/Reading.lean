import Workbench.Proofs.Json.StringText
set_option autoImplicit false

/-!
Values come back from all their texts. What counts of the place that a reader leaves is what is left to
read there.
-/
namespace Workbench.Json
open Text

def Leaves {α : Type} (r : Result α) (a : α) (bs : Bytes) : Prop :=
  ∃ d : Cursor, r = .ok (a,d) ∧ d.rest = bs

def Reaches (r : Except Fault Cursor) (bs : Bytes) : Prop := ∃ d : Cursor, r = .ok d ∧ d.rest = bs

theorem rest_past (c : Cursor) (b : UInt8) (bs : Bytes) : (c.past b bs).rest = bs := by
  unfold Cursor.past
  split <;> rfl

theorem rest_skip {c : Cursor} {b : UInt8} {bs : Bytes} (h : c.rest = b :: bs) :
    c.skip.rest = bs := by
  rw [Cursor.skip,h]
  exact rest_past c b bs

theorem length_skip {c : Cursor} {b : UInt8} {bs : Bytes} (h : c.rest = b :: bs) :
    c.skip.rest.length+1 = c.rest.length := by
  rw [rest_skip h,h]
  rfl

theorem peek_eq {c : Cursor} {b : UInt8} {bs : Bytes} (h : c.rest = b :: bs) :
    c.peek = some b := by
  rw [Cursor.peek,h]
  rfl

theorem rest_skipWhile (p : UInt8 → Bool) (c : Cursor) :
    (skipWhile p c).rest = c.rest.dropWhile p := by
  have go : ∀ (bs : Bytes) (c : Cursor), c.rest = bs →
      (skipWhile.go p bs c).rest = bs.dropWhile p := by
    intro bs
    induction bs with
    | nil => exact fun c h => h
    | cons b bs ih =>
      intro c h
      rw [skipWhile.go,List.dropWhile_cons]
      split
      · exact ih _ (rest_past c b bs)
      · exact h
  exact go c.rest c rfl

theorem ident_ok {ws bs : Bytes} {c : Cursor} (h : c.rest = ws ++ bs) : Reaches (ident ws c) bs := by
  induction ws generalizing c with
  | nil => exact ⟨c,rfl,h⟩
  | cons w ws ih =>
    rw [ident,h]
    simp only [List.cons_append,if_true]
    exact ih (rest_skip h)

theorem utf8_gap {g : Text} (hg : Gap g) : ∀ b ∈ utf8 g, isSpace b = true := by
  intro b hb
  obtain ⟨c,hc,hb⟩ := List.mem_flatMap.1 hb
  rcases hg c hc with rfl | rfl | rfl | rfl <;>
    · rw [List.mem_singleton.1 hb]
      decide

theorem rest_skipSpaces {c : Cursor} {g : Text} {b : UInt8} {bs : Bytes} (hg : Gap g)
    (hc : c.rest = utf8 g ++ b :: bs) (hb : isSpace b = false) :
    (skipSpaces c).rest = b :: bs := by
  rw [skipSpaces,rest_skipWhile,hc,List.dropWhile_append_of_pos (utf8_gap hg)]
  simp [hb]

theorem skipSpaces_front {c : Cursor} {b : UInt8} {bs : Bytes} (hc : c.rest = b :: bs)
    (hb : isSpace b = false) : skipSpaces c = c := by
  obtain ⟨rest,l,k⟩ := c
  simp only at hc
  subst hc
  exact skipSpaces_of_not_space hb bs l k

theorem skipSpaces_skipSpaces (c : Cursor) : skipSpaces (skipSpaces c) = skipSpaces c := by
  have hr : (skipSpaces c).rest = c.rest.dropWhile isSpace := rest_skipWhile isSpace c
  cases h : (skipSpaces c).rest with
  | nil =>
    rw [skipSpaces,skipWhile,h]
    rfl
  | cons b bs =>
    have hb := List.head?_dropWhile_not isSpace c.rest
    rw [← hr,h] at hb
    exact skipSpaces_front h hb

theorem utf8_comma (g k : Text) : utf8 (g ++ ',' :: k) = utf8 g ++ 44 :: utf8 k := utf8_append g _

section
variable {first : Bool} {c : Cursor} {g l : Text} {b : UInt8} {bs : Bytes}

theorem moreItems_close (first : Bool) (hg : Gap g) (hc : c.rest = utf8 g ++ 93 :: bs) :
    Leaves (moreItems first c) false (93 :: bs) := by
  have hs := rest_skipSpaces hg hc (by decide)
  exact ⟨skipSpaces c,by rw [moreItems,peek_eq hs]; rfl,hs⟩

theorem moreItems_lead (hl : Lead first l) (hc : c.rest = utf8 l ++ b :: bs)
    (hb : isSpace b = false) (hn : b ≠ 93) : Leaves (moreItems first c) true (b :: bs) := by
  cases hl with
  | first hg =>
    have hs := rest_skipSpaces hg hc hb
    refine ⟨skipSpaces c,?_,hs⟩
    rw [moreItems,peek_eq hs]
    simp
  | next hg hk =>
    rw [utf8_comma,List.append_assoc,List.cons_append] at hc
    have hs := rest_skipSpaces hg hc (by decide)
    have ht := rest_skipSpaces hk (rest_skip hs) hb
    refine ⟨_,?_,ht⟩
    rw [moreItems,peek_eq hs]
    simp [peek_eq ht]

theorem moreKeys_close (first : Bool) (hg : Gap g) (hc : c.rest = utf8 g ++ 125 :: bs) :
    Leaves (moreKeys first c) false (125 :: bs) := by
  have hs := rest_skipSpaces hg hc (by decide)
  exact ⟨skipSpaces c,by rw [moreKeys,peek_eq hs]; rfl,hs⟩

theorem moreKeys_lead (hl : Lead first l) (hc : c.rest = utf8 l ++ 34 :: bs) :
    Leaves (moreKeys first c) true (34 :: bs) := by
  cases hl with
  | first hg =>
    have hs := rest_skipSpaces hg hc (by decide)
    refine ⟨skipSpaces c,?_,hs⟩
    rw [moreKeys,peek_eq hs]
    simp
  | next hg hk =>
    rw [utf8_comma,List.append_assoc,List.cons_append] at hc
    have hs := rest_skipSpaces hg hc (by decide)
    have ht := rest_skipSpaces hk (rest_skip hs) (by decide)
    refine ⟨_,?_,ht⟩
    rw [moreKeys,peek_eq hs]
    simp [peek_eq ht]

theorem colon_ok (hg : Gap g) (hc : c.rest = utf8 g ++ 58 :: bs) : Reaches (colon c) bs := by
  have hs := rest_skipSpaces hg hc (by decide)
  refine ⟨(skipSpaces c).skip,?_,rest_skip hs⟩
  rw [colon,peek_eq hs]
  rfl

end

theorem utf8_quoted (t : Text) (bs : Bytes) :
    utf8 ('"' :: (t ++ ['"'])) ++ bs = 34 :: (utf8 t ++ 34 :: bs) := by
  simp [utf8_append,utf8_cons,show utf8Char '"' = [34] from rfl,show utf8 [] = [] from rfl]

theorem readString_ok {s t : Text} (h : StringText s t) {c : Cursor} {bs : Bytes}
    (hc : c.rest = utf8 t ++ bs) : ∃ rest, c.rest = 34 :: rest ∧ Leaves (readString c.skip) s bs := by
  cases h with
  | @quoted t h =>
    rw [utf8_quoted] at hc
    refine ⟨_,hc,?_⟩
    have hs := rest_skip hc
    generalize c.skip = d at hs
    obtain ⟨rest,l,k⟩ := d
    simp only at hs
    subst hs
    obtain ⟨k',hr⟩ := readString_spelt h bs l k
    exact ⟨_,hr,rfl⟩

theorem StringText.head {s t : Text} (h : StringText s t) : ∃ bs, utf8 t = 34 :: bs := by
  cases h with
  | quoted h => exact ⟨_,rfl⟩

theorem key_ok {first : Bool} {l k key g : Text} (hl : Lead first l) (hk : StringText k key)
    (hg : Gap g) {c : Cursor} {bs : Bytes}
    (hc : c.rest = utf8 l ++ (utf8 key ++ (utf8 g ++ 58 :: bs))) :
    ∃ c₁ c₂, moreKeys first c = .ok (true,c₁) ∧ readString c₁.skip = .ok (k,c₂) ∧
      Reaches (colon c₂) bs := by
  obtain ⟨u,hu⟩ := hk.head
  obtain ⟨c₁,hm,h₁⟩ := moreKeys_lead hl (by rw [hc,hu,List.cons_append])
  rw [← List.cons_append,← hu] at h₁
  obtain ⟨-,-,c₂,hr,h₂⟩ := readString_ok hk h₁
  exact ⟨c₁,c₂,hm,hr,colon_ok hg h₂⟩

/-- What may follow a number: nothing that could be a part of it. -/
def Ends (bs : Bytes) : Prop := ∀ b, bs.head? = some b → isDigit b = false ∧ b ≠ 46 ∧ b ≠ 101 ∧ b ≠ 69

theorem decimal_head (n : Nat) : ∃ d ds, decimal n = hexDigit d :: ds ∧ d < 10 ∧
    (d = 0 → ds = []) := by
  rw [decimal]
  induction n using Nat.strongRecOn with
  | ind n ih =>
    by_cases hn : n < 10
    · exact ⟨n,[],digits_small hn,hn,fun _ => rfl⟩
    · obtain ⟨d,ds,e,hd,hz⟩ := ih (n/10) (Nat.div_lt_self (by omega) (by omega))
      refine ⟨d,ds ++ [hexDigit (n%10)],by rw [digits_step (by omega) (by omega),e]; rfl,hd,?_⟩
      rintro rfl
      -- A number of several digits does not begin with a zero.
      rw [hz rfl] at e
      have hv := congrArg (List.foldl (fun m c => 10*m+(c.toNat-48)) 0) e
      rw [foldl_digits (by omega) fun d hd => by rw [toNat_hexDigit hd]; omega] at hv
      simp [toNat_hexDigit] at hv
      omega

theorem byte_of_digit {d : Nat} (h : d < 10) : ∃ b, utf8Char (hexDigit d) = [b] ∧
    b = (hexDigit d).toNat.toUInt8 ∧ isDigit b = true ∧ digitValue b = d ∧ (b = 48 → d = 0) := by
  have all : ∀ d < 10, utf8Char (hexDigit d) = [(hexDigit d).toNat.toUInt8] ∧
      isDigit (hexDigit d).toNat.toUInt8 = true ∧ digitValue (hexDigit d).toNat.toUInt8 = d ∧
      ((hexDigit d).toNat.toUInt8 = 48 → d = 0) := by decide
  obtain ⟨hu,hr⟩ := all d h
  exact ⟨_,hu,rfl,hr⟩

theorem digit_of_mem_decimal {n : Nat} {b : UInt8} (h : b ∈ utf8 (decimal n)) :
    isDigit b = true := by
  obtain ⟨c,hc,hb⟩ := List.mem_flatMap.1 h
  obtain ⟨d,hd,rfl⟩ := mem_digits (by omega) hc
  obtain ⟨e,hu,-,hd,-⟩ := byte_of_digit hd
  rw [hu,List.mem_singleton] at hb
  rwa [hb]

theorem digitsValue_decimal (n : Nat) : digitsValue (utf8 (decimal n)) = n := by
  have run : ∀ (t : Text) (m : Nat), (∀ c ∈ t, ∃ d < 10, c = hexDigit d) →
      (utf8 t).foldl (fun n b => 10*n+digitValue b) m =
        t.foldl (fun n c => 10*n+digitValue c.toNat.toUInt8) m := by
    intro t
    induction t with
    | nil => exact fun _ _ => rfl
    | cons c t ih =>
      intro m h
      obtain ⟨⟨d,hd,rfl⟩,ht⟩ := List.forall_mem_cons.1 h
      obtain ⟨b,hu,rfl,-⟩ := byte_of_digit hd
      rw [utf8_cons,hu,List.singleton_append,List.foldl_cons,List.foldl_cons,ih _ ht]
  rw [digitsValue,run (decimal n) 0 fun c hc => mem_digits (by omega) hc]
  refine foldl_digits (by omega) (fun d hd => ?_) n
  obtain ⟨b,-,rfl,-,hv,-⟩ := byte_of_digit hd
  exact hv

theorem Ends.peek {c : Cursor} (h : Ends c.rest) :
    c.peek ≠ some 46 ∧ c.peek ≠ some 101 ∧ c.peek ≠ some 69 :=
  ⟨fun e => (h _ e).2.1 rfl,fun e => (h _ e).2.2.1 rfl,fun e => (h _ e).2.2.2 rfl⟩

theorem decimal_read {n : Nat} {c : Cursor} {bs : Bytes} (hc : c.rest = utf8 (decimal n) ++ bs)
    (he : Ends bs) : ∃ b rest, c.rest = b :: rest ∧ isDigit b = true ∧
      (b = 48 && rest.head?.any isDigit) = false ∧
      c.rest.takeWhile isDigit = utf8 (decimal n) ∧ (skipWhile isDigit c).rest = bs := by
  have hall : ∀ b ∈ utf8 (decimal n), isDigit b = true := fun b => digit_of_mem_decimal
  have hstop : bs.takeWhile isDigit = [] ∧ bs.dropWhile isDigit = bs := by
    cases bs with
    | nil => exact ⟨rfl,rfl⟩
    | cons b bs => simp [(he b rfl).1]
  obtain ⟨d,ds,hd,hlt,hz⟩ := decimal_head n
  obtain ⟨b,hu,-,hb,-,h48⟩ := byte_of_digit hlt
  refine ⟨b,utf8 ds ++ bs,by rw [hc,hd,utf8_cons,hu]; rfl,hb,?_,?_,?_⟩
  · by_cases h : b = 48
    · rw [hz (h48 h)]
      cases bs with
      | nil => simp [utf8]
      | cons b bs => simp [utf8,(he b rfl).1]
    · simp [h]
  · rw [hc,List.takeWhile_append_of_pos hall,hstop.1,List.append_nil]
  · rw [rest_skipWhile,hc,List.dropWhile_append_of_pos hall,hstop.2]

theorem literal_decimal {n : Nat} {c : Cursor} {bs : Bytes} (negative : Bool)
    (hc : c.rest = utf8 (decimal n) ++ bs) (he : Ends bs) :
    Leaves (literal negative c) ⟨negative,utf8 (decimal n),[],none⟩ bs := by
  obtain ⟨b,rest,hfront,hb,hzero,htake,hrest⟩ := decimal_read hc he
  have hp := Ends.peek (hrest ▸ he)
  refine ⟨skipWhile isDigit c,?_,hrest⟩
  rw [← htake,literal,hfront]
  simp only [hb,hzero,Bool.not_true,Bool.false_eq_true,if_false]
  have hpoint := hp.1
  simp [literal.withExponent,hp.2.1,hp.2.2]

theorem readNumber_ok (negative : Bool) {n : Nat} {c : Cursor} {bs : Bytes}
    (hn : if negative then 0 < n ∧ n ≤ 2^63 else n < 2^64)
    (hc : c.rest = utf8 (decimal n) ++ bs) (he : Ends bs) :
    Leaves (readNumber negative c) (.int (if negative then -(n : Int) else n)) bs := by
  obtain ⟨d,hl,hd⟩ := literal_decimal negative hc he
  refine ⟨d,?_,hd⟩
  have hv : (Literal.mk negative (utf8 (decimal n)) [] none).value? =
      some (.int (if negative then -(n : Int) else n)) := by
    rw [Literal.value?,Literal.digits,List.append_nil,digitsValue_decimal]
    cases negative <;> simp_all
  rw [readNumber,hl]
  simp only [hv]

theorem valueAt_skipSpaces (fuel depth : Nat) (c : Cursor) :
    valueAt (fuel+1) depth (skipSpaces c) = valueAt (fuel+1) depth c := by
  rw [valueAt,valueAt,skipSpaces_skipSpaces]

theorem utf8_member (l key g a t u : Text) (bs : Bytes) :
    utf8 (l ++ (key ++ (g ++ ':' :: (a ++ (t ++ u))))) ++ bs =
      utf8 l ++ (utf8 key ++ (utf8 g ++ 58 :: (utf8 a ++ (utf8 t ++ (utf8 u ++ bs))))) := by
  simp [utf8_append,utf8_cons,show utf8Char ':' = [58] from rfl]

/-- A digit is none of the bytes that the readers look for before they look for digits, and none that
may stand around a number. -/
theorem ne_of_isDigit {b : UInt8} (h : isDigit b = true) :
    ∀ m ∈ ([110,116,102,45,93,32,10,9,13] : Bytes), b ≠ m := by
  rintro m hm rfl
  have all : ([110,116,102,45,93,32,10,9,13] : Bytes).all (fun m => !isDigit m) = true := by decide
  have hb := List.all_eq_true.1 all _ hm
  rw [h] at hb
  cases hb

theorem decimal_front (n : Nat) : ∃ b bs, utf8 (decimal n) = b :: bs ∧ isDigit b = true := by
  obtain ⟨d,ds,hd,hlt,-⟩ := decimal_head n
  obtain ⟨b,hu,-,hb,-⟩ := byte_of_digit hlt
  exact ⟨b,utf8 ds,by rw [hd,utf8_cons,hu]; rfl,hb⟩

theorem intText_head (i : Int) :
    ∃ b bs, utf8 (intText i) = b :: bs ∧ isSpace b = false ∧ b ≠ 93 := by
  rw [intText]
  split
  · exact ⟨45,_,rfl,by decide,by decide⟩
  · obtain ⟨b,bs,e,hb⟩ := decimal_front i.natAbs
    have hm := ne_of_isDigit hb
    exact ⟨b,bs,e,by simp [isSpace,hm],hm 93 (by decide)⟩

theorem ValueText.head {n : Nat} {v : Json} {t : Text} (h : ValueText n v t) :
    ∃ b bs, utf8 t = b :: bs ∧ isSpace b = false ∧ b ≠ 93 := by
  cases h with
  | null => exact ⟨110,_,rfl,by decide,by decide⟩
  | @bool _ b =>
    cases b with
    | true => exact ⟨116,_,rfl,by decide,by decide⟩
    | false => exact ⟨102,_,rfl,by decide,by decide⟩
  | int _ => exact intText_head _
  | string h =>
    obtain ⟨bs,e⟩ := h.head
    exact ⟨34,bs,e,by decide,by decide⟩
  | array h => exact ⟨91,_,rfl,by decide,by decide⟩
  | object h hd => exact ⟨123,_,rfl,by decide,by decide⟩

theorem ends_gap {g : Text} {b : UInt8} {bs : Bytes} (hg : Gap g)
    (hb : b = 44 ∨ b = 93 ∨ b = 125) : Ends (utf8 g ++ b :: bs) := by
  intro a ha
  have hspace : ∀ a, isSpace a = true → isDigit a = false ∧ a ≠ 46 ∧ a ≠ 101 ∧ a ≠ 69 := by
    intro a h
    simp only [isSpace,Bool.or_eq_true,beq_iff_eq] at h
    rcases h with ((rfl | rfl) | rfl) | rfl <;> decide
  cases e : utf8 g with
  | nil =>
    rw [e,List.nil_append,List.head?_cons,Option.some.injEq] at ha
    subst ha
    rcases hb with rfl | rfl | rfl <;> decide
  | cons d ds =>
    rw [e,List.cons_append,List.head?_cons,Option.some.injEq] at ha
    subst ha
    exact hspace d (utf8_gap hg d (by rw [e]; exact List.mem_cons_self))

theorem Lead.ends {l : Text} (h : Lead false l) (t : Text) (bs : Bytes) :
    Ends (utf8 (l ++ t) ++ bs) := by
  cases h with
  | next hg _ =>
    rw [utf8_append,utf8_comma,List.append_assoc,List.append_assoc]
    exact ends_gap hg (.inl rfl)

theorem ItemsText.ends {n : Nat} {vs : List Json} {t : Text} {bs : Bytes}
    (h : ItemsText false n vs t) : Ends (utf8 t ++ bs) := by
  cases h with
  | close hg =>
    rw [utf8_append,List.append_assoc]
    exact ends_gap hg (.inr (.inl rfl))
  | item hl _ _ => exact hl.ends _ _

theorem MembersText.ends {n : Nat} {ms : List (Text × Json)} {t : Text} {bs : Bytes}
    (h : MembersText false n ms t) : Ends (utf8 t ++ bs) := by
  cases h with
  | close hg =>
    rw [utf8_append,List.append_assoc]
    exact ends_gap hg (.inr (.inr rfl))
  | member hl _ _ _ _ _ => exact hl.ends _ _

/-- Behind a gap the value is read from this text. -/
def ReadsValue (n : Nat) (v : Json) (t : Text) : Prop := ∀ (depth fuel : Nat) (c : Cursor) (g : Text)
  (bs : Bytes), Gap g → c.rest = utf8 g ++ (utf8 t ++ bs) → Ends bs → n < depth →
  2*c.rest.length ≤ fuel → Leaves (valueAt fuel depth c) v bs

def ReadsItems (first : Bool) (n : Nat) (vs : List Json) (t : Text) : Prop :=
  ∀ (depth fuel : Nat) (c : Cursor) (bs : Bytes), c.rest = utf8 t ++ bs → n < depth →
  2*c.rest.length < fuel → Leaves (itemsAt fuel depth first c) vs (93 :: bs)

def ReadsMembers (first : Bool) (n : Nat) (ms : List (Text × Json)) (t : Text) : Prop :=
  ∀ (depth fuel : Nat) (known : List (Text × Json)) (c : Cursor) (bs : Bytes),
  c.rest = utf8 t ++ bs → n < depth → 2*c.rest.length < fuel →
  Leaves (membersAt fuel depth first known c)
    (ms.foldl (fun es m => insertEntry m.1 m.2 es) known) (125 :: bs)

section
variable {n : Nat} {v : Json} {vs : List Json} {ms : List (Text × Json)} {first : Bool} {t u : Text}

theorem readsValue_of_front {b : UInt8} {rest : Bytes} (e : utf8 t = b :: rest)
    (hb : isSpace b = false) (hs : ∀ (depth fuel : Nat) (c : Cursor) (bs : Bytes),
      c.rest = b :: (rest ++ bs) → skipSpaces c = c → Ends bs → n < depth →
      2*c.rest.length ≤ fuel+1 → Leaves (valueAt (fuel+1) depth c) v bs) : ReadsValue n v t := by
  intro depth fuel c g bs hg hc he hd hf
  rw [e,List.cons_append] at hc
  have hr := rest_skipSpaces hg hc hb
  have hlen := congrArg List.length hc
  have hlen₁ := congrArg List.length hr
  simp only [List.length_append,List.length_cons] at hlen hlen₁
  obtain ⟨f,rfl⟩ : ∃ f, fuel = f+1 := ⟨fuel-1,by omega⟩
  rw [← valueAt_skipSpaces]
  exact hs depth f _ bs hr (skipSpaces_skipSpaces c) he hd (by omega)

theorem readsValue_word {b : UInt8} {ws : Bytes} (e : utf8 t = b :: ws) (hb : isSpace b = false)
    (hs : ∀ (depth fuel : Nat) (c : Cursor), c.peek = some b → skipSpaces c = c →
      valueAt (fuel+1) depth c = (ident ws c.skip).map fun c => (v,c)) : ReadsValue n v t := by
  refine readsValue_of_front e hb fun depth fuel c bs hc hsp _ _ _ => ?_
  obtain ⟨d,hi,hd⟩ := ident_ok (rest_skip hc)
  rw [hs depth fuel c (peek_eq hc) hsp,hi]
  exact ⟨d,rfl,hd⟩

theorem readsValue_null : ReadsValue n .null "null".toList := by
  refine readsValue_word (show utf8 _ = 110 :: ascii "ull" from rfl) (by decide)
    fun depth fuel c hp hs => ?_
  rw [valueAt,hs,hp]
  rfl

theorem readsValue_bool (b : Bool) :
    ReadsValue n (.bool b) (if b then "true".toList else "false".toList) := by
  cases b with
  | true =>
    refine readsValue_word (show utf8 _ = 116 :: ascii "rue" from rfl) (by decide)
      fun depth fuel c hp hs => ?_
    rw [valueAt,hs,hp]
    rfl
  | false =>
    refine readsValue_word (show utf8 _ = 102 :: ascii "alse" from rfl) (by decide)
      fun depth fuel c hp hs => ?_
    rw [valueAt,hs,hp]
    rfl

theorem readsValue_int {i : Int} (hi : Fits i) : ReadsValue n (.int i) (intText i) := by
  obtain ⟨hmin,hmax⟩ := hi
  obtain ⟨b,rest,e,hb,-⟩ := intText_head i
  refine readsValue_of_front e hb fun depth fuel c bs hc hs he _ _ => ?_
  rw [← List.cons_append,← e,intText] at hc
  by_cases hn : i < 0
  · rw [if_pos hn] at hc
    have hc : c.rest = 45 :: (utf8 (decimal i.natAbs) ++ bs) := hc
    have hr := readNumber_ok true (show 0 < i.natAbs ∧ i.natAbs ≤ 2^63 by omega) (rest_skip hc) he
    rw [if_pos rfl,show -(i.natAbs : Int) = i by omega] at hr
    rw [valueAt,hs,peek_eq hc]
    exact hr
  · rw [if_neg hn] at hc
    have hr := readNumber_ok false (show i.natAbs < 2^64 by omega) hc he
    rw [if_neg (by decide),show (i.natAbs : Int) = i by omega] at hr
    obtain ⟨b,ds,e,hb⟩ := decimal_front i.natAbs
    rw [e,List.cons_append] at hc
    have hm := ne_of_isDigit hb
    rw [valueAt,hs,peek_eq hc]
    simpa [hm,hb] using hr

theorem readsValue_string {s : Text} (h : StringText s t) : ReadsValue n (.string s) t := by
  obtain ⟨rest,e⟩ := h.head
  refine readsValue_of_front e (by decide) fun depth fuel c bs hc hs _ _ _ => ?_
  rw [valueAt,hs,peek_eq hc]
  rw [← List.cons_append,← e] at hc
  obtain ⟨-,-,d,hr,hd⟩ := readString_ok h hc
  refine ⟨d,?_,hd⟩
  simp [isDigit,hr,Except.map]

theorem readsValue_list (h : ReadsItems true n vs t) : ReadsValue (n+1) (.array vs) ('[' :: t) := by
  refine readsValue_of_front (show utf8 ('[' :: t) = 91 :: utf8 t from rfl) (by decide)
    fun depth fuel c bs hc hs _ hd hf => ?_
  have hlen := length_skip hc
  obtain ⟨d,hr,hl⟩ := h (depth-1) fuel c.skip bs (rest_skip hc) (by omega) (by omega)
  refine ⟨d.skip,?_,rest_skip hl⟩
  have hn : ¬ depth ≤ 1 := by omega
  rw [valueAt,hs,peek_eq hc]
  simp [isDigit,hn,hr]

theorem readsValue_object {o : Dictionary Json} (h : ReadsMembers true n ms t) (ho : o.Says ms) :
    ReadsValue (n+1) (.object o.entries) ('\x7b' :: t) := by
  refine readsValue_of_front (show utf8 ('\x7b' :: t) = 123 :: utf8 t from rfl) (by decide)
    fun depth fuel c bs hc hs _ hd hf => ?_
  have hlen := length_skip hc
  obtain ⟨d,hr,hl⟩ := h (depth-1) fuel [] c.skip bs (rest_skip hc) (by omega) (by omega)
  refine ⟨d.skip,?_,rest_skip hl⟩
  have hn : ¬ depth ≤ 1 := by omega
  rw [valueAt,hs,peek_eq hc]
  simp [isDigit,hn,hr,ho.entries_eq]

theorem readsItems_close {g : Text} (hg : Gap g) : ReadsItems first n [] (g ++ [']']) := by
  intro depth fuel c bs hc _ hf
  obtain ⟨f,rfl⟩ : ∃ f, fuel = f+1 := ⟨fuel-1,by omega⟩
  rw [utf8_append,List.append_assoc] at hc
  obtain ⟨d,hm,hl⟩ := moreItems_close first hg hc
  refine ⟨d,?_,hl⟩
  rw [itemsAt,hm]

theorem readsItems_item {l : Text} (hl : Lead first l) (h : ValueText n v t) (hv : ReadsValue n v t)
    (he : ∀ bs, Ends (utf8 u ++ bs)) (hr : ReadsItems false n vs u) :
    ReadsItems first n (v :: vs) (l ++ (t ++ u)) := by
  intro depth fuel c bs hc hd hf
  obtain ⟨f,rfl⟩ : ∃ f, fuel = f+1 := ⟨fuel-1,by omega⟩
  rw [utf8_append,utf8_append,List.append_assoc,List.append_assoc] at hc
  obtain ⟨b,rest,e,hb,hn⟩ := h.head
  rw [e,List.cons_append] at hc
  obtain ⟨d₁,hm,h₁⟩ := moreItems_lead hl hc hb hn
  have hlen := congrArg List.length hc
  have hlen₁ := congrArg List.length h₁
  simp only [List.length_append,List.length_cons] at hlen hlen₁
  rw [← List.cons_append,← e] at h₁
  obtain ⟨d₂,hv,h₂⟩ := hv depth f d₁ [] _ gap_nil h₁ (he bs) hd (by omega)
  have hlen₂ := congrArg List.length h₂
  rw [List.length_append] at hlen₂
  obtain ⟨d₃,hi,h₃⟩ := hr depth f d₂ bs h₂ hd (by omega)
  refine ⟨d₃,?_,h₃⟩
  rw [itemsAt,hm]
  simp only [hv,hi]

theorem readsMembers_close {g : Text} (hg : Gap g) : ReadsMembers first n [] (g ++ ['\x7d']) := by
  intro depth fuel known c bs hc _ hf
  obtain ⟨f,rfl⟩ : ∃ f, fuel = f+1 := ⟨fuel-1,by omega⟩
  rw [utf8_append,List.append_assoc] at hc
  obtain ⟨d,hm,hl⟩ := moreKeys_close first hg hc
  refine ⟨d,?_,hl⟩
  rw [membersAt,hm]
  rfl

theorem readsMembers_member {k l key g a : Text} (hl : Lead first l) (hk : StringText k key)
    (hg : Gap g) (ha : Gap a) (hv : ReadsValue n v t) (he : ∀ bs, Ends (utf8 u ++ bs))
    (hr : ReadsMembers false n ms u) :
    ReadsMembers first n ((k,v) :: ms) (l ++ (key ++ (g ++ ':' :: (a ++ (t ++ u))))) := by
  intro depth fuel known c bs hc hd hf
  obtain ⟨f,rfl⟩ : ∃ f, fuel = f+1 := ⟨fuel-1,by omega⟩
  rw [utf8_member] at hc
  obtain ⟨c₁,c₂,hm,hs,c₃,hcol,h₃⟩ := key_ok hl hk hg hc
  have hlen := congrArg List.length hc
  have hlen₃ := congrArg List.length h₃
  simp only [List.length_append,List.length_cons] at hlen hlen₃
  obtain ⟨d,hv,h₄⟩ := hv depth f c₃ a _ ha h₃ (he bs) hd (by omega)
  have hlen₄ := congrArg List.length h₄
  rw [List.length_append] at hlen₄
  obtain ⟨d₂,hi,h₅⟩ := hr depth f (insertEntry k v known) d bs h₄ hd (by omega)
  refine ⟨d₂,?_,h₅⟩
  rw [membersAt,hm]
  simp only [hs,hcol,hv]
  exact hi

end

mutual

/-- A value comes back from each of its texts, with what follows it left to read. -/
theorem ValueText.read {n : Nat} {v : Json} {t : Text} : ValueText n v t → ReadsValue n v t
  | .null => readsValue_null
  | .bool => readsValue_bool _
  | .int hi => readsValue_int hi
  | .string h => readsValue_string h
  | .array h => readsValue_list h.read
  | .object h ho => readsValue_object h.read ho

theorem ItemsText.read {n : Nat} {first : Bool} {vs : List Json} {t : Text} :
    ItemsText first n vs t → ReadsItems first n vs t
  | .close hg => readsItems_close hg
  | .item hl h hr => readsItems_item hl h h.read (fun _ => hr.ends) hr.read

theorem MembersText.read {n : Nat} {first : Bool} {ms : List (Text × Json)} {t : Text} :
    MembersText first n ms t → ReadsMembers first n ms t
  | .close hg => readsMembers_close hg
  | .member hl hk hg ha h hr =>
    readsMembers_member hl hk hg ha h.read (fun _ => hr.ends) hr.read

end

theorem wantObject_ok {n depth : Nat} {ms : List (Text × Json)} {a t : Text} (ha : Gap a)
    (h : MembersText true n ms t) {c : Cursor} {bs : Bytes}
    (hc : c.rest = utf8 a ++ 123 :: (utf8 t ++ bs)) (hd : n+1 < depth) :
    Leaves (wantObject depth c) (Dictionary.ofList ms).entries bs := by
  have hs := rest_skipSpaces ha hc (by decide)
  have hlen := length_skip hs
  obtain ⟨d,hr,hl⟩ := h.read (depth-1) (fuelFor (skipSpaces c)) [] (skipSpaces c).skip bs
    (rest_skip hs) (by omega) (by rw [fuelFor]; omega)
  refine ⟨d.skip,?_,rest_skip hl⟩
  rw [wantObject,peek_eq hs]
  have hn : ¬ depth ≤ 1 := by omega
  simp [hn,hr,(Dictionary.says_ofList ms).entries_eq]

theorem closeObject_ok {c : Cursor} {bs : Bytes} (hc : c.rest = 125 :: bs) :
    ∃ d : Cursor, closeObject c = (d,none) ∧ d.rest = bs := by
  refine ⟨c.skip,?_,rest_skip hc⟩
  rw [closeObject,skipSpaces_front hc (by decide),peek_eq hc]
  rfl

theorem atEnd_gap {c : Cursor} {g : Text} (hg : Gap g) (hc : c.rest = utf8 g) : atEnd c = .ok () := by
  have hs : (skipSpaces c).rest = [] := by
    rw [skipSpaces,rest_skipWhile,hc,← List.append_nil (utf8 g),
      List.dropWhile_append_of_pos (utf8_gap hg)]
    rfl
  rw [atEnd,hs]
  rfl

end Workbench.Json
