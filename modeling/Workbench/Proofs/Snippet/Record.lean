import Workbench.Proofs.Calendar.InstantText
import Workbench.Proofs.Json.Record
import Workbench.Snippet
set_option autoImplicit false

/-!
A snippet's record is read back as it was written, whatever its code and language are made of.
-/
namespace Workbench.SnippetRecord
open Text Json

theorem readInstant_text {i : Calendar.Instant} (h : i.Ordinary) (tail : Bytes) (l k : Nat) :
    ∃ k', readInstant ⟨utf8 (stringText i.text) ++ tail,l,k⟩ = .ok (i,⟨tail,l,k'⟩) := by
  obtain ⟨k',hw⟩ := wantString_stringText "an RFC 3339 formatted date and time string".toList
    i.text tail l k
  exact ⟨k',by simp only [readInstant,hw,Calendar.Instant.parse_text h]⟩

section
variable (d : Draft) (depth : Nat) (tail : Bytes) (l k : Nat)

theorem read_code (code : Text) :
    ∃ k', shape.read depth 0 d ⟨utf8 (stringText code) ++ tail,l,k⟩ =
      .ok ({d with code := some code},⟨tail,l,k'⟩) := by
  obtain ⟨k',hw⟩ := wantString_stringText "a string".toList code tail l k
  refine ⟨k',?_⟩
  change readField 0 d _ = _
  rw [readField,if_pos rfl,hw]
  rfl

theorem read_language (language : Text) :
    ∃ k', shape.read depth 1 d ⟨utf8 (stringText language) ++ tail,l,k⟩ =
      .ok ({d with language := some language},⟨tail,l,k'⟩) := by
  obtain ⟨k',hw⟩ := wantString_stringText "a string".toList language tail l k
  refine ⟨k',?_⟩
  change readField 1 d _ = _
  rw [readField,if_neg (by decide),if_pos rfl,hw]
  rfl

theorem read_createdAt {i : Calendar.Instant} (h : i.Ordinary) :
    ∃ k', shape.read depth 2 d ⟨utf8 (stringText i.text) ++ tail,l,k⟩ =
      .ok ({d with createdAt := some i},⟨tail,l,k'⟩) := by
  obtain ⟨k',hr⟩ := readInstant_text h tail l k
  refine ⟨k',?_⟩
  change readField 2 d _ = _
  rw [readField,if_neg (by decide),if_neg (by decide),hr]
  rfl

end

theorem encode_eq (r : SnippetRecord) : r.encode =
    123 :: (keySeparator true ++ memberBytes "code".toList r.code
      (keySeparator false ++ memberBytes "language".toList r.language
        (keySeparator false ++ memberBytes "created_at".toList r.createdAt.text [125]))) := by
  simp only [encode,json,fields,List.zip_cons_cons,List.zip_nil_right,compact,compactMembers,
    utf8_append,utf8_cons,memberBytes,List.append_assoc]
  rfl

theorem members_encode {r : SnippetRecord} (h : r.createdAt.Ordinary) (depth fuel l k : Nat) :
    ∃ k', shape.members depth (fuel+4) true .empty ⟨r.encode.tail,l,k⟩ =
      .ok (⟨some r.code,some r.language,some r.createdAt⟩,none,⟨[125],l,k'⟩) := by
  rw [encode_eq,List.tail_cons]
  -- Each field leads to the next; the brace is left to whoever closes the record.
  refine shape.members_member "code".toList (by decide) rfl
    (fun l k => read_code .empty depth _ l k r.code) (fun k => ?_) true k
  refine shape.members_member "language".toList (by decide) rfl
    (fun l k => read_language _ depth _ l k r.language) (fun k => ?_) false k
  refine shape.members_member "created_at".toList (by decide) rfl
    (fun l k => read_createdAt _ depth _ l k h) (fun k => ⟨k,?_⟩) false k
  rw [Shape.members,moreKeys,skipSpaces_of_not_space (by decide)]
  rfl

/-- The clock's instant is part of the record, so it has to be one that its text can say. -/
theorem decode_record {r : SnippetRecord} (h : r.createdAt.Ordinary) : decode r.encode = .ok r := by
  obtain ⟨k,hm⟩ := members_encode h (maxDepth-1) (2*r.encode.tail.length) 1 1
  have hc : r.encode = 123 :: r.encode.tail := by rw [encode_eq]; rfl
  have hr : shape.read? .empty r.encode =
      .ok ⟨some r.code,some r.language,some r.createdAt⟩ := by
    rw [hc,Shape.read?,Shape.readFrom,Cursor.start,skipSpaces_of_not_space (by decide)]
    simp only [Cursor.peek,List.head?_cons,fuelFor,List.length_cons,Cursor.skip,Cursor.past]
    rw [if_neg (by decide),if_neg (by decide)]
    rw [show 2*(r.encode.tail.length+1)+2 = 2*r.encode.tail.length+4 by omega,hm]
    rfl
  rw [decode,hr]

end Workbench.SnippetRecord
