import Workbench.Proofs.Dictionary
import Workbench.Proofs.Session.Ids
import Workbench.Proofs.Session.Operation
set_option autoImplicit false

/-!
Receipts and what is stored for them. As long as there is a receipt for each entry of a store and an
entry for each receipt, what is asked for by its key comes back as it was handed out, and by any other
key there is nothing.
-/
namespace Workbench

theorem MemoryStore.list_nodup (s : MemoryStore) (a : Area) : (s.list a).Nodup := by
  have hk : (s.list a).Pairwise (· < ·) := List.pairwise_map.2 (s.area a).ascending
  exact hk.imp Text.ne_of_lt

namespace Session

namespace Receipt

def area : Receipt → Area
  | .snippet _ => .sharedCode
  | .archive _ _ => .generated

def entry : Receipt → Text
  | .snippet x => Snippet.entryOf x.id
  | .archive name _ => name

/-- The bytes say what was handed out. -/
def Reads (bytes : Bytes) : Receipt → Prop
  | .snippet x => SnippetRecord.decode bytes = .ok x.record
  | .archive _ files => Archive.decode bytes = .ok files

theorem area_ne_prompts (r : Receipt) : r.area ≠ .prompts := by
  cases r <;> simp [area]

/-- The receipt is for what was made under an id. -/
def From (id : Text) : Receipt → Prop
  | .snippet x => x.id = id
  | .archive name _ => name = Archive.nameOf id

theorem entry_ne_of_from {q r : Receipt} {i j : Text} (hq : q.From i) (hr : r.From j) (h : i ≠ j) :
    q.area ≠ r.area ∨ q.entry ≠ r.entry := by
  cases q with
  | snippet x =>
    cases r with
    | snippet y =>
      right
      simp only [From,entry] at hq hr ⊢
      rw [hq,hr]
      exact fun e => h (Snippet.entryOf_injective e)
    | archive name files => simp [area]
  | archive name files =>
    cases r with
    | snippet y => simp [area]
    | archive name' files' =>
      right
      simp only [From,entry] at hq hr ⊢
      rw [hq,hr]
      exact fun e => h (Archive.nameOf_injective e)

end Receipt

/-- The receipts `rs` stand for what is stored. -/
structure Backs (s : MemoryStore) (rs : List Receipt) : Prop where
  stored : ∀ r ∈ rs, ∃ bytes, s.read r.area r.entry = some bytes ∧ r.Reads bytes
  complete : ∀ a entry bytes, a ≠ .prompts → s.read a entry = some bytes →
    ∃ r ∈ rs, r.area = a ∧ r.entry = entry

namespace Backs
variable {s : MemoryStore} {rs : List Receipt}

theorem empty : Backs .empty [] where
  stored := by simp
  complete := by
    intro a entry bytes _ h
    cases a <;> cases h

theorem write (h : Backs s rs) {r : Receipt} {bytes : Bytes}
    (hnew : ∀ q ∈ rs, q.area ≠ r.area ∨ q.entry ≠ r.entry) (hr : r.Reads bytes) :
    Backs (s.write r.area r.entry bytes) (rs ++ [r]) where
  stored q hq := by
    rcases List.mem_append.1 hq with hq | hq
    · rw [MemoryStore.read_write_other _ _ (hnew q hq)]
      exact h.stored q hq
    · rw [List.mem_singleton.1 hq]
      exact ⟨bytes,MemoryStore.read_write_self ..,hr⟩
  complete a entry bs ha hb := by
    by_cases he : a = r.area ∧ entry = r.entry
    · exact ⟨r,by simp,he.1.symm,he.2.symm⟩
    · rw [MemoryStore.read_write_other _ _ (Decidable.not_and_iff_or_not.1 he)] at hb
      obtain ⟨q,hq,hqe⟩ := h.complete a entry bs ha hb
      exact ⟨q,List.mem_append_left _ hq,hqe⟩

section
variable (h : Backs s rs)
include h

theorem fetched_snippet {x : Snippet} (hid : Snippet.isId x.id = true) (hx : .snippet x ∈ rs) :
    fetched s x.id = .ok (some x) := by
  obtain ⟨bytes,hr,hd⟩ := h.stored _ hx
  simp only [Receipt.area,Receipt.entry,Receipt.Reads] at hr hd
  simp only [fetched,hid,if_true,hr,hd]

theorem fetched_other {id : Text} (hx : ∀ x, .snippet x ∈ rs → x.id ≠ id) :
    fetched s id = .ok none := by
  rw [fetched]
  cases Snippet.isId id with
  | false => rfl
  | true =>
    cases hr : s.read .sharedCode (Snippet.entryOf id) with
    | none => rfl
    | some bytes =>
      obtain ⟨r,hm,ha,he⟩ := h.complete _ _ _ (by decide) hr
      cases r with
      | snippet x => exact absurd (Snippet.entryOf_injective he) (hx x hm)
      | archive name files => cases ha

theorem unpacked_archive {name : Text} {files : FileSet} (hn : Archive.isName name = true)
    (hx : .archive name files ∈ rs) : unpacked s name = .ok (some files) := by
  obtain ⟨bytes,hr,hd⟩ := h.stored _ hx
  simp only [Receipt.area,Receipt.entry,Receipt.Reads] at hr hd
  simp only [unpacked,hn,if_true,hr,hd]

theorem unpacked_other {name : Text} (hx : ∀ files, .archive name files ∉ rs) :
    unpacked s name = .ok none := by
  rw [unpacked]
  cases Archive.isName name with
  | false => rfl
  | true =>
    cases hr : s.read .generated name with
    | none => rfl
    | some bytes =>
      obtain ⟨r,hm,ha,he⟩ := h.complete _ _ _ (by decide) hr
      cases r with
      | snippet x => cases ha
      | archive name' files =>
        have he : name' = name := he
        exact absurd (he ▸ hm) (hx files)

theorem list_perm {a : Area} (ha : a ≠ .prompts)
    (hd : (rs.map fun r => (r.area,r.entry)).Nodup) :
    (s.list a).Perm ((rs.filter fun r => r.area = a).map Receipt.entry) := by
  refine (List.perm_ext_iff_of_nodup (s.list_nodup a) ?_).2 fun n => ?_
  · rw [List.Nodup,List.pairwise_map] at hd ⊢
    refine (hd.filter _).imp_of_mem fun hq hr hne he => hne ?_
    have hq := (List.mem_filter.1 hq).2
    have hr := (List.mem_filter.1 hr).2
    rw [Prod.mk.injEq]
    exact ⟨(of_decide_eq_true hq).trans (of_decide_eq_true hr).symm,he⟩
  · rw [MemoryStore.list,Dictionary.mem_keys_iff,List.mem_map]
    constructor
    · intro hn
      obtain ⟨bytes,hb⟩ := hn
      obtain ⟨r,hr,hra,hre⟩ := h.complete a n bytes ha hb
      exact ⟨r,List.mem_filter.2 ⟨hr,by simpa using hra⟩,hre⟩
    · intro hn
      obtain ⟨r,hr,rfl⟩ := hn
      obtain ⟨hr,hra⟩ := List.mem_filter.1 hr
      obtain ⟨bytes,hb,-⟩ := h.stored r hr
      rw [of_decide_eq_true hra] at hb
      exact ⟨bytes,hb⟩

end
end Backs
end Session
end Workbench
