import Workbench.Text.Order
set_option autoImplicit false

/-!
Dictionaries: entries in ascending order of their keys, one entry a key.
-/
namespace Workbench

def insertEntry {α : Type} (k : Text) (v : α) : List (Text × α) → List (Text × α)
  | [] => [(k,v)]
  | e :: es =>
    if k < e.1 then (k,v) :: e :: es
    else if k = e.1 then (k,v) :: es
    else e :: insertEntry k v es

theorem mem_insertEntry {α : Type} {k : Text} {v : α} {es : List (Text × α)} {e : Text × α}
    (h : e ∈ insertEntry k v es) : e = (k,v) ∨ e ∈ es := by
  induction es with
  | nil => simpa [insertEntry] using h
  | cons d es ih =>
    simp only [insertEntry] at h
    split at h
    · simpa using h
    · split at h
      · rcases List.mem_cons.1 h with h | h
        · exact .inl h
        · exact .inr (List.mem_cons_of_mem _ h)
      · rcases List.mem_cons.1 h with h | h
        · exact .inr (by simp [h])
        · rcases ih h with h | h
          · exact .inl h
          · exact .inr (List.mem_cons_of_mem _ h)

theorem insertEntry_ascending {α : Type} (k : Text) (v : α) {es : List (Text × α)}
    (h : es.Pairwise (·.1 < ·.1)) : (insertEntry k v es).Pairwise (·.1 < ·.1) := by
  induction es with
  | nil => simp [insertEntry]
  | cons d es ih =>
    have hd := List.pairwise_cons.1 h
    simp only [insertEntry]
    split
    · rename_i hlt
      refine List.pairwise_cons.2 ⟨fun a ha => ?_,h⟩
      rcases List.mem_cons.1 ha with rfl | ha
      · exact hlt
      · exact Text.lt_trans hlt (hd.1 a ha)
    · split
      · rename_i heq
        exact List.pairwise_cons.2 ⟨fun a ha => by simpa [heq] using hd.1 a ha,hd.2⟩
      · rename_i hn hne
        refine List.pairwise_cons.2 ⟨fun a ha => ?_,ih hd.2⟩
        rcases mem_insertEntry ha with rfl | ha
        · exact Text.lt_of_not_lt hn hne
        · exact hd.1 a ha

structure Dictionary (α : Type) where
  entries : List (Text × α)
  ascending : entries.Pairwise (·.1 < ·.1)

namespace Dictionary
variable {α : Type}

def empty : Dictionary α := ⟨[],List.Pairwise.nil⟩

def insert (d : Dictionary α) (k : Text) (v : α) : Dictionary α :=
  ⟨insertEntry k v d.entries,insertEntry_ascending k v d.ascending⟩

/-- The last of several values under one key stays. -/
def ofList (es : List (Text × α)) : Dictionary α :=
  es.foldl (fun d e => d.insert e.1 e.2) empty

def get? (d : Dictionary α) (k : Text) : Option α := (d.entries.find? fun e => e.1 = k).map (·.2)

def keys (d : Dictionary α) : List Text := d.entries.map (·.1)

def isEmpty (d : Dictionary α) : Bool := d.entries.isEmpty

theorem ext_entries {d e : Dictionary α} (h : d.entries = e.entries) : d = e := by
  cases d; cases e; simp_all

theorem entry_insert_self (k : Text) (v : α) (es : List (Text × α)) :
    (insertEntry k v es).find? (fun e => e.1 = k) = some (k,v) := by
  induction es with
  | nil => simp [insertEntry]
  | cons d es ih =>
    simp only [insertEntry]
    split
    · simp
    · split
      · simp
      · rename_i hne
        simp [Ne.symm hne,ih]

theorem entry_insert_other {j k : Text} (v : α) (es : List (Text × α)) (h : j ≠ k) :
    (insertEntry k v es).find? (fun e => e.1 = j) = es.find? (fun e => e.1 = j) := by
  induction es with
  | nil => simp [insertEntry,Ne.symm h]
  | cons d es ih =>
    simp only [insertEntry]
    split
    · simp [Ne.symm h]
    · split
      · rename_i heq
        simp [Ne.symm h,← heq]
      · by_cases hd : d.1 = j <;> simp [hd,ih]

theorem get?_insert_self (d : Dictionary α) (k : Text) (v : α) : (d.insert k v).get? k = some v := by
  simp [get?,insert,entry_insert_self]

theorem get?_insert_other (d : Dictionary α) {j k : Text} (v : α) (h : j ≠ k) :
    (d.insert k v).get? j = d.get? j := by
  simp [get?,insert,entry_insert_other v d.entries h]

end Dictionary
end Workbench
