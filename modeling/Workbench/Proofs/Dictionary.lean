import Mathlib.Data.List.Induction
import Workbench.Dictionary
import Workbench.Proofs.Text.Order
set_option autoImplicit false

/-!
A dictionary is built again by putting its entries in one after another. Its keys are those that have
a value, and the values of its keys determine it.
-/
namespace Workbench

theorem insertEntry_last {α : Type} {k : Text} {v : α} {es : List (Text × α)}
    (h : ∀ e ∈ es, e.1 < k) : insertEntry k v es = es ++ [(k,v)] := by
  induction es with
  | nil => rfl
  | cons d es ih =>
    have hd : d.1 < k := h d (by simp)
    have h₁ : ¬ k < d.1 := fun hk => Text.lt_irrefl k (Text.lt_trans hk hd)
    have h₂ : k ≠ d.1 := (Text.ne_of_lt hd).symm
    simp [insertEntry,h₁,h₂,ih (fun e he => h e (List.mem_cons_of_mem _ he))]

namespace Dictionary

theorem foldl_insert_entries {α : Type} (d e : Dictionary α)
    (h : ∀ x ∈ d.entries, ∀ y ∈ e.entries, x.1 < y.1) :
    (e.entries.foldl (fun d f => d.insert f.1 f.2) d).entries = d.entries ++ e.entries := by
  obtain ⟨es,hes⟩ := e
  induction es generalizing d with
  | nil => simp
  | cons f es ih =>
    have hc := List.pairwise_cons.1 hes
    have hi : (d.insert f.1 f.2).entries = d.entries ++ [f] :=
      insertEntry_last fun x hx => h x hx f (by simp)
    have := ih (d.insert f.1 f.2) hc.2 (by
      intro x hx y hy
      rw [hi] at hx
      rcases List.mem_append.1 hx with hx | hx
      · exact h x hx y (List.mem_cons_of_mem _ hy)
      · rw [List.mem_singleton.1 hx]; exact hc.1 y hy)
    simp only [List.foldl_cons,this,hi,List.append_assoc,List.singleton_append]

theorem ofList_entries {α : Type} (d : Dictionary α) : ofList d.entries = d :=
  ext_entries (by
    rw [ofList,foldl_insert_entries _ _ (by simp [empty])]
    simp [empty])

theorem mem_keys_iff {α : Type} {d : Dictionary α} {k : Text} :
    k ∈ d.keys ↔ ∃ v, d.get? k = some v := by
  rw [keys,get?,List.mem_map]
  constructor
  · rintro ⟨e,he,rfl⟩
    cases h : d.entries.find? fun f => f.1 = e.1 with
    | none => exact absurd (List.find?_eq_none.1 h e he) (by simp)
    | some f => exact ⟨f.2,rfl⟩
  · rintro ⟨v,hv⟩
    obtain ⟨e,he,rfl⟩ := Option.map_eq_some_iff.1 hv
    exact ⟨e,List.mem_of_find?_eq_some he,by simpa using List.find?_some he⟩

theorem mem_entries_iff {α : Type} {d : Dictionary α} {k : Text} {v : α} :
    (k,v) ∈ d.entries ↔ d.get? k = some v := by
  rw [get?,Option.map_eq_some_iff]
  constructor
  · intro h
    refine ⟨(k,v),?_,rfl⟩
    rw [List.find?_eq_some_iff_append]
    obtain ⟨before,after,e⟩ := List.append_of_mem h
    refine ⟨by simp,before,after,e,fun f hf => ?_⟩
    have hp := d.ascending
    rw [e,List.pairwise_append] at hp
    have hlt : f.1 < k := hp.2.2 f hf (k,v) List.mem_cons_self
    have hn : f.1 ≠ k := Text.ne_of_lt hlt
    simpa using hn
  · rintro ⟨⟨j,w⟩,hf,rfl⟩
    have hj : j = k := by simpa using List.find?_some hf
    subst hj
    exact List.mem_of_find?_eq_some hf

theorem ext_get? {α : Type} {d e : Dictionary α} (h : ∀ k, d.get? k = e.get? k) : d = e := by
  refine ext_entries (Text.eq_of_ascending Prod.fst d.ascending e.ascending fun a => ?_)
  rw [mem_entries_iff (k := a.1) (v := a.2),mem_entries_iff (k := a.1) (v := a.2),h]

def lastOf {α : Type} (es : List (Text × α)) (k : Text) : Option α :=
  (es.reverse.find? fun e => e.1 = k).map (·.2)

theorem lastOf_concat {α : Type} (es : List (Text × α)) (e : Text × α) (k : Text) :
    lastOf (es ++ [e]) k = if e.1 = k then some e.2 else lastOf es k := by
  by_cases h : e.1 = k <;> simp [lastOf,h]

def Says {α : Type} (d : Dictionary α) (es : List (Text × α)) : Prop :=
  ∀ k, d.get? k = lastOf es k

theorem says_ofList {α : Type} (es : List (Text × α)) : (ofList es).Says es := by
  induction es using List.reverseRecOn with
  | nil => exact fun k => rfl
  | append_singleton es e ih =>
    intro k
    have hi : ofList (es ++ [e]) = (ofList es).insert e.1 e.2 := by
      rw [ofList,List.foldl_append]
      rfl
    rw [hi,lastOf_concat]
    by_cases h : e.1 = k
    · rw [if_pos h,← h,get?_insert_self]
    · rw [if_neg h,get?_insert_other _ _ (Ne.symm h),ih k]

theorem Says.eq_ofList {α : Type} {es : List (Text × α)} {d : Dictionary α} (h : d.Says es) :
    d = ofList es :=
  ext_get? fun k => (h k).trans (says_ofList es k).symm

theorem Says.entries_eq {α : Type} {es : List (Text × α)} {d : Dictionary α} (h : d.Says es) :
    es.foldl (fun es e => insertEntry e.1 e.2 es) [] = d.entries := by
  have run : ∀ (es : List (Text × α)) (d : Dictionary α),
      (es.foldl (fun d e => d.insert e.1 e.2) d).entries =
        es.foldl (fun es e => insertEntry e.1 e.2 es) d.entries := by
    intro es
    induction es with
    | nil => exact fun _ => rfl
    | cons e es ih => exact fun d => ih (d.insert e.1 e.2)
  rw [h.eq_ofList]
  exact (run es empty).symm

theorem says_entries {α : Type} (d : Dictionary α) : d.Says d.entries := by
  have h := says_ofList d.entries
  rwa [ofList_entries] at h

end Dictionary
end Workbench
