import Workbench.File.Disk
set_option autoImplicit false

/-!
What stands at a place of a disk after a change, and where a path leads. Names are followed one after
another: what is behind the first of them does not matter for those, a dot leads nowhere else, and what
is added to a disk leaves the places alone that paths already led to.
-/
namespace Workbench.File.Disk
variable {d d' : Disk} {p q here : Place} {e : Entry}

theorem entry?_nil (d : Disk) : d.entry? [] = some .directory := if_pos rfl

theorem entry?_of_ne (h : q ≠ []) (d : Disk) :
    d.entry? q = (d.entries.find? fun e => e.1 = q).map (·.2) := if_neg h

theorem mem_entries (hq : q ≠ []) (h : d.entry? q = some e) : (q,e) ∈ d.entries := by
  rw [entry?_of_ne hq] at h
  obtain ⟨x,hx,rfl⟩ := Option.map_eq_some_iff.1 h
  have hp : x.1 = q := by simpa using List.find?_some hx
  rw [← hp]
  exact List.mem_of_find?_eq_some hx

theorem entry?_of_mem (h : (q,e) ∈ d.entries) : ∃ e', d.entry? q = some e' := by
  by_cases hq : q = []
  · exact ⟨.directory,by rw [hq,entry?_nil]⟩
  · rw [entry?_of_ne hq]
    cases hf : d.entries.find? (fun e => e.1 = q) with
    | none => exact absurd (List.find?_eq_none.1 hf _ h) (by simp)
    | some x => exact ⟨x.2,rfl⟩

theorem mem_put {x : Place × Entry} :
    x ∈ (d.put p e).entries ↔ x = (p,e) ∨ x ∈ d.entries ∧ x.1 ≠ p := by
  simp [put,erase]

theorem entry?_erase_other (h : q ≠ p) (d : Disk) : entry? (d.erase p) q = d.entry? q := by
  by_cases hq : q = []
  · rw [hq,entry?_nil,entry?_nil]
  · rw [entry?_of_ne hq,entry?_of_ne hq,erase,List.find?_filter]
    congr 2
    funext x
    by_cases hx : x.1 = q <;> simp [hx,h]

theorem entry?_put_self (hp : p ≠ []) (d : Disk) (e : Entry) : entry? (d.put p e) p = some e := by
  rw [entry?_of_ne hp]
  simp [put]

theorem entry?_put_other (h : q ≠ p) (d : Disk) (e : Entry) : entry? (d.put p e) q = d.entry? q := by
  rw [← entry?_erase_other h d]
  by_cases hq : q = []
  · rw [hq,entry?_nil,entry?_nil]
  · rw [entry?_of_ne hq,entry?_of_ne hq]
    simp [put,Ne.symm h]

theorem mem_childrenAt {n : Bytes} : (n,e) ∈ d.childrenAt p ↔ (p ++ [n],e) ∈ d.entries := by
  rw [childrenAt,List.mem_filterMap]
  constructor
  · intro h
    obtain ⟨⟨q,f⟩,hx,he⟩ := h
    split at he
    · rename_i hd
      obtain ⟨m,hm,hmf⟩ := Option.map_eq_some_iff.1 he
      obtain ⟨rfl,rfl⟩ := Prod.mk.inj hmf
      obtain ⟨ns,hq⟩ := List.getLast?_eq_some_iff.1 hm
      obtain rfl : q = ns ++ [m] := hq
      rw [← show ns = p by simpa using hd]
      exact hx
    · simp at he
  · intro h
    exact ⟨_,h,by simp⟩

structure IsName (n : Bytes) : Prop where
  notDot : n ≠ dotName
  notDotDot : n ≠ dotDotName
  short : n.length ≤ maxName

section
variable {links : Nat} {n : Bytes} (rest : List Bytes)

theorem walk_stop (h : d.entry? here ≠ some .directory) :
    d.walk true links here (n :: rest) = .error .notDirectory := by
  rw [walk,if_pos h]

variable (h : d.entry? here = some .directory)
include h

theorem walk_dot : d.walk true links here (dotName :: rest) = d.walk true links here rest := by
  rw [walk,if_neg (by simp [h]),if_pos rfl]

theorem walk_dotDot :
    d.walk true links here (dotDotName :: rest) = d.walk true links here.dropLast rest := by
  rw [walk,if_neg (by simp [h]),if_neg (by decide),if_pos rfl]

theorem walk_long (h₁ : n ≠ dotName) (h₂ : n ≠ dotDotName) (hl : maxName < n.length) :
    d.walk true links here (n :: rest) = .error .nameTooLong := by
  rw [walk,if_neg (by simp [h]),if_neg h₁,if_neg h₂,if_pos hl]

variable (hn : IsName n)
include hn

theorem walk_missing (he : d.entry? (here ++ [n]) = none) :
    d.walk true links here (n :: rest) = .error .notFound := by
  have hs := hn.short
  rw [walk,if_neg (by simp [h]),if_neg hn.notDot,if_neg hn.notDotDot,if_neg (by omega)]
  simp only [he]

theorem walk_entry (he : d.entry? (here ++ [n]) = some e) (hd : ∀ target, e ≠ .link target) :
    d.walk true links here (n :: rest) = d.walk true links (here ++ [n]) rest := by
  have hs := hn.short
  rw [walk,if_neg (by simp [h]),if_neg hn.notDot,if_neg hn.notDotDot,if_neg (by omega)]
  cases e with
  | link target => exact absurd rfl (hd target)
  | file content => simp only [he]
  | directory => simp only [he]

theorem walk_link {target : Bytes} (he : d.entry? (here ++ [n]) = some (.link target)) :
    d.walk true (links+1) here (n :: rest) =
      d.walk true links (if isAbsolute target then [] else here) (steps target ++ rest) := by
  have hs := hn.short
  rw [walk,if_neg (by simp [h]),if_neg hn.notDot,if_neg hn.notDotDot,if_neg (by omega)]
  simp [he]

theorem walk_lastLink {target : Bytes} (he : d.entry? (here ++ [n]) = some (.link target)) :
    d.walk true 0 here (n :: rest) = .error .tooManyLinks := by
  have hs := hn.short
  rw [walk,if_neg (by simp [h]),if_neg hn.notDot,if_neg hn.notDotDot,if_neg (by omega)]
  simp [he]

end

/-- The first names lead to a place, or they are refused, whatever is behind them. -/
theorem walk_append (d : Disk) (links : Nat) (here : Place) (ns : List Bytes) :
    (∃ r, ∀ rest, d.walk true links here (ns ++ rest) = .error r) ∨
    ∃ left q, ∀ rest, d.walk true links here (ns ++ rest) = d.walk true left q rest := by
  -- Along the walk itself, since a link puts the names of its target in front.
  fun_induction walk d true links here ns with
  | case1 links here => exact .inr ⟨links,here,fun rest => rfl⟩
  | case2 links here n ns h => exact .inl ⟨_,fun rest => walk_stop _ h⟩
  | case3 links here ns h ih =>
    have h : d.entry? here = some .directory := by simpa using h
    simpa only [List.cons_append,walk_dot _ h] using ih
  | case4 links here ns h _ ih =>
    have h : d.entry? here = some .directory := by simpa using h
    simpa only [List.cons_append,walk_dotDot _ h] using ih
  | case5 links here n ns h h₁ h₂ hl =>
    exact .inl ⟨_,fun rest => walk_long _ (by simpa using h) h₁ h₂ hl⟩
  | case6 links here n ns h h₁ h₂ hl he =>
    exact .inl ⟨_,fun rest => walk_missing _ (by simpa using h) ⟨h₁,h₂,by omega⟩ he⟩
  | case7 links here n ns h h₁ h₂ hl target he hf => exact absurd hf.2 (by decide)
  | case8 here n ns h h₁ h₂ hl target he hf =>
    exact .inl ⟨_,fun rest => walk_lastLink _ (by simpa using h) ⟨h₁,h₂,by omega⟩ he⟩
  | case9 here n ns h h₁ h₂ hl target he hf links ih =>
    have h : d.entry? here = some .directory := by simpa using h
    simpa only [List.cons_append,walk_link _ h ⟨h₁,h₂,by omega⟩ he,dite_eq_ite,
      List.append_assoc] using ih
  | case10 links here n ns h h₁ h₂ hl e hd he ih =>
    have h : d.entry? here = some .directory := by simpa using h
    simpa only [List.cons_append,walk_entry _ h ⟨h₁,h₂,by omega⟩ he hd] using ih

theorem walk_dots (d : Disk) (links : Nat) (here : Place) (ns : List Bytes) {rest : List Bytes}
    (hr : rest ≠ []) : d.walk true links here (ns.filter (· ≠ dotName) ++ rest) =
      d.walk true links here (ns ++ rest) := by
  induction ns generalizing links here with
  | nil => rfl
  | cons n ns ih =>
    by_cases hn : n = dotName
    · subst hn
      have hf : (dotName :: ns).filter (· ≠ dotName) = ns.filter (· ≠ dotName) := by simp
      rw [hf,ih]
      by_cases h : d.entry? here = some .directory
      · exact (walk_dot _ h).symm
      · obtain ⟨m,ms,hm⟩ := List.exists_cons_of_ne_nil (show ns ++ rest ≠ [] by simp [hr])
        rw [hm,List.cons_append,walk_stop _ h,walk_stop _ h]
    · have hf : (n :: ns).filter (· ≠ dotName) = n :: ns.filter (· ≠ dotName) := by simp [hn]
      rw [hf]
      rcases walk_append d links here [n] with ⟨r,h⟩ | ⟨left,q,h⟩
      · exact (h _).trans (h _).symm
      · exact (h _).trans ((ih left q).trans (h _).symm)

/-- Where a path led on a disk it leads on every disk that has the same and more. -/
theorem walk_mono (hd : ∀ q e, d.entry? q = some e → d'.entry? q = some e) {links : Nat}
    {ns : List Bytes} (hw : d.walk true links here ns = .ok q) :
    d'.walk true links here ns = .ok q := by
  fun_induction walk d true links here ns with
  | case1 links here =>
    rw [walk]
    exact hw
  | case3 links here ns h ih =>
    rw [walk_dot _ (hd _ _ (by simpa using h))]
    exact ih hw
  | case4 links here ns h _ ih =>
    rw [walk_dotDot _ (hd _ _ (by simpa using h))]
    exact ih hw
  | case9 here n ns h h₁ h₂ hl target he hf links ih =>
    rw [walk_link _ (hd _ _ (by simpa using h)) ⟨h₁,h₂,by omega⟩ (hd _ _ he)]
    exact ih (by simpa only [dite_eq_ite] using hw)
  | case10 links here n ns h h₁ h₂ hl e hn he ih =>
    rw [walk_entry _ (hd _ _ (by simpa using h)) ⟨h₁,h₂,by omega⟩ (hd _ _ he) hn]
    exact ih hw
  | case7 links here n ns h h₁ h₂ hl target he hf => exact absurd hf.2 (by decide)
  | _ => simp at hw

theorem walk_directory {links : Nat} {ns : List Bytes}
    (hw : d.walk true links here (ns ++ [dotName]) = .ok q) : d.entry? q = some .directory ∧
      ∃ left, ∀ rest, d.walk true links here (ns ++ rest) = d.walk true left q rest := by
  rcases walk_append d links here ns with ⟨r,h⟩ | ⟨left,p,h⟩
  · rw [h] at hw
    simp at hw
  · rw [h] at hw
    by_cases hp : d.entry? p = some .directory
    · rw [walk_dot _ hp,walk] at hw
      obtain rfl : p = q := by simpa using hw
      exact ⟨hp,left,h⟩
    · rw [walk_stop _ hp] at hw
      simp at hw

end Workbench.File.Disk
