import Workbench.File.Path
import Workbench.Proofs.Text.Lines
import Workbench.Proofs.Text.Literal
set_option autoImplicit false

/-!
Paths that are put together from others. A plain name stands for one component; taken from a
directory it is one more component of that directory's path.
-/
namespace Workbench.File
open Text

/-- A name that a path can have as a component. -/
structure PlainName (n : Text) : Prop where
  filled : n ≠ []
  notHere : n ≠ ['.']
  notUp : n ≠ ['.','.']
  whole : '/' ∉ n

instance (n : Text) : Decidable (PlainName n) :=
  decidable_of_iff (n ≠ [] ∧ n ≠ ['.'] ∧ n ≠ ['.','.'] ∧ '/' ∉ n)
    ⟨fun h => ⟨h.1,h.2.1,h.2.2.1,h.2.2.2⟩,fun h => ⟨h.1,h.2,h.3,h.4⟩⟩

def Component.text : Component → Text
  | .root => ['/']
  | .here => ['.']
  | .up => ['.','.']
  | .name n => n

/-- What the first piece between slashes adds, beside being a component itself. -/
def lead : List Text → List Component
  | [] :: _ :: _ => [.root]
  | ['.'] :: _ => [.here]
  | _ => []

theorem lead_of_ne {p : Text} (h : p ≠ []) (k : p ≠ ['.']) (ps : List Text) :
    lead (p :: ps) = [] := by
  unfold lead
  split
  · rename_i e
    exact absurd (List.cons_eq_cons.1 e).1 h
  · rename_i e
    exact absurd (List.cons_eq_cons.1 e).1 k
  · rfl

theorem components_eq (path : Text) : components path =
    lead (splitOn '/' path) ++ (splitOn '/' path).filterMap Component.ofPiece? := by
  simp only [components]
  generalize splitOn '/' path = pieces
  cases pieces with
  | nil => rfl
  | cons p ps =>
    by_cases h : p = []
    · subst h
      cases ps <;> rfl
    · by_cases k : p = ['.']
      · subst k
        rfl
      · rw [lead_of_ne h k]
        split
        · rename_i e
          exact absurd (List.cons_eq_cons.1 e).1 h
        · rename_i e
          exact absurd (List.cons_eq_cons.1 e).1 k
        · rfl

theorem lead_congr {p : Text} {ps qs : List Text} (h : p ≠ [] ∨ ps ≠ [] ∧ qs ≠ []) :
    lead (p :: ps) = lead (p :: qs) := by
  by_cases hp : p = []
  · obtain ⟨hps,hqs⟩ := h.resolve_left (absurd hp)
    obtain ⟨_,_,rfl⟩ := List.exists_cons_of_ne_nil hps
    obtain ⟨_,_,rfl⟩ := List.exists_cons_of_ne_nil hqs
    rw [hp]
    rfl
  · by_cases hd : p = ['.']
    · rw [hd]
      rfl
    · rw [lead_of_ne hp hd,lead_of_ne hp hd]

theorem ofPiece?_plain {n : Text} (h : PlainName n) : Component.ofPiece? n = some (.name n) := by
  simp [Component.ofPiece?,h.filled,h.notHere,h.notUp]

theorem eq_of_ofPiece? {p n : Text} (h : Component.ofPiece? p = some (.name n)) :
    p = n ∧ n ≠ [] ∧ n ≠ ['.'] ∧ n ≠ ['.','.'] := by
  rw [Component.ofPiece?] at h
  split at h
  · simp at h
  · rename_i hn
    split at h
    · simp at h
    · rename_i hu
      obtain rfl : p = n := by simpa using h
      exact ⟨rfl,fun h => hn (.inl h),fun h => hn (.inr h),hu⟩

theorem name_not_mem_lead (ps : List Text) (n : Text) : .name n ∉ lead ps := by
  unfold lead
  split <;> simp

theorem plainName_of_mem {path n : Text} (h : .name n ∈ components path) : PlainName n := by
  rw [components_eq,List.mem_append] at h
  obtain ⟨p,hp,he⟩ := List.mem_filterMap.1 (h.resolve_left (name_not_mem_lead _ n))
  obtain ⟨rfl,hn⟩ := eq_of_ofPiece? he
  exact ⟨hn.1,hn.2.1,hn.2.2,not_mem_of_mem_splitOn hp⟩

theorem join_plain (base : Text) {n : Text} (hn : PlainName n) :
    join base n = if base = [] ∨ endsWith ['/'] base then base ++ n else base ++ ['/'] ++ n := by
  unfold join
  split
  · exact absurd List.mem_cons_self hn.whole
  · rfl

theorem components_join (base : Text) {n : Text} (hn : PlainName n) :
    components (join base n) = components base ++ [.name n] := by
  have hs := (splitOn_piece hn.whole []).1
  have hf : [n].filterMap Component.ofPiece? = [.name n] := by simp [ofPiece?_plain hn]
  rw [join_plain base hn]
  by_cases hb : base = []
  · rw [if_pos (.inl hb),hb,List.nil_append,components_eq,hs,hf,lead_of_ne hn.filled hn.notHere]
    rfl
  by_cases he : endsWith ['/'] base = true
  · -- The empty piece behind the final slash makes room for the name.
    obtain ⟨u,rfl⟩ := endsWith_iff.1 he
    obtain ⟨p,ps,hp⟩ := List.exists_cons_of_ne_nil (splitWhere_ne_nil (· == '/') u)
    have hu : splitOn '/' (u ++ ['/'] ++ n) = p :: ps ++ [n] := by
      rw [List.append_assoc,List.singleton_append,splitOn_append,hs,splitOn,hp]
    have hv : splitOn '/' (u ++ ['/']) = p :: ps ++ [[]] := by
      rw [splitOn_append,splitOn,hp]
      rfl
    have hl : lead (p :: ps ++ [n]) = lead (p :: ps ++ [[]]) := lead_congr (.inr ⟨by simp,by simp⟩)
    have hz : [([] : Text)].filterMap Component.ofPiece? = [] := rfl
    rw [if_pos (.inr he),components_eq,components_eq,hu,hv,hl,List.filterMap_append,
      List.filterMap_append,hf,hz,List.append_nil,List.append_assoc]
  · obtain ⟨p,ps,hp⟩ := List.exists_cons_of_ne_nil (splitWhere_ne_nil (· == '/') base)
    have hu : splitOn '/' (base ++ ['/'] ++ n) = p :: ps ++ [n] := by
      rw [List.append_assoc,List.singleton_append,splitOn_append,hs,splitOn,hp]
    have hv : splitOn '/' base = p :: ps := hp
    have hl : lead (p :: ps ++ [n]) = lead (p :: ps) := by
      refine lead_congr ?_
      by_cases h : p = []
      · right
        refine ⟨by simp,fun hps => hb ?_⟩
        have hj := show joinWith ['/'] (splitOn '/' base) = base from joinWith_splitOn base
        rw [hv,h,hps] at hj
        exact hj.symm
      · exact .inl h
    rw [if_neg (by simp [hb,he]),components_eq,components_eq,hu,hv,hl,List.filterMap_append,hf,
      List.append_assoc]

theorem filterMap_plain {ns : List Text} (h : ∀ n ∈ ns, PlainName n) :
    ns.filterMap Component.ofPiece? = ns.map .name := by
  induction ns with
  | nil => rfl
  | cons n ns ih =>
    rw [List.filterMap_cons_some (ofPiece?_plain (h n List.mem_cons_self)),
      ih fun m hm => h m (List.mem_cons_of_mem _ hm),List.map_cons]

theorem components_joinWith {ns : List Text} (hne : ns ≠ []) (h : ∀ n ∈ ns, PlainName n) :
    components (joinWith ['/'] ns) = ns.map .name := by
  rw [components_eq,splitOn_joinWith hne fun n hn => (h n hn).whole,filterMap_plain h]
  obtain ⟨n,ns,rfl⟩ := List.exists_cons_of_ne_nil hne
  have hn := h n List.mem_cons_self
  rw [lead_of_ne hn.filled hn.notHere,List.nil_append]

theorem extension?_append {stem ext : Text} (hs : stem ≠ []) (hd : '.' ∉ ext) :
    extension? (stem ++ '.' :: ext) = some ext := by
  have hr : (stem ++ '.' :: ext).reverse = ext.reverse ++ '.' :: stem.reverse := by simp
  have hp : ∀ c ∈ ext.reverse, (c != '.') = true := fun c hc => by
    have hn : c ≠ '.' := fun e => hd (e ▸ List.mem_reverse.1 hc)
    simpa using hn
  obtain ⟨d,u,hu⟩ := List.exists_cons_of_ne_nil (List.reverse_ne_nil_iff.2 hs)
  have h₁ : ('.' :: d :: u).takeWhile (· != '.') = [] := rfl
  have h₂ : ('.' :: d :: u).dropWhile (· != '.') = '.' :: d :: u := rfl
  simp only [extension?,hr,List.dropWhile_append_of_pos hp,List.takeWhile_append_of_pos hp,hu,h₁,h₂,
    List.append_nil,List.reverse_reverse]

theorem exists_of_extension? {n ext : Text} (h : extension? n = some ext) :
    ∃ stem, n = stem ++ '.' :: ext ∧ stem ≠ [] ∧ '.' ∉ ext := by
  obtain ⟨l,r,hn,hl,hr,hi,hd⟩ := exists_span (· != '.') n.reverse
  simp only [extension?,hl,hr] at h
  split at h
  · rename_i c d u
    obtain rfl : c = '.' := by simpa using hd
    obtain rfl := Option.some.inj h
    refine ⟨(d :: u).reverse,?_,by simp,fun hm => ?_⟩
    · rw [← List.reverse_reverse n,hn]
      simp
    · simpa using hi '.' (List.mem_reverse.1 hm)
  · simp at h

/-- The kind is what follows the last dot, where something stands on both sides of it. -/
theorem kind?_eq_some_iff {n k : Text} : kind? n = some k ↔ ∃ stem ext,
    n = stem ++ '.' :: ext ∧ stem ≠ [] ∧ ext ≠ [] ∧ '.' ∉ ext ∧ k = '.' :: lower ext := by
  constructor
  · intro h
    rw [kind?] at h
    split at h
    · simp at h
    · simp at h
    · rename_i e hn he
      obtain ⟨stem,hm,hs,hd⟩ := exists_of_extension? he
      exact ⟨stem,e,hm,hs,fun h => hn (by rw [h]),hd,(Option.some.inj h).symm⟩
  · rintro ⟨stem,ext,rfl,hs,he,hd,rfl⟩
    obtain ⟨c,cs,rfl⟩ := List.exists_cons_of_ne_nil he
    rw [kind?,extension?_append hs hd]

end Workbench.File
