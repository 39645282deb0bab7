import Mathlib.Data.List.Perm.Subperm
import Mathlib.Tactic.SplitIfs
import Workbench.Proofs.Text.Utf8
import Workbench.Text.Order
set_option autoImplicit false

/-!
The order of texts beside that of their bytes, and what becomes of it when something is written
behind both texts: nothing, unless one of them begins the other.
-/
namespace Workbench.Text

theorem lt_asymm {a b : Text} (h : a < b) : ¬ b < a := fun k => lt_irrefl a (lt_trans h k)

theorem ne_of_lt {a b : Text} (h : a < b) : a ≠ b := fun e => lt_irrefl b (e ▸ h)

/-- What keeps the order of texts has it from nowhere else, since any two texts are in order. -/
theorem lt_iff_of_mono {α : Type} [LT α] [Std.Irrefl (· < · : α → α → Prop)]
    [Std.Asymm (· < · : α → α → Prop)] {f : Text → List α} (hf : ∀ s t, s < t → f s < f t)
    {s t : Text} : f s < f t ↔ s < t := by
  refine ⟨fun h => ?_,hf s t⟩
  rcases Classical.em (s = t) with rfl | hne
  · exact absurd h (List.lt_irrefl _)
  by_cases hlt : s < t
  · exact hlt
  · exact absurd h (List.lt_asymm (hf t s (lt_of_not_lt hlt hne)))

theorem eq_of_ascending {α : Type} (key : α → Text) {xs ys : List α}
    (hx : xs.Pairwise fun a b => key a < key b) (hy : ys.Pairwise fun a b => key a < key b)
    (h : ∀ a, a ∈ xs ↔ a ∈ ys) : xs = ys := by
  have hne : ∀ {a b : α}, key a < key b → a ≠ b := fun hlt e => ne_of_lt hlt (congrArg key e)
  refine List.Perm.eq_of_pairwise (fun a b _ _ hab hba => ?_) hx hy
    ((List.perm_ext_iff_of_nodup (hx.imp hne) (hy.imp hne)).2 h)
  exact absurd hba (lt_asymm hab)

theorem append_lt_append_iff (a : Text) {s t : Text} : a ++ s < a ++ t ↔ s < t :=
  lt_iff_of_mono fun _ _ h => List.append_left_lt h

/-- Of two texts in order, either a character decides, and what follows them is of no account, or
the first begins the second. -/
theorem lt_cases {a b : Text} (h : a < b) :
    (∀ s t : Text, a ++ s < b ++ t) ∨ ∃ r, r ≠ [] ∧ b = a ++ r := by
  induction h with
  | @nil c cs => exact .inr ⟨c :: cs,by simp,rfl⟩
  | rel h => exact .inl fun s t => List.Lex.rel h
  | cons h ih =>
    rcases ih with ih | ⟨r,hr,rfl⟩
    · exact .inl fun s t => List.Lex.cons (ih s t)
    · exact .inr ⟨r,hr,rfl⟩

theorem pairwise_iff_of_pairwise {ts : List Text} {R S : Text → Text → Prop} (h : ts.Pairwise R)
    (hR : ∀ a b, R a b → ¬ R b a) :
    ts.Pairwise S ↔ ∀ a ∈ ts, ∀ b ∈ ts, R a b → S a b := by
  refine ⟨fun hS => ?_,fun hS => h.imp_of_mem fun {a b} ha hb => hS a ha b hb⟩
  induction ts with
  | nil => simp
  | cons t ts ih =>
    obtain ⟨hRt,hRts⟩ := List.pairwise_cons.1 h
    obtain ⟨hSt,hSts⟩ := List.pairwise_cons.1 hS
    refine List.forall_mem_cons.2 ⟨List.forall_mem_cons.2 ⟨?_,?_⟩,fun a ha =>
      List.forall_mem_cons.2 ⟨?_,ih hRts hSts a ha⟩⟩
    · exact fun htt => absurd htt (hR t t htt)
    · exact fun b hb _ => hSt b hb
    · exact fun hat => absurd hat (hR t a (hRt a ha))

/-- The bytes of a character tell its place among characters, whatever follows them. -/
theorem utf8Char_lt {c d : Char} (h : c.toNat < d.toNat) (x y : Bytes) :
    utf8Char c ++ x < utf8Char d ++ y := by
  have hd := codePoint_bounds d
  simp only [utf8Char]
  -- More bytes come with a greater first one; among as many, the first that differs decides.
  split_ifs
  all_goals
    simp (disch := omega) only [List.cons_append,List.nil_append,List.cons_lt_cons_iff,
      UInt8.lt_iff_toNat_lt,← UInt8.toNat_inj,toNat_toUInt8]
    omega

theorem utf8_lt_utf8 {s t : Text} (h : s < t) : utf8 s < utf8 t := by
  induction h with
  | @nil c cs =>
    obtain ⟨b,more,hc,-⟩ := utf8Step_utf8Char c
    rw [utf8_cons,hc]
    exact List.Lex.nil
  | rel h => exact utf8Char_lt h _ _
  | cons h ih => exact List.append_left_lt ih

theorem utf8_lt_iff {s t : Text} : utf8 s < utf8 t ↔ s < t := lt_iff_of_mono fun _ _ => utf8_lt_utf8

end Workbench.Text
