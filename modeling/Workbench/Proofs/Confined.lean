import Workbench.Snippet
set_option autoImplicit false

/-!
Programs that keep to their entries: whatever they are answered, every entry that they read or write
has a name that is right for its area. Of the answers it is known only that an id is one.
-/
namespace Workbench

namespace Call
variable {α : Type}

def key? : Call α → Option (Area × Text)
  | .write a name _ | .read a name => some (a,name)
  | _ => none

def Answers : Call α → α → Prop
  | .drawId, id => Snippet.isId id = true
  | _, _ => True

/-- The entry of a call, if it has one, satisfies `ok`. -/
def Keeps (ok : Area → Text → Prop) (c : Call α) : Prop :=
  ∀ a name, c.key? = some (a,name) → ok a name

theorem Keeps.of_none {ok : Area → Text → Prop} {c : Call α} (h : c.key? = none) : c.Keeps ok := by
  intro a name he
  simp [h] at he

theorem keeps_write {ok : Area → Text → Prop} {a : Area} {name : Text} (h : ok a name)
    (content : Bytes) : Keeps ok (.write a name content) := by
  intro b n he
  simp only [key?,Option.some.injEq,Prod.mk.injEq] at he
  rw [← he.1,← he.2]
  exact h

theorem keeps_read {ok : Area → Text → Prop} {a : Area} {name : Text} (h : ok a name) :
    Keeps ok (.read a name) := by
  intro b n he
  simp only [key?,Option.some.injEq,Prod.mk.injEq] at he
  rw [← he.1,← he.2]
  exact h

end Call

/-- Whatever a program is answered, each entry that it reads or writes satisfies `ok`. -/
def Program.Confined {α : Type} (ok : Area → Text → Prop) : Program α → Prop
  | .done _ => True
  | .ask c next => c.Keeps ok ∧ ∀ b, c.Answers b → (next b).Confined ok

section
variable {ε α β : Type} {ok : Area → Text → Prop}

namespace Program

theorem Confined.bind {p : Program α} {f : α → Program β} (hp : p.Confined ok)
    (hf : ∀ a, (f a).Confined ok) : (p.bind f).Confined ok := by
  induction p with
  | done a => exact hf a
  | ask c next ih => exact ⟨hp.1,fun b hb => ih b (hp.2 b hb)⟩

theorem Confined.call {c : Call α} (h : c.Keeps ok) : (Program.call c).Confined ok :=
  ⟨h,fun _ _ => trivial⟩

end Program

def Within (ok : Area → Text → Prop) (a : ExceptT ε Program α) : Prop :=
  (ExceptT.run a).Confined ok

theorem Within.pure (x : α) : Within ok (pure x : ExceptT ε Program α) := trivial

theorem Within.throw (e : ε) : Within ok (throw e : ExceptT ε Program α) := trivial

theorem Within.lift {p : Program α} (h : p.Confined ok) :
    Within ok (ExceptT.lift p : ExceptT ε Program α) := h.bind fun _ => trivial

theorem Within.bind {a : ExceptT ε Program α} {f : α → ExceptT ε Program β} (ha : Within ok a)
    (hf : ∀ x, Within ok (f x)) : Within ok (a >>= f) :=
  Program.Confined.bind ha fun r => by
    cases r with
    | ok x => exact hf x
    | error e => trivial

theorem Within.callOr {c : Call (Except Text α)} (fault : Text → Fault) (h : c.Keeps ok) :
    Within ok (Action.callOr fault c) :=
  .bind (.lift (.call h)) fun r => by
    cases r with
    | ok x => exact .pure x
    | error reason => exact .throw _

/-- What follows the drawing of an id may rely on it. -/
theorem Within.drawn {f : Text → ExceptT ε Program β}
    (hf : ∀ id, Snippet.isId id = true → Within ok (f id)) :
    Within ok (ExceptT.lift (Program.call .drawId) >>= f) :=
  ⟨.of_none rfl,fun id hid => hf id hid⟩

theorem Within.read {fault : Text → Fault} {a : Area} {name : Text} {f : Option Bytes → Action α}
    (h : ok a name) (hn : Within ok (f none)) (hf : ∀ content, Within ok (f (some content))) :
    Within ok (Action.callOr fault (.read a name) >>= f) :=
  .bind (.callOr _ (Call.keeps_read h)) fun found => by
    cases found with
    | none => exact hn
    | some content => exact hf content

theorem Within.need (field value : Text) : Within ok (Action.need field value) := by
  rw [Action.need]
  split
  · exact .throw _
  · exact .pure _

end
end Workbench
