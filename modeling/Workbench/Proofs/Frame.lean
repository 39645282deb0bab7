import Workbench.World
set_option autoImplicit false

/-!
What a program leaves as it was. One that only asks leaves its surroundings alone, whatever they
are. One that writes an entry does so last of all; so when it fails its surroundings are as they
were, or an id was drawn for the entry and the writing of it is to blame.
-/
namespace Workbench

/-- Nothing is drawn and nothing written, however the program ends. -/
def Program.Quiet {α : Type} (p : Program α) : Prop := ∀ w, (p.run w).2 = w

/-- To draw an id and to write are the only calls that leave something behind. -/
def Call.onlyAsks {α : Type} : Call α → Bool
  | .drawId | .write _ _ _ => false
  | _ => true

section
variable {ε α β : Type}

namespace Program

theorem run_monadBind (p : Program α) (f : α → Program β) (w : World) :
    (p >>= f).run w = (f (p.run w).1).run (p.run w).2 := run_bind p f w

theorem Quiet.done (a : α) : Quiet (.done a) := fun _ => rfl

theorem Quiet.bind {p : Program α} {f : α → Program β} (hp : Quiet p) (hf : ∀ a, Quiet (f a)) :
    Quiet (p.bind f) := by
  intro w
  rw [run_bind,hf,hp]

theorem Quiet.call {c : Call α} (h : c.onlyAsks = true) : Quiet (Program.call c) := by
  intro w
  cases c <;> first | rfl | simp [Call.onlyAsks] at h

end Program

/-- An action that only asks. -/
def Still (a : ExceptT ε Program α) : Prop := (ExceptT.run a).Quiet

theorem Still.pure (x : α) : Still (pure x : ExceptT ε Program α) := fun _ => rfl

theorem Still.throw (e : ε) : Still (throw e : ExceptT ε Program α) := fun _ => rfl

theorem Still.lift {p : Program α} (h : p.Quiet) : Still (ExceptT.lift p : ExceptT ε Program α) :=
  Program.Quiet.bind h fun a => .done (Except.ok a)

theorem Still.bind {a : ExceptT ε Program α} {f : α → ExceptT ε Program β} (ha : Still a)
    (hf : ∀ x, Still (f x)) : Still (a >>= f) :=
  Program.Quiet.bind ha fun r => by
    cases r with
    | ok x => exact hf x
    | error e => exact .done _

theorem Still.callOr {c : Call (Except Text α)} (fault : Text → Fault) (h : c.onlyAsks = true) :
    Still (Action.callOr fault c) :=
  .bind (.lift (.call h)) fun r => by
    cases r with
    | ok x => exact .pure x
    | error reason => exact .throw _

theorem Still.read {fault : Text → Fault} {a : Area} {name : Text} {f : Option Bytes → Action α}
    (hn : Still (f none)) (hf : ∀ content, Still (f (some content))) :
    Still (Action.callOr fault (.read a name) >>= f) :=
  .bind (.callOr _ rfl) fun found => by
    cases found with
    | none => exact hn
    | some content => exact hf content

/-- In a store that is held in memory a failure changes nothing, and has a cause that `blames`
holds of. -/
def FailsAtOnce (blames : ε → Prop) (a : ExceptT ε Program α) : Prop :=
  ∀ (w : World) (s : MemoryStore), w.store = .memory s → ∀ e w',
    (ExceptT.run a).run w = (.error e,w') → w' = w ∧ blames e

/-- In a store that is held in memory a failure changes nothing, or it has a cause that `blames` holds
of and one id has been drawn. -/
def Careful (blames : ε → Prop) (a : ExceptT ε Program α) : Prop :=
  ∀ (w : World) (s : MemoryStore), w.store = .memory s → ∀ e w',
    (ExceptT.run a).run w = (.error e,w') →
      w' = w ∨ blames e ∧ w' = {w with ids := w.ids.draw.2}

variable {blames told : ε → Prop} {a : ExceptT ε Program α} {f : α → ExceptT ε Program β}

theorem Still.careful (h : Still a) : Careful blames a :=
  fun w _ _ e w' hr => .inl (by rw [← h w,hr])

theorem FailsAtOnce.careful (h : FailsAtOnce told a) : Careful blames a :=
  fun w s hs e w' hr => .inl (h w s hs e w' hr).1

theorem Program.run_exceptBind (a : ExceptT ε Program α) (f : α → ExceptT ε Program β) (w : World) :
    (ExceptT.run (a >>= f)).run w = match (ExceptT.run a).run w with
      | (.ok x,v) => (ExceptT.run (f x)).run v
      | (.error e,v) => (.error e,v) := by
  refine (Program.run_bind _ _ w).trans ?_
  cases h : (ExceptT.run a).run w with
  | mk r v =>
    rw [show Program.run a w = (r,v) from h]
    cases r <;> rfl

theorem Program.run_lift (p : Program α) (w : World) :
    (ExceptT.run (ExceptT.lift p : ExceptT ε Program α)).run w = (.ok (p.run w).1,(p.run w).2) :=
  Program.run_bind _ _ w

theorem Action.run_call (c : Call α) (w : World) :
    (ExceptT.run (Action.call c)).run w = (.ok (w.answer c).1,(w.answer c).2) := rfl

theorem Action.run_callOr (fault : Text → Fault) (c : Call (Except Text α)) (w : World) :
    (ExceptT.run (Action.callOr fault c)).run w = match w.answer c with
      | (.ok x,v) => (.ok x,v)
      | (.error reason,v) => (.error (fault reason),v) := by
  rw [Action.callOr,Program.run_exceptBind,Action.run_call]
  cases h : w.answer c with
  | mk r v => cases r <;> rfl

theorem Careful.bind (ha : Still a) (hf : ∀ x, Careful blames (f x)) : Careful blames (a >>= f) := by
  intro w s hs e w' hr
  rw [Program.run_exceptBind] at hr
  have hw := ha w
  cases h : (ExceptT.run a).run w with
  | mk r v =>
    rw [h] at hr hw
    cases r with
    | ok x => exact hf x w s hs e w' (by rw [← hw]; exact hr)
    | error d => exact .inl (by rw [← hw]; exact (Prod.mk.inj hr).2.symm)

theorem Careful.map (ha : Careful blames a) (g : α → β) :
    Careful blames (a >>= fun x => pure (g x)) := by
  intro w s hs e w' hr
  rw [Program.run_exceptBind] at hr
  cases h : (ExceptT.run a).run w with
  | mk r v =>
    rw [h] at hr
    cases r with
    | ok x => cases hr
    | error d =>
      cases hr
      exact ha w s hs _ _ h

/-- An id is drawn when all has been checked and only the writing is left. -/
theorem Careful.drawn {f : Text → ExceptT ε Program β} (hf : ∀ id, FailsAtOnce blames (f id)) :
    Careful blames (ExceptT.lift (Program.call .drawId) >>= f) := by
  intro w s hs e w' hr
  rw [Program.run_exceptBind] at hr
  obtain ⟨hw,hb⟩ := hf _ _ s (by exact hs) e w' hr
  exact .inr ⟨hb,hw⟩

theorem FailsAtOnce.now {f : Calendar.Instant → ExceptT ε Program β}
    (hf : ∀ t, FailsAtOnce blames (f t)) :
    FailsAtOnce blames (ExceptT.lift (Program.call .now) >>= f) := by
  intro w s hs e w' hr
  rw [Program.run_exceptBind] at hr
  exact hf _ w s hs e w' hr

theorem FailsAtOnce.write {fault : Text → Fault} {blames : Fault → Prop}
    (h : ∀ reason, blames (fault reason)) (a : Area) (name : Text) (content : Bytes) (x : α) :
    FailsAtOnce blames (Action.callOr fault (.write a name content) >>= fun _ => pure x) := by
  intro w s hs e w' hr
  rw [Program.run_exceptBind,Action.run_callOr,World.answer,World.write,hs] at hr
  cases hw : w.refusals.write with
  | none =>
    rw [hw] at hr
    cases hr
  | some reason =>
    rw [hw] at hr
    cases hr
    exact ⟨rfl,h reason⟩

end
end Workbench
