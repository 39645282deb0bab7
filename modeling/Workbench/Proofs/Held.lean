import Workbench.World
set_option autoImplicit false

/-!
Programs whose store is held in memory: what they come to, said once for each call that reads.
-/
namespace Workbench

def Program.draws {α : Type} : Program α → World → Nat
  | .done _, _ => 0
  | .ask c next, w =>
    let (b,w') := w.answer c
    (match c with | .drawId => 1 | _ => 0) + (next b).draws w'

/-- Surroundings whose store is held in memory and refuses nothing. The files of projects, the disk
and the input are those of `base`. -/
def World.held (base : World) (s : MemoryStore) (drawn : Nat) (now : Calendar.Instant) : World :=
  {base with store := .memory s, refusals := .none, ids := .sequential drawn, clock := now}

def World.bare : World :=
  ⟨.memory .empty,.none,.memory .empty,⟨[],[]⟩,.sequential 0,⟨⟨2024,1,1⟩,0,0⟩,[]⟩

section
variable (base : World) (s : MemoryStore) (n : Nat) (t : Calendar.Instant)

/-- What a program comes to in a store held in memory: its result, the store left behind, the last
id drawn, and how many were drawn. -/
def Comes {α : Type} (p : Action α) (r : Except Fault α) (s' : MemoryStore) (n' d : Nat) : Prop :=
  (ExceptT.run p).run (base.held s n t) = (r,base.held s' n' t) ∧
    (ExceptT.run p).draws (base.held s n t) = d

theorem comes_read {α : Type} (fault : Text → Fault) (a : Area) (name : Text)
    (next : Option Bytes → Action α) {r : Except Fault α} {s' : MemoryStore} {n' d : Nat}
    (h : Comes base s n t (next (s.read a name)) r s' n' d) :
    Comes base s n t (Action.callOr fault (.read a name) >>= next) r s' n' d :=
  ⟨h.1,(Nat.zero_add _).trans h.2⟩

end
end Workbench
