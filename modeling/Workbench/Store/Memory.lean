import Workbench.Dictionary
import Workbench.Store.Area
import Workbench.Text.Utf8
set_option autoImplicit false

/-!
A store that is held in memory: a dictionary of contents for each area.
-/
namespace Workbench

structure MemoryStore where
  sharedCode : Dictionary Bytes
  generated : Dictionary Bytes
  prompts : Dictionary Bytes

namespace MemoryStore

def empty : MemoryStore := ⟨.empty,.empty,.empty⟩

def area (s : MemoryStore) : Area → Dictionary Bytes
  | .sharedCode => s.sharedCode
  | .generated => s.generated
  | .prompts => s.prompts

def setArea (s : MemoryStore) (a : Area) (d : Dictionary Bytes) : MemoryStore :=
  match a with
  | .sharedCode => {s with sharedCode := d}
  | .generated => {s with generated := d}
  | .prompts => {s with prompts := d}

def write (s : MemoryStore) (a : Area) (name : Text) (content : Bytes) : MemoryStore :=
  s.setArea a ((s.area a).insert name content)

def read (s : MemoryStore) (a : Area) (name : Text) : Option Bytes := (s.area a).get? name

def list (s : MemoryStore) (a : Area) : List Text := (s.area a).keys

theorem area_setArea (s : MemoryStore) (a b : Area) (d : Dictionary Bytes) :
    (s.setArea a d).area b = if b = a then d else s.area b := by
  cases a <;> cases b <;> rfl

theorem read_write_self (s : MemoryStore) (a : Area) (n : Text) (c : Bytes) :
    (s.write a n c).read a n = some c := by
  simp [write,read,area_setArea,Dictionary.get?_insert_self]

theorem read_write_other (s : MemoryStore) {a b : Area} {n m : Text} (c : Bytes)
    (h : b ≠ a ∨ m ≠ n) : (s.write a n c).read b m = s.read b m := by
  by_cases hb : b = a
  · subst hb
    simp [write,read,area_setArea,Dictionary.get?_insert_other _ _ (h.resolve_left (by simp))]
  · simp [write,read,area_setArea,hb]

end MemoryStore
end Workbench
