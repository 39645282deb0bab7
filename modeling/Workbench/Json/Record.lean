import Workbench.Json.Reader
set_option autoImplicit false

/-!
Records: objects with known fields, which may also be given as a list of the values in order. A
field that is not known is read over. Where fields are missing or too many the fault is placed
behind the record, or as far behind it as reading came.
-/
namespace Workbench.Json

/-- What a record is made of: a reader for each field, which puts the value into what is known of
the record, and whether every field has to be there. -/
structure Shape (σ : Type) where
  name : Text
  fields : List Text
  required : Bool
  given : σ → Nat → Bool
  read : Nat → Nat → σ → Cursor → Result σ

namespace Shape
variable {σ : Type}

abbrev Draft (σ : Type) := σ × Option Problem × Cursor

def wanted (s : Shape σ) : Text :=
  s.name ++ " with ".toList ++ Text.decimal s.fields.length ++ " elements".toList

def members (s : Shape σ) (depth : Nat) : Nat → Bool → σ → Cursor → Except Fault (Draft σ)
  | 0, _, r, c => .ok (r,none,c)
  | fuel+1, first, r, c =>
    match moreKeys first c with
    | .error f => .error f
    | .ok (false,c) =>
      if s.required then
        match (s.fields.zipIdx.find? fun k => !s.given r k.2) with
        | some k => .ok (r,some (.missingField k.1),c)
        | none => .ok (r,none,c)
      else .ok (r,none,c)
    | .ok (true,c) =>
      match readString c.skip with
      | .error f => .error f
      | .ok (k,c) =>
        match s.fields.zipIdx.find? fun f => f.1 = k with
        | none =>
          match colon c with
          | .error f => .error f
          | .ok c =>
            match skipValue c with
            | .error f => .error f
            | .ok c => members s depth fuel false r c
        | some (name,i) =>
          if s.given r i then .ok (r,some (.duplicateField name),c)
          else
            match colon c with
            | .error f => .error f
            | .ok c =>
              match s.read depth i r c with
              | .error f => .error f
              | .ok (r,c) => members s depth fuel false r c

/-- The fields from number `i` on, `left` of them. -/
def items (s : Shape σ) (depth : Nat) : Nat → Nat → Bool → σ → Cursor → Except Fault (Draft σ)
  | 0, _, _, r, c => .ok (r,none,c)
  | left+1, i, first, r, c =>
    match moreItems first c with
    | .error f => .error f
    | .ok (false,c) => .ok (r,if s.required then some (.invalidLength i s.wanted) else none,c)
    | .ok (true,c) =>
      match s.read depth i r c with
      | .error f => .error f
      | .ok (r,c) => items s depth left (i+1) false r c

def readFrom (s : Shape σ) (depth : Nat) (r : σ) (c : Cursor) : Result σ :=
  let c := skipSpaces c
  match c.peek with
  | none => .error (c.faultNext .eofValue)
  | some 91 =>
    if depth ≤ 1 then .error (c.faultNext .recursionLimit)
    else finish closeList (items s (depth-1) s.fields.length 0 true r c.skip)
  | some 123 =>
    if depth ≤ 1 then .error (c.faultNext .recursionLimit)
    else finish closeObject (members s (depth-1) (fuelFor c) true r c.skip)
  | some _ => .error (wrongType s.name c)
where
  finish (close : Cursor → Cursor × Option Fault) : Except Fault (Draft σ) → Result σ
    | .error f => .error f
    | .ok (r,problem,c) =>
      let (c,closing) := close c
      match problem,closing with
      | some p,_ => .error (c.fault p)
      | none,some f => .error f
      | none,none => .ok (r,c)

def read? (s : Shape σ) (r : σ) (bs : Bytes) : Except Fault σ :=
  match s.readFrom maxDepth r (.start bs) with
  | .error f => .error f
  | .ok (r,c) =>
    match atEnd c with
    | .error f => .error f
    | .ok () => .ok r

end Shape
end Workbench.Json
