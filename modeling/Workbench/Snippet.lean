import Workbench.Calendar.Reader
import Workbench.Json.Record
import Workbench.Program
set_option autoImplicit false

/-!
Shared snippets. A snippet is kept as a record under a new id and can be fetched by it.
-/
namespace Workbench

structure SnippetRecord where
  code : Text
  language : Text
  createdAt : Calendar.Instant
  deriving DecidableEq, Repr

structure Snippet where
  id : Text
  record : SnippetRecord
  deriving DecidableEq, Repr

namespace SnippetRecord

def fields : List Text := ["code".toList,"language".toList,"created_at".toList]

def json (r : SnippetRecord) : Json :=
  .object (fields.zip [.string r.code,.string r.language,.string r.createdAt.text])

structure Draft where
  code : Option Text
  language : Option Text
  createdAt : Option Calendar.Instant
  deriving DecidableEq, Repr

def Draft.empty : Draft := ⟨none,none,none⟩

def Draft.given (d : Draft) (i : Nat) : Bool :=
  if i = 0 then d.code.isSome else if i = 1 then d.language.isSome else d.createdAt.isSome

/-- The problem with an instant is found when the string has been read. -/
def readInstant (c : Json.Cursor) : Json.Result Calendar.Instant :=
  match Json.wantString "an RFC 3339 formatted date and time string".toList c with
  | .error f => .error f
  | .ok (t,c) =>
    match Calendar.Instant.parse t with
    | .ok i => .ok (i,c)
    | .error p => .error (c.fault (.other p.message))

def readField (i : Nat) (d : Draft) (c : Json.Cursor) : Json.Result Draft :=
  if i = 0 then
    (Json.wantString "a string".toList c).map fun r => ({d with code := some r.1},r.2)
  else if i = 1 then
    (Json.wantString "a string".toList c).map fun r => ({d with language := some r.1},r.2)
  else (readInstant c).map fun r => ({d with createdAt := some r.1},r.2)

def shape : Json.Shape Draft where
  name := "struct SnippetRecord".toList
  fields := fields
  required := true
  given := Draft.given
  read := fun _ i d c => readField i d c

def encode (r : SnippetRecord) : Bytes := Text.utf8 r.json.compact

def decode (bs : Bytes) : Except Text SnippetRecord :=
  match shape.read? .empty bs with
  | .error f => .error f.message
  | .ok ⟨some code,some language,some createdAt⟩ => .ok ⟨code,language,createdAt⟩
  | .ok _ => .error []

end SnippetRecord

namespace Snippet

def entryOf (id : Text) : Text := id ++ ".json".toList

def isId (id : Text) : Bool := !id.isEmpty && id.all Char.isAlphanum

def put (code language : Text) : Action Text := do
  let id ← Action.call .drawId
  let record : SnippetRecord := ⟨code,language,← Action.call .now⟩
  Action.callOr (.storage (.writing .sharedCode (entryOf id)))
    (.write .sharedCode (entryOf id) record.encode)
  return id

def get (id : Text) : Action (Option Snippet) :=
  if !isId id then return none
  else do
    match ← Action.callOr (.storage (.reading .sharedCode (entryOf id)))
        (.read .sharedCode (entryOf id)) with
    | none => return none
    | some bytes =>
      match SnippetRecord.decode bytes with
      | .ok record => return some ⟨id,record⟩
      | .error reason => throw (.corrupt .sharedCode (entryOf id) reason)

end Snippet
end Workbench
