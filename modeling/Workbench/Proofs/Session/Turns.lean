import Workbench.Proofs.Archive.RoundTrip
import Workbench.Proofs.Session.Stored
import Workbench.Proofs.Snippet.Record
set_option autoImplicit false

/-!
Clients that share one store and take turns, one call at a time: between any two calls of a client the
others may make theirs. A request is a program, so a client is what is left of its program, and what a
turn can do follows from the few programs that can be left.
-/
namespace Workbench.Clients
open Session

inductive Request where
  | put (code language : Text)
  | get (id : Text)
  | package (files : FileSet)
  | unpack (name : Text)

namespace Request

def Answer : Request → Type
  | .put _ _ => Text
  | .get _ => Option Snippet
  | .package _ => Text
  | .unpack _ => Option FileSet

def action [Archive.Compressor] : (r : Request) → Action r.Answer
  | .put code language => Snippet.put code language
  | .get id => Snippet.get id
  | .package files => Archive.package files
  | .unpack name => Archive.unpack name

/-- The files of a package can be counted by whoever reads it. -/
def Fits : Request → Prop
  | .package files => Archive.streamLength files < Archive.Tar.sizeLimit
  | _ => True

end Request

/-- A request under way, with the id that was drawn for it and the instant it was told, if any yet. -/
structure Flight where
  request : Request
  id : Option Text
  told : Option Calendar.Instant
  rest : Program (Except Fault request.Answer)

structure Client where
  flight : Option Flight
  todo : List Request

inductive Event where
  | drew (id : Text)
  | wrote (r : Receipt)
  | returned (client : Nat) (request : Request) (answer : Except Fault request.Answer)

structure System where
  world : World
  clients : Nat → Client
  log : List Event

/-- Whose turn it is, where the next id comes from and what the clock shows. -/
structure Turn where
  client : Nat
  ids : Ids
  now : Calendar.Instant

namespace Flight

def start [Archive.Compressor] (r : Request) : Flight := ⟨r,none,none,ExceptT.run r.action⟩

def noted (f : Flight) {α : Type} : Call α → α → Flight
  | .drawId, id => {f with id := some id}
  | .now, t => {f with told := some t}
  | _, _ => f

/-- What the request writes, by what it was given and what it has been told. -/
def receipt? (f : Flight) : Option Receipt :=
  match f.request,f.id,f.told with
  | .put code language,some id,some now => some (.snippet ⟨id,⟨code,language,now⟩⟩)
  | .package files,some id,_ => some (.archive (Archive.nameOf id) files)
  | _,_,_ => none

def events (f : Flight) {α : Type} : Call α → α → List Event
  | .drawId, id => [.drew id]
  | .write _ _ _, .ok _ => f.receipt?.toList.map .wrote
  | _, _ => []

def landed (f : Flight) (client : Nat) : Option Flight × List Event :=
  match f.rest with
  | .done a => (none,[.returned client f.request a])
  | .ask _ _ => (some f,[])

def go (f : Flight) (client : Nat) (w : World) : Option Flight × World × List Event :=
  match f.rest with
  | .done a => (none,w,[.returned client f.request a])
  | .ask c next =>
    let (b,v) := w.answer c
    let (g,es) := landed ({f with rest := next b}.noted c b) client
    (g,v,f.events c b ++ es)

end Flight

namespace System

def start (base : World) (programs : Nat → List Request) : System :=
  ⟨{base with store := .memory .empty, refusals := .none},fun k => ⟨none,programs k⟩,[]⟩

def after (σ : System) (client : Nat) (todo : List Request) :
    Option Flight × World × List Event → System
  | (f,w,es) => ⟨w,fun k => if k = client then ⟨f,todo⟩ else σ.clients k,σ.log ++ es⟩

/-- One client makes one call: the next of its request, or the first of its next one. -/
def turn [Archive.Compressor] (σ : System) (t : Turn) : System :=
  let w := {σ.world with ids := t.ids, clock := t.now}
  match σ.clients t.client with
  | ⟨some f,rs⟩ => σ.after t.client rs (f.go t.client w)
  | ⟨none,r :: rs⟩ => σ.after t.client rs ((Flight.start r).go t.client w)
  | ⟨none,[]⟩ => σ

def run [Archive.Compressor] (σ : System) (turns : List Turn) : System := turns.foldl turn σ

end System

def recordLeft (code language id : Text) : Action Text := do
  let record : SnippetRecord := ⟨code,language,← Action.call .now⟩
  Action.callOr (.storage (.writing .sharedCode (Snippet.entryOf id)))
    (.write .sharedCode (Snippet.entryOf id) record.encode)
  return id

def writeLeft (a : Area) (name : Text) (bytes : Bytes) (answer : Text) : Action Text := do
  Action.callOr (.storage (.writing a name)) (.write a name bytes)
  return answer

/-- How far a flight can have come with its id. -/
inductive Stage [Archive.Compressor] (id : Text) : Flight → Prop where
  | drawn (code language : Text) :
    Stage id ⟨.put code language,some id,none,ExceptT.run (recordLeft code language id)⟩
  | told (code language : Text) {now : Calendar.Instant} (h : now.Ordinary) :
    Stage id ⟨.put code language,some id,some now,ExceptT.run (writeLeft .sharedCode
      (Snippet.entryOf id) (SnippetRecord.encode ⟨code,language,now⟩) id)⟩
  | packed {files : FileSet} {bytes : Bytes} (h : Archive.encode files = .ok bytes)
      (hf : Archive.streamLength files < Archive.Tar.sizeLimit) :
    Stage id ⟨.package files,some id,none,
      ExceptT.run (writeLeft .generated (Archive.nameOf id) bytes (Archive.nameOf id))⟩

theorem Stage.id_eq [Archive.Compressor] {id : Text} {f : Flight} (h : Stage id f) : f.id = some id := by
  cases h <;> rfl

/-- A request answered by one look at the store, or by none. -/
def Looked [Archive.Compressor] (s : MemoryStore) : (r : Request) → Except Fault r.Answer → Prop
  | .get id, a => a = fetched s id
  | .unpack name, a => a = unpacked s name
  | .package files, a => ∃ f, a = .error f ∧ Archive.encode files = .error f
  | .put _ _, _ => False

/-- A request answered by the key of what it wrote. -/
def Handed (r : Receipt) : (q : Request) → Except Fault q.Answer → Prop
  | .put code language, a => ∃ id now, a = .ok id ∧ r = .snippet ⟨id,⟨code,language,now⟩⟩
  | .package files, a => ∃ name, a = .ok name ∧ r = .archive name files
  | _, _ => False

/-- What a turn of a client does to the store and to the client, and what there is to tell of it. -/
inductive Happens [Archive.Compressor] (s : MemoryStore) (client : Nat) :
    Client → MemoryStore → Client → List Event → Prop where
  | idle : Happens s client ⟨none,[]⟩ s ⟨none,[]⟩ []
  | drew {f : Flight} {rs : List Request} {id : Text} (h : Stage id f) :
    Happens s client ⟨none,f.request :: rs⟩ s ⟨some f,rs⟩ [.drew id]
  | told {f g : Flight} {rs : List Request} {id : Text} (h : Stage id f) (hg : Stage id g)
      (hr : g.request = f.request) : Happens s client ⟨some f,rs⟩ s ⟨some g,rs⟩ []
  | wrote {f : Flight} {rs : List Request} {id : Text} {r : Receipt} {bytes : Bytes}
      {a : Except Fault f.request.Answer} (h : Stage id f) (hr : r.From id) (hb : r.Reads bytes)
      (ha : Handed r f.request a) :
    Happens s client ⟨some f,rs⟩ (s.write r.area r.entry bytes) ⟨none,rs⟩
      [.wrote r,.returned client f.request a]
  | answered {r : Request} {rs : List Request} {a : Except Fault r.Answer} (h : Looked s r a) :
    Happens s client ⟨none,r :: rs⟩ s ⟨none,rs⟩ [.returned client r a]

theorem go_ask {r : Request} {id : Option Text} {told : Option Calendar.Instant} {α : Type}
    {c : Call α} {next : α → Program (Except Fault r.Answer)} {w v : World} {b : α}
    (h : w.answer c = (b,v)) (client : Nat) :
    Flight.go ⟨r,id,told,.ask c next⟩ client w =
      let (g,es) := (Flight.noted ⟨r,id,told,next b⟩ c b).landed client
      (g,v,Flight.events ⟨r,id,told,.ask c next⟩ c b ++ es) := by
  simp only [Flight.go,h]

section
variable {w : World} {s : MemoryStore} (hs : w.store = .memory s) (hw : w.refusals = .none)
include hs hw

theorem answer_write (a : Area) (name : Text) (bytes : Bytes) : w.answer (.write a name bytes) =
    (.ok (),{w with store := .memory (s.write a name bytes)}) := by
  simp only [World.answer,World.write,hs,hw,Refusals.none]

theorem answer_read (a : Area) (name : Text) :
    w.answer (.read a name) = (.ok (s.read a name),w) := by
  simp only [World.answer,World.read,hs,hw,Refusals.none]

variable [Archive.Compressor]

theorem go_look {r : Request} {fault : Text → Fault} {a : Area} {name : Text}
    {next : Option Bytes → Action r.Answer} {x : Except Fault r.Answer}
    (hr : r.action = Action.callOr fault (.read a name) >>= next)
    (hx : ExceptT.run (next (s.read a name)) = .done x) (client : Nat) :
    (Flight.start r).go client w = (none,w,[.returned client r x]) := by
  simp only [Flight.start,hr]
  refine (go_ask (answer_read hs hw a name) client).trans ?_
  change ((Flight.landed ⟨r,none,none,ExceptT.run (next (s.read a name))⟩ client).1,w,
    (Flight.landed ⟨r,none,none,ExceptT.run (next (s.read a name))⟩ client).2) = _
  rw [hx]
  rfl

theorem go_get (id : Text) (client : Nat) : (Flight.start (.get id)).go client w =
    (none,w,[.returned client (.get id) (fetched s id)]) := by
  cases hi : Snippet.isId id with
  | false => simp only [Flight.start,Request.action,Snippet.get,fetched,hi]; rfl
  | true =>
    refine go_look hs hw (by simp only [Request.action,Snippet.get,hi]; rfl) ?_ client
    simp only [fetched,hi,if_true]
    cases s.read .sharedCode (Snippet.entryOf id) with
    | none => rfl
    | some bytes =>
      simp only
      cases SnippetRecord.decode bytes <;> rfl

theorem go_unpack (name : Text) (client : Nat) : (Flight.start (.unpack name)).go client w =
    (none,w,[.returned client (.unpack name) (unpacked s name)]) := by
  cases hn : Archive.isName name with
  | false => simp only [Flight.start,Request.action,Archive.unpack,unpacked,hn]; rfl
  | true =>
    refine go_look hs hw (by simp only [Request.action,Archive.unpack,hn]; rfl) ?_ client
    simp only [unpacked,hn,if_true]
    cases s.read .generated name with
    | none => rfl
    | some bytes =>
      simp only
      cases Archive.decode bytes <;> rfl

theorem happens_start {r : Request} (rs : List Request) (client : Nat) (hf : r.Fits) :
    ∃ f v es s', (Flight.start r).go client w = (f,v,es) ∧ v.store = .memory s' ∧
      v.refusals = .none ∧ Happens s client ⟨none,r :: rs⟩ s' ⟨f,rs⟩ es := by
  cases r with
  | put code language => exact ⟨_,_,_,s,rfl,hs,hw,.drew (.drawn code language)⟩
  | get id => exact ⟨_,_,_,s,go_get hs hw id client,hs,hw,.answered rfl⟩
  | package files =>
    cases he : Archive.encode files with
    | ok bytes =>
      refine ⟨some ⟨.package files,some w.ids.draw.1,none,ExceptT.run (writeLeft .generated
        (Archive.nameOf w.ids.draw.1) bytes (Archive.nameOf w.ids.draw.1))⟩,
        {w with ids := w.ids.draw.2},[.drew w.ids.draw.1],s,?_,hs,hw,.drew (.packed he hf)⟩
      simp only [Flight.start,Request.action,Archive.package,he]
      rfl
    | error e =>
      refine ⟨none,w,_,s,?_,hs,hw,.answered ⟨e,rfl,he⟩⟩
      simp only [Flight.start,Request.action,Archive.package,he]
      rfl
  | unpack name => exact ⟨_,_,_,s,go_unpack hs hw name client,hs,hw,.answered rfl⟩

theorem happens_flight [Archive.Lossless] {f : Flight} {id : Text} (h : Stage id f) (ht : w.clock.Ordinary)
    (rs : List Request) (client : Nat) :
    ∃ g v es s', f.go client w = (g,v,es) ∧ v.store = .memory s' ∧ v.refusals = .none ∧
      Happens s client ⟨some f,rs⟩ s' ⟨g,rs⟩ es := by
  cases h with
  | drawn code language =>
    exact ⟨_,_,_,s,rfl,hs,hw,.told (.drawn code language) (.told code language ht) rfl⟩
  | @told code language now hn =>
    refine ⟨none,_,_,_,(go_ask (answer_write hs hw _ _ _) client).trans rfl,rfl,hw,?_⟩
    exact @Happens.wrote _ s client _ rs id (.snippet ⟨id,⟨code,language,now⟩⟩) _ _
      (.told code language hn) rfl (SnippetRecord.decode_record hn) ⟨id,now,rfl,rfl⟩
  | @packed files bytes he hf =>
    refine ⟨none,_,_,_,(go_ask (answer_write hs hw _ _ _) client).trans rfl,rfl,hw,?_⟩
    exact @Happens.wrote _ s client _ rs id (.archive (Archive.nameOf id) files) _ _
      (.packed he hf) rfl (Archive.decode_of_encode he hf) ⟨_,rfl,rfl⟩

end

/-- A turn of client `k` leaves the client `c` and the store `s` behind, and `es` is to be told of it. -/
structure Leads (σ τ : System) (k : Nat) (c : Client) (s : MemoryStore) (es : List Event) : Prop where
  clients : ∀ j, τ.clients j = if j = k then c else σ.clients j
  log : τ.log = σ.log ++ es
  store : τ.world.store = .memory s
  willing : τ.world.refusals = .none

theorem leads_after {σ : System} {k : Nat} {f : Option Flight} {rs : List Request} {v : World}
    {s : MemoryStore} {es : List Event} (hs : v.store = .memory s) (hw : v.refusals = .none) :
    Leads σ (σ.after k rs (f,v,es)) k ⟨f,rs⟩ s es :=
  ⟨fun _ => rfl,rfl,hs,hw⟩

theorem happens_turn [Archive.Compressor] [Archive.Lossless] {σ : System} {t : Turn} {s : MemoryStore}
    (hs : σ.world.store = .memory s)
    (hw : σ.world.refusals = .none) (ht : t.now.Ordinary)
    (hf : ∀ r ∈ (σ.clients t.client).todo, r.Fits)
    (hg : ∀ f, (σ.clients t.client).flight = some f → ∃ id, Stage id f) : ∃ c s' es,
      Happens s t.client (σ.clients t.client) s' c es ∧ Leads σ (σ.turn t) t.client c s' es := by
  let w := {σ.world with ids := t.ids, clock := t.now}
  rcases hc : σ.clients t.client with ⟨flight,todo⟩
  cases flight with
  | some f =>
    rw [hc] at hg
    obtain ⟨id,hid⟩ := hg f rfl
    obtain ⟨g,v,es,s',e,hs',hw',h⟩ := happens_flight (w := w) hs hw hid ht todo t.client
    simp only [System.turn,hc]
    rw [e]
    exact ⟨_,s',es,h,leads_after hs' hw'⟩
  | none =>
    cases todo with
    | nil =>
      refine ⟨_,s,[],.idle,?_⟩
      simp only [System.turn,hc]
      refine ⟨fun k => ?_,(List.append_nil _).symm,hs,hw⟩
      split <;> simp_all
    | cons r rs =>
      rw [hc] at hf
      obtain ⟨f,v,es,s',e,hs',hw',h⟩ :=
        happens_start (w := w) hs hw rs t.client (hf r List.mem_cons_self)
      simp only [System.turn,hc]
      rw [e]
      exact ⟨_,s',es,h,leads_after hs' hw'⟩

end Workbench.Clients
