import Mathlib.Data.List.Induction
import Workbench.Proofs.Session.Turns
set_option autoImplicit false

/-!
Clients that share one store lose nothing. Whatever the order of their turns: what has been written is
found as it was given, what has not been written yet is found to be absent, and every entry that a
client was answered with is there in the end. The invariant is about ids: one that was drawn belongs to
one client that has yet to write under it or to one entry that is written, and to nothing else.
-/
namespace Workbench.Clients
open Session

def drawn (log : List Event) : List Text := log.filterMap fun
  | .drew id => some id
  | _ => none

def written (log : List Event) : List Receipt := log.filterMap fun
  | .wrote r => some r
  | _ => none

def answeredTo (client : Nat) (log : List Event) : List Request := log.filterMap fun
  | .returned k r _ => if k = client then some r else none
  | _ => none

/-- The entries that clients have been answered with. -/
def completed (a : Area) (log : List Event) : List Text := log.filterMap fun
  | .returned _ (.put _ _) (.ok id) => if a = .sharedCode then some (Snippet.entryOf id) else none
  | .returned _ (.package _) (.ok name) => if a = .generated then some name else none
  | _ => none

/-- An answer is right after what has happened: what was written is had back, what was not is absent. -/
def Right [Archive.Compressor] (log : List Event) : (r : Request) → Except Fault r.Answer → Prop
  | .put code language, a => ∃ id now, a = .ok id ∧ .snippet ⟨id,⟨code,language,now⟩⟩ ∈ written log
  | .package files, a => (∃ name, a = .ok name ∧ .archive name files ∈ written log) ∨
    ∃ f, a = .error f ∧ Archive.encode files = .error f
  | .get id, a => (∀ x, .snippet x ∈ written log → x.id = id → a = .ok (some x)) ∧
    ((∀ x, .snippet x ∈ written log → x.id ≠ id) → a = .ok none)
  | .unpack name, a => (∀ files, .archive name files ∈ written log → a = .ok (some files)) ∧
    ((∀ files, .archive name files ∉ written log) → a = .ok none)

def Consistent [Archive.Compressor] (log : List Event) : Prop :=
  ∀ i k r a, log[i]? = some (.returned k r a) → Right (log.take i) r a

namespace Client

def ahead (c : Client) : List Request := c.flight.toList.map Flight.request ++ c.todo

end Client

theorem drawn_append (l m : List Event) : drawn (l ++ m) = drawn l ++ drawn m :=
  List.filterMap_append

theorem written_append (l m : List Event) : written (l ++ m) = written l ++ written m :=
  List.filterMap_append

theorem answeredTo_append (k : Nat) (l m : List Event) :
    answeredTo k (l ++ m) = answeredTo k l ++ answeredTo k m :=
  List.filterMap_append

theorem completed_append (a : Area) (l m : List Event) :
    completed a (l ++ m) = completed a l ++ completed a m :=
  List.filterMap_append

/-- An id that a client holds or that was used for an entry has been drawn, and is nobody else's. -/
structure Owned (held : Nat → Option Text) (ids : List Text) (rs : List Receipt) : Prop where
  known : ∀ k id, held k = some id → id ∈ ids
  apart : ∀ j k id, held j = some id → held k = some id → j = k
  spent : ∀ r ∈ rs, ∃ id ∈ ids, r.From id ∧ ∀ k, held k ≠ some id

namespace Owned
variable {held : Nat → Option Text} {ids : List Text} {rs : List Receipt} {k : Nat} {id : Text}

theorem start : Owned (fun _ => none) [] [] := ⟨by simp,by simp,by simp⟩

theorem draw (h : Owned held ids rs) (hid : id ∉ ids) :
    Owned (fun j => if j = k then some id else held j) (ids ++ [id]) rs where
  known j i hj := by
    split at hj
    · simp_all
    · exact List.mem_append_left _ (h.known j i hj)
  apart i j x hi hj := by
    split at hi
    · split at hj
      · omega
      · cases hi
        exact absurd (h.known j id hj) hid
    · split at hj
      · cases hj
        exact absurd (h.known i id hi) hid
      · exact h.apart i j x hi hj
  spent r hr := by
    obtain ⟨i,hi,hf,hh⟩ := h.spent r hr
    refine ⟨i,List.mem_append_left _ hi,hf,fun j => ?_⟩
    split
    · intro e
      cases e
      exact hid hi
    · exact hh j

theorem spend (h : Owned held ids rs) (hk : held k = some id) {r : Receipt} (hr : r.From id) :
    Owned (fun j => if j = k then none else held j) ids (rs ++ [r]) where
  known j i hj := by
    split at hj
    · cases hj
    · exact h.known j i hj
  apart i j x hi hj := by
    split at hi
    · cases hi
    · split at hj
      · cases hj
      · exact h.apart i j x hi hj
  spent q hq := by
    rcases List.mem_append.1 hq with hq | hq
    · obtain ⟨i,hi,hf,hh⟩ := h.spent q hq
      refine ⟨i,hi,hf,fun j => ?_⟩
      split
      · simp
      · exact hh j
    · rw [List.mem_singleton.1 hq]
      refine ⟨id,h.known k id hk,hr,fun j => ?_⟩
      split
      · simp
      · rename_i hj
        exact fun e => hj (h.apart j k id e hk)

/-- What is made under an id that a client holds goes where no entry is. -/
theorem entry_free (h : Owned held ids rs) (hk : held k = some id) {r : Receipt} (hr : r.From id) :
    ∀ q ∈ rs, q.area ≠ r.area ∨ q.entry ≠ r.entry := by
  intro q hq
  obtain ⟨i,-,hf,hh⟩ := h.spent q hq
  refine Receipt.entry_ne_of_from hf hr fun e => hh k ?_
  rw [hk,e]

end Owned

/-- The id under which a client has yet to write. -/
def System.holds (σ : System) (k : Nat) : Option Text := (σ.clients k).flight.bind Flight.id

theorem completed_of_handed {r : Receipt} {q : Request} {x : Except Fault q.Answer} (h : Handed r q x)
    (k : Nat) (a : Area) : completed a [.wrote r,.returned k q x] =
      ([r].filter fun r => r.area = a).map Receipt.entry := by
  cases q with
  | put code language =>
    obtain ⟨id,now,rfl,rfl⟩ := h
    cases a <;> rfl
  | package files =>
    obtain ⟨name,rfl,rfl⟩ := h
    cases a <;> rfl
  | get id => cases h
  | unpack name => cases h

theorem completed_of_looked [Archive.Compressor] {s : MemoryStore} {q : Request} {x : Except Fault q.Answer}
    (h : Looked s q x) (k : Nat) (a : Area) : completed a [.returned k q x] = [] := by
  cases q with
  | put code language => cases h
  | package files =>
    obtain ⟨f,rfl,-⟩ := h
    rfl
  | get id => rfl
  | unpack name => rfl

theorem right_of_handed [Archive.Compressor] {log : List Event} {r : Receipt} {q : Request}
    {x : Except Fault q.Answer} (h : Handed r q x) (hr : r ∈ written log) : Right log q x := by
  cases q with
  | put code language =>
    obtain ⟨id,now,rfl,rfl⟩ := h
    exact ⟨id,now,rfl,hr⟩
  | package files =>
    obtain ⟨name,rfl,rfl⟩ := h
    exact .inl ⟨name,rfl,hr⟩
  | get id => cases h
  | unpack name => cases h

theorem right_of_looked [Archive.Compressor] {log : List Event} {s : MemoryStore} {q : Request}
    {x : Except Fault q.Answer} (h : Looked s q x) (hb : Backs s (written log))
    (hid : ∀ r ∈ written log, ∃ id, Snippet.isId id = true ∧ r.From id) : Right log q x := by
  cases q with
  | put code language => cases h
  | package files => exact .inr h
  | get id =>
    refine ⟨fun y hy he => ?_,fun hn => h.trans (hb.fetched_other hn)⟩
    obtain ⟨i,hi,hf⟩ := hid _ hy
    have hy' : Snippet.isId y.id = true := (show y.id = i from hf) ▸ hi
    rw [← he] at h
    exact h.trans (hb.fetched_snippet hy' hy)
  | unpack name =>
    refine ⟨fun files hy => ?_,fun hn => h.trans (hb.unpacked_other hn)⟩
    obtain ⟨i,hi,hf⟩ := hid _ hy
    have hn : Archive.isName name = true := (show name = Archive.nameOf i from hf) ▸
      Archive.isName_of_isId hi
    exact h.trans (hb.unpacked_archive hn hy)

theorem Right.exists_package [Archive.Compressor] {log : List Event} {r : Request} {f : Fault}
    (h : Right log r (.error f)) : ∃ files, r = .package files ∧ Archive.encode files = .error f := by
  cases r with
  | put code language =>
    obtain ⟨id,now,e,-⟩ := h
    cases e
  | package files =>
    rcases h with ⟨name,e,-⟩ | ⟨g,e,hg⟩
    · cases e
    · cases e
      exact ⟨files,rfl,hg⟩
  | get id =>
    by_cases hx : ∃ x, .snippet x ∈ written log ∧ x.id = id
    · obtain ⟨x,hx,hi⟩ := hx
      cases h.1 x hx hi
    · cases h.2 fun x hm hi => hx ⟨x,hm,hi⟩
  | unpack name =>
    by_cases hx : ∃ files, .archive name files ∈ written log
    · obtain ⟨files,hx⟩ := hx
      cases h.1 files hx
    · cases h.2 fun files hm => hx ⟨files,hm⟩

theorem Consistent.append [Archive.Compressor] {log : List Event} (h : Consistent log) {e : Event}
    (he : ∀ k r a, e = .returned k r a → Right log r a) : Consistent (log ++ [e]) := by
  intro i k r a hi
  rcases Nat.lt_trichotomy i log.length with hl | hl | hl
  · rw [List.getElem?_append_left hl] at hi
    rw [List.take_append_of_le_length (Nat.le_of_lt hl)]
    exact h i k r a hi
  · rw [hl,List.getElem?_concat_length] at hi
    rw [hl,List.take_left]
    exact he k r a (Option.some.inj hi)
  · rw [List.getElem?_eq_none (by simp; omega)] at hi
    cases hi

theorem holds_turn {σ τ : System} {k : Nat} {s : MemoryStore} {c : Client} {es : List Event}
    (h : Leads σ τ k c s es) :
    τ.holds = fun j => if j = k then c.flight.bind Flight.id else σ.holds j := by
  funext j
  rw [System.holds,h.clients]
  split <;> rfl

theorem holds_kept {σ τ : System} {k : Nat} {s : MemoryStore} {c : Client} {es : List Event}
    (h : Leads σ τ k c s es) (he : σ.holds k = c.flight.bind Flight.id) : τ.holds = σ.holds := by
  rw [holds_turn h,← he]
  funext j
  split
  · rename_i hj
    rw [hj]
  · rfl

section
variable [Archive.Compressor] {σ τ : System} {k : Nat} {s s' : MemoryStore} {b c : Client}
  {es : List Event} (hh : Happens s k b s' c es)
include hh

theorem owned_turn (hb : σ.clients k = b) (hl : Leads σ τ k c s' es) (hd : (drawn τ.log).Nodup)
    (h : Owned σ.holds (drawn σ.log) (written σ.log)) :
    Owned τ.holds (drawn τ.log) (written τ.log) := by
  have hk : σ.holds k = b.flight.bind Flight.id := by rw [System.holds,hb]
  rw [hl.log,drawn_append] at hd ⊢
  rw [written_append]
  cases hh with
  | idle =>
    rw [holds_kept hl hk]
    simpa [drawn,written] using h
  | @drew f rs id hf =>
    have hn : id ∉ drawn σ.log :=
      fun hm => (List.nodup_append.1 hd).2.2 id hm id List.mem_cons_self rfl
    rw [holds_turn hl]
    change Owned (fun j => if j = k then f.id else σ.holds j) (drawn σ.log ++ [id])
      (written σ.log ++ [])
    rw [hf.id_eq,List.append_nil]
    exact h.draw hn
  | @told f g rs id hf hg hr =>
    rw [holds_kept hl (hk.trans (hf.id_eq.trans hg.id_eq.symm))]
    simpa [drawn,written] using h
  | @wrote f rs id r bytes a hf hr =>
    rw [holds_turn hl]
    change Owned (fun j => if j = k then none else σ.holds j) (drawn σ.log ++ []) _
    rw [List.append_nil]
    exact h.spend (hk.trans hf.id_eq) hr
  | answered ha =>
    rw [holds_kept hl hk]
    simpa [drawn,written] using h

/-- The receipts stand for what is stored, and no two of them for the same entry. -/
theorem backs_turn (hb : σ.clients k = b) (hl : Leads σ τ k c s' es)
    (ho : Owned σ.holds (drawn σ.log) (written σ.log)) (h : Backs s (written σ.log))
    (hn : ((written σ.log).map fun r => (r.area,r.entry)).Nodup) :
    Backs s' (written τ.log) ∧ ((written τ.log).map fun r => (r.area,r.entry)).Nodup := by
  rw [hl.log,written_append]
  cases hh with
  | @wrote f rs id r bytes a hf hr hd =>
    have hk : σ.holds k = some id := by rw [System.holds,hb]; exact hf.id_eq
    have hnew := ho.entry_free hk hr
    refine ⟨h.write hnew hd,?_⟩
    change ((written σ.log ++ [r]).map _).Nodup
    rw [List.map_append,List.nodup_append]
    refine ⟨hn,by simp,fun x hx y hy => ?_⟩
    obtain ⟨q,hq,rfl⟩ := List.mem_map.1 hx
    rw [List.mem_singleton.1 hy]
    intro e
    rw [Prod.mk.injEq] at e
    rcases hnew q hq with hne | hne
    · exact hne e.1
    · exact hne e.2
  | idle => simpa [written] using ⟨h,hn⟩
  | drew hf => simpa [written] using ⟨h,hn⟩
  | told hf hg hr => simpa [written] using ⟨h,hn⟩
  | answered ha => simpa [written] using ⟨h,hn⟩

theorem consistent_turn (hl : Leads σ τ k c s' es) (hi : ∀ id ∈ drawn σ.log, Snippet.isId id = true)
    (ho : Owned σ.holds (drawn σ.log) (written σ.log)) (hs : Backs s (written σ.log))
    (h : Consistent σ.log) : Consistent τ.log := by
  rw [hl.log]
  cases hh with
  | idle => rwa [List.append_nil]
  | drew hf => exact h.append fun _ _ _ e => nomatch e
  | told hf hg hr => rwa [List.append_nil]
  | @wrote f rs id r bytes a hf hr hd ha =>
    have hw : Consistent (σ.log ++ [.wrote r]) := h.append fun _ _ _ e => nomatch e
    have hr : r ∈ written (σ.log ++ [.wrote r]) := by
      rw [written_append]
      exact List.mem_append_right _ List.mem_cons_self
    rw [List.append_cons]
    refine hw.append fun j q x e => ?_
    cases e
    exact right_of_handed ha hr
  | answered ha =>
    refine h.append fun j q x e => ?_
    cases e
    refine right_of_looked ha hs fun r hr => ?_
    obtain ⟨id,hid,hf,-⟩ := ho.spent r hr
    exact ⟨id,hi id hid,hf⟩

theorem staged_turn (hl : Leads σ τ k c s' es)
    (h : ∀ j f, (σ.clients j).flight = some f → ∃ id, Stage id f) :
    ∀ j f, (τ.clients j).flight = some f → ∃ id, Stage id f := by
  intro j f hf
  rw [hl.clients] at hf
  split at hf
  · cases hh with
    | drew hs => cases hf; exact ⟨_,hs⟩
    | told _ hs _ => cases hf; exact ⟨_,hs⟩
    | idle => cases hf
    | wrote => cases hf
    | answered => cases hf
  · exact h j f hf

theorem account_turn (hb : σ.clients k = b) (hl : Leads σ τ k c s' es) (j : Nat) :
    answeredTo j τ.log ++ (τ.clients j).ahead = answeredTo j σ.log ++ (σ.clients j).ahead := by
  rw [hl.log,answeredTo_append,hl.clients,List.append_assoc]
  congr 1
  by_cases hj : j = k
  · rw [if_pos hj,hj,hb]
    cases hh <;> simp_all [answeredTo,Client.ahead]
  · have hk : k ≠ j := Ne.symm hj
    rw [if_neg hj]
    cases hh <;> simp [answeredTo,hk]

theorem listing_turn (hl : Leads σ τ k c s' es) {a : Area}
    (h : ((written σ.log).filter fun r => r.area = a).map Receipt.entry = completed a σ.log) :
    ((written τ.log).filter fun r => r.area = a).map Receipt.entry = completed a τ.log := by
  rw [hl.log,written_append,completed_append,List.filter_append,List.map_append,h]
  congr 1
  cases hh with
  | wrote hf hr hd ha => exact (completed_of_handed ha k a).symm
  | answered ha => exact (completed_of_looked ha k a).symm
  | idle => rfl
  | drew hf => rfl
  | told hf hg hr => rfl

end

/-- What holds between two turns, with `s` for the store that is shared. -/
structure Kept [Archive.Compressor] (programs : Nat → List Request) (σ : System)
    (s : MemoryStore) : Prop where
  store : σ.world.store = .memory s
  willing : σ.world.refusals = .none
  staged : ∀ k f, (σ.clients k).flight = some f → ∃ id, Stage id f
  owned : Owned σ.holds (drawn σ.log) (written σ.log)
  backs : Backs s (written σ.log)
  distinct : ((written σ.log).map fun r => (r.area,r.entry)).Nodup
  consistent : Consistent σ.log
  account : ∀ k, answeredTo k σ.log ++ (σ.clients k).ahead = programs k
  listing : ∀ a, ((written σ.log).filter fun r => r.area = a).map Receipt.entry = completed a σ.log

theorem kept_start [Archive.Compressor] (base : World) (programs : Nat → List Request) :
    Kept programs (.start base programs) .empty where
  store := rfl
  willing := rfl
  staged := by simp [System.start]
  owned := .start
  backs := .empty
  distinct := List.nodup_nil
  consistent := by simp [Consistent,System.start]
  account _ := rfl
  listing _ := rfl

theorem System.run_concat [Archive.Compressor] (σ : System) (ts : List Turn) (t : Turn) :
    σ.run (ts ++ [t]) = (σ.run ts).turn t := List.foldl_append

theorem exists_log_turn [Archive.Compressor] (σ : System) (t : Turn) :
    ∃ es, (σ.turn t).log = σ.log ++ es := by
  rw [System.turn]
  split
  · exact ⟨_,rfl⟩
  · exact ⟨_,rfl⟩
  · exact ⟨[],(List.append_nil _).symm⟩

section
variable [Archive.Compressor] [Archive.Lossless] {programs : Nat → List Request}
  (hf : ∀ k, ∀ r ∈ programs k, r.Fits)
include hf

theorem kept_turn {σ : System} {s : MemoryStore} (h : Kept programs σ s) {t : Turn}
    (ht : t.now.Ordinary) (hd : (drawn (σ.turn t).log).Nodup)
    (hi : ∀ id ∈ drawn σ.log, Snippet.isId id = true) : ∃ s', Kept programs (σ.turn t) s' := by
  have hr : ∀ r ∈ (σ.clients t.client).todo, r.Fits := by
    intro r hr
    refine hf t.client r ?_
    rw [← h.account t.client]
    exact List.mem_append_right _ (List.mem_append_right _ hr)
  obtain ⟨c,s',es,hh,hl⟩ := happens_turn h.store h.willing ht hr (h.staged t.client)
  obtain ⟨hb,hn⟩ := backs_turn hh rfl hl h.owned h.backs h.distinct
  exact ⟨s',{
    store := hl.store
    willing := hl.willing
    staged := staged_turn hh hl h.staged
    owned := owned_turn hh rfl hl hd h.owned
    backs := hb
    distinct := hn
    consistent := consistent_turn hh hl hi h.owned h.backs h.consistent
    account := fun k => (account_turn hh rfl hl k).trans (h.account k)
    listing := fun a => listing_turn hh hl (h.listing a)}⟩

theorem kept_run (base : World) {turns : List Turn} (ht : ∀ t ∈ turns, t.now.Ordinary)
    (hd : (drawn ((System.start base programs).run turns).log).Nodup)
    (hi : ∀ id ∈ drawn ((System.start base programs).run turns).log, Snippet.isId id = true) :
    ∃ s, Kept programs ((System.start base programs).run turns) s := by
  induction turns using List.reverseRecOn with
  | nil => exact ⟨_,kept_start base programs⟩
  | append_singleton turns t ih =>
    rw [System.run_concat] at hd hi ⊢
    obtain ⟨es,he⟩ := exists_log_turn ((System.start base programs).run turns) t
    have hd' := hd
    rw [he,drawn_append] at hd' hi
    have hi' := fun id hid => hi id (List.mem_append_left _ hid)
    obtain ⟨s,hs⟩ := ih (fun u hu => ht u (List.mem_append_left _ hu)) (List.nodup_append.1 hd').1 hi'
    exact kept_turn hf hs (ht t (by simp)) hd hi'

end

/-- However the clients take turns and whatever compresses, if no id is drawn twice: every answer is
right when it is given, so what has been written is had back and what has not is absent; no lookup ends
in a fault; every client is answered request by request; and an area lists the entries that clients were
answered with, each once. -/
theorem clients_lose_nothing [Archive.Compressor] [Archive.Lossless] {base : World}
    {programs : Nat → List Request} {turns : List Turn} {σ : System}
    (hσ : σ = (System.start base programs).run turns)
    (hf : ∀ k, ∀ r ∈ programs k, r.Fits) (ht : ∀ t ∈ turns, t.now.Ordinary)
    (hd : (drawn σ.log).Nodup) (hi : ∀ id ∈ drawn σ.log, Snippet.isId id = true) :
    Consistent σ.log ∧
    (∀ (i k : Nat) (r : Request) (f : Fault), σ.log[i]? = some (.returned k r (.error f)) →
      ∃ files, r = .package files ∧ Archive.encode files = .error f) ∧
    (∀ k, answeredTo k σ.log ++ (σ.clients k).ahead = programs k) ∧
    ∀ a, a ≠ .prompts → ∃ names, σ.world.list a = .ok names ∧ names.Nodup ∧
      names.Perm (completed a σ.log) := by
  subst hσ
  obtain ⟨s,h⟩ := kept_run hf base ht hd hi
  refine ⟨h.consistent,fun i k r f hr => (h.consistent i k r _ hr).exists_package,h.account,
    fun a ha => ⟨s.list a,?_,s.list_nodup a,?_⟩⟩
  · simp only [World.list,h.willing,h.store,Refusals.none]
  · rw [← h.listing a]
    exact h.backs.list_perm ha h.distinct

theorem log_turn_get {σ : System} {t : Turn} {s : MemoryStore} (hs : σ.world.store = .memory s)
    (hw : σ.world.refusals = .none) {id : Text} {rs : List Request}
    (hc : σ.clients t.client = ⟨none,.get id :: rs⟩) :
    (σ.turn t).log = σ.log ++ [.returned t.client (.get id) (fetched s id)] := by
  simp only [System.turn,hc]
  rw [go_get (w := {σ.world with ids := t.ids, clock := t.now}) hs hw]
  rfl

/-- One client puts a snippet, and another asks for it all the while. -/
def asking : Nat → List Request
  | 0 => [.put ['x'] ['P']]
  | 1 => [.get ['7'],.get ['7'],.get ['7']]
  | _ => []

def turnOf (k : Nat) : Turn := ⟨k,.constant ['7'],⟨⟨2024,2,29⟩,86399,123456000⟩⟩

def asked : System := (System.start World.bare asking).run ([1,0,1,0,0].map turnOf ++ [turnOf 1])

def askedFor : Snippet := ⟨['7'],['x'],['P'],(turnOf 0).now⟩

theorem exists_log_asked : ∃ a, asked.log = [.returned 1 (.get ['7']) (.ok none),.drew ['7'],
    .returned 1 (.get ['7']) (.ok none),.wrote (.snippet askedFor),
    .returned 0 (.put ['x'] ['P']) (.ok ['7']),.returned 1 (.get ['7']) a] := by
  rw [asked,System.run_concat]
  generalize hσ : (System.start World.bare asking).run ([1,0,1,0,0].map turnOf) = σ
  have hs : ∃ s, σ.world.store = .memory s := by rw [← hσ]; exact ⟨_,rfl⟩
  obtain ⟨s,hs⟩ := hs
  have hw : σ.world.refusals = .none := by rw [← hσ]; rfl
  have hc : σ.clients 1 = ⟨none,[.get ['7']]⟩ := by rw [← hσ]; rfl
  refine ⟨fetched s ['7'],(log_turn_get hs hw hc).trans ?_⟩
  rw [← hσ]
  rfl

/-- The answer is none before the first turn of the other client and between two of its turns, and
the snippet after its last. -/
theorem clients_lose_nothing_asking :
    (∀ k, ∀ r ∈ asking k, r.Fits) ∧ (∀ t ∈ [1,0,1,0,0].map turnOf ++ [turnOf 1], t.now.Ordinary) ∧
    (drawn asked.log).Nodup ∧ (∀ id ∈ drawn asked.log, Snippet.isId id = true) ∧
    asked.log = [.returned 1 (.get ['7']) (.ok none),.drew ['7'],
      .returned 1 (.get ['7']) (.ok none),.wrote (.snippet askedFor),
      .returned 0 (.put ['x'] ['P']) (.ok ['7']),.returned 1 (.get ['7']) (.ok (some askedFor))] := by
  have hf : ∀ k, ∀ r ∈ asking k, r.Fits := by
    intro k r hr
    match k with
    | 0 => rw [List.mem_singleton.1 hr]; trivial
    | 1 => simp [asking] at hr; rw [hr]; trivial
    | _+2 => cases hr
  have ht : ∀ t ∈ [1,0,1,0,0].map turnOf ++ [turnOf 1], t.now.Ordinary := by decide
  obtain ⟨a,hl⟩ := exists_log_asked
  have hd : (drawn asked.log).Nodup := by rw [hl]; exact List.pairwise_singleton ..
  have hi : ∀ id ∈ drawn asked.log, Snippet.isId id = true := by
    rw [hl]
    intro id h
    rw [List.mem_singleton.1 h]
    rfl
  have hc : Consistent asked.log := (clients_lose_nothing rfl hf ht hd hi).1
  rw [hl] at hc
  have ha : a = .ok (some askedFor) :=
    (hc 5 1 (.get ['7']) a rfl).1 askedFor (List.mem_singleton.2 rfl) rfl
  rw [ha] at hl
  exact ⟨hf,ht,hd,hi,hl⟩

end Workbench.Clients
