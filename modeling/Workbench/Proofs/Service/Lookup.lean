import Workbench.Proofs.Service.Keys
import Workbench.Proofs.Session.Ids
import Workbench.Proofs.Store.Writing
set_option autoImplicit false

/-!
Looking up what was never stored, on a disk. Whatever a service has done there since the directory was
empty, a key under which it wrote nothing is found to be absent, unless its name or its path is longer
than the system follows: then the lookup ends in a fault.
-/
namespace Workbench
open Text File StoreOnDisk

def Call.kept {α : Type} : Call α → α → List (Area × Text)
  | .write a n _, .ok _ => [(a,n)]
  | _, _ => []

def Program.kept {α : Type} : Program α → World → List (Area × Text)
  | .done _, _ => []
  | .ask c next, w =>
    let (b,v) := w.answer c
    c.kept b ++ (next b).kept v

namespace Program
variable {ε α β : Type}

theorem kept_bind (p : Program α) (f : α → Program β) (w : World) :
    (p.bind f).kept w = p.kept w ++ (f (p.run w).1).kept (p.run w).2 := by
  induction p generalizing w with
  | done a => rfl
  | ask c next ih => simp [bind,kept,run,ih]

theorem kept_exceptBind (a : ExceptT ε Program α) (f : α → ExceptT ε Program β) (w : World) :
    (ExceptT.run (a >>= f)).kept w = (ExceptT.run a).kept w ++
      match (ExceptT.run a).run w with
      | (.ok x,v) => (ExceptT.run (f x)).kept v
      | (.error _,_) => [] := by
  refine (kept_bind _ _ w).trans ?_
  cases h : (ExceptT.run a).run w with
  | mk r v =>
    rw [show Program.run a w = (r,v) from h]
    cases r <;> rfl

theorem kept_callOr (fault : Text → Fault) (c : Call (Except Text α)) (w : World) :
    (ExceptT.run (Action.callOr fault c)).kept w = c.kept (w.answer c).1 := by
  have hc : (ExceptT.run (Action.call c)).kept w = c.kept (w.answer c).1 := List.append_nil _
  have hr : (ExceptT.run (Action.call c)).run w = (.ok (w.answer c).1,(w.answer c).2) := rfl
  rw [Action.callOr,kept_exceptBind,hc,hr]
  cases (w.answer c).1 <;> exact List.append_nil _

end Program

/-- Ids that are drawn are ids. -/
def Ids.Proper : Ids → Prop
  | .sequential _ => True
  | .constant id => Snippet.isId id = true

theorem Ids.Proper.draw {ids : Ids} (h : ids.Proper) :
    Snippet.isId ids.draw.1 = true ∧ ids.draw.2.Proper := by
  cases ids with
  | sequential n => exact ⟨isId_idOf (Nat.mod_lt _ (by decide)),trivial⟩
  | constant id => exact ⟨h,h⟩

structure World.OnDisk (root : Text) (p : Place) (w : World) (s : MemoryStore) : Prop where
  store : w.store = .onDisk root
  willing : w.refusals = .none
  ids : w.ids.Proper
  settled : Settled root p w.disk s

section
variable {root : Text} {p : Place} {w : World} {s : MemoryStore}

namespace World.OnDisk

theorem write (h : w.OnDisk root p s) (a : Area) {n : Text} (hn : LastingName n) (c : Bytes) :
    ∃ s', (w.write a n c).2.OnDisk root p s' ∧ ∀ b m, s'.read b m ≠ none →
      s.read b m ≠ none ∨ (b,m) ∈ Call.kept (.write a n c) (w.write a n c).1 := by
  rw [w.write_onDisk h.store h.willing]
  rcases h.settled.write a hn c with ⟨-,d',hd,hs⟩ | ⟨-,d',r,hd,hs⟩
  · rw [hd]
    refine ⟨s.write a n c,⟨h.store,h.willing,h.ids,hs⟩,fun b m hr => ?_⟩
    by_cases hbm : b = a ∧ m = n
    · exact .inr (by simp [Call.kept,hbm])
    · rw [s.read_write_other c (Decidable.not_and_iff_or_not.1 hbm)] at hr
      exact .inl hr
  · rw [hd]
    exact ⟨s,⟨h.store,h.willing,h.ids,hs⟩,fun b m hr => .inl hr⟩

theorem answer {α : Type} {c : Call α} (h : w.OnDisk root p s) (hc : c.Keeps Key) :
    c.Answers (w.answer c).1 ∧ ∃ s', (w.answer c).2.OnDisk root p s' ∧ ∀ b m, s'.read b m ≠ none →
      s.read b m ≠ none ∨ (b,m) ∈ c.kept (w.answer c).1 := by
  cases c with
  | drawId =>
    obtain ⟨hid,hids⟩ := h.ids.draw
    exact ⟨hid,s,⟨h.store,h.willing,hids,h.settled⟩,fun b m hr => .inl hr⟩
  | write a n c => exact ⟨trivial,h.write a (hc a n rfl).lasting c⟩
  | _ => exact ⟨trivial,s,h,fun b m hr => .inl hr⟩

theorem run {α : Type} {q : Program α} (h : w.OnDisk root p s) (hq : q.Confined Key) :
    ∃ s', (q.run w).2.OnDisk root p s' ∧ ∀ b m, s'.read b m ≠ none →
      s.read b m ≠ none ∨ (b,m) ∈ q.kept w := by
  induction q generalizing w s with
  | done a => exact ⟨s,h,fun b m hr => .inl hr⟩
  | ask c next ih =>
    obtain ⟨hans,s₁,h₁,hs₁⟩ := h.answer hq.1
    obtain ⟨s₂,h₂,hs₂⟩ := ih _ h₁ (hq.2 _ hans)
    refine ⟨s₂,h₂,fun b m hr => ?_⟩
    rw [Program.kept,List.mem_append]
    rcases hs₂ b m hr with hr | hr
    · exact (hs₁ b m hr).imp_right .inl
    · exact .inr (.inr hr)

end World.OnDisk
end

namespace Service

structure Visit where
  now : Calendar.Instant
  operation : Operation

def Visit.run [Archive.Compressor] (x : Visit) (w : World) : World :=
  ((ExceptT.run x.operation.action).run {w with clock := x.now}).2

def Visit.kept [Archive.Compressor] (x : Visit) (w : World) : List (Area × Text) :=
  (ExceptT.run x.operation.action).kept {w with clock := x.now}

def serve [Archive.Compressor] : List Visit → World → World
  | [], w => w
  | x :: xs, w => serve xs (x.run w)

/-- The entries that have been written. -/
def kept [Archive.Compressor] : List Visit → World → List (Area × Text)
  | [], _ => []
  | x :: xs, w => x.kept w ++ kept xs (x.run w)

theorem onDisk_serve [Archive.Compressor] {root : Text} {p : Place} {w : World} {s : MemoryStore}
    (h : w.OnDisk root p s) (xs : List Visit) : ∃ s', (serve xs w).OnDisk root p s' ∧
      ∀ b m, s'.read b m ≠ none → s.read b m ≠ none ∨ (b,m) ∈ kept xs w := by
  induction xs generalizing w s with
  | nil => exact ⟨s,h,fun b m hr => .inl hr⟩
  | cons x xs ih =>
    have hclock : World.OnDisk root p {w with clock := x.now} s := ⟨h.1,h.2,h.3,h.4⟩
    obtain ⟨s₁,h₁,hs₁⟩ := hclock.run x.operation.within
    obtain ⟨s₂,h₂,hs₂⟩ := ih (show (x.run w).OnDisk root p s₁ from h₁)
    refine ⟨s₂,h₂,fun b m hr => ?_⟩
    rw [kept,List.mem_append]
    rcases hs₂ b m hr with hr | hr
    · exact (hs₁ b m hr).imp_right .inl
    · exact .inr (.inr hr)

inductive Lookup where
  | fetch (id : Text)
  | unpack (name : Text)
  | load (name : Text)

namespace Lookup

def Found : Lookup → Type
  | .fetch _ => Snippet
  | .unpack _ => FileSet
  | .load _ => Text

def action : (l : Lookup) → Action (Option l.Found)
  | .fetch id => Service.fetch id
  | .unpack name => Service.unpack name
  | .load name => Prompt.load name

def key? : Lookup → Option (Area × Text)
  | .fetch id =>
    if Snippet.isId (trim id) then some (.sharedCode,Snippet.entryOf (trim id)) else none
  | .unpack name => if Archive.isName name then some (.generated,name) else none
  | .load name => (Prompt.fileOf? name).map fun file => (.prompts,file)

/-- What makes no key is not looked for, and what makes one is read under it. -/
theorem action_eq (l : Lookup) : (l.key? = none ∧ l.action = pure none) ∨
    ∃ a n f, l.key? = some (a,n) ∧ Key a n ∧ f none = pure none ∧
      l.action = Action.callOr (.storage (.reading a n)) (.read a n) >>= f := by
  cases l with
  | fetch id =>
    simp only [action,key?,Service.fetch,Snippet.get]
    cases h : Snippet.isId (trim id) with
    | false => exact .inl ⟨rfl,rfl⟩
    | true => exact .inr ⟨_,_,_,rfl,.snippet (Snippet.isId_iff.1 h),rfl,rfl⟩
  | unpack name =>
    simp only [action,key?,Service.unpack,Archive.unpack]
    cases h : Archive.isName name with
    | false => exact .inl ⟨rfl,rfl⟩
    | true =>
      obtain ⟨id,hid,rfl⟩ := Archive.isName_iff.1 h
      exact .inr ⟨_,_,_,rfl,.archive hid,rfl,rfl⟩
  | load name =>
    simp only [action,key?,Prompt.load]
    cases h : Prompt.fileOf? name with
    | none => exact .inl ⟨rfl,rfl⟩
    | some file => exact .inr ⟨_,_,_,rfl,.template h,rfl,rfl⟩

end Lookup

/-- The key cannot be followed to the end: the path is too long, or the name is, in a directory that
is there. -/
def Overlong (root : Text) (p : Place) (d : Disk) (k : Area × Text) : Prop :=
  pathLimit ≤ (utf8 (pathOf root k.1 k.2)).length ∨
    d.entry? (areaPlace p k.1) = some .directory ∧ maxName < (utf8 k.2).length

theorem lookup_run {root : Text} {p : Place} {w : World} {s : MemoryStore} (h : w.OnDisk root p s)
    (l : Lookup) (hl : ∀ k, l.key? = some k → s.read k.1 k.2 = none) :
    ((∀ k, l.key? = some k → ¬ Overlong root p w.disk k) →
      (ExceptT.run l.action).run w = (.ok none,w)) ∧
    ∀ k, l.key? = some k → Overlong root p w.disk k → (ExceptT.run l.action).run w =
      (.error (.storage (.reading k.1 k.2) Refusal.nameTooLong.message),w) := by
  rcases l.action_eq with ⟨hk,ha⟩ | ⟨a,n,f,hk,hkey,hf,ha⟩
  · rw [ha]
    exact ⟨fun _ => rfl,fun k hk' => by simp [hk] at hk'⟩
  · have hread := w.read_onDisk h.store h.willing a n
    have hrun : (ExceptT.run l.action).run w = match w.read a n with
        | .ok x => (ExceptT.run (f x)).run w
        | .error r => (.error (.storage (.reading a n) r),w) := by
      rw [ha,Program.run_exceptBind,Action.run_callOr,World.answer]
      cases w.read a n <;> rfl
    have hnone : s.read a n = none := hl (a,n) hk
    rw [hrun,hread]
    constructor
    · intro hshort
      obtain ⟨hp,hs⟩ := not_or.1 (hshort (a,n) hk)
      rw [h.settled.read hkey.flat (Nat.lt_of_not_le hp)
        (fun hd => Nat.le_of_not_lt fun hlt => hs ⟨hd,hlt⟩),hnone]
      simp only [hf]
      rfl
    · intro k hk' hlong
      rw [hk] at hk'
      obtain rfl := Option.some.inj hk'
      rw [h.settled.read_tooLong hkey.flat hlong]

/-- Surroundings with a store that is to begin in an empty directory of the disk. -/
structure Fresh (root : Text) (p : Place) (w : World) : Prop where
  store : w.store = .onDisk root
  willing : w.refusals = .none
  ids : w.ids.Proper
  rooted : Rooted w.disk root p

theorem Fresh.onDisk {root : Text} {p : Place} {w : World} (h : Fresh root p w) :
    w.OnDisk root p .empty := ⟨h.store,h.willing,h.ids,.start h.rooted⟩

/-- Whatever a service has been asked since its directory was empty: a lookup under a key that nothing
was written to finds nothing, and ends in a fault if and only if the key is too long to be followed. -/
theorem lookup_of_unwritten [Archive.Compressor] {root : Text} {p : Place} {w : World}
    (h : Fresh root p w) (xs : List Visit) (l : Lookup) (hl : ∀ k, l.key? = some k → k ∉ kept xs w) :
    ((∀ k, l.key? = some k → ¬ Overlong root p (serve xs w).disk k) →
      (ExceptT.run l.action).run (serve xs w) = (.ok none,serve xs w)) ∧
    ∀ k, l.key? = some k → Overlong root p (serve xs w).disk k →
      (ExceptT.run l.action).run (serve xs w) =
        (.error (.storage (.reading k.1 k.2) Refusal.nameTooLong.message),serve xs w) := by
  obtain ⟨s,hs,hkept⟩ := onDisk_serve h.onDisk xs
  refine lookup_run hs l fun k hk => ?_
  have hempty : MemoryStore.empty.read k.1 k.2 = none := by
    cases k.1 <;> rfl
  cases hr : s.read k.1 k.2 with
  | none => rfl
  | some c =>
    rcases hkept k.1 k.2 (by simp [hr]) with he | he
    · exact absurd hempty he
    · exact absurd he (hl k hk)

def emptyDirectory : Disk := ⟨[([utf8 "store".toList],.directory)],[]⟩

def beginning : World :=
  {World.bare with store := .onDisk "store".toList, disk := emptyDirectory}

theorem rooted_emptyDirectory : Rooted emptyDirectory "store".toList [utf8 "store".toList] where
  noNul := by decide
  leads := by
    have hn : PlainName "store".toList := by decide
    have hs : (utf8 "store".toList).length ≤ maxName := by decide
    have hd : emptyDirectory.LeadsTo [] [] := Disk.leadsTo_current (Disk.entry?_nil _)
    exact hd.child hn hs (by decide)
  bare x hx _ := by rw [List.mem_singleton.1 hx]

theorem fresh_beginning : Fresh "store".toList [utf8 "store".toList] beginning :=
  ⟨rfl,rfl,trivial,rooted_emptyDirectory⟩

theorem kept_save {name file : Text} (h : Prompt.fileOf? name = some file) (content : Text)
    (w : World) {k : Area × Text} (hk : k ∈ (ExceptT.run (Prompt.save name content)).kept w) :
    k = (.prompts,file) := by
  simp only [Prompt.save,h,Program.kept_exceptBind,Program.kept_callOr] at hk
  rcases List.mem_append.1 hk with hk | hk
  · cases hw : (w.answer (.write .prompts file (utf8 content))).1 with
    | ok u =>
      rw [hw] at hk
      exact List.mem_singleton.1 hk
    | error r =>
      rw [hw] at hk
      exact absurd hk List.not_mem_nil
  · split at hk <;> exact absurd hk List.not_mem_nil

theorem lookup_of_unwritten_template :
    let xs := [Visit.mk World.bare.clock (.session (.savePrompt "a".toList "x".toList))]
    (ExceptT.run (Prompt.load "b".toList)).run (serve xs beginning) = (.ok none,serve xs beginning) := by
  intro xs
  have hkey : ∀ k, (Lookup.load "b".toList).key? = some k → k = (.prompts,"b.txt".toList) := by
    intro k hk
    exact Option.some.inj (hk.symm.trans (by decide))
  refine (lookup_of_unwritten fresh_beginning xs (.load "b".toList) fun k hk hmem => ?_).1
    fun k hk => ?_
  · rw [hkey k hk] at hmem
    have hfile : Prompt.fileOf? "a".toList = some "a.txt".toList := by decide
    rcases List.mem_append.1 hmem with hmem | hmem
    · exact absurd (kept_save hfile _ _ hmem) (by decide)
    · exact absurd hmem List.not_mem_nil
  · rw [hkey k hk]
    exact not_or.2 ⟨by decide,fun h => absurd h.2 (by decide)⟩

theorem share_run {code : Text} (hc : allBlank code = false) (language : Text) {w v : World}
    (h : World.write {w with ids := w.ids.draw.2} .sharedCode (Snippet.entryOf w.ids.draw.1)
      (SnippetRecord.encode ⟨code,language,w.clock⟩) = (.ok (),v)) :
    (ExceptT.run (share code language)).run w = (.ok w.ids.draw.1,v) ∧
      (ExceptT.run (share code language)).kept w = [(.sharedCode,Snippet.entryOf w.ids.draw.1)] := by
  have hp : share code language = Snippet.put code language := by
    simp only [share,needCode,Action.need,hc,Bool.false_eq_true,if_false]
    rfl
  constructor
  · simp only [hp,Snippet.put,Action.call,Program.run_exceptBind,Program.run_lift,Action.run_callOr,
      Program.call,Program.run,World.answer,h]
    rfl
  · simp only [hp,Snippet.put,Action.call,Program.kept_exceptBind,Program.run_lift,Action.run_callOr,
      Program.kept_callOr,Program.call,Program.run,World.answer,h]
    rfl

theorem entryOf_first : Snippet.entryOf beginning.ids.draw.1 = "00000001.json".toList := by
  show Snippet.entryOf (padStart 8 '0' (hex 1)) = _
  rw [hex,digits_small (by decide)]
  rfl

def sharing : List Visit := [⟨World.bare.clock,.session (.share "x".toList "python".toList)⟩]

theorem serve_sharing : kept sharing beginning = [(.sharedCode,"00000001.json".toList)] ∧
    ∃ bytes, (serve sharing beginning).OnDisk "store".toList [utf8 "store".toList]
      (MemoryStore.empty.write .sharedCode "00000001.json".toList bytes) := by
  let bytes := SnippetRecord.encode ⟨"x".toList,"python".toList,World.bare.clock⟩
  have hkey : Key .sharedCode "00000001.json".toList :=
    Key.snippet (Snippet.isId_iff.1 (show Snippet.isId "00000001".toList = true by decide))
  rcases (Settled.start rooted_emptyDirectory).write .sharedCode hkey.lasting bytes with
    ⟨-,d,hd,hset⟩ | ⟨hf,-⟩
  · let w := {beginning with ids := beginning.ids.draw.2}
    have hput : w.write .sharedCode (Snippet.entryOf beginning.ids.draw.1) bytes =
        (.ok (),{w with disk := d}) := by
      have hwrite (n : Text) : w.write .sharedCode n bytes =
        ((StoreOnDisk.write emptyDirectory "store".toList .sharedCode n bytes).2,{w with
          disk := (StoreOnDisk.write emptyDirectory "store".toList .sharedCode n bytes).1}) := rfl
      rw [entryOf_first,hwrite,hd]
    obtain ⟨hrun,hkept⟩ := share_run (by decide) "python".toList hput
    rw [entryOf_first] at hkept
    have hw : serve sharing beginning = {w with disk := d} := congrArg Prod.snd hrun
    refine ⟨(List.append_nil _).trans hkept,bytes,?_⟩
    rw [hw]
    exact ⟨rfl,rfl,trivial,hset⟩
  · exact absurd (by decide) hf

theorem key_fetch_replicate {k : Nat} (hk : k ≠ 0) :
    (Lookup.fetch (List.replicate k 'a')).key? =
      some (.sharedCode,Snippet.entryOf (List.replicate k 'a')) := by
  have htrim : trim (List.replicate k 'a') = List.replicate k 'a' := trim_of_not_blank fun c hc => by
    rw [List.eq_of_mem_replicate hc]
    decide
  have hisId : Snippet.isId (List.replicate k 'a') = true := by
    refine Snippet.isId_iff.2 ⟨by simpa using hk,fun c hc => ?_⟩
    rw [List.eq_of_mem_replicate hc]
    decide
  rw [Lookup.key?,htrim,if_pos hisId]

theorem length_entryOf_replicate (k : Nat) :
    (utf8 (Snippet.entryOf (List.replicate k 'a'))).length = k+5 := by
  have hs : (utf8 ".json".toList).length = 5 := by decide
  rw [Snippet.entryOf,utf8_append,List.length_append,length_replicate (by decide),hs]

/-- An id of three hundred letters is none that was given out. Looking for it, once a snippet has been
shared, ends in a fault. -/
theorem fetch_overlong :
    let xs := [Visit.mk World.bare.clock (.session (.share "x".toList "python".toList))]
    let id := List.replicate 300 'a'
    kept xs beginning = [(.sharedCode,"00000001.json".toList)] ∧
    (Lookup.fetch id).key? = some (.sharedCode,Snippet.entryOf id) ∧
    Snippet.entryOf id ≠ "00000001.json".toList ∧
    (ExceptT.run (fetch id)).run (serve xs beginning) =
      (.error (.storage (.reading .sharedCode (Snippet.entryOf id)) Refusal.nameTooLong.message),
        serve xs beginning) := by
  intro xs id
  obtain ⟨hkept,bytes,hon⟩ := serve_sharing
  have hkey : (Lookup.fetch id).key? = some (.sharedCode,Snippet.entryOf id) :=
    key_fetch_replicate (by decide)
  have hlen : (utf8 (Snippet.entryOf id)).length = 305 := length_entryOf_replicate 300
  have hne : Snippet.entryOf id ≠ "00000001.json".toList := fun he => by
    rw [he] at hlen
    exact absurd hlen (by decide)
  refine ⟨hkept,hkey,hne,(lookup_run hon (.fetch id) fun k hk => ?_).2 _ hkey (.inr ⟨?_,?_⟩)⟩
  · rw [hkey] at hk
    rw [← Option.some.inj hk,MemoryStore.read_write_other _ _ (.inr hne)]
    rfl
  · exact (hon.settled.stored _ _ _ (MemoryStore.read_write_self ..)).2.2.1
  · rw [hlen]
    decide

end Service
end Workbench
