import Mathlib.Data.List.Induction
import Workbench.Proofs.Scaffold.Size
import Workbench.Proofs.Session.Ids
import Workbench.Proofs.Session.Stored
import Workbench.Proofs.Snippet.Record
set_option autoImplicit false

/-!
What a session hands out can be had back as it was, at any later time, and nothing else can. The
store and the receipts are tied together by an invariant of single steps: each entry of the two
areas belongs to one receipt, and the keys of the receipts are made from different numbers.
-/
namespace Workbench.Session
open Text

/-- The receipt's key is made from the `k`-th id. -/
def Receipt.Numbered (k : Nat) : Receipt → Prop
  | .snippet x => x.id = Ids.idOf k
  | .archive name _ => name = Archive.nameOf (Ids.idOf k)

theorem Receipt.key_ne {q r : Receipt} {j k : Nat} (hq : q.Numbered j) (hr : r.Numbered k)
    (hj : j < Ids.limit) (hk : k < Ids.limit) (h : j ≠ k) : q.key ≠ r.key := by
  cases q with
  | snippet x =>
    cases r with
    | snippet y =>
      simp only [Numbered,key] at hq hr ⊢
      rw [hq,hr]
      exact fun e => h (Ids.idOf_injective e)
    | archive name files =>
      simp only [Numbered,key] at hq hr ⊢
      rw [hq,hr]
      exact (Archive.nameOf_ne_idOf hk hj).symm
  | archive name files =>
    cases r with
    | snippet y =>
      simp only [Numbered,key] at hq hr ⊢
      rw [hq,hr]
      exact Archive.nameOf_ne_idOf hj hk
    | archive name' files' =>
      simp only [Numbered,key] at hq hr ⊢
      rw [hq,hr]
      exact fun e => h (Ids.idOf_injective (Archive.nameOf_injective e))

theorem Receipt.from_of_numbered {r : Receipt} {k : Nat} (h : r.Numbered k) : r.From (Ids.idOf k) := by
  cases r <;> exact h

/-- What one step does to a store from which `n` ids were drawn: nothing outside the area of the
prompts, or one entry under a key made from the next id, for which there is a receipt. -/
inductive Effect (s : MemoryStore) (n : Nat) (now : Calendar.Instant) :
    MemoryStore → Nat → Nat → List Receipt → Prop where
  | quiet {s' : MemoryStore} (h : ∀ a, a ≠ .prompts → s'.area a = s.area a) :
    Effect s n now s' n 0 []
  | handed {r : Receipt} {bytes : Bytes} (hn : r.Numbered ((n+1) % Ids.limit))
    (hr : now.Ordinary → r.Reads bytes) :
    Effect s n now (s.write r.area r.entry bytes) ((n+1) % Ids.limit) 1 [r]

theorem Effect.none (s : MemoryStore) (n : Nat) (now : Calendar.Instant) :
    Effect s n now s n 0 [] := .quiet fun _ _ => rfl

section
variable (base : World) (s : MemoryStore) (n : Nat) (now : Calendar.Instant)

theorem effect_packed [Archive.Compressor] [Archive.Lossless] {files : FileSet} {bytes : Bytes}
    (h : Archive.encode files = .ok bytes)
    (hf : Archive.streamLength files < Archive.Tar.sizeLimit) :
    Effect s n now (s.write .generated (Archive.nameOf (nextId n)) bytes) ((n+1) % Ids.limit) 1
      [.archive (Archive.nameOf (nextId n)) files] :=
  @Effect.handed s n now (.archive (Archive.nameOf (nextId n)) files) bytes rfl
    fun _ => Archive.decode_of_encode h hf

theorem effect_shared (code language : Text) :
    Effect s n now (s.write .sharedCode (Snippet.entryOf (nextId n))
      (SnippetRecord.encode ⟨code,language,now⟩)) ((n+1) % Ids.limit) 1
      [.snippet ⟨nextId n,⟨code,language,now⟩⟩] :=
  @Effect.handed s n now (.snippet ⟨nextId n,⟨code,language,now⟩⟩) _ rfl
    fun ht => SnippetRecord.decode_record ht

theorem exists_effect [Archive.Compressor] [Archive.Lossless] {o : Operation} (hf : o.Fits) : ∃ r s' n' d,
    Comes base s n now o.action r s' n' d ∧ Effect s n now s' n' d (o.given now r) := by
  cases o with
  | share code language =>
    cases h : allBlank code with
    | true => exact ⟨_,_,_,_,comes_share_blank base s n now h language,.none s n now⟩
    | false =>
      exact ⟨_,_,_,_,comes_share base s n now h language,effect_shared s n now code language⟩
  | fetch id =>
    refine ⟨_,_,_,_,comes_fetch base s n now id,?_⟩
    cases fetched s (trim id) <;> exact .none s n now
  | scaffold spec =>
    cases h : allBlank spec with
    | true => exact ⟨_,_,_,_,comes_scaffold_blank base s n now h,.none s n now⟩
    | false =>
      cases he : Archive.encode (Template.ofSpec spec).files with
      | ok bytes =>
        exact ⟨_,_,_,_,comes_scaffold base s n now h he,
          effect_packed s n now he (Archive.template_fits _)⟩
      | error f => exact ⟨_,_,_,_,comes_scaffold_error base s n now h he,.none s n now⟩
  | package files =>
    cases he : Archive.encode files with
    | ok bytes => exact ⟨_,_,_,_,comes_package base s n now he,effect_packed s n now he hf⟩
    | error f => exact ⟨_,_,_,_,comes_package_error base s n now he,.none s n now⟩
  | unpack name =>
    refine ⟨_,_,_,_,comes_unpack base s n now name,?_⟩
    cases unpacked s name <;> exact .none s n now
  | savePrompt name content =>
    cases h : Prompt.fileOf? name with
    | none => exact ⟨_,_,_,_,Prompt.comes_save_blank base s n now h content,.none s n now⟩
    | some file =>
      refine ⟨_,_,_,_,Prompt.comes_save base s n now h content,.quiet fun a ha => ?_⟩
      rw [MemoryStore.write,MemoryStore.area_setArea,if_neg ha]
  | listPrompts => exact ⟨_,_,_,_,Prompt.comes_list base s n now,.none s n now⟩
  | loadPrompt name =>
    refine ⟨_,_,_,_,Prompt.comes_load base s n now name,?_⟩
    cases Prompt.loaded s name <;> exact .none s n now

end

theorem State.step_eq [Archive.Compressor] [Archive.Lossless] {σ : State} {x : Step} {base : World}
    {s : MemoryStore} {n : Nat} {t : Calendar.Instant} (hw : σ.world = base.held s n t)
    (hf : x.operation.Fits) : ∃ s' n' d new, Effect s n x.now s' n' d new ∧
      σ.step x = ⟨base.held s' n' x.now,σ.receipts ++ new,σ.drawn+d⟩ := by
  obtain ⟨r,s',n',d,⟨hr,hd⟩,he⟩ := exists_effect base s n x.now hf
  have hc : {σ.world with clock := x.now} = base.held s n x.now := by rw [hw]; rfl
  refine ⟨s',n',d,_,he,?_⟩
  simp only [step,answer,hc,hr,hd]

/-- The receipts `rs` stand for what is stored, after `n` ids. -/
structure Holds (s : MemoryStore) (n : Nat) (rs : List Receipt) : Prop where
  distinct : (rs.map Receipt.key).Nodup
  numbered : ∀ r ∈ rs, ∃ k ≤ n, r.Numbered k
  stored : ∀ r ∈ rs, ∃ bytes, s.read r.area r.entry = some bytes ∧ r.Reads bytes
  complete : ∀ a entry bytes, a ≠ .prompts → s.read a entry = some bytes →
    ∃ r ∈ rs, r.area = a ∧ r.entry = entry

theorem numbered_append {rs : List Receipt} {r : Receipt} {n : Nat}
    (h : ∀ q ∈ rs, ∃ k ≤ n, q.Numbered k) (hr : r.Numbered (n+1)) :
    ∀ q ∈ rs ++ [r], ∃ k ≤ n+1, q.Numbered k := by
  intro q hq
  rcases List.mem_append.1 hq with hq | hq
  · obtain ⟨k,hk,hq⟩ := h q hq
    exact ⟨k,by omega,hq⟩
  · rw [List.mem_singleton.1 hq]
    exact ⟨n+1,Nat.le_refl _,hr⟩

theorem distinct_append {rs : List Receipt} {r : Receipt} {n : Nat}
    (hd : (rs.map Receipt.key).Nodup) (h : ∀ q ∈ rs, ∃ k ≤ n, q.Numbered k)
    (hr : r.Numbered (n+1)) (hl : n+1 < Ids.limit) : ((rs ++ [r]).map Receipt.key).Nodup := by
  rw [List.map_append,List.nodup_append]
  refine ⟨hd,by simp,fun a ha b hb => ?_⟩
  obtain ⟨q,hq,rfl⟩ := List.mem_map.1 ha
  obtain ⟨k,hk,hq⟩ := h q hq
  have hb : b = r.key := by simpa using hb
  rw [hb]
  exact Receipt.key_ne hq hr (by omega) hl (by omega)

namespace Holds
variable {s s' : MemoryStore} {n : Nat} {rs : List Receipt}

theorem backs (h : Holds s n rs) : Backs s rs := ⟨h.stored,h.complete⟩

theorem empty : Holds .empty 0 [] :=
  ⟨List.nodup_nil,by simp,Backs.empty.stored,Backs.empty.complete⟩

theorem quiet (h : Holds s n rs) (hs : ∀ a, a ≠ .prompts → s'.area a = s.area a) :
    Holds s' n rs := by
  have he : ∀ a, a ≠ .prompts → ∀ e, s'.read a e = s.read a e := fun a ha e => by
    rw [MemoryStore.read,MemoryStore.read,hs a ha]
  refine ⟨h.distinct,h.numbered,fun r hr => ?_,fun a entry bytes ha hb => ?_⟩
  · rw [he _ r.area_ne_prompts]
    exact h.stored r hr
  · rw [he a ha] at hb
    exact h.complete a entry bytes ha hb

theorem handed (h : Holds s n rs) (hl : n+1 < Ids.limit) {r : Receipt} (hn : r.Numbered (n+1))
    {bytes : Bytes} (hr : r.Reads bytes) :
    Holds (s.write r.area r.entry bytes) (n+1) (rs ++ [r]) := by
  -- No earlier receipt has the new number, so none loses its entry.
  have hnew : ∀ q ∈ rs, q.area ≠ r.area ∨ q.entry ≠ r.entry := fun q hq => by
    obtain ⟨k,hk,hqn⟩ := h.numbered q hq
    exact Receipt.entry_ne_of_from (Receipt.from_of_numbered hqn) (Receipt.from_of_numbered hn)
      fun he => absurd (Ids.idOf_injective he) (by omega)
  have hb := h.backs.write hnew hr
  exact ⟨distinct_append h.distinct h.numbered hn hl,numbered_append h.numbered hn,hb.1,hb.2⟩

theorem effect {now : Calendar.Instant} {n' d : Nat} {new : List Receipt} (h : Holds s n rs)
    (ht : now.Ordinary) (e : Effect s n now s' n' d new) (hl : n+d < Ids.limit) :
    n' = n+d ∧ Holds s' n' (rs ++ new) := by
  cases e with
  | quiet hs => exact ⟨rfl,by simpa using h.quiet hs⟩
  | handed hn hr =>
    rw [Nat.mod_eq_of_lt hl] at hn ⊢
    exact ⟨rfl,h.handed hl hn (hr ht)⟩

theorem isId (h : Holds s n rs) (hl : n < Ids.limit) {x : Snippet} (hx : .snippet x ∈ rs) :
    Snippet.isId x.id = true := by
  obtain ⟨k,hk,hi⟩ := h.numbered _ hx
  have hi : x.id = Ids.idOf k := hi
  rw [hi]
  exact Ids.isId_idOf (by omega)

theorem isName (h : Holds s n rs) (hl : n < Ids.limit) {name : Text} {files : FileSet}
    (hx : .archive name files ∈ rs) : Archive.isName name = true := by
  obtain ⟨k,hk,hi⟩ := h.numbered _ hx
  have hi : name = Archive.nameOf (Ids.idOf k) := hi
  rw [hi]
  exact Archive.isName_nameOf (by omega)

end Holds

namespace State
variable {base : World} {σ : State}

def Kept (base : World) (σ : State) : Prop :=
  ∃ s now, σ.world = base.held s σ.drawn now ∧ Holds s σ.drawn σ.receipts

theorem kept_start (base : World) : (start base).Kept base :=
  ⟨.empty,base.clock,rfl,Holds.empty⟩

section
variable [Archive.Compressor]

theorem drawn_le_step (σ : State) (x : Step) : σ.drawn ≤ (σ.step x).drawn := Nat.le_add_right ..

theorem run_concat (σ : State) (steps : List Step) (x : Step) :
    σ.run (steps ++ [x]) = (σ.run steps).step x := by
  simp [run]

theorem run_append (σ : State) (earlier later : List Step) :
    σ.run (earlier ++ later) = (σ.run earlier).run later := List.foldl_append

theorem receipts_run (σ : State) (steps : List Step) :
    ∃ new, (σ.run steps).receipts = σ.receipts ++ new := by
  induction steps generalizing σ with
  | nil => exact ⟨[],(List.append_nil _).symm⟩
  | cons x steps ih =>
    obtain ⟨new,h⟩ := ih (σ.step x)
    exact ⟨_,h.trans (List.append_assoc ..)⟩

theorem answer_fetch {s : MemoryStore} {n : Nat} {t : Calendar.Instant}
    (hw : σ.world = base.held s n t) (now : Calendar.Instant) (id : Text) :
    σ.answer ⟨now,.fetch id⟩ = fetched s (trim id) := by
  rw [answer,hw]
  exact congrArg Prod.fst (comes_fetch base s n now id).1

theorem answer_unpack {s : MemoryStore} {n : Nat} {t : Calendar.Instant}
    (hw : σ.world = base.held s n t) (now : Calendar.Instant) (name : Text) :
    σ.answer ⟨now,.unpack name⟩ = unpacked s name := by
  rw [answer,hw]
  exact congrArg Prod.fst (comes_unpack base s n now name).1

variable [Archive.Lossless]

theorem kept_step {x : Step} (h : σ.Kept base) (ht : x.now.Ordinary) (hf : x.operation.Fits)
    (hd : (σ.step x).drawn < Ids.limit) : (σ.step x).Kept base := by
  obtain ⟨s,now,hw,hh⟩ := h
  obtain ⟨s',n',d,new,he,hs⟩ := step_eq hw hf
  rw [hs] at hd ⊢
  obtain ⟨rfl,hh⟩ := hh.effect ht he hd
  exact ⟨s',x.now,rfl,hh⟩

/-- Ids never run out before the end, so every step of a run finds the invariant. -/
theorem kept_run {steps : List Step} (ht : ∀ x ∈ steps, x.now.Ordinary)
    (hf : ∀ x ∈ steps, x.operation.Fits) (hd : ((start base).run steps).drawn < Ids.limit) :
    ((start base).run steps).Kept base := by
  -- From the right: the invariant is known of all that precedes the last step.
  induction steps using List.reverseRecOn with
  | nil => exact kept_start base
  | append_singleton steps x ih =>
    rw [run_concat] at hd ⊢
    have ht' : ∀ y ∈ steps, y.now.Ordinary := fun y hy => ht y (List.mem_append_left _ hy)
    have hf' : ∀ y ∈ steps, y.operation.Fits := fun y hy => hf y (List.mem_append_left _ hy)
    have h := ih ht' hf' (Nat.lt_of_le_of_lt (drawn_le_step _ x) hd)
    exact kept_step h (ht x (by simp)) (hf x (by simp)) hd

/-- No operation draws more than one id, so a session can be as long as there are ids. -/
theorem drawn_run_le {steps : List Step} (hf : ∀ x ∈ steps, x.operation.Fits) :
    (∃ s n t, ((start base).run steps).world = base.held s n t) ∧
      ((start base).run steps).drawn ≤ steps.length := by
  induction steps using List.reverseRecOn with
  | nil => exact ⟨⟨_,_,_,rfl⟩,Nat.le_refl _⟩
  | append_singleton steps x ih =>
    obtain ⟨⟨s,n,t,hw⟩,hl⟩ := ih fun y hy => hf y (List.mem_append_left _ hy)
    obtain ⟨s',n',d,new,he,hs⟩ := step_eq hw (hf x (by simp))
    have hd : d ≤ 1 := by cases he <;> omega
    rw [run_concat,hs]
    refine ⟨⟨s',n',x.now,rfl⟩,?_⟩
    simp only [List.length_append,List.length_singleton]
    omega

/-- Whatever is asked in a session, and whatever compresses: the keys of all that it hands out are
different. What was handed out `earlier` is there at any `later` time: a snippet is fetched by its id,
with the code, the language and the instant at which it was shared, and an archive is unpacked by its
name to the files that were packed. By any other id or name there is nothing, which is no fault. -/
theorem run_durable (base : World) (earlier later : List Step)
    (ht : ∀ x ∈ earlier ++ later, x.now.Ordinary) (hf : ∀ x ∈ earlier ++ later, x.operation.Fits)
    (hd : ((start base).run (earlier ++ later)).drawn < Ids.limit) (now : Calendar.Instant) :
    let σ := (start base).run earlier
    let τ := (start base).run (earlier ++ later)
    (τ.receipts.map Receipt.key).Nodup ∧
    (∀ x, .snippet x ∈ σ.receipts → ∀ id, id = x.id ∨ trim id = x.id →
      τ.answer ⟨now,.fetch id⟩ = .ok (some x)) ∧
    (∀ name files, .archive name files ∈ σ.receipts →
      τ.answer ⟨now,.unpack name⟩ = .ok (some files)) ∧
    (∀ id, (∀ x, .snippet x ∈ τ.receipts → x.id ≠ trim id) →
      τ.answer ⟨now,.fetch id⟩ = .ok none) ∧
    (∀ name, (∀ files, .archive name files ∉ τ.receipts) →
      τ.answer ⟨now,.unpack name⟩ = .ok none) := by
  intro σ τ
  obtain ⟨s,t,hw,hh⟩ := kept_run ht hf hd
  have hw : τ.world = base.held s τ.drawn t := hw
  have hm : ∀ r ∈ σ.receipts, r ∈ τ.receipts := by
    obtain ⟨new,h⟩ := receipts_run σ later
    intro r hr
    rw [show τ = σ.run later from run_append .., h]
    exact List.mem_append_left _ hr
  -- A receipt of the earlier part is one of the whole, where the invariant speaks of it.
  refine ⟨hh.distinct,fun x hx id hi => ?_,fun name files hx => ?_,fun id hx => ?_,
    fun name hx => ?_⟩
  · have hi : trim id = x.id := by
      rcases hi with rfl | hi
      · obtain ⟨k,_,hk⟩ := hh.numbered _ (hm _ hx)
        have hk : x.id = Ids.idOf k := hk
        rw [hk,Ids.trim_idOf]
      · exact hi
    rw [answer_fetch hw,hi]
    exact hh.backs.fetched_snippet (hh.isId hd (hm _ hx)) (hm _ hx)
  · rw [answer_unpack hw]
    exact hh.backs.unpacked_archive (hh.isName hd (hm _ hx)) (hm _ hx)
  · rw [answer_fetch hw]
    exact hh.backs.fetched_other hx
  · rw [answer_unpack hw]
    exact hh.backs.unpacked_other hx

end

def sharing : Step := ⟨⟨⟨2024,2,29⟩,86399,123456000⟩,.share ['"','\n','é'] ['P']⟩

def scaffolding : Step := ⟨⟨⟨9999,12,31⟩,0,0⟩,.scaffold "flask".toList⟩

theorem run_durable_sharing :
    (∀ x ∈ [sharing] ++ [scaffolding], x.now.Ordinary) ∧
    (∀ x ∈ [sharing] ++ [scaffolding], x.operation.Fits) ∧
    ((start World.bare).run ([sharing] ++ [scaffolding])).drawn < Ids.limit ∧
    ∃ x, .snippet x ∈ ((start World.bare).run [sharing]).receipts ∧
      x.record = ⟨['"','\n','é'],['P'],sharing.now⟩ ∧
      ((start World.bare).run ([sharing] ++ [scaffolding])).answer ⟨sharing.now,.fetch x.id⟩ =
        .ok (some x) := by
  have ht : ∀ x ∈ [sharing] ++ [scaffolding], x.now.Ordinary := by decide
  have hf : ∀ x ∈ [sharing] ++ [scaffolding], x.operation.Fits := by
    intro x hx
    rcases List.mem_append.1 hx with hx | hx <;> rw [List.mem_singleton.1 hx] <;> trivial
  have hd : ((start World.bare).run ([sharing] ++ [scaffolding])).drawn < Ids.limit :=
    Nat.lt_of_le_of_lt (drawn_run_le hf).2 (by decide)
  have hx : .snippet ⟨nextId 0,⟨['"','\n','é'],['P'],sharing.now⟩⟩ ∈
    ((start World.bare).run [sharing]).receipts := List.mem_singleton.2 rfl
  exact ⟨ht,hf,hd,_,hx,rfl,
    (run_durable World.bare [sharing] [scaffolding] ht hf hd sharing.now).2.1 _ hx _ (.inl rfl)⟩

end State
end Workbench.Session
