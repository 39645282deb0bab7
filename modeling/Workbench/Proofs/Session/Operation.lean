import Workbench.Proofs.Archive.RoundTrip
import Workbench.Proofs.Calendar.InstantText
import Workbench.Proofs.Prompt.Library
import Workbench.Service
set_option autoImplicit false

/-!
Sessions: a service that is asked one thing after another, with its store in memory. What a session
hands out is kept as a list of receipts: the snippets under their ids, the sets of files under the
names of their archives.
-/
namespace Workbench

namespace Session

inductive Operation where
  | share (code language : Text)
  | fetch (id : Text)
  | scaffold (spec : Text)
  | package (files : FileSet)
  | unpack (name : Text)
  | savePrompt (name content : Text)
  | listPrompts
  | loadPrompt (name : Text)

/-- Something handed out, with the key by which it can be asked for again. -/
inductive Receipt where
  | snippet (s : Snippet)
  | archive (name : Text) (files : FileSet)

def Receipt.key : Receipt → Text
  | .snippet s => s.id
  | .archive name _ => name

namespace Operation

def Answer : Operation → Type
  | .share _ _ => Text
  | .fetch _ => Option Snippet
  | .scaffold _ => Service.Scaffolded
  | .package _ => Text
  | .unpack _ => Option FileSet
  | .savePrompt _ _ => Text
  | .listPrompts => List Text
  | .loadPrompt _ => Option Text

def action [Archive.Compressor] : (o : Operation) → Action o.Answer
  | .share code language => Service.share code language
  | .fetch id => Service.fetch id
  | .scaffold spec => Service.scaffold spec
  | .package files => Archive.package files
  | .unpack name => Service.unpack name
  | .savePrompt name content => Prompt.save name content
  | .listPrompts => Prompt.list
  | .loadPrompt name => Prompt.load name

def receipt? (now : Calendar.Instant) : (o : Operation) → o.Answer → Option Receipt
  | .share code language,id => some (.snippet ⟨id,⟨code,language,now⟩⟩)
  | .scaffold _,done => some (.archive (Service.Scaffolded.archive done) done.template.files)
  | .package files,name => some (.archive name files)
  | _,_ => none

def given (now : Calendar.Instant) (o : Operation) : Except Fault o.Answer → List Receipt
  | .ok a => (o.receipt? now a).toList
  | .error _ => []

/-- The stream of the files to be packed has a length that the reader of archives can count. -/
def Fits : Operation → Prop
  | .package files => Archive.streamLength files < Archive.Tar.sizeLimit
  | _ => True

end Operation

structure Step where
  now : Calendar.Instant
  operation : Operation

structure State where
  world : World
  receipts : List Receipt
  drawn : Nat

namespace State

def start (base : World) : State := ⟨base.held .empty 0 base.clock,[],0⟩

def answer [Archive.Compressor] (σ : State) (s : Step) : Except Fault s.operation.Answer :=
  ((ExceptT.run s.operation.action).run {σ.world with clock := s.now}).1

def step [Archive.Compressor] (σ : State) (s : Step) : State :=
  let w := {σ.world with clock := s.now}
  let p := ExceptT.run s.operation.action
  ⟨(p.run w).2,σ.receipts ++ s.operation.given s.now (σ.answer s),σ.drawn + p.draws w⟩

def run [Archive.Compressor] (σ : State) (steps : List Step) : State := steps.foldl step σ

end State

section
variable (base : World) (s : MemoryStore) (n : Nat) (t : Calendar.Instant)

def nextId : Text := Ids.idOf ((n+1) % Ids.limit)

def fetched (s : MemoryStore) (id : Text) : Except Fault (Option Snippet) :=
  if Snippet.isId id then
    match s.read .sharedCode (Snippet.entryOf id) with
    | none => .ok none
    | some bytes =>
      match SnippetRecord.decode bytes with
      | .ok record => .ok (some ⟨id,record⟩)
      | .error reason => .error (.corrupt .sharedCode (Snippet.entryOf id) reason)
  else .ok none

def unpacked (s : MemoryStore) (name : Text) : Except Fault (Option FileSet) :=
  if Archive.isName name then
    match s.read .generated name with
    | none => .ok none
    | some bytes =>
      match Archive.decode bytes with
      | .ok files => .ok (some files)
      | .error flaw => .error (.corrupt .generated name flaw.message)
  else .ok none

theorem comes_share {code : Text} (h : Text.allBlank code = false) (language : Text) :
    Comes base s n t (Service.share code language) (.ok (nextId n))
      (s.write .sharedCode (Snippet.entryOf (nextId n))
        (SnippetRecord.encode ⟨code,language,t⟩)) ((n+1) % Ids.limit) 1 := by
  have e : Service.share code language = Snippet.put code language := by
    simp only [Service.share,Service.needCode,Action.need,h,Bool.false_eq_true,if_false]
    rfl
  rw [e]
  exact ⟨rfl,rfl⟩

theorem comes_share_blank {code : Text} (h : Text.allBlank code = true) (language : Text) :
    Comes base s n t (Service.share code language) (.error (.empty "code".toList)) s n 0 := by
  simp only [Service.share,Service.needCode,Action.need,h,if_true]
  exact ⟨rfl,rfl⟩

theorem comes_package [Archive.Compressor] {files : FileSet} {bytes : Bytes}
    (h : Archive.encode files = .ok bytes) :
    Comes base s n t (Archive.package files) (.ok (Archive.nameOf (nextId n)))
      (s.write .generated (Archive.nameOf (nextId n)) bytes) ((n+1) % Ids.limit) 1 := by
  simp only [Archive.package,h]
  exact ⟨rfl,rfl⟩

theorem comes_package_error [Archive.Compressor] {files : FileSet} {f : Fault}
    (h : Archive.encode files = .error f) :
    Comes base s n t (Archive.package files) (.error f) s n 0 := by
  simp only [Archive.package,h]
  exact ⟨rfl,rfl⟩

theorem comes_scaffold [Archive.Compressor] {spec : Text} (h : Text.allBlank spec = false) {bytes : Bytes}
    (he : Archive.encode (Template.ofSpec spec).files = .ok bytes) :
    Comes base s n t (Service.scaffold spec)
      (.ok ⟨.ofSpec spec,(Template.ofSpec spec).files.keys,Archive.nameOf (nextId n)⟩)
      (s.write .generated (Archive.nameOf (nextId n)) bytes) ((n+1) % Ids.limit) 1 := by
  simp only [Service.scaffold,Action.need,h,Bool.false_eq_true,if_false,Archive.package,he]
  exact ⟨rfl,rfl⟩

theorem comes_scaffold_error [Archive.Compressor] {spec : Text} (h : Text.allBlank spec = false) {f : Fault}
    (he : Archive.encode (Template.ofSpec spec).files = .error f) :
    Comes base s n t (Service.scaffold spec) (.error f) s n 0 := by
  simp only [Service.scaffold,Action.need,h,Bool.false_eq_true,if_false,Archive.package,he]
  exact ⟨rfl,rfl⟩

theorem comes_scaffold_blank [Archive.Compressor] {spec : Text} (h : Text.allBlank spec = true) :
    Comes base s n t (Service.scaffold spec) (.error (.empty "project_spec".toList)) s n 0 := by
  simp only [Service.scaffold,Action.need,h,if_true]
  exact ⟨rfl,rfl⟩

theorem comes_fetch (id : Text) :
    Comes base s n t (Service.fetch id) (fetched s (Text.trim id)) s n 0 := by
  rw [Service.fetch,Snippet.get,fetched]
  cases Snippet.isId (Text.trim id) with
  | false => exact ⟨rfl,rfl⟩
  | true =>
    refine comes_read base s n t _ _ _ _ ?_
    cases s.read .sharedCode (Snippet.entryOf (Text.trim id)) with
    | none => exact ⟨rfl,rfl⟩
    | some bytes =>
      simp only
      cases SnippetRecord.decode bytes with
      | ok record => exact ⟨rfl,rfl⟩
      | error reason => exact ⟨rfl,rfl⟩

theorem comes_unpack (name : Text) :
    Comes base s n t (Service.unpack name) (unpacked s name) s n 0 := by
  rw [Service.unpack,Archive.unpack,unpacked]
  cases Archive.isName name with
  | false => exact ⟨rfl,rfl⟩
  | true =>
    refine comes_read base s n t _ _ _ _ ?_
    cases s.read .generated name with
    | none => exact ⟨rfl,rfl⟩
    | some bytes =>
      simp only
      cases Archive.decode bytes with
      | ok files => exact ⟨rfl,rfl⟩
      | error flaw => exact ⟨rfl,rfl⟩

end
end Session
end Workbench
