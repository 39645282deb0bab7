import Workbench.Proofs.Confined
import Workbench.Proofs.Service.Unchanged
import Workbench.Proofs.Store.Key
set_option autoImplicit false

/-!
Every entry that a service asks for or writes has a key of its area as its name, whatever it is given
and whatever its calls are answered. What cannot be made into a key is not asked for at all.
-/
namespace Workbench
open Text File StoreOnDisk

namespace Service
variable {ok : Area → Text → Prop}

theorem confined_sortOut (directory : Text) (names : List Text) :
    (Project.sortOut directory names).Confined ok := by
  induction names with
  | nil => trivial
  | cons n ns ih =>
    refine .bind (.call (.of_none rfl)) fun isDir => .bind ih fun sorted => ?_
    obtain ⟨ds,fs⟩ := sorted
    cases isDir <;> trivial

theorem confined_walkAll {depth : Nat} (h : ∀ directory relative entries,
      (Project.walk depth directory relative entries).Confined ok)
    (directory relative : Text) (names : List Text) :
    (Project.walkAll depth directory relative names).Confined ok := by
  induction names with
  | nil =>
    rw [Project.walkAll]
    trivial
  | cons n ns ih =>
    rw [Project.walkAll]
    refine .bind (.call (.of_none rfl)) fun found => ?_
    cases found with
    | ok entries => exact .bind (h _ _ _) fun _ => .bind ih fun _ => trivial
    | error reason => exact .bind trivial fun _ => .bind ih fun _ => trivial

theorem confined_walk (depth : Nat) (directory relative : Text) (entries : List Text) :
    (Project.walk depth directory relative entries).Confined ok := by
  induction depth generalizing directory relative entries with
  | zero =>
    rw [Project.walk]
    exact .bind (confined_sortOut _ _) fun _ => trivial
  | succ depth ih =>
    rw [Project.walk]
    exact .bind (confined_sortOut _ _) fun _ =>
      .bind (confined_walkAll ih _ _ _) fun _ => trivial

theorem within_inventory (root : Text) : Within ok (inventory root) :=
  .bind (.need _ _) fun _ => .bind (.callOr _ (.of_none rfl)) fun _ =>
    .bind (.lift (.call (.of_none rfl))) fun _ => .lift (confined_walk _ _ _ _)

theorem within_firstPresent (root : Text) (ms : List Project.PythonManifest) :
    Within ok (Project.firstPresent root ms) := by
  induction ms with
  | nil => exact .pure _
  | cons m ms ih =>
    refine .bind (.lift (.call (.of_none rfl))) fun present => ?_
    cases present with
    | true => exact .pure _
    | false => exact ih

theorem within_pythonDependencies (root : Text) : Within ok (Project.pythonDependencies root) := by
  refine .bind (within_firstPresent _ _) fun found => ?_
  cases found with
  | none => exact .pure _
  | some m =>
    cases m with
    | requirements => exact .bind (.callOr _ (.of_none rfl)) fun _ => .pure _
    | pipfile => exact .pure _
    | setup => exact .pure _

theorem within_packageDependencies (root : Text) : Within ok (Project.packageDependencies root) := by
  refine .bind (.lift (.call (.of_none rfl))) fun present => ?_
  cases present with
  | true => exact .bind (.callOr _ (.of_none rfl)) fun _ => .pure _
  | false => exact .pure _

theorem within_dependencies (root : Text) : Within ok (dependencies root) :=
  .bind (.need _ _) fun _ => .bind (.callOr _ (.of_none rfl)) fun _ =>
    .bind (within_pythonDependencies root) fun _ => .bind (within_packageDependencies root) fun _ =>
      .pure _

theorem within_put (code language : Text) : Within Key (Snippet.put code language) :=
  .drawn fun _ hid => .bind (.lift (.call (.of_none rfl))) fun _ =>
    .bind (.callOr _ (Call.keeps_write (.snippet (Snippet.isId_iff.1 hid)) _)) fun _ => .pure _

theorem within_get (id : Text) : Within Key (Snippet.get id) := by
  rw [Snippet.get]
  cases h : Snippet.isId id with
  | false => exact .pure _
  | true =>
    refine .read (.snippet (Snippet.isId_iff.1 h)) (.pure _) fun content => ?_
    dsimp only
    split
    · exact .pure _
    · exact .throw _

theorem within_package [Archive.Compressor] (files : FileSet) : Within Key (Archive.package files) :=
  .bind trivial fun _ => .drawn fun _ hid =>
    .bind (.callOr _ (Call.keeps_write (.archive (Snippet.isId_iff.1 hid)) _)) fun _ => .pure _

theorem within_unpack (name : Text) : Within Key (unpack name) := by
  rw [unpack,Archive.unpack]
  cases h : Archive.isName name with
  | false => exact .pure _
  | true =>
    obtain ⟨id,hid,hn⟩ := Archive.isName_iff.1 h
    refine .read (by rw [hn]; exact .archive hid) (.pure _) fun content => ?_
    dsimp only
    split
    · exact .pure _
    · exact .throw _

theorem within_savePrompt (name content : Text) : Within Key (Prompt.save name content) := by
  rw [Prompt.save]
  split
  · exact .throw _
  · rename_i file h
    exact .bind (.callOr _ (Call.keeps_write (.template h) _)) fun _ => .pure _

theorem within_loadPrompt (name : Text) : Within Key (Prompt.load name) := by
  rw [Prompt.load]
  split
  · exact .pure _
  · rename_i file h
    refine .read (.template h) (.pure _) fun content => ?_
    dsimp only
    split
    · exact .pure _
    · exact .throw _

theorem Operation.within [Archive.Compressor] (o : Operation) : Within Key o.action := by
  cases o with
  | session o =>
    cases o with
    | share code language => exact .bind (.need _ _) fun _ => within_put code language
    | fetch id => exact within_get (trim id)
    | scaffold spec => exact .bind (.need _ _) fun _ => .bind (within_package _) fun _ => .pure _
    | package files => exact within_package files
    | unpack name => exact within_unpack name
    | savePrompt name content => exact within_savePrompt name content
    | listPrompts => exact .bind (.callOr _ (.of_none rfl)) fun _ => .pure _
    | loadPrompt name => exact within_loadPrompt name
  | analyze code language => exact .bind (.need _ _) fun _ => .pure _
  | scan code language => exact .bind (.need _ _) fun _ => .pure _
  | generateTests code language => exact .bind (.need _ _) fun _ => .pure _
  | breakDown task => exact .bind (.need _ _) fun _ => .pure _
  | inventory root => exact within_inventory root
  | dependencies root => exact within_dependencies root

/-- No key leads out of its area. Whatever an operation is given and answered, as long as ids are ids
it reads and writes nothing but keys; on a disk a key is one more component behind the directory of its
area. A text that is no id, no name of an archive or a blank name is looked for nowhere: there is
nothing under it, even where no call would succeed. -/
theorem keys_stay_in_area [Archive.Compressor] :
    (∀ o : Operation, Within Key o.action) ∧
    (∀ a name, Key a name → ∀ root,
      components (directoryOf root a) = components root ++ [.name a.name] ∧
      components (pathOf root a name) = components (directoryOf root a) ++ [.name name]) ∧
    (∀ id, ¬ IsId (trim id) → fetch id = pure none) ∧
    (∀ name, (¬ ∃ id, IsId id ∧ name = Archive.nameOf id) → unpack name = pure none) ∧
    ∀ name, allBlank name = true → Prompt.load name = pure none := by
  refine ⟨Operation.within,fun a name h root => ?_,fun id h => ?_,fun name h => ?_,fun name h => ?_⟩
  · exact ⟨components_directoryOf root a,components_pathOf root a h.plain⟩
  · rw [← Snippet.isId_iff,Bool.not_eq_true] at h
    simp [fetch,Snippet.get,h]
  · rw [← Archive.isName_iff,Bool.not_eq_true] at h
    simp [unpack,Archive.unpack,h]
  · have hf : Prompt.fileOf? name = none := if_pos h
    simp only [Prompt.load,hf]

end Service
end Workbench
