import Mathlib
import Workbench.Proofs.Held
import Workbench.Proofs.Yaml.Fading
set_option autoImplicit false

/-!
The dependencies of a project in both formats. What the last development dependency says ends the
document, and it may end in a text that fades; without such a text the one format tells apart what
the other does.
-/
namespace Workbench

namespace Project
open Json

/-- The text in the last place of what is shown is that of the last development dependency, or the
reason why there is none. Any other text may stand there as well. -/
theorem Dependencies.last_cases (d : Dependencies) {f : Json → Json} (hf : LastPlace f) {t : Text}
    (h : d.json = f (.string t)) : (∃ p g ms k, d.package = some (.ok p) ∧ LastPlace g ∧
        p.devDependencies = ms ++ [(k,g (.string t))] ∧ ∀ u, f (.string u) = Dependencies.json
          {d with package := some (.ok {p with devDependencies := ms ++ [(k,g (.string u))]})}) ∨
      d.package = some (.error t) ∧
        ∀ u, f (.string u) = Dependencies.json {d with package := some (.error u)} := by
  obtain ⟨python,package⟩ := d
  obtain ⟨g,hg,h,hj⟩ := hf.member_cases [_] h
  cases package with
  | none =>
    cases (hg.leaf_cases rfl h).1
  | some r =>
    cases r with
    | error reason =>
      right
      obtain ⟨g,hg,h,hk⟩ := hg.member_cases [_,_] h
      obtain ⟨he,hl⟩ := hg.leaf_cases rfl h
      refine ⟨by rw [Json.string.inj he],fun u => ?_⟩
      rw [hj,hk,hl]
      rfl
    | ok p =>
      left
      obtain ⟨g,hg,h,hk⟩ := hg.member_cases [_] h
      obtain ⟨ds,dev⟩ := p
      rcases List.eq_nil_or_concat' dev with rfl | ⟨ms,⟨k,v⟩,rfl⟩
      · cases (hg.leaf_cases rfl h).1
      · obtain ⟨g,hg,rfl,hl⟩ := hg.member_cases ms h
        refine ⟨_,g,ms,k,rfl,hg,rfl,fun u => ?_⟩
        rw [hj,hk,hl]
        rfl

theorem fades_readPackage_error {text reason : Text} (h : readPackage text = .error reason) :
    Yaml.fades reason = false := by
  have ht : ∀ (s : Text) (n : Nat), Yaml.trailsOff (s ++ Text.decimal n) = false := by
    intro s n
    obtain hn | ⟨u,c,hu⟩ := List.eq_nil_or_concat' (Text.decimal n)
    · exact absurd hn (decimal_ne_nil n)
    · have hc := unblank_decimal n c (by simp [hu])
      have hl : c ≠ '\n' := by
        rintro rfl
        cases hc
      rw [hu,← List.append_assoc,Yaml.trailsOff_concat,if_neg hl,hc]
  rw [readPackage] at h
  split at h
  · cases h
  · rw [← Except.error.inj h,Json.Fault.message,← List.append_assoc,Yaml.fades,ht,Bool.and_false]

/-- The only text of a manifest that can fade at the end is what the last development dependency
ends in. -/
theorem fades_readPackage {python : Option PythonDependencies} {text : Text}
    (h : Yaml.Fades (Dependencies.json ⟨python,some (readPackage text)⟩)) :
    ∃ p, readPackage text = .ok p ∧ Yaml.Fades (.object p.devDependencies) := by
  obtain ⟨f,t,hf,hj,ht⟩ := h
  rcases Dependencies.last_cases _ hf hj with ⟨p,g,ms,k,hp,hg,hd,-⟩ | ⟨he,-⟩
  · refine ⟨p,Option.some.inj hp,fun l => .object (ms ++ [(k,g l)]),t,.member ms k hg,?_,ht⟩
    rw [hd]
  · rw [fades_readPackage_error (Option.some.inj he)] at ht
    cases ht

/-- Trimming takes the final line feed of the one document and nothing else, unless what is shown
ends in a text that fades. Then something else is shown alike in this format, but not in the other;
without such texts the formats tell the same results apart if the writers do. -/
theorem render_dependencies (d : Dependencies) :
    (Yaml.document d.json = Format.yaml.render d.json ++ ['\n'] ↔ ¬ Yaml.Fades d.json) ∧
    (Yaml.Fades d.json → ∃ e : Dependencies,
      Format.yaml.render e.json = Format.yaml.render d.json ∧
        Format.json.render e.json ≠ Format.json.render d.json) ∧
    ∀ e : Dependencies, ¬ Yaml.Fades d.json → ¬ Yaml.Fades e.json →
      (Yaml.document d.json = Yaml.document e.json → d.json = e.json) →
      (d.json.pretty = e.json.pretty → d.json = e.json) →
      (Format.yaml.render d.json = Format.yaml.render e.json ↔
        Format.json.render d.json = Format.json.render e.json) := by
  refine ⟨Yaml.document_eq_iff d.json,?_,fun e hd he hy hj => ?_⟩
  · rintro ⟨f,t,hf,h,ht⟩
    obtain ⟨u,hy,hj⟩ := Yaml.exists_alike hf ht
    rw [← h] at hy hj
    rcases d.last_cases hf h with ⟨p,g,ms,k,-,-,-,hu⟩ | ⟨-,hu⟩
    · rw [hu] at hy hj
      exact ⟨_,hy,hj⟩
    · rw [hu] at hy hj
      exact ⟨_,hy,hj⟩
  · rw [Yaml.render_eq_iff hd he]
    constructor
    · intro h
      rw [hy h]
    · intro h
      rw [hj h]

def Dependencies.ofVersion (v : Text) : Dependencies :=
  ⟨none,some (.ok ⟨[],[("a".toList,.string v)]⟩)⟩

theorem render_dependencies_ofVersion :
    (Format.yaml.render (Dependencies.ofVersion "^1".toList).json =
        Format.yaml.render (Dependencies.ofVersion "^2".toList).json ↔
      Format.json.render (Dependencies.ofVersion "^1".toList).json =
        Format.json.render (Dependencies.ofVersion "^2".toList).json) ∧
    ∃ e : Dependencies,
      Format.yaml.render e.json = Format.yaml.render (Dependencies.ofVersion "x\n\n".toList).json ∧
      Format.json.render e.json ≠ Format.json.render (Dependencies.ofVersion "x\n\n".toList).json := by
  have hd := (render_dependencies (.ofVersion "^1".toList)).1.1 (by decide +kernel)
  have he := (render_dependencies (.ofVersion "^2".toList)).1.1 (by decide +kernel)
  have hy : Yaml.document (Dependencies.ofVersion "^1".toList).json ≠
      Yaml.document (Dependencies.ofVersion "^2".toList).json := by decide +kernel
  have hj : (Dependencies.ofVersion "^1".toList).json.pretty ≠
      (Dependencies.ofVersion "^2".toList).json.pretty := by decide +kernel
  have hf : Yaml.Fades (Dependencies.ofVersion "x\n\n".toList).json :=
    ⟨_,"x\n\n".toList,.member [_] _ (.member [_] _ (.member [] _ .here)),rfl,by decide +kernel⟩
  exact ⟨(render_dependencies _).2.2 _ hd he (fun h => absurd h hy) fun h => absurd h hj,
    (render_dependencies _).2.1 hf⟩

def manifestOf (v : Text) : Text :=
  "\x7b\"devDependencies\":\x7b\"a\":".toList ++ Json.stringText v ++ "\x7d\x7d".toList

/-- What the dependencies of a project with this manifest are shown as. -/
def shown (f : Format) (v : Text) : Except Text Text :=
  ((ExceptT.run (Command.run f (.dependencies "web".toList))).run {World.bare with
    project := .memory (File.MemoryTree.empty.addFile "web/package.json".toList (manifestOf v))}).1

theorem shown_eq (f : Format) (v : Text) :
    shown f v = .ok (f.render (Dependencies.json ⟨none,some (readPackage (manifestOf v))⟩)) :=
  rfl

/-- Two line feeds at the end of a version, or three: one text in the one format, two in the other. -/
theorem shown_lineFeeds : shown .yaml "x\n\n".toList = shown .yaml "x\n\n\n".toList ∧
    shown .json "x\n\n".toList ≠ shown .json "x\n\n\n".toList := by
  have h₂ : readPackage (manifestOf "x\n\n".toList) =
      .ok ⟨[],[("a".toList,.string "x\n\n".toList)]⟩ := by
    unfold manifestOf
    cbv
  have h₃ : readPackage (manifestOf "x\n\n\n".toList) =
      .ok ⟨[],[("a".toList,.string "x\n\n\n".toList)]⟩ := by
    unfold manifestOf
    cbv
  simp only [shown_eq,h₂,h₃]
  decide +kernel

end Project
end Workbench
