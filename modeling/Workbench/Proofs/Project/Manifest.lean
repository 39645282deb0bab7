import Workbench.Proofs.Json.Skipping
import Workbench.Report
set_option autoImplicit false

/-!
A package is read from every text of it: the fields in any order, any gaps between tokens, and further
fields that nobody asks for. A section that is left out is empty, and one that is there twice is a fault.
-/
namespace Workbench.Project
open Text Json

inductive PackageSection where
  | dependencies
  | devDependencies
  deriving DecidableEq

def PackageSection.name : PackageSection → Text
  | .dependencies => "dependencies".toList
  | .devDependencies => "devDependencies".toList

def PackageSection.index : PackageSection → Nat
  | .dependencies => 0
  | .devDependencies => 1

/-- A field of a package: a section with its members, or another field with its value. -/
inductive PackageField where
  | members (s : PackageSection) (ms : List (Text × Json))
  | other (key : Text) (v : Json)

/-- The fields behind the brace, or those that follow another one, and the closing brace. The values in
the sections nest at most `n` deep. -/
inductive FieldsText (n : Nat) : Bool → List PackageField → Text → Prop where
  | close {first : Bool} {g : Text} (hg : Gap g) : FieldsText n first [] (g ++ ['\x7d'])
  | members {first : Bool} {s : PackageSection} {ms : List (Text × Json)} {fs : List PackageField}
    {l key g a t u : Text} (hl : Lead first l) (hk : StringText s.name key) (hg : Gap g) (ha : Gap a)
    (h : MembersText true n ms t) (hr : FieldsText n false fs u) :
    FieldsText n first (.members s ms :: fs) (l ++ (key ++ (g ++ ':' :: (a ++ ('\x7b' :: t ++ u)))))
  | other {first : Bool} {m : Nat} {k : Text} {v : Json} {fs : List PackageField}
    {l key g a t u : Text} (hl : Lead first l) (hk : StringText k key)
    (hn : ∀ s : PackageSection, k ≠ s.name) (hg : Gap g) (ha : Gap a) (h : ValueText m v t)
    (hr : FieldsText n false fs u) :
    FieldsText n first (.other k v :: fs) (l ++ (key ++ (g ++ ':' :: (a ++ (t ++ u)))))

inductive PackageText (n : Nat) (fs : List PackageField) : Text → Prop where
  | braces {g t h : Text} (hg : Gap g) (ht : FieldsText n true fs t) (hh : Gap h) :
    PackageText n fs (g ++ '\x7b' :: (t ++ h))

/-- The members of a section, once for each time that it is there. -/
def membersOf (s : PackageSection) : List PackageField → List (List (Text × Json))
  | [] => []
  | .members r ms :: fs => if r = s then ms :: membersOf s fs else membersOf s fs
  | .other _ _ :: fs => membersOf s fs

/-- The section is left out and the dictionary is empty, or it is there once and the dictionary holds what
its members say. -/
def Declares (fs : List PackageField) (s : PackageSection) (d : Dictionary Json) : Prop :=
  (membersOf s fs = [] ∧ d = .empty) ∨ ∃ ms, membersOf s fs = [ms] ∧ d.Says ms

def Repeats (fs : List PackageField) (s : PackageSection) : Prop := 1 < (membersOf s fs).length

def PackageDraft.section? (r : PackageDraft) : PackageSection → Option (List (Text × Json))
  | .dependencies => r.dependencies
  | .devDependencies => r.devDependencies

def PackageDraft.put (r : PackageDraft) (ms : List (Text × Json)) : PackageSection → PackageDraft
  | .dependencies => {r with dependencies := some ms}
  | .devDependencies => {r with devDependencies := some ms}

theorem section?_put_self (r : PackageDraft) (ms : List (Text × Json)) (s : PackageSection) :
    (r.put ms s).section? s = some ms := by
  cases s <;> rfl

theorem section?_put_other (r : PackageDraft) (ms : List (Text × Json)) {s q : PackageSection}
    (h : q ≠ s) : (r.put ms s).section? q = r.section? q := by
  cases s <;> cases q <;> first | rfl | exact absurd rfl h

/-- The fields one after another, up to the first that is there for the second time. -/
def addFields : PackageDraft → List PackageField → Except PackageSection PackageDraft
  | r, [] => .ok r
  | r, .other _ _ :: fs => addFields r fs
  | r, .members s ms :: fs =>
    if (r.section? s).isSome then .error s
    else addFields (r.put (Dictionary.ofList ms).entries s) fs

/-- What is known of a section, and behind it what some fields say. -/
def PackageDraft.known (r : PackageDraft) (fs : List PackageField) (s : PackageSection) :
    List (List (Text × Json)) :=
  (r.section? s).toList ++ (membersOf s fs).map fun ms => (Dictionary.ofList ms).entries

theorem known_start (fs : List PackageField) (s : PackageSection) :
    (PackageDraft.mk none none).known fs s =
      (membersOf s fs).map fun ms => (Dictionary.ofList ms).entries := by
  cases s <;> rfl

theorem known_put {r : PackageDraft} {s : PackageSection} (h : r.section? s = none)
    (ms : List (Text × Json)) (fs : List PackageField) (q : PackageSection) :
    (r.put (Dictionary.ofList ms).entries s).known fs q = r.known (.members s ms :: fs) q := by
  rw [PackageDraft.known,PackageDraft.known,membersOf]
  by_cases hq : s = q
  · subst hq
    rw [section?_put_self,h,if_pos rfl]
    rfl
  · rw [section?_put_other _ _ (Ne.symm hq),if_neg hq]

theorem addFields_cases (r : PackageDraft) (fs : List PackageField) :
    (∃ r', addFields r fs = .ok r' ∧ ∀ s, (r'.section? s).toList = r.known fs s) ∨
    ∃ s, addFields r fs = .error s ∧ 1 < (r.known fs s).length := by
  induction fs generalizing r with
  | nil => exact .inl ⟨r,rfl,fun s => (List.append_nil _).symm⟩
  | cons f fs ih =>
    cases f with
    | other k v => exact ih r
    | members s ms =>
      cases hr : r.section? s with
      | some ds =>
        refine .inr ⟨s,by rw [addFields,hr]; rfl,?_⟩
        rw [PackageDraft.known,hr,membersOf,if_pos rfl]
        simp
      | none =>
        have hstep : addFields r (.members s ms :: fs) =
            addFields (r.put (Dictionary.ofList ms).entries s) fs := by
          rw [addFields,hr]
          rfl
        rw [hstep]
        rcases ih (r.put (Dictionary.ofList ms).entries s) with ⟨r',h,hs⟩ | ⟨q,h,hs⟩
        · exact .inl ⟨r',h,fun q => (hs q).trans (known_put hr ms fs q)⟩
        · exact .inr ⟨q,h,known_put hr ms fs q ▸ hs⟩

theorem find_section (s : PackageSection) :
    (packageFields.zipIdx.find? fun f => f.1 = s.name) = some (s.name,s.index) := by
  cases s <;> rfl

theorem find_other {k : Text} (h : ∀ s : PackageSection, k ≠ s.name) :
    (packageFields.zipIdx.find? fun f => f.1 = k) = none := by
  rw [List.find?_eq_none]
  intro f hf
  have hf : f ∈ [PackageSection.dependencies,.devDependencies].map fun s => (s.name,s.index) := hf
  obtain ⟨s,-,rfl⟩ := List.mem_map.1 hf
  simpa using (h s).symm

theorem given_section (r : PackageDraft) (s : PackageSection) :
    packageShape.given r s.index = (r.section? s).isSome := by
  cases s <;> rfl

theorem packageShape_read (depth : Nat) (s : PackageSection) (r : PackageDraft) (c : Cursor) :
    packageShape.read depth s.index r c =
      match wantObject depth c with
      | .error f => .error f
      | .ok (ms,c) => .ok (r.put ms s,c) := by
  cases s <;> rfl

theorem read_section {n depth : Nat} {ms : List (Text × Json)} {a t : Text} (ha : Gap a)
    (h : MembersText true n ms t) {c : Cursor} {bs : Bytes}
    (hc : c.rest = utf8 a ++ 123 :: (utf8 t ++ bs)) (hd : n+1 < depth) (s : PackageSection)
    (r : PackageDraft) : Leaves (packageShape.read depth s.index r c)
      (r.put (Dictionary.ofList ms).entries s) bs := by
  obtain ⟨d,hw,hl⟩ := wantObject_ok ha h hc hd
  exact ⟨d,by rw [packageShape_read,hw],hl⟩

theorem FieldsText.ends {n : Nat} {fs : List PackageField} {t : Text} {bs : Bytes}
    (h : FieldsText n false fs t) : Ends (utf8 t ++ bs) := by
  cases h with
  | close hg =>
    rw [utf8_append,List.append_assoc]
    exact ends_gap hg (.inr (.inr rfl))
  | members hl _ _ _ _ _ => exact hl.ends _ _
  | other hl _ _ _ _ _ _ => exact hl.ends _ _

/-- What reading some fields comes to: the brace is reached, or the name of a section for the second
time. -/
def FieldsRead (bs : Bytes) (e : Except PackageSection PackageDraft)
    (m : Except Json.Fault (Shape.Draft PackageDraft)) : Prop :=
  match e with
  | .ok r => ∃ d : Cursor, m = .ok (r,none,d) ∧ d.rest = 125 :: bs
  | .error s => ∃ (r : PackageDraft) (d : Cursor), m = .ok (r,some (.duplicateField s.name),d)

theorem FieldsText.read {n : Nat} {first : Bool} {fs : List PackageField} {t : Text}
    (h : FieldsText n first fs t) (hn : n ≤ 125) (fuel : Nat) (r : PackageDraft) {c : Cursor}
    {bs : Bytes} (hc : c.rest = utf8 t ++ bs) (hf : c.rest.length < fuel) :
    FieldsRead bs (addFields r fs) (packageShape.members 127 fuel first r c) := by
  have hfields : packageShape.fields = packageFields := rfl
  induction h generalizing fuel r c with
  | @close first g hg =>
    obtain ⟨f,rfl⟩ : ∃ f, fuel = f+1 := ⟨fuel-1,by omega⟩
    rw [utf8_append,List.append_assoc] at hc
    obtain ⟨d,hm,hl⟩ := moreKeys_close first hg hc
    refine ⟨d,?_,hl⟩
    rw [Shape.members,hm]
    rfl
  | @members first s ms fs l key g a t u hl hk hg ha h hr ih =>
    obtain ⟨f,rfl⟩ : ∃ f, fuel = f+1 := ⟨fuel-1,by omega⟩
    rw [utf8_member] at hc
    obtain ⟨c₁,c₂,hm,hs,c₃,hcol,h₃⟩ := key_ok hl hk hg hc
    rw [Shape.members,hm,addFields]
    simp only [hs,hfields,find_section,given_section]
    by_cases hg : (r.section? s).isSome
    · rw [if_pos hg,if_pos hg]
      exact ⟨r,c₂,rfl⟩
    · rw [if_neg hg,if_neg hg]
      obtain ⟨d,hd,h₄⟩ := read_section ha h h₃ (show n+1 < 127 by omega) s r
      simp only [hcol,hd]
      have hlen := congrArg List.length hc
      have hlen₄ := congrArg List.length h₄
      simp only [List.length_append,List.length_cons] at hlen hlen₄
      exact ih f _ h₄ (by omega)
  | @other first m k v fs l key g a t u hl hk hn hg ha h hr ih =>
    obtain ⟨f,rfl⟩ : ∃ f, fuel = f+1 := ⟨fuel-1,by omega⟩
    rw [utf8_member] at hc
    obtain ⟨c₁,c₂,hm,hs,c₃,hcol,h₃⟩ := key_ok hl hk hg hc
    obtain ⟨d,hd,h₄⟩ := h.skip (fuelFor c₃) c₃ a _ ha h₃ hr.ends (by rw [fuelFor]; omega)
    have hlen := congrArg List.length hc
    have hlen₄ := congrArg List.length h₄
    simp only [List.length_append,List.length_cons] at hlen hlen₄
    rw [Shape.members,hm,addFields]
    simp only [hs,hfields,find_other hn,hcol,skipValue,hd]
    exact ih f r h₄ (by omega)

theorem readFrom_brace {c : Cursor} {bs : Bytes} (hs : (skipSpaces c).rest = 123 :: bs)
    (r : PackageDraft) : packageShape.readFrom maxDepth r c = Shape.readFrom.finish closeObject
      (packageShape.members 127 (fuelFor (skipSpaces c)) true r (skipSpaces c).skip) := by
  rw [Shape.readFrom,peek_eq hs]
  rfl

def repeatedMessage (s : PackageSection) (line column : Nat) : Text :=
  "Invalid JSON format: ".toList ++ (Json.Fault.mk (.duplicateField s.name) line column).message

theorem PackageText.read {n : Nat} {fs : List PackageField} {t : Text} (h : PackageText n fs t)
    (hn : n ≤ 125) : match addFields ⟨none,none⟩ fs with
      | .ok r => readPackage t = .ok ⟨r.dependencies.getD [],r.devDependencies.getD []⟩
      | .error s => ∃ line column, readPackage t = .error (repeatedMessage s line column) := by
  cases h with
  | @braces g t k hg ht hk =>
    have hc : (Cursor.start (utf8 (g ++ '\x7b' :: (t ++ k)))).rest =
        utf8 g ++ 123 :: (utf8 t ++ utf8 k) := by
      rw [← utf8_append]
      exact utf8_append _ _
    rw [readPackage,Shape.read?]
    generalize Cursor.start (utf8 (g ++ '\x7b' :: (t ++ k))) = c at hc ⊢
    have hs := rest_skipSpaces hg hc (by decide)
    have hlen := length_skip hs
    have hread := ht.read hn (fuelFor (skipSpaces c)) ⟨none,none⟩ (rest_skip hs)
      (by rw [fuelFor]; omega)
    rw [readFrom_brace hs]
    cases he : addFields ⟨none,none⟩ fs with
    | ok r =>
      rw [he] at hread
      obtain ⟨d,hm,hd⟩ := hread
      obtain ⟨e,hcl,hl⟩ := closeObject_ok hd
      rw [hm,Shape.readFrom.finish,hcl]
      simp only [atEnd_gap hk hl]
    | error s =>
      rw [he] at hread
      obtain ⟨r,d,hm⟩ := hread
      rw [hm,Shape.readFrom.finish]
      exact ⟨_,_,rfl⟩

theorem PackageText.outcome {n : Nat} {fs : List PackageField} {t : Text} (h : PackageText n fs t)
    (hn : n ≤ 125) :
    (∃ r : PackageDraft, (∀ s, (r.section? s).toList = (membersOf s fs).map fun ms =>
      (Dictionary.ofList ms).entries) ∧ readPackage t = .ok ⟨(r.section? .dependencies).getD [],
        (r.section? .devDependencies).getD []⟩) ∨
    ∃ s line column, Repeats fs s ∧ readPackage t = .error (repeatedMessage s line column) := by
  have hread := h.read hn
  rcases addFields_cases ⟨none,none⟩ fs with ⟨r,he,hs⟩ | ⟨s,he,hs⟩
  · rw [he] at hread
    exact .inl ⟨r,fun s => (hs s).trans (known_start fs s),hread⟩
  · rw [he] at hread
    obtain ⟨line,column,hm⟩ := hread
    rw [known_start,List.length_map] at hs
    exact .inr ⟨s,line,column,hs,hm⟩

theorem Declares.not_repeats {fs : List PackageField} {s : PackageSection} {d : Dictionary Json}
    (h : Declares fs s d) : ¬ Repeats fs s := by
  rw [Repeats]
  rcases h with ⟨e,-⟩ | ⟨ms,e,-⟩
  · simp [e]
  · simp [e]

theorem Declares.section_eq {fs : List PackageField} {s : PackageSection} {d : Dictionary Json}
    (h : Declares fs s d) {o : Option (List (Text × Json))}
    (ho : o.toList = (membersOf s fs).map fun ms => (Dictionary.ofList ms).entries) :
    o.getD [] = d.entries := by
  rcases h with ⟨e,rfl⟩ | ⟨ms,e,hs⟩
  · rw [e] at ho
    cases o with
    | none => rfl
    | some es => cases ho
  · rw [e] at ho
    cases o with
    | none => cases ho
    | some es =>
      rw [hs.eq_ofList]
      exact (List.cons.inj ho).1

theorem compact_sections (j k : Text) (ds vs : List (Text × Json)) :
    (Json.object [(j,.object ds),(k,.object vs)]).compact =
      [] ++ '\x7b' :: ([] ++ (stringText j ++ ([] ++ ':' :: ([] ++ ('\x7b' :: compactMembers ds ++
        ([] ++ ',' :: [] ++ (stringText k ++ ([] ++ ':' :: ([] ++ ('\x7b' :: compactMembers vs ++
          ([] ++ ['\x7d'])))))))))) ++ []) := by
  simp [compact,compactMembers]

theorem packageText_written {n : Nat} (D V : Dictionary Json)
    (hD : ∀ m ∈ D.entries, Standard n m.2) (hV : ∀ m ∈ V.entries, Standard n m.2) :
    PackageText n [.members .dependencies D.entries,.members .devDependencies V.entries]
      (packageJson (.ok ⟨D.entries,V.entries⟩)).compact := by
  have hd := membersText_written fun m hm => valueText_written (hD m hm)
  have hv := membersText_written fun m hm => valueText_written (hV m hm)
  have e : packageJson (.ok ⟨D.entries,V.entries⟩) = .object
      [(PackageSection.dependencies.name,.object D.entries),
        (PackageSection.devDependencies.name,.object V.entries)] := rfl
  rw [e,compact_sections]
  exact .braces gap_nil (.members (.first gap_nil) (stringText_written _) gap_nil gap_nil hd
    (.members (.next gap_nil gap_nil) (stringText_written _) gap_nil gap_nil hv (.close gap_nil)))
    gap_nil

/-- A package comes back from all its texts, and from the one that is written. A section that is there
twice is a fault, which leaves nothing of the package. -/
theorem readPackage_text {n : Nat} (hn : n ≤ 125) :
    (∀ fs t D V, PackageText n fs t → Declares fs .dependencies D → Declares fs .devDependencies V →
      readPackage t = .ok ⟨D.entries,V.entries⟩) ∧
    (∀ fs t s, PackageText n fs t → Repeats fs s → ∃ q line column, Repeats fs q ∧
      readPackage t = .error (repeatedMessage q line column) ∧
      packageJson (readPackage t) = .object [("dependencies".toList,.object []),
        ("devDependencies".toList,.object []),("error".toList,.string (repeatedMessage q line column))]) ∧
    ∀ D V : Dictionary Json, (∀ m ∈ D.entries ++ V.entries, Standard n m.2) →
      readPackage (packageJson (.ok ⟨D.entries,V.entries⟩)).compact = .ok ⟨D.entries,V.entries⟩ := by
  have hwhole : ∀ fs t D V, PackageText n fs t → Declares fs .dependencies D →
      Declares fs .devDependencies V → readPackage t = .ok ⟨D.entries,V.entries⟩ := by
    intro fs t D V ht hD hV
    rcases ht.outcome hn with ⟨r,hs,hr⟩ | ⟨s,line,column,hs,-⟩
    · rw [hr,hD.section_eq (hs .dependencies),hV.section_eq (hs .devDependencies)]
    · cases s with
      | dependencies => exact absurd hs hD.not_repeats
      | devDependencies => exact absurd hs hV.not_repeats
  refine ⟨hwhole,fun fs t s ht hs => ?_,fun D V h => ?_⟩
  · rcases ht.outcome hn with ⟨r,hr,-⟩ | ⟨q,line,column,hq,he⟩
    · -- What is known of a section is at most one list of members.
      have hlen := congrArg List.length (hr s)
      rw [List.length_map] at hlen
      rw [Repeats,← hlen] at hs
      exact absurd hs (Nat.not_lt.2 Option.length_toList_le)
    · exact ⟨q,line,column,hq,he,by rw [he]; rfl⟩
  · obtain ⟨hD,hV⟩ := List.forall_mem_append.1 h
    exact hwhole _ _ D V (packageText_written D V hD hV) (.inr ⟨_,rfl,D.says_entries⟩)
      (.inr ⟨_,rfl,V.says_entries⟩)

/-- The last of two values counts, also where the key is spelt in another way, and a further field is
read over. A section that is there twice is a fault even if it is empty. -/
theorem readPackage_spaced :
    readPackage "\n\x7b \"name\" : \"n\" , \"dependencies\":\x7b\"b\":true,\"\\u0062\":[null]\x7d\x7d".toList =
      .ok ⟨[("b".toList,.array [.null])],[]⟩ ∧
    ∃ q line column,
      readPackage "\x7b\"dependencies\":\x7b\x7d,\"dependencies\":\x7b\x7d\x7d".toList =
        .error (repeatedMessage q line column) := by
  have hg : Gap [' '] := by
    unfold Gap
    decide
  have hn : Gap ['\n'] := by
    unfold Gap
    decide
  have hb : CharText 'b' ('\\' :: 'u' :: ['0','0','6','2']) :=
    .number (.mk (a := 0) (b := 0) (c := 6) (d := 2) ⟨by decide,.inl rfl⟩ ⟨by decide,.inl rfl⟩
      ⟨by decide,.inl rfl⟩ ⟨by decide,.inl rfl⟩)
  have hlist : ValueText 1 (.array [.null]) ('[' :: ([] ++ ("null".toList ++ ([] ++ [']'])))) :=
    .array (.item (.first gap_nil) .null (.close gap_nil))
  have hms : MembersText true 1 [("b".toList,.bool true),("b".toList,.array [.null])] _ :=
    .member (.first gap_nil) (stringText_written _) gap_nil gap_nil .bool
      (.member (.next gap_nil gap_nil) (.quoted (.cons hb .nil)) gap_nil gap_nil hlist (.close gap_nil))
  have htext := PackageText.braces hn (.other (v := .string "n".toList) (.first hg)
    (stringText_written "name".toList) (by intro s; cases s <;> decide) hg hg
    (.string (n := 0) (stringText_written "n".toList))
    (.members (s := .dependencies) (.next hg hg) (stringText_written _) gap_nil gap_nil hms
      (.close gap_nil))) gap_nil
  have htwice := PackageText.braces (n := 1) gap_nil (.members (s := .dependencies) (.first gap_nil)
    (stringText_written _) gap_nil gap_nil (.close gap_nil) (.members (s := .dependencies)
      (.next gap_nil gap_nil) (stringText_written _) gap_nil gap_nil (.close gap_nil)
      (.close gap_nil))) gap_nil
  refine ⟨(readPackage_text (by decide)).1 _ _ (.ofList _) .empty htext
    (.inr ⟨_,rfl,Dictionary.says_ofList _⟩) (.inl ⟨rfl,rfl⟩),?_⟩
  obtain ⟨q,line,column,-,h,-⟩ := (readPackage_text (by decide)).2.1 _ _ .dependencies htwice
    (show 1 < 2 by decide)
  exact ⟨q,line,column,h⟩

end Workbench.Project
