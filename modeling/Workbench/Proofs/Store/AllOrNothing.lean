import Workbench.Proofs.Store.Writing
set_option autoImplicit false

/-!
A writing to a store on a disk is done, or it leaves nothing behind, whichever of its steps fails.
Directories may have been made for it, but no file and no link has been touched. When it is done the
entry is all that has changed. The path of the entry leads there still, unless a link was at that place
through which the path itself went.
-/
namespace Workbench

namespace StoreOnDisk
open Text File Disk

/-- A step that fails for a reason which is not on the disk. Of the directories the last `missing` are
not made, a temporary file is not made, or it is given up when there is no more than a part of the
content in it, or all of that. -/
inductive Hitch where
  | making (missing : Nat)
  | creating
  | filling (part : Bytes)

/-- What is done when the directory of the area is there, at whatever place. -/
def onceMade (d : Disk) (root : Text) (a : Area) (next : Disk → Place → Disk × Except Text Unit) :
    Disk × Except Text Unit :=
  match d.makeAll (upward (directoryOf root a)) with
  | (d,.error r) => (d,.error r.message)
  | (d,.ok ()) =>
    match d.find true (utf8 (directoryOf root a)) with
    | .error r => (d,.error r.message)
    | .ok p => next d p

/-- Writing, with a hitch perhaps. A temporary file that is given up is taken away. -/
def writeDespite (h : Option (Hitch × Text)) (d : Disk) (root : Text) (a : Area) (name : Text)
    (content : Bytes) : Disk × Except Text Unit :=
  match h with
  | none => write d root a name content
  | some (.making missing,reason) =>
    ((d.makeAll ((upward (directoryOf root a)).drop missing)).1,.error reason)
  | some (.creating,reason) => onceMade d root a fun d _ => (d,.error reason)
  | some (.filling part,reason) => onceMade d root a fun d p =>
    match temporaryPlace d root a p with
    | .error reason => (d,.error reason)
    | .ok place => ((d.put place (.file part)).erase place,.error reason)

/-- The entry has been written in the directory at the place `p`, where its path led. -/
structure Written (d : Disk) (root : Text) (a : Area) (name : Text) (content : Bytes) (p : Place)
    (d' : Disk) : Prop where
  parent : (d.makeAll (upward (directoryOf root a))).1.findParent (utf8 (pathOf root a name)) =
    .ok (p,.name (utf8 name))
  entry : d'.entry? (p ++ [utf8 name]) = some (.file content)
  files : d'.files = (p ++ [utf8 name],.file content) ::
    d.files.filter fun x => x.1 ≠ p ++ [utf8 name]
  old : ∀ q e, q ≠ p ++ [utf8 name] → d.entry? q = some e → d'.entry? q = some e
  /-- The path leads to the entry, unless it went through what was there before. -/
  read : StoreOnDisk.read d' root a name = .ok (some content) ↔
    (d'.erase (p ++ [utf8 name])).find true (utf8 (directoryOf root a)) = .ok p
  noLink : (∀ target, d.entry? (p ++ [utf8 name]) ≠ some (.link target)) →
    StoreOnDisk.read d' root a name = .ok (some content)

section
variable {d₀ d d' : Disk} {root name : Text} {a : Area} {p : Place} {content : Bytes}

theorem write_eq_onceMade : write d root a name content =
    onceMade d root a fun d p => writeInto d root a p name content := rfl

theorem keeps_onceMade {next : Disk → Place → Disk × Except Text Unit} {reason : Text}
    (hnext : ∀ d p d', next d p = (d',.error reason) → d.Keeps d')
    (h : onceMade d root a next = (d',.error reason)) : d.Keeps d' := by
  have hall := keeps_makeAll d (upward (directoryOf root a))
  rw [onceMade] at h
  split at h
  · rename_i hm
    cases h
    rwa [hm] at hall
  · rename_i hm
    rw [hm] at hall
    split at h
    · cases h
      exact hall
    · exact hall.trans (hnext _ _ _ h)

theorem onceMade_ne_ok {next : Disk → Place → Disk × Except Text Unit}
    (hnext : ∀ d p, (next d p).2 ≠ .ok ()) : (onceMade d root a next).2 ≠ .ok () := by
  rw [onceMade]
  split
  · exact nofun
  · split
    · exact nofun
    · exact hnext _ _

theorem keeps_writeInto {reason : Text}
    (h : writeInto d root a p name content = (d',.error reason)) : d.Keeps d' := by
  rw [writeInto] at h
  split at h
  · cases h
    exact .refl d
  · rename_i q hq
    split at h
    · cases h
    · cases h
      rw [erase_put (temporaryPlace_ok hq).2.1]
      exact .refl d

theorem keeps_writeDespite {h : Option (Hitch × Text)} {reason : Text}
    (hw : writeDespite h d root a name content = (d',.error reason)) : d.Keeps d' := by
  match h with
  | none =>
    rw [writeDespite,write_eq_onceMade] at hw
    exact keeps_onceMade (fun _ _ _ => keeps_writeInto) hw
  | some (.making missing,_) =>
    cases hw
    exact keeps_makeAll _ _
  | some (.creating,_) =>
    refine keeps_onceMade (fun d p d' h => ?_) hw
    cases h
    exact .refl d
  | some (.filling part,_) =>
    refine keeps_onceMade (fun d p d' h => ?_) hw
    split at h
    · cases h
      exact .refl d
    · rename_i q hq
      cases h
      rw [erase_put (temporaryPlace_ok hq).2.1]
      exact .refl d

theorem eq_none_of_ok {h : Option (Hitch × Text)}
    (hr : (writeDespite h d root a name content).2 = .ok ()) : h = none := by
  match h with
  | none => rfl
  | some (.making _,_) => cases hr
  | some (.creating,_) => exact absurd hr (onceMade_ne_ok fun _ _ => nofun)
  | some (.filling _,_) => exact absurd hr (onceMade_ne_ok fun _ _ => by split <;> exact nofun)

/-- Nothing is against an entry in the directory of the area, which is there at the place `p`. -/
structure Ready (d : Disk) (root : Text) (a : Area) (name : Text) (p : Place) : Prop where
  plain : PlainName name
  noNul : (utf8 (pathOf root a name)).contains 0 = false
  short : (utf8 name).length ≤ maxName
  path : (utf8 (pathOf root a name)).length < pathLimit
  leads : d.LeadsTo (components root ++ [.name a.name]) p
  free : d.entry? (p ++ [utf8 name]) ≠ some .directory
  room : Room d.current root a
  unused : ∃ i < temporaryNames, d.entry? (p ++ [utf8 (temporaryName i)]) = none

theorem pathOf_eq (root : Text) (a : Area) (hn : '/' ∉ name) :
    pathOf root a name = directoryOf root a ++ ['/'] ++ name := by
  have ha := plainName_area a
  obtain ⟨u,hu⟩ := exists_join root ha
  have hu : directoryOf root a = u ++ a.name := hu
  have hd : ¬ (directoryOf root a = [] ∨ endsWith ['/'] (directoryOf root a) = true) := by
    rw [hu,List.append_eq_nil_iff,endsWith_iff]
    rintro (⟨-,h⟩ | ⟨v,hv⟩)
    · exact ha.filled h
    · have hl := congrArg List.getLast? hv
      rw [List.getLast?_append_of_ne_nil _ ha.filled,List.getLast?_concat] at hl
      exact ha.whole (List.mem_of_getLast? hl)
  unfold pathOf join
  split
  · exact absurd List.mem_cons_self hn
  · exact if_neg hd

theorem findParent_of_dots {path n : Bytes} (hn : (names path).getLast? = some n)
    (h : n = dotName ∨ n = dotDotName) {m : Bytes} : d.findParent path ≠ .ok (p,.name m) := by
  intro hp
  simp only [findParent,hn,if_pos h] at hp
  split at hp
  · cases hp
  · split at hp <;> cases hp

theorem plainName_of_moved {source : Place} (hn : '/' ∉ name)
    (h : d.moveFile source content (utf8 (pathOf root a name)) = .ok d') : PlainName name := by
  obtain ⟨p,m,-,hpar,-,hs,-⟩ := moveFile_ok h
  have hpath := pathOf_eq root a hn
  have hfilled : name ≠ [] := by
    rintro rfl
    rw [hpath,List.append_nil,utf8_append] at hs
    simp [endsInSlash,utf8,utf8Char] at hs
  have hlast : (names (utf8 (pathOf root a name))).getLast? = some (utf8 name) := by
    rw [hpath,names_slash hfilled hn,List.getLast?_concat]
  refine ⟨hfilled,?_,?_,hn⟩
  · rintro rfl
    exact findParent_of_dots hlast (.inl rfl) hpar
  · rintro rfl
    exact findParent_of_dots hlast (.inr rfl) hpar

theorem ready_of_moved (hn : '/' ∉ name) (hf : d.find true (utf8 (directoryOf root a)) = .ok p)
    {place : Place} (ht : temporaryPlace d root a p = .ok place)
    (h : (d.put place (.file content)).moveFile place content (utf8 (pathOf root a name)) = .ok d') :
    Ready d root a name p ∧ d' = d.put (p ++ [utf8 name]) (.file content) := by
  obtain ⟨hroom,ht,i,hi,rfl⟩ := temporaryPlace_ok ht
  have hplain := plainName_of_moved hn h
  obtain ⟨q,m,hz,hpar,hshort,-,hfree,rfl⟩ := moveFile_ok h
  have hl := path_lt_of_findParent hpar
  have hext := Extends.put ht (.file content)
  obtain ⟨hq,hm⟩ := leadsTo_of_findParent (pathTo_pathOf root a hplain) hl hpar
  have hdirectory := Nat.lt_of_le_of_lt (length_directoryOf_le root a hplain) hl
  obtain ⟨hfq,hdir⟩ := (leadsTo_concat_iff (pathTo_directoryOf root a) hdirectory).1 hq
  obtain rfl : p = q := Except.ok.inj ((hext.find hf).symm.trans hfq)
  obtain rfl : m = utf8 name := hm
  rw [entry?_put_other (by simp)] at hdir
  rw [erase_put ht]
  refine ⟨⟨hplain,hz,hshort,hl,?_,fun he => hfree (hext.old _ _ he),hroom,i,hi,ht⟩,rfl⟩
  exact (leadsTo_concat_iff (pathTo_directoryOf root a) hdirectory).2 ⟨hf,hdir⟩

theorem read_eq_ok_iff {c : Bytes} : StoreOnDisk.read d root a name = .ok (some c) ↔
    d.readBytes (utf8 (pathOf root a name)) = .ok c := by
  rw [StoreOnDisk.read]
  split <;> simp_all

theorem readBytes_eq_ok_iff {path c : Bytes} (hz : path.contains 0 = false) :
    d.readBytes path = .ok c ↔ ∃ q, d.find true path = .ok q ∧ d.entry? q = some (.file c) := by
  rw [readBytes,hz,if_neg Bool.false_ne_true]
  cases d.find true path with
  | error r => simp
  | ok q =>
    cases he : d.entry? q with
    | none => simp [he]
    | some e => cases e <;> simp [he]

namespace Ready
variable (h : Ready d root a name p)
include h

theorem noNul_root : '\x00' ∉ root := fun hz => by
  have hp : '\x00' ∈ pathOf root a name := mem_join_of_mem h.plain (mem_join_of_mem (plainName_area a) hz)
  have hm : (0 : UInt8) ∈ utf8 (pathOf root a name) := List.mem_flatMap.2 ⟨_,hp,by decide⟩
  exact absurd h.noNul (by simpa using hm)

theorem leads_iff (e : Disk) (q : Place) : e.LeadsTo (components root ++ [.name a.name]) q ↔
    e.find true (utf8 (directoryOf root a)) = .ok q ∧ e.entry? q = some .directory :=
  leadsTo_concat_iff (pathTo_directoryOf root a)
    (Nat.lt_of_le_of_lt (length_directoryOf_le root a h.plain) h.path)

/-- The path goes on leading to the directory if and only if the entry is not on the way. -/
theorem read_put_iff : StoreOnDisk.read (d.put (p ++ [utf8 name]) (.file content)) root a name =
    .ok (some content) ↔
      (d.erase (p ++ [utf8 name])).find true (utf8 (directoryOf root a)) = .ok p := by
  have hne : p ++ [utf8 name] ≠ [] := by simp
  have hself := entry?_put_self hne d (.file content)
  have hto := pathTo_pathOf root a h.plain
  obtain ⟨hf,hp⟩ := (h.leads_iff d p).1 h.leads
  rw [read_eq_ok_iff,readBytes_eq_ok_iff h.noNul]
  constructor
  · rintro ⟨q,hq,-⟩
    -- What leads to a directory does not go through the entry, nor did it before.
    obtain ⟨p',hp'⟩ := exists_leadsTo hto h.path hq
    obtain ⟨hf',hdir⟩ := (h.leads_iff _ p').1 hp'
    have he := find_erase (fun e he => ⟨content,Option.some.inj (he.symm.trans hself)⟩) hf' hdir
    rw [erase_put_self] at he
    have hback : (d.erase (p ++ [utf8 name])).Extends d := extends_of_erase hne (fun _ _ => rfl) rfl
    obtain rfl : p = p' := Except.ok.inj (hf.symm.trans (hback.find he))
    exact he
  · intro hfe
    have hext : (d.erase (p ++ [utf8 name])).Extends (d.put (p ++ [utf8 name]) (.file content)) :=
      extends_of_erase hne (fun q hq => entry?_put_other hq d _) rfl
    have hd := (h.leads_iff (d.put (p ++ [utf8 name]) (.file content)) p).2
      ⟨hext.find hfe,by rw [entry?_put_other (by simp),hp]⟩
    exact ⟨_,find_entry hto h.path hd h.short hself (by simp),hself⟩

theorem written (hk : d₀.Keeps d) (hd : (d₀.makeAll (upward (directoryOf root a))).1 = d) :
    Written d₀ root a name content p (d.put (p ++ [utf8 name]) (.file content)) where
  parent := by
    rw [hd]
    exact findParent_directory (pathTo_pathOf root a h.plain) h.path h.leads
  entry := entry?_put_self (by simp) d _
  files := by rw [files_put (by simp),hk.files]
  old q e hq he := by rw [entry?_put_other hq,hk.old q e he]
  read := by rw [h.read_put_iff,erase_put_self]
  noLink hl := by
    obtain ⟨hf,hp⟩ := (h.leads_iff d p).1 h.leads
    refine h.read_put_iff.2 (find_erase (fun e he => ?_) hf hp)
    cases e with
    | file c => exact ⟨c,rfl⟩
    | directory => exact absurd he h.free
    | link target => exact absurd ((hk.entry?_iff (by simp)).1 he) (hl target)

end Ready

theorem Ready.write (h : Ready d root a name p) (content : Bytes) :
    StoreOnDisk.write d root a name content = (d.put (p ++ [utf8 name]) (.file content),.ok ()) := by
  have hto := pathTo_pathOf root a h.plain
  have hmake : d.makeAll (upward (directoryOf root a)) = (d,.ok ()) := by
    have hlong := length_directory root a
    have hpath := Nat.lt_of_le_of_lt (length_directoryOf_le root a h.plain) h.path
    rw [upward_eq,components_directoryOf,ladder_concat,makeAll,
      makeOne_of_leadsTo (pathTo_written (plain_components root) (plainName_area a)) (by omega)
        (noNul_written (h.noNul_root) a) h.leads]
  obtain ⟨i,hi,he⟩ := h.unused
  obtain ⟨q,hq⟩ := temporaryPlace_of_room h.room hi he
  obtain ⟨-,hfree,j,-,rfl⟩ := temporaryPlace_ok hq
  have hpar := findParent_directory hto h.path (h.leads.extends (Extends.put hfree (.file content)))
  have hentry := entry?_put_file hfree h.free (c := content)
  simp only [StoreOnDisk.write,hmake,((h.leads_iff d p).1 h.leads).1,writeInto,hq,moveFile,h.noNul,hpar,
    Nat.not_lt.2 h.short,hto.noSlash,hentry,erase_put hfree,Bool.false_eq_true,if_false]

theorem written_of_write (hn : '/' ∉ name) (h : StoreOnDisk.write d root a name content = (d',.ok ())) :
    ∃ p, Written d root a name content p d' := by
  have hk := keeps_makeAll d (upward (directoryOf root a))
  rw [StoreOnDisk.write] at h
  split at h
  · cases h
  · rename_i d₁ hm
    rw [hm] at hk
    split at h
    · cases h
    · rename_i p hf
      rw [writeInto] at h
      split at h
      · cases h
      · rename_i q hq
        split at h
        · rename_i d₂ hmove
          cases h
          obtain ⟨hr,rfl⟩ := ready_of_moved hn hf hq hmove
          exact ⟨p,hr.written hk (by rw [hm])⟩
        · cases h

end

/-- A disk on which the path `x/prompts/l` goes back to `x` through a link. -/
def roundabout : Disk where
  entries := [([utf8 ['x'],utf8 "prompts".toList,utf8 ['l']],.link dotDotName),
    ([utf8 ['x'],utf8 "prompts".toList],.directory),([utf8 ['x']],.directory)]
  current := []

theorem find_roundabout {d : Disk} (hd : d.current = []) :
    d.find true (utf8 (directoryOf "x/prompts/l".toList .prompts)) = d.walk true maxLinks []
      [utf8 ['x'],utf8 "prompts".toList,utf8 ['l'],utf8 "prompts".toList] := by
  have hc : check (utf8 (directoryOf "x/prompts/l".toList .prompts)) = .ok () := by decide +kernel
  have ha : isAbsolute (utf8 (directoryOf "x/prompts/l".toList .prompts)) = false := by decide +kernel
  have hs : steps (utf8 (directoryOf "x/prompts/l".toList .prompts)) =
    [utf8 ['x'],utf8 "prompts".toList,utf8 ['l'],utf8 "prompts".toList] := by decide +kernel
  rw [find,hc,start,ha,hs,hd]
  rfl

theorem isName_roundabout : IsName (utf8 ['x']) ∧ IsName (utf8 "prompts".toList) ∧ IsName (utf8 ['l']) :=
  ⟨⟨by decide,by decide,by decide⟩,⟨by decide,by decide,by decide⟩,⟨by decide,by decide,by decide⟩⟩

theorem ready_roundabout {name : Text} (hn : FlatName name) (hs : (utf8 name).length ≤ maxName) :
    Ready roundabout "x/prompts/l".toList .prompts name [utf8 ['x'],utf8 "prompts".toList] := by
  obtain ⟨hx,hp,hl⟩ := isName_roundabout
  have hdx : roundabout.entry? [utf8 ['x']] = some .directory := by decide
  have hdp : roundabout.entry? [utf8 ['x'],utf8 "prompts".toList] = some .directory := by decide
  have hdl : roundabout.entry? [utf8 ['x'],utf8 "prompts".toList,utf8 ['l']] =
    some (.link dotDotName) := by decide
  have hf : roundabout.find true (utf8 (directoryOf "x/prompts/l".toList .prompts)) =
      .ok [utf8 ['x'],utf8 "prompts".toList] := by
    rw [find_roundabout rfl,walk_entry _ (entry?_nil _) hx hdx (by simp)]
    refine (walk_entry _ hdx hp hdp (by simp)).trans ?_
    refine (walk_link _ hdp hl hdl).trans ?_
    refine (walk_dotDot _ hdp).trans ?_
    refine (walk_entry _ hdx hp hdp (by simp)).trans ?_
    rw [walk]
    rfl
  have hbase : (utf8 (directoryOf "x/prompts/l".toList .prompts)).length = 19 := by decide +kernel
  have hlen := (length_join (directoryOf "x/prompts/l".toList .prompts) hn.toPlainName).2
  have hlong : maxName + 20 < pathLimit := by decide
  have hlimit : (utf8 (directoryOf "x/prompts/l".toList .prompts)).length < pathLimit := by omega
  refine ⟨hn.toPlainName,contains_zero (noNul_pathOf (by decide) _ hn.noNul),hs,?_,
    (leadsTo_concat_iff (pathTo_directoryOf _ _) hlimit).2 ⟨hf,hdp⟩,fun he => ?_,by decide +kernel,
    0,by decide,by decide +kernel⟩
  · rw [pathOf]
    omega
  · have hm := mem_entries (by simp) he
    simp [roundabout] at hm

/-- Whatever fails, on the disk or for other reasons, the files and links are those that were there, and
directories are not lost. If nothing does, one entry has been written and all other files and links are
those that were there; the entry is what is read, unless there was a link at its place and the path of
the area went through that. Nothing fails where the directory is there and nothing is against the
entry. -/
theorem write_allOrNothing (h : Option (Hitch × Text)) (d : Disk) (root : Text) (a : Area) {name : Text}
    (hn : '/' ∉ name) (content : Bytes) : ∃ d' r, writeDespite h d root a name content = (d',r) ∧
      (∀ reason, r = .error reason → d.Keeps d') ∧
      (r = .ok () → h = none ∧ ∃ p, Written d root a name content p d') ∧
      (h = none → ∀ p, Ready d root a name p → r = .ok ()) := by
  refine ⟨_,_,rfl,fun reason hr => keeps_writeDespite (Prod.ext rfl hr),fun hr => ?_,?_⟩
  · obtain rfl := eq_none_of_ok hr
    exact ⟨rfl,written_of_write hn (Prod.ext rfl hr)⟩
  · rintro rfl p hp
    exact congrArg Prod.snd (hp.write content)

theorem write_besideLink : '/' ∉ ['m'] ∧ ∃ p d',
    StoreOnDisk.write roundabout "x/prompts/l".toList .prompts ['m'] [98] = (d',.ok ()) ∧
    Written roundabout "x/prompts/l".toList .prompts ['m'] [98] p d' ∧
      StoreOnDisk.read d' "x/prompts/l".toList .prompts ['m'] = .ok (some [98]) := by
  have hn : '/' ∉ ['m'] := by decide
  have hentry := ready_roundabout (show FlatName ['m'] by decide) (by decide)
  obtain ⟨d',r,hd,-,hok,hready⟩ :=
    write_allOrNothing none roundabout "x/prompts/l".toList .prompts hn [98]
  obtain rfl := hready rfl _ hentry
  obtain ⟨-,p,hp⟩ := hok rfl
  refine ⟨hn,p,d',hd,hp,hp.noLink fun target ht => ?_⟩
  -- No link has that name.
  have hm := mem_entries (by simp) ht
  simp only [roundabout,List.mem_cons,Prod.mk.injEq,reduceCtorEq,and_false,List.not_mem_nil,
    or_false] at hm
  have hl := congrArg List.getLast? hm.1
  rw [List.getLast?_concat] at hl
  exact absurd hl (by decide)

/-- The entry is written over the link, so that its path stops there afterwards. -/
theorem write_overLink : '/' ∉ ['l'] ∧ ∃ d',
    StoreOnDisk.write roundabout "x/prompts/l".toList .prompts ['l'] [98] = (d',.ok ()) ∧
      StoreOnDisk.read d' "x/prompts/l".toList .prompts ['l'] ≠ .ok (some [98]) := by
  have h := ready_roundabout (show FlatName ['l'] by decide) (by decide)
  refine ⟨by decide,_,h.write [98],fun hr => ?_⟩
  have hf := h.read_put_iff.1 hr
  obtain ⟨hx,hp,hl⟩ := isName_roundabout
  generalize hd : roundabout.erase ([utf8 ['x'],utf8 "prompts".toList] ++ [utf8 ['l']]) = d at hf
  have hdx : d.entry? [utf8 ['x']] = some .directory := by
    rw [← hd]
    decide
  have hdp : d.entry? [utf8 ['x'],utf8 "prompts".toList] = some .directory := by
    rw [← hd]
    decide
  have hmissing : d.entry? [utf8 ['x'],utf8 "prompts".toList,utf8 ['l']] = none := by
    rw [← hd]
    decide
  rw [find_roundabout (by rw [← hd]; rfl),walk_entry _ (entry?_nil _) hx hdx (by simp)] at hf
  have hp := (walk_entry _ hdx hp hdp (by simp)).symm.trans hf
  cases (walk_missing _ hdp hl hmissing).symm.trans hp

end StoreOnDisk
end Workbench
