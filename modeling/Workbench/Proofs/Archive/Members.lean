import Workbench.Archive.Package
import Workbench.Proofs.Archive.Header
set_option autoImplicit false

/-!
Members: what is written for a file is read back as that file, whatever follows it. A reader stands
in front of the zeros that fill the block of the content before.
-/
namespace Workbench.Archive.Tar
open Text

def gap (content : Bytes) : Nat := padded content.length-content.length

theorem padded_ge (n : Nat) : n ≤ padded n := by
  simp only [padded,blockSize]; omega

theorem blocked_eq (bs : Bytes) : blocked bs = bs ++ zeros (gap bs) := rfl

theorem length_blocked (bs : Bytes) : (blocked bs).length = padded bs.length := by
  have := padded_ge bs.length
  simp only [blocked_eq,List.length_append,length_zeros,gap]; omega

theorem skipBytes_zeros (k : Nat) (tail : Bytes) (e : Ending) :
    skipBytes k ⟨zeros k ++ tail,e⟩ = .ok ⟨tail,e⟩ := by
  have hd : (zeros k ++ tail).drop k = tail := by
    have hk := length_zeros k
    rw [List.drop_append_of_le_length (by omega),List.drop_of_length_le (by omega),List.nil_append]
  simp [skipBytes,length_zeros,hd]

theorem nextBlock_append {block tail : Bytes} (h : block.length = blockSize) (e : Ending) :
    nextBlock ⟨block ++ tail,e⟩ = .ok (some (block,⟨tail,e⟩)) := by
  have ht : (block ++ tail).take blockSize = block := by rw [← h]; simp
  have hd : (block ++ tail).drop blockSize = tail := by rw [← h]; simp
  simp [nextBlock,ht,hd,h]

section
variable {name ids : Bytes} {size k p : Nat} {kind : UInt8} {tail : Bytes} {e : Ending}

theorem nextEntry_make (h : ids.length = 16) (hp : p+512+padded size < sizeLimit) :
    nextEntry none ⟨⟨zeros k ++ ((Header.make name ids size kind).block ++ tail),e⟩,k,p⟩ =
      .ok (some ((Header.make name ids size kind,size),
        ⟨⟨tail,e⟩,padded size,p+512+padded size⟩)) := by
  have hs : ¬ (sizeLimit ≤ size+511 ∨ sizeLimit ≤ p+blockSize+padded size) := by
    have := padded_ge size
    simp only [blockSize]; omega
  have hz : size < sizeLimit := by omega
  have hb : nextBlock ⟨(Header.make name ids size kind).block ++ tail,e⟩ =
      .ok (some ((Header.make name ids size kind).block,⟨tail,e⟩)) :=
    nextBlock_append (Header.length_make h) e
  simp only [nextEntry,skipBytes_zeros,bind,Except.bind,hb,Header.make_not_zero,Bool.false_eq_true,
    if_false,Header.readNumber_checksum h,Header.make_sum h,ne_eq,not_true_eq_false,
    Header.readNumber_size h hz,Option.map_none,Option.bind_none,Option.getD_none,hs]
  rfl

theorem nextEntry_ending :
    nextEntry none ⟨⟨zeros k ++ (ending ++ tail),e⟩,k,p⟩ = .ok none := by
  have hb : nextBlock ⟨zeros blockSize ++ (zeros blockSize ++ tail),e⟩ =
      .ok (some (zeros blockSize,⟨zeros blockSize ++ tail,e⟩)) :=
    nextBlock_append (length_zeros _) e
  have he : ending ++ tail = zeros blockSize ++ (zeros blockSize ++ tail) := by
    rw [ending,← List.append_assoc,zeros,zeros,List.replicate_append_replicate,Nat.two_mul]
  have hz : (zeros blockSize).all (· = 0) = true := by simp [zeros]
  simp only [nextEntry,skipBytes_zeros,bind,Except.bind,he,hb,hz]
  rfl

theorem readContent_blocked (content : Bytes) :
    readContent content.length ⟨⟨blocked content ++ tail,e⟩,padded content.length,p⟩ =
      .ok (content,⟨⟨zeros (gap content) ++ tail,e⟩,
        gap content,p⟩) := by
  have ht : (blocked content ++ tail).take content.length = content := by
    rw [blocked_eq,List.append_assoc]; simp
  have hd : (blocked content ++ tail).drop content.length
      = zeros (gap content) ++ tail := by
    rw [blocked_eq,List.append_assoc]; simp
  simp [readContent,ht,hd,gap]

theorem length_noOwner : (octal 8 0 ++ octal 8 0).length = 16 := by
  rw [List.length_append,length_octal (by omega) (by omega)]

theorem length_longNameMember (path : Text) :
    (longNameMember path).length = 512+padded (utf8 path ++ [0]).length := by
  rw [longNameMember,List.length_append,Header.length_make length_noOwner,length_blocked]

theorem length_fileMember (name content : Bytes) :
    (fileMember name content).length = 512+padded content.length := by
  rw [fileMember,List.length_append,Header.length_make (length_zeros 16),length_blocked]

theorem filesFrom_longName {path : Text} {fuel : Nat} {files : FileSet}
    (hp : p+(longNameMember path).length < sizeLimit) :
    filesFrom (fuel+1) .nothing ⟨⟨zeros k ++ (longNameMember path ++ tail),e⟩,k,p⟩ files =
      filesFrom fuel ⟨some (utf8 path ++ [0]),false,none⟩
        ⟨⟨zeros (gap (utf8 path ++ [0])) ++ tail,e⟩,
          gap (utf8 path ++ [0]),
          p+(longNameMember path).length⟩ files := by
  have hi := length_noOwner
  rw [length_longNameMember,← Nat.add_assoc] at hp ⊢
  rw [longNameMember,List.append_assoc,filesFrom]
  simp only [Ahead.nothing,nextEntry_make hi hp,Header.make_isGnu hi,Header.make_kind hi,
    Bool.true_or,Bool.true_and,longNameKind,beq_self_eq_true,if_true,Option.isSome_none,
    Bool.false_eq_true,if_false,readContent_blocked]

theorem fileKind_eq : (fileKind == 76) = false ∧ (fileKind == 75) = false ∧
    (fileKind == 120) = false ∧ (fileKind = 83) = False ∧ (fileKind == 0) = true := by
  simp [fileKind]

theorem filesFrom_fileMember {a : Ahead} {content : Text} {fuel : Nat} {files : FileSet}
    (ha : a.pax = none) (hp : p+(fileMember name (utf8 content)).length < sizeLimit) :
    filesFrom (fuel+1) a ⟨⟨zeros k ++ (fileMember name (utf8 content) ++ tail),e⟩,k,p⟩ files =
      filesFrom fuel .nothing
        ⟨⟨zeros (gap (utf8 content)) ++ tail,e⟩,
          gap (utf8 content),
          p+(fileMember name (utf8 content)).length⟩
        (files.insert (a.path (Header.make name (zeros 16) (utf8 content).length fileKind))
          content) := by
  have hi : (zeros 16).length = 16 := length_zeros 16
  rw [length_fileMember,← Nat.add_assoc] at hp ⊢
  rw [fileMember,List.append_assoc,filesFrom]
  simp only [ha,nextEntry_make hi hp,Header.make_kind hi,fileKind_eq,Bool.and_false,
    Bool.false_eq_true,if_false,isFile,Bool.true_or,if_true,readFile,readContent_blocked,
    utf8Decode?_utf8]

end

theorem path_longName (path : Text) (h : Header) :
    Ahead.path ⟨some (utf8 path ++ [0]),false,none⟩ h = path := by
  have hd : dropFinalZero (utf8 path ++ [0]) = utf8 path := by simp [dropFinalZero]
  simp only [Ahead.path,hd,utf8Lossy_utf8]

theorem nameField_of_not_nul {path : Text} (h : '\x00' ∉ path) :
    nameField path = .ok (utf8 path) := by
  have hb : beforeNul? path = none := by simp [beforeNul?,h]
  rw [nameField,hb]

theorem not_nul_of_nameField {path : Text} {name : Bytes} (h : nameField path = .ok name) :
    '\x00' ∉ path ∧ name = utf8 path := by
  by_cases hn : '\x00' ∈ path
  · simp [nameField,beforeNul?,hn] at h
  · rw [nameField_of_not_nul hn] at h
    exact ⟨hn,(Except.ok.inj h).symm⟩

theorem cutTo_of_le {width : Nat} {t : Text} (h : (utf8 t).length ≤ width) : cutTo width t = t := by
  induction t generalizing width with
  | nil => rfl
  | cons c t ih =>
    rw [utf8_cons,List.length_append,length_utf8Char] at h
    rw [cutTo,if_pos (by omega),ih (by omega)]

theorem mem_cutTo {width : Nat} {t : Text} {c : Char} (h : c ∈ cutTo width t) : c ∈ t := by
  induction t generalizing width with
  | nil => exact h
  | cons d t ih =>
    simp only [cutTo] at h
    split at h
    · rcases List.mem_cons.1 h with rfl | h
      · exact List.mem_cons_self
      · exact List.mem_cons_of_mem _ (ih h)
    · simp at h

theorem mem_of_before? {k t r : Text} {c : Char} (h : before? k t = some r) :
    c ∈ t ↔ c ∈ r ∨ c ∈ k := by
  obtain ⟨s,hs,rfl⟩ := Option.map_eq_some_iff.1 h
  have e := after?_eq_some_iff.1 hs
  rw [← List.mem_reverse,e]
  simp [or_comm]

theorem nul_mem_shortened {path : Text} :
    '\x00' ∈ shortened path ↔ '\x00' ∈ cutTo nameWidth path := by
  simp only [shortened]
  cases hb : before? ['/','.'] (cutTo nameWidth path) with
  | none => rfl
  | some t => simp [mem_of_before? hb]

theorem member_of_not_nul {path : Text} (h : '\x00' ∉ path) (content : Text) :
    member path content = .ok (if utf8Length path ≤ nameWidth then fileMember (utf8 path) (utf8 content)
      else longNameMember path ++ fileMember (utf8 (shortened path)) (utf8 content)) := by
  have hb : beforeNul? path = none := by simp [beforeNul?,h]
  have hs : '\x00' ∉ shortened path := fun hc => h (mem_cutTo (nul_mem_shortened.1 hc))
  by_cases hn : utf8Length path ≤ nameWidth
  · simp [member,hn,hb,nameField_of_not_nul h,Except.map]
  · simp [member,hn,nameField_of_not_nul hs,Except.map]

theorem map_eq_ok {ε α β : Type} {f : α → β} {x : Except ε α} {b : β} (h : x.map f = .ok b) :
    ∃ a, x = .ok a ∧ b = f a := by
  cases x with
  | error e => simp [Except.map] at h
  | ok a => exact ⟨a,rfl,(Except.ok.inj h).symm⟩

theorem member_eq_ok {path content : Text} {bs : Bytes} (h : member path content = .ok bs) :
    utf8Length path ≤ nameWidth ∧ '\x00' ∉ path ∧ bs = fileMember (utf8 path) (utf8 content) ∨
    nameWidth < utf8Length path ∧
      ∃ name, bs = longNameMember path ++ fileMember name (utf8 content) := by
  simp only [member] at h
  split at h
  · rename_i hn
    obtain ⟨name,hf,hb⟩ := map_eq_ok h
    obtain ⟨hz,rfl⟩ := not_nul_of_nameField hf
    exact .inl ⟨hn.1,hz,hb⟩
  · rename_i hn
    obtain ⟨name,hf,hb⟩ := map_eq_ok h
    have hz := (not_nul_of_nameField hf).1
    refine .inr ⟨Nat.lt_of_not_le fun hle => hn ⟨hle,.inr ?_⟩,name,hb⟩
    -- nothing is cut off a name that fits, so its zero character would be in the field
    rw [nul_mem_shortened,cutTo_of_le (by rw [length_utf8]; exact hle)] at hz
    simp [beforeNul?,hz]

theorem filesFrom_member {path content : Text} {bs : Bytes} (h : member path content = .ok bs) :
    ∃ steps, 0 < steps ∧ steps*512 ≤ bs.length ∧
      ∀ fuel k p tail e files, p+bs.length < sizeLimit →
        filesFrom (fuel+steps) .nothing ⟨⟨zeros k ++ (bs ++ tail),e⟩,k,p⟩ files =
          filesFrom fuel .nothing ⟨⟨zeros (gap (utf8 content)) ++ tail,e⟩,gap (utf8 content),
            p+bs.length⟩ (files.insert path content) := by
  rcases member_eq_ok h with ⟨hn,hz,rfl⟩ | ⟨-,name,rfl⟩
  · refine ⟨1,by omega,by rw [length_fileMember]; omega,?_⟩
    intro fuel k p tail e files hp
    have hl : (utf8 path).length ≤ 100 := by rw [length_utf8]; exact hn
    have ha : Ahead.path .nothing
        (Header.make (utf8 path) (zeros 16) (utf8 content).length fileKind) = path := by
      simp only [Ahead.path,Ahead.nothing,Option.map_none,Option.bind_none,
        Header.make_path (length_zeros 16) hl (zero_not_mem_utf8 hz),utf8Lossy_utf8]
    rw [filesFrom_fileMember rfl hp,ha]
  · refine ⟨2,by omega,by
      rw [List.length_append,length_longNameMember,length_fileMember]; omega,?_⟩
    intro fuel k p tail e files hp
    rw [List.length_append,← Nat.add_assoc] at hp
    rw [List.append_assoc,filesFrom_longName (by omega),filesFrom_fileMember rfl hp,path_longName,
      List.length_append,Nat.add_assoc p]

theorem filesFrom_ending {k p fuel : Nat} {e : Ending} {files : FileSet} :
    filesFrom (fuel+1) .nothing ⟨⟨zeros k ++ ending,e⟩,k,p⟩ files = .ok files := by
  have h : nextEntry none ⟨⟨zeros k ++ (ending ++ []),e⟩,k,p⟩ = .ok none := nextEntry_ending
  rw [List.append_nil] at h
  simp only [filesFrom,Ahead.nothing,h,if_true]

end Workbench.Archive.Tar

namespace Workbench.Archive
open Text Tar

theorem entryOf_eq_ok {path content : Text} {bs : Bytes} (h : entryOf path content = .ok bs) :
    isPlain path = true ∧ Tar.member path content = .ok bs := by
  unfold entryOf at h
  split at h
  · simp at h
  · rename_i hp
    split at h
    · rename_i hm
      exact ⟨by simpa using hp,by rw [hm]; simpa using h⟩
    · simp at h

theorem members_cons {path content : Text} {rest : List (Text × Text)} {bs : Bytes}
    (h : members ((path,content) :: rest) = .ok bs) : ∃ front back,
      entryOf path content = .ok front ∧ members rest = .ok back ∧ bs = front ++ back := by
  unfold members at h
  cases he : entryOf path content with
  | error f => simp [he] at h
  | ok front =>
    cases hr : members rest with
    | error f => simp [he,hr,Except.map] at h
    | ok back =>
      simp only [he,hr,Except.map,Except.ok.injEq] at h
      exact ⟨front,back,rfl,rfl,h.symm⟩

/-- Reading puts the entries to the files known, one after another. The fuel counts the blocks
that are left, and `k` zeros stand in front. -/
theorem filesFrom_members {entries : List (Text × Text)} {bs : Bytes}
    (h : members entries = .ok bs) (fuel k p : Nat) (e : Ending)
    (files : FileSet) (hf : bs.length+512 ≤ 512*fuel) (hp : p+bs.length < sizeLimit) :
    filesFrom fuel .nothing ⟨⟨zeros k ++ (bs ++ ending),e⟩,k,p⟩ files =
      .ok (entries.foldl (fun d f => d.insert f.1 f.2) files) := by
  induction entries generalizing bs fuel k p files with
  | nil =>
    cases h
    obtain ⟨n,rfl⟩ := Nat.exists_eq_succ_of_ne_zero (show fuel ≠ 0 by omega)
    exact filesFrom_ending
  | cons f entries ih =>
    obtain ⟨path,content⟩ := f
    obtain ⟨front,back,he,hr,rfl⟩ := members_cons h
    obtain ⟨steps,h₁,h₂,hstep⟩ := filesFrom_member (entryOf_eq_ok he).2
    rw [List.length_append] at hf hp
    obtain ⟨n,rfl⟩ := Nat.exists_eq_add_of_le' (show steps ≤ fuel by omega)
    rw [List.append_assoc,hstep _ _ _ _ _ _ (by omega)]
    exact ih hr _ _ _ _ (by omega) (by omega)

end Workbench.Archive
