import Workbench.Proofs.Archive.Members
import Workbench.Proofs.Dictionary
import Workbench.Proofs.Text.Lines
set_option autoImplicit false

/-!
Packing a set of files and unpacking it again. A set can be packed if its paths are plain, and
what comes back is the set itself.
-/
namespace Workbench.Archive
open Text Tar

/-- Names between slashes, each of which is there and does not lead here or up. -/
def Plain (path : Text) : Prop :=
  ¬ allBlank path = true ∧ ∃ names, path = joinWith ['/'] names ∧
    ∀ n ∈ names, '/' ∉ n ∧ n ≠ [] ∧ n ≠ ['.'] ∧ n ≠ ['.','.']

theorem isIrregular_eq_false {n : Text} :
    isIrregular n = false ↔ n ≠ [] ∧ n ≠ ['.'] ∧ n ≠ ['.','.'] := by
  simp [isIrregular,and_assoc]

theorem isPlain_iff {path : Text} : isPlain path = true ↔ Plain path := by
  simp only [isPlain,Bool.and_eq_true,Bool.not_eq_true',List.any_eq_false,Bool.not_eq_true,
    isIrregular_eq_false,Plain]
  refine and_congr_right fun hb => ⟨fun h => ?_,?_⟩
  · exact ⟨splitOn '/' path,(joinWith_splitOn path).symm,
      fun n hn => ⟨not_mem_of_mem_splitOn hn,h n hn⟩⟩
  · rintro ⟨names,rfl,h⟩ n hn
    have hne : names ≠ [] := by
      rintro rfl
      simp [joinWith,allBlank] at hb
    rw [splitOn_joinWith hne fun m hm => (h m hm).1] at hn
    exact (h n hn).2

/-- A header and the blocks of the content, behind those of the path if it is long. -/
def memberLength (path content : Text) : Nat :=
  (if utf8Length path ≤ nameWidth then 0 else blockSize + padded (utf8Length path + 1)) +
    (blockSize + padded (utf8Length content))

/-- How long the members of a set of files are, with the two blocks behind them. -/
def streamLength (files : FileSet) : Nat :=
  (files.entries.map fun f => memberLength f.1 f.2).sum + 2*blockSize

theorem members_eq_ok_iff {entries : List (Text × Text)} (hn : ∀ f ∈ entries, '\x00' ∉ f.1) :
    (∃ bs, members entries = .ok bs) ↔ ∀ f ∈ entries, Plain f.1 := by
  induction entries with
  | nil => simp [members]
  | cons f entries ih =>
    obtain ⟨path,content⟩ := f
    have ih := ih fun f hf => hn f (List.mem_cons_of_mem _ hf)
    rw [List.forall_mem_cons,← ih,← isPlain_iff]
    constructor
    · rintro ⟨bs,h⟩
      obtain ⟨front,back,he,hr,-⟩ := members_cons h
      exact ⟨(entryOf_eq_ok he).1,back,hr⟩
    · rintro ⟨hp,back,hr⟩
      have hm := member_of_not_nul (hn _ List.mem_cons_self) content
      exact ⟨_,by simp only [members,entryOf,hp,Bool.not_true,Bool.false_eq_true,if_false,hm,hr]; rfl⟩

theorem length_members {entries : List (Text × Text)} {bs : Bytes} (h : members entries = .ok bs) :
    bs.length = (entries.map fun f => memberLength f.1 f.2).sum := by
  induction entries generalizing bs with
  | nil => cases h; rfl
  | cons f entries ih =>
    obtain ⟨path,content⟩ := f
    obtain ⟨front,back,he,hr,rfl⟩ := members_cons h
    have hf : front.length = memberLength path content := by
      rcases member_eq_ok (entryOf_eq_ok he).2 with ⟨hw,-,rfl⟩ | ⟨hw,name,rfl⟩
      · simp [memberLength,hw,length_fileMember,length_utf8,blockSize]
      · simp [memberLength,Nat.not_le.2 hw,length_fileMember,length_longNameMember,length_utf8,
          blockSize]
    simp [hf,ih hr]

theorem files_tarOf {files : FileSet} {tar : Bytes} (h : tarOf files = .ok tar)
    (hl : streamLength files < sizeLimit) (e : Ending) : Tar.files ⟨tar,e⟩ = .ok files := by
  obtain ⟨bs,hm,rfl⟩ := map_eq_ok h
  rw [streamLength,← length_members hm] at hl
  have hr := filesFrom_members hm ((bs ++ ending).length/blockSize+2) 0 0 e .empty
    (by simp only [List.length_append,ending,length_zeros,blockSize]; omega) (by omega)
  rw [Tar.files]
  exact hr.trans (congrArg _ (Dictionary.ofList_entries files))

theorem decode_of_encode [Compressor] [Lossless] {files : FileSet} {bs : Bytes}
    (h : encode files = .ok bs) (hl : streamLength files < sizeLimit) : decode bs = .ok files := by
  obtain ⟨tar,ht,rfl⟩ := map_eq_ok h
  have hs : expand (Compressor.press tar) = ⟨tar,(expand (Compressor.press tar)).ending⟩ := by
    rw [Stream.mk.injEq]
    exact ⟨Lossless.left_press tar,rfl⟩
  rw [decode,hs,files_tarOf ht hl]

/-- A set of files whose stream has a length of 64 bits can be packed if and only if its paths are
plain, zero characters in them left aside. What was packed is unpacked as it was, by whatever
compressor the stream went. -/
theorem decode_encode (files : FileSet) (hl : streamLength files < sizeLimit) :
    ((∀ f ∈ files.entries, '\x00' ∉ f.1) →
      ((∃ bs, encode files = .ok bs) ↔ ∀ f ∈ files.entries, Plain f.1)) ∧
    (∀ bs, encode files = .ok bs → decode bs = .ok files) ∧
    ∀ tar bs, tarOf files = .ok tar → (expand bs).left = tar → decode bs = .ok files := by
  refine ⟨fun hn => ?_,fun bs h => decode_of_encode h hl,?_⟩
  · rw [← members_eq_ok_iff hn]
    simp only [encode,tarOf]
    cases members files.entries <;> simp [Except.map]
  · rintro tar bs h rfl
    exact files_tarOf h hl (expand bs).ending

def deepFiles : FileSet :=
  .ofList [(List.replicate 99 'a' ++ "é/..b".toList,List.replicate 512 'x'),("e".toList,[])]

theorem decode_encode_deepFiles :
    ((∀ f ∈ deepFiles.entries, '\x00' ∉ f.1) ∧ streamLength deepFiles < sizeLimit) ∧
    (∀ f ∈ deepFiles.entries, Plain f.1) ∧
    ∃ bs, encode deepFiles = .ok bs ∧ decode bs = .ok deepFiles := by
  have hn : ∀ f ∈ deepFiles.entries, '\x00' ∉ f.1 := by decide +kernel
  have hl : streamLength deepFiles < sizeLimit := by decide +kernel
  have hi : ∀ f ∈ deepFiles.entries, isPlain f.1 = true := by decide +kernel
  have hp : ∀ f ∈ deepFiles.entries, Plain f.1 := fun f hf => isPlain_iff.1 (hi f hf)
  obtain ⟨he,hd,-⟩ := decode_encode deepFiles hl
  obtain ⟨bs,hb⟩ := (he hn).2 hp
  exact ⟨⟨hn,hl⟩,hp,bs,hb,hd bs hb⟩

end Workbench.Archive
