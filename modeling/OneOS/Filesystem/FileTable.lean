import Mathlib.Data.List.Nodup
import OneOS.Foundation.Runs
import OneOS.Foundation.Table

/-!
# The file table and its inodes

`fs/filesystem_core.c`. The filesystem is a table of file entries; a file is created at the end of
the table, and a deletion shifts the entries behind it down. Times are inputs of the calls that read
the clock, and a pointer argument that is only compared with `NULL` is a flag. A name is the list of
its bytes. The mount point and the field `max_entries`, which no operation reads, are left out, and
so are the checks of the filesystem pointer.

The inode of a new file is the number of entries plus one, and deletion lowers that number, so an
inode can be given out while an older file still has it. `InodesIdentifyFiles` collects what callers
rely on: inodes are distinct, a creation hands out an inode under which the new file is found, a
deletion and a write act on the file with that inode and on no other, and an inode keeps naming the
same file until it is deleted. `inodesIdentifyFiles_iff` shows that all of it holds along a run
exactly when every file is created with an inode that no existing file has, and
`inode_given_to_two_files` is the shortest run in which one has.
-/

set_option autoImplicit false
set_option relaxedAutoImplicit false

namespace OneOS.Filesystem.FileTable

open Foundation

/-! ### The filesystem -/

/-- `MAX_FILES`. -/
def maxFiles : ℕ := 10000

/-- `MAX_FILENAME`. -/
def maxFilename : ℕ := 256

/-- `FileType`, in the order of the source. -/
inductive FileType
  | file
  | dir
  | symlink
  | device
  deriving DecidableEq, Repr

/-- `FileEntry`. -/
structure FileEntry where
  inode : UInt32
  name : List UInt8
  type : FileType
  permissions : UInt32
  ownerUid : UInt32
  ownerGid : UInt32
  size : UInt64
  createdTime : Int
  modifiedTime : Int
  accessedTime : Int
  linkCount : UInt32
  deriving DecidableEq, Repr

/-- `FileSystem`, with the used rows `entries[0 .. entry_count)` as a list. -/
structure FileSystem where
  entries : List FileEntry
  deriving DecidableEq, Repr

/-- `filesystem_init`. -/
def filesystemInit : FileSystem where
  entries := []

/-- The inode that the next creation hands out: the number of entries plus one. -/
def FileSystem.nextInode (fs : FileSystem) : UInt32 :=
  UInt32.ofNat fs.entries.length + 1

/-- The entry that `filesystem_create_file` writes. `strncpy` keeps the first 255 bytes of the
name, and the clock is read three times. -/
def FileSystem.newEntry (fs : FileSystem) (name : List UInt8) (type : FileType)
    (permissions : UInt32) (created modified accessed : Int) : FileEntry where
  inode := fs.nextInode
  name := name.take (maxFilename - 1)
  type := type
  permissions := permissions
  ownerUid := 0
  ownerGid := 0
  size := 0
  createdTime := created
  modifiedTime := modified
  accessedTime := accessed
  linkCount := 1

/-- `filesystem_create_file`, returning the inode or `0`. A name of `none` is `NULL`. -/
def filesystemCreateFile (fs : FileSystem) (name : Option (List UInt8)) (type : FileType)
    (permissions : UInt32) (created modified accessed : Int) : FileSystem × UInt32 :=
  if maxFiles ≤ fs.entries.length then (fs, 0)
  else
    match name with
    | none => (fs, 0)
    | some name =>
      let entry := fs.newEntry name type permissions created modified accessed
      ({ fs with entries := fs.entries ++ [entry] }, entry.inode)

/-- The test of the loop that looks a file up by its inode. -/
def hasInode (inode : UInt32) (entry : FileEntry) : Bool :=
  entry.inode == inode

/-- `filesystem_delete_file`: the first entry with the inode is removed and those behind it shift
down. -/
def filesystemDeleteFile (fs : FileSystem) (inode : UInt32) : FileSystem × Int :=
  if fs.entries.any (hasInode inode) then
    ({ fs with entries := fs.entries.eraseP (hasInode inode) }, 0)
  else (fs, -1)

/-- The test of the loops of `filesystem_write_file` and `filesystem_read_file`: a regular file
with the inode. -/
def isFileWithInode (inode : UInt32) (entry : FileEntry) : Bool :=
  hasInode inode entry && entry.type == .file

/-- The effect of `filesystem_write_file` on the entry found. -/
def FileEntry.write (size : UInt64) (now : Int) (entry : FileEntry) : FileEntry :=
  { entry with size := entry.size + size, modifiedTime := now }

/-- `filesystem_write_file`; `hasData` says that `data` is not `NULL`. -/
def filesystemWriteFile (fs : FileSystem) (inode : UInt32) (hasData : Bool) (size : UInt64)
    (now : Int) : FileSystem × Int :=
  if hasData = false ∨ size = 0 then (fs, -1)
  else if fs.entries.any (isFileWithInode inode) then
    ({ fs with
      entries := updateFirst (isFileWithInode inode) (FileEntry.write size now) fs.entries }, 0)
  else (fs, -1)

/-- `filesystem_read_file`; `hasBuffer` says that `buffer` is not `NULL`. The size is returned as
an `int`. -/
def filesystemReadFile (fs : FileSystem) (inode : UInt32) (hasBuffer : Bool) (size : UInt64)
    (now : Int) : FileSystem × Int :=
  if hasBuffer = false ∨ size = 0 then (fs, -1)
  else
    match fs.entries.find? (isFileWithInode inode) with
    | none => (fs, -1)
    | some entry =>
      ({ fs with
        entries := updateFirst (isFileWithInode inode) ({ · with accessedTime := now })
          fs.entries }, entry.size.toUInt32.toInt32.toInt)

/-! ### Runs -/

/-- A call on the filesystem, with the times it reads. -/
inductive FsCall
  | createFile (name : Option (List UInt8)) (type : FileType) (permissions : UInt32)
    (created modified accessed : Int)
  | deleteFile (inode : UInt32)
  | writeFile (inode : UInt32) (hasData : Bool) (size : UInt64) (now : Int)
  | readFile (inode : UInt32) (hasBuffer : Bool) (size : UInt64) (now : Int)

/-- The filesystem after a call. -/
def fsStep (fs : FileSystem) : FsCall → FileSystem
  | .createFile name type permissions created modified accessed =>
    (filesystemCreateFile fs name type permissions created modified accessed).1
  | .deleteFile inode => (filesystemDeleteFile fs inode).1
  | .writeFile inode hasData size now => (filesystemWriteFile fs inode hasData size now).1
  | .readFile inode hasBuffer size now => (filesystemReadFile fs inode hasBuffer size now).1

/-! ### Inodes identify files -/

/-- The inodes of the existing entries are pairwise distinct. -/
def InodesDistinct (fs : FileSystem) : Prop :=
  (fs.entries.map FileEntry.inode).Nodup

/-- A creation that succeeds puts the new entry behind the others, and the inode it returns finds
that entry. -/
def CreateExact (fs : FileSystem) : FsCall → Prop
  | .createFile name type permissions created modified accessed => ∀ next inode,
      filesystemCreateFile fs name type permissions created modified accessed = (next, inode) →
      inode ≠ 0 → ∃ entry, next.entries = fs.entries ++ [entry] ∧
        next.entries.find? (hasInode inode) = some entry
  | _ => True

/-- A deletion removes exactly the entries with the inode and keeps the others in order. -/
def DeleteExact (fs : FileSystem) : FsCall → Prop
  | .deleteFile inode =>
    (filesystemDeleteFile fs inode).1.entries = fs.entries.filter fun entry ↦ entry.inode ≠ inode
  | _ => True

/-- A write that is served changes the size and the modification time of exactly the regular files
with the inode, and one that is refused changes nothing. -/
def WriteExact (fs : FileSystem) : FsCall → Prop
  | .writeFile inode hasData size now =>
    (filesystemWriteFile fs inode hasData size now).1.entries =
      fs.entries.map fun entry ↦
        if entry.inode = inode ∧ entry.type = .file ∧ hasData = true ∧ size ≠ 0 then
          { entry with size := entry.size + size, modifiedTime := now }
        else entry
  | _ => True

/-- Two states of one file: only the size, the modification time and the access time may differ. -/
def SameFile (before after : FileEntry) : Prop :=
  after = { before with
    size := after.size, modifiedTime := after.modifiedTime, accessedTime := after.accessedTime }

/-- What callers rely on along a run: inodes are distinct in every state, creations, deletions and
writes act on the file with the inode and on no other, and an inode that names a file keeps naming
it as long as no call deletes it. -/
structure InodesIdentifyFiles (start : FileSystem) (calls : List FsCall) : Prop where
  distinct : AlongRun fsStep InodesDistinct start calls
  create : EveryStep fsStep CreateExact start calls
  delete : EveryStep fsStep DeleteExact start calls
  write : EveryStep fsStep WriteExact start calls
  stable : ∀ taken later inode entry, taken ++ later <+: calls →
    (runFrom fsStep start taken).entries.find? (hasInode inode) = some entry →
    (∀ call ∈ later, call ≠ .deleteFile inode) →
      ∃ after, (runFrom fsStep start (taken ++ later)).entries.find? (hasInode inode) = some after ∧
        SameFile entry after

/-- The condition on a call: before a creation that will be served, no entry has the number of
entries plus one as its inode. -/
def FreshInode (fs : FileSystem) : FsCall → Prop
  | .createFile name _ _ _ _ _ => name ≠ none → fs.entries.length < maxFiles →
      ∀ entry ∈ fs.entries, entry.inode ≠ UInt32.ofNat fs.entries.length + 1
  | _ => True

/-! ### What one call does -/

/-- The entries after a creation that is served. -/
theorem entries_createFile {fs : FileSystem} (hroom : fs.entries.length < maxFiles)
    (name : List UInt8) (type : FileType) (permissions : UInt32)
    (created modified accessed : Int) :
    filesystemCreateFile fs (some name) type permissions created modified accessed =
      (⟨fs.entries ++ [fs.newEntry name type permissions created modified accessed]⟩,
        fs.nextInode) := by
  rw [filesystemCreateFile, if_neg (by omega)]
  rfl

/-- Assumes: inodes are distinct. They are distinct after an entry is changed that keeps its
inode. -/
theorem InodesDistinct.change {fs : FileSystem} (hdistinct : InodesDistinct fs)
    {test : FileEntry → Bool} {change : FileEntry → FileEntry}
    (hkeep : ∀ entry, (change entry).inode = entry.inode) :
    InodesDistinct ⟨updateFirst test change fs.entries⟩ := by
  rw [InodesDistinct, map_updateFirst fun entry _ ↦ hkeep entry]
  exact hdistinct

/-- Assumes: inodes are distinct. They are distinct after a call exactly when the call meets
`FreshInode`. -/
theorem inodesDistinct_step_iff {fs : FileSystem} (hdistinct : InodesDistinct fs) (call : FsCall) :
    InodesDistinct (fsStep fs call) ↔ FreshInode fs call := by
  cases call with
  | createFile name type permissions created modified accessed =>
    cases name with
    | none =>
      have hrefused :
          fsStep fs (.createFile none type permissions created modified accessed) = fs := by
        simp only [fsStep, filesystemCreateFile]
        split_ifs <;> rfl
      rw [hrefused]
      exact iff_of_true hdistinct fun hname ↦ absurd rfl hname
    | some name =>
      by_cases hroom : fs.entries.length < maxFiles
      · have hmap : ((fsStep fs
            (.createFile (some name) type permissions created modified accessed)).entries.map
              FileEntry.inode) = fs.entries.map FileEntry.inode ++ [fs.nextInode] := by
          rw [fsStep, entries_createFile hroom, List.map_append, List.map_singleton]
          rfl
        rw [InodesDistinct, hmap, List.nodup_append]
        constructor
        · rintro ⟨-, -, hfresh⟩ - - entry hentry
          exact hfresh _ (List.mem_map_of_mem hentry) _ List.mem_cons_self
        · intro hfresh
          refine ⟨hdistinct, List.nodup_singleton _, fun inode hinode new hnew ↦ ?_⟩
          obtain ⟨entry, hentry, rfl⟩ := List.mem_map.mp hinode
          rw [List.mem_singleton.mp hnew]
          exact hfresh (by simp) hroom entry hentry
      · have hrefused : fsStep fs
            (.createFile (some name) type permissions created modified accessed) = fs := by
          rw [fsStep, filesystemCreateFile, if_pos (by omega)]
        rw [hrefused]
        exact iff_of_true hdistinct fun _ hroom' ↦ absurd hroom' hroom
  | deleteFile inode =>
    refine iff_of_true ?_ trivial
    simp only [fsStep, filesystemDeleteFile]
    split_ifs
    · exact hdistinct.sublist ((List.eraseP_sublist).map FileEntry.inode)
    · exact hdistinct
  | writeFile inode hasData size now =>
    refine iff_of_true ?_ trivial
    simp only [fsStep, filesystemWriteFile]
    split_ifs
    · exact hdistinct
    · exact hdistinct.change fun _ ↦ rfl
    · exact hdistinct
  | readFile inode hasBuffer size now =>
    refine iff_of_true ?_ trivial
    simp only [fsStep, filesystemReadFile]
    split_ifs
    · exact hdistinct
    · cases fs.entries.find? (isFileWithInode inode) with
      | none => exact hdistinct
      | some entry => exact hdistinct.change fun _ ↦ rfl

/-- Assumes: inodes are distinct after a creation. The inode it returns finds the new entry. -/
theorem createExact_of_distinct {fs : FileSystem} {call : FsCall}
    (hdistinct : InodesDistinct (fsStep fs call)) : CreateExact fs call := by
  cases call with
  | createFile name type permissions created modified accessed =>
    rintro next inode hcreate hserved
    obtain ⟨hroom, name, rfl⟩ : fs.entries.length < maxFiles ∧ ∃ bytes, name = some bytes := by
      unfold filesystemCreateFile at hcreate
      split_ifs at hcreate with hfull
      · exact absurd (Prod.mk.inj hcreate).2.symm hserved
      · cases name with
        | none => exact absurd (Prod.mk.inj hcreate).2.symm hserved
        | some bytes => exact ⟨by omega, bytes, rfl⟩
    rw [fsStep, hcreate] at hdistinct
    rw [entries_createFile hroom] at hcreate
    obtain ⟨rfl, rfl⟩ := Prod.mk.inj hcreate
    refine ⟨_, rfl, ?_⟩
    rw [InodesDistinct, List.map_append, List.nodup_append] at hdistinct
    have hnone : fs.entries.find? (hasInode fs.nextInode) = none := by
      apply List.find?_eq_none.mpr
      intro entry hentry hinode
      refine hdistinct.2.2 _ (List.mem_map_of_mem hentry) _ List.mem_cons_self ?_
      exact beq_iff_eq.mp hinode
    rw [List.find?_append, hnone, Option.none_or]
    exact List.find?_cons_of_pos (beq_self_eq_true fs.nextInode)
  | _ => trivial

/-- Assumes: inodes are distinct. A deletion removes exactly the entry with the inode. -/
theorem deleteExact_of_distinct {fs : FileSystem} (hdistinct : InodesDistinct fs) (call : FsCall) :
    DeleteExact fs call := by
  cases call with
  | deleteFile inode =>
    have htest : ∀ entry, hasInode inode entry = true → entry.inode = inode := by
      simp [hasInode]
    have hfilter : (fs.entries.filter fun entry ↦ entry.inode ≠ inode) =
        fs.entries.eraseP (hasInode inode) := by
      rw [eraseP_eq_filter hdistinct htest]
      refine List.filter_congr fun entry _ ↦ ?_
      rw [Bool.eq_iff_iff]
      simp [hasInode]
    rw [DeleteExact, hfilter, filesystemDeleteFile]
    split_ifs with hany
    · rfl
    · rw [List.eraseP_of_forall_not (by simpa using hany)]
  | _ => trivial

/-- Assumes: inodes are distinct. A write changes exactly the file with the inode. -/
theorem writeExact_of_distinct {fs : FileSystem} (hdistinct : InodesDistinct fs) (call : FsCall) :
    WriteExact fs call := by
  cases call with
  | writeFile inode hasData size now =>
    rw [WriteExact, filesystemWriteFile]
    split_ifs with hrefused hany
    · refine (List.map_id'' (fun entry ↦ if_neg ?_) _).symm
      rintro ⟨-, -, hdata, hsize⟩
      rcases hrefused with hnull | hzero
      · simp [hnull] at hdata
      · exact hsize hzero
    · have htest : ∀ entry, isFileWithInode inode entry = true → entry.inode = inode := by
        intro entry hentry
        simp only [isFileWithInode, hasInode, Bool.and_eq_true, beq_iff_eq] at hentry
        exact hentry.1
      obtain ⟨hdata, hsize⟩ := not_or.mp hrefused
      rw [updateFirst_eq_map hdistinct htest]
      refine List.map_congr_left fun entry _ ↦ ?_
      simp [isFileWithInode, hasInode, FileEntry.write, hdata, hsize]
    · have hkept : ∀ entry ∈ fs.entries, (if entry.inode = inode ∧ entry.type = .file ∧
          hasData = true ∧ size ≠ 0 then
            { entry with size := entry.size + size, modifiedTime := now } else entry) = entry := by
        intro entry hentry
        refine if_neg ?_
        rintro ⟨hinode, htype, -, -⟩
        refine hany (List.any_eq_true.mpr ⟨entry, hentry, ?_⟩)
        simp [isFileWithInode, hasInode, hinode, htype]
      rw [List.map_congr_left hkept, List.map_id']
  | _ => trivial

theorem SameFile.refl (entry : FileEntry) : SameFile entry entry := rfl

theorem SameFile.trans {first middle last : FileEntry} (hfirst : SameFile first middle)
    (hlast : SameFile middle last) : SameFile first last := by
  rw [SameFile] at hfirst hlast ⊢
  rw [hlast, hfirst]

/-- A call that does not delete an inode leaves it naming the file it named. -/
theorem find?_hasInode_step {fs : FileSystem} {inode : UInt32} {entry : FileEntry} {call : FsCall}
    (hentry : fs.entries.find? (hasInode inode) = some entry) (hcall : call ≠ .deleteFile inode) :
    ∃ after, (fsStep fs call).entries.find? (hasInode inode) = some after ∧
      SameFile entry after := by
  -- an update of an entry that keeps its inode finds the entry, changed or not
  have hupdate : ∀ test (change : FileEntry → FileEntry), (∀ old, SameFile old (change old)) →
      ∃ after, (updateFirst test change fs.entries).find? (hasInode inode) = some after ∧
        SameFile entry after := by
    intro test change hsame
    have hkeep : ∀ old, hasInode inode (change old) = hasInode inode old := by
      intro old
      rw [hsame old]
      rfl
    have hfound : (updateFirst test change fs.entries).find? (hasInode inode) = some entry ∨
        (updateFirst test change fs.entries).find? (hasInode inode) = some (change entry) :=
      find?_updateFirst hkeep hentry
    rcases hfound with hsome | hsome
    · exact ⟨entry, hsome, SameFile.refl entry⟩
    · exact ⟨change entry, hsome, hsame entry⟩
  cases call with
  | createFile name type permissions created modified accessed =>
    refine ⟨entry, ?_, SameFile.refl entry⟩
    simp only [fsStep, filesystemCreateFile]
    split_ifs
    · exact hentry
    · cases name with
      | none => exact hentry
      | some name => simp [List.find?_append, hentry]
  | deleteFile other =>
    refine ⟨entry, ?_, SameFile.refl entry⟩
    have hother : ∀ old, hasInode inode old = true → hasInode other old = false := by
      intro old hold
      simp only [hasInode, beq_iff_eq, beq_eq_false_iff_ne] at hold ⊢
      rw [hold]
      exact fun heq ↦ hcall (heq ▸ rfl)
    simp only [fsStep, filesystemDeleteFile]
    split_ifs
    · rw [find?_eraseP hother]
      exact hentry
    · exact hentry
  | writeFile other hasData size now =>
    simp only [fsStep, filesystemWriteFile]
    split_ifs
    · exact ⟨entry, hentry, SameFile.refl entry⟩
    · exact hupdate _ _ fun _ ↦ rfl
    · exact ⟨entry, hentry, SameFile.refl entry⟩
  | readFile other hasBuffer size now =>
    simp only [fsStep, filesystemReadFile]
    split_ifs
    · exact ⟨entry, hentry, SameFile.refl entry⟩
    · cases fs.entries.find? (isFileWithInode other) with
      | none => exact ⟨entry, hentry, SameFile.refl entry⟩
      | some found => exact hupdate _ _ fun _ ↦ rfl

/-! ### Runs that give every file its own inode -/

/-- An inode that names a file keeps naming it along a run that does not delete it. -/
theorem find?_hasInode_run {fs : FileSystem} {inode : UInt32} {entry : FileEntry}
    {calls : List FsCall} (hentry : fs.entries.find? (hasInode inode) = some entry)
    (hcalls : ∀ call ∈ calls, call ≠ .deleteFile inode) :
    ∃ after, (runFrom fsStep fs calls).entries.find? (hasInode inode) = some after ∧
      SameFile entry after := by
  induction calls generalizing fs entry with
  | nil => exact ⟨entry, hentry, SameFile.refl entry⟩
  | cons call calls ih =>
    obtain ⟨middle, hmiddle, hfirst⟩ :=
      find?_hasInode_step hentry (hcalls call List.mem_cons_self)
    obtain ⟨after, hafter, hlast⟩ :=
      ih hmiddle fun later hlater ↦ hcalls later (List.mem_cons_of_mem call hlater)
    exact ⟨after, hafter, hfirst.trans hlast⟩

/-- Inodes are distinct along a run exactly when every creation of the run hands out an inode that
no existing file has. -/
theorem inodesDistinct_alongRun_iff (calls : List FsCall) :
    AlongRun fsStep InodesDistinct filesystemInit calls ↔
      EveryStep fsStep FreshInode filesystemInit calls :=
  alongRun_iff_everyStep (fun _ ↦ True) (fun _ _ ↦ True) (fun _ _ _ _ ↦ trivial)
    (fun _ call _ _ hdistinct ↦ inodesDistinct_step_iff hdistinct call) trivial
    (List.nodup_nil : InodesDistinct filesystemInit) (fun _ _ _ ↦ trivial)

/-- Inodes identify files along a run exactly when every creation that is served hands out an inode
that no existing file has. -/
theorem inodesIdentifyFiles_iff (calls : List FsCall) :
    InodesIdentifyFiles filesystemInit calls ↔
      EveryStep fsStep FreshInode filesystemInit calls := by
  constructor
  · intro hidentify
    exact (inodesDistinct_alongRun_iff calls).mp hidentify.distinct
  · intro hfresh
    have hdistinct := (inodesDistinct_alongRun_iff calls).mpr hfresh
    -- the state in which a call is taken, and the state it reaches
    have hbefore : ∀ taken call, taken ++ [call] <+: calls →
        InodesDistinct (runFrom fsStep filesystemInit taken) := fun taken call htaken ↦
      hdistinct taken ((List.prefix_append taken [call]).trans htaken)
    have hafter : ∀ taken call, taken ++ [call] <+: calls →
        InodesDistinct (fsStep (runFrom fsStep filesystemInit taken) call) := by
      intro taken call htaken
      have hreached := hdistinct _ htaken
      rwa [runFrom_append] at hreached
    refine ⟨hdistinct, ?_, ?_, ?_, ?_⟩
    · exact fun taken call htaken ↦ createExact_of_distinct (hafter taken call htaken)
    · exact fun taken call htaken ↦ deleteExact_of_distinct (hbefore taken call htaken) call
    · exact fun taken call htaken ↦ writeExact_of_distinct (hbefore taken call htaken) call
    · intro taken later inode entry _ hentry hlater
      rw [runFrom_append]
      exact find?_hasInode_run hentry hlater

/-- Two files are created, the first is deleted, and a third is created: the second and the third
both have inode 2. -/
theorem inode_given_to_two_files :
    ¬ InodesIdentifyFiles filesystemInit
      [.createFile (some [97]) .file 0 0 0 0, .createFile (some [98]) .file 0 0 0 0,
        .deleteFile 1, .createFile (some [99]) .file 0 0 0 0] := by
  intro hidentify
  have hlast := hidentify.distinct _ (List.prefix_refl _)
  revert hlast
  unfold InodesDistinct
  decide

end OneOS.Filesystem.FileTable
