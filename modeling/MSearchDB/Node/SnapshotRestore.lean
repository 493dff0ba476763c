import MSearchDB.Core.Error

/-!
# Restoring a snapshot

`restore_from_path` and `restore_from_bytes` of `crates/node/src/snapshot_manager.rs`. The
archive is unpacked beside the data, and then each directory is removed and the unpacked one
renamed to its place. Every file operation can fail, and a directory whose removal fails may
be removed in part.

Nothing is lost before the first removal. From then on there is no way back, and a part that
the archive does not have is skipped: `restore_iff` says exactly when a restore is all or
nothing.
-/

set_option autoImplicit false

namespace MSearchDB.Node

open MSearchDB.Core

/-! ## The directories -/

section Restore

variable {α : Type}

/-- The content of an archive, or of the staging directory: `rocksdb/` and `index/`. -/
structure SnapshotParts (α : Type) where
  rocksdb : Option α
  index : Option α
  deriving DecidableEq

/-- `data_dir`: `storage/`, `index/` and `restore_staging/`. -/
structure DataDir (α : Type) where
  storage : Option α
  index : Option α
  staging : Option (SnapshotParts α)
  deriving DecidableEq

/-- What unpacking an archive gives: its parts, or an error and what was unpacked by then. -/
abbrev Archive (α : Type) := Except (String × SnapshotParts α) (SnapshotParts α)

/-- How the file operations of a restore go. A removal that fails leaves what it has not removed
yet, and `unpack` may fail on any archive. -/
structure RestoreOps (α : Type) where
  removeStaging : Except (String × Option (SnapshotParts α)) Unit
  createStaging : Except String Unit
  openFile : Except String Unit
  newDecoder : Except String Unit
  unpack : Except (String × SnapshotParts α) Unit
  removeStorage : Except (String × Option α) Unit
  renameStorage : Except String Unit
  removeIndex : Except (String × Option α) Unit
  renameIndex : Except String Unit
  cleanUp : Option (SnapshotParts α)

/-! ## The steps -/

/-- `restore_from_path` up to the extraction: the parts that lie in the staging directory. -/
def unpackSnapshot (snapshotPath : String) (file : Option (Archive α)) (ops : RestoreOps α) (d : DataDir α) :
    DataDir α × DbResult (SnapshotParts α) :=
  match file with
  | none => (d, .error (.snapshotError ("snapshot file not found: " ++ snapshotPath)))
  | some archive =>
      match if d.staging.isSome then ops.removeStaging else .ok () with
      | .error (e, left) => ({ d with staging := left }, .error (.storageError e))
      | .ok () =>
          match ops.createStaging with
          | .error e => ({ d with staging := none }, .error (.storageError e))
          | .ok () =>
              match ops.openFile with
              | .error e => ({ d with staging := some ⟨none, none⟩ }, .error (.snapshotError e))
              | .ok () =>
                  match ops.newDecoder with
                  | .error e => ({ d with staging := some ⟨none, none⟩ }, .error (.snapshotError e))
                  | .ok () =>
                      match ops.unpack.bind fun _ => archive with
                      | .error (e, left) =>
                          ({ d with staging := some left }, .error (.snapshotError ("tar unpack: " ++ e)))
                      | .ok parts => ({ d with staging := some parts }, .ok parts)

/-- A directory is replaced by what was restored of it. -/
def replaceDir (removeDirAll : Except (String × Option α) Unit) (rename : Except String Unit)
    (restored current : Option α) : Option α × DbResult Unit :=
  match restored with
  | none => (current, .ok ())
  | some new =>
      match if current.isSome then removeDirAll else .ok () with
      | .error (e, left) => (left, .error (.storageError e))
      | .ok () =>
          -- the old directory is gone by now, so a failed rename leaves none
          match rename with
          | .error e => (none, .error (.storageError e))
          | .ok () => (some new, .ok ())

/-- `SnapshotManager::restore_from_path`. -/
def restoreFromPath (snapshotPath : String) (file : Option (Archive α)) (ops : RestoreOps α) (d : DataDir α) :
    DataDir α × DbResult Unit :=
  match unpackSnapshot snapshotPath file ops d with
  | (d, .error e) => (d, .error e)
  | (d, .ok parts) =>
      match replaceDir ops.removeStorage ops.renameStorage parts.rocksdb d.storage with
      | (storage, .error e) => ({ d with storage := storage }, .error e)
      | (storage, .ok ()) =>
          let d := { d with storage := storage, staging := some ⟨none, parts.index⟩ }
          match replaceDir ops.removeIndex ops.renameIndex parts.index d.index with
          | (index, .error e) => ({ d with index := index }, .error e)
          | (index, .ok ()) => ({ d with index := index, staging := ops.cleanUp }, .ok ())

/-- `SnapshotManager::restore_from_bytes`: `ensureDir` and `write` are the operations before the
restore, which reads what was written. -/
def restoreFromBytes (ensureDir write : Except String Unit) (tempPath : String) (archive : Archive α)
    (ops : RestoreOps α) (d : DataDir α) : DataDir α × DbResult Unit :=
  match ensureDir with
  | .error e => (d, .error (.storageError e))
  | .ok () =>
      match write with
      | .error e => (d, .error (.storageError e))
      | .ok () => restoreFromPath tempPath (some archive) ops d

/-! ## All or nothing -/

/-- Both directories are as before after an error, and the archive's after a success. -/
def AllOrNothing (file : Option (Archive α)) (before : DataDir α) (outcome : DataDir α × DbResult Unit) : Prop :=
  match outcome.2 with
  | .error _ => outcome.1.storage = before.storage ∧ outcome.1.index = before.index
  | .ok () => ∃ parts, file = some (.ok parts) ∧ outcome.1.storage = parts.rocksdb ∧ outcome.1.index = parts.index

/-- Every operation up to the extraction succeeds, and the archive has these parts. -/
structure Unpacks (file : Option (Archive α)) (ops : RestoreOps α) (d : DataDir α) (parts : SnapshotParts α) :
    Prop where
  archive : file = some (.ok parts)
  removeStaging : d.staging.isSome = true → ops.removeStaging = .ok ()
  createStaging : ops.createStaging = .ok ()
  openFile : ops.openFile = .ok ()
  newDecoder : ops.newDecoder = .ok ()
  unpack : ops.unpack = .ok ()

/-- No operation on a directory fails, if any is needed. -/
def Replaces (removeDirAll : Except (String × Option α) Unit) (rename : Except String Unit)
    (restored current : Option α) : Prop :=
  restored.isSome = true → (current.isSome = true → removeDirAll = .ok ()) ∧ rename = .ok ()

/-- An operation on a directory fails and leaves it as it was: a removal that removed nothing, or
a renaming where there was no directory. -/
def FailsClean (removeDirAll : Except (String × Option α) Unit) (rename : Except String Unit)
    (restored current : Option α) : Prop :=
  restored.isSome = true ∧
    (current.isSome = true ∧ (∃ e, removeDirAll = .error (e, current)) ∨ current = none ∧ ∃ e, rename = .error e)

/-- The replacement fails before it changes anything, or it does not fail and the archive lacks no
directory that is there. -/
def ReplacesBoth (ops : RestoreOps α) (d : DataDir α) (parts : SnapshotParts α) : Prop :=
  FailsClean ops.removeStorage ops.renameStorage parts.rocksdb d.storage ∨
  Replaces ops.removeStorage ops.renameStorage parts.rocksdb d.storage ∧
    (parts.rocksdb.or d.storage = d.storage ∧ FailsClean ops.removeIndex ops.renameIndex parts.index d.index ∨
      Replaces ops.removeIndex ops.renameIndex parts.index d.index ∧
        (parts.rocksdb = none → d.storage = none) ∧ (parts.index = none → d.index = none))

section Steps

variable {removeDirAll : Except (String × Option α) Unit} {rename : Except String Unit} {restored current : Option α}

theorem replaceDir_of_replaces (h : Replaces removeDirAll rename restored current) :
    replaceDir removeDirAll rename restored current = (restored.or current, .ok ()) := by
  cases restored with
  | none => rfl
  | some new =>
      obtain ⟨hremove, hrename⟩ := h rfl
      cases current with
      | none => simp [replaceDir, hrename]
      | some old => simp [replaceDir, hremove rfl, hrename]

/-- An operation that fails is an error, and the directory is as it was only after a clean one. -/
theorem replaceDir_of_not_replaces (h : ¬ Replaces removeDirAll rename restored current) :
    ∃ left e, replaceDir removeDirAll rename restored current = (left, .error e) ∧
      (left = current ↔ FailsClean removeDirAll rename restored current) := by
  cases restored with
  | none => exact absurd (fun hsome => by cases hsome) h
  | some new =>
      cases current with
      | none =>
          -- nothing to remove, so it was the renaming
          cases hrename : rename with
          | ok u => exact absurd (fun _ => ⟨fun hsome => (by cases hsome), hrename⟩) h
          | error e =>
              refine ⟨none, .storageError e, by simp [replaceDir], ?_⟩
              exact iff_of_true rfl ⟨rfl, Or.inr ⟨rfl, e, rfl⟩⟩
      | some old =>
          cases hremove : removeDirAll with
          | error failed =>
              obtain ⟨e, left⟩ := failed
              refine ⟨left, .storageError e, by simp [replaceDir], ?_⟩
              constructor
              · rintro rfl
                exact ⟨rfl, Or.inl ⟨rfl, e, rfl⟩⟩
              · rintro ⟨-, ⟨-, e', he⟩ | ⟨hnone, -⟩⟩
                · cases he
                  rfl
                · cases hnone
          | ok u =>
              cases hrename : rename with
              | ok u' => exact absurd (fun _ => ⟨fun _ => hremove, hrename⟩) h
              | error e =>
                  -- the directory is gone
                  refine ⟨none, .storageError e, by simp [replaceDir], ?_⟩
                  refine iff_of_false (fun hnone => by cases hnone) ?_
                  rintro ⟨-, ⟨-, e', he⟩ | ⟨hnone, -⟩⟩
                  · cases he
                  · cases hnone

/-- A clean failure is one. -/
theorem FailsClean.not_replaces (h : FailsClean removeDirAll rename restored current) :
    ¬ Replaces removeDirAll rename restored current := by
  intro hreplaces
  obtain ⟨hsome, ⟨hcurrent, e, he⟩ | ⟨-, e, he⟩⟩ := h
  · rw [(hreplaces hsome).1 hcurrent] at he
    cases he
  · rw [(hreplaces hsome).2] at he
    cases he

end Steps

section Unpacking

variable {snapshotPath : String} {file : Option (Archive α)} {ops : RestoreOps α} {d : DataDir α}
  {parts : SnapshotParts α}

theorem unpackSnapshot_of_unpacks (h : Unpacks file ops d parts) :
    unpackSnapshot snapshotPath file ops d = ({ d with staging := some parts }, .ok parts) := by
  have hremove : (if d.staging.isSome then ops.removeStaging else .ok ()) = .ok () := by
    split
    case isTrue hsome => exact h.removeStaging hsome
    case isFalse => rfl
  cases h.archive
  rw [unpackSnapshot]
  simp only [hremove, h.createStaging, h.openFile, h.newDecoder, h.unpack, Except.bind]

/-- A failed extraction leaves both directories alone. -/
theorem unpackSnapshot_of_not_unpacks (snapshotPath : String) (h : ∀ parts, ¬ Unpacks file ops d parts) :
    ∃ d' e, unpackSnapshot snapshotPath file ops d = (d', .error e) ∧ d'.storage = d.storage ∧ d'.index = d.index := by
  cases file with
  | none => exact ⟨d, _, rfl, rfl, rfl⟩
  | some archive =>
      rw [unpackSnapshot]
      cases hremove : (if d.staging.isSome then ops.removeStaging else .ok ()) with
      | error failed => exact ⟨{ d with staging := failed.2 }, _, rfl, rfl, rfl⟩
      | ok u =>
          simp only
          cases hcreate : ops.createStaging with
          | error e => exact ⟨{ d with staging := none }, _, rfl, rfl, rfl⟩
          | ok u =>
              simp only
              cases hopen : ops.openFile with
              | error e => exact ⟨{ d with staging := some ⟨none, none⟩ }, _, rfl, rfl, rfl⟩
              | ok u =>
                  simp only
                  cases hdecoder : ops.newDecoder with
                  | error e => exact ⟨{ d with staging := some ⟨none, none⟩ }, _, rfl, rfl, rfl⟩
                  | ok u =>
                      simp only
                      cases hunpack : ops.unpack with
                      | error failed => exact ⟨{ d with staging := some failed.2 }, _, rfl, rfl, rfl⟩
                      | ok u =>
                          cases archive with
                          | error failed => exact ⟨{ d with staging := some failed.2 }, _, rfl, rfl, rfl⟩
                          | ok parts =>
                              refine absurd ?_ (h parts)
                              refine ⟨rfl, fun hsome => ?_, hcreate, hopen, hdecoder, hunpack⟩
                              rwa [if_pos hsome] at hremove

end Unpacking

/-! ## Restores -/

variable {snapshotPath : String} {file : Option (Archive α)} {ops : RestoreOps α} {d : DataDir α}
  {parts : SnapshotParts α}

/-- A success gives the archive's directories when it lacks none that is there. -/
theorem or_eq_iff {restored current : Option α} :
    restored.or current = restored ↔ (restored = none → current = none) := by
  cases restored with
  | none => exact ⟨fun h _ => h, fun h => h rfl⟩
  | some new => exact iff_of_true rfl fun hnone => by cases hnone

theorem Unpacks.archive_eq (h : Unpacks file ops d parts) {parts' : SnapshotParts α} (h' : file = some (.ok parts')) :
    parts' = parts := by
  have heq := h.archive.symm.trans h'
  cases heq
  rfl

/-- **One restore.** After the extraction it is all or nothing exactly under the condition on the
replacement. -/
theorem restoreFromPath_iff (h : Unpacks file ops d parts) :
    AllOrNothing file d (restoreFromPath snapshotPath file ops d) ↔ ReplacesBoth ops d parts := by
  rw [restoreFromPath, unpackSnapshot_of_unpacks h]
  by_cases hstorage : Replaces ops.removeStorage ops.renameStorage parts.rocksdb d.storage
  · have hnotStorage : ¬ FailsClean ops.removeStorage ops.renameStorage parts.rocksdb d.storage :=
      fun hclean => hclean.not_replaces hstorage
    simp only [replaceDir_of_replaces hstorage]
    by_cases hindex : Replaces ops.removeIndex ops.renameIndex parts.index d.index
    · -- a success
      have hnotIndex : ¬ FailsClean ops.removeIndex ops.renameIndex parts.index d.index :=
        fun hclean => hclean.not_replaces hindex
      simp only [replaceDir_of_replaces hindex, AllOrNothing]
      constructor
      · rintro ⟨parts', hparts', hstorageEq, hindexEq⟩
        rw [h.archive_eq hparts'] at hstorageEq hindexEq
        exact Or.inr ⟨hstorage, Or.inr ⟨hindex, or_eq_iff.1 hstorageEq, or_eq_iff.1 hindexEq⟩⟩
      · rintro (hclean | ⟨-, ⟨-, hclean⟩ | ⟨-, hlacks, hlacks'⟩⟩)
        · exact absurd hclean hnotStorage
        · exact absurd hclean hnotIndex
        · exact ⟨parts, h.archive, or_eq_iff.2 hlacks, or_eq_iff.2 hlacks'⟩
    · obtain ⟨left, e, hfail, hleft⟩ := replaceDir_of_not_replaces hindex
      simp only [hfail, AllOrNothing]
      constructor
      · rintro ⟨hsame, hsameIndex⟩
        exact Or.inr ⟨hstorage, Or.inl ⟨hsame, hleft.1 hsameIndex⟩⟩
      · rintro (hclean | ⟨-, ⟨hsame, hclean⟩ | ⟨hreplaces, -⟩⟩)
        · exact absurd hclean hnotStorage
        · exact ⟨hsame, hleft.2 hclean⟩
        · exact absurd hreplaces hindex
  · -- the index has not been touched
    obtain ⟨left, e, hfail, hleft⟩ := replaceDir_of_not_replaces hstorage
    simp only [hfail, AllOrNothing]
    constructor
    · rintro ⟨hsame, -⟩
      exact Or.inl (hleft.1 hsame)
    · rintro (hclean | ⟨hreplaces, -⟩)
      · exact ⟨hleft.2 hclean, trivial⟩
      · exact absurd hreplaces hstorage

theorem restoreFromPath_of_not_unpacks (h : ∀ parts, ¬ Unpacks file ops d parts) :
    AllOrNothing file d (restoreFromPath snapshotPath file ops d) := by
  obtain ⟨d', e, hfail, hstorage, hindex⟩ := unpackSnapshot_of_not_unpacks snapshotPath h
  rw [restoreFromPath, hfail]
  exact ⟨hstorage, hindex⟩

/-- **When a restore is all or nothing.** It is exactly when, after an extraction that succeeds,
the replacement fails before it changes anything, or does not fail and the archive lacks no directory
that is there. `restore_from_bytes` is when that holds, or when it does not come to the
restore. -/
theorem restore_iff (snapshotPath : String) (file : Option (Archive α)) (archive : Archive α)
    (ensureDir write : Except String Unit) (ops : RestoreOps α) (d : DataDir α) :
    (AllOrNothing file d (restoreFromPath snapshotPath file ops d) ↔
      ∀ parts, Unpacks file ops d parts → ReplacesBoth ops d parts) ∧
    (AllOrNothing (some archive) d (restoreFromBytes ensureDir write snapshotPath archive ops d) ↔
      (ensureDir = .ok () → write = .ok () →
        ∀ parts, Unpacks (some archive) ops d parts → ReplacesBoth ops d parts)) := by
  have hpath : ∀ file, AllOrNothing file d (restoreFromPath snapshotPath file ops d) ↔
      ∀ parts, Unpacks file ops d parts → ReplacesBoth ops d parts := by
    intro file
    by_cases hunpacks : ∃ parts, Unpacks file ops d parts
    · obtain ⟨parts, hparts⟩ := hunpacks
      rw [restoreFromPath_iff hparts]
      refine ⟨fun hboth parts' hparts' => ?_, fun hall => hall parts hparts⟩
      rw [hparts.archive_eq hparts'.archive]
      exact hboth
    · have hnone : ∀ parts, ¬ Unpacks file ops d parts := fun parts hparts => hunpacks ⟨parts, hparts⟩
      exact iff_of_true (restoreFromPath_of_not_unpacks hnone) fun parts hparts => absurd hparts (hnone parts)
  refine ⟨hpath file, ?_⟩
  cases ensureDir with
  | error e => exact iff_of_true ⟨rfl, rfl⟩ fun hok => by cases hok
  | ok u =>
      cases write with
      | error e => exact iff_of_true ⟨rfl, rfl⟩ fun _ hok => by cases hok
      | ok u => exact (hpath (some archive)).trans ⟨fun h _ _ => h, fun h => h rfl rfl⟩

end Restore

/-! ## Two restores that are neither -/

/-- Every operation succeeds. -/
def allSucceed : RestoreOps String where
  removeStaging := .ok ()
  createStaging := .ok ()
  openFile := .ok ()
  newDecoder := .ok ()
  unpack := .ok ()
  removeStorage := .ok ()
  renameStorage := .ok ()
  removeIndex := .ok ()
  renameIndex := .ok ()
  cleanUp := none

/-- A data directory that is in use. -/
def oldData : DataDir String := ⟨some "old storage", some "old index", none⟩

/-- The last renaming fails: the error leaves the new storage and no index. An archive without an
index: the success leaves the new storage and the old index. -/
theorem not_allOrNothing :
    ¬ AllOrNothing (some (.ok ⟨some "new storage", some "new index"⟩)) oldData
      (restoreFromPath "1-42-1710000000.snap" (some (.ok ⟨some "new storage", some "new index"⟩))
        { allSucceed with renameIndex := .error "Permission denied (os error 13)" } oldData) ∧
    ¬ AllOrNothing (some (.ok ⟨some "new storage", none⟩)) oldData
      (restoreFromPath "1-42-1710000000.snap" (some (.ok ⟨some "new storage", none⟩)) allSucceed oldData) := by
  constructor
  · rintro ⟨hstorage, -⟩
    exact absurd hstorage (by decide)
  · rintro ⟨parts, hparts, -, hindex⟩
    cases hparts
    exact absurd hindex (by decide)

end MSearchDB.Node
