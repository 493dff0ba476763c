import MSearchDB.Node.SnapshotRestore
import MSearchDB.Node.SnapshotRotation

/-!
# Backups

`create_snapshot`, `read_snapshot_bytes` and the restore of `crates/node/src/snapshot_manager.rs`
together. A snapshot is a checkpoint of the storage and, if there is one, a copy of the index
directory, packed by `tar` and `zstd` (`TarZstd`). Every file operation of a creation can fail,
and what it leaves depends on how far it came: nothing, a broken archive, or an archive without
metadata. The creation that succeeds ends with a rotation, which ignores what it cannot remove.

An event about one snapshot leaves the files of the others alone or rotates them away
(`Vault.Kept.step`). So a snapshot that is still listed restores the data of its creation, whatever was
written and whatever failed since (`restore_created`), unless a rotation has removed its archive and
could not remove its metadata. It has no index to restore when there was none.
-/

set_option autoImplicit false

namespace MSearchDB.Node

open Std (ExtTreeMap)
open MSearchDB.Lib
open MSearchDB.Core
open MSearchDB.Index (HashOrder keyOrder)

/-! ## Creating a snapshot -/

section Create

variable {α : Type}

/-- The data of a running node: the storage, and `data_dir/index`. -/
structure LiveData (α : Type) where
  storage : α
  index : Option α

/-- What is staged of it. -/
def LiveData.parts (live : LiveData α) : SnapshotParts α := ⟨some live.storage, live.index⟩

/-- `tar` inside `zstd`: what was packed is unpacked again. -/
structure TarZstd (α : Type) where
  pack : SnapshotParts α → Bytes
  unpack : Bytes → Archive α
  unpack_pack : ∀ parts, unpack (pack parts) = .ok parts

/-- How the file operations of `create_snapshot` go. An archive that cannot be finished is left as
far as it was written, and metadata that cannot be written may have replaced an older file. -/
structure CreateOps where
  ensureDir : Except String Unit
  removeStaging : Except String Unit
  createStaging : Except String Unit
  checkpoint : DbResult Unit
  copyIndex : Except String Unit
  createFile : Except String Unit
  newEncoder : Except String Unit
  append : Except (String × Bytes) Unit
  finishTar : Except (String × Bytes) Unit
  finishZstd : Except (String × Bytes) Unit
  metaJson : Except String Unit
  writeMeta : Except (String × Bool) Unit
  list : DbResult Unit
  removals : Removals

namespace CreateOps

/-- The archive of the snapshot can be removed, and not its metadata. -/
def Halves (ops : CreateOps) (id : String) : Prop :=
  ops.removals.archive id = true ∧ ops.removals.metadata id = false

/-- `create_snapshot` up to the file of the archive. -/
def stage (ops : CreateOps) (live : LiveData α) : DbResult Unit := do
  ops.ensureDir.mapError .storageError
  ops.removeStaging.mapError .storageError
  ops.createStaging.mapError .storageError
  ops.checkpoint
  if live.index.isSome then ops.copyIndex.mapError .storageError
  ops.createFile.mapError .snapshotError

/-- The archive, or the error and what the file then holds. -/
def writeArchive (ops : CreateOps) (format : TarZstd α) (live : LiveData α) :
    Except (DbError × Bytes) Bytes := do
  ops.newEncoder.mapError fun e => (.snapshotError ("zstd encoder init: " ++ e), [])
  ops.append.mapError fun e => (.snapshotError ("tar append: " ++ e.1), e.2)
  ops.finishTar.mapError fun e => (.snapshotError ("tar finish: " ++ e.1), e.2)
  ops.finishZstd.mapError fun e => (.snapshotError ("zstd finish: " ++ e.1), e.2)
  return format.pack live.parts

/-- What follows a step that succeeds. -/
theorem ok_of_seq {ε β γ : Type} {x : Except ε β} {y : Except ε γ} {c : γ} (h : (x >>= fun _ => y) = .ok c) :
    y = .ok c := by
  cases x with
  | error e => cases h
  | ok b => exact h

theorem writeArchive_ok {ops : CreateOps} {format : TarZstd α} {live : LiveData α} {archive : Bytes}
    (h : ops.writeArchive format live = .ok archive) : format.pack live.parts = archive :=
  Except.ok.inj (ok_of_seq (ok_of_seq (ok_of_seq (ok_of_seq h))))

end CreateOps

namespace SnapshotsDir

/-- Only the file of an archive is written. -/
def writeArchive (dir : SnapshotsDir) (id : String) (bytes : Bytes) : SnapshotsDir :=
  { dir with archives := dir.archives.insert id bytes }

/-- The metadata of a snapshot can no longer be read. -/
def loseMeta (dir : SnapshotsDir) (id : String) : SnapshotsDir := { dir with metas := dir.metas.erase id }

/-- `SnapshotManager::create_snapshot`. Unreadable metadata is not listed, so it counts as none. -/
def tryCreateSnapshot (format : TarZstd α) (maxSnapshots : Nat) (live : LiveData α) (dir : SnapshotsDir)
    (call : SnapshotCall) (ops : CreateOps) : SnapshotsDir × DbResult SnapshotInfo :=
  match ops.stage live with
  | .error e => (dir, .error e)
  | .ok () =>
      match ops.writeArchive format live with
      | .error (e, written) => (dir.writeArchive call.snapshotId written, .error e)
      | .ok archive =>
          let call := { call with archive := archive }
          match ops.metaJson with
          | .error e => (dir.writeArchive call.snapshotId archive, .error (.serializationError e))
          | .ok () =>
              match ops.writeMeta with
              | .error (e, replaced) =>
                  let dir := dir.writeArchive call.snapshotId archive
                  (if replaced then dir.loseMeta call.snapshotId else dir, .error (.storageError e))
              | .ok () =>
                  match ops.list with
                  | .error e => (dir.write call, .error e)
                  | .ok () => ((dir.write call).rotateSnapshots maxSnapshots call.order ops.removals, .ok call.info)

/-- `SnapshotManager::read_snapshot_bytes`. -/
def readSnapshotBytes (dir : SnapshotsDir) (snapshotId : String) : DbResult Bytes :=
  match dir.archives[snapshotId]? with
  | some bytes => .ok bytes
  | none => .error (.notFound ("snapshot file '" ++ snapshotId ++ "' not found"))

/-- A creation that succeeds has written both files, and ends with the rotation. -/
theorem tryCreateSnapshot_ok {format : TarZstd α} {maxSnapshots : Nat} {live : LiveData α} {dir : SnapshotsDir}
    {call : SnapshotCall} {ops : CreateOps} {info : SnapshotInfo}
    (h : (dir.tryCreateSnapshot format maxSnapshots live call ops).2 = .ok info) :
    dir.tryCreateSnapshot format maxSnapshots live call ops =
        ((dir.write { call with archive := format.pack live.parts }).rotateSnapshots maxSnapshots call.order
          ops.removals, .ok info) ∧
      info = { call with archive := format.pack live.parts }.info := by
  rw [tryCreateSnapshot] at h ⊢
  cases hstage : ops.stage live with
  | error e => simp only [hstage] at h; cases h
  | ok u =>
      simp only [hstage] at h ⊢
      cases harchive : ops.writeArchive format live with
      | error e => simp only [harchive] at h; cases h
      | ok archive =>
          obtain rfl := CreateOps.writeArchive_ok harchive
          simp only [harchive] at h ⊢
          cases hjson : ops.metaJson with
          | error e => simp only [hjson] at h; cases h
          | ok u =>
              simp only [hjson] at h ⊢
              cases hmeta : ops.writeMeta with
              | error e => simp only [hmeta] at h; cases h
              | ok u =>
                  simp only [hmeta] at h ⊢
                  cases hlist : ops.list with
                  | error e => simp only [hlist] at h; cases h
                  | ok u =>
                      simp only [hlist] at h ⊢
                      cases h
                      exact ⟨rfl, rfl⟩

/-- When the files can be removed this is the creation of the rotation model. -/
theorem tryCreateSnapshot_works {format : TarZstd α} {maxSnapshots : Nat} {live : LiveData α} {dir : SnapshotsDir}
    {call : SnapshotCall} {ops : CreateOps} {info : SnapshotInfo} (hremovals : ops.removals = .works)
    (h : (dir.tryCreateSnapshot format maxSnapshots live call ops).2 = .ok info) :
    (dir.tryCreateSnapshot format maxSnapshots live call ops).1 =
      (dir.createSnapshot maxSnapshots { call with archive := format.pack live.parts }).1 := by
  rw [(tryCreateSnapshot_ok h).1, hremovals]
  rfl

/-- The files of the snapshot `id` are the same, or it is no longer listed, or its archive is gone
because its metadata could not be removed. -/
def KeptIn (dir : SnapshotsDir) (id : String) (halves : Prop) (dir' : SnapshotsDir) : Prop :=
  dir'.metas[id]? = dir.metas[id]? ∧
      (dir'.archives[id]? = dir.archives[id]? ∨ dir'.archives[id]? = none ∧ halves) ∨
    dir'.metas[id]? = none

variable {dir : SnapshotsDir}

/-- **One removal.** -/
theorem keptIn_removeSnapshot (dir : SnapshotsDir) (removals : Removals) (old : SnapshotInfo) (id : String) :
    dir.KeptIn id (removals.archive id = true ∧ removals.metadata id = false) (dir.removeSnapshot removals old) := by
  by_cases hold : compare old.id id = .eq
  · obtain rfl := Std.compare_eq_iff_eq.1 hold
    cases hmeta : removals.metadata old.id with
    | true =>
        right
        simp [removeSnapshot, hmeta]
    | false =>
        left
        cases harchive : removals.archive old.id with
        | true => simp [removeSnapshot, hmeta, harchive]
        | false => simp [removeSnapshot, hmeta, harchive]
  · have herase : ∀ {ν : Type} (m : ExtTreeMap String ν) (b : Bool),
        (if b then m.erase old.id else m)[id]? = m[id]? := by
      intro ν m b
      cases b with
      | true => rw [if_pos rfl, ExtTreeMap.getElem?_erase, if_neg hold]
      | false => rfl
    exact .inl ⟨herase _ _, .inl (herase _ _)⟩

/-- What is kept twice is kept. -/
theorem KeptIn.trans {id : String} {halves : Prop} {dir' dir'' : SnapshotsDir} (h : dir.KeptIn id halves dir')
    (h' : dir'.KeptIn id halves dir'') : dir.KeptIn id halves dir'' := by
  rcases h' with ⟨hmetas', harchives'⟩ | hnone'
  · rcases h with ⟨hmetas, harchives⟩ | hnone
    · left
      refine ⟨hmetas'.trans hmetas, ?_⟩
      rcases harchives' with hsame' | hgone'
      · rcases harchives with hsame | ⟨hgone, hhalves⟩
        · exact .inl (hsame'.trans hsame)
        · exact .inr ⟨hsame'.trans hgone, hhalves⟩
      · exact .inr hgone'
    · exact .inr (hmetas'.trans hnone)
  · exact .inr hnone'

/-- **Rotation** leaves the files of a snapshot alone or removes them, as far as it can. -/
theorem keptIn_rotateSnapshots (maxSnapshots : Nat) (order : HashOrder SnapshotInfo) (removals : Removals)
    (dir : SnapshotsDir) (id : String) :
    dir.KeptIn id (removals.archive id = true ∧ removals.metadata id = false)
      (dir.rotateSnapshots maxSnapshots order removals) := by
  have hremove : ∀ (olds : List SnapshotInfo) (dir : SnapshotsDir),
      dir.KeptIn id (removals.archive id = true ∧ removals.metadata id = false)
        (olds.foldl (fun dir old => dir.removeSnapshot removals old) dir) := by
    intro olds
    induction olds with
    | nil => exact fun _ => .inl ⟨rfl, .inl rfl⟩
    | cons old olds ih => exact fun dir => (keptIn_removeSnapshot dir removals old id).trans (ih _)
  rw [rotateSnapshots]
  split
  · exact .inl ⟨rfl, .inl rfl⟩
  · exact hremove _ dir

/-- **What a creation does to another snapshot.** -/
theorem keptIn_tryCreateSnapshot (format : TarZstd α) (maxSnapshots : Nat) (live : LiveData α) {call : SnapshotCall}
    (ops : CreateOps) {id : String} (hid : call.snapshotId ≠ id) :
    dir.KeptIn id (ops.Halves id) (dir.tryCreateSnapshot format maxSnapshots live call ops).1 := by
  have hcmp : compare call.snapshotId id ≠ .eq := fun heq => hid (Std.compare_eq_iff_eq.1 heq)
  have harchive : ∀ bytes, (dir.writeArchive call.snapshotId bytes).archives[id]? = dir.archives[id]? := by
    intro bytes
    rw [SnapshotsDir.writeArchive, ExtTreeMap.getElem?_insert, if_neg hcmp]
  have hlost : ∀ dir : SnapshotsDir, (dir.loseMeta call.snapshotId).metas[id]? = dir.metas[id]? := by
    intro dir
    rw [loseMeta, ExtTreeMap.getElem?_erase, if_neg hcmp]
  have hwrite : ∀ archive, dir.KeptIn id (ops.Halves id) (dir.write { call with archive := archive }) := by
    intro archive
    left
    rw [SnapshotsDir.write]
    constructor
    · rw [ExtTreeMap.getElem?_insert]
      exact if_neg hcmp
    · left
      rw [ExtTreeMap.getElem?_insert]
      exact if_neg hcmp
  rw [tryCreateSnapshot]
  -- one case for each place at which the creation may end
  split
  · exact .inl ⟨rfl, .inl rfl⟩
  · split
    · next written _ => exact .inl ⟨rfl, .inl (harchive written)⟩
    · next archive _ =>
        split
        · exact .inl ⟨rfl, .inl (harchive archive)⟩
        · split
          · split
            · exact .inl ⟨hlost _, .inl (harchive archive)⟩
            · exact .inl ⟨rfl, .inl (harchive archive)⟩
          · split
            · exact hwrite archive
            · exact (hwrite archive).trans (keptIn_rotateSnapshots maxSnapshots call.order ops.removals _ id)

/-- **What a successful creation does to its own snapshot.** -/
theorem created_tryCreateSnapshot {format : TarZstd α} {maxSnapshots : Nat} {live : LiveData α} {call : SnapshotCall}
    {ops : CreateOps} {info : SnapshotInfo}
    (h : (dir.tryCreateSnapshot format maxSnapshots live call ops).2 = .ok info) :
    let dir' := (dir.tryCreateSnapshot format maxSnapshots live call ops).1
    dir'.metas[info.id]? = some info ∧ (dir'.archives[info.id]? = some (format.pack live.parts) ∨
        dir'.archives[info.id]? = none ∧ ops.Halves info.id) ∨ dir'.metas[info.id]? = none := by
  obtain ⟨hcreate, rfl⟩ := tryCreateSnapshot_ok h
  rw [hcreate]
  have hmetas : (dir.write { call with archive := format.pack live.parts }).metas[call.snapshotId]? =
      some { call with archive := format.pack live.parts }.info := ExtTreeMap.getElem?_insert_self
  have harchives : (dir.write { call with archive := format.pack live.parts }).archives[call.snapshotId]? =
      some (format.pack live.parts) := ExtTreeMap.getElem?_insert_self
  rcases keptIn_rotateSnapshots maxSnapshots call.order ops.removals
    (dir.write { call with archive := format.pack live.parts }) call.snapshotId with ⟨hm, ha⟩ | hnone
  · left
    exact ⟨hm.trans hmetas, ha.imp_left fun hsame => hsame.trans harchives⟩
  · exact .inr hnone

end SnapshotsDir

/-! ## Runs -/

/-- A running node and its snapshots. -/
structure Vault (α : Type) where
  live : LiveData α
  dir : SnapshotsDir

/-- What happens to a node between two snapshots, and the creations. -/
inductive VaultEvent (α : Type) where
  /-- The data become these. -/
  | write (live : LiveData α)
  | create (call : SnapshotCall) (ops : CreateOps)

namespace Vault

variable {format : TarZstd α} {maxSnapshots : Nat}

/-- One event. -/
def step (format : TarZstd α) (maxSnapshots : Nat) (v : Vault α) : VaultEvent α → Vault α
  | .write live => { v with live := live }
  | .create call ops => { v with dir := (v.dir.tryCreateSnapshot format maxSnapshots v.live call ops).1 }

/-- The snapshot `info` is there with its archive, or it is no longer listed, or a rotation has
removed the archive only. -/
def Kept (info : SnapshotInfo) (archive : Bytes) (halves : Prop) (v : Vault α) : Prop :=
  v.dir.metas[info.id]? = some info ∧
      (v.dir.archives[info.id]? = some archive ∨ v.dir.archives[info.id]? = none ∧ halves) ∨
    v.dir.metas[info.id]? = none

/-- **Step.** -/
theorem Kept.step {info : SnapshotInfo} {archive : Bytes} {halves : Prop} {v : Vault α} (h : Kept info archive halves v)
    {event : VaultEvent α}
    (hother : ∀ call ops, event = .create call ops → call.snapshotId ≠ info.id ∧ (ops.Halves info.id → halves)) :
    Kept info archive halves (v.step format maxSnapshots event) := by
  cases event with
  | write live => exact h
  | create call ops =>
      obtain ⟨hid, hhalves⟩ := hother call ops rfl
      have hkept : v.dir.KeptIn info.id (ops.Halves info.id)
          (v.dir.tryCreateSnapshot format maxSnapshots v.live call ops).1 :=
        SnapshotsDir.keptIn_tryCreateSnapshot format maxSnapshots v.live ops hid
      rcases hkept with ⟨hmetas, harchives⟩ | hnone
      · rcases h with ⟨hm, ha⟩ | hnone
        · left
          refine ⟨hmetas.trans hm, ?_⟩
          rcases harchives with hsame | ⟨hgone, hhalf⟩
          · exact ha.imp hsame.trans fun hgone => ⟨hsame.trans hgone.1, hgone.2⟩
          · exact .inr ⟨hgone, hhalves hhalf⟩
        · exact .inr (hmetas.trans hnone)
      · exact .inr hnone

/-- **Run.** -/
theorem Kept.run {info : SnapshotInfo} {archive : Bytes} {halves : Prop} (events : List (VaultEvent α))
    (hother : ∀ call ops, .create call ops ∈ events → call.snapshotId ≠ info.id ∧ (ops.Halves info.id → halves)) :
    ∀ {v : Vault α}, Kept info archive halves v →
      Kept info archive halves (events.foldl (Vault.step format maxSnapshots) v) := by
  induction events with
  | nil => exact fun h => h
  | cons event events ih =>
      intro v h
      apply ih (fun call ops hmem => hother call ops (List.mem_cons_of_mem _ hmem))
      apply h.step
      intro call ops heq
      apply hother call ops
      rw [heq]
      exact List.mem_cons_self

end Vault

/-! ## Restoring -/

/-- No file operation of a restore fails. -/
structure RestoreOps.Works (ops : RestoreOps α) : Prop where
  removeStaging : ops.removeStaging = .ok ()
  createStaging : ops.createStaging = .ok ()
  openFile : ops.openFile = .ok ()
  newDecoder : ops.newDecoder = .ok ()
  unpack : ops.unpack = .ok ()
  removeStorage : ops.removeStorage = .ok ()
  renameStorage : ops.renameStorage = .ok ()
  removeIndex : ops.removeIndex = .ok ()
  renameIndex : ops.renameIndex = .ok ()

/-- A directory is replaced if the archive has it. -/
theorem replaceDir_ok (restored current : Option α) :
    replaceDir (.ok ()) (.ok ()) restored current = (restored.or current, .ok ()) := by
  cases restored with
  | none => rfl
  | some new => simp [replaceDir]

/-- **A restore that does not fail.** -/
theorem restoreFromPath_works (path : String) (parts : SnapshotParts α) {ops : RestoreOps α} (hops : ops.Works)
    (d : DataDir α) :
    restoreFromPath path (some (.ok parts)) ops d =
      (⟨parts.rocksdb.or d.storage, parts.index.or d.index, ops.cleanUp⟩, .ok ()) := by
  have hunpack : unpackSnapshot path (some (.ok parts)) ops d = ({ d with staging := some parts }, .ok parts) := by
    rw [unpackSnapshot]
    simp only [hops.removeStaging, hops.createStaging, hops.openFile, hops.newDecoder, hops.unpack, ite_self]
    rfl
  rw [restoreFromPath, hunpack]
  simp only [hops.removeStorage, hops.renameStorage, hops.removeIndex, hops.renameIndex, replaceDir_ok]

/-- **Backups.** After any events a creation succeeds, and other events follow, none of which is a
creation under its id. If the snapshot is still listed, its metadata can be read. So can its archive,
and a restore of it that does not fail leaves the storage and the index as they were at the creation,
over any data; the index only if there was one. Otherwise a rotation, at this creation or since, could
remove the archive and not the metadata, and the archive is not found. -/
theorem restore_created (format : TarZstd α) (maxSnapshots : Nat) (start : Vault α)
    (before after : List (VaultEvent α)) (call : SnapshotCall) (ops : CreateOps) {info : SnapshotInfo} :
    let step := Vault.step format maxSnapshots
    let atCreation := before.foldl step start
    let now := after.foldl step (step atCreation (.create call ops))
    (atCreation.dir.tryCreateSnapshot format maxSnapshots atCreation.live call ops).2 = .ok info →
    (∀ later ops', .create later ops' ∈ after → later.snapshotId ≠ info.id) → info.id ∈ now.dir.metas →
      now.dir.getSnapshot info.id = .ok info ∧
        ((∃ bytes, now.dir.readSnapshotBytes info.id = .ok bytes ∧
          ∀ path (rops : RestoreOps α) (d : DataDir α), rops.Works →
            restoreFromPath path (some (format.unpack bytes)) rops d =
              (⟨some atCreation.live.storage, atCreation.live.index.or d.index, rops.cleanUp⟩, .ok ())) ∨
        (now.dir.readSnapshotBytes info.id = .error (.notFound ("snapshot file '" ++ info.id ++ "' not found")) ∧
          ∃ call' ops', .create call' ops' ∈ .create call ops :: after ∧ ops'.Halves info.id)) := by
  intro step atCreation now hcreated hother hlisted
  generalize hhalves : (∃ call' ops', .create call' ops' ∈ .create call ops :: after ∧
    CreateOps.Halves ops' info.id) = halves
  have hcreation : Vault.Kept info (format.pack atCreation.live.parts) halves (step atCreation (.create call ops)) := by
    refine (SnapshotsDir.created_tryCreateSnapshot hcreated).imp_left fun hthere => ⟨hthere.1, hthere.2.imp_right ?_⟩
    exact fun hgone => ⟨hgone.1, hhalves ▸ ⟨call, ops, List.mem_cons_self, hgone.2⟩⟩
  have hnow : Vault.Kept info (format.pack atCreation.live.parts) halves now := by
    refine hcreation.run after fun later ops' hmem => ⟨hother later ops' hmem, fun hhalf => ?_⟩
    exact hhalves ▸ ⟨later, ops', List.mem_cons_of_mem _ hmem, hhalf⟩
  rcases hnow with ⟨hmeta, harchive⟩ | hnone
  · refine ⟨by rw [SnapshotsDir.getSnapshot, hmeta], ?_⟩
    rcases harchive with hthere | ⟨hgone, hhalf⟩
    · left
      refine ⟨format.pack atCreation.live.parts, ?_, fun path rops d hrops => ?_⟩
      · rw [SnapshotsDir.readSnapshotBytes, hthere]
      · rw [format.unpack_pack, restoreFromPath_works path _ hrops]
        rfl
    · right
      exact ⟨by rw [SnapshotsDir.readSnapshotBytes, hgone], hhalf⟩
  · -- a listed snapshot is there
    rw [ExtTreeMap.mem_iff_isSome_getElem?, hnone] at hlisted
    exact absurd hlisted Bool.false_ne_true

end Create

/-! ## A node with two snapshots -/

/-- One byte for each part. -/
def bitCode : Option Bool → UInt8
  | none => 0
  | some false => 1
  | some true => 2

/-- The part of a byte. -/
def bitPart : UInt8 → Option Bool
  | 0 => none
  | 1 => some false
  | _ => some true

/-- Archives of two bytes. -/
def bitArchive : TarZstd Bool where
  pack parts := [bitCode parts.rocksdb, bitCode parts.index]
  unpack
    | [r, i] => .ok ⟨bitPart r, bitPart i⟩
    | _ => .error ("numeric field did not have utf-8 text", ⟨none, none⟩)
  unpack_pack parts := by
    obtain ⟨rocksdb, index⟩ := parts
    rcases rocksdb with _ | _ | _ <;> rcases index with _ | _ | _ <;> rfl

/-- No file operation of a creation fails. -/
def createSucceeds : CreateOps :=
  ⟨.ok (), .ok (), .ok (), .ok (), .ok (), .ok (), .ok (), .ok (), .ok (), .ok (), .ok (), .ok (), .ok (), .works⟩

/-- A snapshot at the entry `index` of the log. -/
def backupAt (index : UInt64) : SnapshotCall := ⟨1, index, 0, 1700000000, 1700000000, [], keyOrder SnapshotInfo⟩

/-- The data of the first snapshot are written over and snapshotted again. -/
theorem restore_created_first :
    let step := Vault.step bitArchive 3
    let atCreation : Vault Bool := ⟨⟨true, none⟩, ⟨∅, ∅⟩⟩
    let later := [.write ⟨false, some true⟩, .create (backupAt 8) createSucceeds]
    let now := later.foldl step (step atCreation (.create (backupAt 7) createSucceeds))
    ∃ (info : SnapshotInfo) (bytes : Bytes), info.id ∈ now.dir.metas ∧ now.dir.readSnapshotBytes info.id = .ok bytes ∧
      ∀ path (rops : RestoreOps Bool) (d : DataDir Bool), rops.Works →
        restoreFromPath path (some (bitArchive.unpack bytes)) rops d =
          (⟨some true, (none : Option Bool).or d.index, rops.cleanUp⟩, .ok ()) := by
  intro step atCreation later now
  have hother : ∀ call ops, .create call ops ∈ later → call.snapshotId ≠ "1-7-1700000000" := by
    intro call ops hmem
    rcases List.mem_cons.1 hmem with heq | hmem
    · cases heq
    · cases List.mem_singleton.1 hmem
      decide
  -- two of three places are taken, so nothing is rotated away
  have hdir : now.dir = ((⟨∅, ∅⟩ : SnapshotsDir).write { backupAt 7 with archive := [2, 0] }).write
      { backupAt 8 with archive := [1, 2] } := by
    show (((((⟨∅, ∅⟩ : SnapshotsDir).write { backupAt 7 with archive := [2, 0] }).rotateSnapshots 3 _ _).write
      { backupAt 8 with archive := [1, 2] }).rotateSnapshots 3 _ _) = _
    rw [SnapshotsDir.rotateSnapshots_of_le (by decide +kernel), SnapshotsDir.rotateSnapshots_of_le (by decide +kernel)]
  have hlisted : "1-7-1700000000" ∈ now.dir.metas := by
    rw [hdir, SnapshotsDir.mem_write, SnapshotsDir.mem_write]
    right
    left
    decide
  have hhalves : ∀ call ops, .create call ops ∈ .create (backupAt 7) createSucceeds :: later →
      ¬ CreateOps.Halves ops "1-7-1700000000" := by
    rintro call ops hmem ⟨-, hmeta⟩
    have hworks : ops.removals = .works := by
      rcases List.mem_cons.1 hmem with heq | hmem
      · cases heq
        rfl
      · rcases List.mem_cons.1 hmem with heq | hmem
        · cases heq
        · cases List.mem_singleton.1 hmem
          rfl
    rw [hworks] at hmeta
    cases hmeta
  have hcreated : (atCreation.dir.tryCreateSnapshot bitArchive 3 atCreation.live (backupAt 7) createSucceeds).2 =
      .ok ⟨"1-7-1700000000", 1, 7, 1700000000, 2, 0⟩ := by decide
  obtain ⟨-, ⟨bytes, hbytes, hrestore⟩ | ⟨-, call, ops, hmem, hhalf⟩⟩ :=
    restore_created bitArchive 3 atCreation [] later (backupAt 7) createSucceeds hcreated hother hlisted
  · exact ⟨_, bytes, hlisted, hbytes, hrestore⟩
  · exact absurd hhalf (hhalves call ops hmem)

end MSearchDB.Node
