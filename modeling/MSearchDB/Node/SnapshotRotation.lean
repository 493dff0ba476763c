import MSearchDB.Lib.Distinct
import MSearchDB.Lib.OrderedMap
import MSearchDB.Lib.Run
import MSearchDB.Lib.Sorting
import MSearchDB.Index.CollectionIndex

/-!
# Rotation of snapshots

The snapshots directory of `crates/node/src/snapshot_manager.rs`: `create_snapshot` writes an
archive and its metadata and `rotate_snapshots` then removes what `list_snapshots` sorts
behind the first `max_snapshots`. The sort compares seconds and the rest is decided by the
order in which the directory is read.

Where the files can be written and removed, the number of snapshots is always right. The
newest stay, the one just created included, exactly as long as in a full directory the
oldest one sorts last (`keepsNewest_iff`).
-/

set_option autoImplicit false

namespace MSearchDB.Node

open Std (ExtTreeMap)
open MSearchDB.Lib
open MSearchDB.Core
open MSearchDB.Index (HashOrder keyOrder)

/-! ## The directory -/

/-- `SnapshotInfo`. -/
structure SnapshotInfo where
  id : String
  term : UInt64
  lastLogIndex : UInt64
  createdAt : UInt64
  sizeBytes : UInt64
  docCount : UInt64
  deriving DecidableEq, Repr

/-- The snapshots directory: the archives `<id>.snap` and the metadata `<id>.meta.json`. -/
structure SnapshotsDir where
  archives : ExtTreeMap String Bytes
  metas : ExtTreeMap String SnapshotInfo

/-- The arguments of `create_snapshot`, the two readings of the clock, the archive that is
written and the order in which the directory is read. -/
structure SnapshotCall where
  term : UInt64
  lastLogIndex : UInt64
  docCount : UInt64
  timestamp : UInt64
  createdAt : UInt64
  archive : Bytes
  order : HashOrder SnapshotInfo

/-- `format!("{}-{}-{}", term, last_log_index, timestamp)`. -/
def SnapshotCall.snapshotId (call : SnapshotCall) : String :=
  toString call.term.toNat ++ "-" ++ toString call.lastLogIndex.toNat ++ "-" ++ toString call.timestamp.toNat

/-- What the call writes as metadata and returns. -/
def SnapshotCall.info (call : SnapshotCall) : SnapshotInfo :=
  ⟨call.snapshotId, call.term, call.lastLogIndex, call.createdAt, UInt64.ofNat call.archive.length, call.docCount⟩

/-- Whether `fs::remove_file` removes the archive and the metadata of a snapshot. A rotation ignores
its errors. -/
structure Removals where
  archive : String → Bool
  metadata : String → Bool

/-- Every file can be removed. -/
def Removals.works : Removals := ⟨fun _ => true, fun _ => true⟩

/-- `b.created_at.cmp(&a.created_at)`. -/
def newestFirst (a b : SnapshotInfo) : Ordering := compare b.createdAt.toNat a.createdAt.toNat

namespace SnapshotsDir

/-- The metadata in the order in which the directory is read. -/
def readDir (order : HashOrder SnapshotInfo) (dir : SnapshotsDir) : List SnapshotInfo :=
  (order.iter dir.metas).map Prod.snd

/-- `list_snapshots`. -/
def listSnapshots (order : HashOrder SnapshotInfo) (dir : SnapshotsDir) : List SnapshotInfo :=
  sortBy newestFirst (dir.readDir order)

/-- `get_snapshot`. -/
def getSnapshot (dir : SnapshotsDir) (snapshotId : String) : DbResult SnapshotInfo :=
  match dir.metas[snapshotId]? with
  | some info => .ok info
  | none => .error (.notFound ("snapshot '" ++ snapshotId ++ "' not found"))

/-- The two files of a snapshot are removed, where that succeeds. -/
def removeSnapshot (dir : SnapshotsDir) (removals : Removals) (old : SnapshotInfo) : SnapshotsDir :=
  ⟨if removals.archive old.id then dir.archives.erase old.id else dir.archives,
    if removals.metadata old.id then dir.metas.erase old.id else dir.metas⟩

/-- `rotate_snapshots`. -/
def rotateSnapshots (maxSnapshots : Nat) (order : HashOrder SnapshotInfo) (removals : Removals)
    (dir : SnapshotsDir) : SnapshotsDir :=
  let snapshots := dir.listSnapshots order
  if snapshots.length ≤ maxSnapshots then dir
  else (snapshots.drop maxSnapshots).foldl (fun dir old => dir.removeSnapshot removals old) dir

/-- The two files of a snapshot are written. -/
def write (dir : SnapshotsDir) (call : SnapshotCall) : SnapshotsDir :=
  ⟨dir.archives.insert call.snapshotId call.archive, dir.metas.insert call.snapshotId call.info⟩

/-- `create_snapshot`, when the file operations succeed. -/
def createSnapshot (maxSnapshots : Nat) (dir : SnapshotsDir) (call : SnapshotCall) : SnapshotsDir × SnapshotInfo :=
  ((dir.write call).rotateSnapshots maxSnapshots call.order .works, call.info)

end SnapshotsDir

/-! ## Runs -/

/-- The directory, and what the calls have returned. -/
structure Snapshots where
  dir : SnapshotsDir
  created : List SnapshotInfo

namespace Snapshots

/-- Before the first call. -/
def start : Snapshots := ⟨⟨∅, ∅⟩, []⟩

/-- One call of `create_snapshot`. -/
def step (maxSnapshots : Nat) (s : Snapshots) (call : SnapshotCall) : Snapshots :=
  let (dir, info) := s.dir.createSnapshot maxSnapshots call
  ⟨dir, s.created ++ [info]⟩

/-- The ids that were created, in the order of their last creation. -/
def ids (s : Snapshots) : List String := (s.created.map SnapshotInfo.id).dedup

/-- The first created of the snapshots that are there. -/
def oldest (s : Snapshots) : Option String := s.ids.find? (· ∈ s.dir.metas)

/-- What a call of `create_snapshot` leaves. -/
structure KeepsNewest (maxSnapshots : Nat) (s : Snapshots) : Prop where
  /-- The snapshot that was returned last is there and can be listed. -/
  returned : ∀ info, s.created.getLast? = some info →
    info.id ∈ s.dir.archives ∧ s.dir.getSnapshot info.id = .ok info ∧ ∀ order, info ∈ s.dir.listSnapshots order
  /-- As many remain as were created, up to the maximum. -/
  number : s.dir.metas.size = min s.ids.length maxSnapshots
  /-- What was created after a snapshot that remains, remains. -/
  newest : s.ids.Pairwise fun id later => id ∈ s.dir.metas → later ∈ s.dir.metas

/-- Every other snapshot of the list was created in a later second, or it was created in the same
second and is read before. -/
def SortsLast (snapshots : List SnapshotInfo) (info : SnapshotInfo) : Prop :=
  ∀ other ∈ snapshots, other ≠ info →
    info.createdAt.toNat < other.createdAt.toNat ∨
      info.createdAt.toNat = other.createdAt.toNat ∧ [other, info].Sublist snapshots

/-- A call that adds a snapshot to a full directory, and reads one in which the oldest sorts
last. -/
def RotatesOldest (maxSnapshots : Nat) (s : Snapshots) (call : SnapshotCall) : Prop :=
  call.snapshotId ∉ s.dir.metas → s.dir.metas.size = maxSnapshots →
    ∀ info ∈ (s.dir.write call).readDir call.order, s.oldest = some info.id →
      SortsLast ((s.dir.write call).readDir call.order) info

end Snapshots

/-! ## Reading the directory -/

namespace SnapshotsDir

/-- A snapshot is filed under its id, both files of it. -/
structure WellFiled (dir : SnapshotsDir) : Prop where
  keys : ∀ (id : String) (info : SnapshotInfo), dir.metas[id]? = some info → info.id = id
  archived : ∀ id, id ∈ dir.archives ↔ id ∈ dir.metas

variable {dir : SnapshotsDir} {order : HashOrder SnapshotInfo} {info : SnapshotInfo}

theorem WellFiled.mem_readDir (h : dir.WellFiled) : info ∈ dir.readDir order ↔ dir.metas[info.id]? = some info := by
  rw [readDir, List.mem_map]
  constructor
  · rintro ⟨⟨id, info'⟩, hmem, rfl⟩
    have hget := ExtTreeMap.mem_toList_iff_getElem?_eq_some.1 ((order.perm dir.metas).mem_iff.1 hmem)
    rwa [h.keys id info' hget]
  · intro hget
    exact ⟨(info.id, info), (order.perm dir.metas).mem_iff.2 (ExtTreeMap.mem_toList_iff_getElem?_eq_some.2 hget), rfl⟩

theorem WellFiled.mem_listSnapshots (h : dir.WellFiled) :
    info ∈ dir.listSnapshots order ↔ dir.metas[info.id]? = some info := by
  rw [listSnapshots, mem_sortBy, h.mem_readDir]

theorem length_readDir : (dir.readDir order).length = dir.metas.size := by
  rw [readDir, List.length_map, (order.perm dir.metas).length_eq, ExtTreeMap.length_toList]

theorem length_listSnapshots : (dir.listSnapshots order).length = dir.metas.size := by
  rw [listSnapshots, length_sortBy, length_readDir]

/-- Snapshots with an id of their own are read once. -/
theorem WellFiled.nodup_readDir (h : dir.WellFiled) : (dir.readDir order).Nodup := by
  have hids : (order.iter dir.metas).map Prod.fst = (dir.readDir order).map SnapshotInfo.id := by
    rw [readDir, List.map_map]
    refine List.map_congr_left fun entry hmem => ?_
    have hget := ExtTreeMap.mem_toList_iff_getElem?_eq_some.1 ((order.perm dir.metas).mem_iff.1 hmem)
    exact (h.keys entry.1 entry.2 hget).symm
  have hnodup := nodup_fst_of_perm (order.perm dir.metas)
  rw [hids] at hnodup
  exact List.Nodup.of_map _ hnodup

theorem WellFiled.write (h : dir.WellFiled) (call : SnapshotCall) : (dir.write call).WellFiled := by
  constructor
  · intro id info hget
    rw [SnapshotsDir.write, ExtTreeMap.getElem?_insert] at hget
    split at hget
    · rename_i heq
      cases hget
      exact Std.compare_eq_iff_eq.1 heq
    · exact h.keys id info hget
  · intro id
    rw [SnapshotsDir.write, ExtTreeMap.mem_insert, ExtTreeMap.mem_insert, h.archived]

/-- Both files of a snapshot go. -/
theorem removeSnapshot_works (dir : SnapshotsDir) (old : SnapshotInfo) :
    dir.removeSnapshot .works old = ⟨dir.archives.erase old.id, dir.metas.erase old.id⟩ := rfl

theorem WellFiled.removeSnapshot (h : dir.WellFiled) (old : SnapshotInfo) :
    (dir.removeSnapshot .works old).WellFiled := by
  constructor
  · intro id info hget
    rw [removeSnapshot_works, ExtTreeMap.getElem?_erase] at hget
    split at hget
    · cases hget
    · exact h.keys id info hget
  · intro id
    rw [removeSnapshot_works, ExtTreeMap.mem_erase, ExtTreeMap.mem_erase, h.archived]

theorem mem_write {call : SnapshotCall} {id : String} :
    id ∈ (dir.write call).metas ↔ id = call.snapshotId ∨ id ∈ dir.metas := by
  rw [SnapshotsDir.write, ExtTreeMap.mem_insert, Std.compare_eq_iff_eq, eq_comm]

theorem mem_removeSnapshot {old : SnapshotInfo} {id : String} :
    id ∈ (dir.removeSnapshot .works old).metas ↔ id ≠ old.id ∧ id ∈ dir.metas := by
  rw [removeSnapshot_works, ExtTreeMap.mem_erase, ne_eq, Std.compare_eq_iff_eq, ne_comm]

theorem rotateSnapshots_of_le {maxSnapshots : Nat} {removals : Removals} (hle : dir.metas.size ≤ maxSnapshots) :
    dir.rotateSnapshots maxSnapshots order removals = dir := by
  rw [rotateSnapshots, if_pos]
  rwa [length_listSnapshots]

/-- One snapshot too many, and the last of the list goes. -/
theorem rotateSnapshots_of_succ {maxSnapshots : Nat} (hsize : dir.metas.size = maxSnapshots + 1) :
    ∃ front info, dir.listSnapshots order = front ++ [info] ∧
      dir.rotateSnapshots maxSnapshots order .works = dir.removeSnapshot .works info := by
  have hlength : (dir.listSnapshots order).length = maxSnapshots + 1 := by rw [length_listSnapshots, hsize]
  have hne : dir.listSnapshots order ≠ [] := fun hnil => by simp [hnil] at hlength
  have hsplit := (List.dropLast_append_getLast hne).symm
  refine ⟨_, _, hsplit, ?_⟩
  have hfront : (dir.listSnapshots order).dropLast.length = maxSnapshots := by
    rw [List.length_dropLast, hlength]
    rfl
  have hdrop : (dir.listSnapshots order).drop maxSnapshots = [(dir.listSnapshots order).getLast hne] := by
    conv_lhs => rw [hsplit]
    rw [← hfront, List.drop_left]
  rw [rotateSnapshots, if_neg (by omega), hdrop]
  rfl

/-- What the list ends with. -/
theorem WellFiled.listSnapshots_last_iff (h : dir.WellFiled) :
    (∃ front, dir.listSnapshots order = front ++ [info]) ↔
      info ∈ dir.readDir order ∧ Snapshots.SortsLast (dir.readDir order) info := by
  have htrans : Std.TransCmp newestFirst :=
    @transCmp_on _ _ (fun x y : Nat => compare y x) inferInstance fun info : SnapshotInfo => info.createdAt.toNat
  rw [listSnapshots, sortBy_last_iff h.nodup_readDir]
  refine and_congr_right fun _ => forall_congr' fun other => imp_congr_right fun _ => imp_congr_right fun _ => ?_
  rw [newestFirst, Nat.compare_eq_lt, Nat.compare_eq_eq]

end SnapshotsDir

/-! ## What a call does -/

namespace Snapshots

/-- What holds after any calls: the files are in order, and as many snapshots are there as were
created, up to the maximum. -/
structure Filed (maxSnapshots : Nat) (s : Snapshots) : Prop where
  wellFiled : s.dir.WellFiled
  known : ∀ id, id ∈ s.dir.metas → id ∈ s.ids
  number : s.dir.metas.size = min s.ids.length maxSnapshots

section Step

variable {maxSnapshots : Nat} {s : Snapshots} {call : SnapshotCall}

theorem ids_step : (step maxSnapshots s call).ids = s.ids.filter (· ≠ call.snapshotId) ++ [call.snapshotId] := by
  rw [ids, ids, step, List.map_append]
  exact dedup_concat _ call.snapshotId

theorem getLast?_step : (step maxSnapshots s call).created.getLast? = some call.info := by
  rw [step, List.getLast?_concat]
  rfl

theorem nodup_ids : s.ids.Nodup := List.nodup_dedup _

theorem length_ids_step :
    (step maxSnapshots s call).ids.length = if call.snapshotId ∈ s.ids then s.ids.length else s.ids.length + 1 := by
  rw [ids_step, List.length_append, List.length_singleton]
  split
  case isTrue hmem => exact length_filter_ne nodup_ids hmem
  case isFalse hnot =>
    rw [List.filter_eq_self.2]
    intro id hid
    exact decide_eq_true fun heq => hnot (heq ▸ hid)

theorem size_write :
    (s.dir.write call).metas.size =
      if call.snapshotId ∈ s.dir.metas then s.dir.metas.size else s.dir.metas.size + 1 := by
  rw [SnapshotsDir.write, ExtTreeMap.size_insert]
  rfl

/-- Without a rotation the snapshot is added. -/
theorem dir_step_of_le (hle : (s.dir.write call).metas.size ≤ maxSnapshots) :
    (step maxSnapshots s call).dir = s.dir.write call :=
  SnapshotsDir.rotateSnapshots_of_le hle

/-- A new snapshot in a full directory: one of them goes. -/
theorem dir_step_of_full (hnew : call.snapshotId ∉ s.dir.metas)
    (hfull : s.dir.metas.size = maxSnapshots) :
    ∃ info, (∃ front, (s.dir.write call).listSnapshots call.order = front ++ [info]) ∧
      (step maxSnapshots s call).dir = (s.dir.write call).removeSnapshot .works info := by
  have hsize : (s.dir.write call).metas.size = maxSnapshots + 1 := by rw [size_write, if_neg hnew, hfull]
  have hrotated : ∃ front info, (s.dir.write call).listSnapshots call.order = front ++ [info] ∧
      (s.dir.write call).rotateSnapshots maxSnapshots call.order .works =
        (s.dir.write call).removeSnapshot .works info :=
    SnapshotsDir.rotateSnapshots_of_succ hsize
  obtain ⟨front, info, hlast, hdir⟩ := hrotated
  exact ⟨info, ⟨front, hlast⟩, hdir⟩

theorem Filed.size_le (h : s.Filed maxSnapshots) : s.dir.metas.size ≤ maxSnapshots := by
  have := h.number
  omega

/-- Below the maximum every id that was created is there. -/
theorem Filed.mem_of_lt (h : s.Filed maxSnapshots) (hlt : s.dir.metas.size < maxSnapshots) {id : String}
    (hid : id ∈ s.ids) : id ∈ s.dir.metas := by
  by_contra hnot
  have hsub : s.dir.metas.keys ⊆ s.ids.filter (· ≠ id) := by
    intro k hk
    have hmem : k ∈ s.dir.metas := ExtTreeMap.mem_keys.1 hk
    exact List.mem_filter.2 ⟨h.known k hmem, decide_eq_true fun heq => hnot (heq ▸ hmem)⟩
  have hle := (ExtTreeMap.nodup_keys.subperm hsub).length_le
  have hlength := length_filter_ne nodup_ids hid
  have hnumber := h.number
  rw [ExtTreeMap.length_keys] at hle
  omega

/-- The steps of the directory: an addition, or an addition and the last of the list removed. -/
theorem Filed.step_cases (h : s.Filed maxSnapshots) (call : SnapshotCall) :
    (step maxSnapshots s call).dir = s.dir.write call ∧
      (call.snapshotId ∈ s.dir.metas ∨ call.snapshotId ∉ s.ids ∧ s.dir.metas.size < maxSnapshots) ∨
    (call.snapshotId ∉ s.dir.metas ∧ s.dir.metas.size = maxSnapshots ∧
      ∃ info, (∃ front, (s.dir.write call).listSnapshots call.order = front ++ [info]) ∧
        (step maxSnapshots s call).dir = (s.dir.write call).removeSnapshot .works info) := by
  have hle := h.size_le
  by_cases hmem : call.snapshotId ∈ s.dir.metas
  · refine Or.inl ⟨dir_step_of_le ?_, Or.inl hmem⟩
    rw [size_write, if_pos hmem]
    exact hle
  · rcases Nat.lt_or_eq_of_le hle with hlt | hfull
    · refine Or.inl ⟨dir_step_of_le ?_, Or.inr ⟨fun hid => hmem (h.mem_of_lt hlt hid), hlt⟩⟩
      rw [size_write, if_neg hmem]
      exact hlt
    · exact Or.inr ⟨hmem, hfull, dir_step_of_full hmem hfull⟩

theorem Filed.step (h : s.Filed maxSnapshots) (call : SnapshotCall) :
    (step maxSnapshots s call).Filed maxSnapshots := by
  have hwritten := h.wellFiled.write call
  have hids : ∀ id, id ∈ (s.dir.write call).metas → id ∈ (Snapshots.step maxSnapshots s call).ids := by
    intro id hid
    rw [ids_step, List.mem_append, List.mem_singleton, List.mem_filter]
    by_cases heq : id = call.snapshotId
    · exact Or.inr heq
    · exact Or.inl ⟨h.known id ((SnapshotsDir.mem_write.1 hid).resolve_left heq), decide_eq_true heq⟩
  have hnumber := h.number
  have hlength : (Snapshots.step maxSnapshots s call).ids.length = _ := length_ids_step
  rcases h.step_cases call with ⟨hdir, hcase⟩ | ⟨hnew, hfull, info, hlast, hdir⟩
  · refine ⟨hdir ▸ hwritten, fun id hid => hids id (hdir ▸ hid), ?_⟩
    rw [hdir, size_write, hlength]
    rcases hcase with hmem | ⟨hnot, hlt⟩
    · rw [if_pos hmem, if_pos (h.known _ hmem), hnumber]
    · rw [if_neg fun hmem => hnot (h.known _ hmem), if_neg hnot]
      omega
  · have hinfo := (hwritten.listSnapshots_last_iff.1 hlast).1
    have hthere : info.id ∈ (s.dir.write call).metas := by
      rw [ExtTreeMap.mem_iff_isSome_getElem?, hwritten.mem_readDir.1 hinfo]
      rfl
    refine ⟨hdir ▸ hwritten.removeSnapshot info, fun id hid => hids id ?_, ?_⟩
    · rw [hdir] at hid
      exact (SnapshotsDir.mem_removeSnapshot.1 hid).2
    · have hsize : ((s.dir.write call).removeSnapshot .works info).metas.size = (s.dir.write call).metas.size - 1 := by
        rw [SnapshotsDir.removeSnapshot_works, ExtTreeMap.size_erase, if_pos (ExtTreeMap.contains_iff_mem.2 hthere)]
      rw [hdir, hsize, size_write, if_neg hnew, hlength]
      split <;> omega

/-- The call keeps its part when its metadata is in the directory. -/
theorem returned_of_mem {dir : SnapshotsDir} (h : dir.WellFiled) {info : SnapshotInfo}
    (hget : dir.metas[info.id]? = some info) :
    info.id ∈ dir.archives ∧ dir.getSnapshot info.id = .ok info ∧ ∀ order, info ∈ dir.listSnapshots order := by
  refine ⟨(h.archived _).2 ?_, ?_, fun order => h.mem_listSnapshots.2 hget⟩
  · rw [ExtTreeMap.mem_iff_isSome_getElem?, hget]
    rfl
  · rw [SnapshotsDir.getSnapshot, hget]

/-- An addition keeps the newest. -/
theorem KeepsNewest.added (h : s.Filed maxSnapshots) (hkeeps : s.KeepsNewest maxSnapshots)
    (hdir : (step maxSnapshots s call).dir = s.dir.write call) :
    (step maxSnapshots s call).KeepsNewest maxSnapshots := by
  have hfiled := h.step call
  refine ⟨fun info hinfo => ?_, hfiled.number, ?_⟩
  · rw [getLast?_step] at hinfo
    cases hinfo
    refine returned_of_mem hfiled.wellFiled ?_
    rw [hdir, SnapshotsDir.write]
    exact ExtTreeMap.getElem?_insert_self
  · rw [ids_step, hdir]
    refine List.pairwise_append.2 ⟨?_, List.pairwise_singleton _ _, fun a _ b hb _ => ?_⟩
    · refine (hkeeps.newest.filter _).imp_of_mem fun {a b} ha _ hab hthere => ?_
      have hne : a ≠ call.snapshotId := of_decide_eq_true (List.mem_filter.1 ha).2
      exact SnapshotsDir.mem_write.2 (Or.inr (hab ((SnapshotsDir.mem_write.1 hthere).resolve_left hne)))
    · rw [List.mem_singleton.1 hb]
      exact SnapshotsDir.mem_write.2 (Or.inl rfl)

/-- A snapshot that is there splits the ids at the oldest: none before it is there, and all after
it are. -/
theorem KeepsNewest.split (hkeeps : s.KeepsNewest maxSnapshots) {id : String} (hid : s.oldest = some id) :
    id ∈ s.dir.metas ∧ ∃ before after, s.ids = before ++ id :: after ∧ (∀ k ∈ before, k ∉ s.dir.metas) ∧
      ∀ k ∈ after, k ∈ s.dir.metas := by
  obtain ⟨hthere, before, after, hsplit, hbefore⟩ := List.find?_eq_some_iff_append.1 hid
  have hmem : id ∈ s.dir.metas := of_decide_eq_true hthere
  refine ⟨hmem, before, after, hsplit, fun k hk => ?_, fun k hk => ?_⟩
  · exact of_decide_eq_false (by simpa using hbefore k hk)
  · have hpair := hkeeps.newest
    rw [hsplit] at hpair
    exact (List.pairwise_cons.1 (List.pairwise_append.1 hpair).2.1).1 k hk hmem

theorem ids_step_of_split {id : String} {before after : List String} (hsplit : s.ids = before ++ id :: after)
    (hne : id ≠ call.snapshotId) :
    (step maxSnapshots s call).ids =
      before.filter (· ≠ call.snapshotId) ++ id :: (after.filter (· ≠ call.snapshotId) ++ [call.snapshotId]) := by
  rw [ids_step, hsplit, List.filter_append, List.filter_cons_of_pos (by simp [hne]), List.append_assoc,
    List.cons_append]

/-- What is there after a rotation. -/
theorem mem_metas_of_removed {info : SnapshotInfo}
    (hdir : (step maxSnapshots s call).dir = (s.dir.write call).removeSnapshot .works info) (k : String) :
    k ∈ (step maxSnapshots s call).dir.metas ↔ k ≠ info.id ∧ (k = call.snapshotId ∨ k ∈ s.dir.metas) := by
  rw [hdir, SnapshotsDir.mem_removeSnapshot, SnapshotsDir.mem_write]

section Removed

variable {id : String} {info : SnapshotInfo}

/-- Where the newest are kept, a full directory has lost its oldest snapshot. -/
theorem KeepsNewest.eq_oldest (h : s.Filed maxSnapshots) (hkeeps : s.KeepsNewest maxSnapshots)
    (hnew : call.snapshotId ∉ s.dir.metas) (hid : s.oldest = some id) (hinfo : info.id ∈ (s.dir.write call).metas)
    (hdir : (step maxSnapshots s call).dir = (s.dir.write call).removeSnapshot .works info)
    (hnext : (step maxSnapshots s call).KeepsNewest maxSnapshots) : info.id = id := by
  obtain ⟨hold, before, after, hsplit, hbefore, hafter⟩ := hkeeps.split hid
  have hne : id ≠ call.snapshotId := fun heq => hnew (heq ▸ hold)
  by_contra hother
  -- the oldest is still there, so all the later ones are
  have hpair := hnext.newest
  rw [ids_step_of_split hsplit hne] at hpair
  have hlater := (List.pairwise_cons.1 (List.pairwise_append.1 hpair).2.1).1
  have hremoved : info.id ∈ after.filter (· ≠ call.snapshotId) ++ [call.snapshotId] := by
    rcases SnapshotsDir.mem_write.1 hinfo with heq | hmem
    · rw [heq]
      exact List.mem_append_right _ (List.mem_singleton_self _)
    · refine List.mem_append_left _ (List.mem_filter.2 ⟨?_, decide_eq_true fun heq => hnew (heq ▸ hmem)⟩)
      have hknown := h.known _ hmem
      rw [hsplit, List.mem_append, List.mem_cons] at hknown
      rcases hknown with hb | heq | ha
      · exact absurd hmem (hbefore _ hb)
      · exact absurd heq hother
      · exact ha
  have hthere := mem_metas_of_removed hdir
  have hback := hlater _ hremoved ((hthere id).2 ⟨fun heq => hother heq.symm, Or.inr hold⟩)
  exact ((hthere _).1 hback).1 rfl

/-- Without its oldest snapshot a full directory keeps the newest. -/
theorem KeepsNewest.removed (h : s.Filed maxSnapshots) (hkeeps : s.KeepsNewest maxSnapshots)
    (hnew : call.snapshotId ∉ s.dir.metas) (hid : s.oldest = some id)
    (hdir : (step maxSnapshots s call).dir = (s.dir.write call).removeSnapshot .works info) (heq : info.id = id) :
    (step maxSnapshots s call).KeepsNewest maxSnapshots := by
  obtain ⟨hold, before, after, hsplit, hbefore, hafter⟩ := hkeeps.split hid
  have hne : id ≠ call.snapshotId := fun heq => hnew (heq ▸ hold)
  have hnodup := nodup_ids (s := s)
  rw [hsplit] at hnodup
  have hfiled := h.step call
  have hthere := mem_metas_of_removed hdir
  refine ⟨fun info' hinfo' => ?_, hfiled.number, ?_⟩
  · rw [getLast?_step] at hinfo'
    cases hinfo'
    refine returned_of_mem hfiled.wellFiled ?_
    have hother : info.id ≠ call.snapshotId := by rw [heq]; exact hne
    rw [hdir, SnapshotsDir.removeSnapshot_works, ExtTreeMap.getElem?_erase, if_neg, SnapshotsDir.write]
    · exact ExtTreeMap.getElem?_insert_self
    · rw [Std.compare_eq_iff_eq]
      exact hother
  · rw [ids_step_of_split hsplit hne]
    -- behind the removed one all are there, and before it none is
    have hall : ∀ k ∈ after.filter (· ≠ call.snapshotId) ++ [call.snapshotId],
        k ∈ (step maxSnapshots s call).dir.metas := by
      intro k hk
      rw [hthere, heq]
      rcases List.mem_append.1 hk with hk | hk
      · have hk' := (List.mem_filter.1 hk).1
        refine ⟨fun hkid => ?_, Or.inr (hafter k hk')⟩
        exact (List.nodup_cons.1 (List.nodup_append.1 hnodup).2.1).1 (hkid ▸ hk')
      · rw [List.mem_singleton.1 hk]
        exact ⟨hne.symm, Or.inl rfl⟩
    have hnone : ∀ k ∈ before.filter (· ≠ call.snapshotId), k ∉ (step maxSnapshots s call).dir.metas := by
      intro k hk hmem
      have hk' := List.mem_filter.1 hk
      exact absurd (((hthere k).1 hmem).2.resolve_left (of_decide_eq_true hk'.2)) (hbefore k hk'.1)
    refine List.pairwise_append.2 ⟨?_, List.pairwise_cons.2 ⟨fun k hk _ => hall k hk, ?_⟩, fun a ha b _ hab => ?_⟩
    · exact List.pairwise_of_forall_mem_list fun a ha b _ hab => absurd hab (hnone a ha)
    · exact List.pairwise_of_forall_mem_list fun a _ b hb _ => hall b hb
    · exact absurd hab (hnone a ha)

/-- In a full directory the newest are kept when the oldest is removed. -/
theorem keepsNewest_removed_iff (h : s.Filed maxSnapshots) (hkeeps : s.KeepsNewest maxSnapshots)
    (hnew : call.snapshotId ∉ s.dir.metas) (hid : s.oldest = some id) (hinfo : info.id ∈ (s.dir.write call).metas)
    (hdir : (step maxSnapshots s call).dir = (s.dir.write call).removeSnapshot .works info) :
    (step maxSnapshots s call).KeepsNewest maxSnapshots ↔ info.id = id :=
  ⟨hkeeps.eq_oldest h hnew hid hinfo hdir, hkeeps.removed h hnew hid hdir⟩

end Removed

/-- A directory that is not empty has an oldest snapshot. -/
theorem Filed.exists_oldest (h : s.Filed maxSnapshots) (hpos : 0 < s.dir.metas.size) : ∃ id, s.oldest = some id := by
  rw [← Option.isSome_iff_exists, oldest, List.find?_isSome]
  rw [← ExtTreeMap.length_keys] at hpos
  obtain ⟨k, hk⟩ := List.exists_mem_of_length_pos hpos
  have hmem : k ∈ s.dir.metas := ExtTreeMap.mem_keys.1 hk
  exact ⟨k, h.known k hmem, decide_eq_true hmem⟩

/-- **One call.** The newest snapshots are kept exactly when the oldest of a full directory sorts
last. -/
theorem keepsNewest_step_iff (hmax : 1 ≤ maxSnapshots) (h : s.Filed maxSnapshots)
    (hkeeps : s.KeepsNewest maxSnapshots) (call : SnapshotCall) :
    (step maxSnapshots s call).KeepsNewest maxSnapshots ↔ s.RotatesOldest maxSnapshots call := by
  rcases h.step_cases call with ⟨hdir, hcase⟩ | ⟨hnew, hfull, info, hlast, hdir⟩
  · refine iff_of_true (hkeeps.added h hdir) fun hnew hfull => ?_
    rcases hcase with hmem | ⟨-, hlt⟩
    · exact absurd hmem hnew
    · omega
  · obtain ⟨id, hid⟩ := h.exists_oldest (by omega)
    have hwritten := h.wellFiled.write call
    obtain ⟨hread, hsorts⟩ := hwritten.listSnapshots_last_iff.1 hlast
    have hget := hwritten.mem_readDir.1 hread
    have hthere : info.id ∈ (s.dir.write call).metas := by
      rw [ExtTreeMap.mem_iff_isSome_getElem?, hget]
      rfl
    rw [keepsNewest_removed_iff h hkeeps hnew hid hthere hdir]
    constructor
    · intro heq _ _ other hother hotherId
      have hsame : other.id = info.id := by
        rw [hid] at hotherId
        rw [heq]
        exact (Option.some.inj hotherId).symm
      have hget' := hwritten.mem_readDir.1 hother
      rw [hsame, hget] at hget'
      cases hget'
      exact hsorts
    · intro hrotates
      -- the oldest is read, and the list ends with one snapshot only
      have hmem : id ∈ (s.dir.write call).metas := SnapshotsDir.mem_write.2 (Or.inr (hkeeps.split hid).1)
      obtain ⟨old, hold⟩ := Option.isSome_iff_exists.1 (ExtTreeMap.mem_iff_isSome_getElem?.1 hmem)
      have holdId : old.id = id := hwritten.keys id old hold
      have holdRead : old ∈ (s.dir.write call).readDir call.order := by
        rw [hwritten.mem_readDir, holdId]
        exact hold
      have hsortsOld := hrotates hnew hfull old holdRead (by rw [hid, holdId])
      obtain ⟨front, hfront⟩ := hwritten.listSnapshots_last_iff.2 ⟨holdRead, hsortsOld⟩
      obtain ⟨front', hfront'⟩ := hlast
      have hends : old = info := by
        have heq := hfront.symm.trans hfront'
        exact List.singleton_inj.1 (List.append_inj_right' heq rfl)
      rw [← hends, holdId]

end Step

theorem filed_start (maxSnapshots : Nat) : start.Filed maxSnapshots where
  wellFiled := ⟨fun id info hget => by simp [start] at hget, fun id => by simp [start]⟩
  known := fun id hid => by simp [start] at hid
  number := by simp [start, ids]

theorem keepsNewest_start (maxSnapshots : Nat) : start.KeepsNewest maxSnapshots where
  returned := fun info hinfo => by simp [start] at hinfo
  number := (filed_start maxSnapshots).number
  newest := by simp [start, ids]

/-- **Rotation keeps the newest snapshots exactly as long as the oldest sorts last.** After every
call of a history the snapshot it returned is there and can be listed, as many snapshots remain as
were created with distinct ids, up to the maximum, and none that was removed was created
after one that remains, if and only if in every call that adds an id to a full directory the
snapshot created first among those there sorts last: no other, the new one included, has an
earlier second, and those of the same second are read before it. -/
theorem keepsNewest_iff {maxSnapshots : Nat} (hmax : 1 ≤ maxSnapshots) (calls : List SnapshotCall) :
    (∀ pre, pre <+: calls → (pre.foldl (step maxSnapshots) start).KeepsNewest maxSnapshots) ↔
      Along (step maxSnapshots) (RotatesOldest maxSnapshots) start calls :=
  forall_prefix_iff_along (I := Filed maxSnapshots) (P := KeepsNewest maxSnapshots) (fun _ call h => h.step call)
    (fun _ call h hkeeps => keepsNewest_step_iff hmax h hkeeps call)
    (filed_start maxSnapshots) (keepsNewest_start maxSnapshots) calls

/-- A snapshot taken in the second 1700000000. -/
def snapshotAt (lastLogIndex : UInt64) : SnapshotCall :=
  ⟨1, lastLogIndex, 0, 1700000000, 1700000000, [40, 181, 47, 253], keyOrder SnapshotInfo⟩

theorem keepsNewest_one :
    1 ≤ 1 ∧ ∀ pre, pre <+: [snapshotAt 10] → (pre.foldl (step 1) start).KeepsNewest 1 :=
  ⟨le_rfl, (keepsNewest_iff le_rfl [snapshotAt 10]).2 ⟨fun _ hfull => absurd hfull (by decide), trivial⟩⟩

/-- The directory is read in the order of the names. -/
theorem readDir_two :
    ((step 1 start (snapshotAt 10)).dir.write (snapshotAt 20)).readDir (snapshotAt 20).order =
      [(snapshotAt 10).info, (snapshotAt 20).info] := by
  decide +kernel

/-- Of two snapshots of one second the new one is removed. -/
theorem not_keepsNewest_two :
    ([snapshotAt 10].foldl (step 1) start).KeepsNewest 1 ∧
      ¬ ([snapshotAt 10, snapshotAt 20].foldl (step 1) start).KeepsNewest 1 := by
  have hone : ([snapshotAt 10].foldl (step 1) start).KeepsNewest 1 :=
    (keepsNewest_step_iff le_rfl (filed_start 1) (keepsNewest_start 1) (snapshotAt 10)).2
      fun _ hfull => absurd hfull (by decide)
  refine ⟨hone, fun htwo => ?_⟩
  have hrotates := (keepsNewest_step_iff le_rfl ((filed_start 1).step (snapshotAt 10)) hone (snapshotAt 20)).1 htwo
  have hsorts := hrotates (by decide +kernel) (by decide +kernel) (snapshotAt 10).info
    (by rw [readDir_two]; simp) (by decide +kernel)
  rw [readDir_two] at hsorts
  rcases hsorts (snapshotAt 20).info (by simp) (by decide +kernel) with hlt | ⟨-, hsub⟩
  · exact absurd hlt (by decide)
  · exact absurd hsub (by decide +kernel)

end Snapshots

end MSearchDB.Node
