import Mathlib.Tactic
import MSearchDB.Lib.Loop
import MSearchDB.Network.ForwardWrite

/-!
# Streaming a snapshot

The two ends of the `InstallSnapshot` call. `NodeClient::send_install_snapshot` of
`crates/network/src/client.rs` cuts the bytes of a snapshot into chunks, and
`NodeServiceImpl::install_snapshot` of `crates/network/src/server.rs` puts them together.

The chunks of a snapshot tile it (`Tiles`), whatever its length and the chunk size, and a
stream that tiles a snapshot is received as what it tiles (`streamed_losslessly`).
-/

set_option autoImplicit false

namespace MSearchDB.Network

open MSearchDB.Lib
open MSearchDB.Lib.Loop (Pass iterate exists_iterate)
open MSearchDB.Core

/-! ## The messages -/

/-- `proto::SnapshotChunk`. -/
structure SnapshotChunk where
  offset : UInt64
  data : Bytes
  done : Bool
  metadata : Bytes
  deriving DecidableEq

/-- `proto::InstallSnapshotResponse`. -/
structure InstallSnapshotResponse where
  payload : Bytes
  deriving DecidableEq

/-! ## The sender -/

/-- What the loop of `send_install_snapshot` keeps from pass to pass. -/
structure Sending where
  chunks : List SnapshotChunk
  offset : UInt64
  first : Bool

section Sender

variable (snapshotData : ByteVec) (metadata : Bytes) (chunkSize : UInt64)

/-- One pass of the loop; a panic of the slice leaves it. -/
def chunkPass (s : Sending) : Pass Sending (Option (List SnapshotChunk)) :=
  let total := snapshotData.len
  if s.offset < total then
    let stop := min (s.offset + chunkSize) total
    match snapshotData.slice s.offset stop with
    | none => .leave none
    | some data =>
        let chunk := ⟨s.offset, data, decide (stop = total), if s.first then metadata else []⟩
        .again ⟨s.chunks ++ [chunk], stop, false⟩
  else .leave (some s.chunks)

/-- The chunks that `send_install_snapshot` streams: `none` after `fuel` passes without an end,
`some none` after a panic. -/
def snapshotChunks (fuel : Nat) : Option (Option (List SnapshotChunk)) :=
  (iterate (chunkPass snapshotData metadata chunkSize) fuel ⟨[], 0, true⟩).map fun left =>
    left.map fun chunks => if chunks.isEmpty then [⟨0, [], true, metadata⟩] else chunks

/-- `NodeClient::send_install_snapshot` over a channel. -/
def sendInstallSnapshot [StatusDisplay] (call : List SnapshotChunk → Except Status InstallSnapshotResponse)
    (fuel : Nat) : Option (DbResult Unit) :=
  match snapshotChunks snapshotData metadata chunkSize fuel with
  | some (some chunks) =>
      some ((call chunks).map (fun _ => ()) |>.mapError fun e =>
        .networkError ("install_snapshot RPC failed: " ++ StatusDisplay.fmt e))
  | _ => none

end Sender

/-! ## The receiver -/

/-- The loop of `install_snapshot` over the stream: the metadata and `full_data`. -/
def receiveChunks (metadataBytes : Option Bytes) (fullData : Bytes) :
    List (Except Status SnapshotChunk) → Except Status (Option Bytes × Bytes)
  | [] => .ok (metadataBytes, fullData)
  | .error e :: _ => .error e
  | .ok chunk :: stream =>
      let metadataBytes :=
        if chunk.metadata ≠ [] ∧ metadataBytes = none then some chunk.metadata else metadataBytes
      let fullData := fullData ++ chunk.data
      if chunk.done then .ok (metadataBytes, fullData) else receiveChunks metadataBytes fullData stream

section Receiver

variable {ρ α : Type} [SerdeJson ρ] [SerdeJson α]

/-- `NodeServiceImpl::install_snapshot`, where `installSnapshot` is the handler of the Raft
node. -/
def serveInstallSnapshot (installSnapshot : ρ → Except String α) (stream : List (Except Status SnapshotChunk)) :
    Except Status InstallSnapshotResponse :=
  match receiveChunks none [] stream with
  | .error e => .error e
  | .ok (none, _) => .error (.invalidArgument "no snapshot metadata received")
  -- only the metadata is deserialized: the data received is dropped
  | .ok (some metadata, _) =>
      match (SerdeJson.fromSlice metadata : Except String ρ) with
      | .error e => .error (.invalidArgument ("failed to deserialize snapshot metadata: " ++ e))
      | .ok raftReq =>
          match installSnapshot raftReq with
          | .error e => .error (.internal ("install_snapshot failed: " ++ e))
          | .ok resp =>
              match SerdeJson.toVec resp with
              | .error e => .error (.internal ("failed to serialize InstallSnapshot response: " ++ e))
              | .ok payload => .ok ⟨payload⟩

end Receiver

/-! ## Streams that tile a snapshot -/

/-- `Tiles p n bytes chunks`: from the offset `n` on the chunks carry `bytes`, one after the
other, the first with the metadata `p` and the others with none, and the last is done. -/
inductive Tiles : Bytes → Nat → Bytes → List SnapshotChunk → Prop where
  | last {chunk : SnapshotChunk} :
      chunk.done = true → Tiles chunk.metadata chunk.offset.toNat chunk.data [chunk]
  | cons {chunk : SnapshotChunk} {bytes : Bytes} {chunks : List SnapshotChunk} :
      chunk.done = false → Tiles [] (chunk.offset.toNat + chunk.data.length) bytes chunks →
      Tiles chunk.metadata chunk.offset.toNat (chunk.data ++ bytes) (chunk :: chunks)

/-- What the stream of a snapshot is to be. -/
structure Lossless (metadata bytes : Bytes) (chunks : List SnapshotChunk) : Prop where
  /-- Exactly the last chunk is done. -/
  done : ∃ init last, chunks = init ++ [last] ∧ last.done = true ∧ ∀ chunk ∈ init, chunk.done = false
  /-- An offset is the sum of the lengths before it. -/
  offsets : ∀ (i : Nat) (hi : i < chunks.length),
    chunks[i].offset.toNat = ((chunks.take i).map fun chunk => chunk.data.length).sum
  /-- Only the first chunk carries metadata. -/
  firstOnly : ∃ first rest, chunks = first :: rest ∧ first.metadata = metadata ∧
    ∀ chunk ∈ rest, chunk.metadata = []
  received : receiveChunks none [] (chunks.map .ok) = .ok (some metadata, bytes)

namespace Tiles

variable {p bytes : Bytes} {n : Nat} {chunks : List SnapshotChunk}

theorem done (h : Tiles p n bytes chunks) :
    ∃ init last, chunks = init ++ [last] ∧ last.done = true ∧ ∀ chunk ∈ init, chunk.done = false := by
  induction h with
  | last hdone => exact ⟨[], _, rfl, hdone, fun chunk hmem => absurd hmem List.not_mem_nil⟩
  | cons hdone _ ih =>
      obtain ⟨init, last, rfl, hlast, hinit⟩ := ih
      exact ⟨_ :: init, last, rfl, hlast, List.forall_mem_cons.2 ⟨hdone, hinit⟩⟩

theorem offsets (h : Tiles p n bytes chunks) (i : Nat) (hi : i < chunks.length) :
    chunks[i].offset.toNat = n + ((chunks.take i).map fun chunk => chunk.data.length).sum := by
  induction h generalizing i with
  | last hdone =>
      obtain rfl : i = 0 := by simpa using hi
      rfl
  | @cons chunk bytes chunks hdone _ ih =>
      cases i with
      | zero => rfl
      | succ i =>
          rw [List.getElem_cons_succ, ih i (Nat.lt_of_succ_lt_succ hi), List.take_succ_cons, List.map_cons,
            List.sum_cons, Nat.add_assoc]

theorem firstOnly (h : Tiles p n bytes chunks) :
    ∃ first rest, chunks = first :: rest ∧ first.metadata = p ∧ ∀ chunk ∈ rest, chunk.metadata = [] := by
  induction h with
  | last hdone => exact ⟨_, [], rfl, rfl, fun chunk hmem => absurd hmem List.not_mem_nil⟩
  | cons hdone _ ih =>
      obtain ⟨first, rest, rfl, hfirst, hrest⟩ := ih
      exact ⟨_, first :: rest, rfl, rfl, List.forall_mem_cons.2 ⟨hfirst, hrest⟩⟩

/-- The receiver takes the metadata where it has none, and the bytes. -/
theorem received (h : Tiles p n bytes chunks) (metadataBytes : Option Bytes) (fullData : Bytes) :
    receiveChunks metadataBytes fullData (chunks.map .ok) =
      .ok (if p ≠ [] ∧ metadataBytes = none then some p else metadataBytes, fullData ++ bytes) := by
  induction h generalizing metadataBytes fullData with
  | last hdone =>
      rw [List.map_singleton, receiveChunks]
      simp only [hdone, if_true]
  | cons hdone _ ih =>
      rw [List.map_cons, receiveChunks]
      simp only [hdone, Bool.false_eq_true, if_false]
      rw [ih, List.append_assoc]
      simp only [ne_eq, not_true_eq_false, false_and, if_false]

end Tiles

/-- A stream that tiles a snapshot from its start loses nothing of it. -/
theorem Tiles.lossless {metadata bytes : Bytes} {chunks : List SnapshotChunk} (hmeta : metadata ≠ [])
    (h : Tiles metadata 0 bytes chunks) : Lossless metadata bytes chunks := by
  refine ⟨h.done, fun i hi => ?_, h.firstOnly, ?_⟩
  · rw [h.offsets i hi, Nat.zero_add]
  · rw [h.received none [], if_pos ⟨hmeta, rfl⟩, List.nil_append]

/-! ## The chunks tile the snapshot -/

section Cutting

variable {snapshotData : ByteVec} {metadata : Bytes} {chunkSize : UInt64} {s : Sending}

/-- The state of the loop: what is left of the snapshot completes the chunks there are, and the
next end does not wrap. -/
structure Cutting (snapshotData : ByteVec) (metadata : Bytes) (chunkSize : UInt64) (s : Sending) : Prop where
  noWrap : s.offset.toNat < snapshotData.bytes.length → s.offset.toNat + chunkSize.toNat < 2 ^ 64
  /-- Chunks that tile the rest, of which there is some, end the stream. -/
  open' : s.offset.toNat < snapshotData.bytes.length → ∀ chunks,
    Tiles (if s.first then metadata else []) s.offset.toNat (snapshotData.bytes.drop s.offset.toNat) chunks →
    Tiles metadata 0 snapshotData.bytes (s.chunks ++ chunks)
  /-- At the end of a snapshot that is not empty the stream is complete. -/
  closed : snapshotData.bytes.length ≤ s.offset.toNat →
    (Tiles metadata 0 snapshotData.bytes s.chunks ∨ snapshotData.bytes = [] ∧ s.chunks = [])

theorem cutting_start (snapshotData : ByteVec) (metadata : Bytes) (chunkSize : UInt64) :
    Cutting snapshotData metadata chunkSize ⟨[], 0, true⟩ where
  noWrap := fun _ => by simpa using chunkSize.toNat_lt
  open' := fun _ chunks h => h
  closed := fun h => Or.inr ⟨List.length_eq_zero_iff.1 (Nat.le_zero.1 h), rfl⟩

theorem lt_len_iff {offset : UInt64} : offset < snapshotData.len ↔ offset.toNat < snapshotData.bytes.length := by
  rw [UInt64.lt_iff_toNat_lt, ByteVec.toNat_len]

/-- The end of the next chunk, without a wrap. -/
theorem toNat_stop (snapshotData : ByteVec) {offset : UInt64} (hwrap : offset.toNat + chunkSize.toNat < 2 ^ 64) :
    (min (offset + chunkSize) snapshotData.len).toNat =
      min (offset.toNat + chunkSize.toNat) snapshotData.bytes.length := by
  have hsum : (offset + chunkSize).toNat = offset.toNat + chunkSize.toNat := by
    rw [UInt64.toNat_add, Nat.mod_eq_of_lt hwrap]
  have hmin : min (offset + chunkSize) snapshotData.len =
      if offset + chunkSize ≤ snapshotData.len then offset + chunkSize else snapshotData.len := rfl
  rw [hmin]
  by_cases hle : offset + chunkSize ≤ snapshotData.len
  · have hle' : offset.toNat + chunkSize.toNat ≤ snapshotData.bytes.length := by
      rw [UInt64.le_iff_toNat_le, hsum, ByteVec.toNat_len] at hle
      exact hle
    rw [if_pos hle, hsum, Nat.min_eq_left hle']
  · have hge : snapshotData.bytes.length ≤ offset.toNat + chunkSize.toNat := by
      rw [UInt64.le_iff_toNat_le, hsum, ByteVec.toNat_len] at hle
      omega
    rw [if_neg hle, ByteVec.toNat_len, Nat.min_eq_right hge]

/-- The slice of the next chunk is in bounds. -/
theorem slice_stop {offset : UInt64} (hwrap : offset.toNat + chunkSize.toNat < 2 ^ 64)
    (hlt : offset.toNat < snapshotData.bytes.length) :
    snapshotData.slice offset (min (offset + chunkSize) snapshotData.len) =
      some ((snapshotData.bytes.take (min (offset.toNat + chunkSize.toNat) snapshotData.bytes.length)).drop
        offset.toNat) := by
  have hstop := toNat_stop snapshotData hwrap
  rw [ByteVec.slice, hstop, if_pos]
  rw [UInt64.le_iff_toNat_le, UInt64.le_iff_toNat_le, hstop, ByteVec.toNat_len]
  omega

/-- A pass before the end appends a chunk and goes on behind it. -/
theorem chunkPass_of_lt (metadata : Bytes) (hwrap : s.offset.toNat + chunkSize.toNat < 2 ^ 64)
    (hlt : s.offset.toNat < snapshotData.bytes.length) :
    ∃ chunk stop, chunkPass snapshotData metadata chunkSize s = .again ⟨s.chunks ++ [chunk], stop, false⟩ ∧
      chunk.offset = s.offset ∧ chunk.metadata = (if s.first then metadata else []) ∧
      chunk.data = (snapshotData.bytes.take stop.toNat).drop s.offset.toNat ∧
      (chunk.done = true ↔ stop.toNat = snapshotData.bytes.length) ∧
      stop.toNat = min (s.offset.toNat + chunkSize.toNat) snapshotData.bytes.length := by
  have hstop := toNat_stop snapshotData hwrap
  have hslice := slice_stop hwrap hlt
  rw [← hstop] at hslice
  refine ⟨⟨s.offset, _, decide (min (s.offset + chunkSize) snapshotData.len = snapshotData.len),
    if s.first then metadata else []⟩, min (s.offset + chunkSize) snapshotData.len, ?_, rfl, rfl, rfl, ?_, hstop⟩
  · rw [chunkPass]
    simp only [if_pos (lt_len_iff.2 hlt), hslice]
  · rw [decide_eq_true_iff, ← UInt64.toNat_inj, ByteVec.toNat_len]

/-- Each pass keeps the state of the loop and gets nearer to the end. -/
theorem Cutting.again (hsize : 1 ≤ chunkSize.toNat) (h : Cutting snapshotData metadata chunkSize s) {s' : Sending}
    (hpass : chunkPass snapshotData metadata chunkSize s = .again s') :
    Cutting snapshotData metadata chunkSize s' ∧
      snapshotData.bytes.length - s'.offset.toNat < snapshotData.bytes.length - s.offset.toNat := by
  have hlt : s.offset.toNat < snapshotData.bytes.length := by
    by_contra hge
    rw [chunkPass] at hpass
    simp only [if_neg (mt lt_len_iff.1 hge)] at hpass
    cases hpass
  obtain ⟨chunk, stop, hagain, hoffset, hmeta, hdata, hdone, hstop⟩ :=
    chunkPass_of_lt metadata (h.noWrap hlt) hlt
  cases hagain.symm.trans hpass
  have hlength : chunk.data.length = stop.toNat - s.offset.toNat := by
    rw [hdata, List.length_drop, List.length_take]
    omega
  refine ⟨⟨fun hmore => ?_, fun hmore chunks htiles => ?_, fun hend => ?_⟩, ?_⟩
  · -- the chunk was a whole one, so its size is below the length of a vector
    have hmore' : stop.toNat < snapshotData.bytes.length := hmore
    have := snapshotData.length_le
    show stop.toNat + chunkSize.toNat < 2 ^ 64
    omega
  · have hmore' : stop.toNat < snapshotData.bytes.length := hmore
    have hnot : chunk.done = false := Bool.eq_false_iff.2 fun hd => absurd (hdone.1 hd) (by omega)
    have hrest : snapshotData.bytes.drop s.offset.toNat = chunk.data ++ snapshotData.bytes.drop stop.toNat := by
      rw [hdata, ← List.drop_append_of_le_length (by rw [List.length_take]; omega), List.take_append_drop]
    have hnext : chunk.offset.toNat + chunk.data.length = stop.toNat := by
      rw [hoffset, hlength]
      omega
    have hcons := Tiles.cons hnot (by rw [hnext]; exact htiles)
    rw [hoffset, hmeta, ← hrest] at hcons
    show Tiles metadata 0 snapshotData.bytes (s.chunks ++ [chunk] ++ chunks)
    rw [List.append_assoc]
    exact h.open' hlt _ hcons
  · have hend' : snapshotData.bytes.length ≤ stop.toNat := hend
    have hstopEq : stop.toNat = snapshotData.bytes.length := by omega
    have hlast := Tiles.last (hdone.2 hstopEq)
    rw [hoffset, hmeta, hdata, hstopEq, List.take_length] at hlast
    exact Or.inl (h.open' hlt _ hlast)
  · show snapshotData.bytes.length - stop.toNat < _
    omega

/-- The loop is left at the end, with the chunks it has. -/
theorem Cutting.leave (h : Cutting snapshotData metadata chunkSize s) {left : Option (List SnapshotChunk)}
    (hpass : chunkPass snapshotData metadata chunkSize s = .leave left) :
    ∃ chunks, left = some chunks ∧
      (Tiles metadata 0 snapshotData.bytes chunks ∨ snapshotData.bytes = [] ∧ chunks = []) := by
  by_cases hlt : s.offset.toNat < snapshotData.bytes.length
  · obtain ⟨chunk, stop, hagain, -⟩ := chunkPass_of_lt metadata (h.noWrap hlt) hlt
    cases hagain.symm.trans hpass
  · rw [chunkPass] at hpass
    simp only [if_neg (mt lt_len_iff.1 hlt)] at hpass
    cases hpass
    exact ⟨s.chunks, rfl, h.closed (Nat.le_of_not_lt hlt)⟩

/-- The loop ends and its chunks tile the snapshot. -/
theorem exists_snapshotChunks (snapshotData : ByteVec) (metadata : Bytes) {chunkSize : UInt64}
    (hsize : 1 ≤ chunkSize.toNat) {fuel : Nat} (hfuel : snapshotData.bytes.length < fuel) :
    ∃ chunks, snapshotChunks snapshotData metadata chunkSize fuel = some (some chunks) ∧
      Tiles metadata 0 snapshotData.bytes chunks := by
  obtain ⟨left, hleft, chunks, rfl, hchunks⟩ :=
    exists_iterate (μ := fun s : Sending => snapshotData.bytes.length - s.offset.toNat)
      (fun _ _ h hpass => Cutting.leave h hpass) (fun _ _ h hpass => Cutting.again hsize h hpass) fuel _
      (cutting_start snapshotData metadata chunkSize)
      (by simpa using hfuel)
  rw [snapshotChunks, hleft]
  rcases hchunks with htiles | ⟨hempty, rfl⟩
  · obtain ⟨first, rest, rfl, -⟩ := htiles.firstOnly
    exact ⟨_, rfl, htiles⟩
  · -- an empty snapshot is one empty chunk
    refine ⟨_, rfl, ?_⟩
    rw [hempty]
    exact @Tiles.last ⟨0, [], true, metadata⟩ rfl

end Cutting

/-- **A snapshot is streamed without loss.** For every snapshot, every metadata that is not empty
and every chunk size from 1 on, the loop of the sender ends, exactly its last chunk is done, the
offsets are the running sums of the lengths, only the first chunk carries metadata, and the
loop of the receiver ends with the metadata and the bytes. -/
theorem streamed_losslessly (snapshotData : ByteVec) (metadata : Bytes) (chunkSize : UInt64)
    (hmeta : metadata ≠ []) (hsize : 1 ≤ chunkSize) :
    ∃ chunks, Lossless metadata snapshotData.bytes chunks ∧
      ∀ fuel, snapshotData.bytes.length < fuel →
        snapshotChunks snapshotData metadata chunkSize fuel = some (some chunks) := by
  have hsize' : 1 ≤ chunkSize.toNat := UInt64.le_iff_toNat_le.1 hsize
  obtain ⟨chunks, hchunks, htiles⟩ :=
    exists_snapshotChunks snapshotData metadata hsize' (Nat.lt_succ_self snapshotData.bytes.length)
  refine ⟨chunks, htiles.lossless hmeta, fun fuel hfuel => ?_⟩
  obtain ⟨more, rfl⟩ := Nat.exists_eq_add_of_le (Nat.succ_le_of_lt hfuel)
  rw [snapshotChunks, Option.map_eq_some_iff] at hchunks ⊢
  obtain ⟨left, hleft, hmap⟩ := hchunks
  exact ⟨left, Loop.iterate_add _ more _ hleft, hmap⟩

/-- Five bytes in chunks of two. -/
theorem streamed_losslessly_five :
    ([7] : Bytes) ≠ [] ∧ 1 ≤ (2 : UInt64) ∧ ∃ chunks, Lossless [7] [1, 2, 3, 4, 5] chunks ∧
      ∀ fuel, 5 < fuel → snapshotChunks ⟨[1, 2, 3, 4, 5], by decide⟩ [7] 2 fuel = some (some chunks) :=
  ⟨by decide, by decide, streamed_losslessly ⟨[1, 2, 3, 4, 5], by decide⟩ [7] 2 (by decide) (by decide)⟩

/-- Without a chunk size the loop never ends. -/
theorem snapshotChunks_zero {snapshotData : ByteVec} (metadata : Bytes) (hdata : snapshotData.bytes ≠ [])
    (fuel : Nat) : snapshotChunks snapshotData metadata 0 fuel = none := by
  have hloop : ∀ (n : Nat) (s : Sending), s.offset = 0 → iterate (chunkPass snapshotData metadata 0) n s = none := by
    intro n
    induction n with
    | zero => exact fun s _ => rfl
    | succ n ih =>
        intro s hs
        have hzero : s.offset.toNat = 0 := by rw [hs]; rfl
        have hwrap : s.offset.toNat + (0 : UInt64).toNat < 2 ^ 64 := by rw [hzero]; decide
        have hlt : s.offset.toNat < snapshotData.bytes.length := by rw [hzero]; exact List.length_pos_of_ne_nil hdata
        obtain ⟨chunk, stop, hagain, -, -, -, -, hstop⟩ := chunkPass_of_lt metadata hwrap hlt
        rw [iterate, hagain]
        refine ih _ (UInt64.toNat_inj.1 ?_)
        rw [hstop, hzero]
        exact Nat.zero_min _
  rw [snapshotChunks, hloop fuel _ rfl]
  rfl

/-! ## Both ends -/

section Ends

variable {ρ α : Type} [SerdeJson ρ] [SerdeJson α] [StatusDisplay]

/-- The other node installs the request in the metadata, when it reads it back, and the bytes that
were streamed are not read. -/
theorem sendInstallSnapshot_served (installSnapshot : ρ → Except String α) (snapshotData : ByteVec)
    {chunkSize : UInt64} (hsize : 1 ≤ chunkSize.toNat) {raftReq : ρ} {metadata : Bytes} (hmeta : metadata ≠ [])
    (hreq : SerdeJson.Codes raftReq metadata) {resp : α} (hresp : installSnapshot raftReq = .ok resp)
    {payload : Bytes} (hpayload : SerdeJson.toVec resp = .ok payload) {fuel : Nat}
    (hfuel : snapshotData.bytes.length < fuel) :
    sendInstallSnapshot snapshotData metadata chunkSize
      (fun chunks => serveInstallSnapshot installSnapshot (chunks.map .ok)) fuel = some (.ok ()) := by
  obtain ⟨chunks, hchunks, htiles⟩ := exists_snapshotChunks snapshotData metadata hsize hfuel
  have hserved : serveInstallSnapshot installSnapshot (chunks.map .ok) = .ok ⟨payload⟩ := by
    rw [serveInstallSnapshot, (htiles.lossless hmeta).received]
    simp only [hreq.2, hresp, hpayload]
  rw [sendInstallSnapshot, hchunks]
  simp only [hserved]
  rfl

end Ends

end MSearchDB.Network
