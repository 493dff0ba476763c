import MSearchDB.Storage.WalLog
import MSearchDB.Storage.WalPayload

/-!
# Reading a log back

A crash leaves a byte prefix of the file the writer meant to leave. `read_all`
recovers the whole entries of such a prefix (`lt_length_wholeEntries_iff`) exactly
when the cut leaves fewer than four bytes of the torn frame (`readAll_prefix_iff`):
a longer piece takes a read that does not treat the end of the file as the end of
the log.

A writer opened on a prefix continues it safely exactly when the prefix does not
end one, two or three bytes into a frame (`resumes_iff`). Such a piece is
invisible to the reader that determines the next sequence number, but the new
frames are appended after it.

On files that were not cut, `read_all` returns the entries of all sessions, and
on arbitrary bytes it terminates and accepts only payloads with the stored
checksum (`readAll_round_trip`).
-/

set_option autoImplicit false

namespace MSearchDB.Storage.Wal

open MSearchDB.Lib
open MSearchDB.Lib.Loop (Pass iterate iterate_eq_loop loop_reaches Reaches reaches_invariant)
open MSearchDB.Core

section Recovery

variable [Crc32Fast] [RmpSerde WalEntry]

/-- The entries whose frames lie wholly inside the first `n` bytes of the log. -/
def wholeEntries (es : List WalEntry) (n : Nat) : List WalEntry :=
  es.take (wholeBlocks (framesOf es) n)

/-- The bytes of a torn frame among the first `n` bytes of the log. -/
def tornBytes (es : List WalEntry) (n : Nat) : Nat := tornLength (framesOf es) n

/-- A prefix of a log is the log of its whole entries and a proper piece of one
further frame. -/
theorem IsLog.prefix_cases {bytes p : Bytes} {es : List WalEntry} (h : IsLog bytes es)
    (hp : p <+: bytes) :
    ∃ torn : Bytes, p = (framesOf (wholeEntries es p.length)).flatten ++ torn ∧
      torn.length = tornBytes es p.length ∧
      (torn = [] ∨ ∃ payload : Bytes, payload.length < 2 ^ 32 ∧ torn <+: frame payload ∧
        torn.length < (frame payload).length) := by
  rw [h.bytes_eq] at hp
  obtain ⟨torn, hsplit, hlen, hcase⟩ := prefix_flatten (framesOf es) p hp
  refine ⟨torn, ?_, hlen, ?_⟩
  · rw [wholeEntries, framesOf, List.map_take]
    exact hsplit
  · rcases hcase with hnil | ⟨b, hb, hpre, hlt⟩
    · exact Or.inl hnil
    · -- the next block is the frame of an entry of the log
      rw [framesOf, List.getElem?_map] at hb
      cases he : es[wholeBlocks (framesOf es) p.length]? with
      | none =>
          rw [framesOf] at he
          rw [he] at hb
          cases hb
      | some e =>
          rw [framesOf] at he
          rw [he, Option.map_some] at hb
          obtain ⟨payload, hvec, hfit⟩ := h.fits e (List.mem_of_getElem? he)
          rw [frameOf_eq hvec] at hb
          cases Option.some.inj hb
          exact Or.inr ⟨payload, hfit, hpre, hlt⟩

theorem IsLog.wholeEntries_fits {bytes : Bytes} {es : List WalEntry} (h : IsLog bytes es) (n : Nat) :
    ∀ e ∈ wholeEntries es n, Fits e :=
  fun e he => h.fits e (List.mem_of_mem_take he)

/-- The outcome of `read_all` on a log cut anywhere. -/
theorem IsLog.readAll_prefix {bytes p : Bytes} {es : List WalEntry} (h : IsLog bytes es)
    (hp : p <+: bytes) :
    WalReader.readAll (some p) =
      if tornBytes es p.length < 4 then .ok (wholeEntries es p.length)
      else .error (.ofIo .unexpectedEof) := by
  obtain ⟨torn, hsplit, hlen, hcase⟩ := h.prefix_cases hp
  have hfits := h.wholeEntries_fits p.length
  -- the whole frames are read one by one, and the torn one decides
  have hread : WalReader.readAll (some p) =
      WalReader.readFrom ⟨torn, wholeEntries es p.length⟩ := by
    conv_lhs => rw [hsplit]
    rw [WalReader.readAll_some, WalReader.readFrom_frames torn _ [] hfits, List.nil_append]
  rw [hread, ← hlen]
  by_cases hshort : torn.length < 4
  · rw [if_pos hshort, WalReader.readFrom_short hshort]
  · rw [if_neg hshort]
    rcases hcase with rfl | ⟨payload, hfit, hpre, hlt⟩
    · simp at hshort
    · exact WalReader.readFrom_torn hfit hpre hlt (by omega) _

/-- An entry is whole exactly when its frame ends inside the first `n` bytes. -/
theorem lt_length_wholeEntries_iff (es : List WalEntry) (n i : Nat) :
    i < (wholeEntries es n).length ↔
      i < es.length ∧ (framesOf (es.take (i + 1))).flatten.length ≤ n := by
  have hle := wholeBlocks_le_length (framesOf es) n
  have hlen : (framesOf es).length = es.length := List.length_map frameOf
  have hiff := lt_wholeBlocks_iff (framesOf es) n i
  rw [hlen] at hle hiff
  rw [wholeEntries, List.length_take, Nat.min_eq_left hle, hiff, framesOf, framesOf, List.map_take]

/-- **Recovery after a crash.** `read_all` on a prefix of a log returns the
entries whose frames are complete exactly when fewer than four bytes of the next
frame are there. -/
theorem readAll_prefix_iff {appends : List Append} {more : List (List Append)} {file p : Bytes}
    (hfits : ∀ e ∈ numbered 0 (appends :: more).flatten, Fits e)
    (hfile : sessions none (appends :: more) = .ok (some file)) (hp : p <+: file) :
    WalReader.readAll (some p) =
        .ok (wholeEntries (numbered 0 (appends :: more).flatten) p.length) ↔
      tornBytes (numbered 0 (appends :: more).flatten) p.length < 4 := by
  obtain ⟨bytes, hbytes, hlog, -⟩ := sessions_isLog hfits hfile
  cases Option.some.inj hbytes
  rw [hlog.readAll_prefix hp]
  constructor
  · intro h
    by_contra hge
    rw [if_neg hge] at h
    cases h
  · intro h
    rw [if_pos h]

end Recovery

/-! A log of one checkpoint, written at a given time. -/

/-- One append: a checkpoint. -/
def oneCheckpoint : List Append := [(.checkpoint, 1700000000000)]

theorem oneCheckpoint_fits : ∀ e ∈ numbered 0 [oneCheckpoint].flatten, Fits e := by
  decide

theorem oneCheckpoint_file :
    sessions none [oneCheckpoint] =
      .ok (some (framesOf (numbered 0 [oneCheckpoint].flatten)).flatten) := by
  decide +kernel

/-- Three bytes of a frame end the log. -/
theorem readAll_prefix_three :
    WalReader.readAll (some [22, 0, 0]) = .ok [] :=
  (readAll_prefix_iff (p := [22, 0, 0]) oneCheckpoint_fits oneCheckpoint_file
    (by decide)).2 (by decide)

/-- Five bytes of a frame, one of them of its checksum, make `read_all` fail. -/
theorem readAll_prefix_five :
    ∃ file, (∀ e ∈ numbered 0 [oneCheckpoint].flatten, Fits e) ∧ sessions none [oneCheckpoint] = .ok (some file) ∧
      [22, 0, 0, 0, 96] <+: file ∧
      WalReader.readAll (some [22, 0, 0, 0, 96]) = .error (.ofIo .unexpectedEof) ∧
      WalReader.readAll (some [22, 0, 0, 0, 96]) ≠ .ok (wholeEntries (numbered 0 [oneCheckpoint].flatten) 5) := by
  have hfail : WalReader.readAll (some [22, 0, 0, 0, 96]) = .error (.ofIo .unexpectedEof) := by
    decide
  refine ⟨_, oneCheckpoint_fits, oneCheckpoint_file, by decide +kernel, hfail, ?_⟩
  rw [hfail]
  exact nofun

/-! ## Resuming a log -/

section Resume

variable [Crc32Fast] [RmpSerde WalEntry]

/-- Whatever is appended to the file `f` in a further session is read back after
the entries `es`, with increasing sequence numbers. -/
def Resumes (f : Bytes) (es : List WalEntry) : Prop :=
  ∀ (appends : List Append) (f' : Bytes),
    (∀ e ∈ numbered (UInt64.ofNat es.length) appends, Fits e) →
    session (some f) appends = .ok f' →
    WalReader.readAll (some f') = .ok (es ++ numbered (UInt64.ofNat es.length) appends) ∧
      ((es ++ numbered (UInt64.ofNat es.length) appends).map fun e => e.sequence).Pairwise (· < ·)

/-- A log resumes. -/
theorem IsLog.resumes {bytes : Bytes} {es : List WalEntry} (h : IsLog bytes es) :
    Resumes bytes es := by
  intro appends f' hfits hsession
  have hlog := h.append hfits
  rw [session_of_new h.new_eq hfits] at hsession
  split at hsession
  · next hroom =>
      cases Except.ok.inj hsession
      exact ⟨hlog.readAll_eq, hlog.sequence_pairwise (by rw [List.length_append]; exact hroom)⟩
  · cases hsession

/-- A writer opened on a prefix that reads back continues its numbering. -/
theorem IsLog.new_prefix {bytes p : Bytes} {es : List WalEntry} (h : IsLog bytes es)
    (hp : p <+: bytes) (htorn : tornBytes es p.length < 4) :
    WalWriter.new (some p) =
      .ok ⟨p, [], UInt64.ofNat (wholeEntries es p.length).length⟩ := by
  have hread := h.readAll_prefix hp
  rw [if_pos htorn] at hread
  have hnext := (h.take (wholeBlocks (framesOf es) p.length)).nextSequence_eq
  simp only [WalWriter.new, hread]
  show Except.ok (⟨p, [], _⟩ : WalWriter) = _
  rw [wholeEntries, hnext]

/-- A piece of one to three bytes swallows the start of a short frame written
after it and announces more bytes than follow. -/
theorem readFrom_after_piece {torn payload : Bytes} (hpos : 0 < torn.length)
    (hlt : torn.length < 4) (hpay : 0 < payload.length) (hsmall : payload.length < 256)
    (acc : List WalEntry) :
    WalReader.readFrom ⟨torn ++ frame payload, acc⟩ = .error (.ofIo .unexpectedEof) := by
  obtain ⟨m, hm⟩ : ∃ m, 4 - torn.length = m + 1 := ⟨3 - torn.length, by omega⟩
  have hcode : (UInt32.ofNat payload.length).toNat = payload.length :=
    UInt32.toNat_ofNat_of_lt (show payload.length < 2 ^ 32 by omega)
  -- the length prefix of the new frame starts with the payload length itself
  have hhead : frame payload = UInt8.ofNat payload.length :: (leBytes 3 (payload.length / 256) ++
      (toLeBytes32 (Crc32Fast.hash payload) ++ payload)) := by
    rw [frame, toLeBytes32, hcode, leBytes, List.cons_append]
  have hlenBuf : (torn ++ (frame payload).take (m + 1)).length = 4 := by
    rw [List.length_append, List.length_take, length_frame]
    omega
  have hsplit : torn ++ frame payload =
      (torn ++ (frame payload).take (m + 1)) ++ (frame payload).drop (m + 1) := by
    rw [List.append_assoc, List.take_append_drop]
  -- in the second place or later, that byte counts at least 256 times
  have hvalue : 256 * payload.length ≤
      (fromLeBytes32 (torn ++ (frame payload).take (m + 1))).toNat := by
    have hbyte : (UInt8.ofNat payload.length).toNat = payload.length := by
      rw [UInt8.toNat_ofNat']
      omega
    have hfirst : payload.length ≤ ofLe ((frame payload).take (m + 1)) := by
      rw [hhead, List.take_succ_cons, ofLe, hbyte]
      omega
    have hpow : 256 ^ 1 ≤ 256 ^ torn.length := Nat.pow_le_pow_right (by decide) hpos
    rw [toNat_fromLeBytes32 hlenBuf, ofLe_append]
    calc 256 * payload.length
        ≤ 256 ^ torn.length * ofLe ((frame payload).take (m + 1)) :=
          Nat.mul_le_mul (by simpa using hpow) hfirst
      _ ≤ ofLe torn + 256 ^ torn.length * ofLe ((frame payload).take (m + 1)) :=
          Nat.le_add_left _ _
  rw [hsplit]
  apply WalReader.readFrom_eof hlenBuf
  rw [List.length_drop, length_frame]
  omega

/-- A prefix that ends with a frame is a log itself; a prefix that ends four bytes
or more into a frame is not opened. -/
theorem IsLog.resumes_prefix {bytes p : Bytes} {es : List WalEntry} (h : IsLog bytes es)
    (hp : p <+: bytes) (htorn : tornBytes es p.length = 0 ∨ 4 ≤ tornBytes es p.length) :
    Resumes p (wholeEntries es p.length) := by
  rcases htorn with hzero | hfour
  · have hwhole : p = ((framesOf es).take (wholeBlocks (framesOf es) p.length)).flatten :=
      prefix_eq_of_tornLength_eq_zero (h.bytes_eq ▸ hp) hzero
    have hlog := h.take (wholeBlocks (framesOf es) p.length)
    rw [← hwhole] at hlog
    exact hlog.resumes
  · -- the writer reads the file first, and fails
    intro appends f' _ hsession
    have hread := h.readAll_prefix hp
    rw [if_neg (by omega)] at hread
    simp only [session, WalWriter.new, hread, bind, Except.bind] at hsession
    cases hsession

/-- A prefix that ends one to three bytes into a frame hides an entry with a short
payload. -/
theorem IsLog.readAll_session_of_piece {bytes p : Bytes} {es : List WalEntry} (h : IsLog bytes es)
    (hp : p <+: bytes) (hpos : 0 < tornBytes es p.length) (hlt : tornBytes es p.length < 4)
    {op : WalOperation} {now : UInt64} {payload : Bytes}
    (hvec : RmpSerde.toVec (WalEntry.new now (UInt64.ofNat (wholeEntries es p.length).length) op) =
      .ok payload)
    (hpay : 0 < payload.length) (hsmall : payload.length < 256)
    (hroom : p.length + 264 ≤ maxFileLen) :
    session (some p) [(op, now)] = .ok (p ++ frame payload) ∧
      WalReader.readAll (some (p ++ frame payload)) = .error (.ofIo .unexpectedEof) := by
  obtain ⟨torn, hsplit, hlen, -⟩ := h.prefix_cases hp
  have hfit : ∀ e ∈ numbered (UInt64.ofNat (wholeEntries es p.length).length) [(op, now)],
      Fits e := by
    intro e he
    rw [List.mem_singleton.1 he]
    exact ⟨payload, hvec, by omega⟩
  have hframes : (framesOf (numbered (UInt64.ofNat (wholeEntries es p.length).length)
      [(op, now)])).flatten = frame payload := by
    simp [numbered, framesOf, frameOf_eq hvec]
  constructor
  · -- the writer takes the piece for the end of the log and appends after it
    rw [session_of_new (h.new_prefix hp hlt) hfit, hframes, length_frame, if_pos (by omega)]
  · conv_lhs => rw [hsplit]
    rw [WalReader.readAll_some, List.append_assoc,
      WalReader.readFrom_frames _ _ [] (h.wholeEntries_fits p.length)]
    exact readFrom_after_piece (by omega) (by omega) hpay hsmall _

/-- **Resuming a log.** A prefix of a log resumes unless it ends one, two or three
bytes into a frame, and does not resume if it does and has room for one more
short entry. MessagePack codes a checkpoint in fewer than 256 bytes. -/
theorem resumes_iff
    (hcheckpoint : ∀ sequence timestamp : UInt64, ∃ payload : Bytes,
      RmpSerde.toVec (⟨sequence, .checkpoint, timestamp⟩ : WalEntry) = .ok payload ∧
        0 < payload.length ∧ payload.length < 256)
    {appends : List Append} {more : List (List Append)} {file p : Bytes}
    (hfits : ∀ e ∈ numbered 0 (appends :: more).flatten, Fits e)
    (hfile : sessions none (appends :: more) = .ok (some file)) (hp : p <+: file) :
    (tornBytes (numbered 0 (appends :: more).flatten) p.length = 0 ∨
        4 ≤ tornBytes (numbered 0 (appends :: more).flatten) p.length →
      Resumes p (wholeEntries (numbered 0 (appends :: more).flatten) p.length)) ∧
    (p.length + 264 ≤ maxFileLen →
      Resumes p (wholeEntries (numbered 0 (appends :: more).flatten) p.length) →
      tornBytes (numbered 0 (appends :: more).flatten) p.length = 0 ∨
        4 ≤ tornBytes (numbered 0 (appends :: more).flatten) p.length) := by
  obtain ⟨bytes, hbytes, hlog, -⟩ := sessions_isLog hfits hfile
  cases Option.some.inj hbytes
  generalize numbered 0 (appends :: more).flatten = es at hlog ⊢
  refine ⟨hlog.resumes_prefix hp, fun hroom hres => ?_⟩
  by_contra hpiece
  -- a session that appends one checkpoint shows that the prefix does not resume
  obtain ⟨payload, hvec, hpay, hsmall⟩ :=
    hcheckpoint (UInt64.ofNat (wholeEntries es p.length).length) 0
  obtain ⟨hsession, hfail⟩ := hlog.readAll_session_of_piece hp (by omega) (by omega) hvec hpay hsmall
    hroom
  have hfit : ∀ e ∈ numbered (UInt64.ofNat (wholeEntries es p.length).length)
      [(WalOperation.checkpoint, 0)], Fits e := by
    intro e he
    rw [List.mem_singleton.1 he]
    exact ⟨payload, hvec, by omega⟩
  obtain ⟨hread, -⟩ := hres _ _ hfit hsession
  rw [hfail] at hread
  cases hread

end Resume

/-- A log that was not cut resumes. -/
theorem resumes_oneCheckpoint :
    Resumes (framesOf (numbered 0 [oneCheckpoint].flatten)).flatten
      (wholeEntries (numbered 0 [oneCheckpoint].flatten)
        (framesOf (numbered 0 [oneCheckpoint].flatten)).flatten.length) :=
  (resumes_iff toVec_checkpoint oneCheckpoint_fits oneCheckpoint_file (List.prefix_refl _)).1
    (Or.inl (by decide))

/-- A file that holds the first byte of a frame hides a checkpoint appended to it. -/
theorem not_resumes_one_byte :
    ∃ file, (∀ e ∈ numbered 0 [oneCheckpoint].flatten, Fits e) ∧ sessions none [oneCheckpoint] = .ok (some file) ∧
      [22] <+: file ∧ ¬ Resumes [22] (wholeEntries (numbered 0 [oneCheckpoint].flatten) 1) := by
  refine ⟨_, oneCheckpoint_fits, oneCheckpoint_file, by decide, fun hres => ?_⟩
  have hwhole : wholeEntries (numbered 0 [oneCheckpoint].flatten) 1 = [] := by
    decide
  rw [hwhole] at hres
  have hsession : session (some [22]) oneCheckpoint =
      .ok (22 :: (framesOf (numbered 0 [oneCheckpoint].flatten)).flatten) := by
    decide +kernel
  obtain ⟨hread, -⟩ := hres oneCheckpoint _ oneCheckpoint_fits hsession
  have hfail : WalReader.readAll
      (some (22 :: (framesOf (numbered 0 [oneCheckpoint].flatten)).flatten)) =
        .error (.ofIo .unexpectedEof) := by
    decide
  rw [hfail] at hread
  cases hread

/-! ## Uncut files and arbitrary bytes -/

section RoundTrip

variable [Crc32Fast] [RmpSerde WalEntry]

/-- What the reader has consumed at any pass of its loop: whole frames, each with
the checksum of its payload, whose payloads decode to the entries read so far. -/
def Consumed (bytes : Bytes) (s : WalReader.State) : Prop :=
  ∃ payloads : List Bytes, bytes = (payloads.map frame).flatten ++ s.rest ∧
    List.Forall₂ (fun payload e => payload.length < 2 ^ 32 ∧ RmpSerde.fromSlice payload = .ok e)
      payloads s.entries

theorem consumed_readFrame {bytes : Bytes} (s t : WalReader.State) (h : Consumed bytes s)
    (hstep : WalReader.readFrame s = .again t) : Consumed bytes t := by
  obtain ⟨payloads, hbytes, hall⟩ := h
  obtain ⟨payload, entry, hlen, hrest, hdec, hentries⟩ := WalReader.readFrame_again hstep
  refine ⟨payloads ++ [payload], ?_, ?_⟩
  · rw [hbytes, hrest]
    simp [frame, List.append_assoc]
  · rw [hentries]
    exact List.rel_append hall (.cons ⟨hlen, hdec⟩ .nil)

/-- Every state of the loop has consumed whole frames with correct checksums. -/
theorem consumed_of_reaches {bytes : Bytes} {t : WalReader.State}
    (h : Reaches WalReader.readFrame ⟨bytes, []⟩ t) : Consumed bytes t :=
  reaches_invariant consumed_readFrame h ⟨[], rfl, .nil⟩

/-- **Round trip.** What any sessions appended is read back in order and numbered
from zero; the sessions succeed when their frames fit a file. On arbitrary bytes
the loop of `read_all` ends, whatever it has decoded at any pass is the decoding
of payloads stored with their own checksums, and what it returns is what it has
decoded. -/
theorem readAll_round_trip :
    (∀ (appends : List Append) (more : List (List Append)),
      (∀ e ∈ numbered 0 (appends :: more).flatten, Fits e) →
      ((framesOf (numbered 0 (appends :: more).flatten)).flatten.length ≤ maxFileLen →
        ∃ file, sessions none (appends :: more) = .ok file) ∧
      ∀ file, sessions none (appends :: more) = .ok file →
        WalReader.readAll file = .ok (numbered 0 (appends :: more).flatten) ∧
        (numbered 0 (appends :: more).flatten).map (fun e => e.sequence.toNat) =
          List.range (appends :: more).flatten.length) ∧
    ∀ bytes : Bytes,
      iterate WalReader.readFrame (bytes.length + 1) ⟨bytes, []⟩ =
        some (WalReader.readAll (some bytes)) ∧
      (∀ t, Reaches WalReader.readFrame ⟨bytes, []⟩ t → Consumed bytes t) ∧
      ∀ es, WalReader.readAll (some bytes) = .ok es →
        ∃ t, Reaches WalReader.readFrame ⟨bytes, []⟩ t ∧ t.entries = es := by
  refine ⟨fun appends more hfits => ⟨fun hroom => ?_, fun file hfile => ?_⟩,
    fun bytes => ⟨?_, ?_, fun es hread => ?_⟩⟩
  · -- a new file and an empty one are the same to a writer
    have h := sessions_eq (appends :: more) IsLog.nil (Nat.zero_le _) hfits
    rw [← sessions_none, if_pos (by simpa using hroom)] at h
    exact ⟨_, h⟩
  · obtain ⟨bytes, rfl, hlog, hlen⟩ := sessions_isLog hfits hfile
    refine ⟨hlog.readAll_eq, ?_⟩
    rw [hlog.map_sequence_toNat hlen, length_numbered]
  · -- a pass that goes round consumes bytes, so one pass per byte is enough
    exact iterate_eq_loop WalReader.readFrame (fun s => s.rest.length) WalReader.rest_length_lt
      (Nat.lt_succ_self _)
  · exact fun t ht => consumed_of_reaches ht
  · -- the state from which the loop was left holds what it returned
    obtain ⟨t, ht, hleave⟩ := loop_reaches WalReader.readFrame (fun s => s.rest.length)
      WalReader.rest_length_lt ⟨bytes, []⟩
    have hvalue : WalReader.readFrame t = .leave (.ok es) := by
      rw [hleave]
      exact congrArg Pass.leave hread
    exact ⟨t, ht, (WalReader.readFrame_leave_ok hvalue).symm⟩

end RoundTrip

/-- The round trip of a log of one checkpoint. -/
theorem readAll_oneCheckpoint :
    WalReader.readAll (some (framesOf (numbered 0 [oneCheckpoint].flatten)).flatten) =
      .ok [⟨0, .checkpoint, 1700000000000⟩] :=
  ((readAll_round_trip.1 oneCheckpoint [] oneCheckpoint_fits).2 _ oneCheckpoint_file).1

end MSearchDB.Storage.Wal
