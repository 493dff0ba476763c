import MSearchDB.Lib.Blocks
import MSearchDB.Storage.Wal

/-!
# Log files as sequences of frames

`WalWriter` sessions leave a file that is the concatenation of one frame per
appended entry, numbered from zero (`IsLog`, `sessions_isLog`). The reader takes
frames off the front one by one (`readFrom_frames`), so that the outcome of
`read_all` on such a file, cut anywhere, depends on the torn frame at its end
alone: fewer than four bytes of it end the log (`readFrom_short`), and four or
more are an error (`readFrom_torn`).
-/

set_option autoImplicit false

namespace MSearchDB.Storage.Wal

open MSearchDB.Lib
open MSearchDB.Lib.Loop (Pass loop loop_leave loop_again)
open MSearchDB.Core

/-! ## Numbering -/

/-- One call of `append`: the operation and the clock reading. -/
abbrev Append := WalOperation × UInt64

/-- The entries of a sequence of appends, numbered from `first`. -/
def numbered (first : UInt64) : List Append → List WalEntry
  | [] => []
  | (op, now) :: rest => WalEntry.new now first op :: numbered (first + 1) rest

theorem length_numbered (first : UInt64) (appends : List Append) :
    (numbered first appends).length = appends.length := by
  induction appends generalizing first with
  | nil => rfl
  | cons a appends ih => simp [numbered, ih]

theorem numbered_append (first : UInt64) (xs ys : List Append) :
    numbered first (xs ++ ys) =
      numbered first xs ++ numbered (first + UInt64.ofNat xs.length) ys := by
  induction xs generalizing first with
  | nil => simp [numbered]
  | cons a xs ih =>
      have hfirst : first + 1 + UInt64.ofNat xs.length =
          first + UInt64.ofNat (xs.length + 1) := by
        rw [UInt64.ofNat_add, UInt64.add_assoc, UInt64.add_comm 1]
        rfl
      simp only [List.cons_append, numbered, ih, hfirst, List.length_cons]

/-- Entry `i` of the entries numbered from `n` has number `n + i`. -/
theorem sequence_numbered {appends : List Append} {n i : Nat} {e : WalEntry}
    (h : (numbered (UInt64.ofNat n) appends)[i]? = some e) :
    e.sequence = UInt64.ofNat (n + i) := by
  induction appends generalizing n i with
  | nil => simp [numbered] at h
  | cons a appends ih =>
      have hnext : UInt64.ofNat n + 1 = UInt64.ofNat (n + 1) := by
        rw [UInt64.ofNat_add]
        rfl
      rw [numbered, hnext] at h
      cases i with
      | zero =>
          rw [List.getElem?_cons_zero] at h
          rw [← Option.some.inj h]
          rfl
      | succ i =>
          rw [List.getElem?_cons_succ] at h
          rw [ih h]
          congr 1
          omega

/-! ## Frames -/

/-- The length prefix of a frame. -/
theorem toNat_len {payload : Bytes} (h : payload.length < 2 ^ 32) :
    (fromLeBytes32 (toLeBytes32 (UInt32.ofNat payload.length))).toNat = payload.length := by
  rw [fromLeBytes32_toLeBytes32]
  exact UInt32.toNat_ofNat_of_lt h

variable [Crc32Fast]

/-- The bytes `write_entry` writes for a payload. -/
def frame (payload : Bytes) : Bytes :=
  toLeBytes32 (UInt32.ofNat payload.length) ++ (toLeBytes32 (Crc32Fast.hash payload) ++ payload)

theorem length_frame (payload : Bytes) : (frame payload).length = payload.length + 8 := by
  simp only [frame, List.length_append, length_toLeBytes32]
  omega

variable [RmpSerde WalEntry]

/-- The bytes `write_entry` writes for an entry: none when it cannot be encoded. -/
def frameOf (e : WalEntry) : Bytes :=
  match RmpSerde.toVec e with
  | .ok payload => frame payload
  | .error _ => []

/-- The frames of a list of entries, one block per entry. -/
def framesOf (es : List WalEntry) : List Bytes := es.map frameOf

/-- The entry has a payload shorter than `2 ^ 32` bytes. -/
def Fits (e : WalEntry) : Prop :=
  ∃ payload, RmpSerde.toVec e = .ok payload ∧ payload.length < 2 ^ 32

instance (e : WalEntry) : Decidable (Fits e) :=
  match h : (RmpSerde.toVec e : Except String Bytes) with
  | .ok payload =>
      decidable_of_iff (payload.length < 2 ^ 32)
        ⟨fun hlen => ⟨payload, h, hlen⟩, fun ⟨p, hp, hlen⟩ => by
          rw [h] at hp
          exact Except.ok.inj hp ▸ hlen⟩
  | .error _ =>
      isFalse fun ⟨p, hp, _⟩ => by
        rw [h] at hp
        cases hp

theorem frameOf_eq {e : WalEntry} {payload : Bytes} (h : RmpSerde.toVec e = .ok payload) :
    frameOf e = frame payload := by
  simp [frameOf, h]

namespace WalReader

/-- The loop of `read_all` from a state at its head. -/
def readFrom (s : State) : DbResult (List WalEntry) :=
  loop readFrame (fun s => s.rest.length) rest_length_lt s

theorem readAll_some (bytes : Bytes) : readAll (some bytes) = readFrom ⟨bytes, []⟩ := rfl

/-- A pass over a frame appends its entry. -/
theorem readFrame_frame {e : WalEntry} {payload : Bytes} (hvec : RmpSerde.toVec e = .ok payload)
    (hlen : payload.length < 2 ^ 32) (rest : Bytes) (acc : List WalEntry) :
    readFrame ⟨frame payload ++ rest, acc⟩ = .again ⟨rest, acc ++ [e]⟩ := by
  -- the three reads of the pass
  have h1 : readExact 4 (frame payload ++ rest) =
      .ok (toLeBytes32 (UInt32.ofNat payload.length),
        toLeBytes32 (Crc32Fast.hash payload) ++ (payload ++ rest)) := by
    rw [frame, List.append_assoc, List.append_assoc]
    exact readExact_append (length_toLeBytes32 _) _
  have h2 : readExact 4 (toLeBytes32 (Crc32Fast.hash payload) ++ (payload ++ rest)) =
      .ok (toLeBytes32 (Crc32Fast.hash payload), payload ++ rest) :=
    readExact_append (length_toLeBytes32 _) _
  have h3 : readExact payload.length (payload ++ rest) = .ok (payload, rest) :=
    readExact_append rfl rest
  simp only [readFrame, h1, h2, toNat_len hlen, h3]
  simp [RmpSerde.fromSlice_toVec hvec]

/-- **The reader takes whole frames off the front.** -/
theorem readFrom_frames (rest : Bytes) :
    ∀ (es acc : List WalEntry), (∀ e ∈ es, Fits e) →
      readFrom ⟨(framesOf es).flatten ++ rest, acc⟩ = readFrom ⟨rest, acc ++ es⟩ := by
  intro es
  -- one pass of the loop per entry
  induction es with
  | nil =>
      intro acc _
      simp [framesOf]
  | cons e es ih =>
      intro acc h
      obtain ⟨payload, hvec, hlen⟩ := h e List.mem_cons_self
      have hsplit : (framesOf (e :: es)).flatten ++ rest =
          frame payload ++ ((framesOf es).flatten ++ rest) := by
        simp [framesOf, frameOf_eq hvec]
      have hstep := readFrame_frame hvec hlen ((framesOf es).flatten ++ rest) acc
      rw [hsplit, readFrom, loop_again _ _ _ hstep]
      have key := ih (acc ++ [e]) fun e' he' => h e' (List.mem_cons_of_mem _ he')
      rw [List.append_assoc, List.singleton_append] at key
      exact key

/-- Fewer than four bytes end the log. -/
theorem readFrom_short {rest : Bytes} (h : rest.length < 4) (acc : List WalEntry) :
    readFrom ⟨rest, acc⟩ = .ok acc := by
  apply loop_leave
  simp [readFrame, readExact_short h]

/-- A length prefix that announces more bytes than there are is an error. -/
theorem readFrom_eof {lenBuf rest : Bytes} (hbuf : lenBuf.length = 4)
    (h : rest.length < 4 + (fromLeBytes32 lenBuf).toNat) (acc : List WalEntry) :
    readFrom ⟨lenBuf ++ rest, acc⟩ = .error (.ofIo .unexpectedEof) := by
  apply loop_leave
  by_cases hcrc : rest.length < 4
  · -- the file ends inside the checksum
    simp [readFrame, readExact_append hbuf, readExact_short hcrc]
  · -- the file ends inside the payload
    have hread : readExact 4 rest = .ok (rest.take 4, rest.drop 4) := by
      rw [readExact, if_pos (by omega)]
    have hpay : (rest.drop 4).length < (fromLeBytes32 lenBuf).toNat := by
      rw [List.length_drop]
      omega
    simp [readFrame, readExact_append hbuf, hread, readExact_short hpay]

/-- A frame cut after its length prefix is an error. -/
theorem readFrom_torn {payload torn : Bytes} (hlen : payload.length < 2 ^ 32)
    (htorn : torn <+: frame payload) (hcut : torn.length < (frame payload).length)
    (h4 : 4 ≤ torn.length) (acc : List WalEntry) :
    readFrom ⟨torn, acc⟩ = .error (.ofIo .unexpectedEof) := by
  have hpre : toLeBytes32 (UInt32.ofNat payload.length) <+: torn :=
    List.prefix_of_prefix_length_le (List.prefix_append _ _) htorn (by simpa using h4)
  obtain ⟨rest, rfl⟩ := hpre
  apply readFrom_eof (length_toLeBytes32 _)
  rw [toNat_len hlen]
  rw [length_frame, List.length_append, length_toLeBytes32] at hcut
  omega

/-- `read_all` on a file of whole frames and a short rest. -/
theorem readAll_frames {es : List WalEntry} (h : ∀ e ∈ es, Fits e) {rest : Bytes}
    (hrest : rest.length < 4) :
    readAll (some ((framesOf es).flatten ++ rest)) = .ok es := by
  rw [readAll_some, readFrom_frames rest es [] h, List.nil_append, readFrom_short hrest]

end WalReader

/-! ## Writer sessions -/

/-- Append a sequence of operations, up to the first failure. -/
def WalWriter.appendAll : WalWriter → List Append → DbResult Unit × WalWriter
  | w, [] => (.ok (), w)
  | w, (op, now) :: rest =>
      match w.append now op with
      | (.error e, w) => (.error e, w)
      | (.ok _, w) => w.appendAll rest

/-- One writer session on the file at a path: open, append, sync and drop. The
result is the file it leaves. -/
def session (file : Option Bytes) (appends : List Append) : DbResult Bytes := do
  let w ← WalWriter.new file
  match w.appendAll appends with
  | (.error e, _) => .error e
  | (.ok (), w) =>
      match w.sync with
      | (.error e, _) => .error e
      | (.ok (), w) => .ok w.file

/-- Writer sessions one after the other. -/
def sessions : Option Bytes → List (List Append) → DbResult (Option Bytes)
  | file, [] => .ok file
  | file, appends :: rest => do
      let file ← session file appends
      sessions (some file) rest

theorem append_of_fits (w : WalWriter) {now : UInt64} {op : WalOperation}
    (h : Fits (WalEntry.new now w.nextSequence op)) :
    w.append now op = (.ok w.nextSequence,
      ⟨w.file, w.buffer ++ frameOf (WalEntry.new now w.nextSequence op), w.nextSequence + 1⟩) := by
  obtain ⟨payload, hvec, -⟩ := h
  simp [WalWriter.append, WalWriter.writeEntry, hvec, WalWriter.writeAll, frameOf_eq hvec, frame,
    List.append_assoc]

/-- Appends of entries that fit queue their frames. -/
theorem appendAll_of_fits :
    ∀ (appends : List Append) (w : WalWriter), (∀ e ∈ numbered w.nextSequence appends, Fits e) →
      w.appendAll appends = (.ok (),
        ⟨w.file, w.buffer ++ (framesOf (numbered w.nextSequence appends)).flatten,
          w.nextSequence + UInt64.ofNat appends.length⟩) := by
  intro appends
  induction appends with
  | nil =>
      intro w _
      simp [WalWriter.appendAll, numbered, framesOf]
  | cons a appends ih =>
      obtain ⟨op, now⟩ := a
      intro w h
      have hfirst := append_of_fits w (h (WalEntry.new now w.nextSequence op) List.mem_cons_self)
      have hrest : ∀ e ∈ numbered (w.nextSequence + 1) appends, Fits e :=
        fun e he => h e (List.mem_cons_of_mem _ he)
      have hcount : w.nextSequence + 1 + UInt64.ofNat appends.length =
          w.nextSequence + UInt64.ofNat (appends.length + 1) := by
        rw [UInt64.ofNat_add, UInt64.add_assoc, UInt64.add_comm 1]
        rfl
      rw [WalWriter.appendAll, hfirst]
      simp only
      rw [ih ⟨w.file, _, w.nextSequence + 1⟩ hrest]
      simp [numbered, framesOf, hcount, List.append_assoc]

/-- The bytes are the frames of the entries, in order and numbered from zero. -/
structure IsLog (bytes : Bytes) (es : List WalEntry) : Prop where
  bytes_eq : bytes = (framesOf es).flatten
  fits : ∀ e ∈ es, Fits e
  sequence_eq : ∀ (i : Nat) (e : WalEntry), es[i]? = some e → e.sequence = UInt64.ofNat i

namespace IsLog

theorem nil : IsLog [] [] := ⟨rfl, by simp, by simp⟩

variable {bytes : Bytes} {es : List WalEntry}

theorem readAll_eq (h : IsLog bytes es) : WalReader.readAll (some bytes) = .ok es := by
  have hshort : ([] : Bytes).length < 4 := by decide
  have key := WalReader.readAll_frames h.fits hshort
  rw [List.append_nil, ← h.bytes_eq] at key
  exact key

/-- The number `WalWriter::new` continues with is the number of entries. -/
theorem nextSequence_eq (h : IsLog bytes es) :
    (es.getLast?.map fun e => e.sequence + 1).getD 0 = UInt64.ofNat es.length := by
  cases hlast : es.getLast? with
  | none =>
      rw [List.getLast?_eq_none_iff] at hlast
      simp [hlast]
  | some e =>
      have hne : es ≠ [] := by
        rintro rfl
        simp at hlast
      have hpos : 0 < es.length := List.length_pos_iff.2 hne
      -- the last entry has the number below the length
      rw [List.getLast?_eq_getElem?] at hlast
      have hseq := h.sequence_eq _ e hlast
      have hsucc : es.length - 1 + 1 = es.length := by omega
      rw [Option.map_some, Option.getD_some, hseq, ← hsucc, UInt64.ofNat_add]
      rfl

theorem new_eq (h : IsLog bytes es) :
    WalWriter.new (some bytes) = .ok ⟨bytes, [], UInt64.ofNat es.length⟩ := by
  simp only [WalWriter.new, h.readAll_eq]
  show Except.ok (⟨bytes, [], _⟩ : WalWriter) = _
  rw [h.nextSequence_eq]

/-- Whole frames taken off the end leave a log. -/
theorem take (h : IsLog bytes es) (k : Nat) :
    IsLog ((framesOf es).take k).flatten (es.take k) where
  bytes_eq := by rw [framesOf, framesOf, List.map_take]
  fits e he := h.fits e (List.mem_of_mem_take he)
  sequence_eq i e hi := by
    apply h.sequence_eq i e
    rw [List.getElem?_take] at hi
    split at hi
    · exact hi
    · cases hi

/-- Frames that continue the numbering extend a log. -/
theorem append (h : IsLog bytes es) {appends : List Append}
    (hfits : ∀ e ∈ numbered (UInt64.ofNat es.length) appends, Fits e) :
    IsLog (bytes ++ (framesOf (numbered (UInt64.ofNat es.length) appends)).flatten)
      (es ++ numbered (UInt64.ofNat es.length) appends) where
  bytes_eq := by simp [h.bytes_eq, framesOf]
  fits e he := (List.mem_append.1 he).elim (h.fits e) (hfits e)
  sequence_eq i e hi := by
    by_cases hlt : i < es.length
    · rw [List.getElem?_append_left hlt] at hi
      exact h.sequence_eq i e hi
    · -- a new entry: its place in the log is its place among the new ones, shifted
      rw [List.getElem?_append_right (by omega)] at hi
      rw [sequence_numbered hi]
      congr 1
      omega

/-- A log in a file is short enough for its numbers not to wrap. -/
theorem sequence_toNat (h : IsLog bytes es) (hlen : bytes.length ≤ maxFileLen) {i : Nat}
    {e : WalEntry} (hi : es[i]? = some e) : e.sequence.toNat = i := by
  -- every frame takes eight bytes at least
  have hcount : 8 * es.length ≤ bytes.length := by
    rw [h.bytes_eq]
    have hfits := h.fits
    clear hi h hlen
    induction es with
    | nil => simp
    | cons e es ih =>
        obtain ⟨payload, hvec, -⟩ := hfits e List.mem_cons_self
        have hrest := ih fun e' he' => hfits e' (List.mem_cons_of_mem _ he')
        simp only [framesOf, List.map_cons, List.flatten_cons, List.length_append, List.length_cons,
          frameOf_eq hvec, length_frame] at hrest ⊢
        omega
  have hi' : i < es.length := (List.getElem?_eq_some_iff.1 hi).1
  rw [h.sequence_eq i e hi]
  apply UInt64.toNat_ofNat_of_lt
  rw [maxFileLen] at hlen
  show i < 2 ^ 64
  omega

/-- The numbers of a log in a file are `0, 1, …`. -/
theorem map_sequence_toNat (h : IsLog bytes es) (hlen : bytes.length ≤ maxFileLen) :
    es.map (fun e => e.sequence.toNat) = List.range es.length := by
  apply List.ext_getElem?
  intro i
  rw [List.getElem?_map]
  cases hi : es[i]? with
  | none =>
      have hge := List.getElem?_eq_none_iff.1 hi
      rw [Option.map_none, List.getElem?_eq_none_iff.2 (by simpa using hge)]
  | some e =>
      have hlt : i < es.length := (List.getElem?_eq_some_iff.1 hi).1
      rw [Option.map_some, h.sequence_toNat hlen hi, List.getElem?_range hlt]

/-- The numbers of a log in a file increase. -/
theorem sequence_pairwise (h : IsLog bytes es) (hlen : bytes.length ≤ maxFileLen) :
    (es.map fun e => e.sequence).Pairwise (· < ·) := by
  have hnat : (es.map fun e => e.sequence.toNat).Pairwise (· < ·) := by
    rw [h.map_sequence_toNat hlen]
    exact List.pairwise_lt_range
  rw [List.pairwise_map] at hnat ⊢
  exact hnat.imp fun hlt => UInt64.lt_iff_toNat_lt.2 hlt

end IsLog

/-! ## What sessions leave -/

/-- A new file is opened like an empty one. -/
theorem new_none : WalWriter.new none = WalWriter.new (some []) := by
  rw [IsLog.nil.new_eq]
  rfl

theorem sessions_none (appends : List Append) (more : List (List Append)) :
    sessions none (appends :: more) = sessions (some []) (appends :: more) := by
  simp only [sessions, session, new_none]

/-- A session appends its frames to the file it opened, or fails for want of
room. -/
theorem session_of_new {file : Option Bytes} {bytes : Bytes} {next : UInt64}
    (hnew : WalWriter.new file = .ok ⟨bytes, [], next⟩) {appends : List Append}
    (hfits : ∀ e ∈ numbered next appends, Fits e) :
    session file appends =
      if bytes.length + (framesOf (numbered next appends)).flatten.length ≤ maxFileLen then
        .ok (bytes ++ (framesOf (numbered next appends)).flatten)
      else .error (.ofIo .fileTooLarge) := by
  have happ := appendAll_of_fits appends ⟨bytes, [], next⟩ hfits
  rw [List.nil_append] at happ
  simp only [session, hnew, bind, Except.bind, happ, WalWriter.sync]
  by_cases hroom :
      bytes.length + (framesOf (numbered next appends)).flatten.length ≤ maxFileLen
  · simp only [if_pos hroom]
  · simp only [if_neg hroom]

/-- Sessions on a log append their frames, or fail for want of room. -/
theorem sessions_eq :
    ∀ (ss : List (List Append)) {bytes : Bytes} {es : List WalEntry}, IsLog bytes es →
      bytes.length ≤ maxFileLen →
      (∀ e ∈ numbered (UInt64.ofNat es.length) ss.flatten, Fits e) →
      sessions (some bytes) ss =
        if bytes.length + (framesOf (numbered (UInt64.ofNat es.length) ss.flatten)).flatten.length ≤
            maxFileLen then
          .ok (some (bytes ++ (framesOf (numbered (UInt64.ofNat es.length) ss.flatten)).flatten))
        else .error (.ofIo .fileTooLarge) := by
  intro ss
  induction ss with
  | nil =>
      intro bytes es h hlen _
      simp [sessions, numbered, framesOf, hlen]
  | cons appends ss ih =>
      intro bytes es h hlen hfits
      -- the second session goes on with the number behind the first one's
      have hsplit : numbered (UInt64.ofNat es.length) (appends :: ss).flatten =
          numbered (UInt64.ofNat es.length) appends ++
            numbered (UInt64.ofNat (es.length + appends.length)) ss.flatten := by
        rw [List.flatten_cons, numbered_append, UInt64.ofNat_add]
      rw [hsplit] at hfits ⊢
      have hfirst : ∀ e ∈ numbered (UInt64.ofNat es.length) appends, Fits e :=
        fun e he => hfits e (List.mem_append_left _ he)
      have hlog := h.append hfirst
      have hcount : (es ++ numbered (UInt64.ofNat es.length) appends).length =
          es.length + appends.length := by
        rw [List.length_append, length_numbered]
      have hrest : ∀ e ∈ numbered (UInt64.ofNat
          (es ++ numbered (UInt64.ofNat es.length) appends).length) ss.flatten, Fits e := by
        rw [hcount]
        exact fun e he => hfits e (List.mem_append_right _ he)
      have hflat : (framesOf (numbered (UInt64.ofNat es.length) appends ++
          numbered (UInt64.ofNat (es.length + appends.length)) ss.flatten)).flatten =
          (framesOf (numbered (UInt64.ofNat es.length) appends)).flatten ++
            (framesOf (numbered (UInt64.ofNat (es.length + appends.length)) ss.flatten)).flatten := by
        simp [framesOf]
      rw [sessions, session_of_new h.new_eq hfirst, hflat, List.length_append]
      split
      · -- the first session has room: the rest runs on the longer log
        next hroom =>
          rw [← List.length_append] at hroom
          have key := ih hlog hroom hrest
          rw [hcount, List.length_append, Nat.add_assoc, List.append_assoc] at key
          exact key
      · -- it has none, and then all sessions together have none either
        next hroom =>
          rw [if_neg (by omega)]
          rfl

/-- **Sessions on a new file leave the log of their appends.** -/
theorem sessions_isLog {appends : List Append} {more : List (List Append)} {file : Option Bytes}
    (hfits : ∀ e ∈ numbered 0 (appends :: more).flatten, Fits e)
    (hfile : sessions none (appends :: more) = .ok file) :
    ∃ bytes, file = some bytes ∧ IsLog bytes (numbered 0 (appends :: more).flatten) ∧
      bytes.length ≤ maxFileLen := by
  have hlog : IsLog ([] ++ (framesOf (numbered 0 (appends :: more).flatten)).flatten)
      ([] ++ numbered 0 (appends :: more).flatten) := IsLog.nil.append hfits
  rw [sessions_none, sessions_eq (appends :: more) IsLog.nil (Nat.zero_le _) hfits] at hfile
  split at hfile
  · next hroom =>
      refine ⟨_, (Except.ok.inj hfile).symm, hlog, ?_⟩
      rw [List.length_append]
      exact hroom
  · cases hfile

end MSearchDB.Storage.Wal
