import MSearchDB.Lib.OrderedMap
import MSearchDB.Storage.DocumentMaps
import MSearchDB.Storage.RocksDbScan

/-!
# What the scans return

`scan` and `scan_collection` walk a column family from the start of a range to its end, and
the raw `scan` walks the keys with a prefix. In key order both are walks in the sense of
`listing_walk`, so that what they pass is all that is asked for (`listed_scanned`,
`listing_prefix`). The three loops look at the limit after a push: a limit of zero is a
limit of one, and a scan returns the first `limit` items exactly when the limit is not
zero or there are none (`range_scans_iff`).
-/

set_option autoImplicit false

namespace MSearchDB.Storage.RocksDb

open MSearchDB.Lib
open MSearchDB.Core
open Std (ExtTreeMap TransCmp)

namespace RocksDbStorage

/-! ## The limit -/

/-- The key of the pair has the prefix. -/
def startsWith (pre : Bytes) (kv : Bytes × Bytes) : Bool := pre.isPrefixOf kv.1

/-- One turn of the loop of the raw scan. -/
theorem scanPrefixLoop_cons (pre : Bytes) (limit : Nat) (results : List (Bytes × Bytes)) (kv : Bytes × Bytes)
    (es : List (Bytes × Bytes)) :
    scanPrefixLoop pre limit results (kv :: es) =
      if startsWith pre kv = true then
        if limit ≤ results.length + 1 then results ++ [kv] else scanPrefixLoop pre limit (results ++ [kv]) es
      else results := by
  have hlen : (results ++ [kv]).length = results.length + 1 := by simp
  rw [scanPrefixLoop, ite_not, ← hlen]
  rfl

/-- The loop of the raw scan that may push at least one more pair. -/
theorem scanPrefixLoop_eq (pre : Bytes) (limit : Nat) (es : List (Bytes × Bytes)) :
    ∀ results : List (Bytes × Bytes), results.length < limit →
      scanPrefixLoop pre limit results es =
        results ++ (es.takeWhile (startsWith pre)).take (limit - results.length) := by
  -- induction on the entries the iterator still yields
  induction es with
  | nil => intro results _; simp [scanPrefixLoop]
  | cons kv es ih =>
      intro results hlt
      rw [scanPrefixLoop_cons]
      by_cases hpre : startsWith pre kv = true
      · obtain ⟨n, hn⟩ : ∃ n, limit - results.length = n + 1 := ⟨limit - results.length - 1, by omega⟩
        rw [if_pos hpre, List.takeWhile_cons_of_pos hpre, hn, List.take_succ_cons]
        by_cases hfull : limit ≤ results.length + 1
        · -- this pair is the last one the limit allows
          obtain rfl : n = 0 := by omega
          rw [if_pos hfull, List.take_zero]
        · have hlen : (results ++ [kv]).length = results.length + 1 := by simp
          have hleft : limit - (results ++ [kv]).length = n := by omega
          rw [if_neg hfull, ih (results ++ [kv]) (by omega), hleft, List.append_assoc]
          rfl
      · rw [if_neg hpre, List.takeWhile_cons_of_neg hpre, List.take_nil, List.append_nil]

/-- A limit of zero is a limit of one. -/
theorem scanPrefixLoop_zero (pre : Bytes) (es : List (Bytes × Bytes)) :
    scanPrefixLoop pre 0 [] es = scanPrefixLoop pre 1 [] es := by
  cases es with
  | nil => rfl
  | cons kv es =>
      rw [scanPrefixLoop_cons, scanPrefixLoop_cons]
      rfl

/-- The pairs with a prefix that the raw scan passes. -/
def scannedPrefix (pre : Bytes) (m : ColumnFamily) : List (Bytes × Bytes) :=
  (DB.iteratorFrom m pre).takeWhile (startsWith pre)

theorem scan_eq {s : RocksDbStorage} {cf : String} {m : ColumnFamily} (hcf : s.db.cfHandle cf = some m)
    (pre : Bytes) (limit : Nat) : s.scan cf pre limit = .ok ((scannedPrefix pre m).take (max 1 limit)) := by
  rw [RocksDbStorage.scan, hcf]
  cases limit with
  | zero =>
      simp only [scanPrefixLoop_zero, scanPrefixLoop_eq pre 1 _ [] Nat.one_pos]
      rfl
  | succ n =>
      simp only [scanPrefixLoop_eq pre (n + 1) _ [] n.succ_pos]
      simp [scannedPrefix]

/-! ## What is asked for -/

/-- The documents of a map whose ids are in the range, in the order of their ids. -/
structure Listed (docs : DocumentMap) (range : RangeInclusive DocumentId) (listed : List Document) : Prop where
  ascending : listed.Pairwise fun x y => compare x.id.key y.id.key = .lt
  mem_iff : ∀ doc, doc ∈ listed ↔ docs doc.id = some doc ∧ InRange range doc.id

/-- The answer is the first `limit` documents of the range. -/
def ReturnsFirst (docs : DocumentMap) (range : RangeInclusive DocumentId) (limit : Nat)
    (found : DbResult (List Document)) : Prop :=
  ∃ listed, Listed docs range listed ∧ found = .ok (listed.take limit)

/-- No document is in the range. -/
def NoneInRange (docs : DocumentMap) (range : RangeInclusive DocumentId) : Prop :=
  ∀ id doc, docs id = some doc → ¬ InRange range id

/-- The answer is the first `limit` pairs with the prefix. -/
def ReturnsFirstPairs (m : ColumnFamily) (pre : Bytes) (limit : Nat)
    (found : DbResult (List (Bytes × Bytes))) : Prop :=
  ∃ pairs, Listing (fun k => m[k]?) (fun k => pre <+: k) pairs ∧ found = .ok (pairs.take limit)

/-- The pairs that the raw scan passes are all with the prefix. -/
theorem listing_prefix (pre : Bytes) (m : ColumnFamily) :
    Listing (fun k => m[k]?) (fun k => pre <+: k) (scannedPrefix pre m) := by
  have hwalk := listing_walk m pre (fun k => pre.isPrefixOf k) fun k _ k' _ hle hlt hk' =>
    List.isPrefixOf_iff_prefix.2 (prefix_of_compare_lt hle hlt (List.isPrefixOf_iff_prefix.1 hk'))
  -- a key with the prefix is not before it, so that the start of the walk leaves none out
  refine ⟨hwalk.ascending, fun kv => (hwalk.mem_iff kv).trans (and_congr_right fun _ => ?_)⟩
  rw [List.isPrefixOf_iff_prefix]
  exact and_iff_right_of_imp isLE_compare_of_prefix

/-- The two takes differ at the limit zero, unless there is nothing to take. -/
theorem take_max_one_eq_iff {α : Type} (l : List α) (limit : Nat) :
    l.take (max 1 limit) = l.take limit ↔ 0 < limit ∨ l = [] := by
  cases limit with
  | zero => cases l <;> simp
  | succ n => simp

/-- Only one list is asked for. -/
theorem Listed.unique {docs : DocumentMap} {range : RangeInclusive DocumentId} {listed listed' : List Document}
    (h : Listed docs range listed) (h' : Listed docs range listed') : listed = listed' := by
  have hkeyed : ∀ {l : List Document}, Listed docs range l → Ascending (l.map fun doc => (doc.id.key, doc)) :=
    fun h => List.pairwise_map.2 h.ascending
  have hmap : (listed.map fun doc => (doc.id.key, doc)) = listed'.map fun doc => (doc.id.key, doc) := by
    apply (hkeyed h).eq_of_mem_iff (hkeyed h')
    intro a
    simp only [List.mem_map, h.mem_iff, h'.mem_iff]
  have hinj : Function.Injective fun doc : Document => (doc.id.key, doc) := fun x y h => (Prod.mk.inj h).2
  exact List.map_injective_iff.2 hinj hmap

theorem Listed.eq_nil_iff {docs : DocumentMap} {range : RangeInclusive DocumentId} {listed : List Document}
    (h : Listed docs range listed) (hids : ∀ id doc, docs id = some doc → doc.id = id) :
    listed = [] ↔ NoneInRange docs range := by
  rw [List.eq_nil_iff_forall_not_mem]
  constructor
  · intro hnil id doc hdoc hrange
    obtain rfl := hids id doc hdoc
    exact hnil doc ((h.mem_iff doc).2 ⟨hdoc, hrange⟩)
  · intro hnone doc hdoc
    obtain ⟨hdoc, hrange⟩ := (h.mem_iff doc).1 hdoc
    exact hnone doc.id doc hdoc hrange

/-! ## Documents -/

section Documents

variable [RmpSerde Document] {s : RocksDbStorage} {cf : String} {m : ColumnFamily}

theorem scanLoop_zero (stop : String) (es : List (Bytes × Bytes)) :
    scanLoop stop 0 [] es = scanLoop stop 1 [] es := by
  cases es with
  | nil => rfl
  | cons kv es => simp [scanLoop]

/-- A scan of documents with any limit. -/
theorem scanOr_eq_max (hcf : s.db.cfHandle cf = some m) (hdec : Decodes m.toList) (missing : DbError)
    (range : RangeInclusive DocumentId) (limit : Nat) :
    s.scanOr missing cf range limit = .ok ((scanned range m).take (max 1 limit)) := by
  cases limit with
  | zero =>
      rw [Nat.max_zero, ← scanOr_eq hcf hdec missing range Nat.one_pos, scanOr, scanOr, hcf]
      exact scanLoop_zero _ _
  | succ n => rw [Nat.max_eq_right n.succ_pos, scanOr_eq hcf hdec missing range n.succ_pos]

theorem decodeEntry_eq (kv : Bytes × Bytes) : decodeEntry kv = (RmpSerde.fromSlice kv.2).toOption := by
  rw [decodeEntry]
  cases RmpSerde.fromSlice (α := Document) kv.2 with
  | error e => rfl
  | ok doc => rfl

/-- An entry of a family of documents is the document with that key. -/
theorem decodeEntry_of_encoded (henc : Encoded (some fun k => m[k]?)) {k v : Bytes} (hv : m[k]? = some v) :
    ∃ doc, decodeEntry (k, v) = some doc ∧ doc.id.key = k := by
  obtain ⟨doc, hdoc, hkey⟩ := henc _ k v rfl hv
  exact ⟨doc, by rw [decodeEntry_eq, RmpSerde.fromSlice_toVec hdoc]; rfl, hkey⟩

theorem key_of_decodeEntry (henc : Encoded (some fun k => m[k]?)) {k v : Bytes} (hv : m[k]? = some v)
    {doc : Document} (hdoc : decodeEntry (k, v) = some doc) : doc.id.key = k := by
  obtain ⟨doc', hdoc', hkey⟩ := decodeEntry_of_encoded henc hv
  rw [hdoc', Option.some.injEq] at hdoc
  rw [← hdoc, hkey]

/-- The entries of a range are listed. -/
theorem listing_range (henc : Encoded (some fun k => m[k]?)) (range : RangeInclusive DocumentId) :
    Listing (fun k => m[k]?)
      (fun k => (compare range.start.key k).isLE = true ∧ upTo range.stop.val (k, []) = true)
      ((DB.iteratorFrom m range.start.key).takeWhile (upTo range.stop.val)) := by
  apply listing_walk
  intro k hk k' hk' _ hlt hup
  -- both keys are those of documents
  have hid : ∀ k ∈ m, ∃ id : DocumentId, id.key = k := by
    intro k hk
    rw [ExtTreeMap.mem_iff_isSome_getElem?] at hk
    obtain ⟨v, hv⟩ := Option.isSome_iff_exists.1 hk
    obtain ⟨doc, -, hkey⟩ := decodeEntry_of_encoded henc hv
    exact ⟨doc.id, hkey⟩
  obtain ⟨id, rfl⟩ := hid k hk
  obtain ⟨id', rfl⟩ := hid k' hk'
  rw [upTo_key] at hup ⊢
  have hle : (compare id'.key range.stop.key).isLE = true := Ordering.isLE_iff_ne_gt.2 hup
  rw [TransCmp.lt_of_lt_of_isLE hlt hle]
  decide

/-- **A scan passes all documents of its range.** -/
theorem listed_scanned (henc : Encoded (some fun k => m[k]?)) (range : RangeInclusive DocumentId) :
    Listed (decoded fun k => m[k]?) range (scanned range m) := by
  have hwalk := listing_range henc range
  refine ⟨?_, fun doc => ?_⟩
  · -- the entries are in the order of their keys, which are those of the documents
    rw [scanned, List.pairwise_filterMap]
    apply hwalk.ascending.imp_of_mem
    intro a b ha hb hlt x hx y hy
    rw [key_of_decodeEntry henc ((hwalk.mem_iff a).1 ha).1 hx, key_of_decodeEntry henc ((hwalk.mem_iff b).1 hb).1 hy]
    exact hlt
  · rw [scanned, List.mem_filterMap, decoded, Option.bind_eq_some_iff]
    constructor
    · rintro ⟨⟨k, v⟩, hkv, hdoc⟩
      obtain ⟨hv, hstart, hstop⟩ := (hwalk.mem_iff _).1 hkv
      obtain rfl : doc.id.key = k := key_of_decodeEntry henc hv hdoc
      rw [decodeEntry_eq] at hdoc
      exact ⟨⟨v, hv, hdoc⟩, hstart, (upTo_key _ _ _).1 hstop⟩
    · rintro ⟨⟨v, hv, hdoc⟩, hstart, hstop⟩
      refine ⟨(doc.id.key, v), (hwalk.mem_iff _).2 ⟨hv, hstart, (upTo_key _ _ _).2 hstop⟩, ?_⟩
      rw [decodeEntry_eq, hdoc]

theorem id_of_decoded (henc : Encoded (some fun k => m[k]?)) {id : DocumentId} {doc : Document}
    (h : decoded (fun k => m[k]?) id = some doc) : doc.id = id := by
  obtain ⟨v, hv, hdoc⟩ := Option.bind_eq_some_iff.1 h
  apply DocumentId.key_injective
  apply key_of_decodeEntry henc hv
  rw [decodeEntry_eq, hdoc]

/-! ## The first items -/

/-- A scan of one family of documents. -/
theorem scanOr_returnsFirst_iff (hcf : s.db.cfHandle cf = some m) (henc : Encoded (s.db.slot cf))
    (missing : DbError) (range : RangeInclusive DocumentId) (limit : Nat) :
    ReturnsFirst (decoded fun k => m[k]?) range limit (s.scanOr missing cf range limit) ↔
      0 < limit ∨ NoneInRange (decoded fun k => m[k]?) range := by
  have hslot : s.db.slot cf = some fun k => m[k]? := by rw [DB.slot, hcf]; rfl
  rw [scanOr_eq_max hcf (decodes_of_encoded hcf henc)]
  rw [hslot] at henc
  have hlisted := listed_scanned henc range
  -- the answer is the first `max 1 limit` documents of the only list there is
  rw [← hlisted.eq_nil_iff fun id doc => id_of_decoded henc, ← take_max_one_eq_iff]
  constructor
  · rintro ⟨listed, hother, heq⟩
    rw [Except.ok.injEq] at heq
    rw [heq, hlisted.unique hother]
  · intro heq
    exact ⟨_, hlisted, congrArg _ heq⟩

end Documents

/-- A new store with one document in its default map. -/
def oneDocument : RocksDbStorage := StorageCall.execAll fresh [.put (Document.new ⟨"a"⟩)]

theorem wellFormed_oneDocument : WellFormed oneDocument := (wellFormed_of_new (new_none {})).execAll _

end RocksDbStorage

end MSearchDB.Storage.RocksDb
