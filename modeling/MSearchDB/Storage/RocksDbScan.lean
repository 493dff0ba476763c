import Mathlib.Data.List.TakeWhile
import MSearchDB.Storage.RocksDbSlots

/-!
# Scans and contents

`scan` walks a column family in key order from the start of a range, stops at the
first key beyond its end, and stops when it has pushed as many documents as the
limit says. `scanOr_eq` is the loop in closed form for a column family whose
values decode, and `scanned_eq_iff` says when a scan misses nothing.

`contents` is the list of all documents of a store: those of the default map and
those of every collection.
-/

set_option autoImplicit false

namespace MSearchDB.Storage.RocksDb

open MSearchDB.Lib
open MSearchDB.Core
open Std (ExtTreeMap)

namespace RocksDbStorage

variable [RmpSerde Document]

/-- The document behind an entry of a column family. -/
def decodeEntry (kv : Bytes × Bytes) : Option Document :=
  match RmpSerde.fromSlice kv.2 with
  | .ok doc => some doc
  | .error _ => none

/-- The documents of a column family, in key order. -/
def docsOf (m : ColumnFamily) : List Document := m.toList.filterMap decodeEntry

/-- Every value of the column family decodes. -/
def Decodes (es : List (Bytes × Bytes)) : Prop :=
  ∀ kv ∈ es, ∃ doc : Document, decodeEntry kv = some doc

/-- The scan does not stop in front of the entry. -/
def upTo (stop : String) (kv : Bytes × Bytes) : Bool :=
  compare (fromUtf8Lossy kv.1) (asBytes stop) != .gt

/-- The documents a scan finds when it has no limit. -/
def scanned (range : RangeInclusive DocumentId) (m : ColumnFamily) : List Document :=
  ((DB.iteratorFrom m range.start.key).takeWhile (upTo range.stop.val)).filterMap decodeEntry

/-- The loop of a scan that may push at least one more document. -/
theorem scanLoop_eq (stop : String) (limit : Nat) :
    ∀ (es : List (Bytes × Bytes)) (docs : List Document), docs.length < limit → Decodes es →
      scanLoop stop limit docs es =
        .ok (docs ++ ((es.takeWhile (upTo stop)).filterMap decodeEntry).take
          (limit - docs.length)) := by
  intro es
  -- induction on the entries the iterator still yields
  induction es with
  | nil => intro docs _ _; simp [scanLoop]
  | cons kv es ih =>
      intro docs hlt hdec
      obtain ⟨k, v⟩ := kv
      obtain ⟨doc, hdoc⟩ := hdec (k, v) List.mem_cons_self
      have hslice : RmpSerde.fromSlice v = .ok doc := by
        rw [decodeEntry] at hdoc
        split at hdoc
        · next h => rwa [Option.some.inj hdoc] at h
        · cases hdoc
      by_cases hstop : compare (fromUtf8Lossy k) (asBytes stop) = .gt
      · -- the key is past the end of the range
        have hup : upTo stop (k, v) = false := by simp [upTo, hstop]
        rw [scanLoop, if_pos hstop, List.takeWhile_cons_of_neg (by simp [hup])]
        simp
      · have hup : upTo stop (k, v) = true := by simp [upTo, hstop]
        rw [scanLoop, if_neg hstop, List.takeWhile_cons_of_pos hup, List.filterMap_cons_some hdoc]
        obtain ⟨n, hn⟩ : ∃ n, limit - docs.length = n + 1 := ⟨limit - docs.length - 1, by omega⟩
        simp only [hslice, hn, List.take_succ_cons]
        have hlen : (docs ++ [doc]).length = docs.length + 1 := by simp
        by_cases hfull : limit ≤ (docs ++ [doc]).length
        · -- this document is the last one the limit allows
          have hzero : n = 0 := by omega
          simp [hzero, show limit ≤ docs.length + 1 by omega]
        · rw [if_neg hfull, ih (docs ++ [doc]) (by omega)
            fun kv hkv => hdec kv (List.mem_cons_of_mem _ hkv)]
          have hleft : limit - (docs ++ [doc]).length = n := by omega
          rw [hleft, List.append_assoc]
          rfl

/-- A scan of a column family whose values decode. -/
theorem scanOr_eq {s : RocksDbStorage} {cf : String} {m : ColumnFamily}
    (hcf : s.db.cfHandle cf = some m) (hdec : Decodes m.toList) (missing : DbError)
    (range : RangeInclusive DocumentId) {limit : Nat} (hlimit : 0 < limit) :
    s.scanOr missing cf range limit = .ok ((scanned range m).take limit) := by
  rw [scanOr, hcf]
  refine (scanLoop_eq _ _ _ [] hlimit fun kv hkv => hdec kv ?_).trans ?_
  · exact List.mem_of_mem_filter hkv
  · simp [scanned]

theorem length_filterMap_decodeEntry {es : List (Bytes × Bytes)} (h : Decodes es) :
    (es.filterMap decodeEntry).length = es.length := by
  induction es with
  | nil => rfl
  | cons kv es ih =>
      obtain ⟨doc, hdoc⟩ := h kv List.mem_cons_self
      rw [List.filterMap_cons_some hdoc, List.length_cons, List.length_cons,
        ih fun kv hkv => h kv (List.mem_cons_of_mem _ hkv)]

/-- What a scan finds is part of the column family. -/
theorem scanned_sublist (range : RangeInclusive DocumentId) (m : ColumnFamily) (limit : Nat) :
    ((scanned range m).take limit).Sublist (docsOf m) := by
  apply (List.take_sublist _ _).trans
  apply List.Sublist.filterMap
  exact (List.takeWhile_sublist _).trans List.filter_sublist

/-- A scan misses nothing exactly when all keys are in its range and their number
does not exceed its limit. -/
theorem scanned_eq_iff {m : ColumnFamily} (hdec : Decodes m.toList)
    (range : RangeInclusive DocumentId) (limit : Nat) :
    (scanned range m).take limit = docsOf m ↔
      (∀ kv ∈ m.toList, (compare range.start.key kv.1).isLE = true ∧
        upTo range.stop.val kv = true) ∧ (docsOf m).length ≤ limit := by
  constructor
  · intro h
    have hlen : ((scanned range m).take limit).length = m.toList.length := by
      rw [h, docsOf, length_filterMap_decodeEntry hdec]
    rw [List.length_take] at hlen
    have hscan : (scanned range m).length ≤
        ((DB.iteratorFrom m range.start.key).takeWhile (upTo range.stop.val)).length :=
      List.length_filterMap_le _ _
    have hwhile := (List.takeWhile_sublist (upTo range.stop.val)
      (l := DB.iteratorFrom m range.start.key)).length_le
    have hfilter : (DB.iteratorFrom m range.start.key).length ≤ m.toList.length :=
      List.length_filter_le _ _
    -- the iterator and the walk are sublists of the family of the same length
    have hiter : DB.iteratorFrom m range.start.key = m.toList :=
      List.filter_sublist.eq_of_length (by rw [DB.iteratorFrom] at *; omega)
    have htake : m.toList.takeWhile (upTo range.stop.val) = m.toList := by
      apply (List.takeWhile_sublist _).eq_of_length
      rw [hiter] at hscan hwhile
      omega
    refine ⟨fun kv hkv => ⟨?_, List.takeWhile_eq_self_iff.1 htake kv hkv⟩, ?_⟩
    · rw [← hiter] at hkv
      exact (List.mem_filter.1 hkv).2
    · rw [docsOf, length_filterMap_decodeEntry hdec]
      omega
  · rintro ⟨hall, hlimit⟩
    have hiter : DB.iteratorFrom m range.start.key = m.toList :=
      List.filter_eq_self.2 fun kv hkv => (hall kv hkv).1
    have htake : m.toList.takeWhile (upTo range.stop.val) = m.toList :=
      List.takeWhile_eq_self_iff.2 fun kv hkv => (hall kv hkv).2
    have hscan : scanned range m = docsOf m := by
      rw [scanned, hiter, htake, docsOf]
    rw [hscan, List.take_of_length_le hlimit]

/-! ## Entries and documents -/

theorem decodes_of_encoded {s : RocksDbStorage} {cf : String} {m : ColumnFamily}
    (hcf : s.db.cfHandle cf = some m) (henc : Encoded (s.db.slot cf)) : Decodes m.toList := by
  rintro ⟨k, v⟩ hkv
  have hv : m[k]? = some v := ExtTreeMap.mem_toList_iff_getElem?_eq_some.1 hkv
  obtain ⟨doc, hdoc, -⟩ := henc (fun k => m[k]?) k v (by simp [DB.slot, hcf]) hv
  exact ⟨doc, by simp [decodeEntry, RmpSerde.fromSlice_toVec hdoc]⟩

/-- Every entry is the document with that key. -/
theorem exists_document_of_mem {s : RocksDbStorage} {cf : String} {m : ColumnFamily}
    (hcf : s.db.cfHandle cf = some m) (henc : Encoded (s.db.slot cf)) {kv : Bytes × Bytes}
    (hkv : kv ∈ m.toList) :
    ∃ id doc, kv.1 = DocumentId.key id ∧ s.getDocumentFrom cf id = .ok (some doc) := by
  have hv : m[kv.1]? = some kv.2 := ExtTreeMap.mem_toList_iff_getElem?_eq_some.1 hkv
  have hslot : s.db.slot cf = some fun k => m[k]? := by simp [DB.slot, hcf]
  obtain ⟨doc, hdoc, hkey⟩ := henc (fun k => m[k]?) kv.1 kv.2 hslot hv
  refine ⟨doc.id, doc, hkey.symm, ?_⟩
  rw [getDocumentFrom, get_eq, hslot, hkey]
  simp [hv, RmpSerde.fromSlice_toVec hdoc]

/-- Every document that is found is an entry. -/
theorem mem_of_getDocumentFrom {s : RocksDbStorage} {cf : String} {m : ColumnFamily}
    (hcf : s.db.cfHandle cf = some m) {id : DocumentId} {doc : Document}
    (h : s.getDocumentFrom cf id = .ok (some doc)) : ∃ v, (id.key, v) ∈ m.toList := by
  have hslot : s.db.slot cf = some fun k => m[k]? := by simp [DB.slot, hcf]
  rw [getDocumentFrom, get_eq, hslot] at h
  cases hv : m[id.key]? with
  | none => simp [hv] at h
  | some v => exact ⟨v, ExtTreeMap.mem_toList_iff_getElem?_eq_some.2 hv⟩

omit [RmpSerde Document] in
theorem okOr_eq_ok_iff {missing : DbError} {found : DbResult (Option Document)} {doc : Document} :
    okOr missing found = .ok doc ↔ found = .ok (some doc) := by
  rcases found with e | _ | d <;> simp [okOr]

/-! ## Contents -/

/-- The identifier is in the range, in the bytewise order of the keys. -/
def InRange (range : RangeInclusive DocumentId) (id : DocumentId) : Prop :=
  (compare range.start.key id.key).isLE = true ∧ compare id.key range.stop.key ≠ .gt

/-- The name is that of a collection's column family. -/
def isCollectionName (name : String) : Bool := "col_".toList.isPrefixOf name.toList

omit [RmpSerde Document] in
theorem isCollectionName_iff {name : String} :
    isCollectionName name = true ↔ ∃ c, name = collectionCfName c := by
  rw [isCollectionName, List.isPrefixOf_iff_prefix]
  constructor
  · rintro ⟨rest, hrest⟩
    refine ⟨String.ofList rest, String.toList_injective ?_⟩
    rw [← hrest, collectionCfName, String.toList_append]
    simp
  · rintro ⟨c, rfl⟩
    exact ⟨c.toList, by rw [collectionCfName, String.toList_append]⟩

/-- The column family `documents`. -/
def defaultMap (s : RocksDbStorage) : ColumnFamily := (s.db.cfHandle cfDocuments).getD ∅

/-- The documents of all collections. -/
def collectionDocs (s : RocksDbStorage) : List Document :=
  (s.db.cfs.toList.filter fun cf => isCollectionName cf.1).flatMap fun cf => docsOf cf.2

/-- All documents of a store. -/
def contents (s : RocksDbStorage) : List Document := docsOf s.defaultMap ++ s.collectionDocs

omit [RmpSerde Document] in
theorem cfHandle_defaultMap {s : RocksDbStorage} (h : HasBase s) :
    s.db.cfHandle cfDocuments = some s.defaultMap := by
  have hsome := h cfDocuments (by decide)
  rw [isSome_slot] at hsome
  obtain ⟨m, hm⟩ := Option.isSome_iff_exists.1 hsome
  rw [defaultMap, hm]
  rfl

/-- No collection has a document when lookups in collections find none. -/
theorem collectionDocs_eq_nil_iff {s : RocksDbStorage} (h : WellFormed s) :
    s.collectionDocs = [] ↔ ∀ c id doc, StorageBackend.getFromCollection s c id ≠ .ok doc := by
  have henc : ∀ c, Encoded (s.db.slot (collectionCfName c)) :=
    fun c => h.encoded _ (collectionCfName_ne_sequence c).symm
  rw [collectionDocs, List.flatMap_eq_nil_iff]
  constructor
  · intro hnil c id doc hget
    have hfound := okOr_eq_ok_iff.1 hget
    cases hcf : s.db.cfHandle (collectionCfName c) with
    | none =>
        rw [getDocumentFromCollection,
          getDocumentFrom_of_none (slot_eq_none_of_cfHandle hcf)] at hfound
        cases hfound
    | some m =>
        obtain ⟨v, hv⟩ := mem_of_getDocumentFrom hcf hfound
        have hmem : (collectionCfName c, m) ∈
            s.db.cfs.toList.filter fun cf => isCollectionName cf.1 :=
          List.mem_filter.2 ⟨ExtTreeMap.mem_toList_iff_getElem?_eq_some.2 hcf,
            isCollectionName_iff.2 ⟨c, rfl⟩⟩
        -- a family that yields no documents has no entries
        have hlen := length_filterMap_decodeEntry (decodes_of_encoded hcf (henc c))
        rw [show m.toList.filterMap decodeEntry = [] from hnil _ hmem] at hlen
        rw [List.length_eq_zero_iff.1 hlen.symm] at hv
        cases hv
  · rintro hnone ⟨name, m⟩ hmem
    obtain ⟨hcf, hname⟩ := List.mem_filter.1 hmem
    have hcf : s.db.cfHandle name = some m := ExtTreeMap.mem_toList_iff_getElem?_eq_some.1 hcf
    obtain ⟨c, rfl⟩ := isCollectionName_iff.1 hname
    have hempty : m.toList = [] := by
      apply List.eq_nil_iff_forall_not_mem.2
      intro kv hkv
      obtain ⟨id, doc, -, hfound⟩ := exists_document_of_mem hcf (henc c) hkv
      exact hnone c id doc (okOr_eq_ok_iff.2 hfound)
    rw [docsOf, hempty]
    rfl

omit [RmpSerde Document] in
/-- Identifiers are strings, which the lossy decoding keeps. -/
theorem upTo_key (stop id : DocumentId) (v : Bytes) :
    upTo stop.val (id.key, v) = true ↔ compare id.key stop.key ≠ .gt := by
  simp [upTo, DocumentId.key, fromUtf8Lossy_asBytes]

/-- The keys of the default map are in the range of a scan when the identifiers of
its documents are. -/
theorem keys_inRange_iff {s : RocksDbStorage} (h : WellFormed s)
    (range : RangeInclusive DocumentId) :
    (∀ kv ∈ s.defaultMap.toList, (compare range.start.key kv.1).isLE = true ∧
        upTo range.stop.val kv = true) ↔
      ∀ id doc, StorageBackend.get s id = .ok doc → InRange range id := by
  have hcf := cfHandle_defaultMap h.base
  constructor
  · intro hall id doc hget
    obtain ⟨v, hv⟩ := mem_of_getDocumentFrom hcf (okOr_eq_ok_iff.1 hget)
    obtain ⟨hstart, hstop⟩ := hall _ hv
    exact ⟨hstart, (upTo_key _ id v).1 hstop⟩
  · rintro hall ⟨k, v⟩ hkv
    obtain ⟨id, doc, rfl, hfound⟩ :=
      exists_document_of_mem hcf (h.encoded _ (by decide)) hkv
    obtain ⟨hstart, hstop⟩ := hall id doc (okOr_eq_ok_iff.2 hfound)
    exact ⟨hstart, (upTo_key _ id v).2 hstop⟩

end RocksDbStorage

end MSearchDB.Storage.RocksDb
