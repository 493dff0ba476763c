import MSearchDB.Lib.JsonText
import MSearchDB.Node.Bulk
import MSearchDB.Node.QueryDecode

/-!
# What the bulk endpoint reads

`serde_json::from_str` for the lines of a bulk request: a `BulkAction` (`crates/node/src/dto.rs`)
in an action line, and a `HashMap<String, serde_json::Value>` in the line after an index action.

`parseLoop` lists what the parse loop of `bulk_index` makes of the lines, in their order. The loop
itself does with a line what its outcome says, and nothing else (`bulkLoop_eq_foldl`).
-/

set_option autoImplicit false

namespace MSearchDB.Node

open MSearchDB.Lib
open MSearchDB.Core
open MSearchDB.Consensus
open MSearchDB.Storage.RocksDb
open Std (ExtTreeMap)

/-! ## The lines -/

/-- `serde_json::Error`: the text is not JSON, or not of the type. -/
inductive SerdeError where
  | text (e : JsonError)
  | data (e : DecodeError)
  deriving DecidableEq, Repr

/-- `Option<String>`. -/
def decodeOptionString : Json F64 → Decoded (Option String)
  | .null => .ok none
  | .string s => .ok (some s)
  | _ => .error .invalidType

/-- `BulkActionMeta`: its `_id`. -/
def decodeBulkActionMeta (remaining : Nat) : Json F64 → Decoded (Option String)
  | .object members => do
      let _ ← enter remaining
      match ← optionalField "_id" members with
      | none => .ok none
      | some value => decodeOptionString value
  | .array [] => do
      let _ ← enter remaining
      .ok none
  | .array [id] => do
      let _ ← enter remaining
      decodeOptionString id
  | .array _ => .error .invalidLength
  | _ => .error .invalidType

/-- `BulkAction`. -/
def decodeBulkAction (remaining : Nat) : Json F64 → Decoded BulkAction
  | .object [(variant, content)] => do
      let remaining ← enter remaining
      if variant = "index" then .ok (.index (← decodeBulkActionMeta remaining content))
      else if variant = "delete" then .ok (.delete (← decodeBulkActionMeta remaining content))
      else .error (.unknownVariant variant)
  | _ => .error .invalidType

/-- A JSON object, by its members in the order in which they stand. -/
def decodeObject : Json F64 → Decoded (List (String × Json F64))
  | .object members => .ok members
  | _ => .error .invalidType

section Reading

variable [FloatText F64]

/-- `serde_json::from_str` for a type with this decoder. -/
def fromStr {α : Type} (decode : Json F64 → Decoded α) (line : String) : Except SerdeError α :=
  match Json.parse recursionLimit line.toList with
  | .error e => .error (.text e)
  | .ok v =>
      match decode v with
      | .error e => .error (.data e)
      | .ok a => .ok a

/-- The action of a line. -/
def readAction (line : String) : Except SerdeError BulkAction := fromStr (decodeBulkAction recursionLimit) line

/-- The document of a line. -/
def readDocument (line : String) : Except SerdeError (List (String × Json F64)) := fromStr decodeObject line

end Reading

/-- `n as f64` for a signed integer. -/
def intAsF64 (n : Int) : F64 := F64.ofMagnitude (n < 0) (F64.ofRatio n.natAbs 1)

mutual
/-- The `serde_json::Value` of a text, whose numbers are used by their `as_f64` only. Of two members
with one name the later is kept. -/
def toValue : Json F64 → JsonValue
  | .null => .null
  | .bool b => .bool b
  | .int n => .number (some (intAsF64 n))
  | .float x => .number (some x)
  | .string s => .string s
  | .array vs => .array (toValues vs)
  | .object members => .object (toMap members).toList
/-- The values of an array. -/
def toValues : List (Json F64) → List JsonValue
  | [] => []
  | v :: vs => toValue v :: toValues vs
/-- The members of an object. -/
def toMap : List (String × Json F64) → ExtTreeMap String JsonValue
  | [] => ∅
  | (key, v) :: members =>
      let m := toMap members
      if key ∈ m then m else m.insert key (toValue v)
end

/-! ## The parse loop -/

/-- What the loop makes of an action. -/
inductive BulkOutcome (β : Type) where
  | rejected (item : BulkItem)
  | index (line : Nat) (id : Option String) (body : β)
  | delete (id : DocumentId)

/-- The outcome with another body. -/
def BulkOutcome.map {β γ : Type} (f : β → γ) : BulkOutcome β → BulkOutcome γ
  | .rejected item => .rejected item
  | .index line id body => .index line id (f body)
  | .delete id => .delete id

/-- The item of a delete without an id. -/
def deleteRequiresId : BulkItem := ⟨"delete", "", 400, some "delete action requires _id"⟩

/-- The outcomes of the lines of a bulk request, from line `i` on. -/
def parseLoop {β : Type} (action : String → Except String BulkAction) (body : String → Except String β) :
    List String → Nat → List (BulkOutcome β)
  | [], _ => []
  | actionLine :: rest, i =>
      match action actionLine with
      | .error e =>
          .rejected ⟨"unknown", "", 400, some ("invalid action line: " ++ e)⟩ :: parseLoop action body rest (i + 1)
      | .ok (.index id) =>
          match rest with
          | [] => [.rejected ⟨"index", id.getD "", 400, some "missing document body after index action"⟩]
          | docLine :: rest =>
              match body docLine with
              | .error e =>
                  .rejected ⟨"index", id.getD "", 400, some ("invalid document body: " ++ e)⟩ ::
                    parseLoop action body rest (i + 2)
              | .ok fields => .index i id fields :: parseLoop action body rest (i + 2)
      | .ok (.delete id) =>
          if id.getD "" = "" then .rejected deleteRequiresId :: parseLoop action body rest (i + 1)
          else .delete ⟨id.getD ""⟩ :: parseLoop action body rest (i + 1)

section Step

variable {β : Type} {action : String → Except String BulkAction} {body : String → Except String β}

theorem parseLoop_index {line docLine : String} {id : Option String} {fields : β}
    (hline : action line = .ok (.index id)) (hbody : body docLine = .ok fields) (rest : List String) (i : Nat) :
    parseLoop action body (line :: docLine :: rest) i = .index i id fields :: parseLoop action body rest (i + 2) := by
  simp only [parseLoop, hline, hbody]

theorem parseLoop_delete {line : String} {id : Option String} (hline : action line = .ok (.delete id))
    (rest : List String) (i : Nat) :
    parseLoop action body (line :: rest) i =
      (if id.getD "" = "" then .rejected deleteRequiresId else .delete ⟨id.getD ""⟩) ::
        parseLoop action body rest (i + 1) := by
  simp only [parseLoop, hline]
  split
  · rfl
  · rfl

end Step

/-- The bodies of the outcomes are those that were read. -/
theorem parseLoop_map {β γ : Type} (action : String → Except String BulkAction) (body : String → Except String β)
    (f : β → γ) (lines : List String) (i : Nat) :
    parseLoop action (fun line => (body line).map f) lines i = (parseLoop action body lines i).map (.map f) := by
  fun_induction parseLoop action body lines i with
  | case1 i => rfl
  | case2 i line rest e he ih => simp [parseLoop, he, ih, BulkOutcome.map]
  | case3 i line id he => simp [parseLoop, he, BulkOutcome.map]
  | case4 i line id he docLine rest e hb ih =>
      simp only [parseLoop, he, hb, ih, List.map_cons]
      rfl
  | case5 i line id he docLine rest fields hb ih =>
      simp only [parseLoop, he, hb, ih, List.map_cons]
      rfl
  | case6 i line rest id he hid ih => simp [parseLoop, he, hid, ih, BulkOutcome.map]
  | case7 i line rest id he hid ih => simp [parseLoop, he, hid, ih, BulkOutcome.map]

section Loop

variable {σ ι : Type} [StorageBackend σ] [IndexBackend ι]
  (answer : RaftResponse → DbResult RaftResponse) (collection : String) [BulkInput]

/-- What `bulk_index` does with an outcome. -/
def BulkOutcome.handle (st : BulkState σ ι) : BulkOutcome (ExtTreeMap String JsonValue) → BulkState σ ι
  | .rejected item => st.reject item
  | .index line id fields =>
      flushIfFull answer collection { st with pendingDocs := st.pendingDocs ++ [actionDocument id line fields] }
  | .delete id => { st with pendingDeletes := st.pendingDeletes ++ [id] }

omit [BulkInput] in
/-- A full batch never waits for the next line. -/
theorem pendingDocs_flushIfFull (st : BulkState σ ι) :
    (flushIfFull answer collection st).pendingDocs.length < batchSize := by
  unfold flushIfFull
  split
  · rw [(flushInsertBatch_effect answer collection st).2.1]
    decide
  · next h => exact Nat.lt_of_not_le h

/-- **The loop of `bulk_index` handles the outcomes one by one.** -/
theorem bulkLoop_eq_foldl (lines : List String) (i : Nat) (st : BulkState σ ι)
    (hst : st.pendingDocs.length < batchSize) :
    bulkLoop answer collection lines i st =
      (parseLoop BulkInput.parseAction BulkInput.parseBody lines i).foldl
        (BulkOutcome.handle answer collection) st := by
  fun_induction parseLoop BulkInput.parseAction BulkInput.parseBody lines i generalizing st with
  | case1 i => rfl
  | case2 line i rest e he ih =>
      rw [bulkLoop, he, List.foldl_cons]
      exact ih _ hst
  | case3 line i id he =>
      rw [bulkLoop, he]
      rfl
  | case4 line i id he docLine rest e hb ih =>
      simp only [bulkLoop, he, hb, List.foldl_cons]
      exact ih _ hst
  | case5 line i id he docLine rest fields hb ih =>
      simp only [bulkLoop, he, hb, List.foldl_cons]
      exact ih _ (pendingDocs_flushIfFull answer collection _)
  | case6 line i rest id he hid ih =>
      have hnone : flushIfFull answer collection (st.reject deleteRequiresId) = st.reject deleteRequiresId :=
        flushIfFull_of_lt answer collection hst
      rw [deleteRequiresId] at hnone
      simp only [bulkLoop, he, hid, if_true, List.foldl_cons, hnone]
      exact ih _ hst
  | case7 line i rest id he hid ih =>
      have hqueued : flushIfFull answer collection
          { st with pendingDeletes := st.pendingDeletes ++ [⟨id.getD ""⟩] } =
          { st with pendingDeletes := st.pendingDeletes ++ [⟨id.getD ""⟩] } :=
        flushIfFull_of_lt answer collection hst
      simp only [bulkLoop, he, hid, if_false, List.foldl_cons, hqueued]
      exact ih _ hst

end Loop

section Serde

variable [FloatText F64] (display : SerdeError → String)

/-- The outcomes of the lines, with the documents as they stand in the text. -/
def recognised (lines : List String) (i : Nat) : List (BulkOutcome (List (String × Json F64))) :=
  parseLoop (fun line => (readAction line).mapError display) (fun line => (readDocument line).mapError display)
    lines i

theorem recognised_index {line docLine : String} {id : Option String} {doc : List (String × Json F64)}
    (hline : readAction line = .ok (.index id)) (hdoc : readDocument docLine = .ok doc) (rest : List String)
    (i : Nat) :
    recognised display (line :: docLine :: rest) i = .index i id doc :: recognised display rest (i + 2) :=
  parseLoop_index (by rw [hline]; rfl) (by rw [hdoc]; rfl) rest i

theorem recognised_delete {line : String} {id : Option String} (hline : readAction line = .ok (.delete id))
    (rest : List String) (i : Nat) :
    recognised display (line :: rest) i =
      (if id.getD "" = "" then .rejected deleteRequiresId else .delete ⟨id.getD ""⟩) ::
        recognised display rest (i + 1) :=
  parseLoop_delete (by rw [hline]; rfl) rest i

/-- The lines are read by `serde_json`. -/
@[reducible] def serdeInput (generate : Nat → String) : BulkInput where
  parseAction line := (readAction line).mapError display
  parseBody line := ((readDocument line).mapError display).map toMap
  generate := generate

/-- **The handler acts on what is recognised.** -/
theorem bulkLoop_serde {σ ι : Type} [StorageBackend σ] [IndexBackend ι]
    (answer : RaftResponse → DbResult RaftResponse) (collection : String) (generate : Nat → String)
    (lines : List String) (sm : DbStateMachine σ ι) :
    @bulkLoop σ ι _ _ answer collection (serdeInput display generate) lines 0 (.start sm) =
      ((recognised display lines 0).map (.map toMap)).foldl
        (@BulkOutcome.handle σ ι _ _ answer collection (serdeInput display generate)) (.start sm) := by
  let _ := serdeInput display generate
  rw [recognised, ← parseLoop_map]
  exact bulkLoop_eq_foldl answer collection lines 0 (.start sm) (Nat.zero_lt_succ 99)

end Serde

end MSearchDB.Node
