import MSearchDB.Node.BulkParse

/-!
# The bulk payloads of the Python client

`build_ndjson` and `documents_to_ndjson` of `crates/client/python/msearchdb/bulk.py`, and what
`bulk_index` reads of the text that they make.

Every line is the text of an object, which `json.dumps` writes without spaces and in printable
ASCII characters: no line is blank, and none has a line end in it. So the lines that the server
counts are the lines that the client wrote, and each is read as it was written. Two documents
are not: one that is deeper than `serde_json` goes, and one with a float that it does not read as it
was written, since it reads floats at its best effort. Without these the server recognises the
operations, one by one (`recognised_payload`).
-/

set_option autoImplicit false

namespace MSearchDB.Client

open MSearchDB.Lib
open MSearchDB.Core
open MSearchDB.Consensus
open MSearchDB.Node

/-- The parts of Python that the payload is written with: `repr` for floats, which writes finite
ones in decimal with a fraction or an exponent, and `str` for ids that are no texts. What
`serde_json` reads of a float is the other side of `FloatText`. -/
class PyText extends FloatText F64 where
  reprValue : Json F64 → String
  text_finite : ∀ x : F64, x.isFinite = true → ∃ l : Json.DecimalLiteral, text x = l.text

section Writing

variable [PyText]

/-- `str`. -/
def str : Json F64 → String
  | .string s => s
  | v => PyText.reprValue v

/-- `str(doc_id)`, if the id is not `None`. -/
def idText : Json F64 → Option String
  | .null => none
  | id => some (str id)

/-- The action line of an operation. -/
def metaLine (action : String) (id : Json F64) : Json F64 :=
  .object [(action, .object ((idText id).map fun s => ("_id", Json.string s)).toList)]

/-- A bulk operation: what `get` finds in it. The id is `None` where there is none. -/
structure BulkOperation where
  action : Option String
  id : Json F64
  doc : Option (List (String × Json F64))

/-- The lines of an operation, or the action that is unknown. -/
def BulkOperation.lines (op : BulkOperation) : Except String (List (Json F64)) :=
  let action := op.action.getD "index"
  if action = "index" then .ok [metaLine "index" op.id, .object (op.doc.getD [])]
  else if action = "delete" then .ok [metaLine "delete" op.id]
  else .error action

/-- The lines of all operations. -/
def buildLines : List BulkOperation → Except String (List (Json F64))
  | [] => .ok []
  | op :: ops => do
      let lines ← op.lines
      let rest ← buildLines ops
      .ok (lines ++ rest)

/-- The lines joined by line ends, with one at the end if there are any. -/
def joinLines (lines : List (List Char)) : String :=
  String.ofList (if lines.isEmpty then [] else ['\n'].intercalate lines ++ ['\n'])

/-- `build_ndjson`. -/
def buildNdjson (operations : List BulkOperation) : Except String String := do
  let lines ← buildLines operations
  .ok (joinLines (lines.map Json.dumps))

/-- `doc.pop("id", None)`: the id. -/
def popId (doc : List (String × Json F64)) : Json F64 := (doc.lookup "id").getD .null

/-- `doc.pop("id", None)`: what remains. -/
def withoutId (doc : List (String × Json F64)) : List (String × Json F64) := doc.filter fun m => m.1 ≠ "id"

/-- `documents_to_ndjson`. -/
def documentsToNdjson (documents : List (List (String × Json F64))) : String :=
  joinLines ((documents.flatMap fun doc => [metaLine "index" (popId doc), .object (withoutId doc)]).map Json.dumps)

/-! ## What should be read -/

/-- The outcome of an operation whose first line is this. -/
def BulkOperation.outcome (op : BulkOperation) (line : Nat) : BulkOutcome (List (String × Json F64)) :=
  if op.action.getD "index" = "index" then .index line (idText op.id) (op.doc.getD [])
  else if (idText op.id).getD "" = "" then .rejected deleteRequiresId
  else .delete ⟨(idText op.id).getD ""⟩

/-- The lines that an operation takes. -/
def BulkOperation.lineCount (op : BulkOperation) : Nat := if op.action.getD "index" = "index" then 2 else 1

/-- The outcomes of operations, the first of which starts at this line: one for each. -/
def outcomes : List BulkOperation → Nat → List (BulkOutcome (List (String × Json F64)))
  | [], _ => []
  | op :: ops, line => op.outcome line :: outcomes ops (line + op.lineCount)

/-- The operation that `documents_to_ndjson` makes of a document. -/
def indexOperation (doc : List (String × Json F64)) : BulkOperation := ⟨some "index", popId doc, some (withoutId doc)⟩

/-- A number that fits: an `i64` or `u64`, or a finite float. -/
def NumberFits : Json F64 → Prop
  | .int n => -2 ^ 63 ≤ n ∧ n < 2 ^ 64
  | .float x => x.isFinite = true
  | _ => True

/-- A float that the server reads as it was written. -/
def FloatExact : Json F64 → Prop
  | .float x => FloatText.read (FloatText.text x) = some x
  | _ => True

/-- Every number in the document fits. -/
def NumbersFit (doc : List (String × Json F64)) : Prop := ∀ v ∈ Json.subvaluesOfMembers doc, NumberFits v

/-- A document that the server can read: its floats are read as they were written, and it is not
deeper than the server goes. -/
def DocumentReadable (doc : List (String × Json F64)) : Prop :=
  (∀ v ∈ Json.subvaluesOfMembers doc, FloatExact v) ∧ (Json.object doc).depth ≤ 127

/-! ## Every line is read as it was written -/

/-- A line that is printable and not blank. -/
def LineText (l : List Char) : Prop := (∀ c ∈ l, Json.Printable c) ∧ ∃ c ∈ l, isWhitespace c = false

omit [PyText] in
theorem LineText.not_mem {l : List Char} (h : LineText l) {c : Char} (hc : ¬ Json.Printable c) : c ∉ l :=
  fun hmem => hc (h.1 c hmem)

omit [PyText] in
theorem LineText.stripCr {l : List Char} (h : LineText l) : stripCr l = l := by
  unfold Node.stripCr
  split
  · next hlast => exact absurd (List.mem_of_getLast? hlast) (h.not_mem (by decide))
  · rfl

omit [PyText] in
theorem intercalate_append_newline (l : List Char) (ls : List (List Char)) :
    ['\n'].intercalate (l :: ls) ++ ['\n'] = ['\n'].intercalate (l :: ls ++ [[]]) := by
  induction ls generalizing l with
  | nil => simp
  | cons k ls ih =>
      have hk := ih k
      rw [List.intercalate_cons_cons, List.append_assoc, List.append_assoc, hk]
      simp

omit [PyText] in
/-- The server counts the lines that were written. -/
theorem bulkLines_joinLines (ls : List (List Char)) (h : ∀ l ∈ ls, LineText l) :
    bulkLines (joinLines ls) = ls.map String.ofList := by
  cases ls with
  | nil => rfl
  | cons l ls =>
      have hsplit : (['\n'].intercalate (l :: ls) ++ ['\n']).splitOn '\n' = l :: ls ++ [[]] := by
        rw [intercalate_append_newline]
        refine List.splitOn_intercalate '\n' ?_ (by simp)
        rw [List.forall_mem_append]
        exact ⟨fun k hk => (h k hk).not_mem (by decide), by simp⟩
      have hstrip : (l :: ls).map stripCr = l :: ls := by
        conv_rhs => rw [← List.map_id (l :: ls)]
        exact List.map_congr_left fun k hk => (h k hk).stripCr
      have hkeep : (l :: ls).filter (fun k => !k.all isWhitespace) = l :: ls := by
        refine List.filter_eq_self.2 fun k hk => ?_
        obtain ⟨c, hc, hspace⟩ := (h k hk).2
        simp only [Bool.not_eq_true', List.all_eq_false]
        exact ⟨c, hc, by simp [hspace]⟩
      have hlines : lines (['\n'].intercalate (l :: ls) ++ ['\n']) = l :: ls ++ [[]] := by
        simp only [lines, hsplit, List.dropLast_concat, hstrip, List.getLast?_concat, Option.toList_some]
      unfold bulkLines joinLines
      rw [String.toList_ofList, if_neg (by simp), hlines, List.filter_append, hkeep]
      simp

theorem metaLine_readable (action : String) (id : Json F64) : (metaLine action id).Readable := by
  intro v hv
  cases hid : idText id with
  | none =>
      simp only [metaLine, hid, Json.subvalues, Json.subvaluesOfMembers, Option.map_none, Option.toList_none,
        List.append_nil, List.mem_cons, List.not_mem_nil, or_false] at hv
      rcases hv with rfl | rfl <;> trivial
  | some s =>
      simp only [metaLine, hid, Json.subvalues, Json.subvaluesOfMembers, Option.map_some, Option.toList_some,
        List.append_nil, List.mem_cons, List.not_mem_nil, or_false] at hv
      rcases hv with rfl | rfl | rfl <;> trivial

theorem documentLine_readable {doc : List (String × Json F64)} (hfit : NumbersFit doc) (hread : DocumentReadable doc) :
    (Json.object doc).Readable := by
  intro v hv
  rw [Json.subvalues, List.mem_cons] at hv
  rcases hv with rfl | hv
  · trivial
  · have hv₁ := hfit v hv
    have hv₂ := hread.1 v hv
    cases v with
    | int n => exact hv₁
    | float x =>
        obtain ⟨l, hl⟩ := PyText.text_finite x hv₁
        exact ⟨l, hl, hl ▸ hv₂⟩
    | null => trivial
    | bool b => trivial
    | string s => trivial
    | array vs => trivial
    | object members => trivial

theorem lineText_object (members : List (String × Json F64)) (h : (Json.object members).Readable) :
    LineText (Json.dumps (.object members)) := by
  refine ⟨Json.printable_dumps _ h, '\x7b', ?_, by decide⟩
  cases members with
  | nil => simp [Json.dumps]
  | cons m members => simp [Json.dumps]

theorem depth_metaLine (action : String) (id : Json F64) : (metaLine action id).depth = 2 := by
  cases hid : idText id <;> simp [metaLine, hid, Json.depth, Json.depthOfMembers]

/-- The action that a line is read as. -/
theorem fromStr_dumps {α : Type} (decode : Json F64 → Decoded α) (v : Json F64) (hv : v.Readable)
    (hdepth : v.depth ≤ 127) :
    fromStr decode (String.ofList (Json.dumps v)) = (decode v).mapError SerdeError.data := by
  have hparse := Json.parse_dumps recursionLimit v hv (Nat.lt_succ_of_le hdepth)
  simp only [fromStr, String.toList_ofList, hparse]
  cases decode v <;> rfl

theorem decodeBulkActionMeta_idText (id : Json F64) :
    decodeBulkActionMeta 127 (.object ((idText id).map fun s => ("_id", Json.string s)).toList) = .ok (idText id) := by
  cases idText id with
  | none => rfl
  | some s => simp [decodeBulkActionMeta, enter, optionalField, decodeOptionString, bind, Except.bind]

theorem readAction_index (id : Json F64) :
    readAction (String.ofList (Json.dumps (metaLine "index" id))) = .ok (.index (idText id)) := by
  have hdepth : (metaLine "index" id).depth ≤ 127 := by simp [depth_metaLine]
  rw [readAction, fromStr_dumps _ _ (metaLine_readable "index" id) hdepth]
  simp [metaLine, decodeBulkAction, recursionLimit, enter, decodeBulkActionMeta_idText, bind, Except.bind,
    Except.mapError]

theorem readAction_delete (id : Json F64) :
    readAction (String.ofList (Json.dumps (metaLine "delete" id))) = .ok (.delete (idText id)) := by
  have hdepth : (metaLine "delete" id).depth ≤ 127 := by simp [depth_metaLine]
  rw [readAction, fromStr_dumps _ _ (metaLine_readable "delete" id) hdepth]
  simp [metaLine, decodeBulkAction, recursionLimit, enter, decodeBulkActionMeta_idText, bind, Except.bind,
    Except.mapError]

theorem readDocument_dumps {doc : List (String × Json F64)} (hfit : NumbersFit doc) (hread : DocumentReadable doc) :
    readDocument (String.ofList (Json.dumps (.object doc))) = .ok doc := by
  rw [readDocument, fromStr_dumps _ _ (documentLine_readable hfit hread) hread.2]
  rfl

/-! ## The operations are recognised -/

/-- A document that an operation indexes fits, and the server can read it. -/
def BulkOperation.Readable (op : BulkOperation) : Prop :=
  op.action.getD "index" = "index" → NumbersFit (op.doc.getD []) ∧ DocumentReadable (op.doc.getD [])

/-- The lines of an operation that is accepted. -/
theorem BulkOperation.lines_cases {op : BulkOperation} {ls : List (Json F64)} (h : op.lines = .ok ls) :
    op.action.getD "index" = "index" ∧ ls = [metaLine "index" op.id, .object (op.doc.getD [])] ∨
      op.action.getD "index" = "delete" ∧ ls = [metaLine "delete" op.id] := by
  simp only [BulkOperation.lines] at h
  split at h
  · next hindex => exact .inl ⟨hindex, (Except.ok.inj h).symm⟩
  · split at h
    · next hdelete => exact .inr ⟨hdelete, (Except.ok.inj h).symm⟩
    · cases h

theorem buildLines_cons {op : BulkOperation} {ops : List BulkOperation} {ls : List (Json F64)}
    (h : buildLines (op :: ops) = .ok ls) :
    ∃ first rest, op.lines = .ok first ∧ buildLines ops = .ok rest ∧ ls = first ++ rest := by
  cases hfirst : op.lines with
  | error e => simp [buildLines, hfirst, bind, Except.bind] at h
  | ok first =>
      cases hrest : buildLines ops with
      | error e => simp [buildLines, hfirst, hrest, bind, Except.bind] at h
      | ok rest =>
          simp only [buildLines, hfirst, hrest, bind, Except.bind, Except.ok.injEq] at h
          exact ⟨first, rest, rfl, rfl, h.symm⟩

/-- Every line is the text of an object. -/
theorem lineText_buildLines (ops : List BulkOperation) (hops : ∀ op ∈ ops, op.Readable) (ls : List (Json F64))
    (h : buildLines ops = .ok ls) : ∀ l ∈ ls.map Json.dumps, LineText l := by
  induction ops generalizing ls with
  | nil =>
      cases h
      simp
  | cons op ops ih =>
      obtain ⟨first, rest, hfirst, hrest, rfl⟩ := buildLines_cons h
      have hop := hops op List.mem_cons_self
      have hops' := ih (fun o ho => hops o (List.mem_cons_of_mem _ ho)) rest hrest
      rw [List.map_append, List.forall_mem_append]
      refine ⟨?_, hops'⟩
      rcases BulkOperation.lines_cases hfirst with ⟨hindex, rfl⟩ | ⟨hdelete, rfl⟩
      · have hdoc := documentLine_readable (hop hindex).1 (hop hindex).2
        simp only [List.map_cons, List.map_nil, List.forall_mem_cons, List.not_mem_nil, false_imp_iff, implies_true,
          and_true]
        exact ⟨lineText_object _ (metaLine_readable "index" op.id), lineText_object _ hdoc⟩
      · simp only [List.map_cons, List.map_nil, List.forall_mem_cons, List.not_mem_nil, false_imp_iff, implies_true,
          and_true]
        exact lineText_object _ (metaLine_readable "delete" op.id)

variable (display : SerdeError → String)

/-- The lines of the operations are read as the operations. -/
theorem recognised_buildLines (ops : List BulkOperation) (hops : ∀ op ∈ ops, op.Readable) (ls : List (Json F64))
    (h : buildLines ops = .ok ls) (i : Nat) :
    recognised display ((ls.map Json.dumps).map String.ofList) i = outcomes ops i := by
  induction ops generalizing ls i with
  | nil =>
      cases h
      rfl
  | cons op ops ih =>
      obtain ⟨first, rest, hfirst, hrest, rfl⟩ := buildLines_cons h
      have hop := hops op List.mem_cons_self
      have hops' := fun i => ih (fun o ho => hops o (List.mem_cons_of_mem _ ho)) rest hrest i
      rcases BulkOperation.lines_cases hfirst with ⟨hindex, rfl⟩ | ⟨hdelete, rfl⟩
      · have hdoc := readDocument_dumps (hop hindex).1 (hop hindex).2
        have hcount : op.lineCount = 2 := by simp [BulkOperation.lineCount, hindex]
        simp only [List.map_cons, List.cons_append, List.nil_append]
        rw [recognised_index display (readAction_index op.id) hdoc, hops', outcomes, BulkOperation.outcome,
          if_pos hindex, hcount]
      · have hindex : ¬ op.action.getD "index" = "index" := by
          rw [hdelete]
          decide
        have hcount : op.lineCount = 1 := by simp [BulkOperation.lineCount, hindex]
        simp only [List.map_cons, List.cons_append, List.nil_append]
        rw [recognised_delete display (readAction_delete op.id), hops', outcomes, BulkOperation.outcome,
          if_neg hindex, hcount]

/-- `build_ndjson` makes the text of the lines. -/
theorem buildNdjson_eq_ok {ops : List BulkOperation} {text : String} (h : buildNdjson ops = .ok text) :
    ∃ ls, buildLines ops = .ok ls ∧ text = joinLines (ls.map Json.dumps) := by
  cases hls : buildLines ops with
  | error e => simp [buildNdjson, hls, bind, Except.bind] at h
  | ok ls =>
      simp only [buildNdjson, hls, bind, Except.bind, Except.ok.injEq] at h
      exact ⟨ls, rfl, h.symm⟩

/-- The payload of operations is read as the operations. -/
theorem recognised_buildNdjson (ops : List BulkOperation) (hops : ∀ op ∈ ops, op.Readable) (text : String)
    (h : buildNdjson ops = .ok text) : recognised display (bulkLines text) 0 = outcomes ops 0 := by
  obtain ⟨ls, hls, rfl⟩ := buildNdjson_eq_ok h
  rw [bulkLines_joinLines _ (lineText_buildLines ops hops ls hls)]
  exact recognised_buildLines display ops hops ls hls 0

/-- Documents are written as the operations that index them. -/
theorem buildNdjson_indexOperation (documents : List (List (String × Json F64))) :
    buildNdjson (documents.map indexOperation) = .ok (documentsToNdjson documents) := by
  have hlines : buildLines (documents.map indexOperation) =
      .ok (documents.flatMap fun doc => [metaLine "index" (popId doc), .object (withoutId doc)]) := by
    induction documents with
    | nil => rfl
    | cons doc documents ih =>
        have hop : (indexOperation doc).lines = .ok [metaLine "index" (popId doc), .object (withoutId doc)] := rfl
        rw [List.map_cons, buildLines, hop, ih]
        rfl
  simp only [buildNdjson, hlines, bind, Except.bind, documentsToNdjson]

/-- **The server recognises the operations of a payload**, one by one and in their order, each with
its kind and id and an index operation with its document; an outcome that is an error is that of a
delete without an id. The handler of bulk requests acts on what is recognised, whatever the payload. -/
theorem recognised_payload :
    (∀ ops : List BulkOperation, (∀ op ∈ ops, op.Readable) → ∀ text, buildNdjson ops = .ok text →
        recognised display (bulkLines text) 0 = outcomes ops 0) ∧
      (∀ documents : List (List (String × Json F64)),
        (∀ doc ∈ documents, NumbersFit (withoutId doc) ∧ DocumentReadable (withoutId doc)) →
        recognised display (bulkLines (documentsToNdjson documents)) 0 =
          outcomes (documents.map indexOperation) 0) ∧
      ∀ (σ ι : Type) [StorageBackend σ] [IndexBackend ι] (answer : RaftResponse → DbResult RaftResponse)
        (collection : String) (generate : Nat → String) (lines : List String) (sm : DbStateMachine σ ι),
        @bulkLoop σ ι _ _ answer collection (serdeInput display generate) lines 0 (.start sm) =
          ((recognised display lines 0).map (.map toMap)).foldl
            (@BulkOutcome.handle σ ι _ _ answer collection (serdeInput display generate)) (.start sm) := by
  refine ⟨recognised_buildNdjson display, fun documents hdocuments => ?_,
    fun σ ι _ _ answer collection generate lines sm => bulkLoop_serde display answer collection generate lines sm⟩
  refine recognised_buildNdjson display _ ?_ _ (buildNdjson_indexOperation documents)
  intro op hop
  obtain ⟨doc, hdoc, rfl⟩ := List.mem_map.1 hop
  exact fun _ => hdocuments doc hdoc

end Writing

/-- `9.008397207783739`. -/
def longFloat : F64 := ⟨0x4022044ca3899e25⟩

/-- Its digits after the point. -/
def longFraction : List Char := ['0', '0', '8', '3', '9', '7', '2', '0', '7', '7', '8', '3', '7', '3', '9']

/-- Three floats as Python writes them and `serde_json` reads them: it rounds the seventeen digits of
the long one twice and reads the next larger float. -/
@[reducible] def samplePy : PyText where
  text x :=
    if x = ⟨0x3ff8000000000000⟩ then ['1', '.', '5'] else if x = longFloat then '9' :: '.' :: longFraction
    else ['0', '.', '0']
  read cs :=
    if cs = ['1', '.', '5'] then some ⟨0x3ff8000000000000⟩
    else if cs = '9' :: '.' :: longFraction then some ⟨0x4022044ca3899e26⟩
    else if cs = ['0', '.', '0'] then some ⟨0⟩
    else none
  reprValue _ := ""
  text_finite x _ := by
    split
    · exact ⟨⟨false, 1, ['5'], none, List.all_eq_true.1 (by decide), by simp, .inl (by decide)⟩, rfl⟩
    split
    · exact ⟨⟨false, 9, longFraction, none, List.all_eq_true.1 (by decide), by simp, .inl (by decide)⟩, rfl⟩
    · exact ⟨⟨false, 0, ['0'], none, List.all_eq_true.1 (by decide), by simp, .inl (by decide)⟩, rfl⟩

/-- An index operation and two deletes, one of them without an id. -/
def sampleOperations : List BulkOperation :=
  [⟨some "index", .string "1", some [("price", .float ⟨0x3ff8000000000000⟩)]⟩,
    ⟨some "delete", .string "2", none⟩, ⟨some "delete", .null, none⟩]

theorem recognised_payload_sample :
    ∃ text, @buildNdjson samplePy sampleOperations = .ok text ∧
      @recognised samplePy.toFloatText (fun _ => "") (bulkLines text) 0 =
        [.index 0 (some "1") [("price", .float ⟨0x3ff8000000000000⟩)], .delete ⟨"2"⟩, .rejected deleteRequiresId] := by
  let _ := samplePy
  refine ⟨_, rfl, (recognised_payload (fun _ => "")).1 sampleOperations ?_ _ rfl⟩
  simp only [sampleOperations, List.forall_mem_cons, List.not_mem_nil, false_imp_iff, implies_true, and_true]
  refine ⟨fun _ => ⟨?_, ?_, by decide⟩, ?_, ?_⟩
  · simp only [NumbersFit, Option.getD_some, Json.subvaluesOfMembers, Json.subvalues, List.append_nil,
      List.forall_mem_singleton, NumberFits]
    decide
  · simp only [Option.getD_some, Json.subvaluesOfMembers, Json.subvalues, List.append_nil, List.forall_mem_singleton,
      FloatExact]
    decide
  · exact fun h => absurd h (by decide)
  · exact fun h => absurd h (by decide)

/-- Arrays in each other. -/
def nestedArrays : Nat → Json F64
  | 0 => .array []
  | n + 1 => .array [nestedArrays n]

theorem eq_array_of_mem_nestedArrays (n : Nat) : ∀ v ∈ (nestedArrays n).subvalues, ∃ vs, v = .array vs := by
  induction n with
  | zero => simp [nestedArrays, Json.subvalues, Json.subvaluesOf]
  | succ n ih => simpa [nestedArrays, Json.subvalues, Json.subvaluesOf] using ih

section Deep

variable [FloatText F64]

theorem dumps_nestedArrays (n : Nat) : ∃ cs, Json.dumps (nestedArrays n) = '[' :: cs := by
  cases n with
  | zero => exact ⟨_, rfl⟩
  | succ n => exact ⟨_, rfl⟩

/-- Arrays that are deeper than the reader goes are not read. -/
theorem parseValue_nestedArrays (n fuel remaining : Nat) (h : remaining ≤ n + 1) (rest : List Char) :
    ∃ e, (Json.parseValue fuel remaining (Json.dumps (nestedArrays n) ++ rest) :
      Except JsonError (Json F64 × List Char)) = .error e := by
  induction n generalizing fuel remaining rest with
  | zero =>
      cases fuel with
      | zero => exact ⟨_, rfl⟩
      | succ fuel =>
          refine ⟨.recursionLimitExceeded, ?_⟩
          simp [nestedArrays, Json.dumps, Json.parseValue, Json.skipSpace, Json.enterContainer, h, bind, Except.bind]
  | succ n ih =>
      cases fuel with
      | zero => exact ⟨_, rfl⟩
      | succ fuel =>
          by_cases hremaining : remaining ≤ 1
          · refine ⟨.recursionLimitExceeded, ?_⟩
            simp [nestedArrays, Json.dumps, Json.parseValue, Json.skipSpace, Json.enterContainer, hremaining, bind,
              Except.bind]
          · obtain ⟨e, he⟩ := ih fuel (remaining - 1) (by omega) (']' :: rest)
            obtain ⟨cs, hcs⟩ := dumps_nestedArrays n
            refine ⟨e, ?_⟩
            rw [hcs] at he
            simp only [List.cons_append] at he
            simp [nestedArrays, Json.dumps, Json.dumpsElements, hcs, Json.parseValue, Json.skipSpace,
              Json.enterContainer, hremaining, he, bind, Except.bind]

theorem readDocument_nestedArrays (key : String) :
    ∃ e, readDocument (String.ofList (Json.dumps (.object [(key, nestedArrays 126)]))) = .error e := by
  have hvalue : ∀ fuel, ∃ e, (Json.parseValue (fuel + 1) recursionLimit
      (Json.dumps (.object [(key, nestedArrays 126)])) : Except JsonError (Json F64 × List Char)) = .error e := by
    intro fuel
    obtain ⟨e, he⟩ := parseValue_nestedArrays 126 fuel 127 (by decide) ['\x7d']
    have hname := Json.parseName_quote key (Json.dumps (nestedArrays 126) ++ ['\x7d'])
    refine ⟨e, ?_⟩
    simp only [Json.quote, List.cons_append, List.append_assoc, List.nil_append] at hname
    simp [Json.dumps, Json.dumpsMembers, Json.quote, recursionLimit, Json.parseValue, Json.skipSpace,
      Json.enterContainer, hname, he, bind, Except.bind]
  obtain ⟨e, he⟩ := hvalue (Json.dumps (.object [(key, nestedArrays 126)])).length
  refine ⟨.text e, ?_⟩
  simp [readDocument, fromStr, Json.parse, he, bind, Except.bind]

end Deep

/-- The operations whose documents are so are recognised. -/
def RecognisedWhen [PyText] (p : List (String × Json F64) → Prop) : Prop :=
  ∀ ops : List BulkOperation, (∀ op ∈ ops, p (op.doc.getD [])) → ∀ text, buildNdjson ops = .ok text →
    recognised (fun _ => "") (bulkLines text) 0 = outcomes ops 0

/-- The bits of a float that is the only member of a document. -/
def floatBits : BulkOutcome (List (String × Json F64)) → Option UInt64
  | .index _ _ [(_, .float x)] => some x.bits
  | _ => none

/-- A document that is not read is one that is not recognised. -/
theorem not_recognisedWhen_of_error [PyText] {p : List (String × Json F64) → Prop} {doc : List (String × Json F64)}
    (hdoc : p doc) (hread : (Json.object doc).Readable)
    (herror : ∃ e, readDocument (String.ofList (Json.dumps (.object doc))) = .error e) : ¬ RecognisedWhen p := by
  intro h
  have hop := h [⟨none, .string "1", some doc⟩] (by simpa using hdoc) _ rfl
  obtain ⟨e, he⟩ := herror
  rw [bulkLines_joinLines] at hop
  · simp [recognised, parseLoop, readAction_index, he, Except.mapError, outcomes, BulkOperation.outcome] at hop
  · intro l hl
    obtain ⟨v, hv, rfl⟩ := List.mem_map.1 hl
    rcases List.mem_cons.1 hv with rfl | hv
    · exact lineText_object _ (metaLine_readable "index" _)
    · obtain rfl := List.mem_singleton.1 hv
      exact lineText_object _ hread

theorem not_recognisedWhen_deep : ¬ @RecognisedWhen samplePy fun doc =>
    NumbersFit doc ∧ ∀ v ∈ Json.subvaluesOfMembers doc, @FloatExact samplePy v := by
  let _ := samplePy
  have hvalues : ∀ v ∈ Json.subvaluesOfMembers [("a", nestedArrays 126)], ∃ vs, v = .array vs := by
    intro v hv
    exact eq_array_of_mem_nestedArrays 126 v (by simpa [Json.subvaluesOfMembers] using hv)
  refine not_recognisedWhen_of_error ⟨?_, ?_⟩ ?_ (readDocument_nestedArrays "a")
  · intro v hv
    obtain ⟨vs, rfl⟩ := hvalues v hv
    trivial
  · intro v hv
    obtain ⟨vs, rfl⟩ := hvalues v hv
    trivial
  · intro v hv
    rw [Json.subvalues, List.mem_cons] at hv
    rcases hv with rfl | hv
    · trivial
    · obtain ⟨vs, rfl⟩ := hvalues v hv
      trivial

theorem not_recognisedWhen_float : ¬ @RecognisedWhen samplePy fun doc =>
    NumbersFit doc ∧ (Json.object doc).depth ≤ 127 := by
  let _ := samplePy
  intro h
  have hfit : NumbersFit [("price", .float longFloat)] := by
    intro v hv
    obtain rfl : v = .float longFloat := by simpa [Json.subvaluesOfMembers, Json.subvalues] using hv
    exact (by decide : longFloat.isFinite = true)
  have hdepth : (Json.object [("price", Json.float longFloat)]).depth ≤ 127 := by decide
  have hread := h [⟨none, .string "1", some [("price", .float longFloat)]⟩] (by simpa using ⟨hfit, hdepth⟩) _ rfl
  have hbits := congrArg (List.map floatBits) hread
  revert hbits
  decide

/-- Neither the depth nor the floats can be left out. -/
theorem not_recognised_fit :
    ¬ @RecognisedWhen samplePy NumbersFit ∧
      (¬ @RecognisedWhen samplePy fun doc => NumbersFit doc ∧ (Json.object doc).depth ≤ 127) ∧
      ¬ @RecognisedWhen samplePy fun doc =>
        NumbersFit doc ∧ ∀ v ∈ Json.subvaluesOfMembers doc, @FloatExact samplePy v := by
  refine ⟨fun h => ?_, not_recognisedWhen_float, not_recognisedWhen_deep⟩
  exact not_recognisedWhen_float fun ops hops => h ops fun op hop => (hops op hop).1

end MSearchDB.Client
