import MSearchDB.Lib.OrderedMap
import MSearchDB.Core.Traits

/-!
# Merging field mappings

`FieldMapping::merge` of `crates/core/src/collection.rs` registers the fields of another mapping
one by one, in the order of a `HashMap`, and returns at the first conflict. What it
registered before stays.

A run of the loop either meets no conflict, and then ends with the union of the two
mappings (`mergeLoop_fits`), or it stops at the first one with the fields before it
registered (`mergeLoop_conflict`). A failed merge changes nothing exactly when no new field
comes before the first conflict (`merge_changes_nothing_iff`).
-/

set_option autoImplicit false

namespace MSearchDB.Core

open MSearchDB.Lib
open Std (ExtTreeMap)

namespace FieldMapping

/-- The loop of `merge` over fields that are left, with the names of the new ones. -/
def mergeLoop (m : FieldMapping) (added : List String) :
    List (String × MappedFieldType) → DbResult (List String) × FieldMapping
  | [] => (.ok added, m)
  | (name, ft) :: rest =>
      match m.registerField name ft with
      | .error e => (.error e, m)
      | .ok (isNew, m') => mergeLoop m' (if isNew then added ++ [name] else added) rest

/-- `merge` with another mapping, whose fields come in some order: the result, and the
mapping that is left. -/
def merge (m : FieldMapping) (order : List (String × MappedFieldType)) : DbResult (List String) × FieldMapping :=
  m.mergeLoop [] order

/-- The mapping has the field with another type. -/
def conflicts (m : FieldMapping) (nv : String × MappedFieldType) : Bool :=
  match m.fields[nv.1]? with
  | some existing => existing ≠ nv.2
  | none => false

/-- The mapping does not have the field. -/
def lacks (m : FieldMapping) (nv : String × MappedFieldType) : Bool := m.fields[nv.1]?.isNone

/-- `m'` is `m` with the fields of the list that `m` lacks. -/
def IsExtension (m : FieldMapping) (order : List (String × MappedFieldType)) (m' : FieldMapping) : Prop :=
  ∀ (name : String) (ty : MappedFieldType), m'.fields[name]? = some ty ↔
    m.fields[name]? = some ty ∨ m.fields[name]? = none ∧ (name, ty) ∈ order

/-- A merge that fails leaves the mapping as it was; one that succeeds leaves the union and
returns the names that were new. -/
structure MergeLaw (m other : FieldMapping) (order : List (String × MappedFieldType)) : Prop where
  failed : ∀ e, (m.merge order).1 = .error e → (m.merge order).2 = m
  union : ∀ added, (m.merge order).1 = .ok added → ∀ (name : String) (ty : MappedFieldType),
    (m.merge order).2.fields[name]? = some ty ↔ m.fields[name]? = some ty ∨ other.fields[name]? = some ty
  added : ∀ added, (m.merge order).1 = .ok added → added.Nodup ∧
    ∀ name, name ∈ added ↔ name ∈ other.fields ∧ name ∉ m.fields

/-- No field that the mapping lacks comes before the first one that conflicts. -/
def NothingNewBeforeConflict (m : FieldMapping) (order : List (String × MappedFieldType)) : Prop :=
  ∀ before nv after, order = before ++ nv :: after → m.conflicts nv = true →
    (∀ known ∈ before, m.conflicts known = false) → ∀ known ∈ before, m.lacks known = false

/-! ## The loop -/

section Loop

variable {m m' : FieldMapping} {order before after : List (String × MappedFieldType)}
variable {nv : String × MappedFieldType} {name : String} {ft : MappedFieldType}

theorem mergeLoop_cons_ok {added : List String} {isNew : Bool} (h : m.registerField name ft = .ok (isNew, m')) :
    m.mergeLoop added ((name, ft) :: order) = m'.mergeLoop (if isNew then added ++ [name] else added) order := by
  rw [mergeLoop, h]

theorem mergeLoop_cons_error {added : List String} {e : DbError} (h : m.registerField name ft = .error e) :
    m.mergeLoop added ((name, ft) :: order) = (.error e, m) := by
  rw [mergeLoop, h]

theorem lacks_of_none (h : m.fields[nv.1]? = none) : m.lacks nv = true := by
  unfold lacks
  rw [h, Option.isNone_none]

theorem lacks_of_some (h : m.fields[nv.1]? = some ft) : m.lacks nv = false := by
  unfold lacks
  rw [h, Option.isNone_some]

theorem eq_of_conflicts (h : m.conflicts nv = false) (hfield : m.fields[nv.1]? = some ft) : ft = nv.2 := by
  unfold conflicts at h
  rw [hfield] at h
  exact of_not_not (of_decide_eq_false h)

theorem exists_of_conflicts (h : m.conflicts nv = true) : ∃ ft, m.fields[nv.1]? = some ft ∧ ft ≠ nv.2 := by
  unfold conflicts at h
  cases hfield : m.fields[nv.1]? with
  | none =>
      rw [hfield] at h
      cases h
  | some ft =>
      rw [hfield] at h
      exact ⟨ft, rfl, of_decide_eq_true h⟩

theorem not_lacks_of_conflicts (h : m.conflicts nv = true) : m.lacks nv = false := by
  obtain ⟨ft, hfield, -⟩ := exists_of_conflicts h
  exact lacks_of_some hfield

theorem getElem?_insert_of_ne {name' : String} (hne : name ≠ name') :
    (m.fields.insert name ft)[name']? = m.fields[name']? := by
  rw [ExtTreeMap.getElem?_insert, if_neg (mt Std.LawfulEqCmp.compare_eq_iff_eq.1 hne)]

theorem conflicts_insert (hne : name ≠ nv.1) : conflicts ⟨m.fields.insert name ft⟩ nv = m.conflicts nv := by
  unfold conflicts
  rw [getElem?_insert_of_ne hne]

theorem lacks_insert (hne : name ≠ nv.1) : lacks ⟨m.fields.insert name ft⟩ nv = m.lacks nv := by
  unfold lacks
  rw [getElem?_insert_of_ne hne]

theorem isExtension_nil : m.IsExtension [] m := by
  intro name ty
  simp

/-- A field that is there already adds nothing. -/
theorem IsExtension.cons_same (h : m.IsExtension order m') (hfield : m.fields[name]? = some ft) :
    m.IsExtension ((name, ft) :: order) m' := by
  intro n ty
  rw [h n ty]
  refine or_congr_right (and_congr_right fun hnone => ?_)
  have hne : n ≠ name := by
    rintro rfl
    rw [hfield] at hnone
    cases hnone
  rw [List.mem_cons, Prod.mk.injEq]
  exact ⟨.inr, fun hmem => hmem.resolve_left fun heq => hne heq.1⟩

/-- A new field, and then the rest, whose names are others. -/
theorem IsExtension.cons_new (h : IsExtension ⟨m.fields.insert name ft⟩ order m') (hfield : m.fields[name]? = none)
    (hother : ∀ nv ∈ order, name ≠ nv.1) : m.IsExtension ((name, ft) :: order) m' := by
  intro n ty
  rw [h n ty, List.mem_cons, Prod.mk.injEq]
  by_cases hn : name = n
  · subst hn
    have hrest : (name, ty) ∉ order := fun hmem => hother _ hmem rfl
    rw [ExtTreeMap.getElem?_insert_self, hfield]
    simp [hrest, eq_comm]
  · rw [getElem?_insert_of_ne hn]
    simp [Ne.symm hn]

/-- **A loop without a conflict.** Its fields are those that the mapping had and those that
were new, and the names of the new ones are what it returns. -/
theorem mergeLoop_fits (added : List String) (hnames : (order.map Prod.fst).Nodup)
    (hfits : ∀ nv ∈ order, m.conflicts nv = false) :
    ∃ m', m.mergeLoop added order = (.ok (added ++ (order.filter m.lacks).map Prod.fst), m') ∧
      m.IsExtension order m' := by
  induction order generalizing m added with
  | nil =>
      refine ⟨m, ?_, isExtension_nil⟩
      rw [List.filter_nil, List.map_nil, List.append_nil]
      rfl
  | cons nv order ih =>
      obtain ⟨name, ft⟩ := nv
      rw [List.map_cons, List.nodup_cons] at hnames
      obtain ⟨hname, hnames⟩ := hnames
      have hother : ∀ nv ∈ order, name ≠ nv.1 := by
        rintro nv hnv rfl
        exact hname (List.mem_map.2 ⟨nv, hnv, rfl⟩)
      have hhead := hfits _ List.mem_cons_self
      have htail : ∀ nv ∈ order, m.conflicts nv = false := fun nv hnv => hfits nv (List.mem_cons_of_mem _ hnv)
      cases hfield : m.fields[name]? with
      | some existing =>
          obtain rfl : existing = ft := eq_of_conflicts hhead hfield
          obtain ⟨m', hloop, hext⟩ := ih added hnames htail
          have hknown : m.lacks (name, existing) = false := lacks_of_some hfield
          refine ⟨m', ?_, hext.cons_same hfield⟩
          rw [mergeLoop_cons_ok (registerField_of_same hfield), List.filter_cons_of_neg (by rw [hknown]; decide)]
          exact hloop
      | none =>
          -- The names of the rest are others, so that it meets the same fields as before.
          have hfits' : ∀ nv ∈ order, conflicts ⟨m.fields.insert name ft⟩ nv = false := fun nv hnv => by
            rw [conflicts_insert (hother nv hnv)]
            exact htail nv hnv
          have hlacks : order.filter (lacks ⟨m.fields.insert name ft⟩) = order.filter m.lacks :=
            List.filter_congr fun nv hnv => lacks_insert (hother nv hnv)
          obtain ⟨m', hloop, hext⟩ := ih (added ++ [name]) hnames hfits'
          refine ⟨m', ?_, hext.cons_new hfield hother⟩
          rw [mergeLoop_cons_ok (registerField_of_none hfield), List.filter_cons_of_pos (lacks_of_none hfield)]
          rw [hlacks, List.append_assoc] at hloop
          exact hloop

theorem mergeLoop_append {added added' : List String} (h : m.mergeLoop added before = (.ok added', m')) :
    m.mergeLoop added (before ++ after) = m'.mergeLoop added' after := by
  induction before generalizing m added with
  | nil =>
      cases h
      rfl
  | cons nv before ih =>
      obtain ⟨name, ft⟩ := nv
      cases hone : m.registerField name ft with
      | error e =>
          rw [mergeLoop_cons_error hone] at h
          cases h
      | ok res =>
          rw [mergeLoop_cons_ok hone] at h
          rw [List.cons_append, mergeLoop_cons_ok hone]
          exact ih h

/-- **A loop that meets a conflict.** It returns there, and what came before is registered. -/
theorem mergeLoop_conflict (added : List String) (hnames : ((before ++ nv :: after).map Prod.fst).Nodup)
    (hfits : ∀ known ∈ before, m.conflicts known = false) (hconflict : m.conflicts nv = true) :
    ∃ e m', m.mergeLoop added (before ++ nv :: after) = (.error e, m') ∧ m.IsExtension before m' := by
  rw [List.map_append] at hnames
  obtain ⟨m', hloop, hext⟩ := mergeLoop_fits added hnames.of_append_left hfits
  obtain ⟨existing, hfield, hne⟩ := exists_of_conflicts hconflict
  -- what has been registered meanwhile does not touch the field
  have hfield' : m'.fields[nv.1]? = some existing := (hext nv.1 existing).2 (.inl hfield)
  refine ⟨.schemaConflict nv.1 existing.toString nv.2.toString, m', ?_, hext⟩
  rw [mergeLoop_append hloop, mergeLoop_cons_error (registerField_of_other hfield' hne)]

theorem Le.refl (m : FieldMapping) : m.Le m := fun _ _ hold => hold

theorem Le.trans {m'' : FieldMapping} (h : m.Le m') (h' : m'.Le m'') : m.Le m'' :=
  fun name ty hold => h' name ty (h name ty hold)

/-- A field that is registered stays, also where the loop stops at a conflict. -/
theorem le_mergeLoop (added : List String) : m.Le (m.mergeLoop added order).2 := by
  induction order generalizing m added with
  | nil => exact Le.refl m
  | cons nv order ih =>
      obtain ⟨name, ft⟩ := nv
      cases hone : m.registerField name ft with
      | error e =>
          rw [mergeLoop_cons_error hone]
          exact Le.refl m
      | ok res =>
          obtain ⟨-, hle, -⟩ := registerField_ok hone
          rw [mergeLoop_cons_ok hone]
          exact hle.trans (ih _)

/-- An order of fields either fits, or it has a first conflict. -/
theorem fits_or_conflict (m : FieldMapping) (order : List (String × MappedFieldType)) :
    (∀ nv ∈ order, m.conflicts nv = false) ∨
      ∃ before nv after, order = before ++ nv :: after ∧ m.conflicts nv = true ∧
        ∀ known ∈ before, m.conflicts known = false := by
  cases hfind : order.find? m.conflicts with
  | none => exact .inl fun nv hnv => Bool.eq_false_of_not_eq_true (List.find?_eq_none.1 hfind nv hnv)
  | some nv =>
      obtain ⟨hconflict, before, after, rfl, hbefore⟩ := List.find?_eq_some_iff_append.1 hfind
      exact .inr ⟨before, nv, after, rfl, hconflict, fun known hknown => by simpa using hbefore known hknown⟩

theorem ext_fields
    (h : ∀ (name : String) (ty : MappedFieldType), m.fields[name]? = some ty ↔ m'.fields[name]? = some ty) :
    m = m' := by
  obtain ⟨fields⟩ := m
  obtain ⟨fields'⟩ := m'
  exact congrArg FieldMapping.mk (ExtTreeMap.ext_getElem? fun name => Option.ext (h name))

/-- An extension by fields that are all there is the mapping itself. -/
theorem IsExtension.eq_self (h : m.IsExtension order m') (hknown : ∀ nv ∈ order, m.lacks nv = false) : m' = m := by
  refine ext_fields fun name ty => (h name ty).trans ⟨fun hold => hold.resolve_right ?_, .inl⟩
  rintro ⟨hnone, hmem⟩
  have hlacks := hknown _ hmem
  rw [lacks_of_none hnone] at hlacks
  cases hlacks

end Loop

/-! ## The merge -/

section Merge

variable {m other : FieldMapping} {order : List (String × MappedFieldType)}

theorem mem_of_perm (h : order.Perm other.fields.toList) {name : String} {ty : MappedFieldType} :
    (name, ty) ∈ order ↔ other.fields[name]? = some ty := by
  rw [h.mem_iff, ExtTreeMap.mem_toList_iff_getElem?_eq_some]

/-- A merge without a conflict obeys the law. -/
theorem mergeLaw_of_fits (h : order.Perm other.fields.toList) (hfits : ∀ nv ∈ order, m.conflicts nv = false) :
    MergeLaw m other order := by
  obtain ⟨m', hloop, hext⟩ := mergeLoop_fits [] (nodup_fst_of_perm h) hfits
  have hmerge : m.merge order = (.ok ((order.filter m.lacks).map Prod.fst), m') := hloop
  constructor
  case failed =>
    intro e he
    rw [hmerge] at he
    cases he
  case union =>
    intro added hadded name ty
    rw [hmerge, hext name ty, mem_of_perm h]
    constructor
    · exact Or.imp_right And.right
    · rintro (hold | hnew)
      · exact .inl hold
      · cases hfield : m.fields[name]? with
        | none => exact .inr ⟨rfl, hnew⟩
        | some existing =>
            obtain rfl : existing = ty := eq_of_conflicts (hfits (name, ty) ((mem_of_perm h).2 hnew)) hfield
            exact .inl rfl
  case added =>
    intro added hadded
    rw [hmerge] at hadded
    obtain rfl := Except.ok.inj hadded
    refine ⟨(List.filter_sublist.map Prod.fst).nodup (nodup_fst_of_perm h), fun name => ?_⟩
    rw [List.mem_map]
    constructor
    · rintro ⟨nv, hnv, rfl⟩
      obtain ⟨hmem, hlacks⟩ := List.mem_filter.1 hnv
      refine ⟨ExtTreeMap.mem_iff_isSome_getElem?.2 ?_, fun hold => ?_⟩
      · rw [(mem_of_perm h).1 hmem]
        rfl
      · obtain ⟨ty, hty⟩ := Option.isSome_iff_exists.1 (ExtTreeMap.mem_iff_isSome_getElem?.1 hold)
        rw [lacks_of_some hty] at hlacks
        cases hlacks
    · rintro ⟨hnew, hold⟩
      obtain ⟨ty, hty⟩ := Option.isSome_iff_exists.1 (ExtTreeMap.mem_iff_isSome_getElem?.1 hnew)
      refine ⟨(name, ty), List.mem_filter.2 ⟨(mem_of_perm h).2 hty, ?_⟩, rfl⟩
      exact lacks_of_none (ExtTreeMap.getElem?_eq_none hold)

/-- A merge that fails leaves the mapping as it was exactly if nothing new came first. -/
theorem mergeLaw_iff (h : order.Perm other.fields.toList) :
    MergeLaw m other order ↔ m.NothingNewBeforeConflict order := by
  constructor
  · rintro hlaw before nv after rfl hconflict hfits known hknown
    obtain ⟨e, m', hloop, hext⟩ := mergeLoop_conflict [] (nodup_fst_of_perm h) hfits hconflict
    have hmerge : m.merge (before ++ nv :: after) = (.error e, m') := hloop
    have hself : m' = m := by
      have hfailed := hlaw.failed e (by rw [hmerge])
      rwa [hmerge] at hfailed
    subst hself
    cases hfield : m'.fields[known.1]? with
    | some ft => exact lacks_of_some hfield
    | none =>
        have hadded : m'.fields[known.1]? = some known.2 := (hext known.1 known.2).2 (.inr ⟨hfield, hknown⟩)
        rw [hfield] at hadded
        cases hadded
  · intro hnothing
    rcases fits_or_conflict m order with hfits | ⟨before, nv, after, rfl, hconflict, hfits⟩
    · exact mergeLaw_of_fits h hfits
    · obtain ⟨e, m', hloop, hext⟩ := mergeLoop_conflict [] (nodup_fst_of_perm h) hfits hconflict
      have hmerge : m.merge (before ++ nv :: after) = (.error e, m') := hloop
      have hself := hext.eq_self (hnothing before nv after rfl hconflict hfits)
      constructor
      case failed =>
        intro e' he'
        rw [hmerge]
        exact hself
      all_goals
        intro added hadded
        rw [hmerge] at hadded
        cases hadded

/-- A new field before one that conflicts, in some order. -/
theorem exists_order_new_first {new nv : String × MappedFieldType} (hnew : new ∈ other.fields.toList)
    (hlacks : m.lacks new = true) (hnv : nv ∈ other.fields.toList) (hconflict : m.conflicts nv = true) :
    ∃ order, order.Perm other.fields.toList ∧ ¬ m.NothingNewBeforeConflict order := by
  have hne : nv ≠ new := by
    rintro rfl
    rw [not_lacks_of_conflicts hconflict] at hlacks
    cases hlacks
  refine ⟨new :: other.fields.toList.erase new, (List.perm_cons_erase hnew).symm, fun hnothing => ?_⟩
  rcases fits_or_conflict m (new :: other.fields.toList.erase new) with
    hfits | ⟨before, first, after, heq, hfirst, hfits⟩
  · have hfit := hfits nv (List.mem_cons_of_mem _ ((List.mem_erase_of_ne hne).2 hnv))
    rw [hconflict] at hfit
    cases hfit
  · -- The new field is the head, and it does not conflict: it is among those before.
    cases before with
    | nil =>
        obtain ⟨rfl, -⟩ := List.cons.inj heq
        rw [not_lacks_of_conflicts hfirst] at hlacks
        cases hlacks
    | cons known before =>
        obtain ⟨rfl, -⟩ := List.cons.inj heq
        have hknown := hnothing _ first after heq hfirst hfits new List.mem_cons_self
        rw [hlacks] at hknown
        cases hknown

end Merge

/-- **Failed merges.** In one order of the fields the law holds exactly if no new field comes
before the first conflict. In every order it does exactly if there is no conflict, or nothing
new. -/
theorem merge_changes_nothing_iff (m other : FieldMapping) :
    (∀ order, order.Perm other.fields.toList → (MergeLaw m other order ↔ m.NothingNewBeforeConflict order)) ∧
      ((∀ order, order.Perm other.fields.toList → MergeLaw m other order) ↔
        (∀ nv ∈ other.fields.toList, m.conflicts nv = false) ∨ ∀ nv ∈ other.fields.toList, m.lacks nv = false) := by
  refine ⟨fun order h => mergeLaw_iff h, fun hlaw => ?_, ?_⟩
  · by_contra hboth
    obtain ⟨hconflict, hlacks⟩ := not_or.1 hboth
    simp only [not_forall, Bool.not_eq_false] at hconflict hlacks
    obtain ⟨nv, hnv, hconflict⟩ := hconflict
    obtain ⟨new, hnew, hlacks⟩ := hlacks
    obtain ⟨order, hperm, hnothing⟩ := exists_order_new_first hnew hlacks hnv hconflict
    exact hnothing ((mergeLaw_iff hperm).1 (hlaw order hperm))
  · rintro (hfits | hknown) order hperm
    · exact mergeLaw_of_fits hperm fun nv hnv => hfits nv (hperm.mem_iff.1 hnv)
    · refine (mergeLaw_iff hperm).2 fun before nv after heq _ _ known hbefore => ?_
      exact hknown known (hperm.mem_iff.1 (heq ▸ List.mem_append_left _ hbefore))

/-- A mapping with the fields of a list. -/
def ofFields (fields : List (String × MappedFieldType)) : FieldMapping := ⟨.ofList fields⟩

/-- A mapping of two fields into one that has both, merged in either order. -/
theorem merge_changes_nothing_known :
    ∀ order, order.Perm (ofFields [("author", .text), ("title", .number)]).fields.toList →
      MergeLaw (ofFields [("author", .text), ("title", .text)]) (ofFields [("author", .text), ("title", .number)])
        order :=
  (merge_changes_nothing_iff (ofFields [("author", .text), ("title", .text)])
    (ofFields [("author", .text), ("title", .number)])).2.2 (.inr (by decide))

/-- The author is registered, and then the title conflicts. -/
theorem merge_keeps_author :
    [("author", .text), ("title", .number)].Perm (ofFields [("author", .text), ("title", .number)]).fields.toList ∧
      ¬ MergeLaw (ofFields [("title", .text)]) (ofFields [("author", .text), ("title", .number)])
        [("author", .text), ("title", .number)] := by
  refine ⟨by decide, fun hlaw => ?_⟩
  have hself := hlaw.failed (.schemaConflict "title" "text" "number") (by decide)
  revert hself
  decide

end FieldMapping

end MSearchDB.Core
