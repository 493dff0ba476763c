import Mathlib.Data.List.Forall2
import MSearchDB.Lib.OrderedMap
import MSearchDB.Node.SearchRequest

/-!
# The clauses of a query

The objects of `match`, `term` and `range` are maps of fields, and `into_core_query` takes
the first entry that the iteration of each one gives. The iteration of a `HashMap` has an
order of its own in every map, so a query is converted in many ways; `ConvertsTo` collects them.

The lists of a boolean query are kept place by place. The rest holds exactly of the queries
whose objects have at most one field each (`meaningKept_iff`).
-/

set_option autoImplicit false

namespace MSearchDB.Node

open Std (ExtTreeMap)
open MSearchDB.Core
open MSearchDB.Index

/-! ## Walks over a query -/

namespace QueryDsl

mutual
/-- A query and what it becomes, place by place: the lists of a boolean query become lists
of the same length, and a clause object becomes what `leaf` relates it to. -/
def Placewise (leaf : QueryDsl → Query → Prop) : QueryDsl → Query → Prop
  | .match fields, r => leaf (.match fields) r
  | .term fields, r => leaf (.term fields) r
  | .range fields, r => leaf (.range fields) r
  | .bool must should mustNot, r => ∃ ms ss ns, r = .bool ms ss ns ∧
      PlacewiseAll leaf must ms ∧ PlacewiseAll leaf should ss ∧ PlacewiseAll leaf mustNot ns
/-- The same of the queries of two lists. -/
def PlacewiseAll (leaf : QueryDsl → Query → Prop) : List QueryDsl → List Query → Prop
  | [], rs => rs = []
  | q :: qs, rs => ∃ r rs', rs = r :: rs' ∧ Placewise leaf q r ∧ PlacewiseAll leaf qs rs'
end

mutual
/-- Every clause object in a query, at any depth. -/
def Everywhere (P : QueryDsl → Prop) : QueryDsl → Prop
  | .match fields => P (.match fields)
  | .term fields => P (.term fields)
  | .range fields => P (.range fields)
  | .bool must should mustNot => EverywhereAll P must ∧ EverywhereAll P should ∧ EverywhereAll P mustNot
/-- The same of the queries of a list. -/
def EverywhereAll (P : QueryDsl → Prop) : List QueryDsl → Prop
  | [] => True
  | q :: qs => Everywhere P q ∧ EverywhereAll P qs
end

/-- A query is a clause object, or its lists hold queries. -/
theorem byLists {P : QueryDsl → Prop} (hmatch : ∀ fields, P (.match fields)) (hterm : ∀ fields, P (.term fields))
    (hrange : ∀ fields, P (.range fields))
    (hbool : ∀ must should mustNot, (∀ q ∈ must, P q) → (∀ q ∈ should, P q) → (∀ q ∈ mustNot, P q) →
      P (.bool must should mustNot)) (q : QueryDsl) : P q := by
  refine QueryDsl.rec (motive_1 := P) (motive_2 := fun qs => ∀ q ∈ qs, P q) hmatch hterm hrange hbool ?_ ?_ q
  · intro q hq
    cases hq
  · intro q qs hq hqs q' hq'
    cases hq' with
    | head => exact hq
    | tail _ hmem => exact hqs q' hmem

variable {leaf leaf' : QueryDsl → Query → Prop} {P : QueryDsl → Prop}

theorem placewiseAll_iff {qs : List QueryDsl} {rs : List Query} :
    PlacewiseAll leaf qs rs ↔ List.Forall₂ (Placewise leaf) qs rs := by
  induction qs generalizing rs with
  | nil => rw [PlacewiseAll, List.forall₂_nil_left_iff]
  | cons q qs ih =>
      rw [PlacewiseAll, List.forall₂_cons_left_iff]
      constructor
      · rintro ⟨r, rs', rfl, hq, hqs⟩
        exact ⟨r, rs', hq, ih.1 hqs, rfl⟩
      · rintro ⟨r, rs', hq, hqs, rfl⟩
        exact ⟨r, rs', rfl, hq, ih.2 hqs⟩

theorem everywhereAll_iff {qs : List QueryDsl} : EverywhereAll P qs ↔ ∀ q ∈ qs, Everywhere P q := by
  induction qs with
  | nil => exact iff_of_true trivial fun q hq => absurd hq List.not_mem_nil
  | cons q qs ih => rw [EverywhereAll, ih, List.forall_mem_cons]

/-- Where a condition holds of every clause object, what follows from it there follows of the
places of the query. -/
theorem Placewise.imp (himp : ∀ q r, P q → leaf q r → leaf' q r) {q : QueryDsl} (hP : Everywhere P q) {r : Query}
    (h : Placewise leaf q r) : Placewise leaf' q r := by
  have hlist : ∀ {qs : List QueryDsl}, (∀ q ∈ qs, Everywhere P q → ∀ {r}, Placewise leaf q r → Placewise leaf' q r) →
      EverywhereAll P qs → ∀ {rs}, PlacewiseAll leaf qs rs → PlacewiseAll leaf' qs rs := by
    intro qs ih hqs rs hrs
    rw [placewiseAll_iff] at hrs ⊢
    rw [everywhereAll_iff] at hqs
    induction hrs with
    | nil => exact List.Forall₂.nil
    | cons hhead _ iht =>
        refine List.Forall₂.cons (ih _ List.mem_cons_self (hqs _ List.mem_cons_self) hhead) ?_
        exact iht (fun q hq => ih q (List.mem_cons_of_mem _ hq)) fun q hq => hqs q (List.mem_cons_of_mem _ hq)
  induction q using byLists generalizing r with
  | hmatch fields => exact himp _ _ hP h
  | hterm fields => exact himp _ _ hP h
  | hrange fields => exact himp _ _ hP h
  | hbool must should mustNot ihm ihs ihn =>
      obtain ⟨ms, ss, ns, rfl, hm, hs, hn⟩ := h
      obtain ⟨hPm, hPs, hPn⟩ := hP
      exact ⟨ms, ss, ns, rfl, hlist ihm hPm hm, hlist ihs hPs hs,
        hlist ihn hPn hn⟩

/-- A condition that the relation of every clause object gives holds everywhere. -/
theorem Placewise.everywhere (himp : ∀ q r, leaf q r → P q) {q : QueryDsl} {r : Query} (h : Placewise leaf q r) :
    Everywhere P q := by
  have hlist : ∀ {qs : List QueryDsl}, (∀ q ∈ qs, ∀ {r}, Placewise leaf q r → Everywhere P q) →
      ∀ {rs}, PlacewiseAll leaf qs rs → EverywhereAll P qs := by
    intro qs ih rs hrs
    rw [placewiseAll_iff] at hrs
    rw [everywhereAll_iff]
    intro q hq
    obtain ⟨i, hi, rfl⟩ := List.mem_iff_getElem.1 hq
    exact ih _ hq (hrs.get hi (hrs.length_eq ▸ hi))
  induction q using byLists generalizing r with
  | hmatch fields => exact himp _ _ h
  | hterm fields => exact himp _ _ h
  | hrange fields => exact himp _ _ h
  | hbool must should mustNot ihm ihs ihn =>
      obtain ⟨ms, ss, ns, rfl, hm, hs, hn⟩ := h
      exact ⟨hlist ihm hm, hlist ihs hs,
        hlist ihn hn⟩

/-- Places that are each determined determine the query. -/
theorem Placewise.unique (hunique : ∀ q r r', P q → leaf q r → leaf q r' → r = r') {q : QueryDsl}
    (hP : Everywhere P q) {r r' : Query} (h : Placewise leaf q r) (h' : Placewise leaf q r') : r = r' := by
  have hlist : ∀ {qs : List QueryDsl},
      (∀ q ∈ qs, Everywhere P q → ∀ {r r'}, Placewise leaf q r → Placewise leaf q r' → r = r') →
      EverywhereAll P qs → ∀ {rs rs'}, PlacewiseAll leaf qs rs → PlacewiseAll leaf qs rs' → rs = rs' := by
    intro qs ih hqs rs rs' hrs hrs'
    induction qs generalizing rs rs' with
    | nil => exact hrs.trans hrs'.symm
    | cons q qs iht =>
        obtain ⟨r, rest, rfl, hr, hrest⟩ := hrs
        obtain ⟨r', rest', rfl, hr', hrest'⟩ := hrs'
        rw [ih q List.mem_cons_self hqs.1 hr hr',
          iht (fun q hq => ih q (List.mem_cons_of_mem _ hq)) hqs.2 hrest hrest']
  induction q using byLists generalizing r r' with
  | hmatch fields => exact hunique _ _ _ hP h h'
  | hterm fields => exact hunique _ _ _ hP h h'
  | hrange fields => exact hunique _ _ _ hP h h'
  | hbool must should mustNot ihm ihs ihn =>
      obtain ⟨ms, ss, ns, rfl, hm, hs, hn⟩ := h
      obtain ⟨ms', ss', ns', rfl, hm', hs', hn'⟩ := h'
      obtain ⟨hPm, hPs, hPn⟩ := hP
      rw [hlist ihm hPm hm hm', hlist ihs hPs hs hs',
        hlist ihn hPn hn hn']

/-- Where a clause object that misses a condition has two results, so has the query. -/
theorem Placewise.exists_ne (hne : ∀ q r, ¬ P q → leaf q r → ∃ r', r' ≠ r ∧ leaf q r') {q : QueryDsl}
    (hP : ¬ Everywhere P q) {r : Query} (h : Placewise leaf q r) : ∃ r', r' ≠ r ∧ Placewise leaf q r' := by
  have hlist : ∀ {qs : List QueryDsl},
      (∀ q ∈ qs, ¬ Everywhere P q → ∀ {r}, Placewise leaf q r → ∃ r', r' ≠ r ∧ Placewise leaf q r') →
      ¬ EverywhereAll P qs → ∀ {rs}, PlacewiseAll leaf qs rs → ∃ rs', rs' ≠ rs ∧ PlacewiseAll leaf qs rs' := by
    intro qs ih hqs rs hrs
    induction qs generalizing rs with
    | nil => exact absurd trivial hqs
    | cons q qs iht =>
        obtain ⟨r, rest, rfl, hr, hrest⟩ := hrs
        by_cases hq : Everywhere P q
        · obtain ⟨rest', hne', hrest'⟩ :=
            iht (fun q hq => ih q (List.mem_cons_of_mem _ hq)) (fun hall => hqs ⟨hq, hall⟩) hrest
          exact ⟨r :: rest', fun heq => hne' (List.cons.inj heq).2, r, rest', rfl, hr, hrest'⟩
        · obtain ⟨r', hne', hr'⟩ := ih q List.mem_cons_self hq hr
          exact ⟨r' :: rest, fun heq => hne' (List.cons.inj heq).1, r', rest, rfl, hr', hrest⟩
  induction q using byLists generalizing r with
  | hmatch fields => exact hne _ _ hP h
  | hterm fields => exact hne _ _ hP h
  | hrange fields => exact hne _ _ hP h
  | hbool must should mustNot ihm ihs ihn =>
      obtain ⟨ms, ss, ns, rfl, hm, hs, hn⟩ := h
      by_cases hPm : EverywhereAll P must
      · by_cases hPs : EverywhereAll P should
        · obtain ⟨ns', hne', hn'⟩ := hlist ihn (fun hPn => hP ⟨hPm, hPs, hPn⟩) hn
          exact ⟨.bool ms ss ns', fun heq => hne' (Query.bool.inj heq).2.2, ms, ss, ns', rfl, hm, hs, hn'⟩
        · obtain ⟨ss', hne', hs'⟩ := hlist ihs hPs hs
          exact ⟨.bool ms ss' ns, fun heq => hne' (Query.bool.inj heq).2.1, ms, ss', ns, rfl, hm, hs', hn⟩
      · obtain ⟨ms', hne', hm'⟩ := hlist ihm hPm hm
        exact ⟨.bool ms' ss ns, fun heq => hne' (Query.bool.inj heq).1, ms', ss, ns, rfl, hm', hs, hn⟩

end QueryDsl

/-! ## Clause objects -/

section Objects

variable {ν : Type} (clause : String × ν → Query) (default : String × ν) (fields : ExtTreeMap String ν) (r : Query)

/-- What becomes of a clause object in some order of its iteration: the clause of the first
entry, and without one that of the default. -/
def FirstEntry : Prop :=
  ∃ entries : List (String × ν), entries.Perm fields.toList ∧ r = clause (entries.headD default)

/-- The clause of every field of the object is there. -/
def EveryEntry : Prop := ∀ e ∈ fields.toList, r = clause e

variable {clause default fields r}

theorem FirstEntry.everyEntry (h : FirstEntry clause default fields r) (hsize : fields.size ≤ 1) :
    EveryEntry clause fields r := by
  obtain ⟨entries, hperm, rfl⟩ := h
  intro e he
  have hlength : entries.length ≤ 1 := by rw [hperm.length_eq, ExtTreeMap.length_toList]; exact hsize
  have hmem : e ∈ entries := hperm.mem_iff.2 he
  cases entries with
  | nil => cases hmem
  | cons e' rest =>
      have hrest : rest = [] := List.length_eq_zero_iff.1 (by simp only [List.length_cons] at hlength; omega)
      subst hrest
      rw [List.mem_singleton.1 hmem]
      rfl

theorem FirstEntry.unique {r' : Query} (h : FirstEntry clause default fields r)
    (h' : FirstEntry clause default fields r') (hsize : fields.size ≤ 1) : r = r' := by
  have hevery := h'.everyEntry hsize
  obtain ⟨entries, hperm, rfl⟩ := h
  cases entries with
  | nil =>
      -- an empty object gives the default in every order
      obtain ⟨entries', hperm', rfl⟩ := h'
      rw [(hperm'.trans hperm.symm).eq_nil]
  | cons e rest => exact (hevery e (hperm.mem_iff.1 List.mem_cons_self)).symm

/-- With two fields there is an order that gives another clause. -/
theorem FirstEntry.exists_ne (hkey : ∀ e e', clause e = clause e' → e.1 = e'.1)
    (h : FirstEntry clause default fields r) (hsize : ¬ fields.size ≤ 1) :
    ∃ r', r' ≠ r ∧ FirstEntry clause default fields r' := by
  obtain ⟨entries, hperm, rfl⟩ := h
  have hlength : ¬ entries.length ≤ 1 := by rw [hperm.length_eq, ExtTreeMap.length_toList]; exact hsize
  cases entries with
  | nil => exact absurd (by simp) hlength
  | cons e rest =>
      cases rest with
      | nil => exact absurd (by simp) hlength
      | cons e' rest =>
          have hdistinct := Lib.nodup_fst_of_perm hperm
          have hne : e.1 ≠ e'.1 := fun heq => (List.nodup_cons.1 hdistinct).1 (by simp [heq])
          refine ⟨clause e', fun heq => hne (hkey e e' heq.symm), e' :: e :: rest, ?_, rfl⟩
          exact (List.Perm.swap e e' rest).trans hperm

end Objects

/-! ## The conversions -/

/-- The query for a field of a `match` object. -/
def matchClause (e : String × MatchFieldQuery) : Query := .fullText ⟨e.1, e.2.query, operatorOf e.2.operator⟩

/-- The query for a field of a `term` object. -/
def termClause (e : String × String) : Query := .term ⟨e.1, e.2⟩

/-- The query for a field of a `range` object. -/
def rangeClause (e : String × RangeFieldQuery) : Query := .range ⟨e.1, e.2.gte, e.2.lte⟩

/-- A clause object is converted by its first entry. -/
def LeafConverts : QueryDsl → Query → Prop
  | .match fields, r => FirstEntry matchClause ("_body", ⟨"", "or"⟩) fields r
  | .term fields, r => FirstEntry termClause ("", "") fields r
  | .range fields, r => FirstEntry rangeClause ("", ⟨none, none⟩) fields r
  | .bool _ _ _, _ => False

/-- All the clauses of an object are in the query. -/
def LeafRepresents : QueryDsl → Query → Prop
  | .match fields, r => EveryEntry matchClause fields r
  | .term fields, r => EveryEntry termClause fields r
  | .range fields, r => EveryEntry rangeClause fields r
  | .bool _ _ _, _ => False

/-- A clause object has at most one field. -/
def LeafSingle : QueryDsl → Prop
  | .match fields => fields.size ≤ 1
  | .term fields => fields.size ≤ 1
  | .range fields => fields.size ≤ 1
  | .bool _ _ _ => True

namespace QueryDsl

/-- What `into_core_query` may give: every map in the query is iterated in an order of its own. -/
def ConvertsTo : QueryDsl → Query → Prop := Placewise LeafConverts

/-- Every field of every `match`, `term` and `range` object is in the query. -/
def Represents : QueryDsl → Query → Prop := Placewise LeafRepresents

/-- The lists of the boolean queries have their order and length. -/
def SameLists : QueryDsl → Query → Prop := Placewise fun _ _ => True

/-- Every `match`, `term` and `range` object, at any depth, has at most one field. -/
def SingleFields : QueryDsl → Prop := Everywhere LeafSingle

/-- The text of a query determines what it means. -/
structure MeaningKept (q : QueryDsl) : Prop where
  determined : ∀ r r', ConvertsTo q r → ConvertsTo q r' → r = r'
  represented : ∀ r, ConvertsTo q r → Represents q r
  lists : ∀ r, ConvertsTo q r → SameLists q r

end QueryDsl

theorem matchClause_key (e e' : String × MatchFieldQuery) (h : matchClause e = matchClause e') : e.1 = e'.1 :=
  congrArg FullTextQuery.field (Query.fullText.inj h)

theorem termClause_key (e e' : String × String) (h : termClause e = termClause e') : e.1 = e'.1 :=
  congrArg TermQuery.field (Query.term.inj h)

theorem rangeClause_key (e e' : String × RangeFieldQuery) (h : rangeClause e = rangeClause e') : e.1 = e'.1 :=
  congrArg RangeQuery.field (Query.range.inj h)

section Leaves

variable {q : QueryDsl} {r r' : Query}

theorem LeafConverts.represents (hsingle : LeafSingle q) (h : LeafConverts q r) : LeafRepresents q r := by
  cases q with
  | «match» fields => exact FirstEntry.everyEntry h hsingle
  | term fields => exact FirstEntry.everyEntry h hsingle
  | range fields => exact FirstEntry.everyEntry h hsingle
  | bool must should mustNot => exact h

theorem LeafConverts.unique (hsingle : LeafSingle q) (h : LeafConverts q r) (h' : LeafConverts q r') : r = r' := by
  cases q with
  | «match» fields => exact FirstEntry.unique h h' hsingle
  | term fields => exact FirstEntry.unique h h' hsingle
  | range fields => exact FirstEntry.unique h h' hsingle
  | bool must should mustNot => exact h.elim

theorem LeafConverts.exists_ne (hmany : ¬ LeafSingle q) (h : LeafConverts q r) : ∃ r', r' ≠ r ∧ LeafConverts q r' := by
  cases q with
  | «match» fields => exact FirstEntry.exists_ne matchClause_key h hmany
  | term fields => exact FirstEntry.exists_ne termClause_key h hmany
  | range fields => exact FirstEntry.exists_ne rangeClause_key h hmany
  | bool must should mustNot => exact h.elim

end Leaves

namespace QueryDsl

/-- One order for maps with the same entries is one of the ways. -/
theorem convertsTo_intoCoreQuery (order : DslOrder) (q : QueryDsl) : ConvertsTo q (q.intoCoreQuery order) := by
  have hlist : ∀ {qs : List QueryDsl}, (∀ q ∈ qs, ConvertsTo q (q.intoCoreQuery order)) →
      PlacewiseAll LeafConverts qs (intoCoreQueries order qs) := by
    intro qs ih
    induction qs with
    | nil => rfl
    | cons q qs iht =>
        exact ⟨_, _, rfl, ih q List.mem_cons_self, iht fun q hq => ih q (List.mem_cons_of_mem _ hq)⟩
  induction q using byLists with
  | hmatch fields => exact ⟨order.matchFields.iter fields, order.matchFields.perm fields, rfl⟩
  | hterm fields => exact ⟨order.termFields.iter fields, order.termFields.perm fields, rfl⟩
  | hrange fields => exact ⟨order.rangeFields.iter fields, order.rangeFields.perm fields, rfl⟩
  | hbool must should mustNot ihm ihs ihn => exact ⟨_, _, _, rfl, hlist ihm, hlist ihs, hlist ihn⟩

/-- Every object keeps its one field, whatever the order. -/
theorem ConvertsTo.represents {q : QueryDsl} {r : Query} (hsingle : SingleFields q) (h : ConvertsTo q r) :
    Represents q r :=
  Placewise.imp (fun _ _ => LeafConverts.represents) hsingle h

theorem ConvertsTo.sameLists {q : QueryDsl} {r : Query} (h : ConvertsTo q r) : SameLists q r := by
  have hall : Everywhere (fun _ => True) q := Placewise.everywhere (fun _ _ _ => trivial) h
  exact Placewise.imp (fun _ _ _ _ => trivial) hall h

/-- The query is determined exactly when no object has two fields. -/
theorem determined_iff (q : QueryDsl) :
    (∀ r r', ConvertsTo q r → ConvertsTo q r' → r = r') ↔ SingleFields q := by
  constructor
  · intro h
    by_contra hmany
    have hconv := convertsTo_intoCoreQuery ⟨keyOrder _, keyOrder _, keyOrder _⟩ q
    obtain ⟨r', hne, hr'⟩ := Placewise.exists_ne (fun _ _ => LeafConverts.exists_ne) hmany hconv
    exact hne (h r' _ hr' hconv)
  · intro h r r' hr hr'
    exact Placewise.unique (fun _ _ _ => LeafConverts.unique) h hr hr'

/-- **A query means what its text says exactly when no object in it has two fields.** Every
conversion of `into_core_query` is one of `ConvertsTo`. They all agree and hold the clause
of every field if and only if every `match`, `term` and `range` object, at any depth, has at
most one field; the lists are kept in any case. -/
theorem meaningKept_iff (q : QueryDsl) :
    (∀ order, ConvertsTo q (q.intoCoreQuery order)) ∧ (∀ r, ConvertsTo q r → SameLists q r) ∧
    (MeaningKept q ↔ SingleFields q) := by
  refine ⟨fun order => convertsTo_intoCoreQuery order q, fun r => ConvertsTo.sameLists, ?_⟩
  constructor
  · intro h
    exact (determined_iff q).1 h.determined
  · intro h
    exact ⟨(determined_iff q).2 h, fun r => ConvertsTo.represents h, fun r => ConvertsTo.sameLists⟩

/-- `{"term": {"brand": "x", "colour": "red"}}`. -/
def twoTerms : QueryDsl := .term ((∅ : ExtTreeMap String String).insert "brand" "x" |>.insert "colour" "red")

/-- The same text is the query for one field or for the other. -/
theorem not_meaningKept_twoTerms :
    ConvertsTo twoTerms (.term ⟨"brand", "x"⟩) ∧ ConvertsTo twoTerms (.term ⟨"colour", "red"⟩) ∧
    ¬ MeaningKept twoTerms := by
  have hbrand : ConvertsTo twoTerms (.term ⟨"brand", "x"⟩) :=
    ⟨[("brand", "x"), ("colour", "red")], List.Perm.refl _, rfl⟩
  have hcolour : ConvertsTo twoTerms (.term ⟨"colour", "red"⟩) :=
    ⟨[("colour", "red"), ("brand", "x")], List.Perm.swap _ _ _, rfl⟩
  refine ⟨hbrand, hcolour, fun h => ?_⟩
  have heq := congrArg TermQuery.field (Query.term.inj (h.determined _ _ hbrand hcolour))
  exact absurd heq (by decide)

end QueryDsl

end MSearchDB.Node
