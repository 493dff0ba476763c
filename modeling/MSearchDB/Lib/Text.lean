import Mathlib.Tactic

/-!
# Texts as lists of characters

Functions of Rust's `str` and `char` that several modules use.
-/

set_option autoImplicit false

namespace MSearchDB.Lib

/-- `char::is_whitespace`. -/
def isWhitespace (c : Char) : Bool :=
  let n := c.toNat
  (9 ≤ n && n ≤ 13) || n == 0x20 || n == 0x85 || n == 0xa0 || n == 0x1680 ||
    (0x2000 ≤ n && n ≤ 0x200a) || n == 0x2028 || n == 0x2029 || n == 0x202f || n == 0x205f ||
    n == 0x3000

/-- `str::split_whitespace`: the words of a text. -/
def splitWhitespace (cs : List Char) : List (List Char) := (cs.splitOnP isWhitespace).filter (· ≠ [])

/-- `str::parse` for an unsigned integer below a bound: decimal digits after at most one
plus sign. -/
def parseUnsigned (bound : Nat) (cs : List Char) : Option Nat :=
  let digits := match cs with
    | '+' :: cs => cs
    | cs => cs
  if digits ≠ [] ∧ digits.all Char.isDigit then
    let n := Nat.ofDigitChars 10 digits 0
    if n < bound then some n else none
  else none

/-- `str::contains` on a text. -/
def contains (s pat : String) : Bool := decide (pat.toList <:+: s.toList)

/-- `str::starts_with` on a text. -/
def startsWith (s pat : String) : Bool := decide (pat.toList <+: s.toList)

/-- `str::ends_with` on a text. -/
def endsWith (s pat : String) : Bool := decide (pat.toList <:+ s.toList)

/-- `str::strip_prefix` on a text. -/
def stripPrefix (s pat : String) : Option String :=
  if startsWith s pat then some (String.ofList (s.toList.drop pat.toList.length)) else none

/-- The text before the last occurrence of a character, and the text after it. -/
def splitAtLast (c : Char) (cs : List Char) : Option (List Char × List Char) :=
  let rev := cs.reverse
  if c ∈ rev then some ((rev.dropWhile (· ≠ c)).tail.reverse, (rev.takeWhile (· ≠ c)).reverse) else none

/-! ## Words -/

/-- A property of the empty text that every character but a separator keeps holds of all
segments. -/
theorem forall_mem_splitOnP {p : Char → Bool} {cs : List Char} {Q : List Char → Prop} (hnil : Q [])
    (hcons : ∀ c ∈ cs, p c = false → ∀ seg, Q seg → Q (c :: seg)) : ∀ seg ∈ cs.splitOnP p, Q seg := by
  induction cs with
  | nil =>
      intro seg h
      rw [List.splitOnP_nil, List.mem_singleton] at h
      rw [h]
      exact hnil
  | cons d cs ih =>
      have hrest := ih fun c hc => hcons c (List.mem_cons_of_mem _ hc)
      intro seg h
      rw [List.splitOnP_cons_eq_if_modifyHead] at h
      split at h
      · rcases List.mem_cons.1 h with rfl | h
        · exact hnil
        · exact hrest seg h
      next hd =>
        -- the character goes to the first segment of what follows
        obtain ⟨first, rest, hsplit⟩ := List.exists_cons_of_ne_nil (List.splitOnP_ne_nil p cs)
        rw [hsplit] at hrest
        rw [hsplit, List.modifyHead_cons] at h
        rcases List.mem_cons.1 h with rfl | h
        · apply hcons d List.mem_cons_self (eq_false_of_ne_true hd)
          exact hrest first List.mem_cons_self
        · exact hrest seg (List.mem_cons_of_mem _ h)

theorem not_of_mem_splitOnP {p : Char → Bool} {cs seg : List Char} (h : seg ∈ cs.splitOnP p) :
    ∀ c ∈ seg, p c = false := by
  refine forall_mem_splitOnP (Q := fun seg => ∀ c ∈ seg, p c = false) ?_ ?_ seg h
  · exact fun c hc => absurd hc List.not_mem_nil
  · exact fun c _ hc seg hseg => List.forall_mem_cons.2 ⟨hc, hseg⟩

theorem mem_splitWhitespace {cs word : List Char} (h : word ∈ splitWhitespace cs) :
    word ≠ [] ∧ ∀ c ∈ word, isWhitespace c = false := by
  obtain ⟨hsplit, hne⟩ := List.mem_filter.1 h
  exact ⟨of_decide_eq_true hne, not_of_mem_splitOnP hsplit⟩

/-- The words of words joined by blanks; those that are empty are lost. -/
theorem splitWhitespace_intercalate {words : List (List Char)}
    (h : ∀ word ∈ words, ∀ c ∈ word, isWhitespace c = false) :
    splitWhitespace (" ".intercalate (words.map String.ofList)).toList = words.filter (· ≠ []) := by
  have hjoin : (" ".intercalate (words.map String.ofList)).toList = [' '].intercalate words := by
    rw [String.toList_intercalate, List.map_map]
    simp [Function.comp_def]
  rw [hjoin]
  induction words with
  | nil => rfl
  | cons word words ih =>
      have hword : ∀ c ∈ word, isWhitespace c = false := h word List.mem_cons_self
      cases words with
      | nil => simp [splitWhitespace, List.splitOnP_eq_singleton hword]
      | cons next words =>
          have hrest := ih (fun w hw => h w (List.mem_cons_of_mem _ hw)) (by simp [Function.comp_def])
          have hsplit : ([' '].intercalate (word :: next :: words)).splitOnP isWhitespace =
              word :: ([' '].intercalate (next :: words)).splitOnP isWhitespace := by
            rw [List.intercalate_cons_cons, List.append_assoc, List.singleton_append]
            exact List.splitOnP_append_cons_of_forall_mem hword ' ' (by decide) _
          rw [splitWhitespace, hsplit, List.filter_cons, List.filter_cons]
          rw [splitWhitespace] at hrest
          rw [hrest]

theorem splitAtLast_append_cons {c : Char} {l r : List Char} (h : c ∉ r) :
    splitAtLast c (l ++ c :: r) = some (l, r) := by
  have hrev : (l ++ c :: r).reverse = r.reverse ++ c :: l.reverse := by simp
  have hpos : ∀ d ∈ r.reverse, decide (d ≠ c) = true := by
    intro d hd
    refine decide_eq_true fun heq => h ?_
    rw [← heq]
    exact List.mem_reverse.1 hd
  unfold splitAtLast
  rw [hrev]
  simp only [List.takeWhile_append_of_pos hpos, List.dropWhile_append_of_pos hpos]
  simp

theorem splitAtLast_eq_some_iff {c : Char} {cs l r : List Char} :
    splitAtLast c cs = some (l, r) ↔ cs = l ++ c :: r ∧ c ∉ r := by
  refine ⟨fun h => ?_, fun ⟨hcs, hr⟩ => hcs ▸ splitAtLast_append_cons hr⟩
  have hmem : c ∈ cs.reverse := by
    by_contra hc
    simp [splitAtLast, hc] at h
  -- the first occurrence in the reversed text is the last one in the text
  obtain ⟨after, before, hrev, hafter⟩ := List.eq_append_cons_of_mem hmem
  have hcs : cs = before.reverse ++ c :: after.reverse := by
    rw [← List.reverse_reverse cs, hrev]
    simp
  have hr : c ∉ after.reverse := fun hc => hafter (List.mem_reverse.1 hc)
  rw [hcs, splitAtLast_append_cons hr, Option.some_inj, Prod.mk.injEq] at h
  rw [← h.1, ← h.2]
  exact ⟨hcs, hr⟩

theorem parseUnsigned_chars {bound n : Nat} {cs : List Char} (h : parseUnsigned bound cs = some n) :
    ∀ c ∈ cs, c = '+' ∨ c.isDigit = true := by
  intro c hc
  by_contra hno
  rw [not_or] at hno
  simp only [parseUnsigned, Option.ite_none_right_eq_some] at h
  obtain ⟨⟨-, hdigits⟩, -⟩ := h
  have hall := List.all_eq_true.1 hdigits
  split at hall
  · rcases List.mem_cons.1 hc with rfl | hc
    · exact hno.1 rfl
    · exact hno.2 (hall c hc)
  · exact hno.2 (hall c hc)

/-! ## Texts that are joined -/

/-- A join of texts that are not empty is not empty. -/
theorem eq_nil_of_intercalate_eq_empty {sep : String} {texts : List String} (h : ∀ text ∈ texts, text ≠ "")
    (hjoin : sep.intercalate texts = "") : texts = [] := by
  cases texts with
  | nil => rfl
  | cons text texts =>
      have htext := h text List.mem_cons_self
      cases texts with
      | nil =>
          rw [String.intercalate_singleton] at hjoin
          exact absurd hjoin htext
      | cons next texts =>
          have hlength := congrArg String.length hjoin
          rw [String.intercalate_cons_cons, String.length_append, String.length_append] at hlength
          have hzero : text.length = 0 := by
            have hempty : ("" : String).length = 0 := rfl
            omega
          exact absurd (String.length_eq_zero_iff.1 hzero) htext

/-- **Joins of joins.** Groups may be joined one by one, and the joins that are not empty together. -/
theorem intercalate_groups (sep : String) (groups : List (List String))
    (h : ∀ group ∈ groups, ∀ text ∈ group, text ≠ "") :
    sep.intercalate ((groups.map sep.intercalate).filter (· ≠ "")) = sep.intercalate groups.flatten := by
  induction groups with
  | nil => rfl
  | cons group groups ih =>
      rw [List.forall_mem_cons] at h
      have hrest := ih h.2
      by_cases hgroup : group = []
      · subst hgroup
        rw [List.map_cons, String.intercalate_nil, List.filter_cons_of_neg (by decide), hrest]
        rfl
      have hjoin : sep.intercalate group ≠ "" :=
        fun heq => hgroup (eq_nil_of_intercalate_eq_empty h.1 heq)
      rw [List.map_cons, List.filter_cons_of_pos (by simpa using hjoin), List.flatten_cons]
      by_cases hflat : groups.flatten = []
      · -- nothing follows the group
        rw [hflat, String.intercalate_nil] at hrest
        have hnil := eq_nil_of_intercalate_eq_empty (fun text htext => by simpa using List.of_mem_filter htext) hrest
        rw [hnil, hflat, String.intercalate_singleton, List.append_nil]
      · have hne : (groups.map sep.intercalate).filter (· ≠ "") ≠ [] := by
          intro hnil
          rw [hnil, String.intercalate_nil] at hrest
          have htexts : ∀ text ∈ groups.flatten, text ≠ "" := by
            intro text htext
            obtain ⟨g, hg, htext⟩ := List.mem_flatten.1 htext
            exact h.2 g hg text htext
          exact hflat (eq_nil_of_intercalate_eq_empty htexts hrest.symm)
        rw [String.intercalate_cons_of_ne_nil hne, hrest, String.intercalate_append_of_ne_nil hgroup hflat]

/-! ## A separator between two texts -/

/-- A pair of texts is read back from what is on the two sides of a separator exactly if
neither has the separator in it. -/
theorem forall_append_cons_eq_iff {c : Char} {xs ys : List Char} :
    (∀ l r, l ++ c :: r = xs ++ c :: ys → r = ys) ↔ c ∉ xs ∧ c ∉ ys := by
  constructor
  · intro h
    refine ⟨fun hc => ?_, fun hc => ?_⟩
    · -- the text can also be read at the separator in the first part
      obtain ⟨l, r, rfl⟩ := List.append_of_mem hc
      have hsplit := h l (r ++ c :: ys) (by simp)
      have hlength := congrArg List.length hsplit
      rw [List.length_append, List.length_cons] at hlength
      omega
    · obtain ⟨l, r, rfl⟩ := List.append_of_mem hc
      have hsplit := h (xs ++ c :: l) r (by simp)
      have hlength := congrArg List.length hsplit
      rw [List.length_append, List.length_cons] at hlength
      omega
  · rintro ⟨hxs, hys⟩ l r h
    exact ((List.append_cons_inj_of_notMem hxs hys).1 h.symm).2.2.symm

theorem append_cons_prefix_iff {c : Char} {w xs ys : List Char} (hxs : c ∉ xs) (hys : c ∉ ys) :
    w ++ [c] <+: xs ++ c :: ys ↔ w = xs := by
  constructor
  · rintro ⟨r, hr⟩
    rw [List.append_assoc, List.singleton_append] at hr
    exact ((List.append_cons_inj_of_notMem hxs hys).1 hr.symm).1.symm
  · rintro rfl
    exact ⟨ys, by simp⟩

/-- Texts are read back from the two sides of the first separator. -/
theorem append_cons_inj_of_first {c : Char} {w : List Char} (hw : c ∉ w) :
    ∀ {w' xs ys : List Char}, c ∉ w' → (w ++ c :: xs = w' ++ c :: ys ↔ w = w' ∧ xs = ys) := by
  induction w with
  | nil =>
      intro w' xs ys hw'
      cases w' with
      | nil => simp
      | cons b w' =>
          -- the separator would be the first character of the other text
          have hne : c ≠ b := fun h => hw' (h ▸ List.mem_cons_self)
          simp [hne]
  | cons a w ih =>
      intro w' xs ys hw'
      cases w' with
      | nil =>
          have hne : a ≠ c := fun h => hw (h ▸ List.mem_cons_self)
          simp [hne]
      | cons b w' =>
          have hrest : w ++ c :: xs = w' ++ c :: ys ↔ w = w' ∧ xs = ys :=
            ih (fun h => hw (List.mem_cons_of_mem a h)) fun h => hw' (List.mem_cons_of_mem b h)
          rw [List.cons_append, List.cons_append, List.cons.injEq, List.cons.injEq, hrest, and_assoc]

/-! ## Segments of a path -/

theorem not_mem_of_mem_splitOn {c : Char} {cs seg : List Char} (h : seg ∈ cs.splitOn c) : c ∉ seg := by
  intro hc
  have hne : (c == c) = false := not_of_mem_splitOnP h c hc
  simp at hne

/-- The text of a path with these segments. -/
def joinSegments (c : Char) (segs : List (List Char)) : List Char := segs.flatMap fun seg => c :: seg

theorem intercalate_eq_joinSegments (c : Char) (first : List Char) (segs : List (List Char)) :
    [c].intercalate (first :: segs) = first ++ joinSegments c segs := by
  induction segs generalizing first with
  | nil => simp [joinSegments]
  | cons seg segs ih =>
      rw [List.intercalate_cons_cons, ih]
      simp [joinSegments]

theorem eq_joinSegments {c : Char} {cs : List Char} {segs : List (List Char)}
    (h : cs.splitOn c = [] :: segs) : cs = joinSegments c segs := by
  have hjoin : [c].intercalate (cs.splitOn c) = cs := List.intercalate_splitOn c
  rw [h, intercalate_eq_joinSegments, List.nil_append] at hjoin
  exact hjoin.symm

/-- Segments without the separator are read back from the text of their path. -/
theorem joinSegments_inj {c : Char} {segs segs' : List (List Char)} (h : ∀ seg ∈ segs, c ∉ seg)
    (h' : ∀ seg ∈ segs', c ∉ seg) : joinSegments c segs = joinSegments c segs' ↔ segs = segs' := by
  refine ⟨fun heq => ?_, fun heq => heq ▸ rfl⟩
  have hsplit : ∀ segs : List (List Char), (∀ seg ∈ segs, c ∉ seg) →
      (joinSegments c segs).splitOn c = [] :: segs := by
    intro segs hsegs
    rw [← List.nil_append (joinSegments c segs), ← intercalate_eq_joinSegments]
    apply List.splitOn_intercalate
    · exact List.forall_mem_cons.2 ⟨List.not_mem_nil, hsegs⟩
    · exact List.cons_ne_nil _ _
  have hcons : [] :: segs = [] :: segs' := by
    rw [← hsplit segs h, ← hsplit segs' h', heq]
  exact (List.cons.inj hcons).2

/-- A word that starts with the separator does not start within a segment. -/
theorem cons_infix_append_iff {c : Char} {w seg rest : List Char} (hseg : c ∉ seg) :
    (c :: w) <:+: seg ++ rest ↔ (c :: w) <:+: rest := by
  induction seg with
  | nil => rfl
  | cons d seg ih =>
      rw [List.mem_cons, not_or] at hseg
      rw [List.cons_append, List.infix_cons_iff, List.cons_prefix_cons, ih hseg.2]
      exact or_iff_right fun hstart => hseg.1 hstart.1

theorem prefix_of_prefix_append_cons {c : Char} {w seg rest : List Char} (hw : c ∉ w)
    (h : w <+: seg ++ c :: rest) : w <+: seg := by
  induction seg generalizing w with
  | nil =>
      cases w with
      | nil => exact List.nil_prefix
      | cons d w =>
          have hd : d = c := (List.cons_prefix_cons.1 h).1
          exact absurd (hd ▸ List.mem_cons_self) hw
  | cons d seg ih =>
      cases w with
      | nil => exact List.nil_prefix
      | cons e w =>
          obtain ⟨hd, hrest⟩ := List.cons_prefix_cons.1 h
          exact List.cons_prefix_cons.2 ⟨hd, ih (fun hmem => hw (List.mem_cons_of_mem _ hmem)) hrest⟩

/-- A word without the separator that starts a segment and what follows it is within the
segment. -/
theorem prefix_append_joinSegments_iff {c : Char} {w seg : List Char} {segs : List (List Char)} (hw : c ∉ w) :
    w <+: seg ++ joinSegments c segs ↔ w <+: seg := by
  refine ⟨fun h => ?_, fun h => h.trans (List.prefix_append _ _)⟩
  cases segs with
  | nil => simpa [joinSegments] using h
  | cons seg' segs => exact prefix_of_prefix_append_cons hw h

/-- A word after the separator is the start of a segment. -/
theorem cons_infix_joinSegments_iff {c : Char} {w : List Char} {segs : List (List Char)} (hw : c ∉ w)
    (hsegs : ∀ seg ∈ segs, c ∉ seg) :
    (c :: w) <:+: joinSegments c segs ↔ ∃ seg ∈ segs, w <+: seg := by
  induction segs with
  | nil => simp [joinSegments]
  | cons seg segs ih =>
      have hcons : joinSegments c (seg :: segs) = c :: (seg ++ joinSegments c segs) := rfl
      rw [hcons, List.infix_cons_iff, List.cons_prefix_cons, cons_infix_append_iff (hsegs seg List.mem_cons_self),
        ih fun s hs => hsegs s (List.mem_cons_of_mem _ hs), prefix_append_joinSegments_iff hw]
      simp

/-! ## Byte offsets -/

/-- The length of a text in UTF-8. -/
def utf8Len (cs : List Char) : Nat := (cs.map Char.utf8Size).sum

/-- The text before and after a byte offset, which must be between two characters. -/
def splitAtByte : List Char → Nat → Option (List Char × List Char)
  | cs, 0 => some ([], cs)
  | [], _ + 1 => none
  | c :: cs, n + 1 =>
      if c.utf8Size ≤ n + 1 then (splitAtByte cs (n + 1 - c.utf8Size)).map fun part => (c :: part.1, part.2) else none

/-- `str::get` of a range of bytes. -/
def byteSlice (cs : List Char) (start stop : Nat) : Option (List Char) :=
  if start ≤ stop then
    (splitAtByte cs start).bind fun part => (splitAtByte part.2 (stop - start)).map Prod.fst
  else none

/-- The offsets of `str::char_indices`, from an offset on. -/
def charOffsets : Nat → List Char → List Nat
  | _, [] => []
  | n, c :: cs => n :: charOffsets (n + c.utf8Size) cs

theorem utf8Len_append (xs ys : List Char) : utf8Len (xs ++ ys) = utf8Len xs + utf8Len ys := by
  rw [utf8Len, List.map_append, List.sum_append, ← utf8Len, ← utf8Len]

theorem splitAtByte_append (xs ys : List Char) : splitAtByte (xs ++ ys) (utf8Len xs) = some (xs, ys) := by
  induction xs with
  | nil =>
      cases ys with
      | nil => rfl
      | cons y ys => rfl
  | cons x xs ih =>
      obtain ⟨n, hn⟩ : ∃ n, utf8Len (x :: xs) = n + 1 := by
        have hpos : 0 < x.utf8Size := x.utf8Size_pos
        exact Nat.exists_eq_succ_of_ne_zero (by rw [utf8Len, List.map_cons, List.sum_cons]; omega)
      have hrest : n + 1 - x.utf8Size = utf8Len xs := by
        rw [← hn, utf8Len, List.map_cons, List.sum_cons, Nat.add_sub_cancel_left, ← utf8Len]
      have hle : x.utf8Size ≤ n + 1 := by
        rw [← hn, utf8Len, List.map_cons, List.sum_cons]
        exact Nat.le_add_right _ _
      rw [hn, List.cons_append, splitAtByte, if_pos hle, hrest, ih]
      rfl

theorem getElem?_charOffsets (cs : List Char) :
    ∀ n i : Nat, (charOffsets n cs)[i]?.getD (n + utf8Len cs) = n + utf8Len (cs.take i) := by
  induction cs with
  | nil =>
      intro n i
      rw [List.take_nil]
      rfl
  | cons c cs ih =>
      intro n i
      cases i with
      | zero => rfl
      | succ i =>
          have hrest := ih (n + c.utf8Size) i
          rw [charOffsets, List.getElem?_cons_succ, List.take_succ_cons, utf8Len, utf8Len, List.map_cons, List.map_cons,
            List.sum_cons, List.sum_cons, ← Nat.add_assoc, ← Nat.add_assoc, ← utf8Len, ← utf8Len]
          exact hrest

/-- **Characters and bytes.** The bytes between the offsets of two characters are the characters
between the two; a number beyond the end of the text stands for its end. -/
theorem byteSlice_take (cs : List Char) {i j : Nat} (h : i ≤ j) :
    byteSlice cs (utf8Len (cs.take i)) (utf8Len (cs.take j)) = some ((cs.drop i).take (j - i)) := by
  have htake : cs.take j = cs.take i ++ (cs.drop i).take (j - i) := by
    rw [← List.take_add, Nat.add_sub_cancel' h]
  have hsplit : splitAtByte cs (utf8Len (cs.take i)) = some (cs.take i, cs.drop i) := by
    have happend := splitAtByte_append (cs.take i) (cs.drop i)
    rwa [List.take_append_drop] at happend
  have hrest : splitAtByte (cs.drop i) (utf8Len ((cs.drop i).take (j - i))) =
      some ((cs.drop i).take (j - i), (cs.drop i).drop (j - i)) := by
    have happend := splitAtByte_append ((cs.drop i).take (j - i)) ((cs.drop i).drop (j - i))
    rwa [List.take_append_drop] at happend
  rw [htake, utf8Len_append, byteSlice, if_pos (Nat.le_add_right _ _), hsplit, Option.bind_some,
    Nat.add_sub_cancel_left, hrest]
  rfl

end MSearchDB.Lib
