import MSearchDB.Lib.Json

/-!
# JSON as text

A writer that leaves no spaces and writes only printable ASCII characters, and a reader by
recursive descent that counts down the objects and arrays that it may still enter. The text of a
float and what is read of it are parameters.

What is written is read again (`parse_dumps`): the values in it must be within the reader's
numbers, and they may not be deeper than the reader goes.
-/

set_option autoImplicit false

namespace MSearchDB.Lib

/-- What a reader says of a text that it does not accept. -/
inductive JsonError where
  | syntaxError
  | recursionLimitExceeded
  | numberOutOfRange
  deriving DecidableEq, Repr

/-- The text of a float, and the float that is read of a text. -/
class FloatText (φ : Type) where
  text : φ → List Char
  read : List Char → Option φ

namespace Json

/-- Induction over a value, with a hypothesis for everything in it. -/
@[elab_as_elim]
theorem induct {φ : Type} {motive : Json φ → Prop}
    (null : motive .null)
    (bool : ∀ b, motive (.bool b))
    (int : ∀ n, motive (.int n))
    (float : ∀ x, motive (.float x))
    (string : ∀ s, motive (.string s))
    (array : ∀ vs, (∀ v ∈ vs, motive v) → motive (.array vs))
    (object : ∀ members, (∀ m ∈ members, motive m.2) → motive (.object members)) : ∀ v, motive v
  | .null => null
  | .bool b => bool b
  | .int n => int n
  | .float x => float x
  | .string s => string s
  | .array vs => array vs fun v _ => induct null bool int float string array object v
  | .object members => object members fun m hm =>
      have _ : sizeOf m.2 < sizeOf members := by
        have hsize := List.sizeOf_lt_of_mem hm
        cases m
        simp only [Prod.mk.sizeOf_spec] at hsize ⊢
        omega
      induct null bool int float string array object m.2

mutual
/-- The objects and arrays that a value is deep. -/
def depth {φ : Type} : Json φ → Nat
  | .array vs => 1 + depthOf vs
  | .object members => 1 + depthOfMembers members
  | _ => 0
/-- The depth of the deepest element. -/
def depthOf {φ : Type} : List (Json φ) → Nat
  | [] => 0
  | v :: vs => max (depth v) (depthOf vs)
/-- The depth of the deepest member. -/
def depthOfMembers {φ : Type} : List (String × Json φ) → Nat
  | [] => 0
  | (_, v) :: members => max (depth v) (depthOfMembers members)
end

/-! ## The writer -/

/-- The escape of a code unit. -/
def unicodeEscape (n : Nat) : List Char :=
  ['\\', 'u', (n / 4096 % 16).digitChar, (n / 256 % 16).digitChar, (n / 16 % 16).digitChar, (n % 16).digitChar]

/-- A character of a string: itself if it is a printable ASCII character that needs no escape. -/
def escapeChar (c : Char) : List Char :=
  if c = '"' then ['\\', '"']
  else if c = '\\' then ['\\', '\\']
  else if c = '\n' then ['\\', 'n']
  else if c = '\r' then ['\\', 'r']
  else if c = '\t' then ['\\', 't']
  else if c = '\x0c' then ['\\', 'f']
  else if c = '\x08' then ['\\', 'b']
  else if 0x20 ≤ c.toNat ∧ c.toNat ≤ 0x7e then [c]
  else if c.toNat < 0x10000 then unicodeEscape c.toNat
  else
    -- a surrogate pair
    unicodeEscape (0xd800 + (c.toNat - 0x10000) / 1024) ++ unicodeEscape (0xdc00 + (c.toNat - 0x10000) % 1024)

/-- A string in quotes. -/
def quote (s : String) : List Char := '"' :: s.toList.flatMap escapeChar ++ ['"']

/-- An integer in decimal. -/
def intText (n : Int) : List Char :=
  if n < 0 then '-' :: Nat.toDigits 10 n.natAbs else Nat.toDigits 10 n.natAbs

section Writer

variable {φ : Type} [FloatText φ]

mutual
/-- The text of a value. -/
def dumps : Json φ → List Char
  | .null => ['n', 'u', 'l', 'l']
  | .bool true => ['t', 'r', 'u', 'e']
  | .bool false => ['f', 'a', 'l', 's', 'e']
  | .int n => intText n
  | .float x => FloatText.text x
  | .string s => quote s
  | .array [] => ['[', ']']
  | .array (v :: vs) => '[' :: dumps v ++ dumpsElements vs
  | .object [] => ['{', '}']
  | .object ((key, v) :: members) => '{' :: quote key ++ ':' :: dumps v ++ dumpsMembers members
/-- The elements after the first. -/
def dumpsElements : List (Json φ) → List Char
  | [] => [']']
  | v :: vs => ',' :: dumps v ++ dumpsElements vs
/-- The members after the first. -/
def dumpsMembers : List (String × Json φ) → List Char
  | [] => ['}']
  | (key, v) :: members => ',' :: quote key ++ ':' :: dumps v ++ dumpsMembers members
end

end Writer

/-! ## The reader -/

/-- The text after spaces. -/
def skipSpace : List Char → List Char
  | c :: cs => if c = ' ' ∨ c = '\n' ∨ c = '\t' ∨ c = '\r' then skipSpace cs else c :: cs
  | [] => []

/-- The value of a hexadecimal digit. -/
def hexValue (c : Char) : Option Nat :=
  if '0' ≤ c ∧ c ≤ '9' then some (c.toNat - 48)
  else if 'a' ≤ c ∧ c ≤ 'f' then some (c.toNat - 87)
  else if 'A' ≤ c ∧ c ≤ 'F' then some (c.toNat - 55)
  else none

/-- Four hexadecimal digits. -/
def parseHex : List Char → Except JsonError (Nat × List Char)
  | a :: b :: c :: d :: rest =>
      match hexValue a, hexValue b, hexValue c, hexValue d with
      | some a, some b, some c, some d => .ok (((a * 16 + b) * 16 + c) * 16 + d, rest)
      | _, _, _, _ => .error .syntaxError
  | _ => .error .syntaxError

/-- The character of an escape that is no code unit. -/
def simpleEscape (c : Char) : Option Char :=
  if c = '"' then some '"'
  else if c = '\\' then some '\\'
  else if c = '/' then some '/'
  else if c = 'b' then some '\x08'
  else if c = 'f' then some '\x0c'
  else if c = 'n' then some '\n'
  else if c = 'r' then some '\r'
  else if c = 't' then some '\t'
  else none

/-- The code units of an escape, after its `u`: one that is no surrogate, or a pair of them. -/
def parseUnicode (cs : List Char) : Except JsonError (Char × List Char) := do
  let (n, cs) ← parseHex cs
  if 0xdc00 ≤ n ∧ n ≤ 0xdfff then .error .syntaxError
  else if 0xd800 ≤ n ∧ n ≤ 0xdbff then
    match cs with
    | '\\' :: 'u' :: cs =>
        let (m, cs) ← parseHex cs
        if 0xdc00 ≤ m ∧ m ≤ 0xdfff then
          .ok (Char.ofNat ((n - 0xd800) * 1024 + (m - 0xdc00) + 0x10000), cs)
        else .error .syntaxError
    | _ => .error .syntaxError
  else .ok (Char.ofNat n, cs)

/-- A character of a string, or nothing at the quote that ends it. -/
def parseChar : List Char → Except JsonError (Option Char × List Char)
  | [] => .error .syntaxError
  | c :: cs =>
      if c = '"' then .ok (none, cs)
      else if c = '\\' then
        match cs with
        | [] => .error .syntaxError
        | d :: cs =>
            if d = 'u' then do
              let (c, cs) ← parseUnicode cs
              .ok (some c, cs)
            else
              match simpleEscape d with
              | some c => .ok (some c, cs)
              | none => .error .syntaxError
      else if c.toNat < 0x20 then .error .syntaxError
      else .ok (some c, cs)

/-- The characters of a string up to the quote that ends it. -/
def parseChars : Nat → List Char → Except JsonError (List Char × List Char)
  | 0, _ => .error .syntaxError
  | fuel + 1, cs => do
      match ← parseChar cs with
      | (none, cs) => .ok ([], cs)
      | (some c, cs) =>
          let (s, cs) ← parseChars fuel cs
          .ok (c :: s, cs)

/-- A string, after its first quote. -/
def parseString (cs : List Char) : Except JsonError (String × List Char) := do
  let (s, cs) ← parseChars (cs.length + 1) cs
  .ok (String.ofList s, cs)

/-- The point and the digits of a fraction, if there is one. -/
def parseFraction : List Char → Except JsonError (List Char × List Char)
  | '.' :: cs =>
      let (digits, cs) := cs.span Char.isDigit
      if digits = [] then .error .syntaxError else .ok ('.' :: digits, cs)
  | cs => .ok ([], cs)

/-- The sign of an exponent. -/
def parseSign : List Char → List Char × List Char
  | '+' :: cs => (['+'], cs)
  | '-' :: cs => (['-'], cs)
  | cs => ([], cs)

/-- An exponent, if there is one. -/
def parseExponent : List Char → Except JsonError (List Char × List Char)
  | [] => .ok ([], [])
  | c :: cs =>
      if c = 'e' ∨ c = 'E' then
        let (sign, cs) := parseSign cs
        let (digits, cs) := cs.span Char.isDigit
        if digits = [] then .error .syntaxError else .ok (c :: sign ++ digits, cs)
      else .ok ([], c :: cs)

/-- The text of a minus sign. -/
def minusText (negative : Bool) : List Char := if negative then ['-'] else []

/-- The sign of a number. -/
def parseMinus : List Char → Bool × List Char
  | '-' :: cs => (true, cs)
  | cs => (false, cs)

section Reader

variable {φ : Type} [FloatText φ]

/-- The float of a text. -/
def readFloat (text : List Char) : Except JsonError (Json φ) :=
  match FloatText.read text with
  | some x => .ok (.float x)
  | none => .error .numberOutOfRange

/-- A number without a fraction and an exponent: one that is no `i64` and no `u64` is a float, and
so is a negative zero. -/
def readInt (negative : Bool) (digits : List Char) : Except JsonError (Json φ) :=
  let n := Nat.ofDigitChars 10 digits 0
  if negative then
    if n = 0 ∨ 2 ^ 63 < n then readFloat ('-' :: digits) else .ok (.int (-(n : Int)))
  else if n < 2 ^ 64 then .ok (.int n)
  else readFloat digits

/-- A number. -/
def parseNumber (cs : List Char) : Except JsonError (Json φ × List Char) := do
  let (negative, cs) := parseMinus cs
  let (digits, cs) := cs.span Char.isDigit
  if digits = [] ∨ (digits.head? = some '0' ∧ 1 < digits.length) then .error .syntaxError
  else
    let (fraction, cs) ← parseFraction cs
    let (exponent, cs) ← parseExponent cs
    if fraction = [] ∧ exponent = [] then
      let v ← readInt negative digits
      .ok (v, cs)
    else
      let v ← readFloat (minusText negative ++ (digits ++ (fraction ++ exponent)))
      .ok (v, cs)

/-- The letters of a word. -/
def parseWord (word : List Char) (v : Json φ) (cs : List Char) : Except JsonError (Json φ × List Char) :=
  if cs.take word.length = word then .ok (v, cs.drop word.length) else .error .syntaxError

/-- An object or an array is entered: the depth that remains. -/
def enterContainer (remaining : Nat) : Except JsonError Nat :=
  if remaining ≤ 1 then .error .recursionLimitExceeded else .ok (remaining - 1)

/-- The name of a member and the colon after it. -/
def parseName (cs : List Char) : Except JsonError (String × List Char) :=
  match skipSpace cs with
  | '"' :: cs => do
      let (key, cs) ← parseString cs
      match skipSpace cs with
      | ':' :: cs => .ok (key, cs)
      | _ => .error .syntaxError
  | _ => .error .syntaxError

mutual
/-- A value. Every call reads a character, so that the length of the text is fuel enough. -/
def parseValue : Nat → Nat → List Char → Except JsonError (Json φ × List Char)
  | 0, _, _ => .error .syntaxError
  | fuel + 1, remaining, cs =>
      match skipSpace cs with
      | [] => .error .syntaxError
      | c :: cs =>
          if c = 'n' then parseWord ['u', 'l', 'l'] .null cs
          else if c = 't' then parseWord ['r', 'u', 'e'] (.bool true) cs
          else if c = 'f' then parseWord ['a', 'l', 's', 'e'] (.bool false) cs
          else if c = '"' then do
            let (s, cs) ← parseString cs
            .ok (.string s, cs)
          else if c = '[' then do
            let remaining ← enterContainer remaining
            match skipSpace cs with
            | ']' :: cs => .ok (.array [], cs)
            | cs =>
                let (v, cs) ← parseValue fuel remaining cs
                let (vs, cs) ← parseElements fuel remaining cs
                .ok (.array (v :: vs), cs)
          else if c = '{' then do
            let remaining ← enterContainer remaining
            match skipSpace cs with
            | '}' :: cs => .ok (.object [], cs)
            | cs =>
                let (key, cs) ← parseName cs
                let (v, cs) ← parseValue fuel remaining cs
                let (members, cs) ← parseMembers fuel remaining cs
                .ok (.object ((key, v) :: members), cs)
          else parseNumber (c :: cs)
/-- The elements after the first. -/
def parseElements : Nat → Nat → List Char → Except JsonError (List (Json φ) × List Char)
  | 0, _, _ => .error .syntaxError
  | fuel + 1, remaining, cs =>
      match skipSpace cs with
      | ']' :: cs => .ok ([], cs)
      | ',' :: cs => do
          let (v, cs) ← parseValue fuel remaining cs
          let (vs, cs) ← parseElements fuel remaining cs
          .ok (v :: vs, cs)
      | _ => .error .syntaxError
/-- The members after the first. -/
def parseMembers : Nat → Nat → List Char → Except JsonError (List (String × Json φ) × List Char)
  | 0, _, _ => .error .syntaxError
  | fuel + 1, remaining, cs =>
      match skipSpace cs with
      | '}' :: cs => .ok ([], cs)
      | ',' :: cs => do
          let (key, cs) ← parseName cs
          let (v, cs) ← parseValue fuel remaining cs
          let (members, cs) ← parseMembers fuel remaining cs
          .ok ((key, v) :: members, cs)
      | _ => .error .syntaxError
end

/-- A text that is one value. -/
def parse (limit : Nat) (cs : List Char) : Except JsonError (Json φ) := do
  let (v, cs) ← parseValue (cs.length + 1) limit cs
  if skipSpace cs = [] then .ok v else .error .syntaxError

end Reader

/-! ## Strings are read as they are written -/

theorem hexValue_digitChar : ∀ d < 16, hexValue d.digitChar = some d := by decide

theorem parseHex_unicodeEscape (n : Nat) (h : n < 0x10000) (rest : List Char) :
    parseHex ((unicodeEscape n).drop 2 ++ rest) = .ok (n, rest) := by
  have h₁ := hexValue_digitChar (n / 4096 % 16) (by omega)
  have h₂ := hexValue_digitChar (n / 256 % 16) (by omega)
  have h₃ := hexValue_digitChar (n / 16 % 16) (by omega)
  have h₄ := hexValue_digitChar (n % 16) (by omega)
  have hn : ((n / 4096 % 16 * 16 + n / 256 % 16) * 16 + n / 16 % 16) * 16 + n % 16 = n := by omega
  simp only [unicodeEscape, List.drop_succ_cons, List.drop_zero, List.cons_append, List.nil_append, parseHex, h₁, h₂,
    h₃, h₄, hn]

theorem unicodeEscape_eq (n : Nat) : unicodeEscape n = '\\' :: 'u' :: (unicodeEscape n).drop 2 := rfl

theorem parseUnicode_unit (n : Nat) (h : n < 0x10000) (hs : ¬ (0xd800 ≤ n ∧ n ≤ 0xdfff)) (rest : List Char) :
    parseUnicode ((unicodeEscape n).drop 2 ++ rest) = .ok (Char.ofNat n, rest) := by
  have h₁ : ¬ (0xdc00 ≤ n ∧ n ≤ 0xdfff) := by omega
  have h₂ : ¬ (0xd800 ≤ n ∧ n ≤ 0xdbff) := by omega
  simp only [parseUnicode, parseHex_unicodeEscape n h, bind, Except.bind, h₁, h₂, if_false]

theorem parseUnicode_pair (n : Nat) (h : n < 0x100000) (rest : List Char) :
    parseUnicode ((unicodeEscape (0xd800 + n / 1024)).drop 2 ++ (unicodeEscape (0xdc00 + n % 1024) ++ rest)) =
      .ok (Char.ofNat (n + 0x10000), rest) := by
  have h₁ : ¬ (0xdc00 ≤ 0xd800 + n / 1024 ∧ 0xd800 + n / 1024 ≤ 0xdfff) := by omega
  have h₂ : 0xd800 ≤ 0xd800 + n / 1024 ∧ 0xd800 + n / 1024 ≤ 0xdbff := by omega
  have h₃ : 0xdc00 ≤ 0xdc00 + n % 1024 ∧ 0xdc00 + n % 1024 ≤ 0xdfff := by omega
  have hn : (0xd800 + n / 1024 - 0xd800) * 1024 + (0xdc00 + n % 1024 - 0xdc00) + 0x10000 = n + 0x10000 := by omega
  rw [unicodeEscape_eq (0xdc00 + n % 1024)]
  simp only [parseUnicode, parseHex_unicodeEscape (0xd800 + n / 1024) (by omega), List.cons_append,
    parseHex_unicodeEscape (0xdc00 + n % 1024) (by omega), bind, Except.bind, h₁, h₂, h₃, hn, if_false, if_true,
    and_self]

theorem parseChar_unicode {cs rest : List Char} {c : Char} (h : parseUnicode cs = .ok (c, rest)) :
    parseChar ('\\' :: 'u' :: cs) = .ok (some c, rest) := by
  simp [parseChar, h, bind, Except.bind]

/-- The forms in which a character of a string is written. -/
inductive EscapeForm (c : Char) : List Char → Prop where
  | simple {d : Char} (hescape : simpleEscape d = some c) (hunicode : d ≠ 'u')
      (hprintable : 0x20 ≤ d.toNat ∧ d.toNat ≤ 0x7e) : EscapeForm c ['\\', d]
  | itself (hquote : c ≠ '"') (hbackslash : c ≠ '\\') (hprintable : 0x20 ≤ c.toNat ∧ c.toNat ≤ 0x7e) :
      EscapeForm c [c]
  | unit (h : c.toNat < 0x10000) : EscapeForm c (unicodeEscape c.toNat)
  | pair (h : ¬ c.toNat < 0x10000) : EscapeForm c
      (unicodeEscape (0xd800 + (c.toNat - 0x10000) / 1024) ++ unicodeEscape (0xdc00 + (c.toNat - 0x10000) % 1024))

theorem escapeForm_escapeChar (c : Char) : EscapeForm c (escapeChar c) := by
  rw [escapeChar]
  by_cases hquote : c = '"'
  · rw [if_pos hquote, hquote]
    exact .simple rfl (by decide) (by decide)
  rw [if_neg hquote]
  by_cases hbackslash : c = '\\'
  · rw [if_pos hbackslash, hbackslash]
    exact .simple rfl (by decide) (by decide)
  rw [if_neg hbackslash]
  by_cases hnewline : c = '\n'
  · rw [if_pos hnewline, hnewline]
    exact .simple rfl (by decide) (by decide)
  rw [if_neg hnewline]
  by_cases hreturn : c = '\r'
  · rw [if_pos hreturn, hreturn]
    exact .simple rfl (by decide) (by decide)
  rw [if_neg hreturn]
  by_cases htab : c = '\t'
  · rw [if_pos htab, htab]
    exact .simple rfl (by decide) (by decide)
  rw [if_neg htab]
  by_cases hfeed : c = '\x0c'
  · rw [if_pos hfeed, hfeed]
    exact .simple rfl (by decide) (by decide)
  rw [if_neg hfeed]
  by_cases hbackspace : c = '\x08'
  · rw [if_pos hbackspace, hbackspace]
    exact .simple rfl (by decide) (by decide)
  rw [if_neg hbackspace]
  by_cases hprintable : 0x20 ≤ c.toNat ∧ c.toNat ≤ 0x7e
  · rw [if_pos hprintable]
    exact .itself hquote hbackslash hprintable
  rw [if_neg hprintable]
  by_cases hunit : c.toNat < 0x10000
  · rw [if_pos hunit]
    exact .unit hunit
  · rw [if_neg hunit]
    exact .pair hunit

/-- A character is read as it is written. -/
theorem parseChar_escapeChar (c : Char) (rest : List Char) :
    parseChar (escapeChar c ++ rest) = .ok (some c, rest) := by
  have hvalid : c.toNat < 0xd800 ∨ 0xdfff < c.toNat ∧ c.toNat < 0x110000 := c.valid
  have hform := escapeForm_escapeChar c
  generalize escapeChar c = written at hform ⊢
  cases hform with
  | simple hescape hunicode hprintable => simp [parseChar, hescape, hunicode]
  | itself hquote hbackslash hprintable =>
      have hc : ¬ c.toNat < 0x20 := Nat.not_lt.2 hprintable.1
      simp [parseChar, hquote, hbackslash, hc]
  | unit h =>
      rw [unicodeEscape_eq, List.cons_append, List.cons_append]
      apply parseChar_unicode
      rw [parseUnicode_unit c.toNat h (by omega), Char.ofNat_toNat]
  | pair h =>
      rw [unicodeEscape_eq (0xd800 + (c.toNat - 0x10000) / 1024), List.cons_append, List.cons_append,
        List.cons_append, List.cons_append, List.append_assoc]
      apply parseChar_unicode
      have hc : c.toNat - 0x10000 + 0x10000 = c.toNat := by omega
      rw [parseUnicode_pair (c.toNat - 0x10000) (by omega), hc, Char.ofNat_toNat]

theorem length_escapeChar_pos (c : Char) : 0 < (escapeChar c).length := by
  have hform := escapeForm_escapeChar c
  generalize escapeChar c = written at hform ⊢
  cases hform with
  | simple hescape hunicode hprintable => exact Nat.succ_pos _
  | itself hquote hbackslash hprintable => exact Nat.succ_pos _
  | unit h => exact Nat.succ_pos _
  | pair h => exact Nat.succ_pos _

theorem parseChars_escape (s : List Char) (fuel : Nat) (h : s.length < fuel) (rest : List Char) :
    parseChars fuel (s.flatMap escapeChar ++ '"' :: rest) = .ok (s, rest) := by
  induction s generalizing fuel with
  | nil =>
      obtain ⟨fuel, rfl⟩ := Nat.exists_eq_succ_of_ne_zero (Nat.ne_of_gt h)
      simp [parseChars, parseChar, bind, Except.bind]
  | cons c s ih =>
      obtain ⟨fuel, rfl⟩ := Nat.exists_eq_succ_of_ne_zero (Nat.ne_of_gt (Nat.zero_lt_of_lt h))
      have hs : s.length < fuel := by simpa using h
      simp only [List.flatMap_cons, List.append_assoc, parseChars, parseChar_escapeChar, ih fuel hs, bind, Except.bind]

theorem length_le_flatMap_escapeChar (s : List Char) : s.length ≤ (s.flatMap escapeChar).length := by
  induction s with
  | nil => simp
  | cons c s ih =>
      have hc := length_escapeChar_pos c
      simp only [List.flatMap_cons, List.length_append, List.length_cons]
      omega

/-- A string is read as it is written. -/
theorem parseString_quote (s : String) (rest : List Char) :
    parseString (s.toList.flatMap escapeChar ++ '"' :: rest) = .ok (s, rest) := by
  have hlength := length_le_flatMap_escapeChar s.toList
  have hfuel : s.toList.length < (s.toList.flatMap escapeChar ++ '"' :: rest).length + 1 := by
    simp only [List.length_append, List.length_cons]
    omega
  simp only [parseString, parseChars_escape s.toList _ hfuel, bind, Except.bind, String.ofList_toList]

/-! ## Numbers are read as they are written -/

/-- What may follow a number. -/
def NumberEnd (rest : List Char) : Prop :=
  ∀ c ∈ rest.head?, c.isDigit = false ∧ c ≠ '.' ∧ c ≠ 'e' ∧ c ≠ 'E'

/-- A text that starts with no digit. -/
def DigitsEnd (rest : List Char) : Prop := ∀ c ∈ rest.head?, c.isDigit = false

theorem span_digits {digits rest : List Char} (hdigits : ∀ c ∈ digits, c.isDigit = true) (hrest : DigitsEnd rest) :
    (digits ++ rest).span Char.isDigit = (digits, rest) := by
  rw [List.span_eq_takeWhile_dropWhile, List.takeWhile_append_of_pos hdigits, List.dropWhile_append_of_pos hdigits]
  cases rest with
  | nil => simp
  | cons c rest =>
      have hc := hrest c rfl
      simp [hc]

theorem parseFraction_end {rest : List Char} (h : NumberEnd rest) : parseFraction rest = .ok ([], rest) := by
  unfold parseFraction
  split
  · next cs => exact absurd rfl (h '.' rfl).2.1
  · rfl

theorem parseExponent_end {rest : List Char} (h : NumberEnd rest) : parseExponent rest = .ok ([], rest) := by
  cases rest with
  | nil => rfl
  | cons c rest =>
      obtain ⟨-, -, he, hE⟩ := h c rfl
      simp [parseExponent, he, hE]

theorem NumberEnd.digitsEnd {rest : List Char} (h : NumberEnd rest) : DigitsEnd rest := fun c hc => (h c hc).1

theorem digitChar_eq_zero : ∀ d < 10, d.digitChar = '0' → d = 0 := by decide

/-- Only zero is written with a zero first. -/
theorem eq_zero_of_head?_toDigits (n : Nat) (h : (Nat.toDigits 10 n).head? = some '0') : n = 0 := by
  induction n using Nat.base_induction 10 (by decide) with
  | single m hm =>
      rw [Nat.toDigits_of_lt_base hm] at h
      exact digitChar_eq_zero m hm (by simpa using h)
  | digit m k hk hm ih =>
      obtain ⟨d, ds, hds⟩ := List.exists_cons_of_ne_nil (Nat.toDigits_ne_nil (n := m) (b := 10))
      rw [← Nat.toDigits_append_toDigits (by decide) hm hk, hds] at h
      rw [hds] at ih
      have hzero := ih (by simpa using h)
      omega

theorem toDigits_digits (n : Nat) : ∀ c ∈ Nat.toDigits 10 n, c.isDigit = true :=
  fun _ hc => Nat.isDigit_of_mem_toDigits (by decide) (by decide) hc

/-- A decimal text is the whole part of a number. -/
theorem toDigits_wellFormed (n : Nat) :
    ¬ (Nat.toDigits 10 n = [] ∨ (Nat.toDigits 10 n).head? = some '0' ∧ 1 < (Nat.toDigits 10 n).length) := by
  rintro (h | ⟨hhead, hlength⟩)
  · exact Nat.toDigits_ne_nil h
  · rw [eq_zero_of_head?_toDigits n hhead] at hlength
    simp at hlength

theorem parseMinus_digits (negative : Bool) (n : Nat) (rest : List Char) :
    parseMinus (minusText negative ++ (Nat.toDigits 10 n ++ rest)) = (negative, Nat.toDigits 10 n ++ rest) := by
  cases negative with
  | true => rfl
  | false =>
      obtain ⟨d, ds, hds⟩ := List.exists_cons_of_ne_nil (Nat.toDigits_ne_nil (n := n) (b := 10))
      have hd := toDigits_digits n d (by simp [hds])
      have hne : d ≠ '-' := by
        rintro rfl
        cases hd
      simp [minusText, hds, parseMinus, hne]

/-- A decimal text with a fraction or an exponent. -/
structure DecimalLiteral where
  negative : Bool
  whole : Nat
  fraction : List Char
  exponent : Option (Bool × List Char)
  fraction_digits : ∀ c ∈ fraction, c.isDigit = true
  exponent_digits : ∀ e ∈ exponent, e.2 ≠ [] ∧ ∀ c ∈ e.2, c.isDigit = true
  proper : fraction ≠ [] ∨ exponent ≠ none

namespace DecimalLiteral

/-- The text of the fraction. -/
def fractionText (l : DecimalLiteral) : List Char := if l.fraction = [] then [] else '.' :: l.fraction

/-- The text of the exponent. -/
def exponentText (l : DecimalLiteral) : List Char :=
  match l.exponent with
  | none => []
  | some (negative, digits) => 'e' :: (if negative then '-' else '+') :: digits

/-- The text of the literal. -/
def text (l : DecimalLiteral) : List Char :=
  minusText l.negative ++ (Nat.toDigits 10 l.whole ++ (l.fractionText ++ l.exponentText))

variable (l : DecimalLiteral) {rest : List Char}

theorem digitsEnd_exponentText (hrest : DigitsEnd rest) : DigitsEnd (l.exponentText ++ rest) := by
  unfold exponentText
  split
  · exact hrest
  · intro c hc
    obtain rfl : 'e' = c := by simpa using hc
    rfl

theorem digitsEnd_fractionText (hrest : DigitsEnd rest) : DigitsEnd (l.fractionText ++ rest) := by
  unfold fractionText
  split
  · exact hrest
  · intro c hc
    obtain rfl : '.' = c := by simpa using hc
    rfl

theorem parseExponent_exponentText (hrest : NumberEnd rest) :
    parseExponent (l.exponentText ++ rest) = .ok (l.exponentText, rest) := by
  unfold exponentText
  split
  · exact parseExponent_end hrest
  · next negative digits he =>
      obtain ⟨hne, hdigits⟩ : digits ≠ [] ∧ ∀ c ∈ digits, c.isDigit = true := l.exponent_digits _ he
      have hspan := span_digits hdigits hrest.digitsEnd
      have hsign : parseSign ((if negative then '-' else '+') :: (digits ++ rest)) =
          ([if negative then '-' else '+'], digits ++ rest) := by
        cases negative <;> rfl
      simp only [List.cons_append, parseExponent, true_or, if_true, hsign, hspan, hne, if_false, List.nil_append]

theorem parseFraction_fractionText (hrest : NumberEnd rest) :
    parseFraction (l.fractionText ++ (l.exponentText ++ rest)) = .ok (l.fractionText, l.exponentText ++ rest) := by
  unfold fractionText
  split
  · -- no fraction, so that there is an exponent or the end
    unfold exponentText
    split
    · exact parseFraction_end hrest
    · simp [parseFraction]
  · next hne =>
      have hspan := span_digits l.fraction_digits (digitsEnd_exponentText l hrest.digitsEnd)
      simp only [List.cons_append, parseFraction, hspan, hne, if_false]

theorem not_integer : ¬ (l.fractionText = [] ∧ l.exponentText = []) := by
  rintro ⟨hfraction, hexponent⟩
  rcases l.proper with h | h
  · simp [fractionText, h] at hfraction
  · obtain ⟨e, he⟩ := Option.ne_none_iff_exists'.1 h
    simp [exponentText, he] at hexponent

end DecimalLiteral

theorem intText_eq (n : Int) : intText n = minusText (n < 0) ++ Nat.toDigits 10 n.natAbs := by
  unfold intText minusText
  split
  · simp_all
  · simp_all

section Numbers

variable {φ : Type} [FloatText φ]

/-- A number is read part by part. -/
theorem parseNumber_parts (negative : Bool) (n : Nat) (fraction exponent : List Char) {rest : List Char}
    (hdigits : DigitsEnd (fraction ++ (exponent ++ rest)))
    (hfraction : parseFraction (fraction ++ (exponent ++ rest)) = .ok (fraction, exponent ++ rest))
    (hexponent : parseExponent (exponent ++ rest) = .ok (exponent, rest)) :
    parseNumber (minusText negative ++ (Nat.toDigits 10 n ++ (fraction ++ (exponent ++ rest)))) =
      (if fraction = [] ∧ exponent = [] then (readInt negative (Nat.toDigits 10 n) : Except JsonError (Json φ))
        else readFloat (minusText negative ++ (Nat.toDigits 10 n ++ (fraction ++ exponent)))).map (·, rest) := by
  have hspan := span_digits (toDigits_digits n) hdigits
  have hwell := toDigits_wellFormed n
  simp only [parseNumber, parseMinus_digits, hspan, hwell, if_false, hfraction, hexponent, bind, Except.bind]
  split
  · rfl
  · rfl

/-- An integer within the range of the reader is read as it is written. -/
theorem parseNumber_intText (n : Int) (hlow : -2 ^ 63 ≤ n) (hhigh : n < 2 ^ 64) {rest : List Char}
    (hrest : NumberEnd rest) : parseNumber (intText n ++ rest) = .ok ((.int n : Json φ), rest) := by
  have hint : (readInt (n < 0) (Nat.toDigits 10 n.natAbs) : Except JsonError (Json φ)) = .ok (.int n) := by
    unfold readInt
    simp only [Nat.ofDigitChars_ten_toDigits, decide_eq_true_eq]
    split
    · next hneg =>
        have hrange : ¬ (n.natAbs = 0 ∨ 2 ^ 63 < n.natAbs) := by omega
        have hn : -(n.natAbs : Int) = n := by omega
        rw [if_neg hrange, hn]
    · next hneg =>
        have hrange : n.natAbs < 2 ^ 64 := by omega
        have hn : (n.natAbs : Int) = n := by omega
        rw [if_pos hrange, hn]
  rw [intText_eq, List.append_assoc]
  -- neither a fraction nor an exponent follows
  refine (parseNumber_parts (n < 0) n.natAbs [] [] hrest.digitsEnd (parseFraction_end hrest)
    (parseExponent_end hrest)).trans ?_
  simp [hint, Except.map]

/-- A literal is read as the float of its text. -/
theorem parseNumber_literal (l : DecimalLiteral) {x : φ} (hx : FloatText.read l.text = some x) {rest : List Char}
    (hrest : NumberEnd rest) : parseNumber (l.text ++ rest) = .ok ((.float x : Json φ), rest) := by
  have hfloat : (readFloat l.text : Except JsonError (Json φ)) = .ok (.float x) := by
    unfold readFloat
    rw [hx]
  have hdigits := l.digitsEnd_fractionText (l.digitsEnd_exponentText hrest.digitsEnd)
  have htext : l.text ++ rest =
      minusText l.negative ++ (Nat.toDigits 10 l.whole ++ (l.fractionText ++ (l.exponentText ++ rest))) := by
    simp [DecimalLiteral.text]
  rw [htext, parseNumber_parts l.negative l.whole _ _ hdigits (l.parseFraction_fractionText hrest)
    (l.parseExponent_exponentText hrest), if_neg l.not_integer]
  exact congrArg (Except.map (·, rest)) hfloat

end Numbers

/-! ## Values are read as they are written -/

/-- A number that is read as it is written. -/
def NumberReadable {φ : Type} [FloatText φ] : Json φ → Prop
  | .int n => -2 ^ 63 ≤ n ∧ n < 2 ^ 64
  | .float x => ∃ l : DecimalLiteral, FloatText.text x = l.text ∧ FloatText.read l.text = some x
  | _ => True

mutual
/-- The value and all values in it. -/
def subvalues {φ : Type} : Json φ → List (Json φ)
  | .array vs => .array vs :: subvaluesOf vs
  | .object members => .object members :: subvaluesOfMembers members
  | v => [v]
/-- Those of a list. -/
def subvaluesOf {φ : Type} : List (Json φ) → List (Json φ)
  | [] => []
  | v :: vs => subvalues v ++ subvaluesOf vs
/-- Those of the members of an object. -/
def subvaluesOfMembers {φ : Type} : List (String × Json φ) → List (Json φ)
  | [] => []
  | (_, v) :: members => subvalues v ++ subvaluesOfMembers members
end

section Values

variable {φ : Type} [FloatText φ]

/-- Every number in the value is read as it is written. -/
def Readable (v : Json φ) : Prop := ∀ w ∈ v.subvalues, w.NumberReadable

/-- The first character of a number. -/
def NumberStart (c : Char) : Prop := c = '-' ∨ c.isDigit = true

theorem NumberStart.ne {c d : Char} (h : NumberStart c) (hd : d ≠ '-' ∧ d.isDigit = false) : c ≠ d := by
  rintro rfl
  rcases h with rfl | h
  · exact hd.1 rfl
  · rw [hd.2] at h
    cases h

theorem minusText_append (negative : Bool) (n : Nat) (rest : List Char) :
    ∃ c cs, minusText negative ++ (Nat.toDigits 10 n ++ rest) = c :: cs ∧ NumberStart c := by
  cases negative with
  | true => exact ⟨'-', _, rfl, .inl rfl⟩
  | false =>
      obtain ⟨d, ds, hds⟩ := List.exists_cons_of_ne_nil (Nat.toDigits_ne_nil (n := n) (b := 10))
      exact ⟨d, ds ++ rest, by simp [minusText, hds], .inr (toDigits_digits n d (by simp [hds]))⟩

/-- A number is read by `parseNumber`. -/
theorem parseValue_number {cs rest : List Char} {c : Char} {v : Json φ} (hc : NumberStart c)
    (h : parseNumber (c :: cs) = .ok (v, rest)) (fuel remaining : Nat) :
    parseValue (fuel + 1) remaining (c :: cs) = .ok (v, rest) := by
  have hne : ∀ d, d ≠ '-' ∧ d.isDigit = false → c ≠ d := fun d hd => hc.ne hd
  simp [parseValue, skipSpace, hne ' ' (by decide), hne '\n' (by decide), hne '\t' (by decide),
    hne '\r' (by decide), hne 'n' (by decide), hne 't' (by decide), hne 'f' (by decide), hne '"' (by decide),
    hne '[' (by decide), hne '\x7b' (by decide), h]

/-- A text that starts with a value, and with no space before it. -/
def ValueStart (cs : List Char) : Prop :=
  ∃ c rest, cs = c :: rest ∧ c ≠ ' ' ∧ c ≠ '\n' ∧ c ≠ '\t' ∧ c ≠ '\r' ∧ c ≠ ']'

theorem NumberStart.valueStart {c : Char} {cs : List Char} (h : NumberStart c) : ValueStart (c :: cs) :=
  ⟨c, cs, rfl, h.ne (by decide), h.ne (by decide), h.ne (by decide), h.ne (by decide), h.ne (by decide)⟩

theorem ValueStart.append {cs : List Char} (h : ValueStart cs) (rest : List Char) : ValueStart (cs ++ rest) := by
  obtain ⟨c, cs, rfl, hc⟩ := h
  exact ⟨c, cs ++ rest, rfl, hc⟩

theorem valueStart_dumps {v : Json φ} (hv : v.NumberReadable) : ValueStart (dumps v) := by
  unfold dumps
  split
  · exact ⟨'n', _, rfl, by decide⟩
  · exact ⟨'t', _, rfl, by decide⟩
  · exact ⟨'f', _, rfl, by decide⟩
  · next n =>
      obtain ⟨c, cs, hcs, hc⟩ := minusText_append (n < 0) n.natAbs []
      rw [List.append_nil, ← intText_eq] at hcs
      rw [hcs]
      exact hc.valueStart
  · next x =>
      obtain ⟨l, hl, -⟩ := hv
      obtain ⟨c, cs, hcs, hc⟩ := minusText_append l.negative l.whole (l.fractionText ++ l.exponentText)
      rw [hl, DecimalLiteral.text, hcs]
      exact hc.valueStart
  · exact ⟨'"', _, rfl, by decide⟩
  · exact ⟨'[', _, rfl, by decide⟩
  · exact ⟨'[', _, rfl, by decide⟩
  · exact ⟨'\x7b', _, rfl, by decide⟩
  · exact ⟨'\x7b', _, rfl, by decide⟩

theorem numberEnd_dumpsElements (vs : List (Json φ)) (rest : List Char) : NumberEnd (dumpsElements vs ++ rest) := by
  intro c hc
  cases vs with
  | nil =>
      obtain rfl : ']' = c := by simpa [dumpsElements] using hc
      decide
  | cons v vs =>
      obtain rfl : ',' = c := by simpa [dumpsElements] using hc
      decide

theorem numberEnd_dumpsMembers (members : List (String × Json φ)) (rest : List Char) :
    NumberEnd (dumpsMembers members ++ rest) := by
  intro c hc
  cases members with
  | nil =>
      obtain rfl : '\x7d' = c := by simpa [dumpsMembers] using hc
      decide
  | cons m members =>
      obtain rfl : ',' = c := by simpa [dumpsMembers] using hc
      decide

/-- The name of a member is read as it is written. -/
theorem parseName_quote (key : String) (rest : List Char) :
    parseName (quote key ++ ':' :: rest) = .ok (key, rest) := by
  have hstring := parseString_quote key (':' :: rest)
  simp only [quote, List.cons_append, List.append_assoc, List.nil_append, parseName]
  simp [skipSpace, hstring, bind, Except.bind]

/-- A value that is read as it is written, whatever follows it. -/
def RoundTrips (v : Json φ) : Prop :=
  ∀ fuel remaining rest, (dumps v).length ≤ fuel → v.depth < remaining → NumberEnd rest →
    parseValue fuel remaining (dumps v ++ rest) = .ok (v, rest)

theorem parseElements_dumps (vs : List (Json φ)) (ih : ∀ v ∈ vs, RoundTrips v) (fuel remaining : Nat)
    (rest : List Char) (hfuel : (dumpsElements vs).length ≤ fuel) (hdepth : depthOf vs < remaining) :
    parseElements fuel remaining (dumpsElements vs ++ rest) = .ok (vs, rest) := by
  induction vs generalizing fuel with
  | nil =>
      obtain ⟨fuel, rfl⟩ : ∃ f, fuel = f + 1 := ⟨fuel - 1, by simp [dumpsElements] at hfuel; omega⟩
      simp [dumpsElements, parseElements, skipSpace]
  | cons v vs ihvs =>
      simp only [dumpsElements, List.length_cons, List.length_append, List.cons_append] at hfuel
      simp only [depthOf] at hdepth
      obtain ⟨fuel, rfl⟩ : ∃ f, fuel = f + 1 := ⟨fuel - 1, by omega⟩
      have hv := ih v List.mem_cons_self fuel remaining (dumpsElements vs ++ rest) (by omega) (by omega)
        (numberEnd_dumpsElements vs rest)
      have hvs := ihvs (fun w hw => ih w (List.mem_cons_of_mem _ hw)) fuel (by omega) (by omega)
      simp [dumpsElements, parseElements, skipSpace, hv, hvs, bind, Except.bind]

theorem parseMembers_dumps (members : List (String × Json φ)) (ih : ∀ m ∈ members, RoundTrips m.2)
    (fuel remaining : Nat) (rest : List Char) (hfuel : (dumpsMembers members).length ≤ fuel)
    (hdepth : depthOfMembers members < remaining) :
    parseMembers fuel remaining (dumpsMembers members ++ rest) = .ok (members, rest) := by
  induction members generalizing fuel with
  | nil =>
      obtain ⟨fuel, rfl⟩ : ∃ f, fuel = f + 1 := ⟨fuel - 1, by simp [dumpsMembers] at hfuel; omega⟩
      simp [dumpsMembers, parseMembers, skipSpace]
  | cons m members ihm =>
      obtain ⟨key, v⟩ := m
      simp only [dumpsMembers, List.length_cons, List.length_append, List.cons_append] at hfuel
      simp only [depthOfMembers] at hdepth
      obtain ⟨fuel, rfl⟩ : ∃ f, fuel = f + 1 := ⟨fuel - 1, by omega⟩
      have hname := parseName_quote key (dumps v ++ (dumpsMembers members ++ rest))
      have hround : RoundTrips v := ih (key, v) List.mem_cons_self
      have hv := hround fuel remaining (dumpsMembers members ++ rest) (by omega) (by omega)
        (numberEnd_dumpsMembers members rest)
      have hmembers := ihm (fun w hw => ih w (List.mem_cons_of_mem _ hw)) fuel (by omega) (by omega)
      simp [dumpsMembers, parseMembers, skipSpace, hname, hv, hmembers, bind, Except.bind]

omit [FloatText φ] in
theorem mem_subvalues_self (v : Json φ) : v ∈ v.subvalues := by cases v <;> simp [subvalues]

omit [FloatText φ] in
theorem subvalues_subset_of_mem {vs : List (Json φ)} {v w : Json φ} (hv : v ∈ vs) (hw : w ∈ v.subvalues) :
    w ∈ subvaluesOf vs := by
  induction vs with
  | nil => cases hv
  | cons u vs ih =>
      rw [subvaluesOf, List.mem_append]
      rcases List.mem_cons.1 hv with rfl | hv
      · exact .inl hw
      · exact .inr (ih hv)

omit [FloatText φ] in
theorem subvalues_subset_of_mem_members {members : List (String × Json φ)} {m : String × Json φ} {w : Json φ}
    (hm : m ∈ members) (hw : w ∈ m.2.subvalues) : w ∈ subvaluesOfMembers members := by
  induction members with
  | nil => cases hm
  | cons n members ih =>
      rw [subvaluesOfMembers, List.mem_append]
      rcases List.mem_cons.1 hm with rfl | hm
      · exact .inl hw
      · exact .inr (ih hm)

theorem Readable.of_mem {vs : List (Json φ)} (h : (Json.array vs).Readable) {v : Json φ} (hv : v ∈ vs) :
    v.Readable := fun w hw => h w (by simp [subvalues, subvalues_subset_of_mem hv hw])

theorem Readable.of_mem_members {members : List (String × Json φ)} (h : (Json.object members).Readable)
    {m : String × Json φ} (hm : m ∈ members) : m.2.Readable :=
  fun w hw => h w (by simp [subvalues, subvalues_subset_of_mem_members hm hw])

theorem enterContainer_succ {remaining depth : Nat} (h : 1 + depth < remaining) :
    enterContainer remaining = .ok (remaining - 1) ∧ depth < remaining - 1 := by
  have hremaining : ¬ remaining ≤ 1 := by omega
  exact ⟨by simp [enterContainer, hremaining], by omega⟩

theorem roundTrips_array (vs : List (Json φ)) (hread : (Json.array vs).Readable) (ih : ∀ v ∈ vs, RoundTrips v) :
    RoundTrips (.array vs) := by
  intro fuel remaining rest hfuel hdepth hrest
  rw [depth] at hdepth
  obtain ⟨henter, hinner⟩ := enterContainer_succ hdepth
  cases vs with
  | nil =>
      obtain ⟨fuel, rfl⟩ : ∃ f, fuel = f + 1 := ⟨fuel - 1, by simp [dumps] at hfuel; omega⟩
      simp [dumps, parseValue, skipSpace, henter, bind, Except.bind]
  | cons v vs =>
      simp only [dumps, List.length_cons, List.length_append, List.cons_append] at hfuel
      simp only [depthOf] at hinner
      obtain ⟨fuel, rfl⟩ : ∃ f, fuel = f + 1 := ⟨fuel - 1, by omega⟩
      have hstart := valueStart_dumps (hread.of_mem List.mem_cons_self v (mem_subvalues_self v))
      have hv := ih v List.mem_cons_self fuel (remaining - 1) (dumpsElements vs ++ rest) (by omega) (by omega)
        (numberEnd_dumpsElements vs rest)
      have hvs := parseElements_dumps vs (fun w hw => ih w (List.mem_cons_of_mem _ hw)) fuel (remaining - 1) rest
        (by omega) (by omega)
      obtain ⟨c, cs, hcs, h₁, h₂, h₃, h₄, h₅⟩ := hstart.append (dumpsElements vs ++ rest)
      rw [hcs] at hv
      simp [dumps, parseValue, skipSpace, henter, hcs, h₁, h₂, h₃, h₄, h₅, hv, hvs, bind, Except.bind]

theorem roundTrips_object (members : List (String × Json φ)) (ih : ∀ m ∈ members, RoundTrips m.2) :
    RoundTrips (.object members) := by
  intro fuel remaining rest hfuel hdepth hrest
  rw [depth] at hdepth
  obtain ⟨henter, hinner⟩ := enterContainer_succ hdepth
  cases members with
  | nil =>
      obtain ⟨fuel, rfl⟩ : ∃ f, fuel = f + 1 := ⟨fuel - 1, by simp [dumps] at hfuel; omega⟩
      simp [dumps, parseValue, skipSpace, henter, bind, Except.bind]
  | cons m members =>
      obtain ⟨key, v⟩ := m
      simp only [dumps, List.length_cons, List.length_append, List.cons_append] at hfuel
      simp only [depthOfMembers] at hinner
      obtain ⟨fuel, rfl⟩ : ∃ f, fuel = f + 1 := ⟨fuel - 1, by omega⟩
      have hround : RoundTrips v := ih (key, v) List.mem_cons_self
      have hname := parseName_quote key (dumps v ++ (dumpsMembers members ++ rest))
      have hv := hround fuel (remaining - 1) (dumpsMembers members ++ rest) (by omega) (by omega)
        (numberEnd_dumpsMembers members rest)
      have hmembers := parseMembers_dumps members (fun w hw => ih w (List.mem_cons_of_mem _ hw)) fuel (remaining - 1)
        rest (by omega) (by omega)
      simp only [quote, List.cons_append, List.append_assoc, List.nil_append] at hname
      simp [dumps, quote, parseValue, skipSpace, henter, hname, hv, hmembers, bind, Except.bind]

/-- **A value is read as it is written**, whatever follows it. -/
theorem roundTrips (v : Json φ) (hv : v.Readable) : RoundTrips v := by
  induction v using Json.induct with
  | null =>
      intro fuel remaining rest hfuel hdepth hrest
      obtain ⟨fuel, rfl⟩ : ∃ f, fuel = f + 1 := ⟨fuel - 1, by simp [dumps] at hfuel; omega⟩
      simp [dumps, parseValue, skipSpace, parseWord]
  | bool b =>
      intro fuel remaining rest hfuel hdepth hrest
      obtain ⟨fuel, rfl⟩ : ∃ f, fuel = f + 1 := ⟨fuel - 1, by cases b <;> simp [dumps] at hfuel <;> omega⟩
      cases b with
      | true => simp [dumps, parseValue, skipSpace, parseWord]
      | false => simp [dumps, parseValue, skipSpace, parseWord]
  | int n =>
      intro fuel remaining rest hfuel hdepth hrest
      obtain ⟨hlow, hhigh⟩ : -2 ^ 63 ≤ n ∧ n < 2 ^ 64 := hv _ (mem_subvalues_self _)
      obtain ⟨c, cs, hcs, hc⟩ := minusText_append (n < 0) n.natAbs []
      rw [List.append_nil, ← intText_eq] at hcs
      have hnumber : parseNumber (intText n ++ rest) = .ok ((.int n : Json φ), rest) :=
        parseNumber_intText n hlow hhigh hrest
      rw [dumps, hcs] at hfuel ⊢
      rw [hcs] at hnumber
      obtain ⟨fuel, rfl⟩ : ∃ f, fuel = f + 1 := ⟨fuel - 1, by simp at hfuel; omega⟩
      exact parseValue_number hc hnumber fuel remaining
  | float x =>
      intro fuel remaining rest hfuel hdepth hrest
      obtain ⟨l, hl, hx⟩ := hv _ (mem_subvalues_self _)
      obtain ⟨c, cs, hcs, hc⟩ := minusText_append l.negative l.whole (l.fractionText ++ l.exponentText)
      have hnumber := parseNumber_literal l hx hrest
      rw [dumps, hl, DecimalLiteral.text, hcs] at hfuel ⊢
      rw [DecimalLiteral.text, hcs] at hnumber
      obtain ⟨fuel, rfl⟩ : ∃ f, fuel = f + 1 := ⟨fuel - 1, by simp at hfuel; omega⟩
      exact parseValue_number hc hnumber fuel remaining
  | string s =>
      intro fuel remaining rest hfuel hdepth hrest
      obtain ⟨fuel, rfl⟩ : ∃ f, fuel = f + 1 := ⟨fuel - 1, by simp [dumps, quote] at hfuel; omega⟩
      simp [dumps, quote, parseValue, skipSpace, parseString_quote, bind, Except.bind]
  | array vs ih => exact roundTrips_array vs hv fun v h => ih v h (hv.of_mem h)
  | object members ih => exact roundTrips_object members fun m h => ih m h (hv.of_mem_members h)

/-- **A text that was written is read.** -/
theorem parse_dumps (limit : Nat) (v : Json φ) (hv : v.Readable) (hdepth : v.depth < limit) :
    parse limit (dumps v) = .ok v := by
  have hround := roundTrips v hv ((dumps v).length + 1) limit [] (Nat.le_succ _) hdepth (by simp [NumberEnd])
  rw [List.append_nil] at hround
  simp [parse, hround, skipSpace, bind, Except.bind]

end Values

/-! ## What is written is printable -/

/-- A printable ASCII character. -/
def Printable (c : Char) : Prop := 0x20 ≤ c.toNat ∧ c.toNat ≤ 0x7e

instance (c : Char) : Decidable (Printable c) := inferInstanceAs (Decidable (0x20 ≤ c.toNat ∧ c.toNat ≤ 0x7e))

theorem printable_of_all {l : List Char} (h : (l.all fun c => decide (Printable c)) = true) :
    ∀ c ∈ l, Printable c :=
  fun c hc => of_decide_eq_true (List.all_eq_true.1 h c hc)

theorem printable_of_isDigit {c : Char} (h : c.isDigit = true) : Printable c := by
  have hrange := Char.isDigit_iff_toNat.1 h
  simp only [Char.reduceToNat] at hrange
  exact ⟨by omega, by omega⟩

theorem printable_digitChar : ∀ d < 16, Printable d.digitChar := by decide

theorem printable_unicodeEscape (n : Nat) : ∀ c ∈ unicodeEscape n, Printable c := by
  have hdigit : ∀ d, Printable (d % 16).digitChar := fun d => printable_digitChar _ (Nat.mod_lt _ (by decide))
  simp only [unicodeEscape, List.forall_mem_cons, List.not_mem_nil, false_imp_iff, implies_true, and_true]
  exact ⟨by decide, by decide, hdigit _, hdigit _, hdigit _, hdigit _⟩

theorem printable_escapeChar (c : Char) : ∀ d ∈ escapeChar c, Printable d := by
  have hform := escapeForm_escapeChar c
  generalize escapeChar c = written at hform ⊢
  cases hform with
  | simple hescape hunicode hprintable =>
      exact List.forall_mem_cons.2 ⟨by decide, List.forall_mem_singleton.2 hprintable⟩
  | itself hquote hbackslash hprintable => exact List.forall_mem_singleton.2 hprintable
  | unit h => exact printable_unicodeEscape _
  | pair h => exact List.forall_mem_append.2 ⟨printable_unicodeEscape _, printable_unicodeEscape _⟩

theorem printable_quote (s : String) : ∀ c ∈ quote s, Printable c := by
  have hchars : ∀ c ∈ s.toList.flatMap escapeChar, Printable c := by
    intro c hc
    obtain ⟨d, -, hd⟩ := List.mem_flatMap.1 hc
    exact printable_escapeChar d c hd
  intro c hc
  simp only [quote, List.cons_append, List.mem_cons, List.mem_append, List.not_mem_nil, or_false] at hc
  rcases hc with rfl | hc | rfl
  · decide
  · exact hchars c hc
  · decide

theorem printable_minusText (negative : Bool) : ∀ c ∈ minusText negative, Printable c := by
  cases negative with
  | false => exact printable_of_all (by decide)
  | true => exact printable_of_all (by decide)

theorem printable_toDigits (n : Nat) : ∀ c ∈ Nat.toDigits 10 n, Printable c :=
  fun c hc => printable_of_isDigit (toDigits_digits n c hc)

theorem DecimalLiteral.printable_text (l : DecimalLiteral) : ∀ c ∈ l.text, Printable c := by
  have hfraction : ∀ c ∈ l.fractionText, Printable c := by
    unfold fractionText
    split
    · simp
    · exact List.forall_mem_cons.2 ⟨by decide, fun c hc => printable_of_isDigit (l.fraction_digits c hc)⟩
  have hexponent : ∀ c ∈ l.exponentText, Printable c := by
    unfold exponentText
    split
    · simp
    · next negative digits he =>
        have hdigits : ∀ c ∈ digits, c.isDigit = true := (l.exponent_digits _ he).2
        refine List.forall_mem_cons.2 ⟨by decide, List.forall_mem_cons.2 ⟨?_, ?_⟩⟩
        · cases negative <;> decide
        · exact fun c hc => printable_of_isDigit (hdigits c hc)
  simp only [text, List.forall_mem_append]
  exact ⟨printable_minusText _, printable_toDigits _, hfraction, hexponent⟩

section PrintableText

variable {φ : Type} [FloatText φ]

theorem printable_dumpsElements (vs : List (Json φ)) (ih : ∀ v ∈ vs, ∀ c ∈ dumps v, Printable c) :
    ∀ c ∈ dumpsElements vs, Printable c := by
  induction vs with
  | nil =>
      simp only [dumpsElements]
      exact printable_of_all (by decide)
  | cons v vs ihvs =>
      simp only [dumpsElements, List.cons_append, List.forall_mem_cons, List.forall_mem_append]
      exact ⟨by decide, ih v List.mem_cons_self, ihvs fun w hw => ih w (List.mem_cons_of_mem _ hw)⟩

theorem printable_dumpsMembers (members : List (String × Json φ)) (ih : ∀ m ∈ members, ∀ c ∈ dumps m.2, Printable c) :
    ∀ c ∈ dumpsMembers members, Printable c := by
  induction members with
  | nil =>
      simp only [dumpsMembers]
      exact printable_of_all (by decide)
  | cons m members ihm =>
      simp only [dumpsMembers, List.cons_append, List.append_assoc, List.forall_mem_cons, List.forall_mem_append]
      exact ⟨by decide, printable_quote _, by decide, ih m List.mem_cons_self,
        ihm fun w hw => ih w (List.mem_cons_of_mem _ hw)⟩

/-- **The text of a value is printable.** -/
theorem printable_dumps (v : Json φ) (hv : v.Readable) : ∀ c ∈ dumps v, Printable c := by
  induction v using Json.induct with
  | null =>
      simp only [dumps]
      exact printable_of_all (by decide)
  | bool b =>
      cases b with
      | false =>
          simp only [dumps]
          exact printable_of_all (by decide)
      | true =>
          simp only [dumps]
          exact printable_of_all (by decide)
  | int n =>
      rw [dumps, intText_eq]
      exact List.forall_mem_append.2 ⟨printable_minusText _, printable_toDigits _⟩
  | float x =>
      obtain ⟨l, hl, -⟩ := hv _ (mem_subvalues_self _)
      rw [dumps, hl]
      exact l.printable_text
  | string s => exact printable_quote s
  | array vs ih =>
      have hvs : ∀ v ∈ vs, ∀ c ∈ dumps v, Printable c := fun v h => ih v h (hv.of_mem h)
      cases vs with
      | nil =>
          simp only [dumps]
          exact printable_of_all (by decide)
      | cons v vs =>
          simp only [dumps, List.cons_append, List.forall_mem_cons, List.forall_mem_append]
          exact ⟨by decide, hvs v List.mem_cons_self,
            printable_dumpsElements vs fun w hw => hvs w (List.mem_cons_of_mem _ hw)⟩
  | object members ih =>
      have hmembers : ∀ m ∈ members, ∀ c ∈ dumps m.2, Printable c := fun m h => ih m h (hv.of_mem_members h)
      cases members with
      | nil =>
          simp only [dumps]
          exact printable_of_all (by decide)
      | cons m members =>
          simp only [dumps, List.cons_append, List.append_assoc, List.forall_mem_cons, List.forall_mem_append]
          exact ⟨by decide, printable_quote _, by decide, hmembers m List.mem_cons_self,
            printable_dumpsMembers members fun w hw => hmembers w (List.mem_cons_of_mem _ hw)⟩

end PrintableText

end Json

end MSearchDB.Lib
