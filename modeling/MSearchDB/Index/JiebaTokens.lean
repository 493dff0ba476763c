import MSearchDB.Lib.Text

/-!
# The tokens of the `cjk` analyzer

`JiebaTokenizer` of `crates/index/src/analyzer.rs`. The segmenter gives each word with the numbers
of the characters between which it stands; Tantivy wants the offsets of bytes. The offset of a
character is looked up in the list of `char_indices`, and a number beyond it is the end of the
text.

The words may overlap, since the segmenter is run in its search mode. The stream gives all of
them, in the order of the segmenter, and the bytes of each token are its word
(`jieba_stream_spec`).
-/

set_option autoImplicit false

namespace MSearchDB.Index

open MSearchDB.Lib

/-- `jieba_rs::Token`. -/
structure JiebaToken where
  word : String
  start : Nat
  stop : Nat
  deriving DecidableEq, Repr

/-- `Jieba::tokenize` in the search mode, with the hidden Markov model. -/
class JiebaSegmenter where
  tokenize : String → List JiebaToken

/-- `tantivy::tokenizer::Token`, whose `position_length` is always 1 here. -/
structure Token where
  offsetFrom : Nat
  offsetTo : Nat
  position : Nat
  text : String
  deriving DecidableEq, Repr

/-- `Token::default`. -/
def Token.default : Token := ⟨0, 0, 2 ^ 64 - 1, ""⟩

/-- `JiebaTokenStream`. -/
structure JiebaTokenStream where
  tokens : List (String × Nat × Nat)
  index : Nat
  token : Token
  deriving DecidableEq, Repr

/-- `JiebaTokenStream::advance`. -/
def JiebaTokenStream.advance (s : JiebaTokenStream) : JiebaTokenStream × Bool :=
  match s.tokens[s.index]? with
  | some (word, start, stop) => ({ s with token := ⟨start, stop, s.index, word⟩, index := s.index + 1 }, true)
  | none => (s, false)

/-- The stream after a number of calls of `advance`. -/
def JiebaTokenStream.advanced (s : JiebaTokenStream) : Nat → JiebaTokenStream
  | 0 => s
  | n + 1 => (s.advanced n).advance.1

section

variable [JiebaSegmenter]

/-- `JiebaTokenizer::token_stream`. -/
def jiebaTokenStream (text : String) : JiebaTokenStream :=
  let charByteOffsets := charOffsets 0 text.toList
  let textByteLen := text.utf8ByteSize
  let words := (JiebaSegmenter.tokenize text).map fun t =>
    (t.word, charByteOffsets[t.start]?.getD textByteLen, charByteOffsets[t.stop]?.getD textByteLen)
  ⟨words, 0, Token.default⟩

/-! ## Offsets -/

omit [JiebaSegmenter] in
theorem utf8ByteSize_eq (text : String) : text.utf8ByteSize = utf8Len text.toList := by
  have hlist : ∀ cs : List Char, (String.ofList cs).utf8ByteSize = utf8Len cs := by
    intro cs
    induction cs with
    | nil => rfl
    | cons c cs ih =>
        rw [← List.singleton_append, String.ofList_append, String.utf8ByteSize_append, ih, utf8Len_append,
          ← String.singleton_eq_ofList, String.utf8ByteSize_singleton]
        rfl
  rw [← hlist, String.ofList_toList]

omit [JiebaSegmenter] in
/-- The offset that is looked up for the number of a character. -/
theorem offset_eq (text : String) (i : Nat) :
    (charOffsets 0 text.toList)[i]?.getD text.utf8ByteSize = utf8Len (text.toList.take i) := by
  have h := getElem?_charOffsets text.toList 0 i
  rwa [Nat.zero_add, Nat.zero_add, ← utf8ByteSize_eq] at h

/-! ## The stream -/

omit [JiebaSegmenter] in
theorem advance_of_getElem? {s : JiebaTokenStream} {word : String} {start stop : Nat}
    (h : s.tokens[s.index]? = some (word, start, stop)) :
    s.advance = ({ s with token := ⟨start, stop, s.index, word⟩, index := s.index + 1 }, true) := by
  rw [JiebaTokenStream.advance, h]

omit [JiebaSegmenter] in
/-- The words stay, and the index counts the calls up to their number. -/
theorem advanced_eq (s : JiebaTokenStream) (h : s.index = 0) (n : Nat) :
    (s.advanced n).tokens = s.tokens ∧ (s.advanced n).index = min n s.tokens.length := by
  induction n with
  | zero => exact ⟨rfl, by rw [JiebaTokenStream.advanced, h, Nat.zero_min]⟩
  | succ n ih =>
      obtain ⟨htokens, hindex⟩ := ih
      rw [JiebaTokenStream.advanced, JiebaTokenStream.advance]
      split
      next hsome =>
        -- there is a word at the index, so that the words are not used up
        have hlt := (List.getElem?_eq_some_iff.1 hsome).1
        rw [htokens] at hlt
        refine ⟨htokens, ?_⟩
        show (s.advanced n).index + 1 = _
        omega
      next hnone =>
        have hle := List.getElem?_eq_none_iff.1 hnone
        rw [htokens] at hle
        refine ⟨htokens, ?_⟩
        show (s.advanced n).index = _
        omega

/-- **The tokens of a text.** Let the segmenter give words that are the characters between their two
numbers. Then the first calls of `advance`, one for each word, return `true`, and each leaves a token
with the word, its place among the words as position, and offsets whose bytes in the text are the
word. Every later call returns `false` and changes nothing. -/
theorem jieba_stream_spec (text : String)
    (hwords : ∀ t ∈ JiebaSegmenter.tokenize text,
      t.start ≤ t.stop ∧ t.word.toList = (text.toList.drop t.start).take (t.stop - t.start))
    (n : Nat) :
    let s := (jiebaTokenStream text).advanced n
    let words := JiebaSegmenter.tokenize text
    (∀ t, words[n]? = some t → s.advance.2 = true ∧ s.advance.1.token.text = t.word ∧
        s.advance.1.token.position = n ∧
        byteSlice text.toList s.advance.1.token.offsetFrom s.advance.1.token.offsetTo = some t.word.toList) ∧
      (words.length ≤ n → s.advance = (s, false)) := by
  intro s words
  obtain ⟨htokens, hindex⟩ := advanced_eq (jiebaTokenStream text) rfl n
  have hlength : (jiebaTokenStream text).tokens.length = words.length := List.length_map ..
  constructor
  · intro t ht
    have hlt : n < words.length := (List.getElem?_eq_some_iff.1 ht).1
    obtain ⟨hle, hword⟩ := hwords t (List.mem_of_getElem? ht)
    have hn : s.index = n := by
      rw [hindex, hlength, Nat.min_eq_left (Nat.le_of_lt hlt)]
    have hentry : s.tokens[s.index]? =
        some (t.word, utf8Len (text.toList.take t.start), utf8Len (text.toList.take t.stop)) := by
      rw [hn, htokens, jiebaTokenStream]
      simp only [List.getElem?_map]
      rw [ht, Option.map_some, offset_eq, offset_eq]
    rw [advance_of_getElem? hentry, hword]
    exact ⟨rfl, rfl, hn, byteSlice_take text.toList hle⟩
  · intro hle
    have hnone : s.tokens[s.index]? = none := by
      rw [List.getElem?_eq_none_iff, htokens, hindex, hlength, Nat.min_eq_right hle]
    rw [JiebaTokenStream.advance, hnone]

end

/-- The segmentation of one name, with its two overlapping parts first. -/
@[reducible]
def pekingUniversity : JiebaSegmenter where
  tokenize text := if text = "北京大学" then [⟨"北京", 0, 2⟩, ⟨"大学", 2, 4⟩, ⟨"北京大学", 0, 4⟩] else []

/-- Its second word is the bytes 6 to 12. -/
theorem jieba_stream_spec_second :
    letI : JiebaSegmenter := pekingUniversity
    let s := (jiebaTokenStream "北京大学").advanced 1
    s.advance.1.token = ⟨6, 12, 1, "大学"⟩ ∧
      byteSlice "北京大学".toList s.advance.1.token.offsetFrom s.advance.1.token.offsetTo = some "大学".toList := by
  let _ : JiebaSegmenter := pekingUniversity
  intro s
  have hwords : ∀ t ∈ JiebaSegmenter.tokenize "北京大学",
      t.start ≤ t.stop ∧ t.word.toList = ("北京大学".toList.drop t.start).take (t.stop - t.start) := by
    decide
  exact ⟨by decide, ((jieba_stream_spec "北京大学" hwords 1).1 ⟨"大学", 2, 4⟩ (by decide)).2.2.2⟩

end MSearchDB.Index
