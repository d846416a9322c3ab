import Mathlib.Data.List.DropRight
import Mathlib.Data.List.Infix
import QtWebApp.Base.Search

/-!
# QtWebApp.Base.Bytes

Byte strings, the data type every layer of the server works on.

A byte string is a `List UInt8`. The operations are the ones of `QByteArray`
under their Qt names: positions are `Int`s, a search that fails answers `-1`, and
`left`/`mid` clip what lies outside, so that the arithmetic the callers do on
positions can be written as they write it.

Reading from a buffered device (`readLine`, `read`) is here too, since a device is
to its reader just the bytes that are waiting in it.

What a text looks like is often said of the byte at its front or at its end. So `head?` and
`getLast?` are used for that, and no case of an empty text is left over.
-/

namespace QtWebApp

/-- A byte string (`QByteArray`). -/
abbrev Bytes := List UInt8

instance : LawfulBEq Bytes := List.instLawfulBEq

/-- The bytes of an ASCII text. -/
def ascii (s : String) : Bytes := s.toList.map fun c => UInt8.ofNat c.toNat

/-- Carriage return. -/
abbrev CR : UInt8 := 13
/-- Line feed. -/
abbrev LF : UInt8 := 10
/-- Blank. -/
abbrev SP : UInt8 := 32
/-- The line end of HTTP. -/
abbrev CRLF : Bytes := [CR, LF]

namespace Bytes

/-- What holds of every byte of a text is looked up in the text, not among all bytes. -/
instance decidableForallMem (b : Bytes) (p : UInt8 → Prop) [DecidablePred p] :
    Decidable (∀ c ∈ b, p c) := List.decidableBAll p b

instance decidableForallMemOption (o : Option UInt8) (p : UInt8 → Prop) [DecidablePred p] :
    Decidable (∀ c ∈ o, p c) := Option.decidableForallMem o

/-! ### White space

White space at the two ends of a line is not part of it for the server, nor for the one that reads
what the server has sent. -/

/-- White space of the C locale: blank, tab, line feed, vertical tab, form feed, return. -/
def isSpace (c : UInt8) : Bool := c == 32 || (9 ≤ c && c ≤ 13)

/-- `QByteArray::trimmed`: without the white space at both ends. -/
def trimmed (b : Bytes) : Bytes := (b.dropWhile isSpace).rdropWhile isSpace

/-- A text that `trimmed` leaves as it is. -/
def Trimmed (b : Bytes) : Prop := (∀ c ∈ b.head?, isSpace c = false) ∧
    ∀ c ∈ b.getLast?, isSpace c = false

instance (b : Bytes) : Decidable (Trimmed b) := by unfold Trimmed; infer_instance

theorem dropWhile_eq_nil {p : UInt8 → Bool} {l : Bytes} (h : ∀ c ∈ l, p c = true) :
    l.dropWhile p = [] :=
  List.dropWhile_eq_nil_iff.mpr h

theorem dropWhile_of_head {p : UInt8 → Bool} {l : Bytes} (h : ∀ c ∈ l.head?, p c = false) :
    l.dropWhile p = l := by
  cases l with
  | nil => rfl
  | cons c cs => simp [h c (by simp)]

theorem rdropWhile_of_getLast {p : UInt8 → Bool} {l : Bytes}
    (h : ∀ c ∈ l.getLast?, p c = false) : l.rdropWhile p = l := by
  unfold List.rdropWhile
  rw [dropWhile_of_head (by simpa [List.head?_reverse] using h), List.reverse_reverse]

/-- White space on both sides of a trimmed text is what `trimmed` cuts off. -/
theorem trimmed_pad {l x r : Bytes} (hl : ∀ c ∈ l, isSpace c = true) (hx : Trimmed x)
    (hr : ∀ c ∈ r, isSpace c = true) : trimmed (l ++ x ++ r) = x := by
  have hleft : (l ++ x ++ r).dropWhile isSpace = (x ++ r).dropWhile isSpace := by
    rw [List.append_assoc, List.dropWhile_append, dropWhile_eq_nil hl]
    rfl
  have hright : (x ++ r).rdropWhile isSpace = x := by
    unfold List.rdropWhile
    rw [List.reverse_append, List.dropWhile_append,
      dropWhile_eq_nil (by simpa using hr)]
    simpa [List.rdropWhile] using rdropWhile_of_getLast hx.2
  unfold trimmed
  rw [hleft]
  cases x with
  | nil => rw [List.nil_append, dropWhile_eq_nil hr]; rfl
  | cons c cs =>
      rw [dropWhile_of_head (l := c :: cs ++ r) (by simpa using hx.1 c (by simp)), hright]

/-- A trimmed text stays as it is. -/
theorem trimmed_eq_self {x : Bytes} (hx : Trimmed x) : trimmed x = x := by
  simpa using trimmed_pad (l := []) (r := []) (by simp) hx (by simp)

/-- A text that does not start with white space keeps its first byte. -/
theorem trimmed_cons {c : UInt8} (hc : isSpace c = false) (b : Bytes) :
    trimmed (c :: b) = c :: b.rdropWhile isSpace := by
  have hleft : (c :: b).dropWhile isSpace = c :: b := dropWhile_of_head (by simpa using hc)
  rw [trimmed, hleft, List.rdropWhile, List.rdropWhile, List.reverse_cons, List.dropWhile_append]
  split
  · next hall =>
      rw [List.isEmpty_iff] at hall
      simp [hall, hc]
  · simp

/-- White space at the end makes no difference. -/
theorem trimmed_append_space {b s : Bytes} (hs : ∀ c ∈ s, isSpace c = true) :
    trimmed (b ++ s) = trimmed b := by
  have hright : ∀ y : Bytes, (y ++ s).rdropWhile isSpace = y.rdropWhile isSpace := by
    intro y
    unfold List.rdropWhile
    rw [List.reverse_append, List.dropWhile_append, dropWhile_eq_nil (by simpa using hs)]
    rfl
  unfold trimmed
  rw [List.dropWhile_append]
  split
  · next h =>
      rw [List.isEmpty_iff] at h
      rw [h, dropWhile_eq_nil hs]
  · exact hright _

/-- Text free of white space is trimmed. -/
theorem trimmed_of_no_space {b : Bytes} (h : ∀ c ∈ b, isSpace c = false) : Trimmed b :=
  ⟨fun c hc => h c (List.mem_of_mem_head? hc), fun c hc => h c (List.mem_of_mem_getLast? hc)⟩

/-! ### Parts of a byte string

Positions may be negative, as they are in Qt when a search has failed. -/

/-- `QByteArray::left`: the first `n` bytes, none when `n` is negative. -/
def left (b : Bytes) (n : Int) : Bytes := b.take n.toNat

/-- `QByteArray::mid` to the end of the text, for a position that is not negative. -/
def mid (b : Bytes) (pos : Int) : Bytes := b.drop pos.toNat

/-- `QByteArray::mid` with a length: what is there of the `len` bytes from `pos` on. -/
def midLen (b : Bytes) (pos len : Int) : Bytes := (b.drop pos.toNat).take len.toNat

/-- `QByteArray::indexOf`: the first occurrence of `pat` at or after `start`, `-1` if there
is none. -/
def indexOf (b pat : Bytes) (start : Int) : Int :=
  match Search.find pat (b.drop start.toNat) with
  | some i => start.toNat + i
  | none => -1

/-- `QByteArray::startsWith`. -/
def startsWith (b pat : Bytes) : Bool := pat.isPrefixOf b

/-- `QByteArray::endsWith`. -/
def endsWith (b pat : Bytes) : Bool := pat.isSuffixOf b

/-- `QByteArray::contains` for a text. -/
def containsText (b pat : Bytes) : Bool := (Search.find pat b).isSome

theorem containsText_iff {b pat : Bytes} : containsText b pat = true ↔ pat <:+: b := by
  rw [containsText, Option.isSome_iff_ne_none, ne_eq, Search.find_eq_none, not_not]

theorem startsWith_iff {b pat : Bytes} : startsWith b pat = true ↔ pat <+: b :=
  List.isPrefixOf_iff_prefix

/-- A text is not found where a byte stands that it does not have. -/
theorem infix_of_infix_concat {pat x : Bytes} {c : UInt8} (hc : c ∉ pat) (hne : pat ≠ [])
    (h : pat <:+: x ++ [c]) : pat <:+: x := by
  rcases List.infix_concat_iff.mp h with hend | hin
  · rcases List.suffix_concat_iff.mp hend with hnil | ⟨t, ht, -⟩
    · exact absurd hnil hne
    · exact absurd (by simp [ht]) hc
  · exact hin

/-! ### Case

Names of header fields are compared in lower case, which for bytes means Latin-1. Values are
compared as texts, and there Unicode knows further letters that fold to ASCII ones. -/

/-- One byte of `QByteArray::toLower`: the capital letters of Latin-1. -/
def lowerByte (c : UInt8) : UInt8 :=
  if (65 ≤ c && c ≤ 90) || (192 ≤ c && c ≤ 222 && c != 215) then c + 32 else c

/-- `QByteArray::toLower`. -/
def toLower (b : Bytes) : Bytes := b.map lowerByte

/-- What Unicode case folding makes of a text, as far as a comparison with a lower case
ASCII word can see it: capital letters, and the two characters outside ASCII that fold into
it, the long s (`C5 BF`) and the Kelvin sign (`E2 84 AA`). -/
def foldCase : Bytes → Bytes
  | 0xC5 :: 0xBF :: cs => 115 :: foldCase cs
  | 0xE2 :: 0x84 :: 0xAA :: cs => 107 :: foldCase cs
  | c :: cs => (if 65 ≤ c && c ≤ 90 then c + 32 else c) :: foldCase cs
  | [] => []

/-- `QString::compare(b, word, Qt::CaseInsensitive) == 0` for a lower case ASCII word: the bytes
are taken as UTF-8 up to the first NUL, without a byte order mark. -/
def equalsFolded (b word : Bytes) : Bool :=
  let text := b.takeWhile (· != 0)
  foldCase (if startsWith text [0xEF, 0xBB, 0xBF] then text.drop 3 else text) == word

/-! ### Reading from a device

A read takes what is there and does not wait for more. So a line may be returned in pieces, the last
of which ends with the line feed. -/

/-- At most `n` bytes of the buffer, up to and including the first line feed, and the rest. -/
def lineUpTo : Nat → Bytes → Bytes × Bytes
  | 0, b => ([], b)
  | _ + 1, [] => ([], [])
  | n + 1, c :: cs => if c = LF then ([c], cs) else (c :: (lineUpTo n cs).1, (lineUpTo n cs).2)

/-- `QIODevice::readLine(maxSize)` on buffered data: nothing for a negative size, and the
size 0 means no limit but the size of a `QByteArray`. -/
def readLine (b : Bytes) (maxSize : Int) : Bytes × Bytes :=
  if maxSize < 0 then ([], b)
  else if maxSize = 0 then lineUpTo 2147483647 b
  else lineUpTo maxSize.toNat b

/-- `QIODevice::read(maxSize)` on buffered data: nothing for a negative size. -/
def readData (b : Bytes) (maxSize : Int) : Bytes × Bytes :=
  (b.take maxSize.toNat, b.drop maxSize.toNat)

@[simp] theorem lineUpTo_append (n : Nat) (b : Bytes) :
    (lineUpTo n b).1 ++ (lineUpTo n b).2 = b := by
  fun_induction lineUpTo n b with
  | case1 b => rfl
  | case2 n => rfl
  | case3 n cs => rfl
  | case4 n c cs hc ih => simp [ih]

theorem lineUpTo_length_le (n : Nat) (b : Bytes) : (lineUpTo n b).1.length ≤ n := by
  fun_induction lineUpTo n b with
  | case1 b => simp
  | case2 n => simp
  | case3 n cs => simp
  | case4 n c cs hc ih => simpa using ih

theorem lineUpTo_ne_nil {n : Nat} {b : Bytes} (hb : b ≠ []) (hn : 0 < n) :
    (lineUpTo n b).1 ≠ [] := by
  obtain ⟨c, cs, rfl⟩ := List.exists_cons_of_ne_nil hb
  obtain ⟨m, rfl⟩ : ∃ m, n = m + 1 := ⟨n - 1, by omega⟩
  unfold lineUpTo
  split <;> simp

/-- A line that fits is read as a whole. -/
theorem lineUpTo_line {x rest : Bytes} (hx : LF ∉ x) {n : Nat} (hn : x.length < n) :
    lineUpTo n (x ++ LF :: rest) = (x ++ [LF], rest) := by
  induction x generalizing n with
  | nil =>
      obtain ⟨m, rfl⟩ : ∃ m, n = m + 1 := ⟨n - 1, by simp at hn; omega⟩
      simp [lineUpTo]
  | cons c cs ih =>
      obtain ⟨m, rfl⟩ : ∃ m, n = m + 1 := ⟨n - 1, by simp at hn; omega⟩
      have hc : c ≠ LF := fun e => hx (by simp [e])
      have hcs : LF ∉ cs := fun e => hx (by simp [e])
      simp [lineUpTo, hc, ih hcs (n := m) (by simpa using hn)]

/-- A read does not go beyond a line feed. -/
theorem lineUpTo_stop (n : Nat) (x rest : Bytes) :
    lineUpTo n (x ++ LF :: rest) =
      ((lineUpTo n (x ++ [LF])).1, (lineUpTo n (x ++ [LF])).2 ++ rest) := by
  induction x generalizing n with
  | nil => cases n <;> simp [lineUpTo]
  | cons c x ih =>
      cases n with
      | zero => simp [lineUpTo]
      | succ m =>
          by_cases hc : c = LF
          · simp [lineUpTo, hc]
          · simp [lineUpTo, hc, ih]

/-- Without a line feed in reach the read ends with the limit or with the data. -/
theorem lineUpTo_noLF {n : Nat} {b : Bytes} (h : LF ∉ b.take n) :
    lineUpTo n b = (b.take n, b.drop n) := by
  induction b generalizing n with
  | nil => cases n <;> simp [lineUpTo]
  | cons c cs ih =>
      cases n with
      | zero => simp [lineUpTo]
      | succ m =>
          have hc : c ≠ LF := fun e => h (by simp [e])
          have hcs : LF ∉ cs.take m := fun e => h (by simp [e])
          simp [lineUpTo, hc, ih hcs]

/-- What a line read returns: a whole line, or as many bytes without a line feed as the limit
and the data allow. -/
theorem lineUpTo_cases (n : Nat) (b : Bytes) :
    (∃ x, LF ∉ x ∧ (lineUpTo n b).1 = x ++ [LF] ∧ x.length < n) ∨
    (LF ∉ (lineUpTo n b).1 ∧ ((lineUpTo n b).1.length = n ∨ (lineUpTo n b).2 = [])) := by
  fun_induction lineUpTo n b with
  | case1 b => exact .inr (by simp)
  | case2 n => exact .inr (by simp)
  | case3 n cs => exact .inl ⟨[], by simp, by simp, by simp⟩
  | case4 n c cs hc ih =>
      rcases ih with ⟨x, hx, he, hl⟩ | ⟨hx, hl⟩
      · exact .inl ⟨c :: x, by simpa [hx] using fun e => hc e.symm, by simp [he], by simpa using hl⟩
      · exact .inr ⟨by simpa [hx] using fun e => hc e.symm, by simpa using hl⟩

/-- A line read takes from the front. -/
@[simp] theorem readLine_append (b : Bytes) (n : Int) :
    (readLine b n).1 ++ (readLine b n).2 = b := by
  unfold readLine
  split
  · rfl
  · split <;> simp

theorem readLine_neg {b : Bytes} {n : Int} (h : n < 0) : readLine b n = ([], b) := if_pos h

theorem readLine_pos {b : Bytes} {n : Int} (h : 0 < n) : readLine b n = lineUpTo n.toNat b := by
  unfold readLine
  rw [if_neg (by omega), if_neg (by omega)]

theorem readLine_length_le (b : Bytes) {n : Int} (h : n ≤ 2147483647) :
    ((readLine b n).1.length : Int) ≤ 2147483647 := by
  unfold readLine
  split
  · simp
  · split
    · have := lineUpTo_length_le 2147483647 b
      omega
    · have := lineUpTo_length_le n.toNat b
      omega

end Bytes

end QtWebApp
