import QtWebApp.Base.Number
import QtWebApp.Base.Search

/-!
# QtWebApp.Base.Latin1

Functions of `QString` on texts that have only characters of Latin-1, which are byte strings here.

They differ from the functions of byte strings in what counts as white space, and in that a NUL is a
character like any other.
-/

namespace QtWebApp

namespace Latin1

open Bytes

/-- `QChar::isSpace`. -/
def isSpace (c : UInt8) : Bool := Bytes.isSpace c || c == 0x85 || c == 0xA0

/-- `QString::trimmed`. -/
def trimmed (s : Bytes) : Bytes := (s.dropWhile isSpace).rdropWhile isSpace

/-- A character in lower case. -/
def lowerChar (c : UInt8) : UInt8 :=
  if (65 ≤ c ∧ c ≤ 90) ∨ (0xC0 ≤ c ∧ c ≤ 0xDE ∧ c ≠ 0xD7) then c + 32 else c

/-- `QString::toLower`. -/
def toLower (s : Bytes) : Bytes := s.map lowerChar

/-- `QString::split`, with `SkipEmptyParts`. -/
def split (sep s : Bytes) : List Bytes := (Search.cut sep s).filter (· ≠ [])

/-- `QString::toInt(&ok)`. -/
def toIntOk (s : Bytes) : Option Int := (signed 10 (trimmed s)).filter fun n => decide (IsInt n)

/-- `QString::toUInt(&ok)`: no minus sign. -/
def toUIntOk (s : Bytes) : Option Int :=
  (signed 10 (trimmed s)).filter fun n => (trimmed s).head? ≠ some 45 && decide (n < 4294967296)

/-! ### Splitting

The parts of a text have no characters that the text has not. -/

/-- A text in which the separator does not occur is one part. -/
theorem split_of_none {sep s : Bytes} (h : Search.find sep s = none) (hs : s ≠ []) :
    split sep s = [s] := by
  rw [split, Search.cut_of_none h, List.filter_cons_of_pos (by simpa using hs), List.filter_nil]

/-- A part in front of the first separator. -/
theorem split_append {o : UInt8} {p x : Bytes} (hx : o ∉ x) (hne : x ≠ []) (y : Bytes) :
    split (o :: p) (x ++ (o :: p) ++ y) = x :: split (o :: p) y := by
  have hfind : Search.find (o :: p) (x ++ (o :: p) ++ y) = some x.length := by
    rw [List.append_assoc, Search.find_unmarked hx, Search.find_here, Option.map_some, Nat.zero_add]
  rw [split, Search.cut_of_some (List.cons_ne_nil o p) hfind, List.append_assoc,
    List.take_left' rfl, ← List.append_assoc, List.drop_left' (by rw [List.length_append]),
    List.filter_cons_of_pos (by simpa using hne)]
  rfl

theorem mem_of_mem_cutUpTo {sep part : Bytes} {c : UInt8} (n : Nat) {s : Bytes}
    (h : part ∈ Search.cutUpTo sep n s) (hc : c ∈ part) : c ∈ s := by
  induction n generalizing s with
  | zero =>
      rw [Search.cutUpTo, List.mem_singleton] at h
      exact h ▸ hc
  | succ n ih =>
      rw [Search.cutUpTo] at h
      split at h
      · exact List.mem_singleton.mp h ▸ hc
      · rcases List.mem_cons.mp h with rfl | h
        · exact List.mem_of_mem_take hc
        · exact List.mem_of_mem_drop (ih h)

/-- The parts consist of characters of the text. -/
theorem mem_of_mem_split {sep s part : Bytes} {c : UInt8} (h : part ∈ split sep s) (hc : c ∈ part) :
    c ∈ s :=
  mem_of_mem_cutUpTo _ (List.mem_of_mem_filter h) hc

theorem mem_of_mem_trimmed {s : Bytes} {c : UInt8} (h : c ∈ trimmed s) : c ∈ s :=
  (List.dropWhile_sublist _).subset ((List.rdropWhile_prefix _ _).subset h)

end Latin1

end QtWebApp
