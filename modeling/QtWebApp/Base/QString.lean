import QtWebApp.Base.Number
import QtWebApp.Base.Search

/-!
# QtWebApp.Base.QString

Texts of UTF-16 code units, and the operations the template engine does on them.

As with byte strings, positions are `Int`s and a search that fails answers `-1`.

A search is moved to the rest of a text by `indexOf_length`, and a replacement in the middle of a
text is `replaceAt_middle`; with these two the positions disappear from a proof.
-/

namespace QtWebApp

/-- A text (`QString`). -/
abbrev QString := List UInt16

namespace QString

/-- The code units of an ASCII text. -/
def ofAscii (s : String) : QString := s.toList.map fun c => UInt16.ofNat c.toNat

/-- `QString::indexOf`: the first occurrence of `pat` at or after `start`, `-1` if there is none. -/
def indexOf (s pat : QString) (start : Int) : Int :=
  match Search.find pat (s.drop start.toNat) with
  | some i => start.toNat + i
  | none => -1

/-- `QString::mid`, for a position that is not negative. A negative length means everything that
is there. -/
def mid (s : QString) (pos len : Int) : QString :=
  if len < 0 then s.drop pos.toNat else (s.drop pos.toNat).take len.toNat

/-- `QString::replace` with a position and a length. -/
def replaceAt (s : QString) (pos len : Int) (after : QString) : QString :=
  s.take pos.toNat ++ after ++ s.drop (pos + len).toNat

/-- `QString::replace` with a text: every occurrence. -/
def replace (s before after : QString) : QString := Search.replaceAll before after s

/-- `QString::number`. -/
def number (n : Nat) : QString := (Bytes.number n).map fun c => UInt16.ofNat c.toNat

/-- A number is written with the digits from `0` to `9`. -/
theorem number_digit (i : Nat) : ∀ c ∈ number i, 48 ≤ c ∧ c ≤ 57 := by
  have hdigit : ∀ n < 256, (Bytes.digitVal 10 (UInt8.ofNat n)).isSome = true →
      48 ≤ UInt16.ofNat n ∧ UInt16.ofNat n ≤ 57 := by decide +kernel
  intro c hc
  obtain ⟨b, hb, rfl⟩ := List.mem_map.mp hc
  have hnumeral := Bytes.numeral_digitBytes (show 2 ≤ 10 by omega) (show 10 ≤ 16 by omega) i
  have hmem : b ∈ Bytes.digitBytes 10 i := by
    rw [Bytes.number, if_neg (by omega), Int.natAbs_natCast] at hb
    exact hb
  refine hdigit b.toNat (UInt8.toNat_lt b) ?_
  rw [UInt8.ofNat_toNat]
  exact Bytes.digitVal_of_numeral hnumeral b hmem

theorem number_injective {i j : Nat} (h : number i = number j) : i = j := by
  have hcode : Function.Injective fun c : UInt8 => UInt16.ofNat c.toNat := by
    intro a b hab
    have hnat := congrArg UInt16.toNat hab
    rw [UInt16.toNat_ofNat', UInt16.toNat_ofNat'] at hnat
    have ha := UInt8.toNat_lt a
    have hb := UInt8.toNat_lt b
    exact UInt8.toNat_inj.mp (by omega)
  have hbytes : Bytes.number i = Bytes.number j := (List.map_injective_iff.mpr hcode) h
  rw [Bytes.number, Bytes.number, if_neg (by omega), if_neg (by omega), Int.natAbs_natCast,
    Int.natAbs_natCast] at hbytes
  have hi := Bytes.numeral_digitBytes (show 2 ≤ 10 by omega) (show 10 ≤ 16 by omega) i
  have hj := Bytes.numeral_digitBytes (show 2 ≤ 10 by omega) (show 10 ≤ 16 by omega) j
  rw [hbytes, hj] at hi
  exact (Option.some.inj hi).symm

/-- The position of what was found behind `base`. -/
def positionFrom (base : Nat) : Option Nat → Int
  | some i => ((base + i : Nat) : Int)
  | none => -1

/-- What a search gives that begins behind a first part. -/
theorem indexOf_length (x y pat : QString) :
    (x ++ y).indexOf pat x.length = positionFrom x.length (Search.find pat y) := by
  rw [indexOf, Int.toNat_natCast, List.drop_left]
  cases Search.find pat y <;> rfl

/-- A search that succeeds. -/
theorem indexOf_nonneg {s pat : QString} {start : Int} (h : 0 ≤ s.indexOf pat start) :
    ∃ i, Search.find pat (s.drop start.toNat) = some i ∧ s.indexOf pat start = start.toNat + i := by
  rw [indexOf] at h ⊢
  cases hfind : Search.find pat (s.drop start.toNat) with
  | some i => exact ⟨i, rfl, rfl⟩
  | none =>
      rw [hfind] at h
      exact absurd h (Int.not_le.mpr (Int.negSucc_lt_zero 0))

theorem replaceAt_middle (x y z after : QString) :
    (x ++ y ++ z).replaceAt x.length y.length after = x ++ after ++ z := by
  have hstop : ((x.length : Int) + y.length).toNat = (x ++ y).length := by
    rw [List.length_append]
    omega
  rw [replaceAt, Int.toNat_natCast, hstop, List.drop_left, List.append_assoc x y z, List.take_left]

end QString

end QtWebApp
