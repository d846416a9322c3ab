import Mathlib.Data.Nat.Digits.Defs
import QtWebApp.Base.Bytes

/-!
# QtWebApp.Base.Number

Machine integers and numerals.

A C++ `int` is an `Int` whose results are brought back into the 32-bit range by
`int32`, so that every place where the code can overflow shows it. Numerals are
read and written as `QByteArray::number` and `QByteArray::toInt` do: the digits of
`Nat.digits`, most significant first.

`toInt` is tolerant: it takes white space and a sign in front of the digits, and whatever is not a
number counts as 0. The source often does not ask which of the two it was.
-/

namespace QtWebApp

/-! ### 32-bit integers

Only sums and differences are needed, and they wrap around. -/

/-- The largest `int`. -/
def intMax : Int := 2147483647

/-- The result of an `int` operation: two's complement with 32 bits. -/
def int32 (n : Int) : Int := (n + 2147483648) % 4294967296 - 2147483648

/-- The values of type `int`. -/
def IsInt (n : Int) : Prop := -2147483648 ≤ n ∧ n ≤ 2147483647

instance (n : Int) : Decidable (IsInt n) := by unfold IsInt; infer_instance

/-- No overflow, no change. -/
theorem int32_of_isInt {n : Int} (h : IsInt n) : int32 n = n := by
  unfold int32
  have := h.1
  have := h.2
  omega

theorem isInt_int32 (n : Int) : IsInt (int32 n) := by
  unfold IsInt int32
  omega

/-! ### Numerals

Writing goes through `Nat.digits`, which has the least significant digit first, and reading goes
from left to right. -/

namespace Bytes

/-- The value of a digit in the given base, letters of either case. -/
def digitVal (base : Nat) (c : UInt8) : Option Nat :=
  let d := if 48 ≤ c && c ≤ 57 then c.toNat - 48
    else if 97 ≤ c && c ≤ 122 then c.toNat - 87
    else if 65 ≤ c && c ≤ 90 then c.toNat - 55
    else base
  if d < base then some d else none

/-- The digit for a value below 16. -/
def digitByte (d : Nat) : UInt8 := if d < 10 then UInt8.ofNat (48 + d) else UInt8.ofNat (87 + d)

/-- Read more digits after the value `acc`. -/
def digitsFrom (base : Nat) : Nat → Bytes → Option Nat
  | acc, [] => some acc
  | acc, c :: cs => (digitVal base c).bind fun d => digitsFrom base (acc * base + d) cs

/-- The number a non-empty string of digits denotes. -/
def numeral (base : Nat) (b : Bytes) : Option Nat := if b = [] then none else digitsFrom base 0 b

/-- The digits of a number, most significant first. -/
def digitBytes (base n : Nat) : Bytes :=
  if n = 0 then [48] else ((Nat.digits base n).map digitByte).reverse

/-- `QByteArray::number`. -/
def number (n : Int) : Bytes :=
  if n < 0 then 45 :: digitBytes 10 n.natAbs else digitBytes 10 n.natAbs

/-- `QByteArray::number(n, 16)` for a size. -/
def number16 (n : Nat) : Bytes := digitBytes 16 n

/-- A sign and digits. -/
def signed (base : Nat) : Bytes → Option Int
  | 45 :: cs => (numeral base cs).map fun n => - (n : Int)
  | 43 :: cs => (numeral base cs).map fun n => (n : Int)
  | cs => (numeral base cs).map fun n => (n : Int)

/-- `QByteArray::toInt(&ok, base)`: the text is a C string, so it ends at the first NUL; white
space may stand before the sign. -/
def toIntOk (base : Nat) (b : Bytes) : Option Int :=
  (signed base ((b.takeWhile (· != 0)).dropWhile isSpace)).filter fun n => decide (IsInt n)

/-- `QByteArray::toInt()`: 0 when the text is not a number or does not fit. -/
def toInt (b : Bytes) : Int := (toIntOk 10 b).getD 0

/-! ### Writing and reading agree

A numeral denotes its number in every base up to 16, and `toInt` reads the decimal ones. -/

theorem digitVal_digitByte {base d : Nat} (hb : base ≤ 16) (hd : d < base) :
    digitVal base (digitByte d) = some d := by
  have key : ∀ d < 16, ∀ base ≤ 16, d < base → digitVal base (digitByte d) = some d := by decide
  exact key d (by omega) base hb hd

/-- Digits are read from left to right. -/
theorem digitsFrom_append (base : Nat) (acc : Nat) (xs ys : Bytes) :
    digitsFrom base acc (xs ++ ys) = (digitsFrom base acc xs).bind fun a =>
      digitsFrom base a ys := by
  induction xs generalizing acc with
  | nil => rfl
  | cons c cs ih =>
      simp only [List.cons_append, digitsFrom]
      cases digitVal base c with
      | none => rfl
      | some d => exact ih _

theorem digitsFrom_digits {base : Nat} (hb : 2 ≤ base) (hb' : base ≤ 16) (n : Nat) :
    digitsFrom base 0 ((Nat.digits base n).map digitByte).reverse = some n := by
  induction n using Nat.strongRecOn with
  | _ n ih =>
      rcases Nat.eq_zero_or_pos n with rfl | hn
      · simp [digitsFrom]
      · rw [Nat.digits_def' (by omega) hn, List.map_cons, List.reverse_cons, digitsFrom_append,
          ih (n / base) (Nat.div_lt_self hn (by omega))]
        have hlt : n % base < base := Nat.mod_lt _ (by omega)
        simp [digitsFrom, digitVal_digitByte hb' hlt, Nat.div_add_mod']

/-- The numeral written for a number denotes it. -/
theorem numeral_digitBytes {base : Nat} (hb : 2 ≤ base) (hb' : base ≤ 16) (n : Nat) :
    numeral base (digitBytes base n) = some n := by
  unfold digitBytes
  split
  · next h =>
      subst h
      have h48 : (48 : UInt8) = digitByte 0 := rfl
      simp [numeral, digitsFrom, h48, digitVal_digitByte hb' (show 0 < base by omega)]
  · next h =>
      have hne : ((Nat.digits base n).map digitByte).reverse ≠ [] := by
        simpa using Nat.digits_ne_nil_iff_ne_zero.mpr h
      rw [numeral, if_neg hne, digitsFrom_digits hb hb']

/-- Every byte of a numeral is a digit. -/
theorem digitVal_of_digitsFrom {base acc n : Nat} {b : Bytes} (h : digitsFrom base acc b = some n) :
    ∀ c ∈ b, (digitVal base c).isSome := by
  induction b generalizing acc with
  | nil => simp
  | cons c cs ih =>
      simp only [digitsFrom, Option.bind_eq_some_iff] at h
      obtain ⟨d, hd, hcs⟩ := h
      intro x hx
      rcases List.mem_cons.mp hx with rfl | hx
      · simp [hd]
      · exact ih hcs x hx

theorem numeral_ne_nil {base n : Nat} {b : Bytes} (h : numeral base b = some n) : b ≠ [] := by
  rintro rfl
  simp [numeral] at h

theorem digitVal_of_numeral {base n : Nat} {b : Bytes} (h : numeral base b = some n) :
    ∀ c ∈ b, (digitVal base c).isSome := by
  rw [numeral, if_neg (numeral_ne_nil h)] at h
  exact digitVal_of_digitsFrom h

/-- A digit is neither NUL, white space, a sign nor a line end. -/
theorem digit_plain {c : UInt8} (h : (digitVal 16 c).isSome) :
    c ≠ 0 ∧ isSpace c = false ∧ c ≠ 43 ∧ c ≠ 45 ∧ c ≠ CR ∧ c ≠ LF := by
  have hge : 48 ≤ c := by
    simp only [digitVal] at h
    grind
  have h48 : 48 ≤ c.toNat := hge
  have hne : ∀ d : UInt8, d.toNat < 48 → c ≠ d := fun d hd e => by subst e; omega
  refine ⟨hne 0 (by decide), ?_, hne 43 (by decide), hne 45 (by decide), hne CR (by decide),
    hne LF (by decide)⟩
  simp [isSpace, hne 32 (by decide), UInt8.le_iff_toNat_le]
  omega

theorem digit_of_base_le {base : Nat} (hb : base ≤ 16) {c : UInt8} (h : (digitVal base c).isSome) :
    (digitVal 16 c).isSome := by
  simp only [digitVal] at h ⊢
  split at h
  · next h1 => simp only [h1, if_true]; split at h <;> simp_all; omega
  · next h1 =>
      simp only [h1]
      split at h
      · next h2 => simp only [h2, if_true]; split at h <;> simp_all; omega
      · next h2 =>
          simp only [h2]
          split at h
          · next h3 => simp only [h3, if_true]; split at h <;> simp_all; omega
          · simp at h

/-- On a numeral `toInt` gives the number it denotes, or 0 when it does not fit. -/
theorem toInt_numeral {v : Bytes} {n : Nat} (h : numeral 10 v = some n) :
    toInt v = if (n : Int) ≤ intMax then n else 0 := by
  have hplain : ∀ c ∈ v, c ≠ 0 ∧ isSpace c = false ∧ c ≠ 43 ∧ c ≠ 45 ∧ c ≠ CR ∧ c ≠ LF :=
    fun c hc => digit_plain (digit_of_base_le (by omega) (digitVal_of_numeral h c hc))
  have hnul : v.takeWhile (· != 0) = v :=
    List.takeWhile_eq_self_iff.mpr fun c hc => by simpa using (hplain c hc).1
  have hspace : v.dropWhile isSpace = v := dropWhile_of_head fun c hc =>
    (hplain c (List.mem_of_mem_head? hc)).2.1
  have hsigned : signed 10 v = some (n : Int) := by
    cases v with
    | nil => exact absurd rfl (numeral_ne_nil h)
    | cons c cs =>
        obtain ⟨-, -, h43, h45, -, -⟩ := hplain c (by simp)
        unfold signed
        split
        · next he => exact absurd (List.cons.inj he).1 h45
        · next he => exact absurd (List.cons.inj he).1 h43
        · simp [h]
  unfold toInt toIntOk
  rw [hnul, hspace, hsigned]
  by_cases hn : (n : Int) ≤ intMax
  · have : IsInt n := ⟨by omega, hn⟩
    simp [Option.filter, this, hn]
  · have : ¬ IsInt n := fun hi => hn hi.2
    simp [Option.filter, this, hn]

theorem toInt_isInt (b : Bytes) : IsInt (toInt b) := by
  unfold toInt toIntOk
  cases h : (signed 10 ((b.takeWhile (· != 0)).dropWhile isSpace)).filter
      (fun n => decide (IsInt n)) with
  | none => decide
  | some n =>
      have := Option.filter_eq_some_iff.mp h
      simpa using this.2

/-- The digits of a decimal numeral. -/
theorem decimal_digit {c : UInt8} (h : (digitVal 10 c).isSome) : 48 ≤ c ∧ c ≤ 57 := by
  simp only [digitVal] at h
  split at h
  · next hd => simpa using hd
  · split at h
    · next hl => simp [UInt8.le_iff_toNat_le] at h hl; omega
    · split at h
      · next hu => simp [UInt8.le_iff_toNat_le] at h hu; omega
      · simp at h

/-- A decimal number consists of digits and perhaps a sign. -/
theorem number_bytes (n : Int) : ∀ c ∈ number n, c = 45 ∨ (48 ≤ c ∧ c ≤ 57) := by
  have hdigits : ∀ c ∈ digitBytes 10 n.natAbs, 48 ≤ c ∧ c ≤ 57 := fun c hc =>
    decimal_digit (digitVal_of_numeral (numeral_digitBytes (by omega) (by omega) n.natAbs) c hc)
  intro c hc
  unfold number at hc
  split at hc
  · exact (List.mem_cons.mp hc).imp id (hdigits c)
  · exact .inr (hdigits c hc)

/-- **A number is read back as it was written.** -/
theorem toInt_number {n : Int} (h : IsInt n) : toInt (number n) = n := by
  have hnumeral : numeral 10 (digitBytes 10 n.natAbs) = some n.natAbs :=
    numeral_digitBytes (by omega) (by omega) n.natAbs
  have hle := h.2
  unfold number
  split
  · next hneg =>
      have hnul : (45 :: digitBytes 10 n.natAbs).takeWhile (· != 0) =
          45 :: digitBytes 10 n.natAbs := by
        refine List.takeWhile_eq_self_iff.mpr fun c hc => ?_
        rcases List.mem_cons.mp hc with rfl | hc
        · rfl
        · have hdigit := digitVal_of_numeral hnumeral c hc
          simpa using (digit_plain (digit_of_base_le (by omega) hdigit)).1
      have hsign : signed 10 (45 :: digitBytes 10 n.natAbs) = some n := by
        have hvalue : -(n.natAbs : Int) = n := by omega
        rw [signed, hnumeral]
        exact congrArg some hvalue
      rw [toInt, toIntOk, hnul, dropWhile_of_head (fun c hc => by
        rw [List.head?_cons, Option.mem_some_iff] at hc; subst hc; rfl), hsign]
      simp [Option.filter, h]
  · rw [toInt_numeral hnumeral, if_pos (by unfold intMax; omega)]
    omega

/-- Different numbers have different numerals. -/
theorem number_injective {i j : Nat} (h : number i = number j) : i = j := by
  have hread : ∀ n : Nat, numeral 10 (number n) = some n := fun n => by
    rw [number, if_neg (by omega), Int.natAbs_natCast, numeral_digitBytes (by omega) (by omega)]
  exact Option.some.inj ((hread i).symm.trans ((congrArg (numeral 10) h).trans (hread j)))

end Bytes

end QtWebApp
