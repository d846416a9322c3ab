import Mathlib.Tactic.Ring
import QtWebApp.Base.Bytes

/-!
# QtWebApp.Base.BigEndian

Unsigned integers in network byte order, as `qToBigEndian` and `qFromBigEndian` convert them.

A number is given with the width in which it is written. Writing cuts off what does not fit; reading
what was written gives the number modulo the range of the width.
-/

namespace QtWebApp

/-- The last `width` bytes of a number, the most significant one first. -/
def toBigEndian : Nat → Nat → Bytes
  | 0, _ => []
  | width + 1, n => UInt8.ofNat (n / 256 ^ width) :: toBigEndian width n

/-- The number that some bytes denote. -/
def fromBigEndian (b : Bytes) : Nat := b.foldl (fun n c => n * 256 + c.toNat) 0

@[simp] theorem length_toBigEndian (width n : Nat) : (toBigEndian width n).length = width := by
  induction width with
  | zero => rfl
  | succ width ih => rw [toBigEndian, List.length_cons, ih]

theorem foldl_bigEndian (b : Bytes) (n : Nat) :
    b.foldl (fun n c => n * 256 + c.toNat) n = n * 256 ^ b.length + fromBigEndian b := by
  induction b generalizing n with
  | nil => simp [fromBigEndian]
  | cons c b ih =>
      rw [fromBigEndian, List.foldl_cons, List.foldl_cons, ih, ih (0 * 256 + c.toNat),
        List.length_cons, Nat.pow_succ]
      ring

theorem fromBigEndian_cons (c : UInt8) (b : Bytes) :
    fromBigEndian (c :: b) = c.toNat * 256 ^ b.length + fromBigEndian b := by
  rw [fromBigEndian, List.foldl_cons, foldl_bigEndian, Nat.zero_mul, Nat.zero_add]

/-- As many bytes cannot denote a larger number. -/
theorem fromBigEndian_lt (b : Bytes) : fromBigEndian b < 256 ^ b.length := by
  induction b with
  | nil => exact Nat.one_pos
  | cons c b ih =>
      have hc := UInt8.toNat_lt c
      have hstep : c.toNat * 256 ^ b.length + 256 ^ b.length ≤ 256 * 256 ^ b.length := by
        rw [← Nat.succ_mul]
        exact Nat.mul_le_mul_right _ (by omega)
      rw [fromBigEndian_cons, List.length_cons, Nat.pow_succ, Nat.mul_comm _ 256]
      omega

/-- Writing a number and reading it. -/
theorem fromBigEndian_toBigEndian (width n : Nat) :
    fromBigEndian (toBigEndian width n) = n % 256 ^ width := by
  induction width with
  | zero => rw [Nat.pow_zero, Nat.mod_one]; rfl
  | succ width ih =>
      have hbyte : (UInt8.ofNat (n / 256 ^ width)).toNat = n / 256 ^ width % 256 :=
        UInt8.toNat_ofNat'
      rw [toBigEndian, fromBigEndian_cons, ih, hbyte, length_toBigEndian, Nat.pow_succ,
        Nat.mod_mul (x := n) (a := 256 ^ width) (b := 256)]
      ring

/-- What does not fit is cut off. -/
theorem toBigEndian_add (width n k : Nat) :
    toBigEndian width (k * 256 ^ width + n) = toBigEndian width n := by
  induction width generalizing k with
  | zero => rfl
  | succ width ih =>
      have hsplit : k * 256 ^ (width + 1) + n = k * 256 * 256 ^ width + n := by
        rw [Nat.pow_succ]
        ring
      have hbyte : UInt8.ofNat ((k * 256 * 256 ^ width + n) / 256 ^ width) =
          UInt8.ofNat (n / 256 ^ width) := by
        rw [Nat.add_comm, Nat.add_mul_div_right _ _ (Nat.pow_pos (by omega))]
        apply UInt8.toNat_inj.mp
        rw [UInt8.toNat_ofNat', UInt8.toNat_ofNat']
        omega
      rw [toBigEndian, toBigEndian, hsplit, ih, hbyte]

/-- Reading a number and writing it. -/
theorem toBigEndian_fromBigEndian (b : Bytes) : toBigEndian b.length (fromBigEndian b) = b := by
  induction b with
  | nil => rfl
  | cons c b ih =>
      have hfirst : UInt8.ofNat ((c.toNat * 256 ^ b.length + fromBigEndian b) / 256 ^ b.length) =
          c := by
        rw [Nat.add_comm, Nat.add_mul_div_right _ _ (Nat.pow_pos (by omega)),
          Nat.div_eq_of_lt (fromBigEndian_lt b), Nat.zero_add, UInt8.ofNat_toNat]
      rw [List.length_cons, toBigEndian, fromBigEndian_cons, toBigEndian_add, ih, hfirst]

end QtWebApp
