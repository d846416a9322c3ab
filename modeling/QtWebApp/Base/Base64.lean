import QtWebApp.Base.Bytes

/-!
# QtWebApp.Base.Base64

Bytes as text in base 64.

There is no decoder here: such texts are only made. What is known of them is which characters they
have, and how many.
-/

namespace QtWebApp

namespace Base64

/-- The character for a value below 64. -/
def digit (n : Nat) : UInt8 :=
  if n < 26 then UInt8.ofNat (65 + n)
  else if n < 52 then UInt8.ofNat (71 + n)
  else if n < 62 then UInt8.ofNat (n - 4)
  else if n = 62 then 43
  else 47

/-- `QByteArray::toBase64`: four characters for three bytes, the last ones padded. -/
def encode : Bytes → Bytes
  | a :: b :: c :: rest =>
      digit (a.toNat / 4) :: digit (a.toNat % 4 * 16 + b.toNat / 16) ::
        digit (b.toNat % 16 * 4 + c.toNat / 64) :: digit (c.toNat % 64) :: encode rest
  | [a, b] => [digit (a.toNat / 4), digit (a.toNat % 4 * 16 + b.toNat / 16),
      digit (b.toNat % 16 * 4), 61]
  | [a] => [digit (a.toNat / 4), digit (a.toNat % 4 * 16), 61, 61]
  | [] => []

/-- The character may stand in the text. -/
def IsDigit (c : UInt8) : Prop :=
  (65 ≤ c ∧ c ≤ 90) ∨ (97 ≤ c ∧ c ≤ 122) ∨ (48 ≤ c ∧ c ≤ 57) ∨ c = 43 ∨ c = 47 ∨ c = 61

instance (c : UInt8) : Decidable (IsDigit c) := inferInstanceAs (Decidable (_ ∨ _))

theorem isDigit_digit (n : Nat) : IsDigit (digit n) := by
  rcases Nat.lt_or_ge n 62 with h | h
  · have hall : ∀ n < 62, IsDigit (digit n) := by decide
    exact hall n h
  · unfold digit
    split_ifs
    all_goals first | omega | decide

/-- A text in base 64 has only digits and the padding. -/
theorem isDigit_of_mem_encode {c : UInt8} {b : Bytes} (h : c ∈ encode b) : IsDigit c := by
  have hpad : IsDigit 61 := by decide
  fun_induction encode b with
  | case1 a b c rest ih =>
      simp only [List.mem_cons] at h
      rcases h with rfl | rfl | rfl | rfl | h
      · exact isDigit_digit _
      · exact isDigit_digit _
      · exact isDigit_digit _
      · exact isDigit_digit _
      · exact ih h
  | case2 a b =>
      simp only [List.mem_cons, List.not_mem_nil, or_false] at h
      rcases h with rfl | rfl | rfl | rfl
      · exact isDigit_digit _
      · exact isDigit_digit _
      · exact isDigit_digit _
      · exact hpad
  | case3 a =>
      simp only [List.mem_cons, List.not_mem_nil, or_false] at h
      rcases h with rfl | rfl | rfl | rfl
      · exact isDigit_digit _
      · exact isDigit_digit _
      · exact hpad
      · exact hpad
  | case4 => exact absurd h List.not_mem_nil

/-- Four characters for every three bytes that were begun. -/
theorem length_encode (b : Bytes) : (encode b).length = (b.length + 2) / 3 * 4 := by
  fun_induction encode b with
  | case1 a b c rest ih =>
      simp only [List.length_cons]
      omega
  | case2 a b => simp
  | case3 a => simp
  | case4 => rfl

theorem encode_ne_nil {b : Bytes} (h : b ≠ []) : encode b ≠ [] := by
  fun_cases encode b
  · exact List.cons_ne_nil _ _
  · exact List.cons_ne_nil _ _
  · exact List.cons_ne_nil _ _
  · exact absurd rfl h

end Base64

end QtWebApp
