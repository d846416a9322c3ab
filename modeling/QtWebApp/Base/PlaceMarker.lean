import QtWebApp.Base.Number

/-!
# QtWebApp.Base.PlaceMarker

`QString::arg`: texts with place markers.

A place marker is a percent sign and a number of one or two digits, with an `L` between them
when the argument is to be written in the manner of the locale. `arg` fills in all places that
have the lowest number. No byte of a marker after its first one is a percent sign, so the
markers of a text are found by looking at every percent sign in it.
-/

namespace QtWebApp

namespace Bytes

/-- A number of one or two digits at the front of a text: its value and its length. -/
def markerNumber : Bytes → Option (Nat × Nat)
  | [] => none
  | c :: cs =>
      match digitVal 10 c with
      | none => none
      | some d =>
          match cs.head?.bind (digitVal 10) with
          | none => some (d, 1)
          | some e => some (10 * d + e, 2)

/-- What follows the percent sign of a place marker: the number and how many bytes it takes. -/
def marker : Bytes → Option (Nat × Nat)
  | 76 :: cs => (markerNumber cs).map fun m => (m.1, m.2 + 1)
  | cs => markerNumber cs

/-- The numbers of the place markers of a text. -/
def markers : Bytes → List Nat
  | [] => []
  | c :: cs =>
      if c = 37 then
        match marker cs with
        | some m => m.1 :: markers cs
        | none => markers cs
      else markers cs

/-- Replace the place markers with the number `n`; the first argument counts the bytes of a
marker that have still to be skipped. -/
def fillIn (n : Nat) (a : Bytes) : Nat → Bytes → Bytes
  | _, [] => []
  | k + 1, _ :: cs => fillIn n a k cs
  | 0, c :: cs =>
      match (if c = 37 then marker cs else none) with
      | some m => if m.1 = n then a ++ fillIn n a m.2 cs else c :: fillIn n a 0 cs
      | none => c :: fillIn n a 0 cs

/-- `QString::arg`: a text without place markers stays as it is. -/
def arg (b a : Bytes) : Bytes :=
  match (markers b).min? with
  | some n => fillIn n a 0 b
  | none => b

/-! ### A text without place markers in front

A marker cannot begin in the one text and end in the other, when a byte stands between them that is
no part of a marker. -/

/-- A byte that is neither a digit nor an `L` ends the number of a marker. -/
theorem markerNumber_append {c : UInt8} (hc : digitVal 10 c = none) (x y : Bytes) :
    markerNumber (x ++ c :: y) = markerNumber x := by
  cases x with
  | nil => simp [markerNumber, hc]
  | cons d x =>
      cases x with
      | nil => simp [markerNumber, hc]
      | cons e x => simp [markerNumber]

theorem marker_append {c : UInt8} (hc : digitVal 10 c = none) (hL : c ≠ 76) (x y : Bytes) :
    marker (x ++ c :: y) = marker x := by
  have hmarker : ∀ d z, marker (d :: z) =
      if d = 76 then (markerNumber z).map fun m => (m.1, m.2 + 1) else markerNumber (d :: z) := by
    intro d z
    unfold marker
    split
    · next he => simp [(List.cons.inj he).1, (List.cons.inj he).2]
    · next hne => rw [if_neg fun e => hne z (by rw [e])]
  cases x with
  | nil => rw [List.nil_append, hmarker, if_neg hL]; simp [markerNumber, hc, marker]
  | cons d x =>
      rw [List.cons_append, hmarker, hmarker, markerNumber_append hc, ← List.cons_append,
        markerNumber_append hc]

theorem markers_append {c : UInt8} (hc : digitVal 10 c = none) (hL : c ≠ 76) (x y : Bytes) :
    markers (x ++ c :: y) = markers x ++ markers (c :: y) := by
  induction x with
  | nil => rfl
  | cons d x ih =>
      rw [List.cons_append, markers, markers, marker_append hc hL, ih]
      split
      · cases marker x <;> simp
      · rfl

/-- What has no place markers is not changed when the text after it is filled in. -/
theorem fillIn_append {x : Bytes} (hx : markers x = []) {c : UInt8} (hc : digitVal 10 c = none)
    (hL : c ≠ 76) (n : Nat) (a y : Bytes) :
    fillIn n a 0 (x ++ c :: y) = x ++ fillIn n a 0 (c :: y) := by
  induction x with
  | nil => rfl
  | cons d x ih =>
      have hhead : (if d = 37 then marker x else none) = none := by
        split
        · next hd =>
            cases hm : marker x with
            | none => rfl
            | some m => simp [markers, hd, hm] at hx
        · rfl
      have htail : markers x = [] := by
        rw [markers] at hx
        split at hx
        · cases hm : marker x with
          | none => simpa [hm] using hx
          | some m => simp [hm] at hx
        · exact hx
      rw [List.cons_append, fillIn, marker_append hc hL, hhead]
      exact congrArg (d :: ·) (ih htail)

end Bytes

end QtWebApp
