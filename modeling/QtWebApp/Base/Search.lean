import Mathlib.Data.List.Infix

/-!
# QtWebApp.Base.Search

Searching a list for a pattern, and cutting it at the occurrences.

`find` gives the first occurrence, `cut` the parts between the occurrences that do not overlap,
from the left. Patterns that begin with a mark that they do not contain a second time are easy to
find: an occurrence is a place where the mark stands and the rest of the pattern behind it, so
everything up to the next mark can be passed over at once (`find_unmarked`, `find_marked`).
-/

namespace QtWebApp

universe u

namespace Search

variable {α : Type u} [DecidableEq α]

/-- The position of the first occurrence of `pat`. -/
def find (pat : List α) : List α → Option Nat
  | [] => if pat = [] then some 0 else none
  | a :: s => if pat <+: a :: s then some 0 else (find pat s).map (· + 1)

/-- The parts between the occurrences of `pat`, at most so many of them and the rest. -/
def cutUpTo (pat : List α) : Nat → List α → List (List α)
  | 0, s => [s]
  | n + 1, s =>
      match find pat s with
      | none => [s]
      | some i => s.take i :: cutUpTo pat n (s.drop (i + pat.length))

/-- The parts between the occurrences of `pat` that do not overlap, from the left. -/
def cut (pat s : List α) : List (List α) := cutUpTo pat s.length s

/-- Every occurrence replaced; what is put in place is not searched. -/
def replaceAll (pat after s : List α) : List α := after.intercalate (cut pat s)

/-! ### The first occurrence

An occurrence is a place where the pattern is a prefix of the rest. -/

variable {pat : List α}

theorem find_cons_neg {a : α} {s : List α} (h : ¬ pat <+: a :: s) :
    find pat (a :: s) = (find pat s).map (· + 1) := if_neg h

theorem find_nil (h : pat ≠ []) : find pat [] = none := if_neg h

/-- What a search has found. -/
theorem find_eq_some {s : List α} {i : Nat} (h : find pat s = some i) :
    s = s.take i ++ pat ++ s.drop (i + pat.length) ∧ i + pat.length ≤ s.length := by
  induction s generalizing i with
  | nil =>
      rw [find] at h
      split at h
      · next hnil => cases h; simp [hnil]
      · cases h
  | cons a s ih =>
      rw [find] at h
      split at h
      · next hpre =>
          cases h
          obtain ⟨t, ht⟩ := hpre
          rw [← ht]
          simp
      · obtain ⟨j, hj, rfl⟩ := Option.map_eq_some_iff.mp h
        obtain ⟨hsplit, hle⟩ := ih hj
        constructor
        · have hpos : j + 1 + pat.length = j + pat.length + 1 := by omega
          rw [hpos, List.take_succ_cons, List.drop_succ_cons, List.cons_append, List.cons_append,
            ← hsplit]
        · rw [List.length_cons]
          omega

/-- Nothing is found exactly where the pattern does not occur. -/
theorem find_eq_none {s : List α} : find pat s = none ↔ ¬ pat <:+: s := by
  induction s with
  | nil => simp [find]
  | cons a s ih =>
      by_cases hpre : pat <+: a :: s
      · simp [find, hpre, hpre.isInfix]
      · rw [find_cons_neg hpre, Option.map_eq_none_iff, ih, List.infix_cons_iff,
          or_iff_right hpre]

theorem find_here (pat s : List α) : find pat (pat ++ s) = some 0 := by
  cases h : pat ++ s with
  | nil => simp [find, (List.append_eq_nil_iff.mp h).1]
  | cons a t =>
      rw [find, if_pos]
      rw [← h]
      exact List.prefix_append pat s

/-! ### Delimiters

A text that ends with a delimiter can be compared up to the first delimiter, whatever comes
behind. -/

omit [DecidableEq α] in
/-- A text that ends with a delimiter stands at the front only as a whole. -/
theorem prefix_delimited {c : α} {q x y : List α} (hq : c ∉ q) (hx : c ∉ x) :
    q ++ [c] <+: x ++ c :: y ↔ q = x := by
  induction q generalizing x with
  | nil =>
      cases x with
      | nil => simp
      | cons d x =>
          have hne : c ≠ d := fun e => hx (by simp [e])
          simp [hne]
  | cons a q ih =>
      have ha : a ≠ c := fun e => hq (by simp [e])
      have hq' : c ∉ q := fun e => hq (by simp [e])
      cases x with
      | nil => simp [ha]
      | cons d x =>
          have hx' : c ∉ x := fun e => hx (by simp [e])
          simp only [List.cons_append, List.cons_prefix_cons, ih hq' hx', List.cons.injEq]

omit [DecidableEq α] in
/-- A text without a delimiter does not reach beyond it. -/
theorem prefix_of_prefix_delimited {c : α} {q x y : List α} (hq : c ∉ q) (h : q <+: x ++ c :: y) :
    q <+: x := by
  induction q generalizing x with
  | nil => exact List.nil_prefix
  | cons a q ih =>
      have ha : a ≠ c := fun e => hq (by simp [e])
      have hq' : c ∉ q := fun e => hq (by simp [e])
      cases x with
      | nil => exact absurd (List.cons_prefix_cons.mp h).1 ha
      | cons d x =>
          obtain ⟨rfl, hrest⟩ := List.cons_prefix_cons.mp h
          exact List.cons_prefix_cons.mpr ⟨rfl, ih hq' hrest⟩

/-! ### Cutting and replacing

The fuel of `cutUpTo` is the number of cuts at most. The length of the text is always enough, so
that no lemma about `cut` mentions it. -/

theorem cutUpTo_of_le (hpat : pat ≠ []) {n m : Nat} {s : List α} (hn : s.length ≤ n)
    (hm : s.length ≤ m) : cutUpTo pat n s = cutUpTo pat m s := by
  have hpos : 0 < pat.length := List.length_pos_iff.mpr hpat
  induction n generalizing m s with
  | zero =>
      obtain rfl : s = [] := List.length_eq_zero_iff.mp (by omega)
      cases m with
      | zero => rfl
      | succ m => rw [cutUpTo, cutUpTo, find, if_neg hpat]
  | succ n ih =>
      cases m with
      | zero =>
          obtain rfl : s = [] := List.length_eq_zero_iff.mp (by omega)
          rw [cutUpTo, cutUpTo, find, if_neg hpat]
      | succ m =>
          rw [cutUpTo, cutUpTo]
          cases hfind : find pat s with
          | none => rfl
          | some i =>
              have hle := (find_eq_some hfind).2
              have hdrop : (s.drop (i + pat.length)).length = s.length - (i + pat.length) :=
                List.length_drop
              exact congrArg _ (ih (by omega) (by omega))

theorem cut_of_none {s : List α} (h : find pat s = none) : cut pat s = [s] := by
  rw [cut]
  cases hlen : s.length with
  | zero => rfl
  | succ n => rw [cutUpTo, h]

/-- The first part, and the parts of the rest. -/
theorem cut_of_some (hpat : pat ≠ []) {s : List α} {i : Nat} (h : find pat s = some i) :
    cut pat s = s.take i :: cut pat (s.drop (i + pat.length)) := by
  have hle := (find_eq_some h).2
  have hpos : 0 < pat.length := List.length_pos_iff.mpr hpat
  have hdrop : (s.drop (i + pat.length)).length = s.length - (i + pat.length) := List.length_drop
  obtain ⟨n, hn⟩ : ∃ n, s.length = n + 1 := ⟨s.length - 1, by omega⟩
  rw [cut, cut, hn, cutUpTo, h]
  exact congrArg _ (cutUpTo_of_le hpat (by omega) (by omega))

theorem cut_ne_nil (pat s : List α) : cut pat s ≠ [] := by
  rw [cut]
  cases s.length with
  | zero => exact List.cons_ne_nil _ _
  | succ n =>
      rw [cutUpTo]
      split
      · exact List.cons_ne_nil _ _
      · exact List.cons_ne_nil _ _

variable {after : List α}

theorem replaceAll_of_none {s : List α} (h : find pat s = none) : replaceAll pat after s = s := by
  rw [replaceAll, cut_of_none h, List.intercalate_singleton]

/-- The first occurrence is replaced, and then the rest is searched. -/
theorem replaceAll_of_some (hpat : pat ≠ []) {s : List α} {i : Nat} (h : find pat s = some i) :
    replaceAll pat after s =
      s.take i ++ after ++ replaceAll pat after (s.drop (i + pat.length)) := by
  rw [replaceAll, cut_of_some hpat h, List.intercalate_cons_of_ne_nil (cut_ne_nil pat _)]
  rfl

/-- A part in front in which no occurrence begins stays as it is. -/
theorem replaceAll_append (hpat : pat ≠ []) {x y : List α}
    (h : find pat (x ++ y) = (find pat y).map (· + x.length)) :
    replaceAll pat after (x ++ y) = x ++ replaceAll pat after y := by
  cases hy : find pat y with
  | none =>
      rw [hy] at h
      rw [replaceAll_of_none h, replaceAll_of_none hy]
  | some i =>
      rw [hy, Option.map_some] at h
      have htake : (x ++ y).take (i + x.length) = x ++ y.take i := by
        rw [Nat.add_comm, List.take_length_add_append]
      have hdrop : (x ++ y).drop (i + x.length + pat.length) = y.drop (i + pat.length) := by
        have hpos : i + x.length + pat.length = x.length + (i + pat.length) := by omega
        rw [hpos, List.drop_length_add_append]
      rw [replaceAll_of_some hpat h, replaceAll_of_some hpat hy, htake, hdrop]
      simp only [List.append_assoc]

theorem replaceAll_here (hpat : pat ≠ []) (y : List α) :
    replaceAll pat after (pat ++ y) = after ++ replaceAll pat after y := by
  rw [replaceAll_of_some hpat (find_here pat y), Nat.zero_add, List.drop_left]
  rfl

/-! ### Patterns that begin with a mark

A text is walked from mark to mark. What is between them is not looked at. -/

section Marked

variable {o : α} {p : List α}

/-- Where the mark does not stand, no occurrence begins. -/
theorem find_unmarked {x : List α} (hx : o ∉ x) (y : List α) :
    find (o :: p) (x ++ y) = (find (o :: p) y).map (· + x.length) := by
  induction x with
  | nil => simp
  | cons a x ih =>
      have ha : o ≠ a := fun h => hx (h ▸ List.mem_cons_self)
      have hx' : o ∉ x := fun h => hx (List.mem_cons_of_mem a h)
      have hno : ¬ o :: p <+: a :: (x ++ y) := fun h => ha (List.cons_prefix_cons.mp h).1
      rw [List.cons_append, find_cons_neg hno, ih hx', Option.map_map, List.length_cons]
      rfl

/-- Where the mark stands, the rest of the pattern has to follow. -/
theorem find_marked {x : List α} (hx : o ∉ x) (y : List α) :
    find (o :: p) (o :: (x ++ y)) =
      if p <+: x ++ y then some 0 else (find (o :: p) y).map (· + (x.length + 1)) := by
  by_cases hpre : p <+: x ++ y
  · rw [if_pos hpre, find, if_pos (List.cons_prefix_cons.mpr ⟨rfl, hpre⟩)]
  · have hno : ¬ o :: p <+: o :: (x ++ y) := fun h => hpre (List.cons_prefix_cons.mp h).2
    rw [if_neg hpre, find_cons_neg hno, find_unmarked hx, Option.map_map]
    rfl

/-- The first position of an element is the length of the part before it. -/
theorem find_singleton {x : List α} (hx : o ∉ x) (y : List α) :
    find [o] (x ++ o :: y) = some x.length := by
  have hhere : find [o] (o :: y) = some 0 := find_here [o] y
  rw [find_unmarked hx, hhere, Option.map_some, Nat.zero_add]

/-- A pattern does not occur where its first element does not stand. -/
theorem find_absent {x : List α} (hx : o ∉ x) : find (o :: p) x = none := by
  have h := find_unmarked (p := p) hx []
  rwa [List.append_nil, find_nil (List.cons_ne_nil o p)] at h

variable {after : List α}

theorem replaceAll_unmarked {x : List α} (hx : o ∉ x) (y : List α) :
    replaceAll (o :: p) after (x ++ y) = x ++ replaceAll (o :: p) after y :=
  replaceAll_append (List.cons_ne_nil o p) (find_unmarked hx y)

/-- Another mark is passed over. -/
theorem replaceAll_marked_neg {x : List α} (hx : o ∉ x) {y : List α} (hpre : ¬ p <+: x ++ y) :
    replaceAll (o :: p) after (o :: (x ++ y)) = o :: (x ++ replaceAll (o :: p) after y) := by
  refine replaceAll_append (x := o :: x) (List.cons_ne_nil o p) ?_
  exact (find_marked hx y).trans (if_neg hpre)

/-- A mark with the rest of the pattern behind it is replaced. -/
theorem replaceAll_marked_pos {x : List α} (hx : o ∉ x) (y : List α) :
    replaceAll (o :: p) after (o :: (p ++ x ++ y)) = after ++ x ++ replaceAll (o :: p) after y := by
  have hhere : replaceAll (o :: p) after ((o :: p) ++ (x ++ y)) =
      after ++ replaceAll (o :: p) after (x ++ y) := replaceAll_here (List.cons_ne_nil o p) (x ++ y)
  rw [List.cons_append, ← List.append_assoc] at hhere
  rw [hhere, replaceAll_unmarked hx, List.append_assoc]

end Marked

/-! ### Patterns that end with a delimiter

Here the text in front of the first delimiter decides. -/

/-- A text that ends with a delimiter is found at the next delimiter, or after that. -/
theorem find_delimited {c : α} {q x y : List α} (hq : c ∉ q) (hx : c ∉ x) :
    find (q ++ [c]) (x ++ c :: y) =
      if q <:+ x then some (x.length - q.length)
      else (find (q ++ [c]) y).map (· + (x.length + 1)) := by
  have hstep : ∀ z : List α, find (q ++ [c]) (z ++ c :: y) =
      if q ++ [c] <+: z ++ c :: y then some 0
      else (find (q ++ [c]) ((z ++ c :: y).tail)).map (· + 1) := by
    intro z
    cases z with
    | nil => rfl
    | cons d z => rfl
  induction x with
  | nil =>
      rw [hstep]
      by_cases hnil : q = []
      · subst hnil
        simp
      · have hno : ¬ q ++ [c] <+: [] ++ c :: y := fun h => hnil ((prefix_delimited hq hx).mp h)
        have hend : ¬ q <:+ [] := fun h => hnil (List.suffix_nil.mp h)
        rw [if_neg hno, if_neg hend]
        rfl
  | cons d x ih =>
      have hx' : c ∉ x := fun e => hx (by simp [e])
      rw [hstep, List.cons_append, List.tail_cons, ih hx']
      simp only [← List.cons_append, prefix_delimited hq hx, List.suffix_cons_iff, List.length_cons]
      by_cases hwhole : q = d :: x
      · simp [hwhole]
      · by_cases hend : q <:+ x
        · have hle := hend.length_le
          simp only [hwhole, hend, if_false, if_true, or_true, Option.map_some, Option.some.injEq]
          omega
        · simp only [hwhole, hend, if_false, or_false, Option.map_map]
          rfl

end Search

end QtWebApp
