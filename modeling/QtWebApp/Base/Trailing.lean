import Mathlib.Data.List.Infix

/-!
# QtWebApp.Base.Trailing

Runs of short elements at the end of a list.

Some elements of a list are short, some split it, and some open a part of it: what stands behind the
opening element up to the first splitting one, or up to the end. `trailing` is the number of short
elements in a row with which such a part ends, and `Bounded k` says that no part of the list ends
with more than `k` of them.

Lists are put together from pieces, and the lemmas say how the numbers of the pieces make up that of
the whole: a part may begin in one piece and go on in the next.
-/

namespace QtWebApp

universe u

/-- What the elements of a list are. -/
structure Traits (α : Type u) where
  opens : α → Prop
  splits : α → Prop
  short : α → Prop
  decSplits : DecidablePred splits
  decShort : DecidablePred short

namespace Traits

variable {α : Type u} (m : Traits α)

instance : DecidablePred m.splits := m.decSplits
instance : DecidablePred m.short := m.decShort

/-- The number of short elements in a row before the first splitting one or the end, when `a` of
them were there already. -/
def trailing (a : Nat) : List α → Nat
  | [] => a
  | b :: l => if m.splits b then a else if m.short b then trailing (a + 1) l else trailing 0 l

/-- No part that is opened ends with more than `k` short elements. -/
def Bounded (k : Nat) : List α → Prop
  | [] => True
  | b :: l => (m.opens b → m.trailing 0 l ≤ k) ∧ Bounded k l

/-- Nothing splits the list. -/
def Whole (l : List α) : Prop := ∀ b ∈ l, ¬ m.splits b

variable {m} {a j k : Nat} {b : α} {l l' : List α}

theorem Whole.cons_iff : m.Whole (b :: l) ↔ ¬ m.splits b ∧ m.Whole l := by
  simp [Whole]

theorem Whole.append_iff : m.Whole (l ++ l') ↔ m.Whole l ∧ m.Whole l' := by
  simp only [Whole, List.mem_append, or_imp, forall_and]

/-- The part of a list in front of the first splitting element. -/
theorem exists_part (m : Traits α) (l : List α) :
    ∃ l₁ l₂, l = l₁ ++ l₂ ∧ m.Whole l₁ ∧ ∀ b ∈ l₂.head?, m.splits b := by
  induction l with
  | nil => exact ⟨[], [], rfl, List.forall_mem_nil _, fun _ hb => nomatch hb⟩
  | cons b l ih =>
      by_cases hb : m.splits b
      · exact ⟨[], b :: l, rfl, List.forall_mem_nil _, fun c hc => Option.some.inj hc ▸ hb⟩
      · obtain ⟨l₁, l₂, rfl, hwhole, hsplit⟩ := ih
        exact ⟨b :: l₁, l₂, rfl, Whole.cons_iff.mpr ⟨hb, hwhole⟩, hsplit⟩

/-! ### The end of a part

The argument of `trailing` is what was counted before the list begins, so that lists can be put
together. -/

theorem trailing_splits (hb : m.splits b) (a : Nat) (l : List α) : m.trailing a (b :: l) = a :=
  if_pos hb

theorem trailing_short (hs : ¬ m.splits b) (hb : m.short b) (a : Nat) (l : List α) :
    m.trailing a (b :: l) = m.trailing (a + 1) l := by
  rw [trailing, if_neg hs, if_pos hb]

theorem trailing_long (hs : ¬ m.splits b) (hb : ¬ m.short b) (a : Nat) (l : List α) :
    m.trailing a (b :: l) = m.trailing 0 l := by
  rw [trailing, if_neg hs, if_neg hb]

/-- A part goes on as long as nothing splits it. -/
theorem trailing_append (h : m.Whole l) (a : Nat) (l' : List α) :
    m.trailing a (l ++ l') = m.trailing (m.trailing a l) l' := by
  induction l generalizing a with
  | nil => rfl
  | cons b l ih =>
      obtain ⟨hb, hl⟩ := Whole.cons_iff.mp h
      rw [List.cons_append]
      by_cases hshort : m.short b
      · rw [trailing_short hb hshort, trailing_short hb hshort, ih hl]
      · rw [trailing_long hb hshort, trailing_long hb hshort, ih hl]

/-- Behind the first splitting element nothing counts. -/
theorem trailing_append_split (h : ¬ m.Whole l) (a : Nat) (l' : List α) :
    m.trailing a (l ++ l') = m.trailing a l := by
  induction l generalizing a with
  | nil => exact absurd (fun _ hb => nomatch hb) h
  | cons b l ih =>
      rw [List.cons_append]
      by_cases hb : m.splits b
      · rw [trailing_splits hb, trailing_splits hb]
      · have hl : ¬ m.Whole l := fun hl => h (Whole.cons_iff.mpr ⟨hb, hl⟩)
        by_cases hshort : m.short b
        · rw [trailing_short hb hshort, trailing_short hb hshort, ih hl]
        · rw [trailing_long hb hshort, trailing_long hb hshort, ih hl]

/-- What came before an element that is not short does not count. -/
theorem trailing_reset (h : m.Whole l) (hlong : ∃ b ∈ l, ¬ m.short b) (a : Nat) :
    m.trailing a l = m.trailing 0 l := by
  induction l generalizing a with
  | nil =>
      obtain ⟨b, hb, -⟩ := hlong
      cases hb
  | cons b l ih =>
      obtain ⟨hb, hl⟩ := Whole.cons_iff.mp h
      by_cases hshort : m.short b
      · have hlong' : ∃ c ∈ l, ¬ m.short c := by
          obtain ⟨c, hc, hnot⟩ := hlong
          rcases List.mem_cons.mp hc with rfl | hc
          · exact absurd hshort hnot
          · exact ⟨c, hc, hnot⟩
        rw [trailing_short hb hshort, trailing_short hb hshort, ih hl hlong', ih hl hlong' (0 + 1)]
      · rw [trailing_long hb hshort, trailing_long hb hshort]

/-- The part of a list before the first splitting element. -/
theorem trailing_part (h : m.Whole l) (hsplit : ∀ b ∈ l'.head?, m.splits b) (a : Nat) :
    m.trailing a (l ++ l') = m.trailing a l := by
  rw [trailing_append h]
  cases l' with
  | nil => rfl
  | cons b l' => exact trailing_splits (hsplit b rfl) _ _

/-! ### Bounds

There is always some bound; what matters is how it changes when something is appended. -/

theorem Bounded.mono (hjk : j ≤ k) (h : m.Bounded j l) : m.Bounded k l := by
  induction l with
  | nil => trivial
  | cons b l ih => exact ⟨fun hb => (h.1 hb).trans hjk, ih h.2⟩

theorem exists_bounded (m : Traits α) (l : List α) : ∃ k, m.Bounded k l := by
  induction l with
  | nil => exact ⟨0, trivial⟩
  | cons b l ih =>
      obtain ⟨k, hk⟩ := ih
      exact ⟨max k (m.trailing 0 l), fun _ => Nat.le_max_right _ _, hk.mono (Nat.le_max_left _ _)⟩

/-- Parts that go on in another list. -/
theorem Bounded.append (h : m.Bounded j l) (hjk : j ≤ k) (hgo : ∀ a ≤ j, m.trailing a l' ≤ k)
    (h' : m.Bounded k l') : m.Bounded k (l ++ l') := by
  induction l with
  | nil => exact h'
  | cons b l ih =>
      rw [List.cons_append]
      refine ⟨fun hb => ?_, ih h.2⟩
      have hpart := h.1 hb
      by_cases hl : m.Whole l
      · rw [trailing_append hl]
        exact hgo _ hpart
      · rw [trailing_append_split hl]
        exact hpart.trans hjk

/-- One element more. -/
theorem Bounded.concat (h : m.Bounded k l) (b : α) : m.Bounded (k + 1) (l ++ [b]) := by
  refine h.append (Nat.le_succ k) (fun a ha => ?_) ⟨fun _ => Nat.zero_le _, trivial⟩
  by_cases hs : m.splits b
  · rw [trailing_splits hs]
    omega
  · by_cases hshort : m.short b
    · rw [trailing_short hs hshort]
      exact Nat.succ_le_succ ha
    · rw [trailing_long hs hshort]
      exact Nat.zero_le _

/-- An element and a part behind it, one of which is not short. -/
theorem Bounded.concat_append (h : m.Bounded k l) (hwhole : m.Whole l') (hl' : m.Bounded k l')
    (htrailing : m.trailing 0 l' ≤ k) (hlong : (∃ c ∈ l', ¬ m.short c) ∨ ¬ m.short b) :
    m.Bounded k (l ++ b :: l') := by
  refine h.append (Nat.le_refl k) (fun a ha => ?_) ⟨fun _ => htrailing, hl'⟩
  by_cases hs : m.splits b
  · rw [trailing_splits hs]
    exact ha
  · by_cases hshort : m.short b
    · rw [trailing_short hs hshort, trailing_reset hwhole
        (hlong.resolve_right (not_not.mpr hshort))]
      exact htrailing
    · rw [trailing_long hs hshort]
      exact htrailing

/-- A list that ends with an element that is not short. -/
theorem bounded_concat_long (hl : m.Whole l) (hs : ¬ m.splits b) (hb : ¬ m.short b) (k : Nat) :
    m.Bounded k (l ++ [b]) := by
  induction l with
  | nil => exact ⟨fun _ => Nat.zero_le _, trivial⟩
  | cons c l ih =>
      obtain ⟨-, hl⟩ := Whole.cons_iff.mp hl
      rw [List.cons_append]
      refine ⟨fun _ => ?_, ih hl⟩
      rw [trailing_append hl, trailing_long hs hb]
      exact Nat.zero_le _

/-- Without its last element, which was short, every part ends with one short element less. -/
theorem Bounded.of_concat (hl : m.Whole l) (hs : ¬ m.splits b) (hb : m.short b)
    (h : m.Bounded (k + 1) (l ++ [b])) : m.Bounded k l := by
  induction l with
  | nil => trivial
  | cons c l ih =>
      obtain ⟨-, hl⟩ := Whole.cons_iff.mp hl
      rw [List.cons_append] at h
      refine ⟨fun hc => ?_, ih hl h.2⟩
      have hpart := h.1 hc
      rw [trailing_append hl, trailing_short hs hb] at hpart
      exact Nat.le_of_succ_le_succ hpart

theorem Bounded.part (hl : m.Whole l) (hsplit : ∀ b ∈ l'.head?, m.splits b)
    (h : m.Bounded k (l ++ l')) : m.Bounded k l := by
  induction l with
  | nil => trivial
  | cons b l ih =>
      obtain ⟨-, hl⟩ := Whole.cons_iff.mp hl
      rw [List.cons_append] at h
      refine ⟨fun hb => ?_, ih hl h.2⟩
      have hpart := h.1 hb
      rwa [trailing_part hl hsplit] at hpart

/-! ### Elements that are changed

A change that keeps what an element does to the parts keeps the counts. -/

section Map

variable {f : α → α} (hsplits : ∀ b, m.splits (f b) ↔ m.splits b)
  (hshort : ∀ b, m.short (f b) ↔ m.short b)

include hsplits in
theorem whole_map : m.Whole (l.map f) ↔ m.Whole l := by
  simp [Whole, hsplits]

include hsplits hshort

theorem trailing_map (a : Nat) (l : List α) : m.trailing a (l.map f) = m.trailing a l := by
  induction l generalizing a with
  | nil => rfl
  | cons b l ih =>
      rw [List.map_cons, trailing, trailing]
      simp only [hsplits, hshort, ih]

theorem bounded_map (hopens : ∀ b, m.opens (f b) ↔ m.opens b) :
    m.Bounded k (l.map f) ↔ m.Bounded k l := by
  induction l with
  | nil => exact Iff.rfl
  | cons b l ih =>
      rw [List.map_cons, Bounded, Bounded, hopens, trailing_map hsplits hshort, ih]

end Map

end Traits

end QtWebApp
