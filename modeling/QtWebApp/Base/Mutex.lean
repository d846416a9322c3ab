import Mathlib.Data.Set.Basic
import Mathlib.Order.WellFounded

/-!
# QtWebApp.Base.Mutex

Mutexes, and when threads that wait for them are stuck.

A mutex is known by its owner, a recursive one also by how often that owner has locked it. A
set of threads is deadlocked when each of them waits for a member of the set; this cannot
happen when who waits always has a lower rank than the one it waits for.
-/

namespace QtWebApp

universe u

/-! ### Mutexes

Whether a thread waits for a mutex is not recorded here. That follows from what it is about to
do. -/

/-- A mutex that even its owner cannot lock again. -/
structure Mutex (ι : Type u) where
  owner : Option ι
  deriving DecidableEq

/-- A mutex that its owner can lock again: the owner, and how many more times it has done so. -/
structure RecursiveMutex (ι : Type u) where
  hold : Option (ι × Nat)
  deriving DecidableEq

variable {ι : Type u} [DecidableEq ι]

namespace Mutex

/-- Nobody has locked it. -/
def free : Mutex ι := ⟨none⟩

/-- Whether a thread has locked it. -/
def held (m : Mutex ι) (i : ι) : Bool := m.owner = some i

/-- Lock it when it is free. -/
def tryLock (m : Mutex ι) (i : ι) : Option (Mutex ι) :=
  if m.owner = none then some ⟨some i⟩ else none

@[simp] theorem held_free (i : ι) : (free : Mutex ι).held i = false := rfl

@[simp] theorem held_owned (i j : ι) : (⟨some i⟩ : Mutex ι).held j = decide (i = j) := by
  simp [held]

theorem held_iff {m : Mutex ι} {i : ι} : m.held i = true ↔ m.owner = some i := by
  simp [held]

/-- Nobody else has a mutex that a thread has. -/
theorem held_other {m : Mutex ι} {i j : ι} (hi : m.held i = true) (hne : j ≠ i) :
    m.held j = false := by
  rw [held_iff] at hi
  simp [held, hi, Ne.symm hne]

omit [DecidableEq ι] in
/-- What a successful `tryLock` found and left. -/
theorem tryLock_some {m m' : Mutex ι} {i : ι} (h : m.tryLock i = some m') :
    m = free ∧ m' = ⟨some i⟩ := by
  unfold tryLock at h
  split at h
  · next hfree =>
      obtain ⟨owner⟩ := m
      exact ⟨congrArg Mutex.mk hfree, (Option.some.inj h).symm⟩
  · cases h

end Mutex

namespace RecursiveMutex

/-- Nobody has locked it. -/
def free : RecursiveMutex ι := ⟨none⟩

/-- How often a thread has locked it. -/
def depth (m : RecursiveMutex ι) (i : ι) : Nat :=
  match m.hold with
  | some (j, n) => if j = i then n + 1 else 0
  | none => 0

/-- Lock it when it is free, or once more. -/
def tryLock (m : RecursiveMutex ι) (i : ι) : Option (RecursiveMutex ι) :=
  match m.hold with
  | none => some ⟨some (i, 0)⟩
  | some (j, n) => if j = i then some ⟨some (j, n + 1)⟩ else none

/-- The owner takes back one lock. -/
def unlock (m : RecursiveMutex ι) : RecursiveMutex ι :=
  match m.hold with
  | some (i, n + 1) => ⟨some (i, n)⟩
  | _ => free

theorem tryLock_some {m m' : RecursiveMutex ι} {i : ι} (h : m.tryLock i = some m') :
    m'.depth i = m.depth i + 1 ∧ ∀ j, j ≠ i → m'.depth j = m.depth j := by
  obtain ⟨_ | ⟨k, n⟩⟩ := m
  · cases h
    exact ⟨by simp [depth], fun j hne => by simp [depth, hne.symm]⟩
  · simp only [tryLock] at h
    split at h
    · next hk =>
        cases h
        subst hk
        exact ⟨by simp [depth], fun j hne => by simp [depth, hne.symm]⟩
    · cases h

/-- What `unlock` changes: the depth of the owner only. -/
theorem unlock_depth {m : RecursiveMutex ι} {i : ι} (hi : 0 < m.depth i) :
    m.unlock.depth i = m.depth i - 1 ∧ ∀ j, j ≠ i → m.unlock.depth j = m.depth j := by
  obtain ⟨_ | ⟨k, n⟩⟩ := m
  · cases hi
  · have hk : k = i := by
      by_contra hki
      exact absurd hi (by simp [depth, hki])
    subst hk
    cases n with
    | zero => exact ⟨by simp [unlock, depth, free], fun j hne => by
        simp [unlock, depth, free, hne.symm]⟩
    | succ n => exact ⟨by simp [unlock, depth], fun j hne => by simp [unlock, depth, hne.symm]⟩

end RecursiveMutex

/-! ### Deadlock

The members of the set are any threads, and the number of them does not matter. -/

omit [DecidableEq ι]

/-- Some threads wait for each other: each of them for one of them. -/
def Deadlocked (waits : ι → ι → Prop) : Prop :=
  ∃ S : Set ι, S.Nonempty ∧ ∀ i ∈ S, ∃ j ∈ S, waits i j

/-- **No deadlock under a rank.** Among threads that wait for each other there would be one of the
highest rank, and it waits for one of a higher rank. -/
theorem not_deadlocked_of_rank {waits : ι → ι → Prop} (rank : ι → Nat) {top : Nat}
    (htop : ∀ i, rank i ≤ top) (hrank : ∀ {i j}, waits i j → rank i < rank j) :
    ¬ Deadlocked waits := by
  rintro ⟨S, hne, hS⟩
  have hwf : WellFounded fun i j => top - rank i < top - rank j :=
    (measure fun i => top - rank i).wf
  obtain ⟨i, hi, hmin⟩ := hwf.has_min S hne
  obtain ⟨j, hj, hwaits⟩ := hS i hi
  have hlt := hrank hwaits
  have hj' := htop j
  exact hmin j hj (by omega)

end QtWebApp
