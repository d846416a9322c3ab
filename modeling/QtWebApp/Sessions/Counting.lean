import QtWebApp.Sessions.Handles

/-!
# QtWebApp.Sessions.Counting

The reference counts of sessions.

For each block three numbers matter: how many live handles point to it, what its counter says,
and how often it was deleted. An operation changes this `Tally` of a block in one of a few
ways (`tally_cases`), whatever it does to the other blocks. The counter is right as long as it
does not overflow (`safe_run`). A block is leaked exactly when the last handle to it is
overwritten, because the assignment tests the counter before it is decremented (`noLeak_iff`).

The two results need different invariants. That the count is right needs that it never overflows
(`Sound`); that nothing is leaked needs no more than a count that is right up to overflow (`Held`).
-/

namespace QtWebApp

variable {V : Type}

/-- The numbers of a block. -/
structure Tally where
  handles : Nat
  refCount : Int
  frees : Nat
  deriving DecidableEq, Repr

namespace Tally

/-- A new block and its first handle. -/
def first : Tally := ⟨1, 1, 0⟩

/-- Another handle points to the block. -/
def gain (t : Tally) : Tally :=
  { t with handles := t.handles + 1, refCount := int32 (t.refCount + 1) }

/-- A handle to the block is destroyed. -/
def detach (t : Tally) : Tally where
  handles := t.handles - 1
  refCount := int32 (t.refCount - 1)
  frees := if int32 (t.refCount - 1) = 0 then t.frees + 1 else t.frees

/-- A handle to the block is overwritten. -/
def overwrite (t : Tally) : Tally where
  handles := t.handles - 1
  refCount := int32 (t.refCount - 1)
  frees := if t.refCount = 0 then t.frees + 1 else t.frees

/-- How the numbers of a block may change in one step. -/
inductive Change (increments overwrites : Prop) : Tally → Tally → Prop
  | same {t : Tally} : Change increments overwrites t t
  | gain {t : Tally} (points : 0 < t.handles) (inc : increments) :
      Change increments overwrites t t.gain
  | detach {t : Tally} (points : 0 < t.handles) : Change increments overwrites t t.detach
  | overwrite {t : Tally} (points : 0 < t.handles) (replaced : overwrites) :
      Change increments overwrites t t.overwrite
  /-- A handle to the block is assigned to a handle to the same block. -/
  | renew {t : Tally} (points : 0 < t.handles) (inc : increments) :
      Change increments overwrites t t.gain.overwrite

/-! ### The count is right

A sound block counts its handles, is freed only when none of them is left, and is never freed
twice. One that has been leaked is sound as well. -/

/-- The numbers of a block that is counted and freed as it should be. -/
structure Sound (t : Tally) : Prop where
  counted : t.frees = 0 → t.refCount = t.handles
  freedOnce : t.frees ≤ 1
  unused : 0 < t.frees → t.handles = 0
  small : t.handles ≤ 2147483647

theorem sound_first : first.Sound := ⟨fun _ => rfl, by decide, by decide, by decide⟩

/-- **The count stays right** as long as it does not overflow. -/
theorem Sound.change {inc last : Prop} {t t' : Tally} (ht : t.Sound)
    (hsmall : inc → t.handles < 2147483647) (hc : Change inc last t t') : t'.Sound := by
  obtain ⟨hcounted, honce, hunused, hle⟩ := ht
  -- a block that a handle points to has not been freed
  have hlive : 0 < t.handles → t.frees = 0 ∧ t.refCount = t.handles := by
    intro hpos
    have hfree : t.frees = 0 := by
      by_contra hne
      have := hunused (Nat.pos_of_ne_zero hne)
      omega
    exact ⟨hfree, hcounted hfree⟩
  cases hc with
  | same => exact ⟨hcounted, honce, hunused, hle⟩
  | gain hpos hinc =>
      obtain ⟨hfree, hcount⟩ := hlive hpos
      have hlt := hsmall hinc
      refine ⟨fun _ => ?_, honce, fun hf => absurd hfree (Nat.ne_of_gt hf), hlt⟩
      show int32 (t.refCount + 1) = ((t.handles + 1 : Nat) : Int)
      rw [hcount]
      unfold int32
      omega
  | detach hpos =>
      obtain ⟨hfree, hcount⟩ := hlive hpos
      have hback : int32 (t.refCount - 1) = ((t.handles - 1 : Nat) : Int) := by
        rw [hcount]
        unfold int32
        omega
      -- the block is freed when this was its last handle
      by_cases hlast : int32 (t.refCount - 1) = 0
      · refine ⟨fun hf => ?_, ?_, fun _ => ?_, Nat.le_trans (Nat.sub_le _ _) hle⟩
        · simp [detach, hlast] at hf
        · simp [detach, hlast, hfree]
        · show t.handles - 1 = 0
          omega
      · refine ⟨fun _ => hback, ?_, fun hf => ?_, Nat.le_trans (Nat.sub_le _ _) hle⟩
        · simp [detach, hlast, hfree]
        · simp [detach, hlast, hfree] at hf
  | overwrite hpos _ =>
      obtain ⟨hfree, hcount⟩ := hlive hpos
      have hused : t.refCount ≠ 0 := by omega
      refine ⟨fun _ => ?_, ?_, fun hf => ?_, Nat.le_trans (Nat.sub_le _ _) hle⟩
      · show int32 (t.refCount - 1) = ((t.handles - 1 : Nat) : Int)
        rw [hcount]
        unfold int32
        omega
      · simp [overwrite, hused, hfree]
      · simp [overwrite, hused, hfree] at hf
  | renew hpos hinc =>
      obtain ⟨hfree, hcount⟩ := hlive hpos
      have hlt := hsmall hinc
      have hgain : int32 (t.refCount + 1) = ((t.handles + 1 : Nat) : Int) := by
        rw [hcount]
        unfold int32
        omega
      have hused : int32 (t.refCount + 1) ≠ 0 := by omega
      refine ⟨fun _ => ?_, ?_, fun hf => ?_, hle⟩
      · show int32 (int32 (t.refCount + 1) - 1) = ((t.handles + 1 - 1 : Nat) : Int)
        rw [hgain]
        unfold int32
        omega
      · simp [gain, overwrite, hused, hfree]
      · simp [gain, overwrite, hused, hfree] at hf

/-! ### No block is leaked

A block that is held may have a wrong count after an overflow. What matters is whether it is freed
with its last handle: by the destructor it is, by the assignment it is not. -/

/-- The counter is right up to overflow, and a block that is not freed has a handle. -/
structure Held (t : Tally) : Prop where
  counted : t.frees = 0 → t.refCount = int32 t.handles
  held : t.frees = 0 → 0 < t.handles

theorem held_first : first.Held := ⟨fun _ => by decide, fun _ => by decide⟩

/-- **No leak**, unless the last handle is overwritten. -/
theorem Held.change {inc last : Prop} {t t' : Tally} (ht : t.Held)
    (hlast : last → t.frees = 0 → 1 < t.handles) (hc : Change inc last t t') : t'.Held := by
  obtain ⟨hcounted, hheld⟩ := ht
  cases hc with
  | same => exact ⟨hcounted, hheld⟩
  | gain hpos _ =>
      refine ⟨fun hf => ?_, fun _ => Nat.succ_pos _⟩
      show int32 (t.refCount + 1) = int32 ((t.handles + 1 : Nat) : Int)
      rw [hcounted hf]
      unfold int32
      omega
  | detach hpos =>
      by_cases hzero : int32 (t.refCount - 1) = 0
      · have hfreed : t.detach.frees ≠ 0 := by simp [detach, hzero]
        exact ⟨fun hf => absurd hf hfreed, fun hf => absurd hf hfreed⟩
      · have hsame : t.detach.frees = t.frees := by simp [detach, hzero]
        refine ⟨fun hf => ?_, fun hf => ?_⟩
        · show int32 (t.refCount - 1) = int32 ((t.handles - 1 : Nat) : Int)
          rw [hcounted (hsame ▸ hf)]
          unfold int32
          omega
        · show 0 < t.handles - 1
          by_contra hnone
          -- the last handle would have freed the block
          have hone : t.handles = 1 := by omega
          rw [hcounted (hsame ▸ hf), hone] at hzero
          exact hzero (by decide)
  | overwrite hpos hover =>
      by_cases hzero : t.refCount = 0
      · have hfreed : t.overwrite.frees ≠ 0 := by simp [overwrite, hzero]
        exact ⟨fun hf => absurd hf hfreed, fun hf => absurd hf hfreed⟩
      · have hsame : t.overwrite.frees = t.frees := by simp [overwrite, hzero]
        refine ⟨fun hf => ?_, fun hf => ?_⟩
        · show int32 (t.refCount - 1) = int32 ((t.handles - 1 : Nat) : Int)
          rw [hcounted (hsame ▸ hf)]
          unfold int32
          omega
        · have hmany := hlast hover (hsame ▸ hf)
          show 0 < t.handles - 1
          omega
  | renew hpos _ =>
      have hkept : t.gain.overwrite.frees = 0 → t.frees = 0 := by
        unfold overwrite gain
        dsimp only
        split
        · exact fun hf => absurd hf (Nat.succ_ne_zero _)
        · exact id
      refine ⟨fun hf => ?_, fun _ => hpos⟩
      show int32 (int32 (t.refCount + 1) - 1) = int32 ((t.handles + 1 - 1 : Nat) : Int)
      rw [hcounted (hkept hf)]
      unfold int32
      omega

/-- Overwriting the last handle leaks the block. -/
theorem Held.leak {t : Tally} (ht : t.Held) (hfree : t.frees = 0) (hone : t.handles ≤ 1) :
    t.overwrite.frees = 0 ∧ t.overwrite.handles = 0 := by
  have hpos := ht.held hfree
  have hcount : t.refCount = 1 := by
    rw [ht.counted hfree, show t.handles = 1 by omega]
    decide
  have hsame : t.overwrite.frees = t.frees := by simp [overwrite, hcount]
  refine ⟨hsame.trans hfree, ?_⟩
  show t.handles - 1 = 0
  omega

end Tally

namespace SharedData

/-- The numbers of a block with so many handles. -/
def tally (n : Nat) (b : SharedData V) : Tally := ⟨n, b.refCount, b.frees⟩

theorem tally_detach (n : Nat) (b : SharedData V) :
    b.detach.tally (n - 1) = (b.tally n).detach := by
  unfold detach tally Tally.detach decrement
  dsimp only
  split <;> rfl

theorem tally_overwrite (n : Nat) (b : SharedData V) :
    b.overwrite.tally (n - 1) = (b.tally n).overwrite := by
  unfold overwrite tally Tally.overwrite decrement
  dsimp only
  split <;> rfl

end SharedData

namespace SessionHandles

/-- The numbers of a block in the memory. -/
def tally (s : SessionHandles V) (p : Nat) : Option Tally :=
  (s.memory[p]?).map (SharedData.tally (s.count p))

/-- Handles point to blocks that have been allocated. -/
def Valid (s : SessionHandles V) : Prop := ∀ p, 0 < s.count p → p < s.memory.length

/-! ### What the operations do to a block

Each operation is a few steps on the block and one on the list of handles. The two together are a
change of the tally. -/

theorem tally_construct_null (s : SessionHandles V) (now : Int) (uuid : Bytes) (p : Nat) :
    (s.construct false now uuid).tally p = s.tally p := by
  have hcount := s.count_append s.memory .null p
  unfold tally construct
  simp only [Bool.false_eq_true, if_false, hcount]
  rfl

/-- A new block has one handle, and no other block changes. -/
theorem tally_construct {s : SessionHandles V} (hv : s.Valid) (now : Int) (uuid : Bytes) (p : Nat) :
    (s.construct true now uuid).tally p =
      if p = s.memory.length then some .first else s.tally p := by
  have hcount := s.count_append (s.memory ++ [.new now uuid]) ⟨some s.memory.length⟩ p
  unfold tally construct
  simp only [if_true, hcount]
  by_cases hp : p = s.memory.length
  · have hnone : s.count p = 0 := by
      by_contra hne
      have hlt := hv p (Nat.pos_of_ne_zero hne)
      omega
    subst hp
    simp [pointing, hnone, SharedData.new, SharedData.tally, Tally.first]
  · have hother : pointing ⟨some s.memory.length⟩ p = 0 := by
      unfold pointing
      exact if_neg fun hc => hp (Option.some.inj hc).symm
    rw [if_neg hp, hother]
    rcases Nat.lt_or_ge p s.memory.length with hlt | hge
    · rw [List.getElem?_append_left hlt]
      rfl
    · have hout : (s.memory ++ [SharedData.new now uuid])[p]? = none :=
        List.getElem?_eq_none (by simp; omega)
      have hold : s.memory[p]? = none := List.getElem?_eq_none hge
      rw [hout, hold]
      rfl

theorem tally_copy (s : SessionHandles V) (h : HttpSession) (p : Nat) :
    (s.copy h).tally p =
      (s.tally p).map fun t => if h.dataPtr = some p then t.gain else t := by
  have hcount := s.count_append (onBlock s.memory h SharedData.increment) h p
  unfold tally copy
  simp only [hcount, onBlock_getElem?, pointing]
  split
  · cases s.memory[p]? <;> rfl
  · cases s.memory[p]? <;> rfl

theorem tally_destroy {s : SessionHandles V} {a : Nat} {old : HttpSession}
    (hold : s.handle a = some old) (p : Nat) :
    (s.destroy a old).tally p =
      (s.tally p).map fun t => if old.dataPtr = some p then t.detach else t := by
  have hcount := count_set hold (onBlock s.memory old SharedData.detach) none p
  unfold tally destroy
  rw [hcount, onBlock_getElem?, pointing]
  split
  · rw [Option.map_map, Option.map_map]
    exact congrArg (fun f => (s.memory[p]?).map f) (funext (SharedData.tally_detach _))
  · cases s.memory[p]? <;> rfl

/-- The block of the new value gains a handle, then the old block is overwritten. -/
theorem tally_assign {s : SessionHandles V} {a : Nat} {old : HttpSession}
    (hold : s.handle a = some old) (now : Int) (h : HttpSession) (p : Nat) :
    (s.assign now a old h).tally p =
      (s.tally p).map fun t =>
        if old.dataPtr = some p then (if h.dataPtr = some p then t.gain else t).overwrite
        else if h.dataPtr = some p then t.gain else t := by
  have hle := pointing_le_count hold p
  have hcount := count_set hold (onBlock (onBlock s.memory h fun b => b.increment.access now) old
    SharedData.overwrite) (some h) p
  unfold tally assign
  rw [hcount, onBlock_getElem?, onBlock_getElem?]
  unfold pointing at hle ⊢
  by_cases hold' : old.dataPtr = some p
  · rw [if_pos hold'] at hle
    by_cases hnew : h.dataPtr = some p
    · simp only [hold', hnew, if_true, Option.map_map]
      refine congrArg (fun f => (s.memory[p]?).map f) (funext fun b => ?_)
      have hback : s.count p - 1 + 1 = s.count p + 1 - 1 := by omega
      exact (congrArg (fun n => SharedData.tally n _) hback).trans (SharedData.tally_overwrite _ _)
    · simp only [hold', hnew, if_true, if_false, Option.map_map]
      exact congrArg (fun f => (s.memory[p]?).map f) (funext (SharedData.tally_overwrite _))
  · by_cases hnew : h.dataPtr = some p
    · simp only [hold', hnew, if_true, if_false, Option.map_map]
      rfl
    · simp only [hold', hnew, if_false, Option.map_map]
      rfl

/-! ### What a step does to a block

A step may change several blocks, and an assignment changes two of them. Each block changes in at
most one of the ways; an assignment of a handle to one of the same block makes it gain a handle and
lose it again (`renew`). -/

/-- The event makes another handle point to the block. -/
def Increments (s : SessionHandles V) (p : Nat) : Event → Prop
  | .copy other => s.handle other = some ⟨some p⟩
  | .assign a other _ => s.handle a ≠ none ∧ s.handle other = some ⟨some p⟩
  | _ => False

/-- The event overwrites a handle to the block with a handle that does not point to it. -/
def Overwrites (s : SessionHandles V) (p : Nat) : Event → Prop
  | .assign a other _ => s.handle a = some ⟨some p⟩ ∧ s.handle other ≠ none ∧
      s.handle other ≠ some ⟨some p⟩
  | _ => False

instance (s : SessionHandles V) (p : Nat) : (e : Event) → Decidable (Increments s p e)
  | .copy other => inferInstanceAs (Decidable (s.handle other = some ⟨some p⟩))
  | .assign a other _ =>
      inferInstanceAs (Decidable (s.handle a ≠ none ∧ s.handle other = some ⟨some p⟩))
  | .construct .. | .destroy _ => .isFalse id

instance (s : SessionHandles V) (p : Nat) : (e : Event) → Decidable (Overwrites s p e)
  | .assign a other _ => inferInstanceAs (Decidable (s.handle a = some ⟨some p⟩ ∧
      s.handle other ≠ none ∧ s.handle other ≠ some ⟨some p⟩))
  | .copy _ | .construct .. | .destroy _ => .isFalse id

theorem tally_eq_some {s : SessionHandles V} {p : Nat} {t : Tally} :
    s.tally p = some t ↔ ∃ b, s.memory[p]? = some b ∧ t = b.tally (s.count p) := by
  unfold tally
  rw [Option.map_eq_some_iff]
  exact exists_congr fun b => and_congr Iff.rfl eq_comm

theorem handle_points {s : SessionHandles V} {a p : Nat} {h : HttpSession}
    (hh : s.handle a = some h) :
    h.dataPtr = some p ↔ s.handle a = some ⟨some p⟩ := by
  obtain ⟨dataPtr⟩ := h
  rw [hh]
  simp

/-- The handle that points to a block counts. -/
theorem handles_pos {s : SessionHandles V} {a p : Nat} {h : HttpSession} {t : Tally}
    (hh : s.handle a = some h) (hptr : h.dataPtr = some p) (ht : s.tally p = some t) :
    0 < t.handles := by
  obtain ⟨b, -, rfl⟩ := tally_eq_some.mp ht
  exact count_pos ((handle_points hh).mp hptr)

/-- **The step of a block.** It is new, or its numbers change in one of a few ways. -/
theorem tally_cases {s : SessionHandles V} (hv : s.Valid) {e : Event} {p : Nat} {t' : Tally}
    (ht' : (step s e).tally p = some t') :
    (t' = .first ∧ s.tally p = none) ∨
      ∃ t, s.tally p = some t ∧ Tally.Change (Increments s p e) (Overwrites s p e) t t' := by
  rcases s.step_cases e with hs | ⟨canStore, now, uuid, rfl, hs⟩ | ⟨other, h, rfl, hother, hs⟩ |
    ⟨a, other, now, old, h, rfl, hold, hother, hs⟩ | ⟨a, old, rfl, hold, hs⟩
  · rw [hs] at ht'
    exact .inr ⟨t', ht', .same⟩
  · -- a new session
    cases canStore with
    | false =>
        rw [hs, tally_construct_null] at ht'
        exact .inr ⟨t', ht', .same⟩
    | true =>
        rw [hs, tally_construct hv] at ht'
        split at ht'
        · next hp =>
            refine .inl ⟨(Option.some.inj ht').symm, ?_⟩
            rw [tally, List.getElem?_eq_none (by omega)]
            rfl
        · exact .inr ⟨t', ht', .same⟩
  · -- a copy
    rw [hs, tally_copy] at ht'
    obtain ⟨t, ht, rfl⟩ := Option.map_eq_some_iff.mp ht'
    refine .inr ⟨t, ht, ?_⟩
    split
    · next hptr => exact .gain (handles_pos hother hptr ht) ((handle_points hother).mp hptr)
    · exact .same
  · -- an assignment: the block may be that of either handle, of both or of none
    rw [hs, tally_assign hold] at ht'
    obtain ⟨t, ht, rfl⟩ := Option.map_eq_some_iff.mp ht'
    refine .inr ⟨t, ht, ?_⟩
    by_cases hnew : h.dataPtr = some p
    · have hinc : Increments s p (.assign a other now) :=
        ⟨by rw [hold]; exact Option.some_ne_none old, (handle_points hother).mp hnew⟩
      by_cases hover : old.dataPtr = some p
      · rw [if_pos hover, if_pos hnew]
        exact .renew (handles_pos hold hover ht) hinc
      · rw [if_neg hover, if_pos hnew]
        exact .gain (handles_pos hother hnew ht) hinc
    · by_cases hover : old.dataPtr = some p
      · rw [if_pos hover, if_neg hnew]
        refine .overwrite (handles_pos hold hover ht)
          ⟨(handle_points hold).mp hover, ?_, fun hc => hnew ((handle_points hother).mpr hc)⟩
        rw [hother]
        exact Option.some_ne_none h
      · rw [if_neg hover, if_neg hnew]
        exact .same
  · -- a destruction
    rw [hs, tally_destroy hold] at ht'
    obtain ⟨t, ht, rfl⟩ := Option.map_eq_some_iff.mp ht'
    refine .inr ⟨t, ht, ?_⟩
    split
    · next hptr => exact .detach (handles_pos hold hptr ht)
    · exact .same

/-! ### Handles stay valid

A handle points to memory that was allocated. So a new block has no handle but the one that it was
made for. -/

theorem onBlock_length (memory : List (SharedData V)) (h : HttpSession)
    (f : SharedData V → SharedData V) : (onBlock memory h f).length = memory.length := by
  unfold onBlock
  split
  · exact List.length_modify ..
  · rfl

theorem valid_construct {s : SessionHandles V} (hv : s.Valid) (canStore : Bool) (now : Int)
    (uuid : Bytes) : (s.construct canStore now uuid).Valid := by
  intro p hpos
  cases canStore with
  | false =>
      refine hv p ?_
      rw [construct, if_neg Bool.false_ne_true, count_append] at hpos
      exact hpos
  | true =>
      rw [construct, if_pos rfl] at hpos ⊢
      rw [count_append] at hpos
      show p < (s.memory ++ [SharedData.new now uuid]).length
      rw [List.length_append, List.length_singleton]
      by_cases hp : p = s.memory.length
      · omega
      · have hnone : pointing ⟨some s.memory.length⟩ p = 0 :=
          if_neg fun hc => hp (Option.some.inj hc).symm
        have hlt := hv p (by omega)
        omega

/-- Handles stay valid. -/
theorem valid_step {s : SessionHandles V} (hv : s.Valid) (e : Event) : (step s e).Valid := by
  intro p hpos
  rcases s.step_cases e with hs | ⟨canStore, now, uuid, -, hs⟩ | ⟨other, h, -, hother, hs⟩ |
    ⟨a, other, now, old, h, -, hold, hother, hs⟩ | ⟨a, old, -, hold, hs⟩
  · rw [hs] at hpos ⊢
    exact hv p hpos
  · rw [hs] at hpos ⊢
    exact valid_construct hv canStore now uuid p hpos
  · have hle := pointing_le_count hother p
    rw [hs, copy] at hpos ⊢
    rw [count_append] at hpos
    show p < (onBlock s.memory h SharedData.increment).length
    rw [onBlock_length]
    exact hv p (by omega)
  · have hle := pointing_le_count hother p
    rw [hs, assign] at hpos ⊢
    rw [count_set hold] at hpos
    show p < (onBlock (onBlock s.memory h _) old _).length
    rw [onBlock_length, onBlock_length]
    dsimp only at hpos
    exact hv p (by omega)
  · rw [hs, destroy] at hpos ⊢
    rw [count_set hold] at hpos
    show p < (onBlock s.memory old SharedData.detach).length
    rw [onBlock_length]
    dsimp only at hpos
    exact hv p (by omega)

theorem valid_empty : (empty : SessionHandles V).Valid :=
  fun p hpos => by simp [count, empty] at hpos

/-- What holds of the first numbers of a block and survives every change holds of all blocks. -/
theorem tally_keeps {P : Tally → Prop} {s : SessionHandles V} (hv : s.Valid) {e : Event}
    (hfirst : P .first)
    (hchange : ∀ p t t', s.tally p = some t → P t →
      Tally.Change (Increments s p e) (Overwrites s p e) t t' → P t')
    (hP : ∀ p t, s.tally p = some t → P t) (p : Nat) (t' : Tally)
    (ht' : (step s e).tally p = some t') : P t' := by
  rcases tally_cases hv ht' with ⟨rfl, -⟩ | ⟨t, ht, hc⟩
  · exact hfirst
  · exact hchange p t t' ht (hP p t ht) hc

/-! ### Runs

The conditions of both results are about the state before a step and the event, and so they can be
checked along a run. -/

/-- No counter overflows: the block that gets a handle has got less than the largest number of them
that an `int` holds. -/
def Countable (s : SessionHandles V) (e : Event) : Prop :=
  ∀ p, Increments s p e → s.count p < 2147483647

/-- The reference counts are right, and no block is freed too early or twice. -/
structure Safe (s : SessionHandles V) : Prop where
  counted : ∀ (p : Nat) (b : SharedData V), s.memory[p]? = some b → b.frees = 0 →
    b.refCount = s.count p
  freedOnce : ∀ (p : Nat) (b : SharedData V), s.memory[p]? = some b → b.frees ≤ 1
  alive : ∀ a p, s.handle a = some ⟨some p⟩ → ∃ b, s.memory[p]? = some b ∧ b.frees = 0

/-- All blocks are sound. -/
structure Sound (s : SessionHandles V) : Prop where
  valid : s.Valid
  sound : ∀ p t, s.tally p = some t → t.Sound

theorem Sound.safe {s : SessionHandles V} (hs : s.Sound) : s.Safe where
  counted := fun p b hb => (hs.sound p _ (tally_eq_some.mpr ⟨b, hb, rfl⟩)).counted
  freedOnce := fun p b hb => (hs.sound p _ (tally_eq_some.mpr ⟨b, hb, rfl⟩)).freedOnce
  alive := by
    intro a p hh
    have hpos := count_pos hh
    obtain ⟨b, hb⟩ : ∃ b, s.memory[p]? = some b :=
      Option.isSome_iff_exists.mp (by simp [hs.valid p hpos])
    refine ⟨b, hb, ?_⟩
    by_contra hne
    have hnone := (hs.sound p _ (tally_eq_some.mpr ⟨b, hb, rfl⟩)).unused (Nat.pos_of_ne_zero hne)
    exact absurd hnone (Nat.ne_of_gt hpos)

/-- Blocks stay sound when no counter overflows. -/
theorem sound_step (s : SessionHandles V) (e : Event) (hs : s.Sound) (hok : Countable s e) :
    (step s e).Sound where
  valid := valid_step hs.valid e
  sound := by
    refine tally_keeps (P := Tally.Sound) hs.valid Tally.sound_first ?_ hs.sound
    intro p t t' ht hsound hc
    refine hsound.change (fun hinc => ?_) hc
    obtain ⟨b, -, rfl⟩ := tally_eq_some.mp ht
    exact hok p hinc

theorem sound_empty : (empty : SessionHandles V).Sound where
  valid := valid_empty
  sound := fun p t ht => by simp [tally, empty] at ht

/-- **Reference counting is safe** in every run in which no counter overflows. -/
theorem safe_run (events : List Event)
    (h : Run.Along step Countable (empty : SessionHandles V) events) :
    (run step (empty : SessionHandles V) events).Safe :=
  (Run.Along.inv sound_step sound_empty h).safe

theorem countable_of_few {s : SessionHandles V} {e : Event} (h : s.handles.length < 2147483647) :
    Countable s e := fun _ _ => Nat.lt_of_le_of_lt List.count_le_length h

/-- A session and a null session; the session is copied, assigned to the null session and to itself,
and all handles are destroyed. -/
theorem safe_run_six :
    (run step (empty : SessionHandles Unit)
      [.construct true 7 (ascii "a"), .construct false 7 [], .copy 0, .assign 1 0 8, .assign 0 0 9,
        .destroy 0, .destroy 1, .destroy 2]).Safe :=
  safe_run _ ⟨countable_of_few (by decide +kernel), countable_of_few (by decide +kernel),
    countable_of_few (by decide +kernel), countable_of_few (by decide +kernel),
    countable_of_few (by decide +kernel), countable_of_few (by decide +kernel),
    countable_of_few (by decide +kernel), countable_of_few (by decide +kernel), trivial⟩

/-- The counter of a session that is copied again and again. -/
theorem tally_copies (n : Nat) :
    (run step (empty : SessionHandles V)
      (.construct true 0 [] :: List.replicate n (.copy 0))).handle 0 =
        some ⟨some 0⟩ ∧
      (run step (empty : SessionHandles V)
        (.construct true 0 [] :: List.replicate n (.copy 0))).tally 0 =
        some ⟨n + 1, int32 (n + 1), 0⟩ := by
  induction n with
  | zero => exact ⟨rfl, rfl⟩
  | succ n ih =>
      rw [List.replicate_succ', ← List.cons_append, Run.run_append]
      generalize run step (empty : SessionHandles V)
        (.construct true 0 [] :: List.replicate n (.copy 0)) = s at ih ⊢
      obtain ⟨hhandle, htally⟩ := ih
      rw [Run.run_cons, Run.run_nil, step, hhandle]
      refine ⟨?_, ?_⟩
      · have hget := handle_eq_some.mp hhandle
        refine handle_eq_some.mpr ?_
        show (s.handles ++ [some ⟨some 0⟩])[0]? = _
        rw [List.getElem?_append_left (handle_lt hhandle)]
        exact hget
      · dsimp only
        rw [tally_copy, htally, Option.map_some, if_pos rfl]
        refine congrArg (fun r => some (Tally.mk (n + 1 + 1) r 0)) ?_
        show int32 (int32 ((n : Int) + 1) + 1) = int32 (((n + 1 : Nat) : Int) + 1)
        unfold int32
        omega

/-- A session with 2147483648 handles, more than an `int` can count. -/
theorem not_safe_overflow :
    ¬ ∀ events, (run step (empty : SessionHandles Unit) events).Safe := by
  intro hall
  obtain ⟨-, htally⟩ := tally_copies (V := Unit) 2147483647
  obtain ⟨b, hb, heq⟩ := tally_eq_some.mp htally
  have hcounted := (hall _).counted 0 b hb (congrArg Tally.frees heq).symm
  have hhandles := congrArg Tally.handles heq
  have hcount := congrArg Tally.refCount heq
  dsimp only [SharedData.tally] at hhandles hcount
  rw [← hcount, ← hhandles] at hcounted
  exact absurd hcounted (by decide)

/-- Every block that is not freed has a handle. -/
def NoLeak (s : SessionHandles V) : Prop :=
  ∀ (p : Nat) (b : SharedData V), s.memory[p]? = some b → b.frees = 0 →
    ∃ a, s.handle a = some ⟨some p⟩

/-- The event does not overwrite the last handle to a block with a handle to something else. -/
def KeepsLast (s : SessionHandles V) (e : Event) : Prop :=
  ∀ (p : Nat) (b : SharedData V), s.memory[p]? = some b → b.frees = 0 →
    Overwrites s p e → 1 < s.count p

/-- All blocks are held. -/
structure Held (s : SessionHandles V) : Prop where
  valid : s.Valid
  held : ∀ p t, s.tally p = some t → t.Held

theorem Held.noLeak {s : SessionHandles V} (hs : s.Held) : s.NoLeak := fun p b hb hf =>
  exists_of_count_pos ((hs.held p _ (tally_eq_some.mpr ⟨b, hb, rfl⟩)).held hf)

/-- Blocks stay held when no last handle is overwritten. -/
theorem held_step (s : SessionHandles V) (e : Event) (hs : s.Held) (hok : KeepsLast s e) :
    (step s e).Held where
  valid := valid_step hs.valid e
  held := by
    refine tally_keeps (P := Tally.Held) hs.valid Tally.held_first ?_ hs.held
    intro p t t' ht hheld hc
    refine hheld.change (fun hover hf => ?_) hc
    obtain ⟨b, hb, rfl⟩ := tally_eq_some.mp ht
    exact hok p b hb hf hover

theorem held_empty : (empty : SessionHandles V).Held where
  valid := valid_empty
  held := fun p t ht => by simp [tally, empty] at ht

/-- Overwriting the last handle to a block leaks it. -/
theorem leak_step (s : SessionHandles V) (e : Event) (hs : s.Held) (hbad : ¬ KeepsLast s e) :
    ¬ (step s e).NoLeak := by
  intro hnone
  refine hbad fun p b hb hf hover => ?_
  by_contra hone
  have ht := tally_eq_some.mpr ⟨b, hb, rfl⟩
  obtain ⟨hfree, hhandles⟩ := (hs.held p _ ht).leak hf (Nat.le_of_not_lt hone)
  cases e with
  | assign a other now =>
      obtain ⟨hold, hlive, hother⟩ := hover
      obtain ⟨h, hh⟩ := Option.ne_none_iff_exists'.mp hlive
      have hptr : h.dataPtr ≠ some p := fun hc => hother ((handle_points hh).mp hc)
      have hafter : (step s (.assign a other now)).tally p =
          some (b.tally (s.count p)).overwrite := by
        rw [step, hold, hh]
        dsimp only
        rw [tally_assign hold, ht, Option.map_some, if_pos rfl, if_neg hptr]
      obtain ⟨b', hb', heq⟩ := tally_eq_some.mp hafter
      rw [heq] at hfree hhandles
      obtain ⟨a', ha'⟩ := hnone p b' hb' hfree
      exact absurd hhandles (Nat.ne_of_gt (count_pos ha'))
  | construct _ _ _ | copy _ | destroy _ => exact hover.elim

/-- **No session data is leaked** in a run exactly when the last handle to a block is never
overwritten with a handle to something else. -/
theorem noLeak_iff (events : List Event) :
    (∀ before after, events = before ++ after →
      (run step (empty : SessionHandles V) before).NoLeak) ↔
    Run.Along step KeepsLast (empty : SessionHandles V) events :=
  Run.along_iff (fun _ hs => hs.noLeak) held_step leak_step held_empty events

/-- The only handle to a session becomes a null session. -/
theorem not_noLeak_null :
    ¬ ∀ events, (run step (empty : SessionHandles Unit) events).NoLeak := by
  intro hall
  have hnone := hall [.construct true 0 [], .construct false 0 [], .assign 0 1 1]
  obtain ⟨a, ha⟩ := hnone 0 { data := ⟨[], 0, ∅⟩, refCount := 0, frees := 0 } rfl rfl
  exact absurd (count_pos ha) (by decide +kernel)

end SessionHandles

end QtWebApp
