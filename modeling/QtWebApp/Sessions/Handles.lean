import QtWebApp.Base.Number
import QtWebApp.Base.Run
import QtWebApp.HttpServer.HttpSession

/-!
# QtWebApp.Sessions.Handles

Making, copying, assigning and destroying sessions.

An `HttpSession` is a handle to a data block that counts its handles. Here the blocks carry
that count, and handles are objects that are created and destroyed; both are numbered in the
order of their creation. A block that is freed stays in the memory with the number of times
`delete` was called on it, which is not in the source, so that one can see whether a handle
still points to it or whether it is freed twice.

The temporary objects of C++ are handles like any other: a function that returns a session by value
copies it, and the copy is destroyed at the end of the statement.
-/

namespace QtWebApp

variable {V : Type}

/-- A data block with the count of its handles. -/
structure SharedData (V : Type) where
  data : HttpSessionData V
  refCount : Int
  /-- How often the block has been deleted. -/
  frees : Nat

namespace SharedData

/-- `new HttpSessionData()`, as the constructor of a session fills it. -/
def new (now : Int) (uuid : Bytes) : SharedData V where
  data := { id := uuid, lastAccess := now, values := ∅ }
  refCount := 1
  frees := 0

/-- `refCount++`. -/
def increment (b : SharedData V) : SharedData V := { b with refCount := int32 (b.refCount + 1) }

/-- `refCount--`. -/
def decrement (b : SharedData V) : SharedData V := { b with refCount := int32 (b.refCount - 1) }

/-- The time of the last access is set. -/
def access (now : Int) (b : SharedData V) : SharedData V :=
  { b with data := { b.data with lastAccess := now } }

/-- `delete`. -/
def delete (b : SharedData V) : SharedData V := { b with frees := b.frees + 1 }

/-- The part of the destructor on the block: it tests the count after the decrement. -/
def detach (b : SharedData V) : SharedData V :=
  if b.decrement.refCount = 0 then b.decrement.delete else b.decrement

/-- The part of the assignment on the old block: it tests the count before the decrement. -/
def overwrite (b : SharedData V) : SharedData V :=
  if b.refCount = 0 then b.decrement.delete else b.decrement

end SharedData

/-- All data blocks, and all `HttpSession` objects; one that was destroyed is gone. -/
structure SessionHandles (V : Type) where
  memory : List (SharedData V)
  handles : List (Option HttpSession)

namespace SessionHandles

/-- No session has been created yet. -/
def empty : SessionHandles V := ⟨[], []⟩

/-- The live handle with a number. -/
def handle (s : SessionHandles V) (a : Nat) : Option HttpSession := (s.handles[a]?).join

/-- How many live handles point to a block. -/
def count (s : SessionHandles V) (p : Nat) : Nat := s.handles.count (some ⟨some p⟩)

/-- Change the block a handle points to. -/
def onBlock (memory : List (SharedData V)) (h : HttpSession) (f : SharedData V → SharedData V) :
    List (SharedData V) :=
  match h.dataPtr with
  | some p => memory.modify p f
  | none => memory

/-- `HttpSession::HttpSession(bool canStore)`, with the time and what `QUuid::createUuid`
returns. -/
def construct (s : SessionHandles V) (canStore : Bool) (now : Int) (uuid : Bytes) :
    SessionHandles V :=
  if canStore then
    { memory := s.memory ++ [.new now uuid], handles := s.handles ++ [some ⟨some s.memory.length⟩] }
  else { s with handles := s.handles ++ [some .null] }

/-- `HttpSession::HttpSession(const HttpSession& other)`. -/
def copy (s : SessionHandles V) (other : HttpSession) : SessionHandles V where
  memory := onBlock s.memory other SharedData.increment
  handles := s.handles ++ [some other]

/-- `HttpSession::operator=` on the handle number `a`, which was `old`. -/
def assign (s : SessionHandles V) (now : Int) (a : Nat) (old other : HttpSession) :
    SessionHandles V where
  memory := onBlock (onBlock s.memory other fun b => b.increment.access now) old
    SharedData.overwrite
  handles := s.handles.set a (some other)

/-- `HttpSession::~HttpSession` on the handle number `a`, which is `old`. -/
def destroy (s : SessionHandles V) (a : Nat) (old : HttpSession) : SessionHandles V where
  memory := onBlock s.memory old SharedData.detach
  handles := s.handles.set a none

/-- What can happen to sessions. Handles are given by their numbers. -/
inductive Event
  | construct (canStore : Bool) (now : Int) (uuid : Bytes)
  | copy (other : Nat)
  | assign (a other : Nat) (now : Int)
  | destroy (a : Nat)
  deriving DecidableEq, Repr

/-- The handles and blocks after an event. What is done with a handle that does not exist changes
nothing. -/
def step (s : SessionHandles V) : Event → SessionHandles V
  | .construct canStore now uuid => s.construct canStore now uuid
  | .copy other =>
      match s.handle other with
      | some h => s.copy h
      | none => s
  | .assign a other now =>
      match s.handle a, s.handle other with
      | some old, some h => s.assign now a old h
      | _, _ => s
  | .destroy a =>
      match s.handle a with
      | some old => s.destroy a old
      | none => s

/-- What an event does: nothing, or one operation on handles that exist. -/
theorem step_cases (s : SessionHandles V) (e : Event) :
    step s e = s ∨
    (∃ canStore now uuid, e = .construct canStore now uuid ∧
      step s e = s.construct canStore now uuid) ∨
    (∃ other h, e = .copy other ∧ s.handle other = some h ∧ step s e = s.copy h) ∨
    (∃ a other now old h, e = .assign a other now ∧ s.handle a = some old ∧
      s.handle other = some h ∧ step s e = s.assign now a old h) ∨
    (∃ a old, e = .destroy a ∧ s.handle a = some old ∧ step s e = s.destroy a old) := by
  cases e with
  | construct canStore now uuid => exact .inr (.inl ⟨canStore, now, uuid, rfl, rfl⟩)
  | copy other =>
      rw [step]
      cases hother : s.handle other with
      | none => exact .inl rfl
      | some h => exact .inr (.inr (.inl ⟨other, h, rfl, hother, rfl⟩))
  | assign a other now =>
      rw [step]
      cases hold : s.handle a with
      | none => exact .inl rfl
      | some old =>
          cases hother : s.handle other with
          | none => exact .inl rfl
          | some h =>
              exact .inr (.inr (.inr (.inl ⟨a, other, now, old, h, rfl, hold, hother, rfl⟩)))
  | destroy a =>
      rw [step]
      cases hold : s.handle a with
      | none => exact .inl rfl
      | some old => exact .inr (.inr (.inr (.inr ⟨a, old, rfl, hold, rfl⟩)))

/-! ### Handles and blocks

How the number of handles to a block changes when a handle is made, overwritten or destroyed. -/

theorem handle_eq_some {s : SessionHandles V} {a : Nat} {h : HttpSession} :
    s.handle a = some h ↔ s.handles[a]? = some (some h) := by
  unfold handle
  cases s.handles[a]? with
  | none => simp
  | some o => exact ⟨congrArg some, Option.some.inj⟩

theorem handle_lt {s : SessionHandles V} {a : Nat} {h : HttpSession} (hh : s.handle a = some h) :
    a < s.handles.length := (List.getElem?_eq_some_iff.mp (handle_eq_some.mp hh)).1

theorem count_pos {s : SessionHandles V} {a p : Nat} (hh : s.handle a = some ⟨some p⟩) :
    0 < s.count p := List.count_pos_iff.mpr (List.mem_of_getElem? (handle_eq_some.mp hh))

theorem exists_of_count_pos {s : SessionHandles V} {p : Nat} (hp : 0 < s.count p) :
    ∃ a, s.handle a = some ⟨some p⟩ := by
  obtain ⟨a, ha⟩ := List.mem_iff_getElem?.mp (List.count_pos_iff.mp hp)
  exact ⟨a, handle_eq_some.mpr ha⟩

/-- Does a handle point to the block? -/
def pointing (h : HttpSession) (p : Nat) : Nat := if h.dataPtr = some p then 1 else 0

theorem count_append (s : SessionHandles V) (memory : List (SharedData V))
    (h : HttpSession) (p : Nat) :
    count ⟨memory, s.handles ++ [some h]⟩ p = s.count p + pointing h p := by
  obtain ⟨dataPtr⟩ := h
  simp [count, pointing, List.count_append, List.count_singleton]

theorem pointing_le_count {s : SessionHandles V} {a : Nat} {h : HttpSession}
    (hh : s.handle a = some h) (p : Nat) : pointing h p ≤ s.count p := by
  obtain ⟨dataPtr⟩ := h
  unfold pointing
  split
  · next hptr =>
      cases hptr
      exact count_pos hh
  · exact Nat.zero_le _

/-- When a handle is replaced, its block loses a handle and the block of the new one gets one. -/
theorem count_set {s : SessionHandles V} {a : Nat} {old : HttpSession}
    (hold : s.handle a = some old) (memory : List (SharedData V))
    (o : Option HttpSession) (p : Nat) :
    count ⟨memory, s.handles.set a o⟩ p =
      s.count p - pointing old p + (match o with | some h => pointing h p | none => 0) := by
  have hlt := handle_lt hold
  have hget : s.handles[a] = some old :=
    (List.getElem?_eq_some_iff.mp (handle_eq_some.mp hold)).2
  have hpoints : ∀ h : HttpSession,
      (if (some h == some (⟨some p⟩ : HttpSession)) = true then 1 else 0) = pointing h p := by
    intro h
    obtain ⟨dataPtr⟩ := h
    simp [pointing]
  have hset := List.count_set (a := o) (b := some (⟨some p⟩ : HttpSession)) hlt
  rw [hget, hpoints] at hset
  cases o with
  | none => exact hset
  | some h =>
      rw [hpoints] at hset
      exact hset

theorem onBlock_getElem? (memory : List (SharedData V)) (h : HttpSession)
    (f : SharedData V → SharedData V) (p : Nat) :
    (onBlock memory h f)[p]? = if h.dataPtr = some p then (memory[p]?).map f else memory[p]? := by
  unfold onBlock
  cases h.dataPtr with
  | none => simp
  | some q =>
      by_cases hq : q = p <;> simp [hq]

end SessionHandles

end QtWebApp
