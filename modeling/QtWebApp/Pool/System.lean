import QtWebApp.Connection.Events
import QtWebApp.HttpServer.HttpConnectionHandlerPool

/-!
# QtWebApp.Pool.System

The pool and its handlers at work.

Connections come in, queued calls are delivered, connections go on and end, and the timer
cleans up, in any order. Each of these is one event: the pool's part runs under its mutex, and a
handler's in its own thread, where it is finished before the next queued call; that a handler
is marked free in the middle of it makes no difference.

Almost everything that is shown about the pool is shown about one handler in it. `worker_step` says
what a step can do to the handler at one address: nothing, an event on its connection, a connection
that is queued or delivered to it, or its deletion.
-/

namespace QtWebApp

open Bytes

open HttpConnectionHandler (Event)

namespace HttpConnectionHandlerPool

/-! ### The system

A connection that comes in is given to a handler at once and delivered to it later, as a queued
call. -/

/-- What can happen to the pool, in any order. -/
inductive PoolEvent
  | incomingConnection (socketDescriptor : Nat)
  /-- The handler at an address gets its next queued call. -/
  | handleConnection (a : Nat) (good : Bool)
  /-- Something happens on the connection of the handler at an address. -/
  | handler (a : Nat) (e : Event)
  | cleanup
  deriving DecidableEq, Repr

/-- The pool after an event. -/
def step (server : Server) (fuel : Nat) (s : HttpConnectionHandlerPool) :
    PoolEvent → Option HttpConnectionHandlerPool
  | .incomingConnection socketDescriptor => some (s.incomingConnection socketDescriptor).2
  | .handleConnection a good => some (s.update a (deliver server good))
  | .handler a e =>
      match s.worker a with
      | none => some s
      | some w =>
          (w.handler.step server fuel e).map fun h => s.update a fun w => { w with handler := h }
  | .cleanup => some s.cleanup

/-! ### The memory

A handler is found by its address. -/

theorem worker_update_self (s : HttpConnectionHandlerPool) (a : Nat) (f : Worker → Worker) :
    (s.update a f).worker a = (s.worker a).map f := by
  unfold worker update
  rw [List.getElem?_modify_eq]
  cases s.memory[a]? with
  | none => rfl
  | some w => rfl

theorem worker_update_ne (s : HttpConnectionHandlerPool) {a b : Nat} (f : Worker → Worker)
    (h : a ≠ b) : (s.update a f).worker b = s.worker b := by
  unfold worker update
  rw [List.getElem?_modify_ne _ _ h]

@[simp] theorem update_pool (s : HttpConnectionHandlerPool) (a : Nat) (f : Worker → Worker) :
    (s.update a f).pool = s.pool := rfl

theorem isBusy_of_worker {s : HttpConnectionHandlerPool} {a : Nat} {w : Worker}
    (hw : s.worker a = some w) : s.isBusy a = w.handler.busy := by
  rw [isBusy, hw]
  rfl

/-! ### What the pool does

The functions of the pool by their cases. -/

/-- A free handler, a new one, or none at all. -/
theorem getConnectionHandler_cases (s : HttpConnectionHandlerPool) :
    (∃ a ∈ s.pool, s.isBusy a = false ∧ s.getConnectionHandler =
      (some a, s.update a fun w => { w with handler := w.handler.setBusy })) ∨
    ((∀ a ∈ s.pool, s.isBusy a = true) ∧ (s.pool.length : Int) < s.settings.maxThreads ∧
      s.getConnectionHandler = (some s.memory.length,
        { s with
          memory := s.memory ++ [some ⟨HttpConnectionHandler.new.setBusy, []⟩]
          pool := s.pool ++ [s.memory.length] })) ∨
    ((∀ a ∈ s.pool, s.isBusy a = true) ∧ s.settings.maxThreads ≤ s.pool.length ∧
      s.getConnectionHandler = (none, s)) := by
  unfold getConnectionHandler
  cases hfind : s.pool.find? fun a => !s.isBusy a with
  | some a =>
      have hfree := List.find?_some hfind
      exact .inl ⟨a, List.mem_of_find?_eq_some hfind, by simpa using hfree, rfl⟩
  | none =>
      have hbusy : ∀ a ∈ s.pool, s.isBusy a = true := by
        intro a ha
        simpa using List.find?_eq_none.mp hfind a ha
      right
      dsimp only
      by_cases hroom : (s.pool.length : Int) < s.settings.maxThreads
      · exact .inl ⟨hbusy, hroom, if_pos hroom⟩
      · exact .inr ⟨hbusy, Int.not_lt.mp hroom, if_neg hroom⟩

/-- The number of handlers that are not busy. -/
def idleCount (s : HttpConnectionHandlerPool) (l : List Nat) : Nat :=
  (l.filter fun a => !s.isBusy a).length

/-- The handler that `cleanup` deletes is idle, and there are more idle ones than the minimum. -/
theorem surplus_spec {s : HttpConnectionHandlerPool} {l : List Nat} {idleCounter : Int} {a : Nat}
    (h : s.surplus idleCounter l = some a) :
    a ∈ l ∧ s.isBusy a = false ∧ s.settings.minThreads < idleCounter + s.idleCount l := by
  induction l generalizing idleCounter with
  | nil => cases h
  | cons b l ih =>
      unfold surplus at h
      unfold idleCount at ih ⊢
      cases hb : s.isBusy b with
      | true =>
          simp only [hb, if_true] at h
          obtain ⟨hmem, hidle, hcount⟩ := ih h
          refine ⟨List.mem_cons_of_mem b hmem, hidle, ?_⟩
          simpa [hb] using hcount
      | false =>
          simp only [hb, if_false, Bool.false_eq_true] at h
          split at h
          · next hmore =>
              cases h
              refine ⟨List.mem_cons_self, hb, ?_⟩
              simp only [List.filter_cons, hb, Bool.not_false, if_true, List.length_cons]
              omega
          · obtain ⟨hmem, hidle, hcount⟩ := ih h
            refine ⟨List.mem_cons_of_mem b hmem, hidle, ?_⟩
            simp only [List.filter_cons, hb, Bool.not_false, if_true, List.length_cons]
            omega

/-- `cleanup` does nothing, or deletes one idle handler of too many. -/
theorem cleanup_cases (s : HttpConnectionHandlerPool) :
    s.cleanup = s ∨ ∃ a ∈ s.pool, s.isBusy a = false ∧
      s.settings.minThreads < s.idleCount s.pool ∧
      s.cleanup = { s with memory := s.memory.set a none, pool := s.pool.erase a } := by
  unfold cleanup
  cases hsurplus : s.surplus 0 s.pool with
  | none => exact .inl rfl
  | some a =>
      obtain ⟨hmem, hidle, hcount⟩ := surplus_spec hsurplus
      exact .inr ⟨a, hmem, hidle, by omega, rfl⟩

/-! ### What becomes of a handler

The view of one handler, in which the rest of the pool has disappeared. -/

/-- The pool with one more handler. -/
def grown (s : HttpConnectionHandlerPool) : HttpConnectionHandlerPool :=
  { s with
    memory := s.memory ++ [some ⟨HttpConnectionHandler.new.setBusy, []⟩]
    pool := s.pool ++ [s.memory.length] }

/-- The next address is free. -/
theorem worker_length (s : HttpConnectionHandlerPool) : s.worker s.memory.length = none := by
  rw [worker, List.getElem?_eq_none (Nat.le_refl _)]
  rfl

/-- A new handler is a new one at the next address. -/
theorem worker_grown (s : HttpConnectionHandlerPool) (b : Nat) :
    s.grown.worker b = if b = s.memory.length then some ⟨HttpConnectionHandler.new.setBusy, []⟩
      else s.worker b := by
  unfold worker grown
  dsimp only
  rcases Nat.lt_trichotomy b s.memory.length with hlt | rfl | hgt
  · rw [List.getElem?_append_left hlt, if_neg (Nat.ne_of_lt hlt)]
  · rw [List.getElem?_concat_length, if_pos rfl]
    rfl
  · rw [if_neg (Nat.ne_of_gt hgt), List.getElem?_eq_none (Nat.le_of_lt hgt),
      List.getElem?_eq_none (by simp; omega)]

/-- The pool without one of its handlers. -/
def without (s : HttpConnectionHandlerPool) (a : Nat) : HttpConnectionHandlerPool :=
  { s with memory := s.memory.set a none, pool := s.pool.erase a }

theorem worker_without (s : HttpConnectionHandlerPool) (a b : Nat) :
    (s.without a).worker b = if a = b then none else s.worker b := by
  unfold worker without
  dsimp only
  rw [List.getElem?_set]
  by_cases hab : a = b
  · subst hab
    by_cases hlt : a < s.memory.length <;> simp [hlt]
  · simp [hab]

/-- What the handler at an address was before a connection came in. -/
theorem worker_incomingConnection {s : HttpConnectionHandlerPool} {d b : Nat} {w : Worker}
    (hw : (s.incomingConnection d).2.worker b = some w) :
    s.worker b = some w ∨
    (∃ w', s.worker b = some w' ∧ w'.handler.busy = false ∧
      w = ⟨w'.handler.setBusy, w'.queue ++ [d]⟩) ∨
    w = ⟨HttpConnectionHandler.new.setBusy, [d]⟩ := by
  unfold incomingConnection at hw
  rcases s.getConnectionHandler_cases with ⟨a, -, hidle, hget⟩ | ⟨-, -, hget⟩ | ⟨-, -, hget⟩
  · rw [hget] at hw
    dsimp only at hw
    by_cases hab : a = b
    · subst hab
      rw [worker_update_self, worker_update_self, Option.map_map] at hw
      obtain ⟨w', hw', rfl⟩ := Option.map_eq_some_iff.mp hw
      exact .inr (.inl ⟨w', hw', (isBusy_of_worker hw').symm.trans hidle, rfl⟩)
    · rw [worker_update_ne _ _ hab, worker_update_ne _ _ hab] at hw
      exact .inl hw
  · rw [hget] at hw
    dsimp only at hw
    by_cases hab : s.memory.length = b
    · subst hab
      rw [worker_update_self] at hw
      obtain ⟨w', hw', rfl⟩ := Option.map_eq_some_iff.mp hw
      have hnew := (s.worker_grown s.memory.length).symm.trans hw'
      rw [if_pos rfl] at hnew
      cases hnew
      exact .inr (.inr rfl)
    · rw [worker_update_ne _ _ hab] at hw
      have hold := (s.worker_grown b).symm.trans hw
      rw [if_neg (Ne.symm hab)] at hold
      exact .inl hold
  · rw [hget] at hw
    exact .inl hw

/-- **What a step can do to a handler.** -/
theorem worker_step {server : Server} {n : Nat} {s t : HttpConnectionHandlerPool} {e : PoolEvent}
    {b : Nat} {w : Worker} (hstep : step server n s e = some t) (hw : t.worker b = some w) :
    s.worker b = some w ∨
    (∃ d w', s.worker b = some w' ∧ w'.handler.busy = false ∧
      w = ⟨w'.handler.setBusy, w'.queue ++ [d]⟩) ∨
    (∃ d, w = ⟨HttpConnectionHandler.new.setBusy, [d]⟩) ∨
    (∃ good w', e = .handleConnection b good ∧ s.worker b = some w' ∧ w = deliver server good w') ∨
    (∃ e' w' h, e = .handler b e' ∧ s.worker b = some w' ∧
      w'.handler.step server n e' = some h ∧ w = { w' with handler := h }) := by
  cases e with
  | incomingConnection d =>
      cases hstep
      rcases worker_incomingConnection hw with hold | ⟨w', hw', hidle, heq⟩ | heq
      · exact .inl hold
      · exact .inr (.inl ⟨d, w', hw', hidle, heq⟩)
      · exact .inr (.inr (.inl ⟨d, heq⟩))
  | handleConnection a good =>
      cases hstep
      by_cases hab : a = b
      · subst hab
        rw [worker_update_self] at hw
        obtain ⟨w', hw', rfl⟩ := Option.map_eq_some_iff.mp hw
        exact .inr (.inr (.inr (.inl ⟨good, w', rfl, hw', rfl⟩)))
      · rw [worker_update_ne _ _ hab] at hw
        exact .inl hw
  | handler a e =>
      rw [step] at hstep
      cases hworker : s.worker a with
      | none =>
          rw [hworker] at hstep
          cases hstep
          exact .inl hw
      | some w₀ =>
          rw [hworker] at hstep
          obtain ⟨h, hrun, rfl⟩ := Option.map_eq_some_iff.mp hstep
          by_cases hab : a = b
          · subst hab
            rw [worker_update_self] at hw
            obtain ⟨w', hw', rfl⟩ := Option.map_eq_some_iff.mp hw
            cases hworker.symm.trans hw'
            exact .inr (.inr (.inr (.inr ⟨e, w₀, h, rfl, hworker, hrun, rfl⟩)))
          · rw [worker_update_ne _ _ hab] at hw
            exact .inl hw
  | cleanup =>
      cases hstep
      rcases s.cleanup_cases with hs | ⟨a, -, -, -, hs⟩
      · rw [hs] at hw
        exact .inl hw
      · rw [hs] at hw
        have hold := (s.worker_without a b).symm.trans hw
        exact .inl (Option.ite_none_left_eq_some.mp hold).2

end HttpConnectionHandlerPool

end QtWebApp
