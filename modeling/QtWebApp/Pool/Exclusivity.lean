import QtWebApp.Pool.System

/-!
# QtWebApp.Pool.Exclusivity

No handler of the pool is used twice.

A handler is marked busy in the listener's thread, gets its connection in its own thread, gives
it up there, and is deleted by the timer. What relates these moments is an invariant of
each handler (`Worker.Inv`): one that is not busy has neither a connection waiting nor an
open socket, and one with a connection waiting has no open socket.

The memory of the pool is a list of handlers that only grows, so an address is never used again and
a handler that was deleted stays deleted.
-/

namespace QtWebApp

open Bytes

open HttpConnectionHandler (Event)

/-! ### The invariant

It holds of each handler by itself. For the pool it adds that the list of addresses has no
repetition, is not too long, and is the list of the handlers that exist. -/

/-- What relates the busy flag of a handler to its connections. -/
structure Worker.Inv (w : Worker) : Prop where
  idle : w.handler.busy = false → w.queue = [] ∧ w.handler.socket.state = .unconnected
  single : w.queue.length ≤ 1
  waiting : w.queue ≠ [] → w.handler.socket.state = .unconnected

namespace Worker

open HttpConnectionHandler

/-- What happens on the connection of a handler keeps its invariant. -/
theorem Inv.handler {w : Worker} (hw : w.Inv) {server : Server} {n : Nat} {e : Event}
    {h : HttpConnectionHandler} (hrun : w.handler.step server n e = some h) :
    Worker.Inv { w with handler := h } := by
  -- the flag is cleared only when the socket has become unconnected
  have hidle : h.busy = false → h.socket.state = .unconnected := by
    refine step_keeps_status (I := fun h => h.busy = false → h.socket.state = .unconnected)
      ?_ ?_ ?_ hrun fun hb => (hw.idle hb).2
    · intro h h' hI hbusy hstate hb
      rw [hstate]
      exact hI (hbusy ▸ hb)
    · intro h hI hopen hb
      exact absurd (hI hb) hopen
    · intro h _ _ _
      exact h.becomeUnconnected_state
  by_cases hq : w.queue = []
  · exact ⟨fun hb => ⟨hq, hidle hb⟩, hw.single, fun hne => absurd hq hne⟩
  · -- a connection is waiting: the handler is busy without a connection, and stays so
    have hbusy : w.handler.busy = true := by
      cases hb : w.handler.busy with
      | true => rfl
      | false => exact absurd (hw.idle hb).1 hq
    have hkept : h.busy = true ∧ h.socket.state = .unconnected := by
      refine step_keeps_status (I := fun h => h.busy = true ∧ h.socket.state = .unconnected)
        ?_ ?_ ?_ hrun ⟨hbusy, hw.waiting hq⟩
      · intro h h' hI hb hs
        exact ⟨hb.trans hI.1, hs.trans hI.2⟩
      · intro h hI hopen
        exact absurd hI.2 hopen
      · intro h hI hopen
        exact absurd hI.2 hopen
    refine ⟨fun hb => ?_, hw.single, fun _ => hkept.2⟩
    exact absurd (hb.symm.trans hkept.1) Bool.false_ne_true

/-- Delivering a queued connection keeps the invariant. -/
theorem Inv.deliver {w : Worker} (hw : w.Inv) (server : Server) (good : Bool) :
    (HttpConnectionHandlerPool.deliver server good w).Inv := by
  unfold HttpConnectionHandlerPool.deliver
  cases hq : w.queue with
  | nil => exact hw
  | cons d queue =>
      have hne : w.queue ≠ [] := by simp [hq]
      have hlen := hw.single
      rw [hq, List.length_cons] at hlen
      have hrest : queue = [] := List.length_eq_zero_iff.mp (by omega)
      subst hrest
      have hstatus := handleConnection_status server good (hw.waiting hne)
      refine ⟨fun hb => ?_, Nat.zero_le 1, fun hq' => absurd rfl hq'⟩
      exact absurd (hb.symm.trans hstatus.1) Bool.false_ne_true

end Worker

namespace HttpConnectionHandlerPool

/-- What holds of the pool between two events. -/
structure Inv (s : HttpConnectionHandlerPool) : Prop where
  nodup : s.pool.Nodup
  bounded : (s.pool.length : Int) ≤ max 0 s.settings.maxThreads
  alive : ∀ a, a ∈ s.pool ↔ (s.worker a).isSome = true
  workers : ∀ a w, s.worker a = some w → w.Inv

/-- The pool is empty at first. -/
theorem inv_new (settings : PoolSettings) : Inv (new settings) where
  nodup := List.nodup_nil
  bounded := Int.le_max_left 0 _
  alive := fun a => by simp [new, worker]
  workers := fun a w hw => by simp [new, worker] at hw

/-- A step keeps the invariant of each handler. -/
theorem Inv.step_worker {server : Server} {n : Nat}
    {s t : HttpConnectionHandlerPool} {e : PoolEvent} (h : Inv s)
    (hstep : step server n s e = some t) {b : Nat} {w : Worker}
    (hw : t.worker b = some w) : w.Inv := by
  rcases worker_step hstep hw with hold | ⟨d, w', hw', hidle, rfl⟩ | ⟨d, rfl⟩ |
    ⟨good, w', -, hw', rfl⟩ | ⟨e', w', h', -, hw', hrun, rfl⟩
  · exact h.workers b w hold
  · -- a free handler has no connection yet
    obtain ⟨hqueue, hstate⟩ := (h.workers b w' hw').idle hidle
    refine ⟨fun hb => (nomatch hb), ?_, fun _ => hstate⟩
    show (w'.queue ++ [d]).length ≤ 1
    rw [hqueue]
    exact Nat.le_refl 1
  · exact ⟨fun hb => (nomatch hb), Nat.le_refl 1, fun _ => rfl⟩
  · exact (h.workers b w' hw').deliver server good
  · exact (h.workers b w' hw').handler hrun

/-- Changing a handler in place does not concern the list of handlers. -/
theorem alive_update {s : HttpConnectionHandlerPool}
    (h : ∀ b, b ∈ s.pool ↔ (s.worker b).isSome = true) (a : Nat) (f : Worker → Worker) (b : Nat) :
    b ∈ (s.update a f).pool ↔ ((s.update a f).worker b).isSome = true := by
  rw [update_pool, h b]
  by_cases hab : a = b
  · subst hab
    rw [worker_update_self, Option.isSome_map]
  · rw [worker_update_ne s f hab]

/-- **A step of the pool.** -/
theorem inv_step {server : Server} {n : Nat} (s : HttpConnectionHandlerPool) (e : PoolEvent)
    (t : HttpConnectionHandlerPool) (h : Inv s) (hstep : step server n s e = some t) : Inv t := by
  have hworkers : ∀ a w, t.worker a = some w → w.Inv := fun _ _ hw => h.step_worker hstep hw
  cases e with
  | incomingConnection d =>
      cases hstep
      unfold incomingConnection at hworkers ⊢
      rcases s.getConnectionHandler_cases with ⟨a, -, -, hget⟩ | ⟨-, hroom, hget⟩ | ⟨-, -, hget⟩
      · rw [hget] at hworkers ⊢
        exact ⟨h.nodup, h.bounded, alive_update (alive_update h.alive a _) a _, hworkers⟩
      · rw [hget] at hworkers ⊢
        have halive : ∀ b, b ∈ s.grown.pool ↔ (s.grown.worker b).isSome = true := by
          intro b
          rw [worker_grown]
          show b ∈ s.pool ++ [s.memory.length] ↔ _
          rw [List.mem_append, List.mem_singleton, h.alive b]
          by_cases hb : b = s.memory.length <;> simp [hb]
        refine ⟨?_, ?_, alive_update halive _ _, hworkers⟩
        · refine List.nodup_append.mpr ⟨h.nodup, List.pairwise_singleton _ _, ?_⟩
          intro b hb b' hb' heq
          rw [heq, List.mem_singleton.mp hb', h.alive, worker_length] at hb
          cases hb
        · show ((s.pool ++ [s.memory.length]).length : Int) ≤ max 0 s.settings.maxThreads
          rw [List.length_append, List.length_singleton]
          omega
      · rw [hget]
        exact h
  | handleConnection a good =>
      cases hstep
      exact ⟨h.nodup, h.bounded, alive_update h.alive a _, hworkers⟩
  | handler a e =>
      rw [step] at hstep
      cases hw : s.worker a with
      | none =>
          rw [hw] at hstep
          cases hstep
          exact h
      | some w =>
          rw [hw] at hstep
          obtain ⟨h', -, rfl⟩ := Option.map_eq_some_iff.mp hstep
          exact ⟨h.nodup, h.bounded, alive_update h.alive a _, hworkers⟩
  | cleanup =>
      cases hstep
      rcases s.cleanup_cases with hs | ⟨a, -, -, -, hs⟩
      · rw [hs]
        exact h
      · rw [hs] at hworkers ⊢
        refine ⟨h.nodup.erase a, ?_, ?_, hworkers⟩
        · have hlen := List.length_erase_le (a := a) (l := s.pool)
          have hbounded := h.bounded
          show ((s.pool.erase a).length : Int) ≤ max 0 s.settings.maxThreads
          omega
        · intro b
          show b ∈ s.pool.erase a ↔ ((s.without a).worker b).isSome = true
          rw [worker_without, h.nodup.mem_erase_iff, h.alive b]
          by_cases hab : a = b
          · subst hab
            simp
          · simp [hab, Ne.symm hab]

/-! ### Exclusivity

What the invariant means in the terms of the pool. -/

/-- No handler is used twice, lost or created in excess. -/
structure Exclusive (s : HttpConnectionHandlerPool) : Prop where
  nodup : s.pool.Nodup
  bounded : (s.pool.length : Int) ≤ max 0 s.settings.maxThreads
  /-- A handler has at most one connection, queued or open. -/
  single : ∀ a w, s.worker a = some w →
    w.queue.length + (if w.handler.socket.state = .unconnected then 0 else 1) ≤ 1
  /-- A handler with a connection is in the pool, and `cleanup` leaves it there. -/
  kept : ∀ a w, s.worker a = some w →
    w.queue ≠ [] ∨ w.handler.socket.state ≠ .unconnected →
      a ∈ s.pool ∧ a ∈ s.cleanup.pool ∧ s.cleanup.worker a = some w
  /-- A connection is refused only when there are as many handlers as there may be, all busy. -/
  refused : ∀ d, (s.incomingConnection d).1 = none →
    (s.pool.length : Int) = max 0 s.settings.maxThreads ∧ ∀ a ∈ s.pool, s.isBusy a = true
  /-- `cleanup` deletes at most one handler, an idle one of more than the minimum. -/
  cleaned : s.cleanup = s ∨ ∃ a ∈ s.pool, s.isBusy a = false ∧
    s.settings.minThreads < s.idleCount s.pool ∧
    s.cleanup = { s with memory := s.memory.set a none, pool := s.pool.erase a }

theorem Inv.exclusive {s : HttpConnectionHandlerPool} (h : Inv s) : Exclusive s where
  nodup := h.nodup
  bounded := h.bounded
  single := by
    intro a w hw
    have hinv := h.workers a w hw
    by_cases hq : w.queue = []
    · rw [hq]
      split <;> decide
    · rw [if_pos (hinv.waiting hq)]
      exact hinv.single
  kept := by
    intro a w hw hconn
    have hbusy : s.isBusy a = true := by
      rw [isBusy_of_worker hw]
      cases hb : w.handler.busy with
      | true => rfl
      | false =>
          obtain ⟨hq, hu⟩ := (h.workers a w hw).idle hb
          rcases hconn with hqueued | hopen
          · exact absurd hq hqueued
          · exact absurd hu hopen
    have hmem : a ∈ s.pool := (h.alive a).mpr (by rw [hw]; rfl)
    refine ⟨hmem, ?_⟩
    rcases s.cleanup_cases with hs | ⟨b, hb, hidle, -, hs⟩
    · rw [hs]
      exact ⟨hmem, hw⟩
    · have hne : b ≠ a := by
        rintro rfl
        exact Bool.false_ne_true (hidle.symm.trans hbusy)
      rw [hs]
      refine ⟨(List.mem_erase_of_ne hne.symm).mpr hmem, ?_⟩
      rw [worker, List.getElem?_set_ne hne]
      exact hw
  refused := by
    intro d hnone
    unfold HttpConnectionHandlerPool.incomingConnection at hnone
    rcases s.getConnectionHandler_cases with ⟨a, -, -, hget⟩ | ⟨-, -, hget⟩ | ⟨hbusy, hfull, hget⟩
    · rw [hget] at hnone
      cases hnone
    · rw [hget] at hnone
      cases hnone
    · have hbounded := h.bounded
      exact ⟨by omega, hbusy⟩
  cleaned := s.cleanup_cases

/-- **Pool exclusivity**, after any run of the pool and the connections of its handlers. -/
theorem pool_exclusive {server : Server} {settings : PoolSettings} {n : Nat}
    {events : List PoolEvent} {s : HttpConnectionHandlerPool}
    (hrun : tryRun (step server n) (new settings) events = some s) : Exclusive s :=
  (Run.inv_tryRun inv_step (inv_new settings) hrun).exclusive

/-- A pool with one handler at most, which gets a connection, refuses one, and is deleted. -/
theorem pool_exclusive_one :
    ∃ s, tryRun (step (HttpConnectionHandler.plainServer defaultSettings) 5) (new ⟨0, 1⟩)
      [.incomingConnection 4, .handleConnection 0 true, .incomingConnection 5,
        .handler 0 (.receive (ascii "GET")), .handler 0 .closed, .cleanup] = some s ∧
      Exclusive s := by
  have hends : (tryRun (step (HttpConnectionHandler.plainServer defaultSettings) 5) (new ⟨0, 1⟩)
      [.incomingConnection 4, .handleConnection 0 true, .incomingConnection 5,
        .handler 0 (.receive (ascii "GET")), .handler 0 .closed, .cleanup]).isSome = true := by
    decide +kernel
  obtain ⟨s, hs⟩ := Option.isSome_iff_exists.mp hends
  exact ⟨s, hs, pool_exclusive hs⟩

end HttpConnectionHandlerPool

end QtWebApp
