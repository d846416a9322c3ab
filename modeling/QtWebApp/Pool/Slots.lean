import QtWebApp.Connection.Phases
import QtWebApp.Pool.Exclusivity

/-!
# QtWebApp.Pool.Slots

Which handlers of the pool are lost.

A handler is busy from the moment it is chosen until the slot `disconnected` has run. There are
two ways never to get there: the socket does not take the descriptor of the connection, so
that it is never connected and never becomes unconnected; and a TLS connection ends before its
handshake is complete, when `disconnected` is not yet connected to the socket. A run without
these keeps every busy handler attached to a connection, and any run with one of them loses a
handler (`noneLost_iff`).

In both cases the handler waits for a signal that does not come: the flag is set when the handler is
chosen, and nothing else in the pool would ever reset it. Such a handler counts against the limit
for ever, and the pool is exhausted when all of them are lost.
-/

namespace QtWebApp

open Bytes

namespace HttpConnectionHandler

/-! ### The TLS handshake

During the handshake no slot is connected that could free the handler. -/

/-- The event ends any open connection. -/
def Event.Ends (h : HttpConnectionHandler) : Event → Prop
  | .closed => True
  | .readTimeout => h.readTimer = true
  | _ => False

instance (h : HttpConnectionHandler) : (e : Event) → Decidable (e.Ends h)
  | .closed => .isTrue trivial
  | .readTimeout => inferInstanceAs (Decidable (h.readTimer = true))
  | .receive _ | .encrypted | .sent | .webSocketMessage _ | .webSocketClosed => .isFalse id

/-- During the handshake nothing happens but that it is completed, or the connection ends. -/
theorem Shaking.step {server : Server} {n : Nat} {h h' : HttpConnectionHandler} {e : Event}
    (hs : Shaking server h) (hrun : h.step server n e = some h') (he : ¬ e.Ends h) :
    Shaking server h' ∨ Live server h' := by
  cases e with
  | receive segment =>
      rw [HttpConnectionHandler.step, receiveEvent, if_pos ⟨hs.ssl, hs.encrypted⟩] at hrun
      cases hrun
      exact .inl hs
  | encrypted =>
      rw [HttpConnectionHandler.step, if_pos ⟨hs.ssl, hs.state, hs.encrypted⟩] at hrun
      cases hrun
      exact .inr hs.emitEncrypted
  | sent =>
      cases hrun
      have hstate : (h.onSocket fun s => { s with unsent := false }).socket.state ≠ .closing := by
        intro hclosing
        cases hs.state.symm.trans hclosing
      rw [sentEvent, if_neg hstate]
      exact .inl ⟨hs.ssl, hs.encrypted, hs.state, rfl, hs.busy, hs.webSocket, hs.type, hs.wired,
        hs.unwatched, hs.starts⟩
  | closed => exact absurd trivial he
  | readTimeout =>
      have hoff : ¬ h.readTimer = true := he
      rw [HttpConnectionHandler.step, if_neg hoff] at hrun
      cases hrun
      exact .inl hs
  | webSocketMessage reply =>
      cases hrun
      rw [hs.webSocket]
      exact .inl hs
  | webSocketClosed =>
      cases hrun
      rw [hs.webSocket]
      exact .inl hs

/-- The end of a connection during the handshake runs no slot. -/
theorem Shaking.becomeUnconnected {server : Server} {h : HttpConnectionHandler}
    (hs : Shaking server h) :
    h.becomeUnconnected.busy = true ∧ h.becomeUnconnected.socket.state = .unconnected := by
  refine ⟨?_, h.becomeUnconnected_state⟩
  have hquiet := emitDisconnected_unwatched
    (h := h.onSocket fun s => { s with state := .unconnected }) hs.webSocket hs.wired hs.unwatched
  rw [HttpConnectionHandler.becomeUnconnected, hquiet]
  exact hs.busy

/-- A connection that ends during the handshake leaves its handler busy. -/
theorem Shaking.lost {server : Server} {n : Nat} {h h' : HttpConnectionHandler} {e : Event}
    (hs : Shaking server h) (hrun : h.step server n e = some h') (he : e.Ends h) :
    h'.busy = true ∧ h'.socket.state = .unconnected := by
  have hopen : h.socket.state ≠ .unconnected := by
    rw [hs.state]
    exact SocketState.noConfusion
  cases e with
  | closed =>
      rw [HttpConnectionHandler.step, if_neg hopen] at hrun
      cases hrun
      exact hs.becomeUnconnected
  | readTimeout =>
      have hon : h.readTimer = true := he
      rw [HttpConnectionHandler.step, if_pos hon] at hrun
      cases hrun
      -- nothing has been written, so the socket does not wait
      have hflushed : Shaking server
          ({ h with readTimer := false }.onSocket (TcpSocket.flush server.network)) := by
        refine ⟨hs.ssl, hs.encrypted, hs.state, ?_, hs.busy, hs.webSocket, hs.type, hs.wired,
          hs.unwatched, hs.starts⟩
        show (h.socket.unsent && !server.network.drains h.socket.flushes) = false
        rw [hs.unsent]
        rfl
      have hended : ({ h with readTimer := false }.onSocket
          (TcpSocket.flush server.network)).disconnectFromHost =
          ({ h with readTimer := false }.onSocket
            (TcpSocket.flush server.network)).becomeUnconnected := by
        rw [HttpConnectionHandler.disconnectFromHost, if_neg, if_neg]
        · rw [hflushed.unsent]
          exact Bool.false_ne_true
        · rw [hflushed.state]
          exact SocketState.noConfusion
      have hlost := hflushed.becomeUnconnected
      rw [← hended] at hlost
      rw [readTimeout_socket hs.type]
      exact hlost
  | receive _ | encrypted | sent | webSocketMessage _ | webSocketClosed => exact he.elim

end HttpConnectionHandler

open HttpConnectionHandler

/-! ### Handlers of the pool

A handler is safe as long as its connection is one whose end will be noticed. Each event either
keeps that, or loses the handler on the spot. -/

/-- Where a handler stands: it has no connection, and is busy only when one is queued; or its
connection is open. -/
structure Worker.Safe (server : Server) (w : Worker) : Prop where
  inv : w.Inv
  phase : (w.handler.Closed ∧ (w.handler.busy = true → w.queue ≠ [])) ∨
    (w.queue = [] ∧ (Shaking server w.handler ∨ Live server w.handler))

namespace HttpConnectionHandlerPool

/-- Every busy handler has a connection, queued or open. -/
def NoneLost (s : HttpConnectionHandlerPool) : Prop :=
  ∀ a w, s.worker a = some w → w.handler.busy = true →
    w.queue ≠ [] ∨ w.handler.socket.state ≠ .unconnected

/-- The event loses no handler: the socket takes the descriptor of a connection that is delivered,
and a TLS connection does not end before its handshake is complete. -/
def Harmless (server : Server) (s : HttpConnectionHandlerPool) : PoolEvent → Prop
  | .handleConnection a good => ∀ w, s.worker a = some w → w.queue ≠ [] → good = true
  | .handler a e => ∀ w, s.worker a = some w → w.handler.socket.state ≠ .unconnected →
      e.Ends w.handler → Encrypted server w.handler
  | _ => True

/-- The invariant of a pool that has lost no handler. -/
structure Safe (server : Server) (s : HttpConnectionHandlerPool) : Prop where
  inv : Inv s
  workers : ∀ a w, s.worker a = some w → w.Safe server

/-- A pool with the invariant has lost no handler. -/
theorem Safe.noneLost {server : Server} {s : HttpConnectionHandlerPool} (hs : Safe server s) :
    NoneLost s := by
  intro a w hw hbusy
  rcases (hs.workers a w hw).phase with ⟨-, hqueued⟩ | ⟨-, hshaking | hlive⟩
  · exact .inl (hqueued hbusy)
  · right
    rw [hshaking.state]
    exact SocketState.noConfusion
  · right
    intro hu
    exact absurd ((hlive.closed hu).2.symm.trans hbusy) Bool.false_ne_true

/-- A harmless step loses no handler. -/
theorem safe_step {server : Server} {n : Nat} (s : HttpConnectionHandlerPool) (e : PoolEvent)
    (t : HttpConnectionHandlerPool) (hs : Safe server s) (hok : Harmless server s e)
    (hstep : step server n s e = some t) : Safe server t := by
  refine ⟨inv_step s e t hs.inv hstep, fun b w hw => ⟨hs.inv.step_worker hstep hw, ?_⟩⟩
  rcases worker_step hstep hw with hold | ⟨d, w', hw', hidle, rfl⟩ | ⟨d, rfl⟩ |
    ⟨good, w', rfl, hw', rfl⟩ | ⟨e', w', h', rfl, hw', hrun, rfl⟩
  · exact (hs.workers b w hold).phase
  · -- a handler that is free is closed, and gets a connection queued
    left
    have hclosed : w'.handler.Closed := by
      rcases (hs.workers b w' hw').phase with ⟨hclosed, -⟩ | ⟨-, hshaking | hlive⟩
      · exact hclosed
      · exact absurd (hidle.symm.trans hshaking.busy) Bool.false_ne_true
      · have hu : w'.handler.socket.state = .unconnected :=
          ((hs.workers b w' hw').inv.idle hidle).2
        exact (hlive.closed hu).1
    exact ⟨⟨hclosed.state, hclosed.webSocket, hclosed.type, hclosed.wired, hclosed.unwatched,
      hclosed.unread⟩, fun _ hnil => List.cons_ne_nil _ _ (List.append_eq_nil_iff.mp hnil).2⟩
  · left
    refine ⟨⟨rfl, rfl, HandlerType.noConfusion, ?_, List.not_mem_nil, List.not_mem_nil⟩,
      fun _ => List.cons_ne_nil d []⟩
    intro slot hslot
    cases hslot
  · -- the queued connection is delivered
    have hsafe := hs.workers b w' hw'
    unfold deliver
    cases hqueue : w'.queue with
    | nil =>
        have hphase := hsafe.phase
        rw [hqueue] at hphase
        simpa [hqueue] using hphase
    | cons d queue =>
        have hne : w'.queue ≠ [] := by
          rw [hqueue]
          exact List.cons_ne_nil d queue
        have hgood : good = true := hok w' hw' hne
        have hlen := hsafe.inv.single
        rw [hqueue, List.length_cons] at hlen
        have hrest : queue = [] := List.length_eq_zero_iff.mp (by omega)
        have hclosed : w'.handler.Closed := by
          rcases hsafe.phase with ⟨hclosed, -⟩ | ⟨hnil, -⟩
          · exact hclosed
          · exact absurd hnil hne
        have hopened := @HttpConnectionHandler.Closed.handleConnection server _ hclosed
        rw [hgood]
        refine .inr ⟨hrest, ?_⟩
        split at hopened
        · exact .inl hopened
        · exact .inr hopened
  · -- something happens on a connection
    rcases (hs.workers b w' hw').phase with ⟨hclosed, hqueued⟩ | ⟨hnil, hshaking | hlive⟩
    · have hsame := hclosed.step hrun
      exact .inl ⟨hclosed.same hsame, fun hb => hqueued (hsame.busy ▸ hb)⟩
    · have hquiet : ¬ e'.Ends w'.handler := by
        intro hends
        have hopen : w'.handler.socket.state ≠ .unconnected := by
          rw [hshaking.state]
          exact SocketState.noConfusion
        have hencrypted := hok w' hw' hopen hends hshaking.ssl
        exact Bool.false_ne_true (hshaking.encrypted.symm.trans hencrypted)
      exact .inr ⟨hnil, hshaking.step hrun hquiet⟩
    · exact .inr ⟨hnil, .inr (hlive.step hrun)⟩

/-- Any other step loses one. -/
theorem lost_step {server : Server} {n : Nat} (s : HttpConnectionHandlerPool) (e : PoolEvent)
    (t : HttpConnectionHandlerPool) (hs : Safe server s) (hbad : ¬ Harmless server s e)
    (hstep : step server n s e = some t) : ¬ NoneLost t := by
  intro hnone
  cases e with
  | incomingConnection d => exact hbad trivial
  | cleanup => exact hbad trivial
  | handleConnection a good =>
      refine hbad fun w hw hne => ?_
      by_contra hgood
      rw [Bool.not_eq_true] at hgood
      have hsafe := hs.workers a w hw
      cases hqueue : w.queue with
      | nil => exact hne hqueue
      | cons d queue =>
          have hlen := hsafe.inv.single
          rw [hqueue, List.length_cons] at hlen
          have hrest : queue = [] := List.length_eq_zero_iff.mp (by omega)
          have hstatus := handleConnection_status server good (hsafe.inv.waiting hne)
          rw [hgood] at hstatus
          cases hstep
          have hafter : (s.update a (deliver server good)).worker a =
              some ⟨w.handler.handleConnection server false, []⟩ := by
            rw [worker_update_self, hw, Option.map_some, deliver, hqueue, hgood, hrest]
          rcases hnone a _ hafter hstatus.1 with hqueued | hopen
          · exact hqueued rfl
          · exact hopen hstatus.2
  | handler a e =>
      refine hbad fun w hw hopen hends hssl => ?_
      by_contra hplain
      have hsafe := hs.workers a w hw
      have hshaking : Shaking server w.handler ∧ w.queue = [] := by
        rcases hsafe.phase with ⟨hclosed, -⟩ | ⟨hnil, hshaking | hlive⟩
        · exact absurd hclosed.state hopen
        · exact ⟨hshaking, hnil⟩
        · exact absurd (hlive.encrypted hssl) hplain
      rw [step, hw] at hstep
      obtain ⟨h, hrun, rfl⟩ := Option.map_eq_some_iff.mp hstep
      have hlost := hshaking.1.lost hrun hends
      have hafter : (s.update a fun w => { w with handler := h }).worker a =
          some { w with handler := h } := by
        rw [worker_update_self, hw]
        rfl
      rcases hnone a _ hafter hlost.1 with hqueued | hstill
      · exact hqueued hshaking.2
      · exact hstill hlost.2

/-- The pool is empty at first. -/
theorem safe_new (server : Server) (settings : PoolSettings) : Safe server (new settings) where
  inv := inv_new settings
  workers := fun a w hw => by simp [new, worker] at hw

/-- **No connection slot is lost** in a run exactly when all its events are harmless. -/
theorem noneLost_iff {server : Server} {settings : PoolSettings} {n : Nat}
    {events : List PoolEvent} {s : HttpConnectionHandlerPool}
    (hrun : tryRun (step server n) (new settings) events = some s) :
    (∀ before after t, events = before ++ after →
      tryRun (step server n) (new settings) before = some t → NoneLost t) ↔
    Run.TryAlong (step server n) (Harmless server) (new settings) events :=
  Run.tryAlong_iff (fun _ hs => hs.noneLost) safe_step lost_step (safe_new server settings) hrun

/-- A connection that is accepted, and closed by the peer. -/
theorem noneLost_iff_closed :
    ∃ s, tryRun (step (plainServer defaultSettings) 5) (new ⟨1, 2⟩)
      [.incomingConnection 4, .handleConnection 0 true, .handler 0 .closed] = some s ∧
      ((∀ before after t,
        [.incomingConnection 4, .handleConnection 0 true, .handler 0 .closed] = before ++ after →
        tryRun (step (plainServer defaultSettings) 5) (new ⟨1, 2⟩) before = some t → NoneLost t) ↔
      Run.TryAlong (step (plainServer defaultSettings) 5) (Harmless (plainServer defaultSettings))
        (new ⟨1, 2⟩) [.incomingConnection 4, .handleConnection 0 true, .handler 0 .closed]) := by
  have hends : (tryRun (step (plainServer defaultSettings) 5) (new ⟨1, 2⟩)
      [.incomingConnection 4, .handleConnection 0 true, .handler 0 .closed]).isSome = true := by
    decide +kernel
  obtain ⟨s, hs⟩ := Option.isSome_iff_exists.mp hends
  exact ⟨s, hs, noneLost_iff hs⟩

/-- What is left to see of the first handler after a run. -/
def firstHandler (server : Server) (events : List PoolEvent) :
    Option (Bool × List Nat × SocketState) :=
  (tryRun (step server 5) (new ⟨1, 1⟩) events).bind fun s =>
    (s.worker 0).map fun w => (w.handler.busy, w.queue, w.handler.socket.state)

theorem not_noneLost_of_first {server : Server} {events : List PoolEvent}
    (h : firstHandler server events = some (true, [], .unconnected)) :
    ¬ ∀ s, tryRun (step server 5) (new ⟨1, 1⟩) events = some s → NoneLost s := by
  intro hall
  obtain ⟨s, hs, hfirst⟩ := Option.bind_eq_some_iff.mp h
  obtain ⟨w, hw, hsee⟩ := Option.map_eq_some_iff.mp hfirst
  obtain ⟨hbusy, hqueue, hstate⟩ : w.handler.busy = true ∧ w.queue = [] ∧
      w.handler.socket.state = .unconnected := by
    simpa using hsee
  rcases hall s hs 0 w hw hbusy with hqueued | hopen
  · exact hqueued hqueue
  · exact hopen hstate

/-- A socket that does not take the descriptor, and a TLS connection that is closed during the
handshake. -/
theorem not_noneLost :
    (¬ ∀ s, tryRun (step (plainServer defaultSettings) 5) (new ⟨1, 1⟩)
      [.incomingConnection 4, .handleConnection 0 false] = some s → NoneLost s) ∧
    ¬ ∀ s, tryRun (step { plainServer defaultSettings with ssl := true } 5) (new ⟨1, 1⟩)
      [.incomingConnection 4, .handleConnection 0 true, .handler 0 .closed] = some s →
        NoneLost s :=
  ⟨not_noneLost_of_first (by decide +kernel), not_noneLost_of_first (by decide +kernel)⟩

end HttpConnectionHandlerPool

end QtWebApp
