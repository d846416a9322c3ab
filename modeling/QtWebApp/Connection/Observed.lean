import QtWebApp.Connection.Reuse

/-!
# QtWebApp.Connection.Observed

What a handler does after it has closed a connection.

With unsent output `disconnectFromHost` only starts closing the socket, and `readHttp` goes by
the bytes that are there to be read. An observed handler does what the handler does
(`Observed.run_handler`), and two flags, which no slot reads, tell whether `readHttp` has called
`disconnectFromHost` on the connection, and whether it has begun to parse another byte since.

The flags are set by what happens in the loop, not by the result of a slot, since the slot
`disconnected` may free the handler before the loop goes on. To see what the loop does, the slots
have to be run again with the flags in hand; that they do the same is shown slot by slot.
-/

namespace QtWebApp

open Bytes

namespace HttpConnectionHandler

/-- The inner loop is over, and the rest of the turn calls `disconnectFromHost`: the request was
aborted, or the connection ends with the response. -/
def disconnects (server : Server) (h : HttpConnectionHandler) : Bool :=
  match h.currentRequest with
  | none => false
  | some request =>
      match request.status with
      | .abort => true
      | .complete => closeConnection request (h.respond server request)
      | _ => false

/-- The handler with which `readHttp` takes over when the slot runs. -/
def takesOver (server : Server) (h : HttpConnectionHandler) : Slot → Option HttpConnectionHandler
  | .readHttp => some h
  | .read =>
      if LF ∉ h.socket.readBuffer then none
      else if h.AsksUpgrade then
        if (server.upgradeFrom h.socket.readBuffer).accepted then none
        else some (h.answerHandshake server).closeSocket.becomeHttp
      else some h.becomeHttp
  | _ => none

theorem runSlot_takesOver {server : Server} {n : Nat} {h g : HttpConnectionHandler} {slot : Slot}
    (hg : h.takesOver server slot = some g) : h.runSlot server n slot = g.readHttp server n := by
  cases slot with
  | readHttp =>
      cases hg
      rfl
  | read =>
      rw [takesOver] at hg
      rw [runSlot, read_eq]
      split at hg
      · cases hg
      · next hline =>
          rw [if_neg hline]
          split at hg
          · next hup =>
              rw [if_pos hup]
              split at hg
              · cases hg
              · next hrefused =>
                  cases hg
                  rw [if_neg hrefused]
          · next hplain =>
              cases hg
              rw [if_neg hplain]
  | disconnected | encrypted | sslErrors | preSharedKeyAuthenticationRequired => cases hg

/-- A slot that does not call `readHttp` does nothing, or hands the connection to a WebSocket. -/
theorem runSlot_aside {server : Server} {n : Nat} {h h' : HttpConnectionHandler} {slot : Slot}
    (hg : h.takesOver server slot = none) (hrun : h.runSlot server n slot = some h') :
    h' = h ∨ (slot = .read ∧ LF ∈ h.socket.readBuffer ∧
      h' = (h.answerHandshake server).becomeWebSocket) := by
  cases slot with
  | readHttp => cases hg
  | read =>
      rw [takesOver] at hg
      rw [runSlot, read_eq] at hrun
      split at hg
      · next hline =>
          rw [if_pos hline] at hrun
          exact .inl (Option.some.inj hrun).symm
      · next hline =>
          rw [if_neg hline] at hrun
          split at hg
          · next hup =>
              rw [if_pos hup] at hrun
              split at hg
              · next haccepted =>
                  rw [if_pos haccepted] at hrun
                  exact .inr ⟨rfl, not_not.mp hline, (Option.some.inj hrun).symm⟩
              · cases hg
          · cases hg
  | disconnected | encrypted | sslErrors | preSharedKeyAuthenticationRequired =>
      exact .inl (Option.some.inj hrun).symm

/-- A handler, and what `readHttp` has done on its connection. -/
structure Observed where
  handler : HttpConnectionHandler
  /-- `readHttp` has called `disconnectFromHost`. -/
  closed : Bool
  /-- After that it has found another byte to parse. -/
  late : Bool

namespace Observed

/-- A handler without a connection. -/
def new : Observed := ⟨.new, false, false⟩

/-- A turn of `readHttp`. -/
def httpBody (server : Server) (fuel : Nat) (o : Observed) : Option (Turn Observed) :=
  if o.handler.socket.readBuffer = [] then some (.leave o)
  else (loop collectBody fuel (o.handler.ensureRequest server)).map fun g =>
    (g.dispatch server).map fun h => ⟨h, o.closed || g.disconnects server, o.late || o.closed⟩

/-- The slot `readHttp`. -/
def readHttp (server : Server) (fuel : Nat) (o : Observed) : Option Observed :=
  loop (httpBody server fuel) fuel o

/-- The slots that `readyRead()` can be connected to. -/
def runSlot (server : Server) (fuel : Nat) (o : Observed) (slot : Slot) : Option Observed :=
  match o.handler.takesOver server slot with
  | some g => { o with handler := g }.readHttp server fuel
  | none => (o.handler.runSlot server fuel slot).map fun h => { o with handler := h }

/-- A slot runs unless it was disconnected meanwhile. -/
def answerSlot (server : Server) (fuel : Nat) (o : Observed) (slot : Slot) : Option Observed :=
  if (.readyRead, slot) ∈ o.handler.socket.connections then o.runSlot server fuel slot else some o

/-- The signal `readyRead()`. -/
def emitReadyRead (server : Server) (fuel : Nat) (o : Observed) : Option Observed :=
  tryRun (answerSlot server fuel) o (o.handler.socket.slots .readyRead)

/-- A segment arrives. -/
def receive (server : Server) (fuel : Nat) (o : Observed) (segment : Bytes) : Option Observed :=
  if o.handler.socket.state = .unconnected then some o
  else { o with handler := o.handler.arrived segment }.emitReadyRead server fuel

/-- Data arrives. -/
def receiveEvent (server : Server) (fuel : Nat) (o : Observed) (segment : Bytes) :
    Option Observed :=
  if server.ssl = true ∧ o.handler.socket.encrypted = false then some o
  else (o.receive server fuel segment).map fun o =>
    { o with handler :=
      if o.handler.webSocket.isSome then o.handler.onSocket (TcpSocket.setInput []) else o.handler }

/-- The handler after an event. Nothing has been closed on a new connection. -/
def lifeStep (server : Server) (fuel : Nat) (o : Observed) : LifeEvent → Option Observed
  | .connect good =>
      some (if o.handler.isBusy then o else ⟨o.handler.handleConnection server good, false, o.late⟩)
  | .event (.receive segment) => o.receiveEvent server fuel segment
  | .event e => (o.handler.step server fuel e).map fun h => { o with handler := h }

/-- Only data can make `readHttp` run. -/
theorem lifeStep_other {server : Server} {n : Nat} {o : Observed} {e : Event}
    (he : ∀ segment, e ≠ .receive segment) :
    o.lifeStep server n (.event e) =
      (o.handler.step server n e).map fun h => { o with handler := h } := by
  cases e with
  | receive segment => exact absurd rfl (he segment)
  | encrypted | sent | closed | readTimeout | webSocketMessage _ | webSocketClosed => rfl

/-! ### Watching changes nothing

Without the flags the observed run is the run of the handler. -/

/-- A turn. -/
theorem httpBody_handler (server : Server) (n : Nat) (o : Observed) :
    (o.httpBody server n).map (Turn.map handler) = o.handler.httpBody server n := by
  unfold httpBody HttpConnectionHandler.httpBody
  split
  · rfl
  · rw [Option.map_map]
    refine congrArg (Option.map · _) (funext fun g => ?_)
    show Turn.map handler (Turn.map _ (g.dispatch server)) = g.dispatch server
    cases g.dispatch server with
    | leave h => rfl
    | again h => rfl

/-- The loop. -/
theorem readHttp_handler (server : Server) (n : Nat) (o : Observed) :
    (o.readHttp server n).map handler = o.handler.readHttp server n :=
  Loop.loop_map (httpBody_handler server n) n o

theorem runSlot_handler (server : Server) (n : Nat) (o : Observed) (slot : Slot) :
    (o.runSlot server n slot).map handler = o.handler.runSlot server n slot := by
  unfold runSlot
  cases hg : o.handler.takesOver server slot with
  | some g =>
      rw [runSlot_takesOver hg]
      exact readHttp_handler server n { o with handler := g }
  | none =>
      dsimp only
      rw [Option.map_map]
      exact congrFun Option.map_id _

/-- A slot. -/
theorem answerSlot_handler (server : Server) (n : Nat) (o : Observed) (slot : Slot) :
    (o.answerSlot server n slot).map handler =
      if (Signal.readyRead, slot) ∈ o.handler.socket.connections then
        o.handler.runSlot server n slot
      else some o.handler := by
  unfold answerSlot
  split
  · exact runSlot_handler server n o slot
  · rfl

theorem receive_handler (server : Server) (n : Nat) (o : Observed) (segment : Bytes) :
    (o.receive server n segment).map handler = o.handler.receive server n segment := by
  unfold receive HttpConnectionHandler.receive
  split
  · rfl
  · rw [emitReadyRead, HttpConnectionHandler.emitReadyRead, ← Run.tryRun_eq_foldlM]
    exact Run.tryRun_map (answerSlot_handler server n) _ _

/-- An event. -/
theorem lifeStep_handler (server : Server) (n : Nat) (o : Observed) (e : LifeEvent) :
    (o.lifeStep server n e).map handler = o.handler.lifeStep server n e := by
  cases e with
  | connect good =>
      unfold lifeStep HttpConnectionHandler.lifeStep
      dsimp only [Option.map_some]
      split <;> rfl
  | event e =>
      by_cases he : ∃ segment, e = .receive segment
      · obtain ⟨segment, rfl⟩ := he
        show (o.receiveEvent server n segment).map handler = o.handler.receiveEvent server n segment
        unfold receiveEvent HttpConnectionHandler.receiveEvent
        split
        · rfl
        · rw [← receive_handler, Option.map_map, Option.map_map]
          rfl
      · rw [lifeStep_other fun segment heq => he ⟨segment, heq⟩, Option.map_map]
        exact congrFun Option.map_id (o.handler.step server n e)

/-- **The observed handler is the handler.** -/
theorem run_handler (server : Server) (n : Nat) (o : Observed) (events : List LifeEvent) :
    (tryRun (lifeStep server n) o events).map handler =
      tryRun (HttpConnectionHandler.lifeStep server n) o.handler events :=
  Run.tryRun_map (lifeStep_handler server n) o events

end Observed

end HttpConnectionHandler

end QtWebApp
