import QtWebApp.HttpServer.HttpConnectionHandler

/-!
# QtWebApp.Connection.Closing

How a connection ends.

When the socket becomes unconnected, the slot `disconnected` runs once for every time it was
connected. For a connection that is not a WebSocket its first run already disconnects
everything from the socket, so that it is also the last one.

Signals are delivered at once, so `disconnectFromHost` may call the slot `disconnected` before it
returns, and the handler that it returns to may be free already. The lemmas here say what that slot
does for each kind of connection, so that no later proof follows the signal through the socket
again.
-/

namespace QtWebApp

namespace HttpConnectionHandler

/-- The end of a connection will be noticed: the slot `disconnected` is connected. -/
def Watched (h : HttpConnectionHandler) : Prop :=
  (Signal.disconnected, Slot.disconnected) ∈ h.socket.connections

instance (h : HttpConnectionHandler) : Decidable h.Watched := by
  unfold Watched
  infer_instance

/-- The slots of a signal are those connected to it. -/
theorem mem_slots {s : TcpSocket} {signal : Signal} {slot : Slot} :
    slot ∈ s.slots signal ↔ (signal, slot) ∈ s.connections := by
  unfold TcpSocket.slots
  constructor
  · intro h
    obtain ⟨⟨sig, sl⟩, hmem, hslot⟩ := List.mem_map.mp h
    obtain ⟨hconn, hsig⟩ := List.mem_filter.mp hmem
    have hsig' : sig = signal := by simpa using hsig
    subst hsig' hslot
    exact hconn
  · intro h
    exact List.mem_map.mpr ⟨(signal, slot), List.mem_filter.mpr ⟨h, by simp⟩, rfl⟩

/-- Slots that are not connected any more do not run. -/
theorem foldl_unconnected (slots : List Slot) {h : HttpConnectionHandler}
    (hc : h.socket.connections = []) :
    slots.foldl (fun h slot =>
      if (Signal.disconnected, slot) ∈ h.socket.connections then h.disconnected else h) h = h := by
  induction slots with
  | nil => rfl
  | cons slot slots ih => simp [hc, ih]

/-- What the slot `disconnected` does for a connection that is not a WebSocket. -/
theorem disconnected_http {h : HttpConnectionHandler} (ht : h.type ≠ .webSocket) :
    h.disconnected =
      { h with
          readTimer := false
          socket := h.socket.closeDevice.disconnectAll
          type := .undefined
          busy := false } := by
  unfold disconnected
  simp only [ht, if_false]
  rfl

/-- **The end of a connection that is not a WebSocket**: the slot `disconnected` runs once. -/
theorem emitDisconnected_http {h : HttpConnectionHandler} (hw : h.webSocket = none)
    (ht : h.type ≠ .webSocket) (hc : h.Watched) : h.emitDisconnected = h.disconnected := by
  have hmem := mem_slots.mpr hc
  unfold emitDisconnected
  simp only [hw, Option.isSome_none, Bool.false_eq_true, if_false]
  cases hslots : h.socket.slots .disconnected with
  | nil => simp [hslots] at hmem
  | cons slot slots =>
      have hfirst : (Signal.disconnected, slot) ∈ h.socket.connections :=
        mem_slots.mp (by rw [hslots]; exact List.mem_cons_self)
      rw [List.foldl_cons, if_pos hfirst]
      exact foldl_unconnected slots (by rw [disconnected_http ht]; rfl)

/-- What every run of the slot `disconnected` keeps, the signal keeps. -/
theorem emitDisconnected_inv {I : HttpConnectionHandler → Prop}
    (keep : ∀ {h}, I h → I h.disconnected) {h : HttpConnectionHandler} (hI : I h) :
    I h.emitDisconnected := by
  have hall : ∀ (slots : List Slot) {g : HttpConnectionHandler}, I g →
      I (slots.foldl (fun g slot => if (Signal.disconnected, slot) ∈ g.socket.connections
        then g.disconnected else g) g) := by
    intro slots
    induction slots with
    | nil => exact fun hg => hg
    | cons slot slots ih =>
        intro g hg
        rw [List.foldl_cons]
        split
        · exact ih (keep hg)
        · exact ih hg
  unfold emitDisconnected
  dsimp only
  split
  · exact hall _ (keep hI)
  · exact hall _ hI

/-- What the slot `disconnected` does to a WebSocket, and to any other connection. -/
theorem disconnected_inv {I : HttpConnectionHandler → Prop} {h : HttpConnectionHandler}
    (relayed : I { h with
      readTimer := false, webSocket := none, type := .undefined, busy := false })
    (closed : I
      { h with
        readTimer := false
        socket := h.socket.closeDevice.disconnectAll
        type := .undefined
        busy := false }) : I h.disconnected := by
  unfold disconnected
  dsimp only
  split
  · exact relayed
  · exact closed

/-- What `disconnectFromHost` does: nothing to a socket that is unconnected already; any other one
begins to close, or becomes unconnected. -/
theorem disconnectFromHost_inv {I : HttpConnectionHandler → Prop}
    {h : HttpConnectionHandler} (hI : I h)
    (closing : h.socket.state ≠ .unconnected → I (h.onSocket fun s => { s with state := .closing }))
    (ended : h.socket.state ≠ .unconnected → I h.becomeUnconnected) : I h.disconnectFromHost := by
  unfold disconnectFromHost
  split
  · exact hI
  · next hopen =>
      split
      · exact closing hopen
      · exact ended hopen

/-- What closing the device and disconnecting the slots leave alone survives the signal. -/
theorem emitDisconnected_keeps {α : Type} (f : TcpSocket → α)
    (hf : ∀ s : TcpSocket, f s.closeDevice.disconnectAll = f s) (h : HttpConnectionHandler) :
    f h.emitDisconnected.socket = f h.socket := by
  refine emitDisconnected_inv (I := fun g => f g.socket = f h.socket) ?_ rfl
  intro g hg
  exact disconnected_inv (I := fun g => f g.socket = f h.socket) hg ((hf g.socket).trans hg)

/-- The connection has ended. -/
theorem becomeUnconnected_state (h : HttpConnectionHandler) :
    h.becomeUnconnected.socket.state = .unconnected :=
  emitDisconnected_keeps TcpSocket.state (fun _ => rfl) _

/-- After `disconnectFromHost` the socket is not connected any more, and what was written on it
has been written. -/
theorem disconnectFromHost_socket (h : HttpConnectionHandler) :
    h.disconnectFromHost.socket.state ≠ .connected ∧
      h.disconnectFromHost.socket.written = h.socket.written := by
  unfold disconnectFromHost
  split
  · next hover => exact ⟨by simp [hover], rfl⟩
  · split
    · exact ⟨fun hc => (by cases hc), rfl⟩
    · unfold becomeUnconnected
      rw [emitDisconnected_keeps TcpSocket.state (fun _ => rfl),
        emitDisconnected_keeps TcpSocket.written (fun _ => rfl)]
      exact ⟨fun hc => (by cases hc), rfl⟩

/-- **Closing an open connection that is not a WebSocket** waits for unsent output, or runs the slot
`disconnected`. -/
theorem disconnectFromHost_http {h : HttpConnectionHandler} (hopen : h.socket.state ≠ .unconnected)
    (hw : h.webSocket = none) (ht : h.type ≠ .webSocket) (hc : h.Watched) :
    h.disconnectFromHost =
      if h.socket.unsent then h.onSocket fun s => { s with state := .closing }
      else
        { h with
            readTimer := false
            socket := ({ h.socket with state := .unconnected }.closeDevice).disconnectAll
            type := .undefined
            busy := false } := by
  have htype : (h.onSocket fun s => { s with state := .unconnected }).type ≠ .webSocket := ht
  have hends : h.becomeUnconnected =
      (h.onSocket fun s => { s with state := .unconnected }).disconnected :=
    emitDisconnected_http hw htype hc
  unfold disconnectFromHost
  rw [if_neg hopen, hends, disconnected_http htype]
  rfl

/-- Closing a socket creates no WebSocket. -/
theorem disconnectFromHost_webSocket {h : HttpConnectionHandler} (hw : h.webSocket = none) :
    h.disconnectFromHost.webSocket = none := by
  refine disconnectFromHost_inv (I := fun g => g.webSocket = none) hw (fun _ => hw) fun _ => ?_
  refine emitDisconnected_inv (I := fun g => g.webSocket = none) ?_ hw
  intro g hg
  exact disconnected_inv (I := fun g => g.webSocket = none) rfl hg

/-- Aborting a socket that is not connected runs no slot. -/
theorem abortSocket_unconnected {h : HttpConnectionHandler} (hu : h.socket.state = .unconnected) :
    h.abortSocket = h.onSocket fun s => { s with unsent := false }.closeDevice := by
  unfold abortSocket closeSocket disconnectFromHost
  exact if_pos hu

/-- The read timer of a connection that is not a WebSocket closes the socket. -/
theorem readTimeout_socket {server : Server} {h : HttpConnectionHandler}
    (ht : h.type ≠ .webSocket) :
    h.readTimeout server =
      { ({ h with readTimer := false }.onSocket (TcpSocket.flush server.network)).disconnectFromHost
        with currentRequest := none } := by
  obtain ⟨type, socket, webSocket, readTimer, currentRequest, busy, log⟩ := h
  cases type with
  | webSocket => exact absurd rfl ht
  | undefined => rfl
  | http => rfl

/-- A new connection makes the handler busy, and is open when the socket takes it. -/
theorem handleConnection_status (server : Server) (good : Bool) {h : HttpConnectionHandler}
    (hu : h.socket.state = .unconnected) :
    (h.handleConnection server good).busy = true ∧
      (h.handleConnection server good).socket.state =
        if good then .connected else .unconnected := by
  have habort := abortSocket_unconnected (h := { h with busy := true }) hu
  unfold handleConnection
  dsimp only
  rw [habort]
  cases good with
  | true => exact ⟨rfl, rfl⟩
  | false => cases server.ssl <;> exact ⟨rfl, hu⟩

end HttpConnectionHandler

end QtWebApp
