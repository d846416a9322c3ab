import QtWebApp.Connection.Reuse

/-!
# QtWebApp.Connection.Coherent

What holds of every handler, in every run.

A WebSocket handshake that is refused at once leaves a free handler with the slots of an HTTP
connection, and the next connection adds its own. `Coherent` says what can still be relied on:
the slots that have decided on HTTP come first, and the end of an open connection that is not a
WebSocket is noticed. It says more as long as `readHttp` has not closed the connection.

`Coherent` is weaker than the invariants of orderly runs, and nothing is assumed of the run for it.
Each of its parts is there because some later argument about a closed connection needs it; the flag
`closed` turns off the one that `readHttp` gives up when it closes.
-/

namespace QtWebApp

open Bytes

namespace HttpConnectionHandler

/-! ### All handlers

An invariant with a case for each state in which a handler can be found, orderly or not. -/

/-- The slot `readHttp` waits for data. -/
def ReadingHttp (h : HttpConnectionHandler) : Prop :=
  (Signal.readyRead, Slot.readHttp) ∈ h.socket.connections

/-- The slots that answer to data: those that have decided on HTTP come first. -/
def Lined (h : HttpConnectionHandler) : Prop :=
  ∃ decided waiting, h.socket.slots .readyRead =
    List.replicate decided .readHttp ++ List.replicate waiting .read

/-- What holds of every handler, also after a WebSocket handshake that was refused at once has left
it with the slots of an HTTP connection. -/
structure Coherent (server : Server) (closed : Bool) (h : HttpConnectionHandler) : Prop where
  typed : h.webSocket.isSome = true ↔ h.type = .webSocket
  lined : h.Lined
  idle : h.busy = false → h.socket.state = .unconnected ∧ h.type ≠ .webSocket ∧ ¬ h.Reading
  taken : h.type = .webSocket → ¬ h.Reading
  quiet : server.ssl = true → h.socket.encrypted = false → h.type ≠ .webSocket
  shaking : server.ssl = true → h.socket.state ≠ .unconnected →
    (Signal.encrypted, Slot.encrypted) ∈ h.socket.connections
  watched : h.socket.state ≠ .unconnected → Encrypted server h → h.type ≠ .webSocket → h.Watched
  http : closed = false → h.socket.state ≠ .unconnected → h.ReadingHttp → h.type ≠ .webSocket

/-- Less is asked once the connection was closed. -/
theorem Coherent.mono {server : Server} {h : HttpConnectionHandler} (hc : Coherent server false h)
    (closed : Bool) : Coherent server closed h :=
  ⟨hc.typed, hc.lined, hc.idle, hc.taken, hc.quiet, hc.shaking, hc.watched, fun _ => hc.http rfl⟩

/-- Output and parsing keep a handler coherent. -/
theorem Coherent.same {server : Server} {closed : Bool} {h h' : HttpConnectionHandler}
    (hc : Coherent server closed h) (hs : SameOutline h h') : Coherent server closed h' where
  typed := by
    rw [hs.webSocket, hs.type]
    exact hc.typed
  lined := by
    rw [Lined, TcpSocket.slots, hs.connections]
    exact hc.lined
  idle := by
    rw [hs.busy, hs.state, hs.type, Reading, hs.connections]
    exact hc.idle
  taken := by
    rw [hs.type, Reading, hs.connections]
    exact hc.taken
  quiet := by
    rw [hs.encrypted, hs.type]
    exact hc.quiet
  shaking := by
    rw [hs.state, hs.connections]
    exact hc.shaking
  watched := by
    rw [hs.state, Encrypted, hs.encrypted, hs.type, Watched, hs.connections]
    exact hc.watched
  http := by
    rw [hs.state, ReadingHttp, hs.connections, hs.type]
    exact hc.http

/-- Only a handler of that type has a WebSocket. -/
theorem Coherent.webSocket_eq_none {server : Server} {closed : Bool} {h : HttpConnectionHandler}
    (hc : Coherent server closed h) (htype : h.type ≠ .webSocket) : h.webSocket = none := by
  cases hw : h.webSocket with
  | none => rfl
  | some webSocket => exact absurd (hc.typed.mp (by rw [hw]; rfl)) htype

/-- The slot `disconnected` frees the handler. -/
theorem Coherent.disconnected {server : Server} {closed : Bool} {h : HttpConnectionHandler}
    (hc : Coherent server closed h) (hu : h.socket.state = .unconnected) :
    Coherent server closed h.disconnected := by
  by_cases htype : h.type = .webSocket
  · rw [disconnected_webSocket htype]
    exact ⟨⟨fun hn => (nomatch hn), fun hn => (nomatch hn)⟩, hc.lined,
      fun _ => ⟨hu, HandlerType.noConfusion, hc.taken htype⟩, fun hn => (nomatch hn),
      fun _ _ => HandlerType.noConfusion, fun _ hopen => absurd hu hopen,
      fun hopen => absurd hu hopen, fun _ hopen => absurd hu hopen⟩
  · rw [disconnected_http htype]
    refine ⟨?_, ⟨0, 0, rfl⟩, fun _ => ⟨hu, HandlerType.noConfusion, List.not_mem_nil⟩,
      fun hn => (nomatch hn), fun _ _ => HandlerType.noConfusion, fun _ hopen => absurd hu hopen,
      fun hopen => absurd hu hopen, fun _ hopen => absurd hu hopen⟩
    show h.webSocket.isSome = true ↔ HandlerType.undefined = .webSocket
    rw [hc.webSocket_eq_none htype]
    exact ⟨fun hn => (nomatch hn), fun hn => (nomatch hn)⟩

/-- Nothing is asked of a connection that is over but what its handler is left with. -/
theorem Coherent.unconnected {server : Server} {closed : Bool} {h : HttpConnectionHandler}
    (hc : Coherent server closed h) :
    Coherent server closed (h.onSocket fun s => { s with state := .unconnected }) :=
  ⟨hc.typed, hc.lined, fun hb => ⟨rfl, (hc.idle hb).2⟩, hc.taken, hc.quiet,
    fun _ hopen => absurd rfl hopen, fun hopen => absurd rfl hopen, fun _ hopen => absurd rfl hopen⟩

/-- The end of the connection. -/
theorem Coherent.becomeUnconnected {server : Server} {closed : Bool} {h : HttpConnectionHandler}
    (hc : Coherent server closed h) : Coherent server closed h.becomeUnconnected := by
  suffices hends : Coherent server closed h.becomeUnconnected ∧
      h.becomeUnconnected.socket.state = .unconnected from hends.1
  refine emitDisconnected_inv (I := fun g => Coherent server closed g ∧
    g.socket.state = .unconnected) ?_ ⟨hc.unconnected, rfl⟩
  intro g hg
  exact ⟨hg.1.disconnected hg.2, disconnected_inv
    (I := fun g => g.socket.state = .unconnected) hg.2 hg.2⟩

/-- Closing, with or without unsent output. -/
theorem Coherent.disconnectFromHost {server : Server} {closed : Bool} {h : HttpConnectionHandler}
    (hc : Coherent server closed h) : Coherent server closed h.disconnectFromHost := by
  refine disconnectFromHost_inv hc (fun hopen => ?_) fun _ => hc.becomeUnconnected
  exact ⟨hc.typed, hc.lined, fun hb => absurd (hc.idle hb).1 hopen, hc.taken, hc.quiet,
    fun hssl _ => hc.shaking hssl hopen, fun _ => hc.watched hopen,
    fun hfirst _ => hc.http hfirst hopen⟩

/-! ### The first data

The slot `read` may run on a handler that has the slots of an earlier connection, too. -/

/-- The slot `readHttp` takes the place of `read`. -/
theorem lined_becomeHttp {h : HttpConnectionHandler} (hl : h.Lined) : h.becomeHttp.Lined := by
  obtain ⟨decided, waiting, hslots⟩ := hl
  refine ⟨decided + 1, 0, ?_⟩
  show ((h.socket.disconnect .readyRead .read).connect .readyRead .readHttp).slots .readyRead = _
  rw [TcpSocket.slots_connect, TcpSocket.slots_disconnect_self, hslots, List.filter_append,
    List.filter_replicate, List.filter_replicate, List.replicate_succ']
  simp

theorem lined_becomeWebSocket {h : HttpConnectionHandler} (hl : h.Lined) :
    h.becomeWebSocket.Lined := by
  obtain ⟨decided, waiting, hslots⟩ := hl
  refine ⟨decided, 0, ?_⟩
  show ((h.socket.disconnect .readyRead .read).disconnect .disconnected .disconnected).slots
    .readyRead = _
  rw [TcpSocket.slots_disconnect_other Signal.noConfusion, TcpSocket.slots_disconnect_self, hslots,
    List.filter_append, List.filter_replicate, List.filter_replicate]
  simp

theorem not_reading_becomeHttp (h : HttpConnectionHandler) : ¬ h.becomeHttp.Reading := by
  rw [Reading, becomeHttp_connections]
  simp

theorem not_reading_becomeWebSocket (h : HttpConnectionHandler) : ¬ h.becomeWebSocket.Reading := by
  rw [Reading, becomeWebSocket_connections]
  exact fun hreading => hreading.1.2 rfl

/-- The decision for HTTP. -/
theorem Coherent.becomeHttp {server : Server} {closed : Bool} {h : HttpConnectionHandler}
    (hc : Coherent server closed h) (htype : h.type ≠ .webSocket) :
    Coherent server closed h.becomeHttp where
  typed := by
    show h.webSocket.isSome = true ↔ HandlerType.http = .webSocket
    rw [hc.webSocket_eq_none htype]
    exact ⟨fun hn => (nomatch hn), fun hn => (nomatch hn)⟩
  lined := lined_becomeHttp hc.lined
  idle := fun hb => ⟨(hc.idle hb).1, HandlerType.noConfusion, h.not_reading_becomeHttp⟩
  taken := fun hn => (nomatch hn)
  quiet := fun _ _ => HandlerType.noConfusion
  shaking := by
    intro hssl hopen
    rw [becomeHttp_connections]
    exact .inl ⟨hc.shaking hssl hopen, fun hn => (nomatch hn)⟩
  watched := fun hopen hencrypted _ =>
    h.becomeHttp_watched.mpr (hc.watched hopen hencrypted htype)
  http := fun _ _ _ => HandlerType.noConfusion

/-- The decision for a WebSocket. -/
theorem Coherent.becomeWebSocket {server : Server} {closed : Bool} {h : HttpConnectionHandler}
    (hc : Coherent server closed h) (hreading : h.Reading) (hencrypted : Encrypted server h)
    (hfirst : closed = false → ¬ h.ReadingHttp) : Coherent server closed h.becomeWebSocket where
  typed := ⟨fun _ => rfl, fun _ => rfl⟩
  lined := lined_becomeWebSocket hc.lined
  idle := fun hb => absurd hreading (hc.idle hb).2.2
  taken := fun _ => h.not_reading_becomeWebSocket
  quiet := fun hssl hplain => absurd (hplain.symm.trans (hencrypted hssl)) Bool.false_ne_true
  shaking := by
    intro hssl hopen
    rw [becomeWebSocket_connections]
    exact ⟨⟨hc.shaking hssl hopen, fun hn => (nomatch hn)⟩, fun hn => (nomatch hn)⟩
  watched := fun _ _ hn => absurd rfl hn
  http := by
    intro hnot _ hhttp
    rw [ReadingHttp, becomeWebSocket_connections] at hhttp
    exact absurd hhttp.1.1 (hfirst hnot)

/-! ### The TLS handshake and new connections

The slot `encrypted` connects `read` and `disconnected`; without TLS a new connection does so
itself. -/

/-- More connections of the slot `read` come last. -/
theorem Lined.append {h h' : HttpConnectionHandler} {more : List (Signal × Slot)} (hl : h.Lined)
    (hconnections : h'.socket.connections = h.socket.connections ++ more)
    (hmore : ∀ slot, (Signal.readyRead, slot) ∈ more → slot = .read) : h'.Lined := by
  obtain ⟨decided, waiting, hslots⟩ := hl
  have hreads : (more.filter (·.1 = .readyRead)).map Prod.snd =
      List.replicate (more.filter (·.1 = .readyRead)).length .read := by
    refine List.eq_replicate_iff.mpr ⟨List.length_map _, fun slot hslot => ?_⟩
    obtain ⟨⟨signal, slot'⟩, hmem, rfl⟩ := List.mem_map.mp hslot
    obtain ⟨hin, hsignal⟩ := List.mem_filter.mp hmem
    obtain rfl : signal = .readyRead := by simpa using hsignal
    exact hmore slot' hin
  refine ⟨decided, waiting + (more.filter (·.1 = .readyRead)).length, ?_⟩
  have hold : (h.socket.connections.filter (·.1 = .readyRead)).map Prod.snd =
      List.replicate decided .readHttp ++ List.replicate waiting .read := hslots
  rw [TcpSocket.slots, hconnections, List.filter_append, List.map_append, hold, hreads,
    List.append_assoc, List.replicate_append_replicate]

/-- The end of the TLS handshake. -/
theorem Coherent.emitEncrypted {server : Server} {closed : Bool} {h : HttpConnectionHandler}
    (hc : Coherent server closed h) (hssl : server.ssl = true) (hopen : h.socket.state = .connected)
    (hplain : h.socket.encrypted = false) : Coherent server closed h.emitEncrypted := by
  have htype : h.type ≠ .webSocket := hc.quiet hssl hplain
  have hne : h.socket.state ≠ .unconnected := by
    rw [hopen]
    exact SocketState.noConfusion
  have hstarts := hc.shaking hssl hne
  have hsame : h.emitEncrypted.type = h.type ∧ h.emitEncrypted.webSocket = h.webSocket ∧
      h.emitEncrypted.busy = h.busy := by
    rw [emitEncrypted_eq]
    exact ⟨rfl, rfl, rfl⟩
  obtain ⟨htype', hsocket', hbusy'⟩ := hsame
  -- only the connections have changed, and only the slots `read` and `disconnected` were added
  refine ⟨?_, ?_, fun hb => ?_, fun hn => ?_, fun _ _ hn => ?_, fun _ _ => ?_, fun _ _ _ => ?_,
    fun _ _ _ hn => ?_⟩
  · rw [htype', hsocket']
    exact hc.typed
  · have hmore : h.emitEncrypted.socket.connections = h.socket.connections ++
        (h.socket.slots .encrypted).flatMap fun _ =>
          [(.readyRead, .read), (.disconnected, .disconnected)] := by
      rw [emitEncrypted_eq]
      rfl
    refine hc.lined.append hmore fun slot hslot => ?_
    obtain ⟨-, -, hnew⟩ := List.mem_flatMap.mp hslot
    simpa using hnew
  · exact absurd (hc.idle (hbusy'.symm.trans hb)).1 hne
  · exact absurd (htype'.symm.trans hn) htype
  · exact htype (htype'.symm.trans hn)
  · rw [mem_emitEncrypted]
    exact .inl hstarts
  · rw [Watched, mem_emitEncrypted]
    exact .inr ⟨List.ne_nil_of_mem (mem_slots.mpr hstarts), .inr rfl⟩
  · exact htype (htype'.symm.trans hn)

/-- A new connection is coherent, whatever is left of the last one. -/
theorem Coherent.handleConnection {server : Server} {closed : Bool} {h : HttpConnectionHandler}
    (hc : Coherent server closed h) (hidle : h.busy = false) (good : Bool) :
    Coherent server false (h.handleConnection server good) := by
  obtain ⟨hu, htype, hreading⟩ := hc.idle hidle
  obtain ⟨hbusy, htype', hsocket, hconnections⟩ := handleConnection_outline server good hu
  have hkept : (h.handleConnection server good).type ≠ .webSocket := by
    rw [htype']
    exact htype
  refine ⟨?_, ?_, fun hb => ?_, fun hn => absurd hn hkept, fun _ _ => hkept, fun hssl _ => ?_,
    fun hopen hencrypted _ => ?_, fun _ _ _ => hkept⟩
  · rw [hsocket, htype']
    exact hc.typed
  · refine hc.lined.append hconnections fun slot hslot => ?_
    unfold firstConnections at hslot
    split at hslot
    · simp at hslot
    · simpa using hslot
  · exact absurd (hb.symm.trans hbusy) Bool.false_ne_true
  · rw [hconnections, firstConnections, if_pos hssl]
    simp
  · cases good with
    | false => exact absurd (handleConnection_status server false hu).2 hopen
    | true =>
        rw [Watched, hconnections, firstConnections]
        split
        · next hssl =>
            -- the handshake has not been done yet
            have hready := hencrypted hssl
            rw [handleConnection_good hu] at hready
            cases hready
        · simp

/-! ### Past the TLS handshake

No data is read before that, so the slots that answer to data find a handler that is ready. -/

/-- A coherent handler past the TLS handshake. -/
structure Ready (server : Server) (closed : Bool) (h : HttpConnectionHandler) : Prop extends
    Coherent server closed h where
  encrypted : Encrypted server h

theorem Ready.same {server : Server} {closed : Bool} {h h' : HttpConnectionHandler}
    (hr : Ready server closed h) (hs : SameOutline h h') : Ready server closed h' :=
  ⟨hr.toCoherent.same hs, hr.encrypted.same hs⟩

theorem disconnectFromHost_encrypted (h : HttpConnectionHandler) :
    h.disconnectFromHost.socket.encrypted = h.socket.encrypted := by
  exact disconnectFromHost_inv (I := fun g => g.socket.encrypted = h.socket.encrypted) rfl
    (fun _ => rfl) fun _ => emitDisconnected_keeps TcpSocket.encrypted (fun _ => rfl) _

theorem Ready.disconnectFromHost {server : Server} {closed : Bool} {h : HttpConnectionHandler}
    (hr : Ready server closed h) : Ready server closed h.disconnectFromHost :=
  ⟨hr.toCoherent.disconnectFromHost,
    fun hssl => h.disconnectFromHost_encrypted.trans (hr.encrypted hssl)⟩

/-- A socket whose device was closed has nothing to read, and its handler no WebSocket. -/
theorem closeSocket_over {h : HttpConnectionHandler} (htype : h.type ≠ .webSocket) :
    h.closeSocket.socket.readBuffer = [] ∧ h.closeSocket.type ≠ .webSocket := by
  refine disconnectFromHost_inv (I := fun g => g.socket.readBuffer = [] ∧ g.type ≠ .webSocket)
    ⟨rfl, htype⟩ (fun _ => ⟨rfl, htype⟩) fun _ => ?_
  refine emitDisconnected_inv (I := fun g => g.socket.readBuffer = [] ∧ g.type ≠ .webSocket) ?_
    ⟨rfl, htype⟩
  rintro g ⟨hnil, hne⟩
  rw [disconnected_http hne]
  exact ⟨rfl, HandlerType.noConfusion⟩

/-- Becoming a WebSocket connects no slot of HTTP. -/
theorem readingHttp_of_becomeWebSocket {server : Server} {h : HttpConnectionHandler}
    (hhttp : (h.answerHandshake server).becomeWebSocket.ReadingHttp) : h.ReadingHttp := by
  rw [ReadingHttp, becomeWebSocket_connections, (h.answerHandshake_outline server).connections]
    at hhttp
  exact hhttp.1.1

/-- A WebSocket takes over a connection on which `readHttp` does not wait for data. -/
theorem Ready.becomeWebSocket {server : Server} {closed : Bool} {h : HttpConnectionHandler}
    (hr : Ready server closed h) (hreading : h.Reading)
    (hfirst : closed = false → ¬ h.ReadingHttp) :
    Ready server closed (h.answerHandshake server).becomeWebSocket := by
  have hs := h.answerHandshake_outline server
  have hshaken := hr.same hs
  refine ⟨hshaken.toCoherent.becomeWebSocket ?_ hshaken.encrypted fun hopen => ?_,
    hshaken.encrypted⟩
  · rw [Reading, hs.connections]
    exact hreading
  · rw [ReadingHttp, hs.connections]
    exact hfirst hopen

end HttpConnectionHandler

end QtWebApp
