import QtWebApp.Connection.Events

/-!
# QtWebApp.Connection.Phases

The life of a handler: closed, in the TLS handshake, live, and closed again.

What has to be shown of a live connection is that its end will be noticed: either the slot
`disconnected` is connected to the socket, or there is a WebSocket, which relays the signal.
During the TLS handshake neither holds; the slot `encrypted` makes the connections.

The phases are described by predicates rather than by a type, because the handler does not store
them: they are read off the socket and its signal connections. Each event leads from a phase to
itself or to the next one.
-/

namespace QtWebApp

namespace HttpConnectionHandler

/-! ### Signal connections

Connecting appends, disconnecting removes all connections of a slot. -/

theorem mem_connect {s : TcpSocket} {signal : Signal} {slot : Slot} {c : Signal × Slot} :
    c ∈ (s.connect signal slot).connections ↔ c ∈ s.connections ∨ c = (signal, slot) := by
  rw [TcpSocket.connect, List.mem_append, List.mem_singleton]

theorem mem_disconnect {s : TcpSocket} {signal : Signal} {slot : Slot} {c : Signal × Slot} :
    c ∈ (s.disconnect signal slot).connections ↔ c ∈ s.connections ∧ c ≠ (signal, slot) := by
  rw [TcpSocket.disconnect, List.mem_filter, decide_eq_true_iff]

/-- Only the slot `disconnected` is connected to the signal `disconnected()`. -/
def Wired (h : HttpConnectionHandler) : Prop :=
  ∀ slot, (Signal.disconnected, slot) ∈ h.socket.connections → slot = .disconnected

/-! ### The end of a connection

What the end does to a handler depends on its phase. Without the slot `disconnected` and without a
WebSocket nobody frees it. -/

/-- Nobody notices the end. -/
theorem emitDisconnected_unwatched {h : HttpConnectionHandler} (hw : h.webSocket = none)
    (hwired : h.Wired) (hc : ¬ h.Watched) : h.emitDisconnected = h := by
  have hnone : h.socket.slots .disconnected = [] := by
    refine List.eq_nil_iff_forall_not_mem.mpr fun slot hslot => ?_
    have hmem := mem_slots.mp hslot
    rw [hwired slot hmem] at hmem
    exact hc hmem
  unfold emitDisconnected
  simp only [hw, Option.isSome_none, Bool.false_eq_true, if_false, hnone, List.foldl_nil]

/-- What the slot `disconnected` does for a WebSocket. -/
theorem disconnected_webSocket {h : HttpConnectionHandler} (ht : h.type = .webSocket) :
    h.disconnected =
      { h with readTimer := false, webSocket := none, type := .undefined, busy := false } := by
  unfold disconnected
  simp only [ht, if_true]

/-- A WebSocket relays the end, and then it is the turn of the socket. -/
theorem emitDisconnected_webSocket {h : HttpConnectionHandler} (hw : h.webSocket.isSome = true)
    (ht : h.type = .webSocket) : h.emitDisconnected = h.disconnected.emitDisconnected := by
  have hnone : h.disconnected.webSocket.isSome = false := by
    rw [disconnected_webSocket ht]
    rfl
  unfold emitDisconnected
  rw [if_pos hw, if_neg (by rw [hnone]; exact Bool.false_ne_true)]

/-- The handler has got no connection. -/
structure Closed (h : HttpConnectionHandler) : Prop where
  state : h.socket.state = .unconnected
  webSocket : h.webSocket = none
  type : h.type ≠ .webSocket
  wired : h.Wired
  unwatched : ¬ h.Watched
  unread : (Signal.readyRead, Slot.read) ∉ h.socket.connections

/-- The connection is open and its TLS handshake goes on. -/
structure Shaking (server : Server) (h : HttpConnectionHandler) : Prop where
  ssl : server.ssl = true
  encrypted : h.socket.encrypted = false
  state : h.socket.state = .connected
  unsent : h.socket.unsent = false
  busy : h.busy = true
  webSocket : h.webSocket = none
  type : h.type ≠ .webSocket
  wired : h.Wired
  unwatched : ¬ h.Watched
  starts : (Signal.encrypted, Slot.encrypted) ∈ h.socket.connections

/-- The connection is open, or has ended and the handler is free again. -/
structure Live (server : Server) (h : HttpConnectionHandler) : Prop where
  encrypted : Encrypted server h
  typed : h.webSocket.isSome = true ↔ h.type = .webSocket
  undecided : h.webSocket.isSome = true → (Signal.readyRead, Slot.read) ∉ h.socket.connections
  wired : h.Wired
  noticed : h.socket.state ≠ .unconnected → h.busy = true ∧ (h.webSocket.isSome = true ∨ h.Watched)
  ended : h.socket.state = .unconnected →
    h.busy = false ∧ ¬ h.Watched ∧ h.webSocket = none ∧
      (Signal.readyRead, Slot.read) ∉ h.socket.connections

/-- When a live connection has ended, the handler is closed and free. -/
theorem Live.closed {server : Server} {h : HttpConnectionHandler} (hl : Live server h)
    (hu : h.socket.state = .unconnected) : h.Closed ∧ h.busy = false := by
  obtain ⟨hbusy, hwatched, hw, hread⟩ := hl.ended hu
  refine ⟨⟨hu, hw, fun ht => ?_, hl.wired, hwatched, hread⟩, hbusy⟩
  have hsome := hl.typed.mpr ht
  rw [hw] at hsome
  cases hsome

/-- Output and parsing keep a connection live. -/
theorem Live.same {server : Server} {h h' : HttpConnectionHandler} (hl : Live server h)
    (hs : SameOutline h h') : Live server h' where
  encrypted := Encrypted.same hl.encrypted hs
  typed := by
    rw [hs.webSocket, hs.type]
    exact hl.typed
  undecided := by
    rw [hs.webSocket, hs.connections]
    exact hl.undecided
  wired := by
    rw [Wired, hs.connections]
    exact hl.wired
  noticed := by
    rw [hs.state, hs.busy, hs.webSocket, Watched, hs.connections]
    exact hl.noticed
  ended := by
    rw [hs.state, hs.busy, Watched, hs.connections]
    intro hu
    obtain ⟨hbusy, hwatched, hw, hread⟩ := hl.ended hu
    refine ⟨hbusy, hwatched, ?_, hread⟩
    have hnone := hs.webSocket
    rw [hw, Option.isSome_none] at hnone
    exact Option.isSome_eq_false_iff.mp hnone |> Option.isNone_iff_eq_none.mp

/-- The slot `disconnected` on a watched socket without a WebSocket frees the handler. -/
theorem emitDisconnected_frees {h : HttpConnectionHandler} (hw : h.webSocket = none)
    (ht : h.type ≠ .webSocket) (hwired : h.Wired) (hfree : h.busy = false ∨ h.Watched)
    (hread : h.busy = false → (Signal.readyRead, Slot.read) ∉ h.socket.connections) :
    h.emitDisconnected.busy = false ∧ ¬ h.emitDisconnected.Watched ∧
      h.emitDisconnected.webSocket = none ∧ h.emitDisconnected.type ≠ .webSocket ∧
      h.emitDisconnected.Wired ∧
      (Signal.readyRead, Slot.read) ∉ h.emitDisconnected.socket.connections := by
  by_cases hc : h.Watched
  · rw [emitDisconnected_http hw ht hc, disconnected_http ht]
    refine ⟨rfl, List.not_mem_nil, hw, HandlerType.noConfusion, fun slot hslot => ?_,
      List.not_mem_nil⟩
    cases hslot
  · have hbusy := hfree.resolve_right hc
    rw [emitDisconnected_unwatched hw hwired hc]
    exact ⟨hbusy, hc, hw, ht, hwired, hread hbusy⟩

/-- **The end of a live connection is noticed**: the handler is free. -/
theorem Live.becomeUnconnected {server : Server} {h : HttpConnectionHandler} (hl : Live server h)
    (hopen : h.socket.state ≠ .unconnected) : Live server h.becomeUnconnected := by
  have hstate := h.becomeUnconnected_state
  have hencrypted : h.becomeUnconnected.socket.encrypted = h.socket.encrypted :=
    emitDisconnected_keeps TcpSocket.encrypted (fun _ => rfl) _
  -- the slot `disconnected` runs, called by the socket or by the WebSocket
  have hends : h.becomeUnconnected.busy = false ∧ ¬ h.becomeUnconnected.Watched ∧
      h.becomeUnconnected.webSocket = none ∧ h.becomeUnconnected.type ≠ .webSocket ∧
      h.becomeUnconnected.Wired ∧
      (Signal.readyRead, Slot.read) ∉ h.becomeUnconnected.socket.connections := by
    unfold HttpConnectionHandler.becomeUnconnected
    obtain ⟨hbusy, hnoticed⟩ := hl.noticed hopen
    cases hw : h.webSocket with
    | none =>
        have hwatched : h.Watched := by
          rw [hw] at hnoticed
          exact hnoticed.resolve_left Bool.false_ne_true
        have ht : h.type ≠ .webSocket := by
          intro ht
          have hsome := hl.typed.mpr ht
          rw [hw] at hsome
          cases hsome
        refine emitDisconnected_frees hw ht hl.wired (.inr hwatched) fun hb => ?_
        exact absurd (hb.symm.trans hbusy) Bool.false_ne_true
    | some webSocket =>
        have hsome : h.webSocket.isSome = true := by rw [hw]; rfl
        have ht := hl.typed.mp hsome
        rw [emitDisconnected_webSocket (h := h.onSocket _) hsome ht,
          disconnected_webSocket (h := h.onSocket _) ht]
        exact emitDisconnected_frees rfl HandlerType.noConfusion hl.wired (.inl rfl)
          fun _ => hl.undecided hsome
  obtain ⟨hbusy, hwatched, hw, ht, hwired, hread⟩ := hends
  refine ⟨fun hssl => hencrypted.trans (hl.encrypted hssl), ?_, fun _ => hread, hwired,
    fun hne => absurd hstate hne, fun _ => ⟨hbusy, hwatched, hw, hread⟩⟩
  rw [hw]
  exact ⟨fun hc => (nomatch hc), fun hc => absurd hc ht⟩

/-- Closing a live connection. -/
theorem Live.disconnectFromHost {server : Server} {h : HttpConnectionHandler}
    (hl : Live server h) : Live server h.disconnectFromHost := by
  refine disconnectFromHost_inv hl (fun hopen => ?_) hl.becomeUnconnected
  refine ⟨hl.encrypted, hl.typed, hl.undecided, hl.wired, fun _ => hl.noticed hopen, ?_⟩
  intro hu
  cases hu

/-! ### The first data

Whatever the slot `read` decides, the end of the connection will still be noticed. -/

theorem becomeHttp_connections (h : HttpConnectionHandler) (c : Signal × Slot) :
    c ∈ h.becomeHttp.socket.connections ↔
      (c ∈ h.socket.connections ∧ c ≠ (.readyRead, .read)) ∨ c = (.readyRead, .readHttp) := by
  show c ∈ ((h.socket.disconnect .readyRead .read).connect .readyRead .readHttp).connections ↔ _
  rw [mem_connect, mem_disconnect]

theorem becomeWebSocket_connections (h : HttpConnectionHandler) (c : Signal × Slot) :
    c ∈ h.becomeWebSocket.socket.connections ↔
      (c ∈ h.socket.connections ∧ c ≠ (.readyRead, .read)) ∧
        c ≠ (.disconnected, .disconnected) := by
  show c ∈ ((h.socket.disconnect .readyRead .read).disconnect .disconnected
    .disconnected).connections ↔ _
  rw [mem_disconnect, mem_disconnect]

/-- The decision for HTTP leaves the slot `disconnected` alone. -/
theorem becomeHttp_watched (h : HttpConnectionHandler) : h.becomeHttp.Watched ↔ h.Watched := by
  rw [Watched, becomeHttp_connections]
  simp [Watched]

theorem Live.becomeHttp {server : Server} {h : HttpConnectionHandler} (hl : Live server h)
    (hw : h.webSocket = none) : Live server h.becomeHttp where
  encrypted := hl.encrypted
  typed := by
    have hnone : h.becomeHttp.webSocket = none := hw
    rw [hnone]
    exact ⟨fun hc => (nomatch hc), fun hc => (nomatch hc)⟩
  undecided := fun _ hread => by simp [becomeHttp_connections] at hread
  wired := by
    intro slot hslot
    rw [becomeHttp_connections] at hslot
    rcases hslot with ⟨hold, -⟩ | hnew
    · exact hl.wired slot hold
    · cases hnew
  noticed := by
    intro hopen
    obtain ⟨hbusy, hnoticed⟩ := hl.noticed hopen
    exact ⟨hbusy, hnoticed.imp_right h.becomeHttp_watched.mpr⟩
  ended := by
    intro hu
    obtain ⟨hbusy, hwatched, -, -⟩ := hl.ended hu
    refine ⟨hbusy, fun hc => hwatched (h.becomeHttp_watched.mp hc), hw, fun hread => ?_⟩
    simp [becomeHttp_connections] at hread

/-- A WebSocket notices the end instead. -/
theorem Live.becomeWebSocket {server : Server} {h : HttpConnectionHandler} (hl : Live server h)
    (hopen : h.socket.state ≠ .unconnected) : Live server h.becomeWebSocket where
  encrypted := hl.encrypted
  typed := ⟨fun _ => rfl, fun _ => rfl⟩
  undecided := fun _ hread => by simp [becomeWebSocket_connections] at hread
  wired := by
    intro slot hslot
    rw [becomeWebSocket_connections] at hslot
    exact hl.wired slot hslot.1.1
  noticed := fun _ => ⟨(hl.noticed hopen).1, .inl rfl⟩
  ended := fun hu => absurd hu hopen

/-- The slot `read` keeps a connection live. -/
theorem Live.read {server : Server} {n : Nat} {h h' : HttpConnectionHandler} (hl : Live server h)
    (hconn : (Signal.readyRead, Slot.read) ∈ h.socket.connections)
    (hrun : h.read server n = some h') : Live server h' := by
  have hw : h.webSocket = none := by
    cases hw : h.webSocket with
    | none => rfl
    | some webSocket => exact absurd hconn (hl.undecided (by rw [hw]; rfl))
  have hopen : h.socket.state ≠ .unconnected := fun hu => (hl.ended hu).2.2.2 hconn
  have hs := h.answerHandshake_outline server
  have hanswered := hl.same hs
  rw [read_eq] at hrun
  split at hrun
  · cases hrun
    exact hl
  · split at hrun
    · split at hrun
      · cases hrun
        exact hanswered.becomeWebSocket (by rwa [hs.state])
      · have hclosed := closeSocket_keeps (I := Live server) Live.same
            Live.disconnectFromHost hanswered
        have hnone : (h.answerHandshake server).closeSocket.webSocket = none :=
          disconnectFromHost_webSocket hw
        exact readHttp_keeps (I := Live server) Live.same Live.disconnectFromHost hrun
          (hclosed.becomeHttp hnone)
    · exact readHttp_keeps (I := Live server) Live.same Live.disconnectFromHost hrun
        (hl.becomeHttp hw)

/-! ### Events

Every event, in every phase. -/

/-- Every event keeps a connection live. -/
theorem Live.step {server : Server} {n : Nat} {h h' : HttpConnectionHandler} {e : Event}
    (hl : Live server h) (hrun : h.step server n e = some h') : Live server h' := by
  refine step_keeps (I := Live server) Live.same Live.disconnectFromHost Live.becomeUnconnected hl
    (fun _ _ hopen hreceive => ?_) (fun hssl _ hplain => ?_) hrun
  · rw [receive_open hopen] at hreceive
    refine emitReadyRead_keeps ?_ hreceive (hl.same (arrived_outline _ _))
    intro g g' slot hg hconn hslot
    cases slot with
    | read => exact hg.read hconn hslot
    | readHttp => exact readHttp_keeps Live.same Live.disconnectFromHost hslot hg
    | disconnected | encrypted | sslErrors | preSharedKeyAuthenticationRequired =>
        cases hslot
        exact hg
  · -- the handshake is over already
    exact absurd (hplain.symm.trans (hl.encrypted hssl)) Bool.false_ne_true

/-- Nothing happens to a handler without a connection. -/
theorem Closed.step {server : Server} {n : Nat} {h h' : HttpConnectionHandler} {e : Event}
    (hc : h.Closed) (hrun : h.step server n e = some h') : SameOutline h h' := by
  have hrefl : SameOutline h h := .refl h
  cases e with
  | receive segment =>
      rw [HttpConnectionHandler.step, receiveEvent, receive, if_pos hc.state] at hrun
      split at hrun
      · cases hrun
        exact hrefl
      · cases hrun
        simp only [hc.webSocket, Option.isSome_none, Bool.false_eq_true, if_false]
        exact hrefl
  | encrypted =>
      cases hrun
      rw [if_neg]
      · exact hrefl
      · rintro ⟨-, hopen, -⟩
        cases hc.state.symm.trans hopen
  | sent =>
      cases hrun
      have hstate : (h.onSocket fun s => { s with unsent := false }).socket.state ≠ .closing := by
        intro hclosing
        cases hc.state.symm.trans hclosing
      rw [sentEvent, if_neg hstate]
      exact ⟨rfl, rfl, rfl, rfl, rfl, rfl⟩
  | closed =>
      cases hrun
      rw [if_pos hc.state]
      exact hrefl
  | readTimeout =>
      cases hrun
      split
      · refine readTimeout_keeps (I := SameOutline h) (fun hg hs => hg.trans hs) ?_ hrefl
        -- a socket that is unconnected is not disconnected again
        intro g hg
        rw [HttpConnectionHandler.disconnectFromHost, if_pos (hg.state.trans hc.state)]
        exact hg
      · exact hrefl
  | webSocketMessage reply =>
      cases hrun
      rw [hc.webSocket]
      exact hrefl
  | webSocketClosed =>
      cases hrun
      rw [hc.webSocket]
      exact hrefl

theorem Closed.same {h h' : HttpConnectionHandler} (hc : h.Closed) (hs : SameOutline h h') :
    h'.Closed where
  state := hs.state.trans hc.state
  webSocket := by
    have hnone := hs.webSocket
    rw [hc.webSocket, Option.isSome_none] at hnone
    exact Option.isNone_iff_eq_none.mp (Option.isSome_eq_false_iff.mp hnone)
  type := fun ht => hc.type (hs.type.symm.trans ht)
  wired := by
    rw [Wired, hs.connections]
    exact hc.wired
  unwatched := by
    rw [Watched, hs.connections]
    exact hc.unwatched
  unread := by
    rw [hs.connections]
    exact hc.unread

/-! ### New connections

A connection with TLS begins in the handshake, any other one is live at once. -/

/-- What the slot `encrypted` connects, as often as it runs. -/
theorem emitEncrypted_eq (h : HttpConnectionHandler) :
    h.emitEncrypted = h.onSocket fun s => { s with
      encrypted := true
      connections := s.connections ++ (s.slots .encrypted).flatMap fun _ =>
        [(.readyRead, .read), (.disconnected, .disconnected)] } := by
  have hall : ∀ (slots : List Slot) (g : HttpConnectionHandler),
      slots.foldl (fun g _ => g.encrypted) g = g.onSocket fun s => { s with
        connections := s.connections ++ slots.flatMap fun _ =>
          [(.readyRead, .read), (.disconnected, .disconnected)] } := by
    intro slots
    induction slots with
    | nil =>
        intro g
        simp [onSocket]
    | cons slot slots ih =>
        intro g
        rw [List.foldl_cons, ih]
        simp [encrypted, onSocket, TcpSocket.connect]
  exact hall _ _

/-- The connections once the TLS handshake is complete. -/
theorem mem_emitEncrypted {h : HttpConnectionHandler} {c : Signal × Slot} :
    c ∈ h.emitEncrypted.socket.connections ↔ c ∈ h.socket.connections ∨
      (h.socket.slots .encrypted ≠ [] ∧
        (c = (.readyRead, .read) ∨ c = (.disconnected, .disconnected))) := by
  rw [emitEncrypted_eq]
  show c ∈ h.socket.connections ++ _ ↔ _
  rw [List.mem_append, List.mem_flatMap]
  refine or_congr Iff.rfl ?_
  constructor
  · rintro ⟨slot, hslot, hc⟩
    exact ⟨List.ne_nil_of_mem hslot, by simpa using hc⟩
  · rintro ⟨hne, hc⟩
    obtain ⟨slot, hslot⟩ := List.exists_mem_of_ne_nil _ hne
    exact ⟨slot, hslot, by simpa using hc⟩

/-- After the handshake the connection is live. -/
theorem Shaking.emitEncrypted {server : Server} {h : HttpConnectionHandler}
    (hs : Shaking server h) : Live server h.emitEncrypted := by
  have hslots : h.socket.slots .encrypted ≠ [] := List.ne_nil_of_mem (mem_slots.mpr hs.starts)
  have hw : h.emitEncrypted.webSocket = none := by
    rw [emitEncrypted_eq]
    exact hs.webSocket
  have hopen : h.emitEncrypted.socket.state ≠ .unconnected := by
    rw [emitEncrypted_eq]
    show h.socket.state ≠ .unconnected
    rw [hs.state]
    exact SocketState.noConfusion
  refine ⟨fun _ => ?_, ?_, ?_, ?_, fun _ => ⟨?_, .inr ?_⟩, fun hu => absurd hu hopen⟩
  · rw [emitEncrypted_eq]
    rfl
  · rw [hw, emitEncrypted_eq]
    exact ⟨fun hc => (nomatch hc), fun hc => absurd hc hs.type⟩
  · rw [hw]
    exact fun hc => (nomatch hc)
  · intro slot hslot
    rw [mem_emitEncrypted] at hslot
    rcases hslot with hold | ⟨-, hread | hnew⟩
    · exact hs.wired slot hold
    · cases hread
    · exact congrArg Prod.snd hnew
  · rw [emitEncrypted_eq]
    exact hs.busy
  · rw [Watched, mem_emitEncrypted]
    exact .inr ⟨hslots, .inr rfl⟩

/-- A new connection on a closed handler, written out. -/
theorem handleConnection_good {server : Server} {h : HttpConnectionHandler}
    (hu : h.socket.state = .unconnected) :
    h.handleConnection server true =
      { h with
        busy := true
        socket := { TcpSocket.new.setSocketDescriptor with
          connections := h.socket.connections ++ if server.ssl then
              [(.sslErrors, .sslErrors), (.encrypted, .encrypted),
                (.preSharedKeyAuthenticationRequired, .preSharedKeyAuthenticationRequired)]
            else [(.readyRead, .read), (.disconnected, .disconnected)] }
        readTimer := true
        currentRequest := none
        log := [] } := by
  have habort := abortSocket_unconnected (h := { h with busy := true }) hu
  unfold handleConnection
  dsimp only
  rw [habort, if_pos rfl]
  cases server.ssl with
  | true => simp [onSocket, TcpSocket.connect, TcpSocket.setSocketDescriptor, TcpSocket.closeDevice,
      TcpSocket.new]
  | false => simp [onSocket, TcpSocket.connect, TcpSocket.setSocketDescriptor,
      TcpSocket.closeDevice, TcpSocket.new]

/-- **A new connection** on a closed handler. -/
theorem Closed.handleConnection {server : Server} {h : HttpConnectionHandler} (hc : h.Closed) :
    if server.ssl then Shaking server (h.handleConnection server true)
    else Live server (h.handleConnection server true) := by
  rw [handleConnection_good hc.state]
  cases hssl : server.ssl with
  | true =>
      -- what is left of the last connection does not wait for data
      refine ⟨hssl, rfl, rfl, rfl, rfl, hc.webSocket, hc.type, ?_, ?_, ?_⟩
      · intro slot hslot
        rcases List.mem_append.mp hslot with hold | hnew
        · exact hc.wired slot hold
        · simp at hnew
      · intro hwatched
        rcases List.mem_append.mp hwatched with hold | hnew
        · exact hc.unwatched hold
        · simp at hnew
      · simp
  | false =>
      refine ⟨fun h => ?_, ?_, ?_, ?_, fun _ => ⟨rfl, .inr ?_⟩, fun hu => ?_⟩
      · rw [hssl] at h
        cases h
      · show h.webSocket.isSome = true ↔ h.type = .webSocket
        rw [hc.webSocket]
        exact ⟨fun hn => (nomatch hn), fun ht => absurd ht hc.type⟩
      · show h.webSocket.isSome = true → _
        rw [hc.webSocket]
        exact fun hn => (nomatch hn)
      · intro slot hslot
        rcases List.mem_append.mp hslot with hold | hnew
        · exact hc.wired slot hold
        · simpa using hnew
      · simp [Watched]
      · cases hu

end HttpConnectionHandler

end QtWebApp
