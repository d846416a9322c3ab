import QtWebApp.Connection.Tidy

/-!
# QtWebApp.Connection.Twin

Handlers that differ in superfluous signal connections only.

A handler that has served connections before may have more signal connections than a new one:
those to the signals of the TLS handshake stay when a WebSocket ends, and are then made once
more. Two handlers that are equal up to such connections do the same on every event
(`Twin.step`).

Equality up to signal connections is not preserved by itself: a slot that is missing in one of the
handlers makes a difference. So a twin is also tidy, and both agree on whether the slots that matter
are connected at all.
-/

namespace QtWebApp

open Bytes

namespace HttpConnectionHandler

/-! ### Twins

What does not look at signal connections does the same to both. -/

/-- The handler without its signal connections. -/
def erased (h : HttpConnectionHandler) : HttpConnectionHandler :=
  h.onSocket (TcpSocket.setConnections [])

/-- What a function does has nothing to do with signal connections. -/
def Blind (f : HttpConnectionHandler → HttpConnectionHandler) : Prop :=
  ∀ cs h, f (h.onSocket (TcpSocket.setConnections cs)) =
    (f h).onSocket (TcpSocket.setConnections cs)

/-- The handlers are equal up to superfluous signal connections. -/
structure Twin (server : Server) (h g : HttpConnectionHandler) : Prop where
  tidy : Tidy server h
  tidy' : Tidy server g
  same : h.erased = g.erased
  watched : h.Watched ↔ g.Watched
  reading : h.Reading ↔ g.Reading
  starting : server.ssl = true → (h.socket.slots .encrypted = [] ↔ g.socket.slots .encrypted = [])

/-- A twin is the handler with other signal connections. -/
theorem Twin.eq_onSocket {server : Server} {h g : HttpConnectionHandler} (ht : Twin server h g) :
    g = h.onSocket (TcpSocket.setConnections g.socket.connections) := by
  have hsame := congrArg
    (fun k => k.onSocket (TcpSocket.setConnections g.socket.connections)) ht.same
  exact hsame.symm

theorem Blind.connections {f : HttpConnectionHandler → HttpConnectionHandler} (hf : Blind f)
    (h : HttpConnectionHandler) : (f h).socket.connections = h.socket.connections :=
  congrArg (fun k => k.socket.connections) (hf h.socket.connections h)

/-- What has nothing to do with signal connections keeps twins alike. -/
theorem Twin.blind {server : Server} {f : HttpConnectionHandler → HttpConnectionHandler}
    (hf : Blind f) (keep : ∀ {h}, Tidy server h → Tidy server (f h)) {h g : HttpConnectionHandler}
    (ht : Twin server h g) : Twin server (f h) (f g) where
  tidy := keep ht.tidy
  tidy' := keep ht.tidy'
  same := (hf [] h).symm.trans ((congrArg f ht.same).trans (hf [] g))
  watched := by
    rw [Watched, Watched, hf.connections, hf.connections]
    exact ht.watched
  reading := by
    rw [Reading, Reading, hf.connections, hf.connections]
    exact ht.reading
  starting := by
    rw [TcpSocket.slots, TcpSocket.slots, hf.connections, hf.connections]
    exact ht.starting

/-! ### What twins do

Each function of the handler, called on twins, leaves twins. -/

section Twin

variable {server : Server} {h g : HttpConnectionHandler}

theorem Twin.onState (ht : Twin server h g) (state : SocketState) :
    Twin server (h.onSocket fun s => { s with state := state })
      (g.onSocket fun s => { s with state := state }) :=
  ht.blind (f := fun k => k.onSocket fun s => { s with state := state }) (fun _ _ => rfl)
    fun hk => hk.onState state

/-- Twins agree on all that does not depend on the signal connections. -/
theorem Twin.agree {α : Type} (ht : Twin server h g) (f : HttpConnectionHandler → α)
    (hf : ∀ k : HttpConnectionHandler, f k.erased = f k) : f g = f h := by
  rw [← hf g, ← hf h, ht.same]

theorem Twin.type (ht : Twin server h g) : g.type = h.type := ht.agree (·.type) fun _ => rfl

theorem Twin.webSocket (ht : Twin server h g) : g.webSocket = h.webSocket :=
  ht.agree (·.webSocket) fun _ => rfl

theorem Twin.readTimer (ht : Twin server h g) : g.readTimer = h.readTimer :=
  ht.agree (·.readTimer) fun _ => rfl

theorem Twin.currentRequest (ht : Twin server h g) : g.currentRequest = h.currentRequest :=
  ht.agree (·.currentRequest) fun _ => rfl

theorem Twin.log (ht : Twin server h g) : g.log = h.log := ht.agree (·.log) fun _ => rfl

theorem Twin.state (ht : Twin server h g) : g.socket.state = h.socket.state :=
  ht.agree (·.socket.state) fun _ => rfl

theorem Twin.readBuffer (ht : Twin server h g) : g.socket.readBuffer = h.socket.readBuffer :=
  ht.agree (·.socket.readBuffer) fun _ => rfl

theorem Twin.unsent (ht : Twin server h g) : g.socket.unsent = h.socket.unsent :=
  ht.agree (·.socket.unsent) fun _ => rfl

theorem Twin.encrypted (ht : Twin server h g) : g.socket.encrypted = h.socket.encrypted :=
  ht.agree (·.socket.encrypted) fun _ => rfl

theorem Twin.forget (ht : Twin server h g) :
    Twin server { h with currentRequest := none } { g with currentRequest := none } :=
  ht.blind (f := fun k => { k with currentRequest := none }) (fun _ _ => rfl)
    fun hk => hk.same ⟨rfl, rfl, rfl, rfl, rfl, rfl⟩

/-- The slot `disconnected`. -/
theorem Twin.disconnected (ht : Twin server h g) : Twin server h.disconnected g.disconnected := by
  by_cases htype : h.type = .webSocket
  · have hsame : h.disconnected.erased = g.disconnected.erased := by
      rw [disconnected_webSocket htype, disconnected_webSocket (ht.type.trans htype)]
      exact congrArg (fun k : HttpConnectionHandler =>
        { k with readTimer := false, webSocket := none, type := .undefined, busy := false }) ht.same
    refine ⟨ht.tidy.disconnected, ht.tidy'.disconnected, hsame, ?_, ?_, ?_⟩
    all_goals rw [disconnected_webSocket htype, disconnected_webSocket (ht.type.trans htype)]
    · exact ht.watched
    · exact ht.reading
    · exact ht.starting
  · have htype' : g.type ≠ .webSocket := by
      rw [ht.type]
      exact htype
    have hsame : h.disconnected.erased = g.disconnected.erased := by
      rw [disconnected_http htype, disconnected_http htype']
      exact congrArg (fun k : HttpConnectionHandler =>
        { k with
          readTimer := false
          socket := k.socket.closeDevice
          type := .undefined
          busy := false }) ht.same
    refine ⟨ht.tidy.disconnected, ht.tidy'.disconnected, hsame, ?_, ?_, fun _ => ?_⟩
    all_goals
      rw [disconnected_http htype, disconnected_http htype']
      exact Iff.rfl

/-- It runs for both or for neither. -/
theorem Twin.emitDisconnected (ht : Twin server h g) :
    Twin server h.emitDisconnected g.emitDisconnected := by
  have hnoticed : (h.webSocket.isSome = true ∨ h.Watched) ↔
      (g.webSocket.isSome = true ∨ g.Watched) := by
    rw [ht.watched, ht.tidy.typed, ht.tidy'.typed, ht.type]
  rw [ht.tidy.emitDisconnected_eq, ht.tidy'.emitDisconnected_eq]
  by_cases hc : h.webSocket.isSome = true ∨ h.Watched
  · rw [if_pos hc, if_pos (hnoticed.mp hc)]
    exact ht.disconnected
  · rw [if_neg hc, if_neg (mt hnoticed.mpr hc)]
    exact ht

/-- The end of the connection. -/
theorem Twin.becomeUnconnected (ht : Twin server h g) :
    Twin server h.becomeUnconnected g.becomeUnconnected :=
  (ht.onState .unconnected).emitDisconnected

theorem Twin.disconnectFromHost (ht : Twin server h g) :
    Twin server h.disconnectFromHost g.disconnectFromHost := by
  unfold HttpConnectionHandler.disconnectFromHost
  rw [ht.state, ht.unsent]
  split
  · exact ht
  · split
    · exact ht.onState .closing
    · exact ht.becomeUnconnected

theorem Twin.closeSocket (ht : Twin server h g) : Twin server h.closeSocket g.closeSocket :=
  (ht.blind (f := fun k => k.onSocket TcpSocket.closeDevice) (fun _ _ => rfl)
    fun hk => hk.same ⟨rfl, rfl, rfl, rfl, rfl, rfl⟩).disconnectFromHost

/-- Sending something has nothing to do with signal connections. -/
theorem blind_write_flush (net : Network) (data : Bytes) :
    Blind fun k => k.onSocket fun s => ((s.write net data).2).flush net := by
  intro cs k
  exact congrArg (fun s => { k with socket := s })
    ((TcpSocket.inert_setConnections cs).write_flush net k.socket data)

theorem blind_write (net : Network) (data : Bytes) :
    Blind fun k => k.onSocket fun s => (s.write net data).2 := by
  intro cs k
  exact congrArg (fun s => { k with socket := s.2 })
    ((TcpSocket.inert_setConnections cs).write net k.socket data)

theorem blind_answered (server : Server) (r : HttpRequest) :
    Blind fun k => k.answered server r := by
  intro cs k
  exact congrArg (fun response : HttpResponse => ({ k with
    readTimer := false
    socket := response.socket
    log := k.log ++ [Entry.service r.view] } : HttpConnectionHandler))
    (respond_inert (TcpSocket.inert_setConnections cs) server k r)

/-- A rejection. -/
theorem Twin.reject (ht : Twin server h g) : Twin server (h.reject server) (g.reject server) := by
  have hsent := ht.blind (blind_write_flush server.network rejection)
    fun hk => hk.same (.of_output (rejection_outputOnly server _))
  have hreject : ∀ k : HttpConnectionHandler, k.reject server =
      { (k.onSocket fun s =>
          ((s.write server.network rejection).2).flush server.network).disconnectFromHost with
        currentRequest := none, log := k.log ++ [Entry.reject] } := fun _ => rfl
  rw [hreject, hreject, ht.log]
  exact hsent.disconnectFromHost.blind (f := fun k => { k with
    currentRequest := none, log := h.log ++ [Entry.reject] }) (fun _ _ => rfl)
    fun hk => hk.same ⟨rfl, rfl, rfl, rfl, rfl, rfl⟩

/-- An answer. -/
theorem Twin.serve (ht : Twin server h g) (r : HttpRequest) :
    Twin server (h.serve server r) (g.serve server r) := by
  have hclose : closeConnection r (g.respond server r) = closeConnection r
      (h.respond server r) := by
    rw [ht.eq_onSocket, respond_inert (TcpSocket.inert_setConnections _)]
    rfl
  have hanswered := ht.blind (blind_answered server r) fun {k} hk => by
    have hout := respond_outputOnly server k r
    exact hk.same ⟨rfl, rfl, rfl, hout.state, hout.encrypted, hout.connections⟩
  rw [serve_eq, serve_eq, hclose]
  refine Twin.forget ?_
  split
  · exact (hanswered.blind (f := fun k => k.onSocket (TcpSocket.flush server.network))
      (fun _ _ => rfl)
      fun hk => hk.same (.of_output (TcpSocket.flush_outputOnly (.refl _)))).disconnectFromHost
  · exact hanswered.blind (f := fun k => { k with readTimer := true }) (fun _ _ => rfl)
      fun hk => hk.same ⟨rfl, rfl, rfl, rfl, rfl, rfl⟩

/-! #### The slot `readHttp` -/

theorem Twin.ensureRequest (ht : Twin server h g) :
    Twin server (h.ensureRequest server) (g.ensureRequest server) := by
  unfold HttpConnectionHandler.ensureRequest
  rw [ht.currentRequest]
  split
  · exact ht
  · exact ht.blind (f := fun k => { k with currentRequest := some (.new server.settings) })
      (fun _ _ => rfl) fun hk => hk.same ⟨rfl, rfl, rfl, rfl, rfl, rfl⟩

theorem Twin.readOnce (ht : Twin server h g) (r : HttpRequest) :
    Twin server (h.readOnce r) (g.readOnce r) := by
  refine ht.blind (f := fun k => k.readOnce r) (fun cs k => ?_) fun hk => hk.same ?_
  · unfold HttpConnectionHandler.readOnce
    dsimp only [onSocket, TcpSocket.setConnections]
    split <;> rfl
  · unfold HttpConnectionHandler.readOnce
    dsimp only
    split <;> exact ⟨rfl, rfl, rfl, rfl, rfl, rfl⟩

theorem Twin.collectBody (ht : Twin server h g) :
    Option.Rel (Loop.Turn.Rel (Twin server)) (collectBody h) (collectBody g) := by
  unfold HttpConnectionHandler.collectBody
  rw [ht.currentRequest, ht.readBuffer]
  cases h.currentRequest with
  | none => exact .none
  | some r =>
      dsimp only
      split
      · exact .some (.again (ht.readOnce r))
      · exact .some (.leave ht)

theorem Twin.dispatch (ht : Twin server h g) :
    Loop.Turn.Rel (Twin server) (h.dispatch server) (g.dispatch server) := by
  unfold HttpConnectionHandler.dispatch
  rw [ht.currentRequest]
  cases h.currentRequest with
  | none => exact .again ht
  | some r =>
      dsimp only
      split
      · exact .leave ht.reject
      · exact .again (ht.serve r)
      · exact .again ht

theorem Twin.httpBody (n : Nat) (ht : Twin server h g) :
    Option.Rel (Loop.Turn.Rel (Twin server)) (httpBody server n h) (httpBody server n g) := by
  unfold HttpConnectionHandler.httpBody
  rw [ht.readBuffer]
  split
  · exact .some (.leave ht)
  · have hcollect := Loop.loop_rel (R := Twin server) Twin.collectBody n ht.ensureRequest
    generalize loop HttpConnectionHandler.collectBody n (h.ensureRequest server) = a at hcollect
    generalize loop HttpConnectionHandler.collectBody n (g.ensureRequest server) = b at hcollect
    cases hcollect with
    | none => exact .none
    | some hcollected => exact .some hcollected.dispatch

/-- **The slot `readHttp`.** -/
theorem Twin.readHttp (n : Nat) (ht : Twin server h g) :
    Option.Rel (Twin server) (h.readHttp server n) (g.readHttp server n) :=
  Loop.loop_rel (R := Twin server) (fun hk => hk.httpBody n) n ht

/-! #### The slot `read` -/

theorem Twin.becomeHttp (ht : Twin server h g) (htype : h.type = .undefined)
    (hencrypted : Encrypted server h) : Twin server h.becomeHttp g.becomeHttp := by
  have hencrypted' : Encrypted server g := fun hssl => ht.encrypted.trans (hencrypted hssl)
  refine ⟨ht.tidy.becomeHttp htype hencrypted,
    ht.tidy'.becomeHttp (ht.type.trans htype) hencrypted',
    ?_, ?_, ?_, ?_⟩
  · exact congrArg (fun k : HttpConnectionHandler => { k with type := .http }) ht.same
  · rw [becomeHttp_watched, becomeHttp_watched]
    exact ht.watched
  · rw [Reading, becomeHttp_connections, Reading, becomeHttp_connections]
    simp
  · have hslots : ∀ k : HttpConnectionHandler,
        k.becomeHttp.socket.slots .encrypted = k.socket.slots .encrypted := by
      intro k
      show ((k.socket.disconnect .readyRead .read).connect .readyRead .readHttp).slots .encrypted =
        _
      rw [TcpSocket.slots_connect, TcpSocket.slots_disconnect_other Signal.noConfusion]
      exact List.append_nil _
    rw [hslots, hslots]
    exact ht.starting

theorem Twin.becomeWebSocket (ht : Twin server h g) (htype : h.type = .undefined)
    (hencrypted : Encrypted server h) : Twin server h.becomeWebSocket g.becomeWebSocket := by
  have hencrypted' : Encrypted server g := fun hssl => ht.encrypted.trans (hencrypted hssl)
  refine ⟨ht.tidy.becomeWebSocket htype hencrypted,
    ht.tidy'.becomeWebSocket (ht.type.trans htype) hencrypted', ?_, ?_, ?_, ?_⟩
  · exact congrArg (fun k : HttpConnectionHandler => { k with
      webSocket := some ⟨false⟩, readTimer := true, type := .webSocket }) ht.same
  · rw [Watched, becomeWebSocket_connections, Watched, becomeWebSocket_connections]
    simp
  · rw [Reading, becomeWebSocket_connections, Reading, becomeWebSocket_connections]
    simp
  · have hslots : ∀ k : HttpConnectionHandler,
        k.becomeWebSocket.socket.slots .encrypted = k.socket.slots .encrypted := by
      intro k
      show ((k.socket.disconnect .readyRead .read).disconnect .disconnected .disconnected).slots
        .encrypted = _
      rw [TcpSocket.slots_disconnect_other Signal.noConfusion,
        TcpSocket.slots_disconnect_other Signal.noConfusion]
    rw [hslots, hslots]
    exact ht.starting

theorem Twin.answerHandshake (ht : Twin server h g) :
    Twin server (h.answerHandshake server) (g.answerHandshake server) := by
  refine ht.blind (f := fun k => k.answerHandshake server) (fun cs k => ?_)
    fun hk => hk.same (answerHandshake_outline server _)
  exact congrArg (fun s => { k with socket := s.2 })
    ((TcpSocket.inert_setConnections cs).write server.network
      { k.socket with readBuffer := (server.upgradeFrom k.socket.readBuffer).rest }
      (server.upgradeFrom k.socket.readBuffer).response)

/-- **The slot `read`.** -/
theorem Twin.read (n : Nat) (ht : Twin server h g) (hreading : h.Reading)
    (hencrypted : Encrypted server h) :
    Option.Rel (Twin server) (h.read server n) (g.read server n) := by
  have htype := ht.tidy.reading_undefined hreading
  have hanswered := ht.answerHandshake
  have hs := h.answerHandshake_outline server
  have hshaken := hencrypted.same hs
  have hasks : g.AsksUpgrade ↔ h.AsksUpgrade := by
    rw [AsksUpgrade, AsksUpgrade, ht.readBuffer]
  rw [read_eq, read_eq, ht.readBuffer]
  split
  · exact .some ht
  · by_cases hup : h.AsksUpgrade
    · rw [if_pos hup, if_pos (hasks.mpr hup)]
      split
      · exact .some (hanswered.becomeWebSocket (hs.type.trans htype) hshaken)
      · obtain ⟨hundefined, hkept⟩ := closeSocket_undefined (hs.type.trans htype)
        exact (hanswered.closeSocket.becomeHttp hundefined
          fun hssl => hkept.trans (hshaken hssl)).readHttp n
    · rw [if_neg hup, if_neg (mt hasks.mp hup)]
      exact (ht.becomeHttp htype hencrypted).readHttp n

/-! #### The other slots -/

theorem Twin.emitReadyRead (n : Nat) (ht : Twin server h g) (hencrypted : Encrypted server h) :
    Option.Rel (Twin server) (h.emitReadyRead server n) (g.emitReadyRead server n) := by
  rw [ht.tidy.emitReadyRead, ht.tidy'.emitReadyRead, ht.type]
  split
  · exact ht.readHttp n
  · by_cases hreading : h.Reading
    · rw [if_pos hreading, if_pos (ht.reading.mp hreading)]
      exact ht.read n hreading hencrypted
    · rw [if_neg hreading, if_neg (mt ht.reading.mpr hreading)]
      exact .some ht

/-- The end of the TLS handshake. -/
theorem Twin.emitEncrypted (ht : Twin server h g) (hssl : server.ssl = true)
    (htype : h.type = .undefined) : Twin server h.emitEncrypted g.emitEncrypted := by
  have hslots : ∀ k : HttpConnectionHandler,
      k.emitEncrypted.socket.slots .encrypted = k.socket.slots .encrypted := by
    intro k
    have hnone : ∀ l : List Slot, ((l.flatMap fun _ => [(Signal.readyRead, Slot.read),
        (Signal.disconnected, Slot.disconnected)]).filter (·.1 = .encrypted)) = [] := by
      intro l
      refine List.filter_eq_nil_iff.mpr fun c hc => ?_
      obtain ⟨slot, -, hc⟩ := List.mem_flatMap.mp hc
      rcases List.mem_cons.mp hc with rfl | hc
      · simp
      · rw [List.mem_singleton.mp hc]
        simp
    rw [emitEncrypted_eq]
    show List.map Prod.snd (List.filter _ (k.socket.connections ++ _)) = _
    rw [List.filter_append, hnone, List.append_nil]
    rfl
  refine ⟨ht.tidy.emitEncrypted htype, ht.tidy'.emitEncrypted (ht.type.trans htype), ?_, ?_, ?_, ?_⟩
  · rw [emitEncrypted_eq, emitEncrypted_eq]
    exact congrArg (fun k : HttpConnectionHandler => k.onSocket fun s =>
      { s with encrypted := true })
      ht.same
  · rw [Watched, mem_emitEncrypted, Watched, mem_emitEncrypted]
    exact or_congr ht.watched (and_congr (not_congr (ht.starting hssl)) Iff.rfl)
  · rw [Reading, mem_emitEncrypted, Reading, mem_emitEncrypted]
    exact or_congr ht.reading (and_congr (not_congr (ht.starting hssl)) Iff.rfl)
  · rw [hslots, hslots]
    exact ht.starting

theorem Twin.closeWebSocket (ht : Twin server h g) {webSocket : WebSocket}
    (hw : h.webSocket = some webSocket) :
    Twin server (h.closeWebSocket server webSocket) (g.closeWebSocket server webSocket) := by
  have hw' : g.webSocket = some webSocket := ht.webSocket.trans hw
  have hsent := (ht.blind (blind_write_flush server.network closeFrame) fun {k} hk =>
    hk.same (.of_output (TcpSocket.flush_outputOnly
      (TcpSocket.write_outputOnly closeFrame (.refl k.socket))))).blind
    (f := fun k => { k with webSocket := k.webSocket.map fun _ => ⟨true⟩ }) (fun _ _ => rfl)
    fun hk => hk.same ⟨rfl, Option.isSome_map, rfl, rfl, rfl, rfl⟩
  have hclose : ∀ k : HttpConnectionHandler, k.webSocket = some webSocket →
      k.closeWebSocket server webSocket =
        if webSocket.closingHandshakeSent then k.closeSocket
        else ({ k.onSocket (fun s =>
          ((s.write server.network closeFrame).2).flush server.network) with
          webSocket := k.webSocket.map fun _ => ⟨true⟩ } : HttpConnectionHandler).closeSocket := by
    intro k hk
    unfold HttpConnectionHandler.closeWebSocket
    rw [hk]
    dsimp only
    split <;> rfl
  rw [hclose h hw, hclose g hw']
  split
  · exact ht.closeSocket
  · exact hsent.closeSocket

/-- The read timer. -/
theorem Twin.readTimeout (ht : Twin server h g) :
    Twin server (h.readTimeout server) (g.readTimeout server) := by
  have hstopped := ht.blind (f := fun k => { k with readTimer := false }) (fun _ _ => rfl)
    fun hk => hk.same ⟨rfl, rfl, rfl, rfl, rfl, rfl⟩
  by_cases htype : h.type = .webSocket
  · obtain ⟨webSocket, hw⟩ := Option.isSome_iff_exists.mp (ht.tidy.typed.mpr htype)
    have hw' : g.webSocket = some webSocket := ht.webSocket.trans hw
    have hclose : ∀ k : HttpConnectionHandler, k.type = .webSocket → k.webSocket = some webSocket →
        k.readTimeout server =
          { ({ k with readTimer := false }.closeWebSocket server webSocket) with
            currentRequest := none } := by
      intro k hk hkw
      unfold HttpConnectionHandler.readTimeout
      simp only [hk, hkw]
    rw [hclose h htype hw, hclose g (ht.type.trans htype) hw']
    exact Twin.forget (hstopped.closeWebSocket hw)
  · rw [readTimeout_socket htype, readTimeout_socket (by rw [ht.type]; exact htype)]
    exact Twin.forget (hstopped.blind (f := fun k => k.onSocket (TcpSocket.flush server.network))
      (fun _ _ => rfl)
      fun hk => hk.same (.of_output (TcpSocket.flush_outputOnly (.refl _)))).disconnectFromHost

/-! #### Events -/

/-- A segment arrives. -/
theorem Twin.receive (n : Nat) (ht : Twin server h g) (hencrypted : Encrypted server h)
    (segment : Bytes) :
    Option.Rel (Twin server) (h.receive server n segment) (g.receive server n segment) := by
  unfold HttpConnectionHandler.receive
  rw [ht.state]
  split
  · exact .some ht
  · have harrived : Twin server (h.arrived segment) (g.arrived segment) :=
      ht.blind (f := fun k => k.arrived segment) (fun _ _ => rfl)
        fun hk => hk.same (arrived_outline _ segment)
    exact harrived.emitReadyRead n hencrypted

/-- **Twins stay twins.** Every event does the same to them. -/
theorem Twin.step (n : Nat) (ht : Twin server h g) (e : Event) :
    Option.Rel (Twin server) (h.step server n e) (g.step server n e) := by
  cases e with
  | receive segment =>
      rw [HttpConnectionHandler.step, HttpConnectionHandler.step, receiveEvent, receiveEvent,
        ht.encrypted]
      split
      · exact .some ht
      · next hready =>
          have hreceive := ht.receive n (encrypted_iff.mpr hready) segment
          generalize h.receive server n segment = a at hreceive
          generalize g.receive server n segment = b at hreceive
          cases hreceive with
          | none => exact .none
          | some ht' =>
              -- what is left belongs to the WebSocket, if there is one
              refine .some ?_
              dsimp only
              rw [ht'.webSocket]
              split
              · exact ht'.blind (f := fun k => k.onSocket (TcpSocket.setInput [])) (fun _ _ => rfl)
                  fun hk => hk.same ⟨rfl, rfl, rfl, rfl, rfl, rfl⟩
              · exact ht'
  | encrypted =>
      rw [HttpConnectionHandler.step, HttpConnectionHandler.step, ht.state, ht.encrypted]
      refine .some ?_
      split
      · next hshaking => exact ht.emitEncrypted hshaking.1 (ht.tidy.quiet hshaking.1 hshaking.2.2)
      · exact ht
  | sent =>
      have hsent := ht.blind (f := fun k => k.onSocket fun s => { s with unsent := false })
        (fun _ _ => rfl) fun hk => hk.same ⟨rfl, rfl, rfl, rfl, rfl, rfl⟩
      have hclosing : (g.onSocket fun s => { s with unsent := false }).socket.state =
          (h.onSocket fun s => { s with unsent := false }).socket.state := ht.state
      refine .some ?_
      unfold sentEvent
      dsimp only
      rw [hclosing]
      split
      · exact hsent.becomeUnconnected
      · exact hsent
  | closed =>
      rw [HttpConnectionHandler.step, HttpConnectionHandler.step, ht.state]
      refine .some ?_
      split
      · exact ht
      · exact ht.becomeUnconnected
  | readTimeout =>
      rw [HttpConnectionHandler.step, HttpConnectionHandler.step, ht.readTimer]
      refine .some ?_
      split
      · exact ht.readTimeout
      · exact ht
  | webSocketMessage reply =>
      rw [HttpConnectionHandler.step, HttpConnectionHandler.step, ht.webSocket]
      refine .some ?_
      split
      · exact (ht.blind (blind_write server.network reply) fun {k} hk =>
          hk.same (.of_output (TcpSocket.write_outputOnly reply (.refl k.socket)))).blind
          (f := fun k => { k with readTimer := true }) (fun _ _ => rfl)
          fun hk => hk.same ⟨rfl, rfl, rfl, rfl, rfl, rfl⟩
      · exact ht
  | webSocketClosed =>
      rw [HttpConnectionHandler.step, HttpConnectionHandler.step, ht.webSocket]
      refine .some ?_
      cases hw : h.webSocket with
      | none => exact ht
      | some webSocket => exact ht.closeWebSocket hw

end Twin

end HttpConnectionHandler

end QtWebApp
