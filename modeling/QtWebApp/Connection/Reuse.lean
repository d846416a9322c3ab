import QtWebApp.Connection.Twin

/-!
# QtWebApp.Connection.Reuse

Handlers that serve one connection after the other.

A handler that is not busy is as good as new, except when a WebSocket handshake was refused
and closing the socket ended the connection at once: the slot `disconnected` has then run
already when the slot `read` goes on and makes the connection an HTTP connection, which is what
the next connection finds. Runs in which this does not happen are exactly those in which every
free handler is restored (`restored_iff`).

Free handlers are not equal to a new one. Superfluous signal connections stay, and so does the log
of what has been served. What is shown is that the next connection cannot tell: whatever happens on
it, the handler does what a new one would do.
-/

namespace QtWebApp

open Bytes

namespace HttpConnectionHandler

/-! ### The life of a handler

A handler gets a connection only when it is free, and the connection goes through its events. -/

/-- What happens to a handler: it gets a connection, or something happens on it. -/
inductive LifeEvent
  /-- The slot `handleConnection` runs; `good` tells whether the socket takes the descriptor. -/
  | connect (good : Bool)
  | event (e : Event)
  deriving DecidableEq, Repr

/-- The handler after an event. A busy handler gets no connection. -/
def lifeStep (server : Server) (fuel : Nat) (h : HttpConnectionHandler) :
    LifeEvent → Option HttpConnectionHandler
  | .connect good => some (if h.isBusy then h else h.handleConnection server good)
  | .event e => h.step server fuel e

/-- The protocol state is the initial one. -/
structure Initial (h : HttpConnectionHandler) : Prop where
  type : h.type = .undefined
  webSocket : h.webSocket = none
  unread : (Signal.readyRead, Slot.read) ∉ h.socket.connections
  unreadHttp : (Signal.readyRead, Slot.readHttp) ∉ h.socket.connections

/-- The next connection is handled exactly as by a new handler, whatever happens on it. -/
def LikeNew (server : Server) (h : HttpConnectionHandler) : Prop :=
  ∀ n events, (tryRun (step server n) (h.handleConnection server true) events).map erased =
    (tryRun (step server n) (new.handleConnection server true) events).map erased

/-- A handler that is not busy behaves like a new one. -/
def Restored (server : Server) (h : HttpConnectionHandler) : Prop :=
  h.busy = false → h.Initial ∧ LikeNew server h

/-- The segment completes the first line of a request for a WebSocket that the library refuses
without leaving anything to be sent, so that closing the socket ends the connection at once. -/
def RefusedAtOnce (server : Server) (h : HttpConnectionHandler) (segment : Bytes) : Prop :=
  (h.socket.state ≠ .unconnected ∧ Encrypted server h ∧ h.Reading) ∧
    LF ∈ h.socket.readBuffer ++ segment ∧
    looksLikeUpgrade ((h.socket.readBuffer ++ segment).take 4096) = true ∧
    (server.upgradeFrom (h.socket.readBuffer ++ segment)).accepted = false ∧
    h.socket.unsent = false ∧
    ((server.upgradeFrom (h.socket.readBuffer ++ segment)).response = [] ∨
      server.network.accept h.socket.writes = none)

/-- The event leaves the handler in order. -/
def InOrder (server : Server) (h : HttpConnectionHandler) : LifeEvent → Prop
  | .event (.receive segment) => ¬ RefusedAtOnce server h segment
  | _ => True

instance (server : Server) (h : HttpConnectionHandler) (segment : Bytes) :
    Decidable (RefusedAtOnce server h segment) := by
  unfold RefusedAtOnce
  infer_instance

instance (server : Server) (h : HttpConnectionHandler) :
    (e : LifeEvent) → Decidable (InOrder server h e)
  | .event (.receive segment) => inferInstanceAs (Decidable (¬ RefusedAtOnce server h segment))
  | .connect _ | .event .encrypted | .event .sent | .event .closed | .event .readTimeout
  | .event (.webSocketMessage _) | .event .webSocketClosed => .isTrue trivial

/-! ### Free handlers

What is left when a connection has ended in order. -/

/-- Nothing is left of the last connection. -/
structure Free (h : HttpConnectionHandler) : Prop where
  state : h.socket.state = .unconnected
  type : h.type = .undefined
  unwatched : ¬ h.Watched
  silent : h.socket.slots .readyRead = []

/-- The invariant of a handler in order. -/
structure Ordered (server : Server) (h : HttpConnectionHandler) : Prop where
  tidy : Tidy server h
  watched : h.Reading → h.Watched
  free : h.busy = false → h.Free

theorem Free.not_reading {h : HttpConnectionHandler} (hf : h.Free) : ¬ h.Reading := by
  intro hreading
  have hmem := mem_slots.mpr hreading
  rw [hf.silent] at hmem
  cases hmem

/-- Output and parsing keep a handler in order. -/
theorem Ordered.same {server : Server} {h h' : HttpConnectionHandler} (ho : Ordered server h)
    (hs : SameOutline h h') : Ordered server h' := by
  refine ⟨ho.tidy.same hs, ?_, fun hbusy => ?_⟩
  · rw [Reading, Watched, hs.connections]
    exact ho.watched
  have hfree := ho.free (hs.busy.symm.trans hbusy)
  refine ⟨hs.state.trans hfree.state, hs.type.trans hfree.type, ?_, ?_⟩
  · rw [Watched, hs.connections]
    exact hfree.unwatched
  · rw [TcpSocket.slots, hs.connections]
    exact hfree.silent

/-- The slot `disconnected` restores everything. -/
theorem Tidy.disconnected_free {server : Server} {h : HttpConnectionHandler} (ht : Tidy server h)
    (hu : h.socket.state = .unconnected) : h.disconnected.Free := by
  by_cases htype : h.type = .webSocket
  · obtain ⟨hslots, hunwatched⟩ := ht.taken htype
    rw [disconnected_webSocket htype]
    exact ⟨hu, rfl, hunwatched, hslots⟩
  · rw [disconnected_http htype]
    exact ⟨hu, rfl, List.not_mem_nil, rfl⟩

/-- What is left when a connection ends: nothing, or everything when nobody notices it. -/
theorem Tidy.becomeUnconnected_cases {server : Server} {h : HttpConnectionHandler}
    (ht : Tidy server h) :
    (h.becomeUnconnected.Free ∧ h.becomeUnconnected.busy = false) ∨
      (¬ h.Watched ∧ h.becomeUnconnected = h.onSocket fun s =>
        { s with state := .unconnected }) := by
  have hover : Tidy server (h.onSocket fun s => { s with state := .unconnected }) :=
    ht.onState .unconnected
  rw [HttpConnectionHandler.becomeUnconnected, hover.emitDisconnected_eq]
  split
  · exact .inl ⟨hover.disconnected_free rfl, rfl⟩
  · next hunnoticed => exact .inr ⟨fun hc => hunnoticed (.inr hc), rfl⟩

/-- The end of a connection leaves a free handler. -/
theorem Ordered.becomeUnconnected {server : Server} {h : HttpConnectionHandler}
    (ho : Ordered server h) (hopen : h.socket.state ≠ .unconnected) :
    Ordered server h.becomeUnconnected := by
  refine ⟨ho.tidy.becomeUnconnected, ?_, fun hbusy => ?_⟩
  all_goals rcases ho.tidy.becomeUnconnected_cases with ⟨hfree, -⟩ | ⟨-, hsame⟩
  · exact fun hreading => absurd hreading hfree.not_reading
  · rw [hsame]
    exact ho.watched
  · exact hfree
  · -- nobody has noticed the end, so the handler stays busy
    rw [hsame] at hbusy
    exact absurd (ho.free hbusy).state hopen

/-- Closing keeps the handler in order. -/
theorem Ordered.disconnectFromHost {server : Server} {h : HttpConnectionHandler}
    (ho : Ordered server h) : Ordered server h.disconnectFromHost := by
  unfold HttpConnectionHandler.disconnectFromHost
  split
  · exact ho
  · next hopen =>
      split
      · exact ⟨ho.tidy.onState .closing, ho.watched, fun hbusy =>
          absurd (ho.free hbusy).state hopen⟩
      · exact ho.becomeUnconnected hopen

/-! ### The first data

A handshake that the library refuses is the case in which the slot goes on although the connection
is over. -/

/-- The decision for HTTP. -/
theorem Ordered.becomeHttp {server : Server} {h : HttpConnectionHandler} (ho : Ordered server h)
    (htype : h.type = .undefined) (hencrypted : Encrypted server h) (hbusy : h.busy = true) :
    Ordered server h.becomeHttp := by
  refine ⟨ho.tidy.becomeHttp htype hencrypted, fun hreading => ?_, fun hfree => ?_⟩
  · rw [Reading, becomeHttp_connections] at hreading
    simp at hreading
  · exact absurd (hfree.symm.trans hbusy) Bool.false_ne_true

/-- The decision for a WebSocket. -/
theorem Ordered.becomeWebSocket {server : Server} {h : HttpConnectionHandler}
    (ho : Ordered server h) (htype : h.type = .undefined) (hencrypted : Encrypted server h)
    (hbusy : h.busy = true) : Ordered server h.becomeWebSocket := by
  refine ⟨ho.tidy.becomeWebSocket htype hencrypted, fun hreading => ?_, fun hfree => ?_⟩
  · rw [Reading, becomeWebSocket_connections] at hreading
    exact absurd rfl hreading.1.2
  · exact absurd (hfree.symm.trans hbusy) Bool.false_ne_true

theorem Ordered.readHttp {server : Server} {n : Nat} {h h' : HttpConnectionHandler}
    (ho : Ordered server h) (hrun : h.readHttp server n = some h') : Ordered server h' :=
  readHttp_keeps (I := Ordered server) Ordered.same Ordered.disconnectFromHost hrun ho

theorem Ordered.reading_busy {server : Server} {h : HttpConnectionHandler} (ho : Ordered server h)
    (hreading : h.Reading) : h.busy = true := by
  cases hbusy : h.busy with
  | true => rfl
  | false => exact absurd hreading (ho.free hbusy).not_reading

/-- Something of what the library has answered waits to be sent, unless there was nothing to send or
it could not be written. -/
theorem answerHandshake_unsent (server : Server) (h : HttpConnectionHandler) :
    (h.answerHandshake server).socket.unsent = false ↔ h.socket.unsent = false ∧
      ((server.upgradeFrom h.socket.readBuffer).response = [] ∨
        server.network.accept h.socket.writes = none) := by
  show (({ h.socket with readBuffer := (server.upgradeFrom h.socket.readBuffer).rest }.write
    server.network (server.upgradeFrom h.socket.readBuffer).response).2).unsent = false ↔ _
  unfold TcpSocket.write
  cases server.network.accept h.socket.writes with
  | none => simp
  | some more => simp

/-- The device of an open connection is closed. -/
theorem closeSocket_open {h : HttpConnectionHandler} (hopen : h.socket.state ≠ .unconnected) :
    h.closeSocket =
      if h.socket.unsent then h.onSocket fun s => { s.closeDevice with state := .closing }
      else (h.onSocket TcpSocket.closeDevice).becomeUnconnected := by
  unfold closeSocket disconnectFromHost
  exact if_neg hopen

/-- The slot `read` leaves the handler in order, unless a handshake is refused at once. -/
theorem Ordered.read {server : Server} {n : Nat} {h h' : HttpConnectionHandler}
    (ho : Ordered server h) (hreading : h.Reading) (hencrypted : Encrypted server h)
    (hopen : h.socket.state ≠ .unconnected)
    (hok : LF ∈ h.socket.readBuffer → h.AsksUpgrade →
      (server.upgradeFrom h.socket.readBuffer).accepted = false →
        (h.answerHandshake server).socket.unsent = true)
    (hrun : h.read server n = some h') : Ordered server h' := by
  have htype := ho.tidy.reading_undefined hreading
  have hbusy := ho.reading_busy hreading
  have hs := h.answerHandshake_outline server
  have hanswered := ho.same hs
  have hshaken := hencrypted.same hs
  rw [read_eq] at hrun
  split at hrun
  · cases hrun
    exact ho
  · next hline =>
      split at hrun
      · next hup =>
          split at hrun
          · cases hrun
            exact hanswered.becomeWebSocket (hs.type.trans htype) hshaken (hs.busy.trans hbusy)
          · next hrefused =>
              -- the socket waits for the answer to be sent, and stays connected to its slots
              have hunsent := hok (not_not.mp hline) hup (Bool.eq_false_iff.mpr hrefused)
              have hclosing := closeSocket_open (h := h.answerHandshake server)
                (by rw [hs.state]; exact hopen)
              rw [if_pos hunsent] at hclosing
              obtain ⟨hundefined, hkept⟩ := closeSocket_undefined (hs.type.trans htype)
              have hclosed := closeSocket_keeps (I := Ordered server) Ordered.same
                Ordered.disconnectFromHost hanswered
              refine (hclosed.becomeHttp hundefined (fun hssl => hkept.trans (hshaken hssl))
                ?_).readHttp hrun
              rw [hclosing]
              exact hs.busy.trans hbusy
      · exact (ho.becomeHttp htype hencrypted hbusy).readHttp hrun

/-- Nothing is left to be read, so the slot `readHttp` does nothing. -/
theorem readHttp_nil {server : Server} {n : Nat} {h h' : HttpConnectionHandler}
    (hnil : h.socket.readBuffer = []) (hrun : h.readHttp server n = some h') : h' = h := by
  cases n with
  | zero => cases hrun
  | succ n =>
      rw [HttpConnectionHandler.readHttp, loop, httpBody, if_pos hnil] at hrun
      exact (Option.some.inj hrun).symm

/-- **A refused handshake.** The slot `disconnected` has run, and then the connection that is over
becomes an HTTP connection. -/
theorem Ordered.read_refused {server : Server} {n : Nat} {h h' : HttpConnectionHandler}
    (ho : Ordered server h) (hreading : h.Reading) (hopen : h.socket.state ≠ .unconnected)
    (hline : LF ∈ h.socket.readBuffer) (hup : h.AsksUpgrade)
    (hrefused : (server.upgradeFrom h.socket.readBuffer).accepted = false)
    (hunsent : (h.answerHandshake server).socket.unsent = false)
    (hrun : h.read server n = some h') : h'.busy = false ∧ h'.type = .http := by
  have htype := ho.tidy.reading_undefined hreading
  have hs := h.answerHandshake_outline server
  have htype' : (h.answerHandshake server).type ≠ .webSocket := by
    rw [hs.type, htype]
    exact HandlerType.noConfusion
  have hnone : h.webSocket = none :=
    ho.tidy.webSocket_eq_none (by rw [htype]; exact HandlerType.noConfusion)
  have hopen' : (h.answerHandshake server).socket.state ≠ .unconnected := by
    rw [hs.state]
    exact hopen
  -- closing the socket runs the slot `disconnected`
  have hclosed : (h.answerHandshake server).closeSocket =
      (((h.answerHandshake server).onSocket TcpSocket.closeDevice).onSocket fun s =>
        { s with state := .unconnected }).disconnected := by
    rw [closeSocket_open hopen', hunsent, if_neg Bool.false_ne_true,
      HttpConnectionHandler.becomeUnconnected]
    refine emitDisconnected_http hnone htype' ?_
    show (Signal.disconnected, Slot.disconnected) ∈ (h.answerHandshake server).socket.connections
    rw [hs.connections]
    exact ho.watched hreading
  have hhttp : (((h.answerHandshake server).onSocket TcpSocket.closeDevice).onSocket fun s =>
      { s with state := .unconnected }).type ≠ .webSocket := htype'
  rw [disconnected_http hhttp] at hclosed
  rw [read_eq, if_neg (not_not.mpr hline), if_pos hup, hrefused, if_neg Bool.false_ne_true,
    hclosed] at hrun
  obtain rfl := readHttp_nil rfl hrun
  exact ⟨rfl, rfl⟩

/-! ### Events

Every event but that one keeps the handler in order. -/

/-- The end of the TLS handshake. -/
theorem Ordered.emitEncrypted {server : Server} {h : HttpConnectionHandler} (ho : Ordered server h)
    (htype : h.type = .undefined) (hopen : h.socket.state = .connected) :
    Ordered server h.emitEncrypted := by
  refine ⟨ho.tidy.emitEncrypted htype, ?_, fun hbusy => ?_⟩
  · rw [Reading, Watched, mem_emitEncrypted, mem_emitEncrypted]
    rintro (hold | ⟨hslots, -⟩)
    · exact .inl (ho.watched hold)
    · exact .inr ⟨hslots, .inr rfl⟩
  · rw [emitEncrypted_eq] at hbusy
    cases (ho.free hbusy).state.symm.trans hopen

/-- Data that arrives leaves the handler in order, unless a handshake is refused at once. -/
theorem Ordered.receive {server : Server} {n : Nat} {h h' : HttpConnectionHandler} {segment : Bytes}
    (ho : Ordered server h) (hencrypted : Encrypted server h)
    (hok : ¬ RefusedAtOnce server h segment) (hrun : h.receive server n segment = some h') :
    Ordered server h' := by
  by_cases hopen : h.socket.state = .unconnected
  · rw [HttpConnectionHandler.receive, if_pos hopen] at hrun
    cases hrun
    exact ho
  · have harrived : Ordered server (h.arrived segment) := ho.same (arrived_outline h segment)
    rw [receive_open hopen, harrived.tidy.emitReadyRead] at hrun
    split at hrun
    · exact harrived.readHttp hrun
    · split at hrun
      · next hreading =>
          refine harrived.read hreading hencrypted hopen (fun hline hup hrefused => ?_) hrun
          by_contra hunsent
          obtain ⟨hnothing, hanswer⟩ :=
            (answerHandshake_unsent server _).mp (Bool.eq_false_iff.mpr hunsent)
          exact hok ⟨⟨hopen, hencrypted, hreading⟩, hline, hup, hrefused, hnothing, hanswer⟩
      · cases hrun
        exact harrived

/-- **An event in order.** -/
theorem Ordered.step {server : Server} {n : Nat} {h h' : HttpConnectionHandler} {e : Event}
    (ho : Ordered server h) (hok : InOrder server h (.event e))
    (hrun : h.step server n e = some h') :
    Ordered server h' := by
  refine step_keeps (I := Ordered server) Ordered.same Ordered.disconnectFromHost
    Ordered.becomeUnconnected ho (fun {segment _} he hencrypted _ hreceive => ?_)
    (fun hssl hopen hplain => ho.emitEncrypted (ho.tidy.quiet hssl hplain) hopen) hrun
  subst he
  exact ho.receive hencrypted hok hreceive

/-- A handshake that is refused at once leaves a free handler of an HTTP connection. -/
theorem Ordered.step_refused {server : Server} {n : Nat} {h h' : HttpConnectionHandler}
    {segment : Bytes} (ho : Ordered server h) (hbad : RefusedAtOnce server h segment)
    (hrun : h.step server n (.receive segment) = some h') : h'.busy = false ∧ h'.type = .http := by
  obtain ⟨⟨hopen, hencrypted, hreading⟩, hline, hup, hrefused, hunsent, hanswer⟩ := hbad
  rcases receiveEvent_cases hrun with ⟨hplain, -⟩ | ⟨-, h₁, hreceive, hsame⟩
  · exact absurd hencrypted hplain
  · have harrived : Ordered server (h.arrived segment) := ho.same (arrived_outline h segment)
    have hreading' : (h.arrived segment).Reading := hreading
    have htype := harrived.tidy.reading_undefined hreading'
    rw [receive_open hopen, harrived.tidy.emitReadyRead, htype,
      if_neg HandlerType.noConfusion, if_pos hreading'] at hreceive
    have hdone := harrived.read_refused hreading hopen hline hup hrefused
      ((answerHandshake_unsent server _).mpr ⟨hunsent, hanswer⟩) hreceive
    exact ⟨hsame.busy.trans hdone.1, hsame.type.trans hdone.2⟩

/-! ### New connections

A free handler with a new connection is a twin of a new handler with it. -/

/-- The signals that are connected for a new connection. -/
def firstConnections (server : Server) : List (Signal × Slot) :=
  if server.ssl then
    [(.sslErrors, .sslErrors), (.encrypted, .encrypted),
      (.preSharedKeyAuthenticationRequired, .preSharedKeyAuthenticationRequired)]
  else [(.readyRead, .read), (.disconnected, .disconnected)]

/-- A new connection makes the handler busy, keeps its type, and connects the signals. -/
theorem handleConnection_outline (server : Server) (good : Bool) {h : HttpConnectionHandler}
    (hu : h.socket.state = .unconnected) :
    (h.handleConnection server good).busy = true ∧ (h.handleConnection server good).type = h.type ∧
      (h.handleConnection server good).webSocket = h.webSocket ∧
      (h.handleConnection server good).socket.connections =
        h.socket.connections ++ firstConnections server := by
  have habort := abortSocket_unconnected (h := { h with busy := true }) hu
  unfold handleConnection firstConnections
  dsimp only
  rw [habort]
  cases good <;> cases server.ssl <;>
    simp [onSocket, TcpSocket.connect, TcpSocket.setSocketDescriptor, TcpSocket.closeDevice]

/-- What a new connection makes of a free handler. -/
theorem Ordered.handleConnection {server : Server} {h : HttpConnectionHandler}
    (ho : Ordered server h) (hfree : h.Free) (good : Bool) :
    Ordered server (h.handleConnection server good) := by
  obtain ⟨hbusy, htype, hsocket, hconnections⟩ := handleConnection_outline server good hfree.state
  have hundefined := htype.trans hfree.type
  have hnone : h.webSocket = none :=
    ho.tidy.webSocket_eq_none (by rw [hfree.type]; exact HandlerType.noConfusion)
  -- nothing of an earlier connection waits for data
  have hslots : (h.handleConnection server good).socket.slots .readyRead =
      ((firstConnections server).filter (·.1 = .readyRead)).map Prod.snd := by
    have hold : (h.socket.connections.filter (·.1 = .readyRead)).map Prod.snd = [] := hfree.silent
    rw [TcpSocket.slots, hconnections, List.filter_append, List.map_append, hold, List.nil_append]
  refine ⟨⟨?_, ?_, fun _ slot hslot => ?_, fun hc => ?_, fun hc => ?_, fun _ _ => hundefined⟩, ?_,
    fun hb => absurd (hb.symm.trans hbusy) Bool.false_ne_true⟩
  · rw [hsocket, hnone, hundefined]
    exact iff_of_false Bool.false_ne_true HandlerType.noConfusion
  · intro slot hslot
    rw [hconnections, List.mem_append] at hslot
    rcases hslot with hold | hnew
    · exact ho.tidy.wired slot hold
    · unfold firstConnections at hnew
      split at hnew
      · simp at hnew
      · simpa using hnew
  · rw [hslots] at hslot
    unfold firstConnections at hslot
    split at hslot
    · simp at hslot
    · simpa using hslot
  · cases hundefined.symm.trans hc
  · cases hundefined.symm.trans hc
  · intro hreading
    rw [Reading, hconnections, List.mem_append] at hreading
    rw [Watched, hconnections, List.mem_append]
    rcases hreading with hold | hnew
    · exact absurd hold hfree.not_reading
    · right
      unfold firstConnections at hnew ⊢
      split at hnew
      · simp at hnew
      · next hplain =>
          rw [if_neg hplain]
          exact List.mem_cons_of_mem _ (List.mem_singleton_self _)

theorem ordered_new (server : Server) : Ordered server new where
  tidy := ⟨⟨fun hc => (nomatch hc), fun hc => (nomatch hc)⟩, fun _ hslot => (nomatch hslot),
    fun _ _ hslot => (nomatch hslot), fun hc => (nomatch hc), fun hc => (nomatch hc),
    fun _ _ => rfl⟩
  watched := fun hreading => (nomatch hreading)
  free := fun _ => ⟨rfl, rfl, List.not_mem_nil, rfl⟩

theorem free_new : new.Free := ⟨rfl, rfl, List.not_mem_nil, rfl⟩

/-- With a connection a free handler is a twin of a new one. -/
theorem Ordered.twin_new {server : Server} {h : HttpConnectionHandler} (ho : Ordered server h)
    (hfree : h.Free) :
    Twin server (h.handleConnection server true) (new.handleConnection server true) := by
  obtain ⟨-, -, -, hconnections⟩ := handleConnection_outline server true hfree.state
  obtain ⟨-, -, -, hconnections'⟩ := handleConnection_outline server true free_new.state
  have hnone : h.webSocket = none :=
    ho.tidy.webSocket_eq_none (by rw [hfree.type]; exact HandlerType.noConfusion)
  refine ⟨(ho.handleConnection hfree true).tidy,
    ((ordered_new server).handleConnection free_new true).tidy, ?_, ?_, ?_, ?_⟩
  · rw [handleConnection_good hfree.state, handleConnection_good free_new.state]
    simp only [erased, onSocket, TcpSocket.setConnections, hfree.type, hnone]
    rfl
  · rw [Watched, Watched, hconnections, hconnections', List.mem_append, List.mem_append]
    exact or_congr (iff_of_false hfree.unwatched free_new.unwatched) Iff.rfl
  · rw [Reading, Reading, hconnections, hconnections', List.mem_append, List.mem_append]
    exact or_congr (iff_of_false hfree.not_reading free_new.not_reading) Iff.rfl
  · -- with TLS the slot `encrypted` has just been connected
    intro hssl
    have hstarts : ∀ cs : List (Signal × Slot),
        List.map Prod.snd ((cs ++ firstConnections server).filter (·.1 = .encrypted)) ≠ [] := by
      intro cs
      simp [firstConnections, hssl]
    rw [TcpSocket.slots, TcpSocket.slots, hconnections, hconnections']
    exact iff_of_false (hstarts _) (hstarts _)

/-- **As good as new.** -/
theorem Ordered.likeNew {server : Server} {h : HttpConnectionHandler} (ho : Ordered server h)
    (hfree : h.Free) : LikeNew server h := by
  intro n events
  have hruns := Run.tryRun_rel (fun e ht => Twin.step n ht e) (ho.twin_new hfree) events
  generalize tryRun (HttpConnectionHandler.step server n) (h.handleConnection server true) events =
    a at hruns
  generalize tryRun (HttpConnectionHandler.step server n)
    (new.handleConnection server true) events = b at hruns
  cases hruns with
  | none => rfl
  | some ht => exact congrArg some ht.same

/-- A handler in order is restored whenever it is free. -/
theorem Ordered.restored {server : Server} {h : HttpConnectionHandler} (ho : Ordered server h) :
    Restored server h := by
  intro hbusy
  have hfree := ho.free hbusy
  refine ⟨⟨hfree.type, ?_, hfree.not_reading, fun hread => ?_⟩, ho.likeNew hfree⟩
  · exact ho.tidy.webSocket_eq_none (by rw [hfree.type]; exact HandlerType.noConfusion)
  · have hmem := mem_slots.mpr hread
    rw [hfree.silent] at hmem
    cases hmem

/-! ### Runs

An event that is not in order leaves a handler that is free and not restored, so the condition is
exact. -/

/-- **A step of the life of a handler.** -/
theorem ordered_lifeStep {server : Server} {n : Nat} (h : HttpConnectionHandler) (e : LifeEvent)
    (h' : HttpConnectionHandler) (ho : Ordered server h) (hok : InOrder server h e)
    (hrun : lifeStep server n h e = some h') : Ordered server h' := by
  cases e with
  | connect good =>
      cases hrun
      split
      · exact ho
      · next hidle =>
          exact ho.handleConnection (ho.free (Bool.eq_false_iff.mpr hidle)) good
  | event e => exact ho.step hok hrun

/-- Any other event leaves a free handler that is not restored. -/
theorem not_restored_lifeStep {server : Server} {n : Nat}
    (h : HttpConnectionHandler) (e : LifeEvent) (h' : HttpConnectionHandler) (ho : Ordered server h)
    (hbad : ¬ InOrder server h e) (hrun : lifeStep server n h e = some h') :
    ¬ Restored server h' := by
  intro hrestored
  cases e with
  | connect good => exact hbad trivial
  | event e =>
      cases e with
      | receive segment =>
          obtain ⟨hbusy, htype⟩ := ho.step_refused (not_not.mp hbad) hrun
          cases htype.symm.trans (hrestored hbusy).1.type
      | encrypted | sent | closed | readTimeout | webSocketMessage _ | webSocketClosed =>
          exact hbad trivial

/-- **A reused handler behaves like a new one** throughout a run exactly when no WebSocket handshake
is refused at once. -/
theorem restored_iff {server : Server} {n : Nat} {events : List LifeEvent}
    {h : HttpConnectionHandler} (hrun : tryRun (lifeStep server n) new events = some h) :
    (∀ before after h', events = before ++ after →
      tryRun (lifeStep server n) new before = some h' → Restored server h') ↔
    Run.TryAlong (lifeStep server n) (InOrder server) new events :=
  Run.tryAlong_iff (fun _ ho => ho.restored) ordered_lifeStep not_restored_lifeStep
    (ordered_new server) hrun

/-- A request for a WebSocket without the key that the handshake needs. -/
def keylessHandshake : Bytes := ascii "GET /chat HTTP/1.1\r\nUpgrade: websocket\r\n\r\n"

/-- A request that is answered, and the end of its connection. -/
theorem restored_iff_closed :
    ∃ h, tryRun (lifeStep (plainServer defaultSettings) 100) new
      [.connect true, .event (.receive (ascii "GET / HTTP/1.1\r\n\r\n")), .event .closed] = some h ∧
    ((∀ before after h',
      [.connect true, .event (.receive (ascii "GET / HTTP/1.1\r\n\r\n")), .event .closed] =
        before ++ after →
      tryRun (lifeStep (plainServer defaultSettings) 100) new before = some h' →
        Restored (plainServer defaultSettings) h') ↔
    Run.TryAlong (lifeStep (plainServer defaultSettings) 100)
      (InOrder (plainServer defaultSettings)) new
      [.connect true, .event (.receive (ascii "GET / HTTP/1.1\r\n\r\n")), .event .closed]) := by
  have hends : (tryRun (lifeStep (plainServer defaultSettings) 100) new
      [.connect true, .event (.receive (ascii "GET / HTTP/1.1\r\n\r\n")),
        .event .closed]).isSome = true := by
    decide +kernel
  obtain ⟨h, hh⟩ := Option.isSome_iff_exists.mp hends
  exact ⟨h, hh, restored_iff hh⟩

/-- The handshake is refused without an answer; the handler is free, and its type is that of an HTTP
connection. -/
theorem not_restored_keyless :
    ¬ ∀ h, tryRun (lifeStep (plainServer defaultSettings) 5) new
      [.connect true, .event (.receive keylessHandshake)] = some h →
        Restored (plainServer defaultSettings) h := by
  intro hall
  have hsee : (tryRun (lifeStep (plainServer defaultSettings) 5) new
      [.connect true, .event (.receive keylessHandshake)]).map (fun h => (h.busy, h.type)) =
        some (false, .http) := by
    decide +kernel
  obtain ⟨h, hh, hboth⟩ := Option.map_eq_some_iff.mp hsee
  obtain ⟨hbusy, htype⟩ := Prod.mk.inj hboth
  cases htype.symm.trans (hall h hh hbusy).1.type

end HttpConnectionHandler

end QtWebApp
