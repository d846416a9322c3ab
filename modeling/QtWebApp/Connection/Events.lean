import QtWebApp.Base.Run
import QtWebApp.Connection.Closing
import QtWebApp.Responding.Output

/-!
# QtWebApp.Connection.Events

What can happen on a connection, in any order.

Data arrives in segments; the TLS handshake is completed; output reaches the network; the
connection is closed from outside; the read timer fires; a WebSocket gets a message or is
closed. Every event is delivered on its own: all the slots it runs have returned before the
next one.

There is no event for the request handler. It runs inside of `readHttp`, and what it does to the
socket is known from the calls that it makes on the response.

A proof about an event goes through all slots that it may run. The two rules of this module do that
once: for a property of everything that decides about a connection (`step_keeps`), and for one of
the busy flag and the socket state alone (`step_keeps_status`).
-/

namespace QtWebApp

open Bytes

namespace HttpConnectionHandler

/-! ### Segments

A segment is appended to the read buffer, and the signal runs the slots that are connected to it
then. A slot that is disconnected meanwhile does not run. -/

/-- A segment arrives: its bytes are appended to the read buffer and `readyRead()` is emitted. On
a connection that is over nothing arrives. -/
def receive (server : Server) (fuel : Nat) (h : HttpConnectionHandler) (segment : Bytes) :
    Option HttpConnectionHandler :=
  if h.socket.state = .unconnected then some h
  else (h.onSocket fun s => { s with readBuffer := s.readBuffer ++ segment }).emitReadyRead server
    fuel

/-- A segment is in the read buffer. -/
def arrived (h : HttpConnectionHandler) (segment : Bytes) : HttpConnectionHandler :=
  h.onSocket fun s => { s with readBuffer := s.readBuffer ++ segment }

/-- Segments arrive one after the other. -/
def receiveAll (server : Server) (fuel : Nat) (h : HttpConnectionHandler) (segments : List Bytes) :
    Option HttpConnectionHandler :=
  segments.foldlM (receive server fuel) h

/-! ### The other events

An event says what happens outside of the handler. What the handler makes of it is a function of its
state, up to the fuel of the loops. -/

/-- What can happen to a handler. -/
inductive Event
  | receive (segment : Bytes)
  | encrypted
  /-- All output has reached the network. -/
  | sent
  /-- The peer has closed the connection, or the TLS handshake has failed. -/
  | closed
  | readTimeout
  /-- A message arrives on the WebSocket, and this is sent in reply. -/
  | webSocketMessage (reply : Bytes)
  /-- The WebSocket is closed by a close frame or by the application. -/
  | webSocketClosed
  deriving DecidableEq, Repr

/-- Data arrives; none is delivered before the TLS handshake is complete, and what is not read
otherwise belongs to the WebSocket. -/
def receiveEvent (server : Server) (fuel : Nat) (h : HttpConnectionHandler) (segment : Bytes) :
    Option HttpConnectionHandler :=
  if server.ssl = true ∧ h.socket.encrypted = false then some h
  else (h.receive server fuel segment).map fun h =>
    if h.webSocket.isSome then h.onSocket (TcpSocket.setInput []) else h

/-- All output has reached the network: a closing socket becomes unconnected. -/
def sentEvent (h : HttpConnectionHandler) : HttpConnectionHandler :=
  let h := h.onSocket fun s => { s with unsent := false }
  if h.socket.state = .closing then h.becomeUnconnected else h

/-- The handler after an event. An event that cannot happen changes nothing. -/
def step (server : Server) (fuel : Nat) (h : HttpConnectionHandler) :
    Event → Option HttpConnectionHandler
  | .receive segment => h.receiveEvent server fuel segment
  | .encrypted =>
      some (if server.ssl = true ∧ h.socket.state = .connected ∧ h.socket.encrypted = false then
        h.emitEncrypted else h)
  | .sent => some h.sentEvent
  | .closed => some (if h.socket.state = .unconnected then h else h.becomeUnconnected)
  | .readTimeout => some (if h.readTimer then h.readTimeout server else h)
  | .webSocketMessage reply =>
      some (if h.webSocket.isSome then
        { h.onSocket (fun s => (s.write server.network reply).2) with readTimer := true } else h)
  | .webSocketClosed =>
      some (match h.webSocket with
        | some webSocket => h.closeWebSocket server webSocket
        | none => h)

/-! ### The slot `read`

The slot in its three parts: it waits, it makes a WebSocket, or it serves HTTP. -/

/-- What the library has answered to a WebSocket handshake is written. -/
def answerHandshake (server : Server) (h : HttpConnectionHandler) : HttpConnectionHandler :=
  h.onSocket fun s => ({ s with readBuffer := (server.upgradeFrom h.socket.readBuffer).rest }.write
    server.network (server.upgradeFrom h.socket.readBuffer).response).2

/-- The connection belongs to a WebSocket. -/
def becomeWebSocket (h : HttpConnectionHandler) : HttpConnectionHandler :=
  { h.onSocket (fun s =>
    (s.disconnect .readyRead .read).disconnect .disconnected .disconnected) with
    webSocket := some ⟨false⟩
    readTimer := true
    type := .webSocket }

/-- The connection is an HTTP connection. -/
def becomeHttp (h : HttpConnectionHandler) : HttpConnectionHandler :=
  { h.onSocket (fun s => (s.disconnect .readyRead .read).connect .readyRead .readHttp) with
    type := .http }

/-- The first data asks for a WebSocket. -/
def AsksUpgrade (h : HttpConnectionHandler) : Prop :=
  looksLikeUpgrade (h.socket.readBuffer.take 4096) = true

instance (h : HttpConnectionHandler) : Decidable h.AsksUpgrade := by
  unfold AsksUpgrade
  infer_instance

/-- The slot `read`, with its loops out of the way. -/
theorem read_eq (server : Server) (n : Nat) (h : HttpConnectionHandler) :
    h.read server n =
      if LF ∉ h.socket.readBuffer then some h
      else if h.AsksUpgrade then
        if (server.upgradeFrom h.socket.readBuffer).accepted then
          some (h.answerHandshake server).becomeWebSocket
        else (h.answerHandshake server).closeSocket.becomeHttp.readHttp server n
      else h.becomeHttp.readHttp server n := by
  unfold read websocketHandshake AsksUpgrade
  by_cases hline : LF ∉ h.socket.readBuffer
  · rw [if_pos hline, if_pos hline]
  · rw [if_neg hline, if_neg hline]
    by_cases hup : looksLikeUpgrade (h.socket.readBuffer.take 4096) = true
    · simp only [hup, if_true]
      cases hacc : (server.upgradeFrom h.socket.readBuffer).accepted <;> rfl
    · simp only [hup, if_false, Bool.false_eq_true]
      rfl

/-! ### What an event cannot change

Two handlers with the same outline go on in the same way. Most of what a slot does is output or
parsing, which leaves the outline alone. -/

/-- The handlers agree on everything that decides how the connection goes on or ends. -/
structure SameOutline (h h' : HttpConnectionHandler) : Prop where
  type : h'.type = h.type
  webSocket : h'.webSocket.isSome = h.webSocket.isSome
  busy : h'.busy = h.busy
  state : h'.socket.state = h.socket.state
  encrypted : h'.socket.encrypted = h.socket.encrypted
  connections : h'.socket.connections = h.socket.connections

theorem SameOutline.refl (h : HttpConnectionHandler) : SameOutline h h :=
  ⟨rfl, rfl, rfl, rfl, rfl, rfl⟩

theorem SameOutline.trans {h h₁ h₂ : HttpConnectionHandler} (h₁₂ : SameOutline h h₁)
    (h₂₃ : SameOutline h₁ h₂) : SameOutline h h₂ :=
  ⟨h₂₃.type.trans h₁₂.type, h₂₃.webSocket.trans h₁₂.webSocket, h₂₃.busy.trans h₁₂.busy,
    h₂₃.state.trans h₁₂.state, h₂₃.encrypted.trans h₁₂.encrypted,
    h₂₃.connections.trans h₁₂.connections⟩

/-- Output leaves the outline alone. -/
theorem SameOutline.of_output {h : HttpConnectionHandler} {f : TcpSocket → TcpSocket}
    (hf : TcpSocket.OutputOnly h.socket (f h.socket)) : SameOutline h (h.onSocket f) :=
  ⟨rfl, rfl, rfl, hf.state, hf.encrypted, hf.connections⟩

/-- What arrives only waits in the read buffer. -/
theorem arrived_outline (h : HttpConnectionHandler) (segment : Bytes) :
    SameOutline h (h.arrived segment) :=
  ⟨rfl, rfl, rfl, rfl, rfl, rfl⟩

/-- The answer to a handshake is output. -/
theorem answerHandshake_outline (server : Server) (h : HttpConnectionHandler) :
    SameOutline h (h.answerHandshake server) := by
  have hout := TcpSocket.write_outputOnly (n := server.network)
    (server.upgradeFrom h.socket.readBuffer).response
    (.refl { h.socket with readBuffer := (server.upgradeFrom h.socket.readBuffer).rest })
  exact ⟨rfl, rfl, rfl, hout.state, hout.encrypted, hout.connections⟩

/-- On an open connection a segment runs the slots. -/
theorem receive_open {server : Server} {n : Nat} {h : HttpConnectionHandler}
    (hopen : h.socket.state ≠ .unconnected) (segment : Bytes) :
    h.receive server n segment = (h.arrived segment).emitReadyRead server n :=
  if_neg hopen

section Keeps

variable {I : HttpConnectionHandler → Prop}
  (hsame : ∀ {h h'}, I h → SameOutline h h' → I h') (hclose : ∀ {h}, I h → I h.disconnectFromHost)

include hsame hclose

/-- A rejection is output, and then closes. -/
theorem reject_keeps {server : Server} {h : HttpConnectionHandler} (hI : I h) :
    I (h.reject server) := by
  have hsent : I (h.onSocket fun s =>
      ((s.write server.network rejection).2).flush server.network) :=
    hsame hI (.of_output (rejection_outputOnly server h.socket))
  exact hsame (hclose hsent) ⟨rfl, rfl, rfl, rfl, rfl, rfl⟩

/-- So is an answer, and it may close. -/
theorem serve_keeps {server : Server} {h : HttpConnectionHandler} {r : HttpRequest} (hI : I h) :
    I (h.serve server r) := by
  have hout := respond_outputOnly server h r
  have hanswered : I (h.answered server r) :=
    hsame hI ⟨rfl, rfl, rfl, hout.state, hout.encrypted, hout.connections⟩
  rw [serve_eq]
  split
  · have hflushed : I ((h.answered server r).onSocket (TcpSocket.flush server.network)) :=
      hsame hanswered (.of_output (TcpSocket.flush_outputOnly (.refl _)))
    exact hsame (hclose hflushed) ⟨rfl, rfl, rfl, rfl, rfl, rfl⟩
  · exact hsame hanswered ⟨rfl, rfl, rfl, rfl, rfl, rfl⟩

omit hclose in
/-- A turn of the inner loop of `readHttp` only takes data from the socket. -/
theorem collect_keeps {h h' : HttpConnectionHandler} {n : Nat}
    (hrun : loop collectBody n h = some h') (hI : I h) : I h' := by
  refine Loop.loop_keeps ?_ ?_ hI hrun
  · intro s t hs hturn
    unfold collectBody at hturn
    cases hr : s.currentRequest with
    | none =>
        rw [hr] at hturn
        cases hturn
    | some r =>
        rw [hr] at hturn
        dsimp only at hturn
        split at hturn
        · cases hturn
        · cases hturn
          exact hs
  · intro s t hs hturn
    unfold collectBody at hturn
    cases hr : s.currentRequest with
    | none =>
        rw [hr] at hturn
        cases hturn
    | some r =>
        rw [hr] at hturn
        dsimp only at hturn
        split at hturn
        · cases hturn
          refine hsame hs ?_
          unfold readOnce
          dsimp only
          split <;> exact ⟨rfl, rfl, rfl, rfl, rfl, rfl⟩
        · cases hturn

/-- **The slot `readHttp`** changes the outline by closing only. -/
theorem readHttp_keeps {server : Server} {n : Nat} {h h' : HttpConnectionHandler}
    (hrun : h.readHttp server n = some h') (hI : I h) : I h' := by
  -- one turn of the outer loop
  have hturn : ∀ s turn, I s → httpBody server n s = some turn → I (turned turn) := by
    intro s turn hs hbody
    unfold httpBody at hbody
    split at hbody
    · cases hbody
      exact hs
    · obtain ⟨s', hcollect, rfl⟩ := Option.map_eq_some_iff.mp hbody
      have hensured : I (s.ensureRequest server) := by
        unfold ensureRequest
        split
        · exact hs
        · exact hsame hs ⟨rfl, rfl, rfl, rfl, rfl, rfl⟩
      have hcollected := collect_keeps hsame hcollect hensured
      unfold dispatch
      cases s'.currentRequest with
      | none => exact hcollected
      | some r =>
          dsimp only
          split
          · exact reject_keeps hsame hclose hcollected
          · exact serve_keeps hsame hclose hcollected
          · exact hcollected
  exact Loop.loop_keeps (I := I) (fun s t hs ht => hturn s (.leave t) hs ht)
    (fun s t hs ht => hturn s (.again t) hs ht) hI hrun

theorem closeSocket_keeps {h : HttpConnectionHandler} (hI : I h) : I h.closeSocket :=
  hclose (hsame hI ⟨rfl, rfl, rfl, rfl, rfl, rfl⟩)

/-- Closing a WebSocket closes the socket below. -/
theorem closeWebSocket_keeps {server : Server} {h : HttpConnectionHandler} {webSocket : WebSocket}
    (hw : h.webSocket = some webSocket) (hI : I h) : I (h.closeWebSocket server webSocket) := by
  unfold closeWebSocket
  dsimp only
  split
  · exact closeSocket_keeps hsame hclose hI
  · have hout : TcpSocket.OutputOnly h.socket
        (((h.socket.write server.network closeFrame).2).flush server.network) :=
      TcpSocket.flush_outputOnly (TcpSocket.write_outputOnly closeFrame (.refl _))
    refine closeSocket_keeps hsame hclose (hsame hI ⟨rfl, ?_, rfl, hout.state,
      hout.encrypted, hout.connections⟩)
    rw [hw]
    rfl

/-- The read timer flushes and closes. -/
theorem readTimeout_keeps {server : Server} {h : HttpConnectionHandler} (hI : I h) :
    I (h.readTimeout server) := by
  have hstopped : I { h with readTimer := false } := hsame hI ⟨rfl, rfl, rfl, rfl, rfl, rfl⟩
  have hflushed : I ({ h with readTimer := false }.onSocket (TcpSocket.flush server.network)) :=
    hsame hstopped (.of_output (TcpSocket.flush_outputOnly (.refl _)))
  have hclosed : ∀ {g : HttpConnectionHandler}, I g → I { g with currentRequest := none } :=
    fun hg => hsame hg ⟨rfl, rfl, rfl, rfl, rfl, rfl⟩
  unfold readTimeout
  dsimp only
  refine hclosed ?_
  split
  · next hw => exact closeWebSocket_keeps hsame hclose hw hstopped
  · exact hstopped
  · exact hclose hflushed

end Keeps

/-- What every slot keeps, `readyRead()` keeps. -/
theorem emitReadyRead_keeps {I : HttpConnectionHandler → Prop} {server : Server} {n : Nat}
    (hslot : ∀ {h h' slot}, I h → (Signal.readyRead, slot) ∈ h.socket.connections →
      h.runSlot server n slot = some h' → I h')
    {h h' : HttpConnectionHandler} (hrun : h.emitReadyRead server n = some h')
    (hI : I h) : I h' := by
  rw [emitReadyRead, ← Run.tryRun_eq_foldlM] at hrun
  refine Run.inv_tryRun (I := I) (fun g slot g' hg hone => ?_) hI hrun
  split at hone
  · next hconn => exact hslot hg hconn hone
  · cases hone
    exact hg

/-! ### Invariants of the outline

A property has to survive only the changes of the outline: closing, the end of the connection, and
the decision of the slot `read`. -/

/-- The connection is past its TLS handshake, if it needs one. -/
def Encrypted (server : Server) (h : HttpConnectionHandler) : Prop :=
  server.ssl = true → h.socket.encrypted = true

instance (server : Server) (h : HttpConnectionHandler) : Decidable (Encrypted server h) := by
  unfold Encrypted
  infer_instance

theorem encrypted_iff {server : Server} {h : HttpConnectionHandler} :
    Encrypted server h ↔ ¬ (server.ssl = true ∧ h.socket.encrypted = false) := by
  rw [not_and, Bool.not_eq_false]
  exact Iff.rfl

theorem Encrypted.same {server : Server} {h h' : HttpConnectionHandler}
    (hencrypted : Encrypted server h) (hs : SameOutline h h') : Encrypted server h' :=
  fun hssl => hs.encrypted.trans (hencrypted hssl)

/-- A segment on a connection past its TLS handshake. -/
theorem receiveEvent_cases {server : Server} {n : Nat} {h h' : HttpConnectionHandler}
    {segment : Bytes} (hrun : h.receiveEvent server n segment = some h') :
    (¬ Encrypted server h ∧ h' = h) ∨
      (Encrypted server h ∧ ∃ h₁, h.receive server n segment = some h₁ ∧ SameOutline h₁ h') := by
  unfold receiveEvent at hrun
  split at hrun
  · next hplain =>
      cases hrun
      exact .inl ⟨fun hencrypted => encrypted_iff.mp hencrypted hplain, rfl⟩
  · next hready =>
      obtain ⟨h₁, hreceive, rfl⟩ := Option.map_eq_some_iff.mp hrun
      refine .inr ⟨encrypted_iff.mpr hready, h₁, hreceive, ?_⟩
      split <;> exact ⟨rfl, rfl, rfl, rfl, rfl, rfl⟩

section Outline

variable {I : HttpConnectionHandler → Prop}
  (hsame : ∀ {h h'}, I h → SameOutline h h' → I h') (hclose : ∀ {h}, I h → I h.disconnectFromHost)
  (hover : ∀ {h}, I h → h.socket.state ≠ .unconnected → I h.becomeUnconnected)

include hsame hclose hover

/-- **The rule of the outline.** What the outline decides, and what survives the end of a
connection, every event keeps, provided that the arrival of data and the end of the TLS handshake
do. -/
theorem step_keeps {server : Server} {n : Nat} {h h' : HttpConnectionHandler} {e : Event} (hI : I h)
    (harrives : ∀ {segment h'}, e = .receive segment → Encrypted server h →
      h.socket.state ≠ .unconnected → h.receive server n segment = some h' → I h')
    (hshakes : server.ssl = true → h.socket.state = .connected → h.socket.encrypted = false →
      I h.emitEncrypted)
    (hrun : h.step server n e = some h') : I h' := by
  cases e with
  | receive segment =>
      rcases receiveEvent_cases hrun with ⟨-, rfl⟩ | ⟨hencrypted, h₁, hreceive, hkept⟩
      · exact hI
      · by_cases hopen : h.socket.state = .unconnected
        · rw [receive, if_pos hopen] at hreceive
          cases hreceive
          exact hsame hI hkept
        · exact hsame (harrives rfl hencrypted hopen hreceive) hkept
  | encrypted =>
      cases hrun
      split
      · next hshaking => exact hshakes hshaking.1 hshaking.2.1 hshaking.2.2
      · exact hI
  | sent =>
      cases hrun
      have hsent : I (h.onSocket fun s => { s with unsent := false }) :=
        hsame hI ⟨rfl, rfl, rfl, rfl, rfl, rfl⟩
      unfold sentEvent
      dsimp only
      split
      · next hclosing =>
          refine hover hsent ?_
          rw [hclosing]
          exact SocketState.noConfusion
      · exact hsent
  | closed =>
      cases hrun
      split
      · exact hI
      · next hopen => exact hover hI hopen
  | readTimeout =>
      cases hrun
      split
      · exact readTimeout_keeps hsame hclose hI
      · exact hI
  | webSocketMessage reply =>
      cases hrun
      split
      · have hout := TcpSocket.write_outputOnly (n := server.network) reply (.refl h.socket)
        exact hsame hI ⟨rfl, rfl, rfl, hout.state, hout.encrypted, hout.connections⟩
      · exact hI
  | webSocketClosed =>
      cases hrun
      cases hw : h.webSocket with
      | none => exact hI
      | some webSocket => exact closeWebSocket_keeps hsame hclose hw hI

end Outline

/-! ### Invariants of the busy flag and the state of the socket

Of these changes only closing and the end of the connection concern the status. -/

section Status

variable {I : HttpConnectionHandler → Prop}
  (hstatus : ∀ {h h'}, I h → h'.busy = h.busy → h'.socket.state = h.socket.state → I h')
  (hclosing : ∀ {h}, I h → h.socket.state ≠ .unconnected →
    I (h.onSocket fun s => { s with state := .closing }))
  (hover : ∀ {h}, I h → h.socket.state ≠ .unconnected → I h.becomeUnconnected)

include hstatus hclosing hover

/-- **The rule of the status.** What depends on the busy flag and the state of the socket only, and
is kept when a socket that is not unconnected closes or becomes unconnected, every event keeps. -/
theorem step_keeps_status {server : Server} {n : Nat} {h h' : HttpConnectionHandler} {e : Event}
    (hrun : h.step server n e = some h') (hI : I h) : I h' := by
  have hsame : ∀ {h h'}, I h → SameOutline h h' → I h' := fun hI hs => hstatus hI hs.busy hs.state
  have hclose : ∀ {h : HttpConnectionHandler}, I h → I h.disconnectFromHost := by
    intro h hI
    exact disconnectFromHost_inv hI (hclosing hI) (hover hI)
  have hslot : ∀ {h h' : HttpConnectionHandler} {slot : Slot}, I h →
      (Signal.readyRead, slot) ∈ h.socket.connections →
        h.runSlot server n slot = some h' → I h' := by
    intro h h' slot hI _ hslot
    cases slot with
    | read =>
        rw [runSlot, read_eq] at hslot
        have hanswered : I (h.answerHandshake server) := hsame hI (h.answerHandshake_outline server)
        split at hslot
        · cases hslot
          exact hI
        · split at hslot
          · split at hslot
            · cases hslot
              exact hstatus hanswered rfl rfl
            · have hclosed := closeSocket_keeps hsame hclose hanswered
              exact readHttp_keeps hsame hclose hslot (hstatus hclosed rfl rfl)
          · exact readHttp_keeps hsame hclose hslot (hstatus hI rfl rfl)
    | readHttp => exact readHttp_keeps hsame hclose hslot hI
    | disconnected | encrypted | sslErrors | preSharedKeyAuthenticationRequired =>
        cases hslot
        exact hI
  refine step_keeps hsame hclose hover hI (fun _ _ hopen hreceive => ?_) (fun _ _ _ => ?_) hrun
  · rw [receive_open hopen] at hreceive
    exact emitReadyRead_keeps hslot hreceive (hsame hI (arrived_outline _ _))
  · -- the slot `encrypted` only connects other slots
    unfold emitEncrypted
    generalize h.socket.slots .encrypted = slots
    have hstart : I (h.onSocket fun s => { s with encrypted := true }) := hstatus hI rfl rfl
    generalize (h.onSocket fun s => { s with encrypted := true }) = g at hstart
    induction slots generalizing g with
    | nil => exact hstart
    | cons slot slots ih => exact ih _ (hstatus hstart rfl rfl)

end Status

end HttpConnectionHandler

end QtWebApp
