import QtWebApp.Connection.Detection
import QtWebApp.WebSockets.Handshake

/-!
# QtWebApp.Connection.Upgrading

Which connections to the server are upgraded.

The slot `read` gives the library what has arrived when the first line is complete, and the library
does not wait for more. So the request of a client has to arrive at once (`upgraded_iff`).

Both theorems are about the run itself: they say that it ends, and what becomes of the handler.
Before the decision nothing happens but that bytes wait; after it the data is for the WebSocket, or
the connection never becomes one.
-/

namespace QtWebApp

open Bytes

/-- `m_serverName`. -/
def HttpConnectionHandler.serverName : Bytes := ascii "Websocket Test Server"

/-- A server with the library of WebSockets. -/
def Server.upgrading (platform : Platform) (server : Server) : Server :=
  { server with
    upgradeFrom := fun data =>
      let (accepted, response, rest) :=
        QtWebApp.upgradeFrom platform HttpConnectionHandler.serverName data
      ⟨accepted, response, rest⟩ }

namespace HttpConnectionHandler

/-! ### Before and after the decision

What segments do to a handler that waits, to one with a WebSocket, and to one that has decided on
HTTP. -/

/-- With other data in the read buffer. -/
def withInput (h : HttpConnectionHandler) (data : Bytes) : HttpConnectionHandler :=
  h.onSocket (TcpSocket.setInput data)

/-- **The slot `read` decides about the opening**, and what comes later goes to what it has decided
for. -/
theorem Waiting.receiveAll {server : Server} {n : Nat} {segments : List Bytes}
    {h : HttpConnectionHandler} (hw : Waiting server h)
    (hline : LF ∈ h.socket.readBuffer ++ segments.flatten) :
    ∃ after : List Bytes, opening h.socket.readBuffer segments ++ after.flatten =
        h.socket.readBuffer ++ segments.flatten ∧
      LF ∈ opening h.socket.readBuffer segments ∧
      h.receiveAll server n segments =
        ((h.withInput (opening h.socket.readBuffer segments)).read server n).bind
        fun g => g.receiveAll server n after := by
  induction segments generalizing h with
  | nil =>
      rw [List.flatten_nil, List.append_nil] at hline
      exact absurd hline hw.undecided
  | cons segment segments ih =>
      rw [opening, HttpConnectionHandler.receiveAll, List.foldlM_cons, hw.receive]
      split
      · next hfirst =>
          refine ⟨segments, by rw [List.flatten_cons, List.append_assoc], hfirst, ?_⟩
          rfl
      · next hnone =>
          have hread : (h.arrived segment).read server n = some (h.arrived segment) := by
            rw [read_eq]
            exact if_pos hnone
          rw [List.flatten_cons, ← List.append_assoc] at hline
          obtain ⟨after, hafter, hopening, hrun⟩ := ih (hw.arrived hnone) hline
          refine ⟨after, ?_, hopening, ?_⟩
          · rw [List.flatten_cons, ← List.append_assoc]
            exact hafter
          · rw [hread]
            exact hrun

/-- The handler has decided for HTTP, or its WebSocket is gone. -/
def NoWebSocket (h : HttpConnectionHandler) : Prop := ¬ h.Reading ∧ h.webSocket.isSome = false

theorem NoWebSocket.same {h h' : HttpConnectionHandler} (hn : NoWebSocket h)
    (hs : SameOutline h h') :
    NoWebSocket h' := by
  refine ⟨?_, hs.webSocket.trans hn.2⟩
  rw [Reading, hs.connections]
  exact hn.1

theorem NoWebSocket.disconnectFromHost {h : HttpConnectionHandler} (hn : NoWebSocket h) :
    NoWebSocket h.disconnectFromHost := by
  refine disconnectFromHost_inv (I := NoWebSocket) hn (fun _ => hn) fun _ => ?_
  refine emitDisconnected_inv (I := NoWebSocket) ?_ hn
  intro g hg
  exact disconnected_inv (I := NoWebSocket) ⟨hg.1, rfl⟩ ⟨List.not_mem_nil, hg.2⟩

theorem closeSocket_none {h : HttpConnectionHandler} (hn : h.webSocket.isSome = false) :
    h.closeSocket.webSocket.isSome = false := by
  refine disconnectFromHost_inv (I := fun g => g.webSocket.isSome = false) hn
    (fun _ => hn) fun _ => ?_
  refine emitDisconnected_inv (I := fun g => g.webSocket.isSome = false) ?_ hn
  intro g hg
  exact disconnected_inv (I := fun g => g.webSocket.isSome = false) rfl hg

theorem NoWebSocket.readHttp {server : Server} {n : Nat} {h h' : HttpConnectionHandler}
    (hn : NoWebSocket h) (hrun : h.readHttp server n = some h') : NoWebSocket h' :=
  readHttp_keeps (I := NoWebSocket) NoWebSocket.same NoWebSocket.disconnectFromHost hrun hn

theorem NoWebSocket.receive {server : Server} {n : Nat} {h h' : HttpConnectionHandler}
    {segment : Bytes} (hn : NoWebSocket h) (hrun : h.receive server n segment = some h') :
    NoWebSocket h' := by
  unfold HttpConnectionHandler.receive at hrun
  split at hrun
  · cases hrun
    exact hn
  · refine emitReadyRead_keeps (I := NoWebSocket) ?_ hrun ⟨hn.1, hn.2⟩
    intro g g' slot hg hconn hslot
    cases slot with
    | read => exact absurd hconn hg.1
    | readHttp => exact hg.readHttp hslot
    | disconnected | encrypted | sslErrors | preSharedKeyAuthenticationRequired =>
        cases hslot
        exact hg

/-- Segments never make a WebSocket of such a connection. -/
theorem NoWebSocket.receiveAll {server : Server} {n : Nat} {segments : List Bytes}
    {h h' : HttpConnectionHandler} (hn : NoWebSocket h)
    (hrun : h.receiveAll server n segments = some h') : NoWebSocket h' := by
  rw [HttpConnectionHandler.receiveAll, ← Run.tryRun_eq_foldlM] at hrun
  exact Run.inv_tryRun (I := NoWebSocket) (fun _ _ _ hg hone => hg.receive hone) hn hrun

/-- The data of the connection is for the WebSocket. -/
def HasWebSocket (h : HttpConnectionHandler) : Prop :=
  h.socket.slots .readyRead = [] ∧ h.webSocket.isSome = true

/-- Data for the WebSocket changes nothing of the handler, and no slot runs. -/
theorem HasWebSocket.receive {server : Server} {h : HttpConnectionHandler} (hs : HasWebSocket h)
    (n : Nat) (segment : Bytes) :
    ∃ h', h.receive server n segment = some h' ∧ HasWebSocket h' ∧
      h'.socket.written = h.socket.written := by
  unfold HttpConnectionHandler.receive
  split
  · exact ⟨h, rfl, hs, rfl⟩
  · have hslots : (h.arrived segment).socket.slots .readyRead = [] := hs.1
    refine ⟨h.arrived segment, ?_, ⟨hslots, hs.2⟩, rfl⟩
    show (h.arrived segment).emitReadyRead server n = some (h.arrived segment)
    rw [emitReadyRead, hslots]
    rfl

/-- Segments that follow are left to the WebSocket. -/
theorem HasWebSocket.receiveAll {server : Server} {h : HttpConnectionHandler} (hs : HasWebSocket h)
    (n : Nat) (segments : List Bytes) :
    ∃ h', h.receiveAll server n segments = some h' ∧ HasWebSocket h' ∧
      h'.socket.written = h.socket.written := by
  induction segments generalizing h with
  | nil => exact ⟨h, rfl, hs, rfl⟩
  | cons segment segments ih =>
      obtain ⟨g, hfirst, hg, hgwritten⟩ := hs.receive n segment
      obtain ⟨h', hrest, hs', hwritten⟩ := ih hg
      refine ⟨h', ?_, hs', hwritten.trans hgwritten⟩
      rw [HttpConnectionHandler.receiveAll, List.foldlM_cons, hfirst]
      exact hrest

/-- A request for a WebSocket that the library accepts: the slot `read` always returns, and the
WebSocket has the connection. -/
theorem read_upgraded {server : Server} {h : HttpConnectionHandler} (ht : Tidy server h)
    (hreading : h.Reading) (hline : LF ∈ h.socket.readBuffer) (hasks : h.AsksUpgrade)
    (hacc : (server.upgradeFrom h.socket.readBuffer).accepted = true) (n : Nat) :
    h.read server n = some (h.answerHandshake server).becomeWebSocket ∧
      HasWebSocket (h.answerHandshake server).becomeWebSocket := by
  constructor
  · rw [read_eq, if_neg (not_not_intro hline), if_pos hasks, if_pos hacc]
  · refine ⟨?_, rfl⟩
    have hslots : (h.answerHandshake server).socket.slots .readyRead =
        h.socket.slots .readyRead := by
      unfold TcpSocket.slots
      rw [(h.answerHandshake_outline server).connections]
    show (((h.answerHandshake server).socket.disconnect .readyRead .read).disconnect
      .disconnected .disconnected).slots .readyRead = []
    rw [TcpSocket.slots_disconnect_other Signal.noConfusion, TcpSocket.slots_disconnect_self,
      hslots]
    refine List.filter_eq_nil_iff.mpr fun slot hslot => ?_
    simp [ht.undecided (ht.reading_undefined hreading) slot hslot]

/-- What is no request for a WebSocket, or none that the library accepts, is for HTTP. -/
theorem read_not_upgraded {server : Server} {n : Nat} {h h' : HttpConnectionHandler}
    (ht : Tidy server h) (hreading : h.Reading) (hline : LF ∈ h.socket.readBuffer)
    (hrefused : ¬ (h.AsksUpgrade ∧ (server.upgradeFrom h.socket.readBuffer).accepted = true))
    (hrun : h.read server n = some h') : NoWebSocket h' := by
  have hnone : h.webSocket.isSome = false := by
    rw [ht.webSocket_eq_none (by
      rw [ht.reading_undefined hreading]
      exact HandlerType.noConfusion)]
    rfl
  have hhttp {g : HttpConnectionHandler} (hg : g.webSocket.isSome = false) :
      NoWebSocket g.becomeHttp := by
    refine ⟨?_, hg⟩
    rw [Reading, becomeHttp_connections]
    simp
  rw [read_eq, if_neg (not_not_intro hline)] at hrun
  by_cases hasks : h.AsksUpgrade
  · rw [if_pos hasks, if_neg fun hacc => hrefused ⟨hasks, hacc⟩] at hrun
    have hanswered := (h.answerHandshake_outline server).webSocket
    exact (hhttp (closeSocket_none (hanswered.trans hnone))).readHttp hrun
  · rw [if_neg hasks] at hrun
    exact (hhttp hnone).readHttp hrun

/-! ### The request of a client

The text by which the server recognises the request comes early in it, so a part of the request may
be taken for one, too. -/

/-- The text by which the server knows a request for a WebSocket stands among the first bytes. -/
theorem looksLikeUpgrade_part {c : ClientRequest}
    (hseen : c.resourceName.length + c.host.length ≤ 4055) {b missing : Bytes}
    (hb : b ++ missing = c.text) (hmissing : missing.length ≤ 1) :
    looksLikeUpgrade (b.take 4096) = true := by
  obtain ⟨l, hl⟩ : ∃ l, c.allHeaders = (ascii "Host", c.host) ::
      (ascii "Upgrade", ascii "websocket") :: l := ⟨_, rfl⟩
  have htext : c.text = (c.requestLine ++ CRLF ++ lineOf (ascii "Host", c.host) ++ CRLF ++
      ascii "Upgrade: websocket") ++ (CRLF ++ head (l.map lineOf)) := by
    rw [c.text_eq, hl, List.map_cons, List.map_cons, head_cons, head_cons, head_cons]
    simp only [List.append_assoc]
    rfl
  have hlen : (c.requestLine ++ CRLF ++ lineOf (ascii "Host", c.host) ++ CRLF ++
      ascii "Upgrade: websocket").length =
      c.resourceName.length + c.host.length + 41 := by
    have hparts : (ascii "GET ").length = 4 ∧ (ascii " HTTP/1.1").length = 9 ∧
        (ascii "Host").length = 4 ∧
        (ascii ": ").length = 2 ∧ (ascii "Upgrade: websocket").length = 18 := by decide
    simp only [ClientRequest.requestLine, lineOf, List.length_append, hparts, List.length_cons,
      List.length_nil]
    omega
  have hprefix : c.requestLine ++ CRLF ++ lineOf (ascii "Host", c.host) ++ CRLF ++
      ascii "Upgrade: websocket" <+:
      b.take 4096 := by
    rw [List.prefix_take_iff]
    refine ⟨List.prefix_of_prefix_length_le ⟨_, htext.symm⟩ ⟨_, hb⟩ ?_, by omega⟩
    have htotal := congrArg List.length (hb.trans htext)
    simp only [List.length_append, List.length_cons, List.length_nil] at htotal hlen ⊢
    omega
  rw [looksLikeUpgrade_iff]
  constructor
  · refine List.IsPrefix.trans ?_ hprefix
    simp only [ClientRequest.requestLine, List.append_assoc]
    exact List.prefix_append _ _
  · exact (List.suffix_append _ _).isInfix.trans hprefix.isInfix

/-- The run in which the request of a client arrives: the slot `read` decides at the opening, and
what is missing there comes later. -/
theorem Untouched.receiveAll_text {server : Server} {h : HttpConnectionHandler}
    (hu : Untouched server h) {c : ClientRequest} {segments : List Bytes}
    (hcut : segments.flatten = c.text) (n : Nat) :
    ∃ after : List Bytes, opening [] segments ++ after.flatten = c.text ∧
      LF ∈ (h.withInput (opening [] segments)).socket.readBuffer ∧
      h.receiveAll server n segments =
        ((h.withInput (opening [] segments)).read server n).bind
          fun g => g.receiveAll server n after := by
  have hline : LF ∈ h.socket.readBuffer ++ segments.flatten := by
    rw [hu.empty, List.nil_append, hcut, c.text_eq, head_cons]
    simp
  obtain ⟨after, hafter, hopening, hreceive⟩ := hu.receiveAll (n := n) hline
  rw [hu.empty, List.nil_append, hcut] at hafter
  rw [hu.empty] at hopening hreceive
  exact ⟨after, hafter, hopening, hreceive⟩

/-- A connection on which the whole request has arrived at once. -/
theorem Untouched.withInput {server : Server} {h : HttpConnectionHandler}
    (hu : Untouched server h) (data : Bytes) :
    Tidy server (h.withInput data) ∧ (h.withInput data).Reading :=
  ⟨hu.tidy.same ⟨rfl, rfl, rfl, rfl, rfl, rfl⟩, hu.reading⟩

/-- Nothing of the request is missing, or its last character. -/
theorem missing_iff {opened missing text : Bytes} (h : opened ++ missing = text) :
    (missing = [] ∨ missing = [LF]) ↔ (opened = text ∨ opened ++ [LF] = text) := by
  rw [← h]
  exact or_congr (by simp) (by rw [List.append_cancel_left_eq]; exact eq_comm)

/-- The whole request, or all but its last character: the WebSocket gets the connection, and the
run never gets stuck. -/
theorem Untouched.upgraded {server : Server} {platform : Platform} {h : HttpConnectionHandler}
    (hu : Untouched (server.upgrading platform) h) {c : ClientRequest}
    (hascii : ∀ b ∈ c.text, b < 128) (hseen : c.resourceName.length + c.host.length ≤ 4055)
    {segments : List Bytes} (hcut : segments.flatten = c.text)
    (hwhole : opening [] segments = c.text ∨ opening [] segments ++ [LF] = c.text) (n : Nat) :
    ∃ h', h.receiveAll (server.upgrading platform) n segments = some h' ∧ HasWebSocket h' ∧
      h'.socket.written = ((h.withInput (opening [] segments)).answerHandshake
        (server.upgrading platform)).becomeWebSocket.socket.written := by
  obtain ⟨after, hafter, hopening, hreceive⟩ := hu.receiveAll_text hcut n
  have hmissing := (missing_iff hafter).mpr hwhole
  have hasks : (h.withInput (opening [] segments)).AsksUpgrade :=
    looksLikeUpgrade_part hseen hafter (by rcases hmissing with hnil | hlf <;> simp [*])
  have haccepted : (QtWebApp.upgradeFrom platform serverName (opening [] segments)).1 = true := by
    have hclean : containsText serverName CRLF = false := by decide
    rw [c.upgradeFrom_part platform serverName hascii hafter, if_pos hmissing, hclean]
    rfl
  obtain ⟨htidy, hreading⟩ := hu.withInput (opening [] segments)
  obtain ⟨hread, hsocket⟩ := read_upgraded htidy hreading hopening hasks haccepted n
  rw [hreceive, hread]
  exact hsocket.receiveAll n after

/-- A request of which more is missing when its first line is complete: no WebSocket. -/
theorem Untouched.not_upgraded {server : Server} {platform : Platform} {n : Nat}
    {h h' : HttpConnectionHandler} (hu : Untouched (server.upgrading platform) h)
    {c : ClientRequest} (hascii : ∀ b ∈ c.text, b < 128) {segments : List Bytes}
    (hcut : segments.flatten = c.text)
    (hpart : ¬ (opening [] segments = c.text ∨ opening [] segments ++ [LF] = c.text))
    (hrun : h.receiveAll (server.upgrading platform) n segments = some h') : NoWebSocket h' := by
  obtain ⟨after, hafter, hopening, hreceive⟩ := hu.receiveAll_text hcut n
  have hmissing := mt (missing_iff hafter).mp hpart
  have hrefused :
      ¬ (QtWebApp.upgradeFrom platform serverName (opening [] segments)).1 = true := by
    rw [c.upgradeFrom_part platform serverName hascii hafter, if_neg hmissing]
    exact Bool.false_ne_true
  obtain ⟨g, hread, hrest⟩ := Option.bind_eq_some_iff.mp (hreceive.symm.trans hrun)
  obtain ⟨htidy, hreading⟩ := hu.withInput (opening [] segments)
  exact (read_not_upgraded htidy hreading hopening (fun hc => hrefused hc.2) hread).receiveAll
    hrest

/-- **When a connection is upgraded.** In whatever segments the request of a client arrives on a
connection that nothing has been done with, the connection ends up as a WebSocket if and only if
all of the request has arrived with the end of its first line, or all but the last character. The
name of the resource and the host are short enough for the server to see the request for a
WebSocket behind them, as it looks at the first 4096 bytes. -/
theorem upgraded_iff {server : Server} {platform : Platform} {h : HttpConnectionHandler}
    (hu : Untouched (server.upgrading platform) h) {c : ClientRequest}
    (hascii : ∀ b ∈ c.text, b < 128) (hseen : c.resourceName.length + c.host.length ≤ 4055)
    {segments : List Bytes} (hcut : segments.flatten = c.text) (n : Nat) :
    (∃ h', h.receiveAll (server.upgrading platform) n segments = some h' ∧
      h'.webSocket.isSome = true) ↔
      opening [] segments = c.text ∨ opening [] segments ++ [LF] = c.text := by
  constructor
  · rintro ⟨h', hrun, hsome⟩
    by_contra hpart
    have hnone := (hu.not_upgraded hascii hcut hpart hrun).2
    exact absurd (hsome.symm.trans hnone) (by decide)
  · intro hwhole
    obtain ⟨h', hrun, hsocket, -⟩ := hu.upgraded hascii hseen hcut hwhole n
    exact ⟨h', hrun, hsocket.2⟩

theorem upgraded_iff_chat :
    (∃ h', (new.opened ((plainServer defaultSettings).upgrading latin1Platform)).receiveAll
        ((plainServer defaultSettings).upgrading latin1Platform) 0
        [chatRequest.text.take 5, chatRequest.text.drop 5] = some h' ∧
      h'.webSocket.isSome = true) ↔
      opening [] [chatRequest.text.take 5, chatRequest.text.drop 5] = chatRequest.text ∨
        opening [] [chatRequest.text.take 5, chatRequest.text.drop 5] ++ [LF] =
          chatRequest.text :=
  upgraded_iff
    ((ordered_new ((plainServer defaultSettings).upgrading latin1Platform)).untouched free_new)
    chatRequest_ascii (by decide) (by simp) 0

/-- What the socket takes as a whole has been written. -/
theorem write_whole {network : Network} {s : TcpSocket} {data : Bytes}
    (h : (s.write network data).1 = some data.length) (input : Bytes) :
    (({ s with readBuffer := input } : TcpSocket).write network data).2.written =
      s.written ++ data := by
  rw [TcpSocket.write] at h ⊢
  cases htaken : network.accept s.writes with
  | none =>
      rw [htaken] at h
      exact absurd h.symm (Option.some_ne_none _)
  | some more =>
      rw [htaken] at h
      have hlen := Option.some.inj h
      rw [List.length_take] at hlen
      exact congrArg (s.written ++ ·) (List.take_of_length_le (by omega))

/-- **A request that arrives at once opens a WebSocket on both sides.** When the socket takes all of
the response, the run ends with a WebSocket at the server, and what the server has written connects
the client, in whatever pieces it arrives there. -/
theorem request_connects {server : Server} {platform : Platform} {h : HttpConnectionHandler}
    (hu : Untouched (server.upgrading platform) h) {c : ClientRequest}
    (hascii : ∀ b ∈ c.text, b < 128) (hseen : c.resourceName.length + c.host.length ≤ 4055)
    (horigin : ClientRequest.PlainText c.origin) {segments : List Bytes}
    (hcut : segments.flatten = c.text) (hwhole : opening [] segments = c.text)
    (hwrite : (h.socket.write server.network
        (QtWebApp.upgradeFrom platform serverName c.text).2.1).1 =
      some (QtWebApp.upgradeFrom platform serverName c.text).2.1.length) (n : Nat) :
    ∃ h', h.receiveAll (server.upgrading platform) n segments = some h' ∧
      h'.webSocket.isSome = true ∧
      ∃ output, h'.socket.written = h.socket.written ++ output ∧
        ∀ pieces : List Bytes, pieces.flatten = output →
          (pieces.foldl Opening.arrive (Opening.requested c.key)).connected = true ∧
            (pieces.foldl Opening.arrive (Opening.requested c.key)).signals = [.connected] := by
  obtain ⟨h', hrun, hsocket, hwritten⟩ := hu.upgraded hascii hseen hcut (.inl hwhole) n
  rw [hwhole] at hwritten
  refine ⟨h', hrun, hsocket.2, (QtWebApp.upgradeFrom platform serverName c.text).2.1, ?_, ?_⟩
  · exact hwritten.trans (write_whole hwrite _)
  · intro pieces hpieces
    have hname : ClientRequest.PlainText serverName := by decide
    rw [ClientRequest.response_eq platform hascii (.inl hname) horigin,
      ← List.append_nil (head _)] at hpieces
    have harrive := ClientRequest.arrive_own_answer (.inl hname) horigin hpieces
    exact ⟨harrive.1, harrive.2.1⟩

/-- A server with a network that takes everything. -/
def fastServer : Server :=
  { plainServer defaultSettings with network := ⟨fun _ => some 65535, fun _ => true⟩ }

theorem request_connects_chat :
    ∃ h', (new.opened (fastServer.upgrading latin1Platform)).receiveAll
        (fastServer.upgrading latin1Platform) 0 [chatRequest.text] = some h' ∧
      h'.webSocket.isSome = true ∧
      ∃ output, h'.socket.written =
          (new.opened (fastServer.upgrading latin1Platform)).socket.written ++ output ∧
        ∀ pieces : List Bytes, pieces.flatten = output →
          (pieces.foldl Opening.arrive (Opening.requested chatRequest.key)).connected = true ∧
            (pieces.foldl Opening.arrive (Opening.requested chatRequest.key)).signals =
              [.connected] :=
  request_connects
    ((ordered_new (fastServer.upgrading latin1Platform)).untouched free_new) chatRequest_ascii
    (by decide) (by decide +kernel) List.flatten_singleton (by decide +kernel)
    (by decide +kernel) 0

end HttpConnectionHandler

end QtWebApp
