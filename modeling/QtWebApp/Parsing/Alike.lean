import QtWebApp.Connection.Closing
import QtWebApp.Parsing.Calls
import QtWebApp.Parsing.Collect
import QtWebApp.Responding.Output

/-!
# QtWebApp.Parsing.Alike

A connection byte by byte.

`feed` is the connection handler that gets one byte at a time, counts every byte once, and
so cannot depend on the segments in which its bytes arrive. A handler that serves an HTTP
connection is `Alike` such a machine when they agree on everything but the bytes that were
counted twice, the bytes still unread and the timer; answering or rejecting a request keeps
it so (`Alike.dispatch`).

The machine is not a model of anything in the source; it is the reference that two runs over
different segments are both compared with. It shares with the handler everything from the request
onwards, so only the way of the bytes to the parser has to be compared.
-/

namespace QtWebApp

open Bytes

namespace HttpConnectionHandler

open HttpRequest

/-! ### The machine

After each byte the machine does what `readHttp` does after its inner loop. A request that is
overdue ends in front of the next byte. -/

/-- The handler goes on with the request in another state, which may be the last one. -/
def proceed (server : Server) (h : HttpConnectionHandler) (r : HttpRequest) :
    HttpConnectionHandler :=
  turned ({ h with currentRequest := some r }.dispatch server)

/-- A request that waits for a body of negative length ends. -/
def settleRequest (server : Server) (h : HttpConnectionHandler) : HttpConnectionHandler :=
  match h.currentRequest with
  | some r => if r.Overdue then h.proceed server r.settle else h
  | none => h

/-- The request that gets the next byte. -/
def request (server : Server) (h : HttpConnectionHandler) : HttpRequest :=
  h.currentRequest.getD (.new server.settings)

/-- One byte arrives. On a connection that is over it is lost. -/
def feed (server : Server) (h : HttpConnectionHandler) (c : UInt8) : HttpConnectionHandler :=
  if h.socket.state = .unconnected then h
  else
    let h := h.settleRequest server
    if h.socket.state = .unconnected then h
    else h.proceed server ((h.request server).feed c)

/-- The second handler, which has nothing unread, is in the state of the first one with every
byte counted once. -/
structure Alike (h g : HttpConnectionHandler) : Prop where
  type : g.type = h.type
  webSocket : g.webSocket = h.webSocket
  busy : g.busy = h.busy
  log : g.log = h.log
  request : g.currentRequest = h.currentRequest.map HttpRequest.exact
  socket : g.socket = h.socket.setInput []

theorem Alike.refl {h : HttpConnectionHandler} (hr : h.currentRequest = none)
    (hb : h.socket.readBuffer = []) : Alike h h :=
  ⟨rfl, rfl, rfl, rfl, by rw [hr]; rfl, by rw [TcpSocket.setInput, ← hb]⟩

/-- A handler that has collected data is still the same but for its request. -/
theorem Alike.collected {h h₁ g : HttpConnectionHandler} {r : HttpRequest} {b : Bytes}
    (ha : Alike h g) (hc : Collected h h₁ r b) :
    Alike h₁ { g with currentRequest := some r.exact } where
  type := ha.type.trans hc.type.symm
  webSocket := ha.webSocket.trans hc.webSocket.symm
  busy := ha.busy.trans hc.busy.symm
  log := ha.log.trans hc.log.symm
  request := by rw [hc.request]; rfl
  socket := by rw [hc.socket, ha.socket]; rfl

/-! ### Handlers in the middle of a connection

A handler that is not in use any more, or that serves a WebSocket, does something else with bytes.
Here it serves HTTP; its connection may have ended on the way. -/

/-- A handler that serves an HTTP connection, or has ended one. -/
structure Serving (h : HttpConnectionHandler) : Prop where
  webSocket : h.webSocket = none
  connected : h.socket.state ≠ .unconnected → h.type = .http ∧ h.Watched ∧
    h.socket.slots .readyRead = [.readHttp]
  ended : h.socket.state = .unconnected → h.socket.readBuffer = []

/-- What `Serving` depends on. -/
theorem Serving.congr {h g : HttpConnectionHandler} (hs : h.Serving)
    (hw : g.webSocket = h.webSocket) (ht : g.type = h.type)
    (hstate : g.socket.state = h.socket.state) (hc : g.socket.connections = h.socket.connections)
    (hover : g.socket.state = .unconnected → g.socket.readBuffer = []) : g.Serving where
  webSocket := hw.trans hs.webSocket
  connected := by
    intro hopen
    rw [hstate] at hopen
    obtain ⟨htype, hwatched, hslots⟩ := hs.connected hopen
    refine ⟨ht.trans htype, ?_, ?_⟩
    · rwa [Watched, hc]
    · rwa [TcpSocket.slots, hc]
  ended := hover

/-- Output does not concern `Serving`. -/
theorem Serving.output {h g : HttpConnectionHandler} (hs : h.Serving)
    (hw : g.webSocket = h.webSocket) (ht : g.type = h.type)
    (ho : TcpSocket.OutputOnly h.socket g.socket) : g.Serving :=
  hs.congr hw ht ho.state ho.connections fun hover => by
    rw [ho.readBuffer]
    exact hs.ended (ho.state ▸ hover)

theorem Serving.alike {h g : HttpConnectionHandler} (hs : h.Serving) (ha : Alike h g) : g.Serving :=
  hs.congr ha.webSocket ha.type (by rw [ha.socket]; rfl) (by rw [ha.socket]; rfl) fun _ => by
    rw [ha.socket]
    rfl

/-- What `disconnectFromHost` does while a connection is served. -/
theorem Serving.disconnectFromHost_eq {h : HttpConnectionHandler} (hs : h.Serving) :
    h.disconnectFromHost =
      if h.socket.state = .unconnected then h
      else if h.socket.unsent then h.onSocket fun s => { s with state := .closing }
      else
        { h with
            readTimer := false
            socket := ({ h.socket with state := .unconnected }.closeDevice).disconnectAll
            type := .undefined
            busy := false } := by
  split
  · next hover => exact if_pos hover
  · next hopen =>
      obtain ⟨ht, hw, -⟩ := hs.connected hopen
      exact disconnectFromHost_http hopen hs.webSocket
        (by rw [ht]; exact HandlerType.noConfusion) hw

theorem Serving.disconnectFromHost {h : HttpConnectionHandler} (hs : h.Serving) :
    h.disconnectFromHost.Serving := by
  rw [hs.disconnectFromHost_eq]
  split
  · exact hs
  · next hopen =>
      split
      · obtain ⟨ht, hw, hslots⟩ := hs.connected hopen
        exact ⟨hs.webSocket, fun _ => ⟨ht, hw, hslots⟩, fun hover => by cases hover⟩
      · exact ⟨hs.webSocket, fun hne => absurd rfl hne, fun _ => rfl⟩

theorem Alike.disconnectFromHost {h g : HttpConnectionHandler} (hs : h.Serving) (ha : Alike h g) :
    Alike h.disconnectFromHost g.disconnectFromHost := by
  have hstate : g.socket.state = h.socket.state := by rw [ha.socket]; rfl
  have hunsent : g.socket.unsent = h.socket.unsent := by rw [ha.socket]; rfl
  rw [hs.disconnectFromHost_eq, (hs.alike ha).disconnectFromHost_eq, hstate, hunsent]
  split
  · exact ha
  · split
    · exact ⟨ha.type, ha.webSocket, ha.busy, ha.log, ha.request, by rw [onSocket, ha.socket]; rfl⟩
    · exact ⟨rfl, ha.webSocket, rfl, ha.log, ha.request, by rw [ha.socket]; rfl⟩

/-! ### A turn of `readHttp`

Rejecting, answering and closing happen to both handlers alike, since none of it looks at what is
unread or at how often bytes were counted. -/

theorem Serving.reject {h : HttpConnectionHandler} (server : Server) (hs : h.Serving) :
    (h.reject server).Serving := by
  have hout : (h.onSocket fun s =>
      ((s.write server.network rejection).2).flush server.network).Serving :=
    hs.output rfl rfl (rejection_outputOnly server h.socket)
  have hclosed := hout.disconnectFromHost
  exact ⟨hclosed.webSocket, hclosed.connected, hclosed.ended⟩

theorem Alike.reject {h g : HttpConnectionHandler} (server : Server) (hs : h.Serving)
    (ha : Alike h g) : Alike (h.reject server) (g.reject server) := by
  have hout : (h.onSocket fun s =>
      ((s.write server.network rejection).2).flush server.network).Serving :=
    hs.output rfl rfl (rejection_outputOnly server h.socket)
  have hsent : Alike
      (h.onSocket fun s => ((s.write server.network rejection).2).flush server.network)
      (g.onSocket fun s => ((s.write server.network rejection).2).flush server.network) :=
    ⟨ha.type, ha.webSocket, ha.busy, ha.log, ha.request, by
      rw [onSocket, onSocket, ha.socket, (TcpSocket.inert_setInput []).write_flush]⟩
  have hclosed := hsent.disconnectFromHost hout
  refine ⟨hclosed.type, hclosed.webSocket, hclosed.busy, ?_, rfl, hclosed.socket⟩
  show g.log ++ _ = h.log ++ _
  rw [ha.log]

/-- The answer to a request depends neither on how its bytes were counted nor on the input. -/
theorem respond_alike {h g : HttpConnectionHandler} (server : Server) (ha : Alike h g)
    (r : HttpRequest) :
    g.respond server r.exact = (h.respond server r).onSocket (TcpSocket.setInput []) := by
  have hserved : g.served = h.served := by rw [served, ha.log]; rfl
  have hsame : g.respond server r.exact =
      (h.onSocket (TcpSocket.setInput [])).respond server r := by
    unfold respond newResponse
    rw [hserved, ha.socket]
    rfl
  rw [hsame, respond_inert (TcpSocket.inert_setInput [])]

theorem Serving.answered {h : HttpConnectionHandler} (server : Server) (hs : h.Serving)
    (r : HttpRequest) : (h.answered server r).Serving :=
  hs.output rfl rfl (respond_outputOnly server h r)

theorem Serving.serve {h : HttpConnectionHandler} (server : Server) (hs : h.Serving)
    (r : HttpRequest) : (h.serve server r).Serving := by
  have hanswered := hs.answered server r
  rw [serve_eq]
  split
  · have hflushed : ((h.answered server r).onSocket (TcpSocket.flush server.network)).Serving :=
      hanswered.output rfl rfl (TcpSocket.flush_outputOnly (.refl _))
    have hclosed := hflushed.disconnectFromHost
    exact ⟨hclosed.webSocket, hclosed.connected, hclosed.ended⟩
  · exact ⟨hanswered.webSocket, hanswered.connected, hanswered.ended⟩

theorem Alike.serve {h g : HttpConnectionHandler} (server : Server) (hs : h.Serving)
    (ha : Alike h g) (r : HttpRequest) : Alike (h.serve server r) (g.serve server r.exact) := by
  have hrespond := respond_alike server ha r
  have hanswered : Alike (h.answered server r) (g.answered server r.exact) := by
    refine ⟨ha.type, ha.webSocket, ha.busy, ?_, ha.request, ?_⟩
    · show g.log ++ [Entry.service r.exact.view] = h.log ++ [Entry.service r.view]
      rw [ha.log]
      rfl
    · show (g.respond server r.exact).socket = _
      rw [hrespond]
      rfl
  have hclose : closeConnection r.exact (g.respond server r.exact) =
      closeConnection r (h.respond server r) := by
    rw [hrespond]
    rfl
  rw [serve_eq, serve_eq, hclose]
  split
  · have hflushed : ((h.answered server r).onSocket (TcpSocket.flush server.network)).Serving :=
      (hs.answered server r).output rfl rfl (TcpSocket.flush_outputOnly (.refl _))
    have halike : Alike ((h.answered server r).onSocket (TcpSocket.flush server.network))
        ((g.answered server r.exact).onSocket (TcpSocket.flush server.network)) :=
      ⟨hanswered.type, hanswered.webSocket, hanswered.busy, hanswered.log, hanswered.request, by
        rw [onSocket, onSocket, hanswered.socket]
        rfl⟩
    have hclosed := halike.disconnectFromHost hflushed
    exact ⟨hclosed.type, hclosed.webSocket, hclosed.busy, hclosed.log, rfl, hclosed.socket⟩
  · exact ⟨hanswered.type, hanswered.webSocket, hanswered.busy, hanswered.log, rfl,
      hanswered.socket⟩

/-- **The end of a turn** is the same for both handlers. -/
theorem Alike.dispatch {h g : HttpConnectionHandler} (server : Server) (hs : h.Serving)
    (ha : Alike h g) : Alike (turned (h.dispatch server)) (turned (g.dispatch server)) := by
  unfold HttpConnectionHandler.dispatch
  rw [ha.request]
  cases h.currentRequest with
  | none => exact ha
  | some r =>
      have hstatus : r.exact.status = r.status := rfl
      dsimp only [Option.map_some]
      rw [hstatus]
      cases r.status with
      | abort => exact ha.reject server hs
      | complete => exact ha.serve server hs r
      | waitForRequest => exact ha
      | waitForHeader => exact ha
      | waitForBody => exact ha

theorem Serving.dispatch {h : HttpConnectionHandler} (server : Server) (hs : h.Serving) :
    (turned (h.dispatch server)).Serving := by
  unfold HttpConnectionHandler.dispatch
  cases h.currentRequest with
  | none => exact hs
  | some r =>
      dsimp only
      cases r.status with
      | abort => exact hs.reject server
      | complete => exact hs.serve server r
      | waitForRequest => exact hs
      | waitForHeader => exact hs
      | waitForBody => exact hs

end HttpConnectionHandler

end QtWebApp
