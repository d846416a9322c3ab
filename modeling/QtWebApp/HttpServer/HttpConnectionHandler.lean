import QtWebApp.Base.Loop
import QtWebApp.HttpServer.HttpRequest
import QtWebApp.HttpServer.HttpResponse

/-!
# QtWebApp.HttpServer.HttpConnectionHandler

The handler of one connection: the slots that its socket's signals and its read timer
run, and `readHttp`, the loop that parses requests and has them answered.

A handler serves one connection after the other. What lies outside of it, the request
handler of the application, the network and the WebSocket library, is the `Server` it runs
in. The application may answer each request as it likes, depending on the requests it has
seen on the connection before, which the handler's `log` remembers; the log is not in the
source.

Signals are emitted synchronously: closing a socket without unsent output runs the slots
connected to `disconnected()` before `close()` returns.
-/

namespace QtWebApp

open Bytes

/-- What `QWebSocket::upgradeFrom` does with the bytes in the read buffer: whether it returns a
WebSocket, what it writes to the socket, and what it leaves in the buffer. -/
structure Handshake where
  accepted : Bool
  response : Bytes
  rest : Bytes

/-- The world around a connection handler. -/
structure Server where
  settings : Settings
  /-- TLS is configured. -/
  ssl : Bool
  network : Network
  /-- The calls `HttpRequestHandler::service` makes on the response, given the earlier requests of
  the connection and the request. -/
  service : List RequestView → RequestView → List ResponseCall
  upgradeFrom : Bytes → Handshake

/-- `HttpConnectionHandler::HandlerType_t`. -/
inductive HandlerType
  | undefined | http | webSocket
  deriving DecidableEq, Repr

/-- The `QWebSocket` of an upgraded connection. -/
structure WebSocket where
  closingHandshakeSent : Bool
  deriving DecidableEq, Repr

/-- What becomes of a request: it is handed to `service`, or it is aborted. -/
inductive Entry
  | service (request : RequestView)
  | reject

/-- `HttpConnectionHandler`. -/
structure HttpConnectionHandler where
  type : HandlerType
  socket : TcpSocket
  webSocket : Option WebSocket
  /-- The read timer is active. -/
  readTimer : Bool
  currentRequest : Option HttpRequest
  busy : Bool
  log : List Entry

namespace HttpConnectionHandler

/-- The constructor. -/
def new : HttpConnectionHandler where
  type := .undefined
  socket := .new
  webSocket := none
  readTimer := false
  currentRequest := none
  busy := false
  log := []

/-- `isBusy`. -/
def isBusy (h : HttpConnectionHandler) : Bool := h.busy

/-- `setBusy`. -/
def setBusy (h : HttpConnectionHandler) : HttpConnectionHandler := { h with busy := true }

/-- The requests that were handed to `service`. -/
def served (h : HttpConnectionHandler) : List RequestView :=
  h.log.filterMap fun
    | .service r => some r
    | _ => none

/-- Apply a socket operation. -/
def onSocket (h : HttpConnectionHandler) (f : TcpSocket → TcpSocket) : HttpConnectionHandler :=
  { h with socket := f h.socket }

/-! ### The end of a connection

A socket that is closed with unsent output is closing, and it tells its end when the output is gone.
Without unsent output the end is told inside `close`. -/

/-- The slot `disconnected`. -/
def disconnected (h : HttpConnectionHandler) : HttpConnectionHandler :=
  let h := { h with readTimer := false }
  -- the socket of a WebSocket stays connected to its slots
  let h := if h.type = .webSocket then { h with webSocket := none }
    else h.onSocket fun s => s.closeDevice.disconnectAll
  { h with type := .undefined, busy := false }

/-- The socket has become unconnected: a WebSocket relays this to the handler first, then the
slots connected to the socket's own signal run, except those disconnected meanwhile. -/
def emitDisconnected (h : HttpConnectionHandler) : HttpConnectionHandler :=
  let h := if h.webSocket.isSome then h.disconnected else h
  (h.socket.slots .disconnected).foldl
    (fun h slot => if (.disconnected, slot) ∈ h.socket.connections then h.disconnected else h) h

/-- The connection is over: the socket changes its state and tells so. -/
def becomeUnconnected (h : HttpConnectionHandler) : HttpConnectionHandler :=
  (h.onSocket fun s => { s with state := .unconnected }).emitDisconnected

/-- `QAbstractSocket::disconnectFromHost`: with unsent output the socket only starts closing. -/
def disconnectFromHost (h : HttpConnectionHandler) : HttpConnectionHandler :=
  if h.socket.state = .unconnected then h
  else if h.socket.unsent then h.onSocket fun s => { s with state := .closing }
  else h.becomeUnconnected

/-- `QAbstractSocket::close`. -/
def closeSocket (h : HttpConnectionHandler) : HttpConnectionHandler :=
  (h.onSocket TcpSocket.closeDevice).disconnectFromHost

/-- `QAbstractSocket::abort`: unsent output is discarded. -/
def abortSocket (h : HttpConnectionHandler) : HttpConnectionHandler :=
  (h.onSocket fun s => { s with unsent := false }).closeSocket

/-! ### Requests

`readHttp` is two loops. The inner one feeds the request object as long as there are bytes, the
outer one answers the requests that became complete. -/

/-- Create a request object if there is none. -/
def ensureRequest (server : Server) (h : HttpConnectionHandler) : HttpConnectionHandler :=
  match h.currentRequest with
  | some _ => h
  | none => { h with currentRequest := some (.new server.settings) }

/-- One call of `readFromSocket`, and the timer that is restarted during a body. -/
def readOnce (h : HttpConnectionHandler) (request : HttpRequest) : HttpConnectionHandler :=
  let (r, rest) := request.readFromSocket h.socket.readBuffer
  let h := { h.onSocket (fun s => { s with readBuffer := rest }) with currentRequest := some r }
  if r.status = .waitForBody then { h with readTimer := true } else h

/-- The inner loop of `readHttp`: collect data for the request object. -/
def collectBody (h : HttpConnectionHandler) : Option (Turn HttpConnectionHandler) :=
  match h.currentRequest with
  | none => none
  | some request =>
      -- the source asks for bytes and for an unfinished request before every call
      if h.socket.readBuffer ≠ [] ∧ request.status ≠ .complete ∧ request.status ≠ .abort then
        some (.again (h.readOnce request))
      else some (.leave h)

/-- The answer to an aborted request. -/
def rejection : Bytes :=
  ascii "HTTP/1.1 413 entity too large\r\nConnection: close\r\n\r\n413 Entity too large\r\n"

/-- The request was aborted: send an error and close the connection. -/
def reject (server : Server) (h : HttpConnectionHandler) : HttpConnectionHandler :=
  let h := h.onSocket fun s => ((s.write server.network rejection).2).flush server.network
  -- what the rejected request left in the buffer is neither read nor thrown away
  { h.disconnectFromHost with currentRequest := none, log := h.log ++ [Entry.reject] }

/-- The request says that the connection shall be closed after the response. -/
def closeRequested (request : HttpRequest) : Bool :=
  equalsFolded (request.getHeader (ascii "Connection")) (ascii "close")

/-- The protocol is HTTP 1.0. -/
def isHttp10 (request : HttpRequest) : Bool := equalsFolded request.version (ascii "http/1.0")

/-- The response object, with the `Connection: close` header when the connection will be
closed anyway. -/
def newResponse (h : HttpConnectionHandler) (request : HttpRequest) : HttpResponse :=
  let response := HttpResponse.new h.socket
  if closeRequested request || isHttp10 request then
    response.setHeader (ascii "Connection") (ascii "close")
  else response

/-- The response after the request handler has run and its end has been sent. -/
def respond (server : Server) (h : HttpConnectionHandler) (request : HttpRequest) : HttpResponse :=
  let response := (server.service h.served request.view).foldl (HttpResponse.call server.network)
    (h.newResponse request)
  -- an application that has not ended its response gets it ended here
  if response.sentLastPart then response else response.write server.network [] true

/-- The response requires the connection to be closed: it says so, or its end is not marked. -/
def closeResponse (response : HttpResponse) : Bool :=
  if equalsFolded (response.header (ascii "Connection")) (ascii "close") then true
  -- the header is looked up as it was written, `content-length` does not count
  else if response.headers.contains (ascii "Content-Length") then false
  else !equalsFolded (response.header (ascii "Transfer-Encoding")) (ascii "chunked")

/-- The connection will be closed after this response. -/
def closeConnection (request : HttpRequest) (response : HttpResponse) : Bool :=
  closeRequested request || isHttp10 request || closeResponse response

/-- The request is complete: have it answered, and close the connection or wait for the
next request. -/
def serve (server : Server) (h : HttpConnectionHandler) (request : HttpRequest) :
    HttpConnectionHandler :=
  let response := h.respond server request
  let h := { h with
    readTimer := false
    socket := response.socket
    log := h.log ++ [Entry.service request.view] }
  -- closing does not leave the loop: what waits behind the request is read next
  let h := if closeConnection request response then
      (h.onSocket (TcpSocket.flush server.network)).disconnectFromHost
    else { h with readTimer := true }
  { h with currentRequest := none }

/-- The part of `readHttp` after the inner loop. -/
def dispatch (server : Server) (h : HttpConnectionHandler) : Turn HttpConnectionHandler :=
  match h.currentRequest with
  | none => .again h
  | some request =>
      match request.status with
      -- only an aborted request returns from the slot
      | .abort => .leave (h.reject server)
      | .complete => .again (h.serve server request)
      | _ => .again h

/-- The outer loop of `readHttp`, which supports pipelining. -/
def httpBody (server : Server) (fuel : Nat) (h : HttpConnectionHandler) :
    Option (Turn HttpConnectionHandler) :=
  if h.socket.readBuffer = [] then some (.leave h)
  else (loop collectBody fuel (h.ensureRequest server)).map (dispatch server)

/-- The slot `readHttp`. -/
def readHttp (server : Server) (fuel : Nat) (h : HttpConnectionHandler) :
    Option HttpConnectionHandler :=
  loop (httpBody server fuel) fuel h

/-! ### The first data of a connection

A new connection is neither HTTP nor WebSocket until its first line is there. The slot `read`
decides, and connects the one that goes on. -/

/-- The text looks like a WebSocket handshake. -/
def looksLikeUpgrade (line : Bytes) : Bool :=
  line.startsWith (ascii "GET ") && line.containsText (ascii "Upgrade: websocket")

/-- `websocketHandshake`: true when the connection now belongs to a WebSocket. -/
def websocketHandshake (server : Server) (h : HttpConnectionHandler) :
    Bool × HttpConnectionHandler :=
  if looksLikeUpgrade (h.socket.readBuffer.take 4096) then
    let handshake := server.upgradeFrom h.socket.readBuffer
    let h := h.onSocket fun s =>
      ({ s with readBuffer := handshake.rest }.write server.network handshake.response).2
    if handshake.accepted then
      -- the timer is started once more, now for the WebSocket
      (true, { h.onSocket (fun s => (s.disconnect .readyRead .read).disconnect
          .disconnected .disconnected) with
        webSocket := some ⟨false⟩
        readTimer := true })
    -- the caller goes on with the closed socket as with an HTTP connection
    else (false, h.closeSocket)
  else (false, h)

/-- The slot `read`: decide between WebSocket and HTTP. -/
def read (server : Server) (fuel : Nat) (h : HttpConnectionHandler) :
    Option HttpConnectionHandler :=
  -- `canReadLine`: nothing is decided before the first line is complete
  if LF ∉ h.socket.readBuffer then some h
  else
    let (upgraded, h) := h.websocketHandshake server
    if upgraded then some { h with type := .webSocket }
    else
      { h.onSocket (fun s => (s.disconnect .readyRead .read).connect .readyRead .readHttp) with
        type := .http }.readHttp server fuel

/-- The slots that `readyRead()` can be connected to. -/
def runSlot (server : Server) (fuel : Nat) (h : HttpConnectionHandler) :
    Slot → Option HttpConnectionHandler
  | .read => h.read server fuel
  | .readHttp => h.readHttp server fuel
  | _ => some h

/-- The signal `readyRead()`: the slots connected when it is emitted run one after the other,
except those disconnected meanwhile. -/
def emitReadyRead (server : Server) (fuel : Nat) (h : HttpConnectionHandler) :
    Option HttpConnectionHandler :=
  (h.socket.slots .readyRead).foldlM
    (fun h slot => if (.readyRead, slot) ∈ h.socket.connections then h.runSlot server fuel slot
      else some h) h

/-! ### The other slots

What else the handler does: the start of a connection, the end of the TLS handshake, and the read
timer. -/

/-- The slot `handleConnection`; `good` tells whether the socket takes the descriptor. -/
def handleConnection (server : Server) (good : Bool) (h : HttpConnectionHandler) :
    HttpConnectionHandler :=
  let h := { h with busy := true }
  -- the socket may be connected still, the slots of an earlier connection included
  let h := h.abortSocket
  let h := h.onSocket fun s =>
    if server.ssl then
      ((s.connect .sslErrors .sslErrors).connect .encrypted .encrypted).connect
        .preSharedKeyAuthenticationRequired .preSharedKeyAuthenticationRequired
    else (s.connect .readyRead .read).connect .disconnected .disconnected
  -- with a bad descriptor the source returns here, and the handler stays busy
  if good then
    { h.onSocket TcpSocket.setSocketDescriptor with
      readTimer := true
      currentRequest := none
      log := [] }
  else h

/-- The slot `encrypted`. -/
def encrypted (h : HttpConnectionHandler) : HttpConnectionHandler :=
  h.onSocket fun s => (s.connect .readyRead .read).connect .disconnected .disconnected

/-- The signal `encrypted()` of the socket: the TLS handshake is complete. -/
def emitEncrypted (h : HttpConnectionHandler) : HttpConnectionHandler :=
  (h.socket.slots .encrypted).foldl (fun h _ => h.encrypted)
    (h.onSocket fun s => { s with encrypted := true })

/-- The close frame of a WebSocket with the normal close code, 1000. -/
def closeFrame : Bytes := [0x88, 0x02, 0x03, 0xE8]

/-- `QWebSocket::close`. -/
def closeWebSocket (server : Server) (h : HttpConnectionHandler) (webSocket : WebSocket) :
    HttpConnectionHandler :=
  -- the close frame is sent at most once
  let h := if webSocket.closingHandshakeSent then h
    else { h.onSocket (fun s => ((s.write server.network closeFrame).2).flush server.network) with
      webSocket := some ⟨true⟩ }
  h.closeSocket

/-- The slot `readTimeout`. -/
def readTimeout (server : Server) (h : HttpConnectionHandler) : HttpConnectionHandler :=
  let h := { h with readTimer := false }
  let h := match h.type, h.webSocket with
    | .webSocket, some webSocket => h.closeWebSocket server webSocket
    -- the WebSocket was closed before; the source would use a null pointer
    | .webSocket, none => h
    | _, _ => (h.onSocket (TcpSocket.flush server.network)).disconnectFromHost
  { h with currentRequest := none }

end HttpConnectionHandler

end QtWebApp
