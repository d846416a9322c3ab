import QtWebApp.WebSockets.QWebSocket

/-!
# QtWebApp.HttpServer.HttpRequestHandler

What the server does with the messages of a WebSocket.

The slots of `HttpConnectionHandler` pass on what they get to the `HttpRequestHandler` of the
application, which may answer as it likes, depending on what it has got on this connection before.
They also restart the read timer, whose slot closes the WebSocket.
-/

namespace QtWebApp

/-- The functions of `HttpRequestHandler` for a WebSocket: what they call on it, given the signals
that have been passed on before. -/
structure HttpRequestHandler where
  websocketTextMessage : List WebSocketSignal → QString → List Call
  websocketbinaryFrameReceived : List WebSocketSignal → Bytes → Bool → List Call

/-- The functions as they are before an application overrides them: an echo. -/
def HttpRequestHandler.default : HttpRequestHandler where
  websocketTextMessage _ data := [.sendTextMessage data]
  websocketbinaryFrameReceived _ data _ := [.sendBinaryMessage data]

namespace HttpConnectionHandler

/-- The signals of the WebSocket that slots are connected to. -/
def isConnected : WebSocketSignal → Bool
  | .textMessageReceived _ | .binaryFrameReceived _ _ => true
  | _ => false

/-- The slot `websocketTextMessage`. -/
def websocketTextMessage (requestHandler : HttpRequestHandler) (before : List WebSocketSignal)
    (data : QString) : List Call :=
  if data = QString.ofAscii "ping" then [.sendTextMessage (QString.ofAscii "pong")]
  else requestHandler.websocketTextMessage before data

/-- The slot `websocketbinaryFrameReceived`. -/
def websocketbinaryFrameReceived (requestHandler : HttpRequestHandler)
    (before : List WebSocketSignal) (data : Bytes) (final : Bool) : List Call :=
  requestHandler.websocketbinaryFrameReceived before data final

/-- The slot that a signal runs. -/
def runWebSocketSlot (requestHandler : HttpRequestHandler) (before : List WebSocketSignal) :
    WebSocketSignal → List Call
  | .textMessageReceived data => websocketTextMessage requestHandler before data
  | .binaryFrameReceived data final => websocketbinaryFrameReceived requestHandler before data final
  | _ => []

/-- The server as the application of its WebSocket. -/
def webSocketApplication (requestHandler : HttpRequestHandler) (nextMask : Nat → UInt32) :
    Application where
  nextMask := nextMask
  react before signal := runWebSocketSlot requestHandler (before.filter isConnected) signal

/-- The slot `readTimeout`, for a WebSocket. -/
def closeOnTimeout : Call := .close QWebSocketProtocol.closeCodeNormal []

/-- What the slots call for some signals, one after the other. -/
def slotCalls (requestHandler : HttpRequestHandler) (before : List WebSocketSignal) :
    List WebSocketSignal → List Call
  | [] => []
  | signal :: signals =>
      runWebSocketSlot requestHandler before signal ++ slotCalls requestHandler
        (before ++ [signal]) signals

theorem slotCalls_append (requestHandler : HttpRequestHandler)
    (before l l' : List WebSocketSignal) :
    slotCalls requestHandler before (l ++ l') =
      slotCalls requestHandler before l ++ slotCalls requestHandler (before ++ l) l' := by
  induction l generalizing before with
  | nil => rw [List.append_nil]; rfl
  | cons signal l ih =>
      rw [List.cons_append, slotCalls, slotCalls, ih, ← List.append_assoc, List.append_assoc before,
        List.singleton_append]

theorem slotCalls_prefix (requestHandler : HttpRequestHandler) {l l' : List WebSocketSignal}
    (h : l <+: l') :
    slotCalls requestHandler [] l <+: slotCalls requestHandler [] l' := by
  obtain ⟨more, rfl⟩ := h
  rw [slotCalls_append]
  exact List.prefix_append _ _

end HttpConnectionHandler

end QtWebApp
