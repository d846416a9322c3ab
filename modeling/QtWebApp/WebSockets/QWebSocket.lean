import QtWebApp.HttpServer.TcpSocket
import QtWebApp.WebSockets.QWebSocketDataProcessor

/-!
# QtWebApp.WebSockets.QWebSocket

One end of a WebSocket connection after the handshake: `QWebSocket` and its `QWebSocketPrivate`.

The socket below takes all that is written to it while it is open and connected, and nothing
otherwise. `processData` may block in `readFrame`, in the middle of a frame: then `reading` holds
the local variables of that call, and nothing else runs at this end until data arrives or the wait
times out.

What the object is used by is an `Application`: the mask generator, and the slots that are
connected to the signals about received data, which run while the signal is emitted. Slots of the
application on `aboutToClose()` and `bytesWritten()` are taken not to call the object. `close` emits
`aboutToClose()` behind the close frame and before the socket is closed, so a slot that sends there,
as the comment on the signal suggests, would write frames that the other end never reads; the
results about what is written at the end of a connection are about applications without such a slot.

`sent`, `received` and `signals` are histories: no function reads them, but an `Application` may
know which signals there have been.
-/

namespace QtWebApp

open QWebSocketProtocol Utf8 QWebSocketFrame

/-- `FRAME_SIZE_IN_BYTES`. -/
def frameSize : Nat := 512 * 512 * 2

/-- The signals of a `QWebSocket`. -/
inductive WebSocketSignal
  | textFrameReceived (frame : QString) (lastFrame : Bool)
  | binaryFrameReceived (frame : Bytes) (lastFrame : Bool)
  | textMessageReceived (message : QString)
  | binaryMessageReceived (message : Bytes)
  | pong (payload : Bytes)
  | aboutToClose
  | error
  | disconnected
  deriving DecidableEq, Repr

/-- What an application can do with a `QWebSocket`. -/
inductive Call
  | sendTextMessage (message : QString)
  | sendBinaryMessage (data : Bytes)
  | ping (payload : Bytes)
  | close (closeCode : CloseCode) (reason : QString)
  deriving DecidableEq, Repr

/-- What an end tells the other one. -/
inductive Transmission
  | text (message : QString)
  | binary (data : Bytes)
  | ping (payload : Bytes)
  | pong (payload : Bytes)
  | close (closeCode : CloseCode) (reason : QString)
  deriving DecidableEq, Repr

/-- What surrounds a `QWebSocket`: an application with slots on the signals about received data,
and none on `aboutToClose()` or `bytesWritten()` that calls the object. -/
structure Application where
  /-- The key that the `n`-th call of `QMaskGenerator::nextMask` returns. -/
  nextMask : Nat → UInt32
  /-- The calls that the slots make when a signal about received data is emitted, given the signals
  before it. -/
  react : List WebSocketSignal → WebSocketSignal → List Call

/-- An application that does not react to signals. -/
def Application.silent (nextMask : Nat → UInt32) : Application where
  nextMask := nextMask
  react _ _ := []

/-- `QWebSocketPrivate`, with the socket below. -/
structure QWebSocket where
  socketState : SocketState
  isOpen : Bool
  readBuffer : Bytes
  /-- Everything the socket below has taken. -/
  written : Bytes
  mustMask : Bool
  isClosingHandshakeSent : Bool
  isClosingHandshakeReceived : Bool
  closeCode : CloseCode
  closeReason : QString
  dataProcessor : QWebSocketDataProcessor
  /-- The call of `readFrame` that is running. -/
  reading : Option Reading
  /-- How many keys were drawn. -/
  masks : Nat
  /-- What was sent while the socket below took it. -/
  sent : List Transmission
  /-- The signals of the data processor. -/
  received : List ProcessorSignal
  /-- The signals that were emitted. -/
  signals : List WebSocketSignal
  deriving DecidableEq

namespace QWebSocket

/-- The object when the connection has been established. A server does not mask its frames. -/
def connected (mustMask : Bool) : QWebSocket where
  socketState := .connected
  isOpen := true
  readBuffer := []
  written := []
  mustMask := mustMask
  isClosingHandshakeSent := false
  isClosingHandshakeReceived := false
  closeCode := closeCodeNormal
  closeReason := []
  dataProcessor := .new
  reading := none
  masks := 0
  sent := []
  received := []
  signals := []

/-- Emit a signal. -/
def emit (s : QWebSocket) (signal : WebSocketSignal) : QWebSocket :=
  { s with signals := s.signals ++ [signal] }

/-! ### Writing

Control frames are written at once, header and payload together, except for the pong, whose payload
is a write of its own. Everything goes through `write`, so that what has been written is known in
order. -/

/-- The socket takes what is written to it. -/
def Writable (s : QWebSocket) : Prop := s.isOpen = true ∧ s.socketState ≠ .unconnected

instance (s : QWebSocket) : Decidable s.Writable := inferInstanceAs (Decidable (_ ∧ _))

/-- `QIODevice::write`: the number of bytes taken, `none` for the error code. -/
def write (s : QWebSocket) (data : Bytes) : Option Nat × QWebSocket :=
  if s.Writable then (some data.length, { s with written := s.written ++ data }) else (none, s)

/-- Note what is sent now. -/
def record (s : QWebSocket) (t : Transmission) : QWebSocket :=
  if s.Writable then { s with sent := s.sent ++ [t] } else s

/-- `generateMaskingKey`, where the caller asks for masking; no masking is the key 0. -/
def maskingKey (app : Application) (s : QWebSocket) : UInt32 × QWebSocket :=
  if s.mustMask then (app.nextMask s.masks, { s with masks := s.masks + 1 }) else (0, s)

/-- `getFrameHeader`. The length is the size of a byte array, which is never too big for a frame. -/
def getFrameHeader (opCode : OpCode) (payloadLength : Nat) (maskingKey : UInt32)
    (lastFrame : Bool) :
    Bytes :=
  let masked : UInt8 := if maskingKey ≠ 0 then 0x80 else 0
  let length :=
    if payloadLength ≤ 125 then [masked ||| UInt8.ofNat payloadLength]
    else if payloadLength ≤ 0xFFFF then (masked ||| 126) :: toBigEndian 2 payloadLength
    else (masked ||| 127) :: toBigEndian 8 payloadLength
  [UInt8.ofNat (opCode.toNat &&& 0x0F) ||| if lastFrame then 0x80 else 0] ++ length ++
    if maskingKey ≠ 0 then toBigEndian 4 maskingKey.toNat else []

/-- A control frame as `ping` writes it: at once, and never an empty write. -/
def writeFrame (app : Application) (s : QWebSocket) (opCode : OpCode)
    (payload : Bytes) : QWebSocket :=
  let (key, s) := s.maskingKey app
  let data := if s.mustMask then mask payload key else payload
  (s.write (getFrameHeader opCode payload.length key true ++ data)).2

/-- `ping`. -/
def ping (app : Application) (s : QWebSocket) (payload : Bytes) : QWebSocket :=
  (s.record (.ping (payload.take 125))).writeFrame app .ping (payload.take 125)

/-- The pong that `processPing` writes. -/
def writePong (app : Application) (s : QWebSocket) (data : Bytes) : QWebSocket :=
  let (key, s) := s.maskingKey app
  let s := (s.write (getFrameHeader .pong data.length key true)).2
  if 0 < data.length then (s.write (if s.mustMask then mask data key else data)).2 else s

/-- `processPing`: the pong has the data of the ping. -/
def processPing (app : Application) (s : QWebSocket) (data : Bytes) : QWebSocket :=
  (s.record (.pong data)).writePong app data

/-- `QAbstractSocket::close`: the device is closed at once, what was written is still sent. No slot
on the device's `aboutToClose()` calls the object. -/
def closeSocket (s : QWebSocket) : QWebSocket :=
  -- the signal of the device is passed on
  let s := if s.isOpen then s.emit .aboutToClose else s
  { s with
    isOpen := false
    readBuffer := []
    socketState := if s.socketState = .connected then .closing else s.socketState }

/-- The payload of a close frame. -/
def closeData (closeCode : CloseCode) (reason : QString) : Bytes :=
  toBigEndian 2 closeCode ++ toUtf8 reason

/-- `close`: the close frame goes out once, then `aboutToClose()` is emitted, whose slots do not
call the object, and the socket is closed. -/
def close (app : Application) (s : QWebSocket) (closeCode : CloseCode) (reason : QString) :
    QWebSocket :=
  let s :=
    if s.isClosingHandshakeSent then s
    else
      let s := { s with closeCode := closeCode, closeReason := reason }
      let s := (s.record (.close closeCode reason)).writeFrame app .close
          (closeData closeCode reason)
      { s with isClosingHandshakeSent := true }.emit .aboutToClose
  s.closeSocket

/-- `processClose`. -/
def processClose (app : Application) (s : QWebSocket) (closeCode : CloseCode)
    (closeReason : QString) :
    QWebSocket :=
  { s with isClosingHandshakeReceived := true }.close app closeCode closeReason

/-! ### Messages

A message is cut into frames of `frameSize` bytes, and each of them gets a key of its own. An empty
message is one empty frame. The loop ends early when the socket takes nothing of a payload. -/

/-- The variables of the loop in `doWriteFrames`. -/
structure Sending where
  socket : QWebSocket
  currentPosition : Nat
  bytesLeft : Nat
  payloadWritten : Nat

/-- The loop of `doWriteFrames`, with the number of frames that are still to be written; `first` is
the opcode of the first one of them. -/
def writeFrames (app : Application) (data : Bytes) : Nat → OpCode → Sending → Sending
  | 0, _, w => w
  | left + 1, opCode, w =>
      let (key, s) := w.socket.maskingKey app
      let size := min w.bytesLeft frameSize
      let s := (s.write (getFrameHeader opCode size key (left == 0))).2
      if 0 < size then
        let currentData := (data.drop w.currentPosition).take size
        match s.write (if s.mustMask then mask currentData key else currentData) with
        | (some (written + 1), s) =>
            writeFrames app data left .continuation
              ⟨s, w.currentPosition + size, w.bytesLeft - size,
              w.payloadWritten + (written + 1)⟩
        | (_, s) => { w with socket := s.emit .error }
      else writeFrames app data left .continuation
        ⟨s, w.currentPosition, w.bytesLeft, w.payloadWritten⟩

/-- How many frames a message needs: at least one. -/
def numFrames (size : Nat) : Nat :=
  let n := size / frameSize + if size % frameSize = 0 then 0 else 1
  if n = 0 then 1 else n

/-- `doWriteFrames`. -/
def doWriteFrames (app : Application) (s : QWebSocket) (data : Bytes) (isBinary : Bool) :
    Nat × QWebSocket :=
  if s.socketState ≠ .connected then (0, s)
  else
    let w := writeFrames app data (numFrames data.length) (if isBinary then .binary else .text)
      ⟨s, 0, data.length, 0⟩
    (w.payloadWritten, if w.payloadWritten ≠ data.length then w.socket.emit .error else w.socket)

/-- `sendTextMessage`. -/
def sendTextMessage (app : Application) (s : QWebSocket) (message : QString) : Nat × QWebSocket :=
  (s.record (.text message)).doWriteFrames app (toUtf8 message) false

/-- `sendBinaryMessage`. -/
def sendBinaryMessage (app : Application) (s : QWebSocket) (data : Bytes) : Nat × QWebSocket :=
  (s.record (.binary data)).doWriteFrames app data true

/-! ### Reading

When data arrives, `readFrame` goes on where it waited. A frame that is complete is given to the
data processor at once, the signals of which are answered before the next frame is read. The loop
ends when a frame is not complete, or when `process` has returned and no data is left. -/

/-- A call of the application. -/
def call (app : Application) (s : QWebSocket) : Call → QWebSocket
  | .sendTextMessage message => (s.sendTextMessage app message).2
  | .sendBinaryMessage data => (s.sendBinaryMessage app data).2
  | .ping payload => s.ping app payload
  | .close closeCode reason => s.close app closeCode reason

/-- Emit a signal about received data; the slots of the application run. -/
def relay (app : Application) (s : QWebSocket) (signal : WebSocketSignal) : QWebSocket :=
  (app.react s.signals signal).foldl (call app) (s.emit signal)

/-- What is connected to a signal of the data processor. -/
def onSignal (app : Application) (s : QWebSocket) : ProcessorSignal → QWebSocket
  | .pingReceived data => s.processPing app data
  | .pongReceived data => s.relay app (.pong data)
  | .closeReceived closeCode closeReason => s.processClose app closeCode closeReason
  | .textFrameReceived frame lastFrame => s.relay app (.textFrameReceived frame lastFrame)
  | .binaryFrameReceived frame lastFrame => s.relay app (.binaryFrameReceived frame lastFrame)
  | .textMessageReceived message => s.relay app (.textMessageReceived message)
  | .binaryMessageReceived message => s.relay app (.binaryMessageReceived message)
  | .errorEncountered code description => s.close app code description

/-- Call `readFrame`. -/
def readFrame (s : QWebSocket) : QWebSocket :=
  let (r, rest) := Reading.start.advance s.readBuffer
  { s with reading := some r, readBuffer := rest }

/-- The data processor gets a frame. -/
def handleFrame (app : Application) (s : QWebSocket) (frame : QWebSocketFrame) : QWebSocket :=
  let outcome := s.dataProcessor.processFrame frame
  let s := { s with
    dataProcessor := outcome.processor
    received := s.received ++ outcome.signals }
  let s := outcome.signals.foldl (onSignal app) s
  -- `process` returns, and `processData` calls it again as long as there is data
  if outcome.returns ∧ s.readBuffer = [] then { s with reading := none } else s.readFrame

/-- Handle frames until one is not complete or all data is used up. -/
def handleFrames (app : Application) : Nat → QWebSocket → QWebSocket
  | 0, s => s
  | n + 1, s =>
      match s.reading with
      | none => s
      | some r => if r.waiting then s else handleFrames app n (s.handleFrame app r.frame)

/-- `processData`, when no call of it is running. Every frame takes some data away. -/
def processData (app : Application) (s : QWebSocket) : QWebSocket :=
  if s.readBuffer = [] then s else handleFrames app (s.readBuffer.length + 1) s.readFrame

/-- Data arrives. A reader that waits for it goes on; otherwise it is there for the next call of
`processData`. -/
def arrive (app : Application) (s : QWebSocket) (data : Bytes) : QWebSocket :=
  if s.isOpen then
    let s := { s with readBuffer := s.readBuffer ++ data }
    match s.reading with
    | none => s
    | some r =>
        let (r, rest) := r.resume s.readBuffer
        handleFrames app (s.readBuffer.length + 1) { s with reading := some r, readBuffer := rest }
  else s

/-- The wait of `readFrame` times out. -/
def timeOut (app : Application) (s : QWebSocket) : QWebSocket :=
  match s.reading with
  | none => s
  | some r => handleFrames app (s.readBuffer.length + 1) { s with reading := some r.timeOut }

/-- `processStateChanged`, when the connection has ended. -/
def becomeUnconnected (s : QWebSocket) : QWebSocket :=
  if s.socketState = .unconnected then s
  else { s with socketState := .unconnected }.emit .disconnected

/-! ### Events

An end is a state machine over these events. They come one at a time: while `readFrame` waits inside
of `processData`, nothing but data and the end of the wait reaches the object. -/

/-- What can happen at one end. -/
inductive Event
  | call (c : Call)
  | arrive (data : Bytes)
  | processData
  | timeOut
  | becomeUnconnected
  deriving DecidableEq, Repr

/-- An event happens. While `readFrame` waits, the application does not run, and neither is
`processData` called again. -/
def occur (app : Application) (s : QWebSocket) : Event → QWebSocket
  | .call c => if s.reading = none then s.call app c else s
  | .arrive data => s.arrive app data
  | .processData => if s.reading = none then s.processData app else s
  | .timeOut => s.timeOut app
  | .becomeUnconnected => s.becomeUnconnected

/-- The data that arrives with an event. -/
def Event.data : Event → Bytes
  | .arrive data => data
  | _ => []

end QWebSocket

end QtWebApp
