import QtWebApp.WebSockets.QWebSocketFrame

/-!
# QtWebApp.WebSockets.QWebSocketDataProcessor

What becomes of the frames that were read: messages are put together, and control frames are
announced.

`process` reads frame after frame from the device. Here `processFrame` is what it does with one;
it also tells whether `process` returns then or reads the next frame.

Between two data frames the processor keeps the opcode of the message, its payload so far and, for a
text, the state of the UTF-8 decoder, since the end of a frame may cut a character. After an error
and after a complete message it is as new.

The signals of a frame are returned as a list, in the order in which they are emitted. No slot that
is connected to them calls the processor, so it makes no difference that they run afterwards.
-/

namespace QtWebApp

open QWebSocketProtocol Utf8

/-- `MAX_MESSAGE_SIZE_IN_BYTES`. -/
def maxMessageSize : Nat := 2147483646

/-- The signals of a data processor. -/
inductive ProcessorSignal
  | pingReceived (data : Bytes)
  | pongReceived (data : Bytes)
  | closeReceived (closeCode : CloseCode) (closeReason : QString)
  | textFrameReceived (frame : QString) (lastFrame : Bool)
  | binaryFrameReceived (frame : Bytes) (lastFrame : Bool)
  | textMessageReceived (message : QString)
  | binaryMessageReceived (message : Bytes)
  | errorEncountered (code : CloseCode) (description : QString)
  deriving DecidableEq, Repr

/-- `QWebSocketDataProcessor`, without the members that are never read. -/
structure QWebSocketDataProcessor where
  isFragmented : Bool
  opCode : OpCode
  binaryMessage : Bytes
  textMessage : QString
  converterState : ConverterState
  deriving DecidableEq, Repr

namespace QWebSocketDataProcessor

/-- The constructor. -/
def new : QWebSocketDataProcessor where
  isFragmented := false
  opCode := .close
  binaryMessage := []
  textMessage := []
  converterState := .new

/-- `clear`: a converter that is in the middle of a character, or has found an error, is
replaced. -/
def clear (p : QWebSocketDataProcessor) : QWebSocketDataProcessor :=
  { new with
    converterState :=
      if p.converterState.remaining ≠ [] ∨ p.converterState.invalidChars ≠ 0 then .new
      else p.converterState }

/-- What `process` does with a frame: the new state, the signals, and whether it returns. -/
structure Outcome where
  processor : QWebSocketDataProcessor
  signals : List ProcessorSignal
  returns : Bool

/-- Give up the message and report an error. -/
def failWith (p : QWebSocketDataProcessor) (code : CloseCode) (description : String) : Outcome where
  processor := p.clear
  signals := [.errorEncountered code (QString.ofAscii description)]
  returns := true

/-! ### Control frames

A control frame leaves the message alone that is being put together. A close frame with a payload of
one byte, an invalid code or a reason that is not UTF-8 is announced all the same, with a code that
says what is wrong with it. -/

/-- `toUnicode` with a state that does not ignore the header: a byte order mark at the beginning is
left out. -/
def toUnicodeWithHeader (b : Bytes) : QString × ConverterState :=
  let (text, state) := convertToUnicode b .new
  (if text.head? = some 0xFEFF then text.tail else text, state)

/-- The close code and the reason in the payload of a close frame. -/
def closePayload (payload : Bytes) : CloseCode × QString :=
  if payload.length = 1 then
    (closeCodeProtocolError, QString.ofAscii "Payload of close frame is too small.")
  else if payload.length = 0 then (closeCodeNormal, [])
  else
    let closeCode := fromBigEndian (payload.take 2)
    if !isCloseCodeValid closeCode then
      -- the text is made after the code has been replaced
      (closeCodeProtocolError, QString.ofAscii "Invalid close code 1002 detected.")
    else if payload.length = 2 then (closeCode, [])
    else
      let (closeReason, state) := toUnicodeWithHeader (payload.drop 2)
      if state.invalidChars ≠ 0 ∨ state.remaining ≠ [] then
        (closeCodeWrongDatatype, QString.ofAscii "Invalid UTF-8 code encountered.")
      else (closeCode, closeReason)

/-- `processControlFrame`: the signal. -/
def controlSignals (frame : QWebSocketFrame) : List ProcessorSignal :=
  match frame.opCode with
  | .ping => [.pingReceived frame.payload]
  | .pong => [.pongReceived frame.payload]
  | .close =>
      let (closeCode, closeReason) := closePayload frame.payload
      [.closeReceived closeCode closeReason]
  | _ => []

/-! ### Data frames

The first frame of a message decides whether it is text or binary, the others are continuations. The
size limit is checked before a frame is added: of a text it counts the characters that are there,
and the bytes of the new frame. -/

/-- A data frame with the message that it belongs to, text. -/
def processText (p : QWebSocketDataProcessor) (frame : QWebSocketFrame) : Outcome :=
  let (frameTxt, state) := convertToUnicode frame.payload p.converterState
  let p := { p with converterState := state }
  if state.invalidChars ≠ 0 ∨ (frame.isFinalFrame = true ∧ state.remaining ≠ []) then
    p.failWith closeCodeWrongDatatype "Invalid UTF-8 code encountered."
  else
    let p := { p with textMessage := p.textMessage ++ frameTxt }
    if frame.isFinalFrame then
      ⟨p.clear, [.textFrameReceived frameTxt true, .textMessageReceived p.textMessage], true⟩
    else ⟨p, [.textFrameReceived frameTxt false], false⟩

/-- A data frame with the message that it belongs to, binary. -/
def processBinary (p : QWebSocketDataProcessor) (frame : QWebSocketFrame) : Outcome :=
  let p := { p with binaryMessage := p.binaryMessage ++ frame.payload }
  if frame.isFinalFrame then
    ⟨p.clear, [.binaryFrameReceived frame.payload true, .binaryMessageReceived p.binaryMessage],
      true⟩
  else ⟨p, [.binaryFrameReceived frame.payload false], false⟩

/-- The length of the message so far. -/
def messageLength (p : QWebSocketDataProcessor) : Nat :=
  if p.opCode = .text then p.textMessage.length else p.binaryMessage.length

/-- A data frame. -/
def processDataFrame (p : QWebSocketDataProcessor) (frame : QWebSocketFrame) : Outcome :=
  if !p.isFragmented && frame.isContinuationFrame then
    p.failWith closeCodeProtocolError
      "Received Continuation frame, while there is nothing to continue."
  else if p.isFragmented && frame.isDataFrame && !frame.isContinuationFrame then
    p.failWith closeCodeProtocolError
      "All data frames after the initial data frame must have opcode 0 (continuation)."
  else
    let p := if frame.isContinuationFrame then p
      else { p with opCode := frame.opCode, isFragmented := !frame.isFinalFrame }
    if maxMessageSize < p.messageLength + frame.payload.length then
      p.failWith closeCodeTooMuchData "Received message is too big."
    else if p.opCode = .text then p.processText frame
    else p.processBinary frame

/-- A turn of the loop of `process`, after the frame was read. -/
def processFrame (p : QWebSocketDataProcessor) (frame : QWebSocketFrame) : Outcome :=
  if frame.isValid then
    if frame.isControlFrame then ⟨p, controlSignals frame, true⟩
    else p.processDataFrame frame
  else ⟨p.clear, [.errorEncountered frame.closeCode frame.closeReason], true⟩

/-- The frames one after the other. -/
def processFrames (p : QWebSocketDataProcessor) : List QWebSocketFrame →
    QWebSocketDataProcessor × List ProcessorSignal
  | [] => (p, [])
  | f :: fs =>
      let o := p.processFrame f
      let (p', signals) := processFrames o.processor fs
      (p', o.signals ++ signals)

end QWebSocketDataProcessor

end QtWebApp
