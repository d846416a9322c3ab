import QtWebApp.WebSockets.QWebSocketProtocol

/-!
# QtWebApp.WebSockets.QWebSocketFrame

A frame, and `readFrame`, the state machine that reads one from a device.

`readFrame` blocks in `waitForReadyRead` while a part of the frame is missing. Here its local
variables are a `Reading`, so that a reader that waits is a value: `advance` runs the loop until
the frame is there or more data is needed, `resume` goes on after data has arrived, and `timeOut`
after the wait was in vain. The device has the bytes that it reports as available, so that a read
of that many bytes does not fail.

Each state of the machine has a function of its own (`header`, `shortLength`, `bigLength`,
`maskingKey`, `payload`) for what happens once its bytes are there; taking the bytes or waiting for
them is the same in all of them (`take`). A frame passes through at most four states, so the loop
needs four turns and no fuel.

An error is a frame, too, as in the source: one that is not valid and has a close code and a reason.
-/

namespace QtWebApp

open QWebSocketProtocol

/-- `MAX_FRAME_SIZE_IN_BYTES`. -/
def maxFrameSize : Nat := 2147483646

/-- `QWebSocketFrame`. -/
structure QWebSocketFrame where
  closeCode : CloseCode
  closeReason : QString
  mask : UInt32
  opCode : OpCode
  length : Nat
  payload : Bytes
  isFinalFrame : Bool
  rsv1 : Bool
  rsv2 : Bool
  rsv3 : Bool
  isValid : Bool
  deriving DecidableEq, Repr

namespace QWebSocketFrame

/-- The constructor, and what `clear` makes of any frame. -/
def new : QWebSocketFrame where
  closeCode := closeCodeNormal
  closeReason := []
  mask := 0
  opCode := .reservedC
  length := 0
  payload := []
  isFinalFrame := true
  rsv1 := false
  rsv2 := false
  rsv3 := false
  isValid := false

/-- `isControlFrame`. -/
def isControlFrame (f : QWebSocketFrame) : Bool := f.opCode.toNat &&& 0x08 == 0x08

/-- `isDataFrame`. -/
def isDataFrame (f : QWebSocketFrame) : Bool := !f.isControlFrame

/-- `isContinuationFrame`. -/
def isContinuationFrame (f : QWebSocketFrame) : Bool := f.isDataFrame && f.opCode == .continuation

/-- `setError`: everything else is cleared. -/
def error (code : CloseCode) (closeReason : String) : QWebSocketFrame :=
  { new with closeCode := code, closeReason := QString.ofAscii closeReason }

/-- `checkValidity`. -/
def checkValidity (f : QWebSocketFrame) : QWebSocketFrame :=
  if f.rsv1 || f.rsv2 || f.rsv3 then error closeCodeProtocolError "Rsv field is non-zero"
  else if isOpCodeReserved f.opCode then error closeCodeProtocolError "Used reserved opcode"
  else if f.isControlFrame then
    if 125 < f.length then error closeCodeProtocolError "Control frame is larger than 125 bytes"
    else if !f.isFinalFrame then
      error closeCodeProtocolError "Control frames cannot be fragmented"
    else { f with isValid := true }
  else { f with isValid := true }

/-! ### readFrame

The local variables of the function are the state, and `waiting` tells whether it stands in
`waitForReadyRead`. -/

/-- `ProcessingState`, without `PS_WAIT_FOR_MORE_DATA`. -/
inductive ProcessingState
  | readHeader | readPayloadLength | readBigPayloadLength | readMask | readPayload | dispatchResult
  deriving DecidableEq, Repr

/-- The local variables of `readFrame`. -/
structure Reading where
  frame : QWebSocketFrame
  processingState : ProcessingState
  /-- The state is `PS_WAIT_FOR_MORE_DATA`, and `processingState` is the `returnState`. -/
  waiting : Bool
  hasMask : Bool
  payloadLength : Nat
  deriving DecidableEq, Repr

namespace Reading

/-- The variables before the loop. -/
def start : Reading where
  frame := .new
  processingState := .readHeader
  waiting := false
  hasMask := false
  payloadLength := 0

/-- `WAIT_FOR_MORE_DATA`. -/
def wait (r : Reading) : Reading := { r with waiting := true }

/-- Leave the loop with an error. -/
def fail (r : Reading) (code : CloseCode) (reason : String) : Reading :=
  { r with frame := error code reason, processingState := .dispatchResult, waiting := false }

/-- What comes after the length. -/
def afterLength (r : Reading) : Reading :=
  { r with processingState := if r.hasMask then .readMask else .readPayload }

/-- The fields in the two bytes of the header. -/
def headerFrame (first second : UInt8) : QWebSocketFrame :=
  { new with
    isFinalFrame := first &&& 0x80 != 0
    rsv1 := first &&& 0x40 != 0
    rsv2 := first &&& 0x20 != 0
    rsv3 := first &&& 0x10 != 0
    opCode := OpCode.ofBits (first &&& 0x0F).toNat
    length := (second &&& 0x7F).toNat }

/-- `PS_READ_HEADER`, when the two bytes are there. -/
def header (r : Reading) (first second : UInt8) : Reading :=
  let frame := headerFrame first second
  let r := { r with hasMask := second &&& 0x80 != 0 }
  let r :=
    if frame.length = 126 then { r with processingState := .readPayloadLength }
    else if frame.length = 127 then { r with processingState := .readBigPayloadLength }
    else { r with payloadLength := frame.length }.afterLength
  let frame := frame.checkValidity
  -- the bytes behind a header that is not valid stay in the device
  if frame.isValid then { r with frame := frame }
  else { r with frame := frame, processingState := .dispatchResult }

/-- `PS_READ_PAYLOAD_LENGTH`, when the length is there. -/
def shortLength (r : Reading) (length : Nat) : Reading :=
  let r := { r with payloadLength := length }
  if length < 126 then
    r.fail closeCodeProtocolError "Lengths smaller than 126 must be expressed as one byte."
  else r.afterLength

/-- `PS_READ_BIG_PAYLOAD_LENGTH`, when the length is there. -/
def bigLength (r : Reading) (length : Nat) : Reading :=
  let r := { r with payloadLength := length }
  if 2 ^ 63 ≤ length then r.fail closeCodeProtocolError "Highest bit of payload length is not 0."
  else if length ≤ 0xFFFF then
    r.fail closeCodeProtocolError "Lengths smaller than 65536 (2^16) must be expressed as 2 bytes."
  else r.afterLength

/-- `PS_READ_MASK`, when the key is there. -/
def maskingKey (r : Reading) (key : Nat) : Reading :=
  { r with frame := { r.frame with mask := UInt32.ofNat key }, processingState := .readPayload }

/-- `PS_READ_PAYLOAD`, when the payload is there. -/
def payload (r : Reading) (data : Bytes) : Reading :=
  let data := if r.hasMask then QWebSocketProtocol.mask data r.frame.mask else data
  { r with frame := { r.frame with payload := data }, processingState := .dispatchResult }

/-- Take some bytes from the device, or wait for them. -/
def take (r : Reading) (n : Nat) (buffer : Bytes) (next : Bytes → Reading) : Reading × Bytes :=
  if n ≤ buffer.length then (next (buffer.take n), buffer.drop n) else (r.wait, buffer)

/-- One turn of the loop, in a state in which it neither waits nor is done. -/
def turn (r : Reading) (buffer : Bytes) : Reading × Bytes :=
  if r.waiting then (r, buffer)
  else
    match r.processingState with
    | .readHeader => r.take 2 buffer fun b => r.header (b.getD 0 0) (b.getD 1 0)
    | .readPayloadLength => r.take 2 buffer fun b => r.shortLength (fromBigEndian b)
    | .readBigPayloadLength => r.take 8 buffer fun b => r.bigLength (fromBigEndian b)
    | .readMask => r.take 4 buffer fun b => r.maskingKey (fromBigEndian b)
    | .readPayload =>
        if r.payloadLength = 0 then ({ r with processingState := .dispatchResult }, buffer)
        else if maxFrameSize < r.payloadLength then
          (r.fail closeCodeTooMuchData "Maximum framesize exceeded.", buffer)
        else r.take r.payloadLength buffer r.payload
    | .dispatchResult => (r, buffer)

/-- Some turns of the loop. -/
def turns (r : Reading) : Nat → Bytes → Reading × Bytes
  | 0, buffer => (r, buffer)
  | n + 1, buffer => turns (r.turn buffer).1 n (r.turn buffer).2

/-- The loop of `readFrame` until it waits or is done: the header, the length, the key and the
payload are at most four turns. -/
def advance (r : Reading) (buffer : Bytes) : Reading × Bytes := r.turns 4 buffer

/-- The data that was waited for has arrived: `waitForReadyRead` has returned true. -/
def resume (r : Reading) (buffer : Bytes) : Reading × Bytes :=
  { r with waiting := false }.advance buffer

/-- `waitForReadyRead` has returned false. -/
def timeOut (r : Reading) : Reading :=
  r.fail closeCodeGoingAway "Timeout when reading data from socket."

/-- `readFrame` has left its loop. -/
def Done (r : Reading) : Prop := r.waiting = false ∧ r.processingState = .dispatchResult

instance (r : Reading) : Decidable r.Done := inferInstanceAs (Decidable (_ ∧ _))

end Reading

end QWebSocketFrame

end QtWebApp
