import QtWebApp.Base.PlaceMarker
import QtWebApp.WebSockets.QWebSocketHandshakeResponse

/-!
# QtWebApp.WebSockets.Opening

How a WebSocket is opened: the request of a client, what the server makes of it in `upgradeFrom`,
and what the client makes of the response.

`Opening` is a client that waits for the response. It is in `processData` that the client looks
at what has arrived; when the handshake is done, the rest of the data is for the data processor.

The server does not parse the device directly but a text stream on top of it, which reads ahead.
What it has read and not used is lost to the socket, so a frame that comes in the same block as the
request never reaches the data processor (`leftInDevice`).
-/

namespace QtWebApp

open Bytes QWebSocketProtocol

/-! ### The request

The source refuses a line end in each of the texts, but it looks for CR and LF together, and not at
all into the headers of the application. -/

/-- `createHandShakeRequest`; the result is empty for an error. -/
def createHandShakeRequest (resourceName host origin extensions protocols key : Bytes)
    (headers : List (Bytes × Bytes)) : Bytes :=
  if containsText resourceName CRLF ∨ containsText host CRLF ∨ containsText origin CRLF ∨
      containsText extensions CRLF ∨ containsText protocols CRLF then []
  else
    joinLines ([ascii "GET " ++ resourceName ++ ascii " HTTP/1.1",
      ascii "Host: " ++ host,
      ascii "Upgrade: websocket",
      ascii "Connection: Upgrade",
      ascii "Sec-WebSocket-Key: " ++ key] ++
      (if origin = [] then [] else [ascii "Origin: " ++ origin]) ++
      [ascii "Sec-WebSocket-Version: " ++ number currentVersion.toInt] ++
      (if extensions = [] then [] else [ascii "Sec-WebSocket-Extensions: " ++ extensions]) ++
      (if protocols = [] then [] else [ascii "Sec-WebSocket-Protocol: " ++ protocols]) ++
      headers.map (fun header => header.1 ++ ascii ": " ++ header.2) ++ [CRLF])

/-- The key that `generateKey` makes of four masks; they stand in it as in memory. -/
def generateKey (masks : List UInt32) : Bytes :=
  Base64.encode (masks.flatMap fun m => (toBigEndian 4 m.toNat).reverse)

/-! ### The server

`upgradeFrom` has its limits for the length of a line and the number of lines. The answer is written
whether or not there will be a WebSocket; a request that is not valid is not answered. -/

/-- `MAX_HEADERLINE_LENGTH`. -/
def maxHeaderLineLength : Nat := 8 * 1024

/-- `MAX_HEADERLINES`. -/
def maxHeaderLines : Nat := 100

/-- How much a text stream reads from its device at once. -/
def streamBlock : Nat := 16384

/-- How many blocks a text stream has taken from its device when `n` characters are used up: it
takes the next one when it is out of characters. -/
def blocksTaken (platform : Platform) (data : Bytes) (n : Nat) : Nat :=
  let blocks := data.length / streamBlock + 1
  ((List.range blocks).find? fun k =>
    n ≤ (platform.decode (data.take (k * streamBlock))).length).getD blocks

/-- What a text stream leaves in its device, when `unread` is left of its characters. -/
def leftInDevice (platform : Platform) (data unread : Bytes) : Bytes :=
  let used := (platform.decode data).length - unread.length
  data.drop (blocksTaken platform data used * streamBlock)

/-- `QWebSocket::upgradeFrom`: whether there is a WebSocket, what is written to the socket, and what
is left in it. -/
def upgradeFrom (platform : Platform) (serverName data : Bytes) : Bool × Bytes × Bytes :=
  let (request, unread) := QWebSocketHandshakeRequest.readHandshake platform maxHeaderLineLength
    maxHeaderLines data
  let rest := leftInDevice platform data unread
  if request.isValid then
    let response := QWebSocketHandshakeResponse.getHandshakeResponse platform
        request serverName true
      [currentVersion] [] []
    (response.canUpgrade, response.written platform, rest)
  else (false, [], rest)

/-! ### The client

The fields are those of `QWebSocketPrivate` that the handshake uses. `processHandshake` is a machine
over `HandshakeState` which falls from one state into the next as long as there are lines. -/

/-- `HandshakeState`, between two calls. -/
inductive HandshakeState
  | nothingDone | readingStatus | readingHeader | allDone
  deriving DecidableEq, Repr

/-- What a client tells while it opens a connection. -/
inductive OpeningSignal
  | connected
  | error (errorString : Bytes)
  deriving DecidableEq, Repr

/-- A `QWebSocket` of a client, from the request on. -/
structure Opening where
  key : Bytes
  readBuffer : Bytes
  /-- The socket below is connected. -/
  socketConnected : Bool
  /-- The WebSocket is connected. -/
  connected : Bool
  handshakeState : HandshakeState
  headers : QMultiMap
  statusLine : Bytes
  httpMajorVersion : Int
  httpMinorVersion : Int
  httpStatusCode : Int
  httpStatusMessage : Bytes
  signals : List OpeningSignal
  deriving DecidableEq

namespace Opening

/-- The client has sent its request. -/
def requested (key : Bytes) : Opening where
  key := key
  readBuffer := []
  socketConnected := true
  connected := false
  handshakeState := .nothingDone
  headers := .empty
  statusLine := []
  httpMajorVersion := 0
  httpMinorVersion := 0
  httpStatusCode := 0
  httpStatusMessage := []
  signals := []

/-- `canReadLine`. -/
def canReadLine (o : Opening) : Bool := LF ∈ o.readBuffer

/-- `readLine`: the text up to a carriage return, which is eaten with the character behind it, or
everything. -/
def readLine : Bytes → Bytes × Bytes
  | [] => ([], [])
  | c :: data =>
      if c = CR then ([], data.drop 1)
      else
        let (line, rest) := readLine data
        (c :: line, rest)

/-- The status line: the versions, the code and the message. -/
structure Status where
  majorVersion : Int
  minorVersion : Int
  statusCode : Int
  reasonPhrase : Bytes
  valid : Bool
  deriving DecidableEq

/-- A byte as `char`. -/
def charValue (c : UInt8) : Int := if c.toNat < 128 then c.toNat else c.toNat - 256

/-- `parseStatusLine`; `none` if nothing is set. -/
def parseStatusLine (status : Bytes) : Option Status :=
  if status.length < 11 ∨ ¬ startsWith status (ascii "HTTP/") ∨ status.getD 6 0 ≠ 46 ∨
      status.getD 8 0 ≠ SP then none
  else
    let majorVersion := charValue (status.getD 5 0) - 48
    let minorVersion := charValue (status.getD 7 0) - 48
    let j := indexOf status [SP] 9
    let code := if j = -1 then mid status 9 else midLen status 9 (j - 9)
    some {
      majorVersion := majorVersion
      minorVersion := minorVersion
      statusCode := (toIntOk 10 code).getD 0
      -- the message is a C string
      reasonPhrase := (mid status (j + 1)).takeWhile (· ≠ 0)
      valid := (toIntOk 10 code).isSome && decide (0 ≤ majorVersion ∧ majorVersion ≤ 9) &&
        decide (0 ≤ minorVersion ∧ minorVersion ≤ 9) }

/-- The handshake has succeeded. -/
def succeed (o : Opening) : Opening :=
  { o with
    handshakeState := .allDone
    connected := true
    signals := o.signals ++ [.connected] }

/-- The handshake has failed. -/
def fail (o : Opening) (errorDescription : Bytes) : Opening :=
  { o with
    handshakeState := .allDone
    signals := o.signals ++ [.error errorDescription] }

/-- The loop over the header lines; true when the empty line has been read. -/
def readHeaders : Nat → Opening → Bool × Opening
  | 0, o => (false, o)
  | n + 1, o =>
      if o.canReadLine then
        let (headerLine, rest) := readLine o.readBuffer
        let o := { o with readBuffer := rest }
        match Latin1.split (ascii ": ") headerLine with
        | [] => (true, o)
        | [name, value] => readHeaders n { o with
            headers := o.headers.insert (Latin1.toLower name) value }
        | _ => readHeaders n o
      else (false, o)

/-- The texts of the errors. -/
def invalidStatusLine (statusLine : Bytes) : Bytes :=
  arg (ascii "Invalid statusline in response: %1.") statusLine

/-- The text of the error for a refusal without a reason. -/
def unknownError : Bytes :=
  ascii
    "QWebSocketPrivate::processHandshake: Unknown error condition encountered. Aborting connection."

/-- What is wrong with the response, if anything is. -/
def verdict (o : Opening) : Option Bytes :=
  let acceptKey := o.headers.value (ascii "sec-websocket-accept")
  let upgrade := o.headers.value (ascii "upgrade")
  let connection := o.headers.value (ascii "connection")
  let version := o.headers.value (ascii "sec-websocket-version")
  if o.httpStatusCode = 101 then
    if acceptKey = [] ∨ o.httpMajorVersion < 1 ∨ o.httpMinorVersion < 1 ∨
        Latin1.toLower upgrade ≠ ascii "websocket" ∨
          Latin1.toLower connection ≠ ascii "upgrade" then
      some (arg (ascii "QWebSocketPrivate::processHandshake: Invalid statusline in response: %1.")
        o.statusLine)
    else if calculateAcceptKey o.key = acceptKey then none
    else some (arg (arg
      (ascii "Accept-Key received from server %1 does not match the client key %2.") acceptKey)
        (calculateAcceptKey o.key))
  else if o.httpStatusCode = 400 then
    let versions := Latin1.split (ascii ", ") version
    if version ≠ [] ∧ number currentVersion.toInt ∉ versions then
      some (arg (ascii "Handshake: Server requests a version that we don't support: %1.")
        ((ascii ", ").intercalate versions))
    else some unknownError
  else
    some
      (arg (arg (ascii "QWebSocketPrivate::processHandshake: Unhandled http status code: %1 (%2).")
      (number o.httpStatusCode)) o.httpStatusMessage)

/-- The part of `processHandshake` from the header lines on. -/
def readResponse (o : Opening) : Opening :=
  let (complete, o) := readHeaders (o.readBuffer.length + 1)
      { o with handshakeState := .readingHeader }
  if complete then
    match o.verdict with
    | none => o.succeed
    | some errorDescription => o.fail errorDescription
  else if ¬ o.socketConnected then
    o.fail (ascii "QWebSocketPrivate::processHandshake: Connection closed while reading header.")
  else o

/-- The part of `processHandshake` from the status line on. -/
def readStatus (o : Opening) : Opening :=
  let o := { o with handshakeState := .readingStatus }
  if o.canReadLine then
    let (statusLine, rest) := lineUpTo o.readBuffer.length o.readBuffer
    let o := { o with
      statusLine := statusLine
      readBuffer := rest }
    match parseStatusLine statusLine with
    | none => o.fail (invalidStatusLine statusLine)
    | some status =>
        let o := { o with
          httpMajorVersion := status.majorVersion
          httpMinorVersion := status.minorVersion
          httpStatusCode := status.statusCode
          httpStatusMessage := status.reasonPhrase }
        if status.valid then o.readResponse else o.fail (invalidStatusLine statusLine)
  else o

/-- `processHandshake`. -/
def processHandshake (o : Opening) : Opening :=
  match o.handshakeState with
  | .readingStatus => o.readStatus
  | .readingHeader => o.readResponse
  -- a handshake that has failed is begun again
  | .nothingDone | .allDone => { o with headers := .empty }.readStatus

/-- `processData`, as long as the client is not connected. -/
def processData : Nat → Opening → Opening
  | 0, o => o
  | n + 1, o =>
      if o.readBuffer ≠ [] ∧ ¬ o.connected ∧ o.canReadLine
        then processData n o.processHandshake else o

/-- Data arrives, and `processData` is called. -/
def arrive (o : Opening) (data : Bytes) : Opening :=
  processData (o.readBuffer.length + data.length) { o with readBuffer := o.readBuffer ++ data }

end Opening

end QtWebApp
