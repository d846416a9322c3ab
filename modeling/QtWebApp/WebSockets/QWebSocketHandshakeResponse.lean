import QtWebApp.Base.Base64
import QtWebApp.Base.Sha1
import QtWebApp.WebSockets.QWebSocketHandshakeRequest

/-!
# QtWebApp.WebSockets.QWebSocketHandshakeResponse

The response of the server to the request for a WebSocket.

The lines of the response are collected in a list and joined at the end. The list goes on growing
when the server finds a line end in the origin or in its own name: the lines by which it agreed are
still in front of the refusal then, and a client reads the agreement. The check looks for CR and LF
together, so a line feed alone passes it.
-/

namespace QtWebApp

open Bytes QWebSocketProtocol

/-- `calculateAcceptKey`, of the server and of the client. -/
def calculateAcceptKey (key : Bytes) : Bytes :=
  Base64.encode (Sha1.hash (key ++ ascii "258EAFA5-E914-47DA-95CA-C5AB0DC85B11"))

example : calculateAcceptKey (ascii "dGhlIHNhbXBsZSBub25jZQ==") =
    ascii "s3pPLMBiTxaQ9kYGzzhZRbK+xOo=" := by
  decide +kernel

/-- `QStringList::join`, with line ends. -/
def joinLines (lines : List Bytes) : Bytes := CRLF.intercalate lines

/-- `QWebSocketHandshakeResponse`. -/
structure QWebSocketHandshakeResponse where
  canUpgrade : Bool
  response : Bytes
  acceptedProtocol : Bytes
  acceptedExtension : Bytes
  acceptedVersion : Version
  error : CloseCode
  errorString : Bytes
  deriving DecidableEq

namespace QWebSocketHandshakeResponse

/-- Before the response is made. -/
def new : QWebSocketHandshakeResponse where
  canUpgrade := false
  response := []
  acceptedProtocol := []
  acceptedExtension := []
  acceptedVersion := .unknown
  error := closeCodeNormal
  errorString := []

/-- A header with a value that is there. -/
def headerLine (name value : Bytes) : Bytes := name ++ ascii ": " ++ value

/-- The elements of both lists, as sets. -/
def matching (platform : Platform) (supported requested : List Bytes) : List Bytes :=
  platform.toList (supported.filter fun s => s ∈ requested).dedup

/-- The lines by which the server agrees. -/
def switchingLines (key : Bytes) (acceptedProtocol acceptedExtension : Option Bytes) : List Bytes :=
  [ascii "HTTP/1.1 101 Switching Protocols", ascii "Upgrade: websocket",
    ascii "Connection: Upgrade",
    headerLine (ascii "Sec-WebSocket-Accept") (calculateAcceptKey key)] ++
  (acceptedProtocol.map (headerLine (ascii "Sec-WebSocket-Protocol"))).toList ++
  (acceptedExtension.map (headerLine (ascii "Sec-WebSocket-Extensions"))).toList

/-- The lines about the server. -/
def serverLines (platform : Platform) (serverName origin : Bytes) : List Bytes :=
  [headerLine (ascii "Server") serverName, ascii "Access-Control-Allow-Credentials: false",
    ascii "Access-Control-Allow-Methods: GET", ascii "Access-Control-Allow-Headers: content-type",
    headerLine (ascii "Access-Control-Allow-Origin") (if origin = [] then ascii "*" else origin),
    headerLine (ascii "Date") platform.date]

/-- The lines of a bad request. -/
def badRequestLines (supportedVersions : List Version) : List Bytes :=
  [ascii "HTTP/1.1 400 Bad Request", headerLine (ascii "Sec-WebSocket-Version")
    ((ascii ", ").intercalate (supportedVersions.map fun v => number v.toInt))]

/-- The end of `getHandshakeResponse`: the last one of the lines is the line end of an empty
line. -/
def finish (r : QWebSocketHandshakeResponse) (lines : List Bytes) : QWebSocketHandshakeResponse :=
  { r with response := joinLines (lines ++ [CRLF]) }

/-- `getHandshakeResponse`. -/
def getHandshakeResponse (platform : Platform) (request : QWebSocketHandshakeRequest)
    (serverName : Bytes) (isOriginAllowed : Bool) (supportedVersions : List Version)
    (supportedProtocols supportedExtensions : List Bytes) : QWebSocketHandshakeResponse :=
  if ¬ isOriginAllowed then
    { new with
      error := 1008
      errorString := ascii "Access forbidden." }.finish [ascii "HTTP/1.1 403 Access Forbidden"]
  else if request.isValid then
    if (request.versions.filter fun v => v ∈ supportedVersions) = [] then
      { new with
        error := closeCodeProtocolError
        errorString := ascii "Unsupported version requested." }.finish
          (badRequestLines supportedVersions)
    else
      let protocol := (matching platform supportedProtocols request.protocols).head?
      let extension := (matching platform supportedExtensions request.extensions).head?
      let lines := switchingLines request.key protocol extension
      let origin := Latin1.trimmed request.origin
      let r := { new with
        acceptedProtocol := protocol.getD []
        acceptedExtension := extension.getD [] }
      if containsText origin CRLF || containsText serverName CRLF then
        -- what has been agreed to stays in front of the refusal
        { r with
          error := closeCodeAbnormalDisconnection
          errorString := ascii
            "One of the headers contains a newline. Possible attack detected." }.finish
            (lines ++ badRequestLines supportedVersions)
      else
        { r with
          canUpgrade := true
          acceptedVersion := currentVersion }.finish
            (lines ++ serverLines platform serverName origin)
  else
    { new with
      error := closeCodeProtocolError
      errorString := ascii "Bad handshake request received." }.finish
        (badRequestLines supportedVersions)

/-- `writeToStream`: the response is a C string there, so it ends at the first NUL. -/
def written (platform : Platform) (r : QWebSocketHandshakeResponse) : Bytes :=
  platform.encode (r.response.takeWhile (· ≠ 0))

end QWebSocketHandshakeResponse

end QtWebApp
