import QtWebApp.HttpServer.HttpCookie
import QtWebApp.HttpServer.TcpSocket

/-!
# QtWebApp.HttpServer.HttpResponse

The response object a request handler writes to.

The framing of a response is chosen at its first `write`: a response that is also its last
part announces its length, any other is sent in chunks unless the connection is going to be
closed. The assertions of the class (no header after the first write, no write after the last
part) are off in a release build and so they are here.
-/

namespace QtWebApp

open Bytes

/-- `HttpResponse`, with the socket it points to. -/
structure HttpResponse where
  socket : TcpSocket
  headers : QMap Bytes
  statusCode : Int
  statusText : Bytes
  sentHeaders : Bool
  sentLastPart : Bool
  chunkedMode : Bool
  cookies : QMap HttpCookie

/-- What a request handler can do with a response. -/
inductive ResponseCall
  | setHeader (name value : Bytes)
  | setStatus (statusCode : Int) (description : Bytes)
  | setCookie (cookie : HttpCookie)
  | write (data : Bytes) (lastPart : Bool)
  | redirect (url : Bytes)
  | flush
  deriving DecidableEq, Repr

namespace HttpResponse

/-- The constructor. -/
def new (socket : TcpSocket) : HttpResponse where
  socket := socket
  headers := ∅
  statusCode := 200
  statusText := ascii "OK"
  sentHeaders := false
  sentLastPart := false
  chunkedMode := false
  cookies := ∅

/-- `HttpResponse::setHeader`. -/
def setHeader (r : HttpResponse) (name value : Bytes) : HttpResponse :=
  { r with headers := r.headers.insert name value }

/-- `HttpResponse::setStatus`. -/
def setStatus (r : HttpResponse) (statusCode : Int) (description : Bytes) : HttpResponse :=
  { r with statusCode := statusCode, statusText := description }

/-- `HttpResponse::setCookie`. -/
def setCookie (r : HttpResponse) (cookie : HttpCookie) : HttpResponse :=
  if cookie.name = [] then r else { r with cookies := r.cookies.insert cookie.name cookie }

/-- A value of the header map, empty when it is not there. -/
def header (r : HttpResponse) (name : Bytes) : Bytes := r.headers.getD name []

/-- The loop of `writeToSocket`. Every successful write takes a byte of what remains, so the
length of the data is enough fuel. -/
def writeLoop (net : Network) : Nat → Bytes → TcpSocket → Bool × TcpSocket
  | 0, _, s => (true, s)
  | n + 1, data, s =>
      if s.isOpen ∧ data ≠ [] then
        match s.write net data with
        -- a failed write ends the loop, and what remains of the data is lost
        | (none, s) => (false, s)
        | (some written, s) => writeLoop net n (data.drop written) s
      else (true, s)

/-- `HttpResponse::writeToSocket`; its result is used by no caller. -/
def writeToSocket (net : Network) (r : HttpResponse) (data : Bytes) : HttpResponse :=
  { r with socket := (writeLoop net data.length data r.socket).2 }

/-- One header line. -/
def headerLine (name value : Bytes) : Bytes := name ++ ascii ": " ++ value ++ CRLF

/-- The header block: status line, headers, cookies, empty line. -/
def headerBlock (r : HttpResponse) : Bytes :=
  ascii "HTTP/1.1 " ++ number r.statusCode ++ ascii " " ++ r.statusText ++ CRLF
    ++ (r.headers.toList.flatMap fun h => headerLine h.1 h.2)
    ++ (r.cookies.toList.flatMap fun c => headerLine (ascii "Set-Cookie") c.2.toByteArray)
    ++ CRLF

/-- `HttpResponse::writeHeaders`. -/
def writeHeaders (net : Network) (r : HttpResponse) : HttpResponse :=
  { r.writeToSocket net r.headerBlock with sentHeaders := true }

/-- The value `write` looks at to decide whether the connection is going to be closed. -/
def connectionValue (r : HttpResponse) : Bytes :=
  -- only these two spellings are asked for
  r.headers.getD (ascii "Connection") (r.header (ascii "connection"))

/-- The framing chosen by the first call of `write`. -/
def chooseFraming (r : HttpResponse) (data : Bytes) (lastPart : Bool) : HttpResponse :=
  if lastPart then r.setHeader (ascii "Content-Length") (number data.length)
  else if equalsFolded r.connectionValue (ascii "close") then r
  else { r.setHeader (ascii "Transfer-Encoding") (ascii "chunked") with chunkedMode := true }

/-- The data of one call of `write`: as it is, or as a chunk. -/
def writeData (net : Network) (r : HttpResponse) (data : Bytes) : HttpResponse :=
  -- an empty chunk would end the response
  if data = [] then r
  else if r.chunkedMode then
    (((r.writeToSocket net (number16 data.length)).writeToSocket net CRLF).writeToSocket
      net data).writeToSocket net CRLF
  else r.writeToSocket net data

/-- The end of the last part: the terminating chunk, and the buffer is flushed. -/
def finish (net : Network) (r : HttpResponse) : HttpResponse :=
  let r := if r.chunkedMode then r.writeToSocket net (ascii "0\r\n\r\n") else r
  { r with socket := r.socket.flush net, sentLastPart := true }

/-- `HttpResponse::write`. -/
def write (net : Network) (r : HttpResponse) (data : Bytes) (lastPart : Bool) : HttpResponse :=
  -- the first call sends the headers, and decides on the framing before
  let r := if r.sentHeaders then r else (r.chooseFraming data lastPart).writeHeaders net
  let r := r.writeData net data
  if lastPart then r.finish net else r

/-- `HttpResponse::redirect`. -/
def redirect (net : Network) (r : HttpResponse) (url : Bytes) : HttpResponse :=
  ((r.setStatus 303 (ascii "See Other")).setHeader (ascii "Location") url).write net
    (ascii "Redirect") true

/-- One call of a request handler. -/
def call (net : Network) (r : HttpResponse) : ResponseCall → HttpResponse
  | .setHeader name value => r.setHeader name value
  | .setStatus statusCode description => r.setStatus statusCode description
  | .setCookie cookie => r.setCookie cookie
  | .write data lastPart => r.write net data lastPart
  | .redirect url => r.redirect net url
  | .flush => { r with socket := r.socket.flush net }

end HttpResponse

end QtWebApp
