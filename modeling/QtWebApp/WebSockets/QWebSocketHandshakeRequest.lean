import QtWebApp.Base.Containers
import QtWebApp.Base.Latin1
import QtWebApp.WebSockets.QWebSocketProtocol

/-!
# QtWebApp.WebSockets.QWebSocketHandshakeRequest

The request with which a WebSocket is opened, as the server reads it.

It is read by characters of Latin-1, so the texts of a handshake are byte strings here. What Qt
makes of the bytes of the stream before that, of URLs and of decimal fractions is up to the
`Platform`.

`readHandshake` has three parts: the request line, the loop over the header lines (`readHeaders`),
and the check of what was read (`evaluate`). Whatever is wrong in any of them leaves the request as
`clear` makes it, which is not valid; there is no other error. What has not been read of the stream
is returned with the request, since the rest of the data belongs to the WebSocket.
-/

namespace QtWebApp

open Bytes

namespace QWebSocketProtocol

/-- `Version`. -/
inductive Version
  | unknown | version0 | version4 | version5 | version6 | version7 | version8 | version13
  deriving DecidableEq, Repr

/-- The value of a version. -/
def Version.toInt : Version → Int
  | .unknown => -1
  | .version0 => 0
  | .version4 => 4
  | .version5 => 5
  | .version6 => 6
  | .version7 => 7
  | .version8 => 8
  | .version13 => 13

/-- `currentVersion`. -/
def currentVersion : Version := .version13

/-- `versionFromString`. -/
def versionFromString (versionString : Bytes) : Version :=
  match Latin1.toIntOk versionString with
  | some 0 => .version0
  | some 4 => .version4
  | some 5 => .version5
  | some 6 => .version6
  | some 7 => .version7
  | some 8 => .version8
  | some 13 => .version13
  | _ => .unknown

end QWebSocketProtocol

open QWebSocketProtocol

/-- What Qt and the machine do with the texts of a handshake. -/
structure Platform where
  /-- The characters of a text stream; what is not in Latin-1 becomes NUL. -/
  decode : Bytes → Bytes
  /-- The bytes as which a text stream writes characters. -/
  encode : Bytes → Bytes
  /-- `QUrl::isRelative`, for an encoded URL. -/
  isRelative : Bytes → Bool
  /-- `QString::toFloat`, if it succeeds: whether the number is at least 1.1. -/
  atLeast11 : Bytes → Option Bool
  /-- `QSet::toList`: the elements in the order of the hash table. -/
  toList : List Bytes → List Bytes
  /-- The current date, as it stands in a header. -/
  date : Bytes
  decode_ascii : ∀ b, (∀ c ∈ b, c < 128) → decode b = b
  encode_ascii : ∀ b, (∀ c ∈ b, c < 128) → encode b = b
  atLeast11_eq : atLeast11 (ascii "1.1") = some true
  toList_perm : ∀ l, (toList l).Perm l
  date_plain : ∀ c ∈ date, 32 ≤ c ∧ c < 128

/-- `QWebSocketHandshakeRequest`. -/
structure QWebSocketHandshakeRequest where
  isValid : Bool
  headers : QMultiMap
  versions : List Version
  key : Bytes
  origin : Bytes
  protocols : List Bytes
  extensions : List Bytes
  deriving DecidableEq

namespace QWebSocketHandshakeRequest

/-- `clear`. -/
def clear : QWebSocketHandshakeRequest where
  isValid := false
  headers := .empty
  versions := []
  key := []
  origin := []
  protocols := []
  extensions := []

/-- `readLine`, when `line` has been read of it: the text up to a carriage return, which is eaten
with the character behind it. A line that is too long is a null string, and so is the end of the
stream. The second part is what is left of the stream. -/
def readLineFrom (maxHeaderLineLength : Nat) (line : Bytes) : Bytes → Option Bytes × Bytes
  | [] => (if line = [] then none else some line, [])
  | c :: stream =>
      if c = CR then (some line, stream.drop 1)
      else if maxHeaderLineLength < line.length + 1 then (none, stream)
      else readLineFrom maxHeaderLineLength (line ++ [c]) stream

/-- `readLine`. -/
def readLine (maxHeaderLineLength : Nat) (stream : Bytes) : Option Bytes × Bytes :=
  readLineFrom maxHeaderLineLength [] stream

/-- The loop over the header lines, up to an empty line. Every line takes something of the
stream. -/
def readHeaders (maxHeaderLineLength maxHeaders : Nat) : Nat → Bytes → QMultiMap →
    Option QMultiMap × Bytes
  | 0, stream, _ => (none, stream)
  | n + 1, stream, headers =>
      match readLine maxHeaderLineLength stream with
      | (none, rest) => (none, rest)
      | (some [], rest) => (some headers, rest)
      | (some headerLine, rest) =>
          match Latin1.split (ascii ": ") headerLine with
          -- a value ends where a second colon with a blank stands in it
          | name :: value :: _ =>
              let headers := headers.insert (Latin1.toLower name) value
              if maxHeaders < headers.entries.length then (none, rest)
              else readHeaders maxHeaderLineLength maxHeaders n rest headers
          | _ => (none, rest)

/-- The elements of the lists that are the values of a header. -/
def listed (headers : QMultiMap) (name : Bytes) : List Bytes :=
  (headers.values name).flatMap (Latin1.split (ascii ","))

/-- The versions, if they are numbers, the highest first. -/
def readVersions (headers : QMultiMap) : Option (List Version) :=
  let versions := (listed headers (ascii "sec-websocket-version")).mapM fun v =>
    if (Latin1.toUIntOk v).isSome then some (versionFromString (Latin1.trimmed v)) else none
  versions.map fun l => l.mergeSort fun a b => decide (b.toInt ≤ a.toInt)

/-- The host without its port, which stands in the URL if that is not relative. -/
def hostName (platform : Platform) (resourceName : Bytes) (headers : QMultiMap) : Bytes :=
  let host := headers.value (ascii "host")
  if platform.isRelative resourceName then host.takeWhile (· ≠ 58) else host

/-- The part of `readHandshake` after the headers. -/
def evaluate (platform : Platform) (verb resourceName : Bytes) (atLeast11 : Bool)
    (headers : QMultiMap) :
    QWebSocketHandshakeRequest :=
  match readVersions headers with
  | none => clear
  | some versions =>
      let key := headers.value (ascii "sec-websocket-key")
      let upgrade := headers.value (ascii "upgrade")
      let connectionValues :=
        (Latin1.split (ascii ",") (headers.value (ascii "connection"))).map Latin1.trimmed
      if hostName platform resourceName headers = [] ∨ resourceName = [] ∨
        versions = [] ∨ key = [] ∨
          verb ≠ ascii "GET" ∨ ¬ atLeast11 ∨ Latin1.toLower upgrade ≠ ascii "websocket" ∨
          ascii "upgrade" ∉ connectionValues.map Latin1.toLower then clear
      else
        { isValid := true
          headers := headers
          versions := versions
          key := key
          origin := headers.value (ascii "origin")
          protocols := (listed headers (ascii "sec-websocket-protocol")).map Latin1.trimmed
          extensions := (listed headers (ascii "sec-websocket-extensions")).map Latin1.trimmed }

/-- `readHandshake`, and what is left of the stream. -/
def readHandshake (platform : Platform) (maxHeaderLineLength maxHeaders : Nat) (data : Bytes) :
    QWebSocketHandshakeRequest × Bytes :=
  let stream := platform.decode data
  match readLine maxHeaderLineLength stream with
  | (none, rest) => (clear, rest)
  | (some requestLine, rest) =>
      match Latin1.split [SP] requestLine with
      | verb :: resourceName :: httpProtocol :: _ =>
          match platform.atLeast11 (httpProtocol.drop 5) with
          | none => (clear, rest)
          | some atLeast11 =>
              match readHeaders maxHeaderLineLength maxHeaders (stream.length + 1) rest .empty with
              | (none, rest) => (clear, rest)
              | (some headers, rest) =>
                  (evaluate platform verb resourceName atLeast11 headers, rest)
      | _ => (clear, rest)

end QWebSocketHandshakeRequest

end QtWebApp
