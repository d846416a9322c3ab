import QtWebApp.Base.Containers

/-!
# QtWebApp.HttpServer.TcpSocket

The socket of a connection, as far as the server uses it.

A socket has a state, a read buffer with the bytes that have arrived, and the output the
server has written to it. How much of a block a `write` takes and whether a `flush` gets
rid of everything is up to the network: a `Network` answers these questions by the number
of writes and flushes there were on the connection.

Which slots are connected to the signals of the socket is kept as a list in the order of
the `connect` calls, with repetitions: that is the order in which Qt runs them.
-/

namespace QtWebApp

/-- The states of `QAbstractSocket` that last between two events. -/
inductive SocketState
  | unconnected | connected | closing
  deriving DecidableEq, Repr

/-- The signals of a socket that the server connects to. -/
inductive Signal
  | readyRead | disconnected | encrypted | sslErrors | preSharedKeyAuthenticationRequired
  deriving DecidableEq, Repr

/-- The slots of `HttpConnectionHandler`. -/
inductive Slot
  | read | readHttp | disconnected | encrypted | sslErrors | preSharedKeyAuthenticationRequired
  deriving DecidableEq, Repr

instance : LawfulBEq (Signal × Slot) := Prod.instLawfulBEq

/-- What the network does with the output of one connection. -/
structure Network where
  /-- The `n`-th write takes this many bytes beyond the first, or fails. -/
  accept : Nat → Option Nat
  /-- The `n`-th flush leaves nothing unsent. -/
  drains : Nat → Bool

/-- `QTcpSocket`. -/
structure TcpSocket where
  state : SocketState
  isOpen : Bool
  readBuffer : Bytes
  /-- Everything the socket has taken from `write` on this connection. -/
  written : Bytes
  /-- Some of it has not reached the network yet. -/
  unsent : Bool
  writes : Nat
  flushes : Nat
  encrypted : Bool
  connections : List (Signal × Slot)
  deriving DecidableEq

namespace TcpSocket

/-- A socket that has just been created. -/
def new : TcpSocket where
  state := .unconnected
  isOpen := false
  readBuffer := []
  written := []
  unsent := false
  writes := 0
  flushes := 0
  encrypted := false
  connections := []

/-- `QIODevice::write`: the number of bytes taken, at least one of a non-empty block, or `none`
for the error code. -/
def write (net : Network) (s : TcpSocket) (data : Bytes) : Option Nat × TcpSocket :=
  match net.accept s.writes with
  | none => (none, { s with writes := s.writes + 1 })
  | some more =>
      let taken := data.take (more + 1)
      (some taken.length,
        { s with
          writes := s.writes + 1
          written := s.written ++ taken
          unsent := s.unsent || !taken.isEmpty })

/-- `QAbstractSocket::flush`. -/
def flush (net : Network) (s : TcpSocket) : TcpSocket :=
  { s with flushes := s.flushes + 1, unsent := s.unsent && !net.drains s.flushes }

/-- `QObject::connect`. -/
def connect (s : TcpSocket) (signal : Signal) (slot : Slot) : TcpSocket :=
  { s with connections := s.connections ++ [(signal, slot)] }

/-- `QObject::disconnect` of one signal from one slot: all such connections go. -/
def disconnect (s : TcpSocket) (signal : Signal) (slot : Slot) : TcpSocket :=
  { s with connections := s.connections.filter (· ≠ (signal, slot)) }

/-- `QObject::disconnect(socket, 0, 0, 0)`. -/
def disconnectAll (s : TcpSocket) : TcpSocket := { s with connections := [] }

/-- The slots connected to a signal, in the order in which they run. -/
def slots (s : TcpSocket) (signal : Signal) : List Slot :=
  (s.connections.filter (·.1 = signal)).map Prod.snd

/-- `QIODevice::close`: the device is not open any more and its buffer is empty. -/
def closeDevice (s : TcpSocket) : TcpSocket := { s with isOpen := false, readBuffer := [] }

/-- `QAbstractSocket::setSocketDescriptor` with a good descriptor: a new connection. -/
def setSocketDescriptor (s : TcpSocket) : TcpSocket :=
  { s with
    state := .connected
    isOpen := true
    readBuffer := []
    written := []
    unsent := false
    writes := 0
    flushes := 0
    encrypted := false }

end TcpSocket

end QtWebApp
