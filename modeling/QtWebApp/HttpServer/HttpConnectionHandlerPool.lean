import QtWebApp.HttpServer.HttpConnectionHandler

/-!
# QtWebApp.HttpServer.HttpConnectionHandlerPool

The pool of connection handlers, and the listener that hands connections to it.

A handler runs in a thread of its own. A new connection is passed to it by a queued call of
`handleConnection`, which waits in the event queue of this thread. The handlers lie in a
memory in the order in which they were created; `pool` holds pointers, that is, positions
there. A handler that was deleted leaves a hole, and the calls queued for it are gone.
-/

namespace QtWebApp

/-- The settings of the pool. -/
structure PoolSettings where
  minThreads : Int
  maxThreads : Int

/-- A handler with its event queue: the descriptors of the queued calls of `handleConnection`. -/
structure Worker where
  handler : HttpConnectionHandler
  queue : List Nat

/-- `HttpConnectionHandlerPool`, with the memory its pointers lead to. -/
structure HttpConnectionHandlerPool where
  settings : PoolSettings
  memory : List (Option Worker)
  pool : List Nat

namespace HttpConnectionHandlerPool

/-- The constructor. -/
def new (settings : PoolSettings) : HttpConnectionHandlerPool where
  settings := settings
  memory := []
  pool := []

/-- The handler at an address, if it has not been deleted. -/
def worker (s : HttpConnectionHandlerPool) (a : Nat) : Option Worker := s.memory[a]?.join

/-- Change the handler at an address. -/
def update (s : HttpConnectionHandlerPool) (a : Nat) (f : Worker → Worker) :
    HttpConnectionHandlerPool :=
  { s with memory := s.memory.modify a (Option.map f) }

/-- `isBusy` of the handler at an address. -/
def isBusy (s : HttpConnectionHandlerPool) (a : Nat) : Bool :=
  (s.worker a).any fun w => w.handler.isBusy

/-- `HttpConnectionHandlerPool::getConnectionHandler`: a free handler, or a new one when there may
be one more. -/
def getConnectionHandler (s : HttpConnectionHandlerPool) :
    Option Nat × HttpConnectionHandlerPool :=
  match s.pool.find? fun a => !s.isBusy a with
  | some a => (some a, s.update a fun w => { w with handler := w.handler.setBusy })
  | none =>
      if (s.pool.length : Int) < s.settings.maxThreads then
        (some s.memory.length,
          { s with
            memory := s.memory ++ [some ⟨HttpConnectionHandler.new.setBusy, []⟩]
            pool := s.pool ++ [s.memory.length] })
      else (none, s)

/-- The loop of `cleanup`: the handler that is going to be deleted. -/
def surplus (s : HttpConnectionHandlerPool) : Int → List Nat → Option Nat
  | _, [] => none
  | idleCounter, a :: rest =>
      if s.isBusy a then s.surplus idleCounter rest
      else if idleCounter + 1 > s.settings.minThreads then some a
      else s.surplus (idleCounter + 1) rest

/-- `HttpConnectionHandlerPool::cleanup`. -/
def cleanup (s : HttpConnectionHandlerPool) : HttpConnectionHandlerPool :=
  match s.surplus 0 s.pool with
  -- only one handler is deleted each time
  | some a => { s with memory := s.memory.set a none, pool := s.pool.erase a }
  | none => s

/-- `HttpListener::incomingConnection`: the connection is queued for a handler; without one it is
refused, and no address is returned. -/
def incomingConnection (s : HttpConnectionHandlerPool) (socketDescriptor : Nat) :
    Option Nat × HttpConnectionHandlerPool :=
  match s.getConnectionHandler with
  | (some a, s) => (some a, s.update a fun w => { w with queue := w.queue ++ [socketDescriptor] })
  | (none, s) => (none, s)

/-- The next queued call of `handleConnection` is delivered to its handler; `good` tells whether the
socket takes the descriptor. -/
def deliver (server : Server) (good : Bool) (w : Worker) : Worker :=
  match w.queue with
  | [] => w
  | _ :: queue => ⟨w.handler.handleConnection server good, queue⟩

end HttpConnectionHandlerPool

end QtWebApp
