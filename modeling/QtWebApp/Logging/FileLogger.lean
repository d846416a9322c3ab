import QtWebApp.Base.Mutex
import QtWebApp.Base.Run
import QtWebApp.Logging.Logger

/-!
# QtWebApp.Logging.FileLogger

A file logger that is installed as message handler, and the threads that use it.

What the file system and the configuration file answer is part of the event that makes a
thread take its next action. A thread whose next action locks a mutex that it cannot get waits:
the event changes nothing. After `close()` the pointer to the file is null, and where the source
uses it all the same the model goes on as if it could be used, and takes note.

Three mutexes are in play: the recursive one and the non-recursive one of the message handler, and
the one of the logger. A message that the logger produces itself, about a file that cannot be opened
or written, goes through the message handler like any other, since the logger is installed there.
-/

namespace QtWebApp

/-- What `refreshSettings` reads; the file name is already the absolute one. -/
structure LogSettings where
  fileName : Bytes
  maxSize : Int
  minLevel : Int
  bufferSize : Int
  deriving DecidableEq, Repr

/-- `FileLogger`. Of the file one knows whether the pointer is null. -/
structure FileLogger where
  fileName : Bytes
  maxSize : Int
  minLevel : Int
  bufferSize : Int
  file : Bool
  deriving DecidableEq, Repr

/-- Where a message goes. -/
inductive Output
  | file (msg : LogMessage)
  | stderr (msg : LogMessage)
  deriving DecidableEq, Repr

/-- How the world answers an action. -/
structure World where
  /-- The settings in the configuration file. -/
  settings : LogSettings
  /-- Whether the log file can be opened. -/
  opens : Bool
  /-- Whether the log file is in error after writing and flushing. -/
  error : Bool
  /-- What `QFile::errorString` says. -/
  errorString : Bytes
  /-- The size of the log file. -/
  size : Int

/-- The logger, its mutexes, and all threads. -/
structure FileLogger.State where
  logger : FileLogger
  recursiveMutex : RecursiveMutex Nat
  nonRecursiveMutex : Mutex Nat
  mutex : Mutex Nat
  /-- The thread local buffers. -/
  buffers : Nat → List LogMessage
  threads : Nat → List Action
  output : List Output
  /-- `abort()` was called. -/
  aborted : Bool
  /-- The null pointer to the file was used. -/
  usedNull : Bool

namespace FileLogger

/-- `FileLogger::close`. -/
def close (l : FileLogger) : FileLogger := { l with file := false }

/-- The fields `refreshSettings` sets. -/
def load (l : FileLogger) (settings : LogSettings) : FileLogger :=
  { l with
    fileName := settings.fileName
    maxSize := settings.maxSize
    minLevel := settings.minLevel
    bufferSize := settings.bufferSize }

/-- The buffer of a thread after `log` has appended a message, with the size it must not exceed. -/
def appended (bufferSize : Int) (buffer : List LogMessage) (msg : LogMessage) : List LogMessage :=
  let buffer := buffer ++ [msg]
  -- the oldest message makes room
  if buffer.length > bufferSize then buffer.tail else buffer

namespace State

/-- A logger that no thread has called yet. -/
def start (logger : FileLogger) : State where
  logger := logger
  recursiveMutex := .free
  nonRecursiveMutex := .free
  mutex := .free
  buffers := fun _ => []
  threads := fun _ => []
  output := []
  aborted := false
  usedNull := false

/-- What thread `i` has to do. -/
def goOn (s : State) (i : Nat) (actions : List Action) : State :=
  { s with threads := Function.update s.threads i actions }

/-- Set the buffer of thread `i`. -/
def setBuffer (s : State) (i : Nat) (buffer : List LogMessage) : State :=
  { s with buffers := Function.update s.buffers i buffer }

/-- Print a message. -/
def print (s : State) (o : Output) : State := { s with output := s.output ++ [o] }

/-- The pointer to the file is used. -/
def useFile (s : State) : State := { s with usedNull := s.usedNull || !s.logger.file }

/-- `abort()`: no thread is left, and no mutex is locked. -/
def abort (s : State) : State :=
  { s with
    recursiveMutex := .free
    nonRecursiveMutex := .free
    mutex := .free
    threads := fun _ => []
    aborted := true }

/-- `FileLogger::write`. When writing has failed the file is closed and then asked for the error. -/
def write (s : State) (i : Nat) (w : World) (msg : LogMessage) (rest : List Action) : State :=
  if s.logger.file then
    if w.error then
      let s := { s with logger := s.logger.close }.useFile
      s.goOn i (Logger.qWarning (ascii "Cannot write to log file " ++ s.logger.fileName ++
        ascii ": " ++ w.errorString) ++ Action.fallBack msg :: rest)
    else (s.print (.file msg)).goOn i rest
  else s.goOn i (.fallBack msg :: rest)

/-- `FileLogger::open`. -/
def openFile (s : State) (i : Nat) (w : World) (rest : List Action) : State :=
  if s.logger.fileName = [] then
    s.goOn i (Logger.qWarning (ascii "Name of logFile is empty") ++ rest)
  else
    -- the object is created before it is opened, whatever the pointer was
    let s : State := { s with logger := { s.logger with file := true } }
    if w.opens then s.goOn i rest
    else s.goOn i (Logger.qWarning (ascii "Cannot open log file " ++ s.logger.fileName ++
      ascii ": " ++ w.errorString) ++ Action.dropFile :: rest)

/-- The body of `Logger::log`. -/
def log (s : State) (i : Nat) (msg : LogMessage) (rest : List Action) : State :=
  -- a message below the level stays in the buffer, without a buffer it is lost
  if 0 < s.logger.bufferSize then
    (s.setBuffer i (appended s.logger.bufferSize (s.buffers i) msg)).goOn i
      (if s.logger.minLevel ≤ msg.type.toInt then .drain :: rest else rest)
  else s.goOn i (if s.logger.minLevel ≤ msg.type.toInt then .write msg :: rest else rest)

/-- One turn of the loop that prints the buffer. -/
def drain (s : State) (i : Nat) (rest : List Action) : State :=
  match s.buffers i with
  | [] => s.goOn i rest
  | msg :: buffer => (s.setBuffer i buffer).goOn i (.write msg :: .drain :: rest)

/-- The body of `FileLogger::refreshSettings`. -/
def refreshSettings (s : State) (i : Nat) (w : World) (rest : List Action) : State :=
  let loaded := s.logger.load w.settings
  if s.logger.fileName ≠ w.settings.fileName then
    { s with logger := loaded.close }.goOn i (.openFile :: rest)
  else { s with logger := loaded }.goOn i rest

/-- What the flush timer does under the mutex; rotating the backup files cannot fail loudly. -/
def flush (s : State) (i : Nat) (w : World) (rest : List Action) : State :=
  let s := s.useFile
  if 0 < s.logger.maxSize ∧ s.logger.maxSize ≤ w.size then
    { s with logger := s.logger.close }.goOn i (.openFile :: rest)
  else s.goOn i rest

/-- Thread `i` takes an action. -/
def act (s : State) (i : Nat) (w : World) (rest : List Action) : Action → State
  | .lockRecursive =>
      match s.recursiveMutex.tryLock i with
      | some m => { s with recursiveMutex := m }.goOn i rest
      | none => s
  | .tryNonRecursive msg =>
      match s.nonRecursiveMutex.tryLock i with
      | some m => { s with nonRecursiveMutex := m }.goOn i
          (Logger.log msg ++ Action.unlockNonRecursive :: rest)
      -- another thread is inside, or this thread is, which has just logged an error of the logger
      | none => (s.print (.stderr msg)).goOn i rest
  | .unlockNonRecursive => { s with nonRecursiveMutex := .free }.goOn i rest
  | .abortIfFatal type => if type = QtMsgType.QtFatalMsg then s.abort else s.goOn i rest
  | .unlockRecursive => { s with recursiveMutex := s.recursiveMutex.unlock }.goOn i rest
  | .lockMutex =>
      match s.mutex.tryLock i with
      | some m => { s with mutex := m }.goOn i rest
      | none => s
  | .unlockMutex => { s with mutex := .free }.goOn i rest
  | .log msg => s.log i msg rest
  | .drain => s.drain i rest
  | .clear buffer => (if buffer then s.setBuffer i [] else s).goOn i rest
  | .write msg => s.write i w msg rest
  | .fallBack msg => (if s.logger.file then s else s.print (.stderr msg)).goOn i rest
  | .refreshSettings => s.refreshSettings i w rest
  | .openFile => s.openFile i w rest
  | .dropFile => { s with logger := s.logger.close }.goOn i rest
  | .checkFile =>
      -- the pointer is tested before the mutex is locked
      s.goOn i (if s.logger.file then .lockMutex :: .flush :: .unlockMutex :: rest else rest)
  | .flush => s.flush i w rest

end State

/-- What a thread outside the logger can call. -/
inductive Call
  /-- A function of Qt that logs, such as `qDebug`. -/
  | msgHandler (msg : LogMessage)
  | log (msg : LogMessage)
  | clear (buffer : Bool)
  /-- `timerEvent` of the refresh timer. -/
  | refreshTimer
  /-- `timerEvent` of the flush timer. -/
  | flushTimer
  deriving DecidableEq, Repr

/-- What a call has to do. -/
def Call.actions : Call → List Action
  | .msgHandler msg => Logger.msgHandler msg
  | .log msg => Logger.log msg
  | .clear buffer => Logger.clear buffer
  | .refreshTimer => [.lockMutex, .refreshSettings, .unlockMutex]
  | .flushTimer => [.checkFile]

/-- What can happen: a thread that is outside the logger calls it, or a thread inside goes on. -/
inductive Event
  | call (i : Nat) (c : Call)
  | run (i : Nat) (w : World)

/-- The state after an event. -/
def step (s : State) : Event → State
  | .call i c =>
      if s.aborted = false ∧ s.threads i = [] then s.goOn i c.actions else s
  | .run i w =>
      match s.threads i with
      | [] => s
      | a :: rest => s.act i w rest a

end FileLogger

end QtWebApp
