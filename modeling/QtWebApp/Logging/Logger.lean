import QtWebApp.Base.Bytes

/-!
# QtWebApp.Logging.Logger

The message handler, and what it asks of a logger.

A thread that is inside the logger is given by the actions it has still to take, the next one
first; a call adds its own actions in front. Locking a mutex is an action of its own, so that
other threads can act between any two of them.

The text of a message is kept as bytes, and its decoration with date, thread and variables is left
out. What is followed is which messages are printed, in which order, and what the threads wait for.
-/

namespace QtWebApp

/-- `QtMsgType`. -/
inductive QtMsgType
  | QtDebugMsg
  | QtWarningMsg
  | QtCriticalMsg
  | QtFatalMsg
  | QtInfoMsg
  deriving DecidableEq, Repr

/-- The number of a message type; levels are compared by it. -/
def QtMsgType.toInt : QtMsgType → Int
  | .QtDebugMsg => 0
  | .QtWarningMsg => 1
  | .QtCriticalMsg => 2
  | .QtFatalMsg => 3
  | .QtInfoMsg => 4

/-- `LogMessage`: its type and its text. -/
structure LogMessage where
  type : QtMsgType
  message : Bytes
  deriving DecidableEq, Repr

/-- What a thread inside the logger does next. -/
inductive Action
  /-- `recursiveMutex.lock()`. -/
  | lockRecursive
  /-- `nonRecursiveMutex.tryLock()`, and then `log` or the output to `stderr`. -/
  | tryNonRecursive (msg : LogMessage)
  | unlockNonRecursive
  | abortIfFatal (type : QtMsgType)
  | unlockRecursive
  /-- `mutex.lock()`. -/
  | lockMutex
  | unlockMutex
  /-- The body of `Logger::log`. -/
  | log (msg : LogMessage)
  /-- The loop of `Logger::log` that prints the whole buffer. -/
  | drain
  /-- The body of `Logger::clear`. -/
  | clear (buffer : Bool)
  /-- `FileLogger::write`. -/
  | write (msg : LogMessage)
  /-- The end of `FileLogger::write`: the fall-back to the super class. -/
  | fallBack (msg : LogMessage)
  /-- The body of `FileLogger::refreshSettings`. -/
  | refreshSettings
  /-- `FileLogger::open`. -/
  | openFile
  /-- `file=0`, after a file that could not be opened. -/
  | dropFile
  /-- The test of the flush timer for a file. -/
  | checkFile
  /-- What the flush timer does under the mutex. -/
  | flush
  deriving DecidableEq, Repr

namespace Logger

/-- `Logger::msgHandler`. -/
def msgHandler (msg : LogMessage) : List Action :=
  [.lockRecursive, .tryNonRecursive msg, .abortIfFatal msg.type, .unlockRecursive]

/-- `Logger::log`. -/
def log (msg : LogMessage) : List Action := [.lockMutex, .log msg, .unlockMutex]

/-- `Logger::clear`. -/
def clear (buffer : Bool) : List Action := [.lockMutex, .clear buffer, .unlockMutex]

/-- `qWarning`, with the message handler installed. A version of Qt that does not call the handler
again while it is running in the same thread prints the text instead. -/
def qWarning (text : Bytes) : List Action := msgHandler ⟨.QtWarningMsg, text⟩

end Logger

end QtWebApp
