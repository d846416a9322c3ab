import Mathlib.Data.List.DropRight
import QtWebApp.Logging.FileLogger

/-!
# QtWebApp.Logging.Buffer

What the buffers of the logger make of the messages.

The purpose of the buffer is stated for one thread alone (`printed`): a message that is important
enough prints the last messages of its thread, the others wait. The logger prints message by
message while other threads act in between, so the two are compared by what a thread still owes
(`Owes`): the messages it has printed and those it owes are what its calls so far ask for.

The calls of a thread count in the order in which they get the mutex. A thread that has the mutex is
served before it gives it back, so at any time at most one call is half done.
-/

namespace QtWebApp

/-- A call that reaches the buffer of a thread. -/
inductive BufferCall
  | log (msg : LogMessage)
  | clear (buffer : Bool)
  deriving DecidableEq, Repr

namespace FileLogger

open State

/-! ### What the buffer is for -/

section Purpose

variable (size : Nat) (minLevel : Int)

/-- What a message prints that is important enough, after the messages `since` the last one. -/
def flushed (since : List LogMessage) (msg : LogMessage) : List LogMessage :=
  if size = 0 then [msg] else (since ++ [msg]).rtake size

/-- The messages that wait after a call, without a limit to their number. -/
def waiting (since : List LogMessage) : BufferCall → List LogMessage
  | .log msg => if minLevel ≤ msg.type.toInt then [] else since ++ [msg]
  | .clear buffer => if buffer then [] else since

/-- What a call prints. -/
def printedBy (since : List LogMessage) : BufferCall → List LogMessage
  | .log msg => if minLevel ≤ msg.type.toInt then flushed size since msg else []
  | .clear _ => []

/-- What the calls of a thread print, one after the other. -/
def printed : List LogMessage → List BufferCall → List LogMessage
  | _, [] => []
  | since, c :: calls => printedBy size minLevel since c ++ printed (waiting minLevel since c) calls

/-- The messages that wait after some calls. -/
def waitingAfter (calls : List BufferCall) : List LogMessage := calls.foldl (waiting minLevel) []

variable {size} {minLevel}

/-- What calls print after some others have been made. -/
theorem printed_append (since : List LogMessage) (calls calls' : List BufferCall) :
    printed size minLevel since (calls ++ calls') =
      printed size minLevel since calls ++
        printed size minLevel (calls.foldl (waiting minLevel) since) calls' := by
  induction calls generalizing since with
  | nil => rfl
  | cons c calls ih =>
      rw [List.cons_append, printed, printed, ih, List.append_assoc, List.foldl_cons]

/-- One more call. -/
theorem printed_concat (calls : List BufferCall) (c : BufferCall) :
    printed size minLevel [] (calls ++ [c]) =
      printed size minLevel [] calls ++ printedBy size minLevel
        (waitingAfter minLevel calls) c := by
  rw [printed_append, printed, printed, List.append_nil]
  rfl

theorem waitingAfter_concat (calls : List BufferCall) (c : BufferCall) :
    waitingAfter minLevel (calls ++ [c]) = waiting minLevel (waitingAfter minLevel calls) c := by
  rw [waitingAfter, List.foldl_append]
  rfl

end Purpose

/-! ### The ring buffer

The source deletes one message at a time. That is enough as long as the size does not change: a
buffer that was not too long is at most one message too long. -/

/-- A buffer that holds the last messages of a list holds the last ones after one more, too. -/
theorem appended_rtake {bufferSize : Int} (hsize : 0 < bufferSize) (since : List LogMessage)
    (msg : LogMessage) :
    appended bufferSize (since.rtake bufferSize.toNat) msg =
      (since ++ [msg]).rtake bufferSize.toNat := by
  obtain ⟨n, hn⟩ : ∃ n : Nat, bufferSize = n + 1 := ⟨bufferSize.toNat - 1, by omega⟩
  subst hn
  have hnat : ((n : Int) + 1).toNat = n + 1 := by omega
  simp only [appended, List.rtake, hnat, List.length_append, List.length_drop, List.length_cons,
    List.length_nil]
  split
  · next hfull =>
      -- the buffer was full, so it loses its oldest message
      have hmore : since.length - (n + 1) + 1 = since.length + 1 - (n + 1) := by omega
      rw [← hmore, List.tail_append_of_ne_nil, List.tail_drop, List.drop_append_of_le_length]
      · omega
      · intro hnil
        have hlen := congrArg List.length hnil
        simp at hlen
        omega
  · next hroom =>
      have hfits : since.length ≤ n := by omega
      have hzero : since.length + 1 - (n + 1) = 0 := by omega
      have hzero' : since.length - (n + 1) = 0 := by omega
      rw [hzero, hzero', List.drop_zero, List.drop_zero]

theorem rtake_length_le (n : Nat) (l : List LogMessage) : (l.rtake n).length ≤ n := by
  rw [List.rtake, List.length_drop]
  omega

/-! ### What a thread does to its own buffer

The buffers are thread local, and the mutex is the only thing that ties the threads to each other.
So an action is described by what it does to the view of its own thread (`Moves`). The actions that
have nothing to do with the buffer, such as printing an error, are called inert. -/

/-- The call that an action carries out. -/
def bufferCall : Action → Option BufferCall
  | .log msg => some (.log msg)
  | .clear buffer => some (.clear buffer)
  | _ => none

/-- The calls of a thread that have still to get the mutex. -/
def pending (actions : List Action) : List BufferCall := actions.filterMap bufferCall

/-- What a thread knows of itself: whether it has the mutex, its buffer, and what it has to do. -/
structure View where
  held : Bool
  buffer : List LogMessage
  actions : List Action

/-- The view of thread `i`. -/
def view (s : State) (i : Nat) : View := ⟨s.mutex.held i, s.buffers i, s.threads i⟩

/-- Actions that concern neither the mutex nor the buffer. -/
def inert : Action → Bool
  | .lockMutex | .unlockMutex | .log _ | .drain | .clear _ | .write _ => false
  | _ => true

/-- What an action of a thread changes in its own view, which call it makes, and which message it
passes to `write`. -/
inductive Moves (bufferSize minLevel : Int) :
    View → List BufferCall → List LogMessage → View → Prop
  | wait (v : View) : Moves bufferSize minLevel v [] [] v
  | lock (buffer : List LogMessage) (rest : List Action) :
      Moves bufferSize minLevel ⟨false, buffer, .lockMutex :: rest⟩ [] [] ⟨true, buffer, rest⟩
  | unlock (buffer : List LogMessage) (rest : List Action) :
      Moves bufferSize minLevel ⟨true, buffer, .unlockMutex :: rest⟩ [] [] ⟨false, buffer, rest⟩
  /-- The handler calls `log`. -/
  | handler (held : Bool) (buffer : List LogMessage) (msg : LogMessage) (rest : List Action) :
      Moves bufferSize minLevel ⟨held, buffer, .tryNonRecursive msg :: rest⟩ [.log msg] []
        ⟨held, buffer, Logger.log msg ++ .unlockNonRecursive :: rest⟩
  /-- The flush timer has found a file. -/
  | timer (held : Bool) (buffer : List LogMessage) (rest : List Action) :
      Moves bufferSize minLevel ⟨held, buffer, .checkFile :: rest⟩ [] []
        ⟨held, buffer, .lockMutex :: .flush :: .unlockMutex :: rest⟩
  | log (held : Bool) (buffer : List LogMessage) (msg : LogMessage) (rest : List Action)
      (hsize : 0 < bufferSize) :
      Moves bufferSize minLevel ⟨held, buffer, .log msg :: rest⟩ [] []
        ⟨held, appended bufferSize buffer msg,
          if minLevel ≤ msg.type.toInt then .drain :: rest else rest⟩
  | logUnbuffered (held : Bool) (buffer : List LogMessage) (msg : LogMessage) (rest : List Action)
      (hsize : ¬ 0 < bufferSize) :
      Moves bufferSize minLevel ⟨held, buffer, .log msg :: rest⟩ [] []
        ⟨held, buffer, if minLevel ≤ msg.type.toInt then .write msg :: rest else rest⟩
  | drained (held : Bool) (rest : List Action) :
      Moves bufferSize minLevel ⟨held, [], .drain :: rest⟩ [] [] ⟨held, [], rest⟩
  | drain (held : Bool) (msg : LogMessage) (buffer : List LogMessage) (rest : List Action) :
      Moves bufferSize minLevel ⟨held, msg :: buffer, .drain :: rest⟩ [] []
        ⟨held, buffer, .write msg :: .drain :: rest⟩
  | clear (held cleared : Bool) (buffer : List LogMessage) (rest : List Action) :
      Moves bufferSize minLevel ⟨held, buffer, .clear cleared :: rest⟩ [] []
        ⟨held, if cleared then [] else buffer, rest⟩
  | write (held : Bool) (buffer : List LogMessage) (msg : LogMessage) (new rest : List Action)
      (hnew : ∀ a ∈ new, inert a = true) :
      Moves bufferSize minLevel ⟨held, buffer, .write msg :: rest⟩ [] [msg]
        ⟨held, buffer, new ++ rest⟩
  | skip (held : Bool) (buffer : List LogMessage) (a : Action) (new rest : List Action)
      (ha : inert a = true) (hnew : ∀ a ∈ new, inert a = true) :
      Moves bufferSize minLevel ⟨held, buffer, a :: rest⟩ [] [] ⟨held, buffer, new ++ rest⟩

/-- The calls of `log` and `clear` that an event makes thread `i` make: its own, and those of the
message handler that it has called. -/
def calls (i : Nat) (s : State) : Event → List BufferCall
  | .call j c => if j = i ∧ s.aborted = false ∧ s.threads i = [] then pending c.actions else []
  | .run j _ =>
      match s.threads j with
      | .tryNonRecursive msg :: _ =>
          if j = i ∧ s.nonRecursiveMutex.owner = none then [.log msg] else []
      | _ => []

/-- The message that an event makes thread `i` pass to `write`. -/
def writes (i : Nat) (s : State) : Event → List LogMessage
  | .call _ _ => []
  | .run j _ =>
      match s.threads j with
      | .write msg :: _ => if j = i then [msg] else []
      | _ => []

/-! ### What an action changes

Each action of the source is one of the moves, and nobody else notices. `Acts.act` says so for all
of them; what follows speaks of moves only. -/

/-- Thread `i` has acted, and left the other threads alone. -/
structure Acts (bufferSize minLevel : Int) (s t : State) (i : Nat) (cs : List BufferCall)
    (ws : List LogMessage) : Prop where
  own : Moves bufferSize minLevel (view s i) cs ws (view t i)
  others : ∀ j, j ≠ i → view t j = view s j
  aborted : t.aborted = s.aborted

section Acts

variable {bufferSize minLevel : Int} {s t : State} {i : Nat} {w : World}
  {rest actions : List Action}
  {cs : List BufferCall} {ws : List LogMessage}

/-- The thread waits. -/
theorem Acts.wait : Acts bufferSize minLevel s s i [] [] :=
  ⟨.wait _, fun _ _ => rfl, rfl⟩

@[simp] theorem view_goOn (s : State) (i : Nat) (actions : List Action) :
    view (s.goOn i actions) i = ⟨s.mutex.held i, s.buffers i, actions⟩ := by
  simp only [view, goOn, Function.update_self]

theorem view_goOn_of_ne {i j : Nat} (hij : i ≠ j) (s : State) (actions : List Action) :
    view (s.goOn j actions) i = view s i := by
  simp only [view, goOn, Function.update_of_ne hij]

/-- Thread `i` goes on, and may have changed its buffer and its hold of the mutex. -/
theorem Acts.goOn (hthreads : t.threads = s.threads) (haborted : t.aborted = s.aborted)
    (hothers : ∀ j, j ≠ i → t.mutex.held j = s.mutex.held j ∧ t.buffers j = s.buffers j)
    (hown : Moves bufferSize minLevel (view s i) cs ws ⟨t.mutex.held i, t.buffers i, actions⟩) :
    Acts bufferSize minLevel s (t.goOn i actions) i cs ws := by
  refine ⟨?_, fun j hj => ?_, haborted⟩
  · rw [view_goOn]
    exact hown
  · obtain ⟨hheld, hbuffer⟩ := hothers j hj
    rw [view_goOn_of_ne hj, view, view, hthreads, hheld, hbuffer]

/-- Thread `i` goes on, and has changed neither mutex nor buffers. -/
theorem Acts.goOn_same (hthreads : t.threads = s.threads) (haborted : t.aborted = s.aborted)
    (hmutex : t.mutex = s.mutex) (hbuffers : t.buffers = s.buffers)
    (hown : Moves bufferSize minLevel (view s i) cs ws ⟨s.mutex.held i, s.buffers i, actions⟩) :
    Acts bufferSize minLevel s (t.goOn i actions) i cs ws := by
  refine Acts.goOn hthreads haborted (fun j _ => ?_) ?_
  · rw [hmutex, hbuffers]
    exact ⟨rfl, rfl⟩
  · rw [hmutex, hbuffers]
    exact hown

/-- Thread `i` has only set its buffer. -/
theorem Acts.setBuffer {buffer : List LogMessage}
    (hown : Moves bufferSize minLevel (view s i) cs ws ⟨s.mutex.held i, buffer, actions⟩) :
    Acts bufferSize minLevel s ((s.setBuffer i buffer).goOn i actions) i cs ws := by
  refine Acts.goOn rfl rfl (fun j hj => ⟨rfl, Function.update_of_ne hj _ _⟩) ?_
  show Moves bufferSize minLevel (view s i) cs ws
    ⟨s.mutex.held i, Function.update s.buffers i buffer i, actions⟩
  rw [Function.update_self]
  exact hown

theorem view_eq {a : Action} (hi : s.threads i = a :: rest) :
    view s i = ⟨s.mutex.held i, s.buffers i, a :: rest⟩ := by
  rw [view, hi]

/-- An inert action, after which the thread has other inert actions to do first. -/
theorem Acts.skip {a : Action} (hi : s.threads i = a :: rest) (new : List Action)
    (hthreads : t.threads = s.threads) (haborted : t.aborted = s.aborted)
    (hmutex : t.mutex = s.mutex) (hbuffers : t.buffers = s.buffers)
    (ha : inert a = true) (hnew : ∀ b ∈ new, inert b = true) :
    Acts bufferSize minLevel s (t.goOn i (new ++ rest)) i [] [] := by
  refine Acts.goOn_same hthreads haborted hmutex hbuffers ?_
  rw [view_eq hi]
  exact .skip _ _ a new rest ha hnew

theorem inert_qWarning (text : Bytes) (more : List Action)
    (h : ∀ a ∈ more, inert a = true) :
    ∀ a ∈ Logger.qWarning text ++ more, inert a = true := by
  have hhandler : ∀ a ∈ Logger.qWarning text, inert a = true := by
    simp [Logger.qWarning, Logger.msgHandler, inert]
  exact List.forall_mem_append.mpr ⟨hhandler, h⟩

theorem Acts.write {msg : LogMessage} (hi : s.threads i = .write msg :: rest) :
    Acts bufferSize minLevel s (s.write i w msg rest) i [] [msg] := by
  have hown : ∀ new : List Action, (∀ a ∈ new, inert a = true) →
      Moves bufferSize minLevel (view s i) [] [msg] ⟨s.mutex.held i, s.buffers i, new ++ rest⟩ := by
    intro new hnew
    rw [view_eq hi]
    exact .write _ _ msg new rest hnew
  have hfallBack : ∀ a ∈ [Action.fallBack msg], inert a = true := List.forall_mem_singleton.mpr rfl
  rw [State.write]
  split
  · split
    · refine Acts.goOn_same rfl rfl rfl rfl ?_
      have hmoves := hown _
          (inert_qWarning (ascii "Cannot write to log file " ++ s.logger.fileName ++
        ascii ": " ++ w.errorString) [Action.fallBack msg] hfallBack)
      rw [List.append_assoc] at hmoves
      exact hmoves
    · exact Acts.goOn_same rfl rfl rfl rfl (hown [] (List.forall_mem_nil _))
  · exact Acts.goOn_same rfl rfl rfl rfl (hown [.fallBack msg] hfallBack)

theorem Acts.openFile (hi : s.threads i = .openFile :: rest) :
    Acts bufferSize minLevel s (s.openFile i w rest) i [] [] := by
  rw [State.openFile]
  split
  · have hnew := inert_qWarning (ascii "Name of logFile is empty") []
      (List.forall_mem_nil _)
    rw [List.append_nil] at hnew
    exact Acts.skip hi _ rfl rfl rfl rfl rfl hnew
  · dsimp only
    split
    · exact Acts.skip hi [] rfl rfl rfl rfl rfl (List.forall_mem_nil _)
    · have hnew := inert_qWarning (ascii "Cannot open log file " ++ s.logger.fileName ++
        ascii ": " ++ w.errorString) [Action.dropFile] (List.forall_mem_singleton.mpr rfl)
      rw [List.append_cons]
      exact Acts.skip hi _ rfl rfl rfl rfl rfl hnew

theorem Acts.log {msg : LogMessage} (hi : s.threads i = .log msg :: rest)
    (hsize : s.logger.bufferSize = bufferSize) (hlevel : s.logger.minLevel = minLevel) :
    Acts bufferSize minLevel s (s.log i msg rest) i [] [] := by
  rw [State.log, hsize, hlevel]
  split
  · next hpos =>
      refine Acts.setBuffer ?_
      rw [view_eq hi]
      exact .log _ _ msg rest hpos
  · next hpos =>
      refine Acts.goOn_same rfl rfl rfl rfl ?_
      rw [view_eq hi]
      exact .logUnbuffered _ _ msg rest hpos

theorem Acts.drain (hi : s.threads i = .drain :: rest) :
    Acts bufferSize minLevel s (s.drain i rest) i [] [] := by
  have hview := view_eq hi
  rw [State.drain]
  cases hbuffer : s.buffers i with
  | nil =>
      rw [hbuffer] at hview
      refine Acts.goOn_same rfl rfl rfl rfl ?_
      rw [hview, hbuffer]
      exact .drained _ rest
  | cons msg buffer =>
      rw [hbuffer] at hview
      refine Acts.setBuffer ?_
      rw [hview]
      exact .drain _ msg buffer rest

/-- Locking the mutex works, or the thread waits. -/
theorem Acts.lockMutex (hi : s.threads i = .lockMutex :: rest) :
    Acts bufferSize minLevel s (s.act i w rest .lockMutex) i [] [] := by
  rw [State.act]
  cases hlock : s.mutex.tryLock i with
  | none => exact Acts.wait
  | some m =>
      obtain ⟨hfree, rfl⟩ := Mutex.tryLock_some hlock
      refine Acts.goOn rfl rfl (fun j hj => ⟨?_, rfl⟩) ?_
      · rw [hfree, Mutex.held_owned, decide_eq_false (Ne.symm hj)]
        rfl
      · show Moves _ _ _ _ _ ⟨Mutex.held ⟨some i⟩ i, _, _⟩
        rw [view_eq hi, hfree, Mutex.held_free, Mutex.held_owned, decide_eq_true rfl]
        exact .lock _ rest

theorem Acts.unlockMutex (hi : s.threads i = .unlockMutex :: rest) (hheld : s.mutex.held i = true) :
    Acts bufferSize minLevel s (s.act i w rest .unlockMutex) i [] [] := by
  refine Acts.goOn rfl rfl (fun j hj => ⟨?_, rfl⟩) ?_
  · rw [Mutex.held_free, Mutex.held_other hheld hj]
  · rw [view_eq hi, hheld]
    exact .unlock _ rest

/-- The message handler calls `log`, or prints to `stderr`. -/
theorem Acts.tryNonRecursive {msg : LogMessage} (hi : s.threads i = .tryNonRecursive msg :: rest) :
    Acts bufferSize minLevel s (s.act i w rest (.tryNonRecursive msg)) i
      (if s.nonRecursiveMutex.owner = none then [.log msg] else []) [] := by
  by_cases hfree : s.nonRecursiveMutex.owner = none
  · rw [State.act, Mutex.tryLock, if_pos hfree, if_pos hfree]
    refine Acts.goOn_same rfl rfl rfl rfl ?_
    rw [view_eq hi]
    exact .handler _ _ msg rest
  · rw [State.act, Mutex.tryLock, if_neg hfree, if_neg hfree]
    exact Acts.skip hi [] rfl rfl rfl rfl rfl (List.forall_mem_nil _)

/-- **What an action does**: it moves its own thread, or ends the program. -/
theorem Acts.act {a : Action} (hi : s.threads i = a :: rest)
    (hsize : s.logger.bufferSize = bufferSize) (hlevel : s.logger.minLevel = minLevel)
    (hheld : a = .unlockMutex → s.mutex.held i = true) :
    (s.act i w rest a = s.abort ∧ calls i s (.run i w) = [] ∧ writes i s (.run i w) = []) ∨
      Acts bufferSize minLevel s (s.act i w rest a) i (calls i s (.run i w))
        (writes i s (.run i w)) := by
  have hnothing : ∀ a ∈ ([] : List Action), inert a = true := List.forall_mem_nil _
  have hopen : ∀ a ∈ [Action.openFile], inert a = true := List.forall_mem_singleton.mpr rfl
  rw [calls, writes, hi]
  cases a with
  -- the mutex of the logger
  | lockMutex => exact .inr (Acts.lockMutex hi)
  | unlockMutex => exact .inr (Acts.unlockMutex hi (hheld rfl))
  -- the buffer
  | log msg => exact .inr (Acts.log hi hsize hlevel)
  | drain => exact .inr (Acts.drain hi)
  | clear cleared =>
      refine .inr ?_
      cases cleared with
      | true =>
          refine Acts.setBuffer ?_
          rw [view_eq hi]
          exact .clear _ true _ rest
      | false =>
          refine Acts.goOn_same rfl rfl rfl rfl ?_
          rw [view_eq hi]
          exact .clear _ false _ rest
  | write msg =>
      refine .inr ?_
      simp only [if_true]
      exact Acts.write hi
  -- the message handler
  | tryNonRecursive msg =>
      refine .inr ?_
      simp only [true_and]
      exact Acts.tryNonRecursive hi
  | abortIfFatal type =>
      rw [State.act]
      split
      · exact .inl ⟨rfl, rfl, rfl⟩
      · exact .inr (Acts.skip hi [] rfl rfl rfl rfl rfl hnothing)
  | lockRecursive =>
      refine .inr ?_
      rw [State.act]
      split
      · exact Acts.skip hi [] rfl rfl rfl rfl rfl hnothing
      · exact Acts.wait
  | unlockNonRecursive => exact .inr (Acts.skip hi [] rfl rfl rfl rfl rfl hnothing)
  | unlockRecursive => exact .inr (Acts.skip hi [] rfl rfl rfl rfl rfl hnothing)
  -- the file
  | fallBack msg =>
      refine .inr ?_
      rw [State.act]
      split
      · exact Acts.skip hi [] rfl rfl rfl rfl rfl hnothing
      · exact Acts.skip hi [] rfl rfl rfl rfl rfl hnothing
  | refreshSettings =>
      refine .inr ?_
      rw [State.act, State.refreshSettings]
      split
      · exact Acts.skip hi [.openFile] rfl rfl rfl rfl rfl hopen
      · exact Acts.skip hi [] rfl rfl rfl rfl rfl hnothing
  | openFile => exact .inr (Acts.openFile hi)
  | dropFile => exact .inr (Acts.skip hi [] rfl rfl rfl rfl rfl hnothing)
  | checkFile =>
      refine .inr ?_
      rw [State.act]
      cases s.logger.file with
      | true =>
          refine Acts.goOn_same rfl rfl rfl rfl ?_
          rw [view_eq hi]
          exact .timer _ _ rest
      | false => exact Acts.skip hi [] rfl rfl rfl rfl rfl hnothing
  | flush =>
      refine .inr ?_
      rw [State.act, State.flush]
      split
      · exact Acts.skip hi [.openFile] rfl rfl rfl rfl rfl hopen
      · exact Acts.skip hi [] rfl rfl rfl rfl rfl hnothing

end Acts

/-! ### What a thread owes

Between the message that triggers and the end of the call, the thread still has messages to print.
They are known beforehand, since nobody else can touch its buffer. -/

/-- A thread that prints nothing but what its next call of `log` makes it print; while it waits for
a mutex that it has already, it does nothing at all. -/
def Quiet (held : Bool) : List Action → Prop
  | [] => held = false
  | .lockMutex :: rest => held = true ∨ Quiet true rest
  | .unlockMutex :: rest => held = true ∧ pending rest = [] ∧ Quiet false rest
  | .log _ :: rest | .clear _ :: rest => held = true ∧ pending rest = [] ∧ Quiet held rest
  | .write _ :: _ | .drain :: _ => False
  | .lockRecursive :: rest | .tryNonRecursive _ :: rest | .unlockNonRecursive :: rest
  | .abortIfFatal _ :: rest | .unlockRecursive :: rest | .fallBack _ :: rest
  | .refreshSettings :: rest | .openFile :: rest | .dropFile :: rest | .checkFile :: rest
  | .flush :: rest => pending rest = [] ∧ Quiet held rest

/-- What a thread will print before it gives the mutex back, and what is left in its buffer then. -/
inductive Owes (held : Bool) (buffer : List LogMessage) :
    List Action → List LogMessage → List LogMessage → Prop
  | quiet {rest : List Action} (h : Quiet held rest) : Owes held buffer rest [] buffer
  | drain {rest : List Action} (hheld : held = true) (hpending : pending rest = [])
      (h : Quiet held rest) : Owes held buffer (.drain :: rest) buffer []
  | write {msg : LogMessage} {rest : List Action} {owed left : List LogMessage}
      (hheld : held = true)
      (hpending : pending rest = []) (h : Owes held buffer rest owed left) :
      Owes held buffer (.write msg :: rest) (msg :: owed) left
  | skip {a : Action} {rest : List Action} {owed left : List LogMessage} (hheld : held = true)
      (ha : inert a = true) (hpending : pending rest = []) (h : Owes held buffer rest owed left) :
      Owes held buffer (a :: rest) owed left
  /-- It waits for a mutex that it has already. -/
  | stuck {rest : List Action} {owed left : List LogMessage} (hheld : held = true) :
      Owes held buffer (.lockMutex :: rest) owed left

section Owes

variable {held : Bool} {buffer owed left : List LogMessage} {a : Action} {new rest : List Action}

/-- An inert action can be taken off the front. -/
theorem quiet_inert (ha : inert a = true) :
    Quiet held (a :: rest) ↔ pending rest = [] ∧ Quiet held rest := by
  cases a <;> first | exact Iff.rfl | cases ha

/-- An inert action is no call of the buffer. -/
theorem pending_inert (ha : inert a = true) : pending (a :: rest) = pending rest := by
  cases a <;> first | rfl | cases ha

theorem pending_append_inert (hnew : ∀ a ∈ new, inert a = true) :
    pending (new ++ rest) = pending rest := by
  induction new with
  | nil => rfl
  | cons a new ih =>
      obtain ⟨ha, hnew'⟩ := List.forall_mem_cons.mp hnew
      rw [List.cons_append, pending_inert ha]
      exact ih hnew'

theorem Quiet.append_inert (hnew : ∀ a ∈ new, inert a = true) (hpending : pending rest = [])
    (h : Quiet held rest) : Quiet held (new ++ rest) := by
  induction new with
  | nil => exact h
  | cons a new ih =>
      obtain ⟨ha, hnew'⟩ := List.forall_mem_cons.mp hnew
      rw [List.cons_append, quiet_inert ha, pending_append_inert hnew']
      exact ⟨hpending, ih hnew'⟩

/-- A thread without the mutex owes nothing. -/
theorem Owes.of_free (h : Owes false buffer rest owed left) :
    Quiet false rest ∧ owed = [] ∧ left = buffer := by
  cases h with
  | quiet h => exact ⟨h, rfl, rfl⟩
  | drain hheld => cases hheld
  | write hheld => cases hheld
  | skip hheld => cases hheld
  | stuck hheld => cases hheld

theorem Owes.append_inert (hnew : ∀ a ∈ new, inert a = true) (hpending : pending rest = [])
    (h : Owes held buffer rest owed left) : Owes held buffer (new ++ rest) owed left := by
  cases held with
  | false =>
      obtain ⟨hquiet, rfl, rfl⟩ := h.of_free
      exact .quiet (hquiet.append_inert hnew hpending)
  | true =>
      induction new with
      | nil => exact h
      | cons a new ih =>
          obtain ⟨ha, hnew'⟩ := List.forall_mem_cons.mp hnew
          have hnothing : pending (new ++ rest) = [] := (pending_append_inert hnew').trans hpending
          exact .skip rfl ha hnothing (ih hnew')

/-- What a thread owes when its next action is inert. -/
theorem Owes.of_inert (ha : inert a = true) (h : Owes held buffer (a :: rest) owed left) :
    pending rest = [] ∧ Owes held buffer rest owed left := by
  cases h with
  | quiet h =>
      obtain ⟨hpending, hrest⟩ := (quiet_inert ha).mp h
      exact ⟨hpending, .quiet hrest⟩
  | skip _ _ hpending h => exact ⟨hpending, h⟩
  | drain => cases ha
  | write => cases ha
  | stuck => cases ha

end Owes

/-! ### The invariant

There is one lemma for each kind of action, and `Served.moves` puts them together. -/

/-- What a thread has printed and what it owes is what its calls ask for that got the mutex; what is
left in its buffer are the last messages that wait. -/
structure Served (bufferSize minLevel : Int) (called : List BufferCall) (written : List LogMessage)
    (held : Bool) (buffer : List LogMessage) (actions : List Action) : Prop where
  intro ::
  account : ∃ done owed left, done ++ pending actions = called ∧
    Owes held buffer actions owed left ∧
    written ++ owed = printed bufferSize.toNat minLevel [] done ∧
    left = (waitingAfter minLevel done).rtake bufferSize.toNat
  size : buffer.length ≤ bufferSize.toNat

section Served

variable {bufferSize minLevel : Int} {called cs : List BufferCall} {written ws : List LogMessage}
  {held : Bool} {buffer : List LogMessage} {rest new : List Action}

/-- An important message is appended to the buffer, which is printed next; another one waits. -/
theorem Served.log {msg : LogMessage}
    (h : Served bufferSize minLevel called written held buffer (.log msg :: rest))
    (hsize : 0 < bufferSize) :
    Served bufferSize minLevel called written held (appended bufferSize buffer msg)
      (if minLevel ≤ msg.type.toInt then .drain :: rest else rest) := by
  obtain ⟨⟨done, owed, left, hcalled, howes, hwritten, hleft⟩, -⟩ := h
  cases howes with
  | skip _ ha => cases ha
  | quiet hlog =>
      obtain ⟨hheld, hpending, hquiet⟩ := hlog
      have happended : appended bufferSize buffer msg =
          (waitingAfter minLevel done ++ [msg]).rtake bufferSize.toNat := by
        rw [hleft]
        exact appended_rtake hsize _ msg
      have hcalled' : done ++ [.log msg] ++ pending rest = called := by
        rw [List.append_assoc]
        exact hcalled
      rw [List.append_nil] at hwritten
      refine ⟨⟨done ++ [.log msg], ?_⟩, ?_⟩
      · by_cases hlevel : minLevel ≤ msg.type.toInt
        · -- the whole buffer is owed
          rw [if_pos hlevel]
          refine ⟨_, [], hcalled', .drain hheld hpending hquiet, ?_, ?_⟩
          · have hpos : bufferSize.toNat ≠ 0 := by omega
            rw [hwritten, printed_concat, printedBy, if_pos hlevel, flushed, if_neg hpos, happended]
          · rw [waitingAfter_concat, waiting, if_pos hlevel, List.rtake_nil]
        · rw [if_neg hlevel]
          refine ⟨[], _, hcalled', .quiet hquiet, ?_, ?_⟩
          · rw [hwritten, printed_concat, printedBy, if_neg hlevel]
          · rw [waitingAfter_concat, waiting, if_neg hlevel]
            exact happended
      · rw [happended]
        exact rtake_length_le _ _

/-- Without a buffer an important message is printed at once, another one is lost. -/
theorem Served.logUnbuffered {msg : LogMessage}
    (h : Served bufferSize minLevel called written held buffer (.log msg :: rest))
    (hsize : ¬ 0 < bufferSize) :
    Served bufferSize minLevel called written held buffer
      (if minLevel ≤ msg.type.toInt then .write msg :: rest else rest) := by
  obtain ⟨⟨done, owed, left, hcalled, howes, hwritten, hleft⟩, hroom⟩ := h
  have hzero : bufferSize.toNat = 0 := by omega
  cases howes with
  | skip _ ha => cases ha
  | quiet hlog =>
      obtain ⟨hheld, hpending, hquiet⟩ := hlog
      have hcalled' : done ++ [.log msg] ++ pending rest = called := by
        rw [List.append_assoc]
        exact hcalled
      rw [List.append_nil] at hwritten
      rw [hzero, List.rtake_zero] at hleft
      refine ⟨⟨done ++ [.log msg], ?_⟩, hroom⟩
      by_cases hlevel : minLevel ≤ msg.type.toInt
      · rw [if_pos hlevel]
        refine ⟨[msg], buffer, hcalled', .write hheld hpending (.quiet hquiet), ?_, ?_⟩
        · rw [hwritten, printed_concat, printedBy, if_pos hlevel, flushed, if_pos hzero]
        · rw [hzero, List.rtake_zero, hleft]
      · rw [if_neg hlevel]
        refine ⟨[], buffer, hcalled', .quiet hquiet, ?_, ?_⟩
        · rw [hwritten, printed_concat, printedBy, if_neg hlevel]
        · rw [hzero, List.rtake_zero, hleft]

theorem Served.clear {cleared : Bool}
    (h : Served bufferSize minLevel called written held buffer (.clear cleared :: rest)) :
    Served bufferSize minLevel called written held (if cleared then [] else buffer) rest := by
  obtain ⟨⟨done, owed, left, hcalled, howes, hwritten, hleft⟩, hroom⟩ := h
  cases howes with
  | skip _ ha => cases ha
  | quiet hclear =>
      obtain ⟨-, hpending, hquiet⟩ := hclear
      rw [List.append_nil] at hwritten
      refine ⟨⟨done ++ [.clear cleared], [], _, ?_, .quiet hquiet, ?_, ?_⟩, ?_⟩
      · rw [List.append_assoc]
        exact hcalled
      · rw [hwritten, printed_concat, printedBy]
      · rw [waitingAfter_concat, waiting, hleft]
        cases cleared with
        | true => simp
        | false => rfl
      · cases cleared with
        | true => exact Nat.zero_le _
        | false => exact hroom

/-- The first message of the buffer is the next one to be written. -/
theorem Served.drain {msg : LogMessage}
    (h : Served bufferSize minLevel called written held (msg :: buffer) (.drain :: rest)) :
    Served bufferSize minLevel called written held buffer (.write msg :: .drain :: rest) := by
  obtain ⟨⟨done, owed, left, hcalled, howes, hwritten, hleft⟩, hroom⟩ := h
  cases howes with
  | quiet h => cases h
  | skip _ ha => cases ha
  | drain hheld hpending hquiet =>
      refine ⟨⟨done, _, [], hcalled, ?_, hwritten, hleft⟩, (Nat.le_succ _).trans hroom⟩
      exact .write hheld hpending (.drain hheld hpending hquiet)

theorem Served.drained
    (h : Served bufferSize minLevel called written held [] (.drain :: rest)) :
    Served bufferSize minLevel called written held [] rest := by
  obtain ⟨⟨done, owed, left, hcalled, howes, hwritten, hleft⟩, hroom⟩ := h
  cases howes with
  | quiet h => cases h
  | skip _ ha => cases ha
  | drain _ _ hquiet => exact ⟨⟨done, [], [], hcalled, .quiet hquiet, hwritten, hleft⟩, hroom⟩

/-- A message that is owed is written. In front of the rest there may be an error to
report. -/
theorem Served.write {msg : LogMessage} (hnew : ∀ a ∈ new, inert a = true)
    (h : Served bufferSize minLevel called written held buffer (.write msg :: rest)) :
    Served bufferSize minLevel called (written ++ [msg]) held buffer (new ++ rest) := by
  obtain ⟨⟨done, owed, left, hcalled, howes, hwritten, hleft⟩, hroom⟩ := h
  cases howes with
  | quiet h => cases h
  | skip _ ha => cases ha
  | @write _ _ owed _ _ hpending howes =>
      refine ⟨⟨done, owed, left, ?_, howes.append_inert hnew hpending, ?_, hleft⟩, hroom⟩
      · rw [pending_append_inert hnew]
        exact hcalled
      · rw [List.append_assoc]
        exact hwritten

/-- An inert action. -/
theorem Served.skip {a : Action} (ha : inert a = true) (hnew : ∀ b ∈ new, inert b = true)
    (h : Served bufferSize minLevel called written held buffer (a :: rest)) :
    Served bufferSize minLevel called written held buffer (new ++ rest) := by
  obtain ⟨⟨done, owed, left, hcalled, howes, hwritten, hleft⟩, hroom⟩ := h
  obtain ⟨hpending, hrest⟩ := howes.of_inert ha
  refine ⟨⟨done, owed, left, ?_, hrest.append_inert hnew hpending, hwritten, hleft⟩, hroom⟩
  rw [pending_append_inert hnew, ← pending_inert ha]
  exact hcalled

/-- The handler calls `log`. In a thread that has the mutex already, that call waits for ever. -/
theorem Served.handler {msg : LogMessage}
    (h : Served bufferSize minLevel called written held buffer (.tryNonRecursive msg :: rest)) :
    Served bufferSize minLevel (called ++ [.log msg]) written held buffer
      (Logger.log msg ++ .unlockNonRecursive :: rest) := by
  obtain ⟨⟨done, owed, left, hcalled, howes, hwritten, hleft⟩, hroom⟩ := h
  obtain ⟨hpending, hrest⟩ := howes.of_inert rfl
  have hnone : pending (.tryNonRecursive msg :: rest) = [] := hpending
  rw [hnone, List.append_nil] at hcalled
  have hcalled' : done ++ pending (Logger.log msg ++ .unlockNonRecursive :: rest) =
      called ++ [.log msg] := by
    show done ++ .log msg :: pending rest = called ++ [.log msg]
    rw [hpending, hcalled]
  refine ⟨⟨done, owed, left, hcalled', ?_, hwritten, hleft⟩, hroom⟩
  cases held with
  | true => exact .stuck rfl
  | false =>
      obtain ⟨hquiet, rfl, rfl⟩ := hrest.of_free
      exact .quiet (.inr ⟨rfl, hpending, rfl, hpending, hpending, hquiet⟩)

theorem Served.timer
    (h : Served bufferSize minLevel called written held buffer (.checkFile :: rest)) :
    Served bufferSize minLevel called written held buffer
      (.lockMutex :: .flush :: .unlockMutex :: rest) := by
  obtain ⟨⟨done, owed, left, hcalled, howes, hwritten, hleft⟩, hroom⟩ := h
  obtain ⟨hpending, hrest⟩ := howes.of_inert rfl
  refine ⟨⟨done, owed, left, hcalled, ?_, hwritten, hleft⟩, hroom⟩
  cases held with
  | true => exact .stuck rfl
  | false =>
      obtain ⟨hquiet, rfl, rfl⟩ := hrest.of_free
      exact .quiet (.inr ⟨hpending, rfl, hpending, hquiet⟩)

/-- The mutex is locked. -/
theorem Served.lock
    (h : Served bufferSize minLevel called written false buffer (.lockMutex :: rest)) :
    Served bufferSize minLevel called written true buffer rest := by
  obtain ⟨⟨done, owed, left, hcalled, howes, hwritten, hleft⟩, hroom⟩ := h
  obtain ⟨hquiet, rfl, rfl⟩ := howes.of_free
  rcases hquiet with hheld | hrest
  · cases hheld
  · exact ⟨⟨done, [], _, hcalled, .quiet hrest, hwritten, hleft⟩, hroom⟩

/-- The mutex is given back, and nothing is owed. -/
theorem Served.unlock
    (h : Served bufferSize minLevel called written true buffer (.unlockMutex :: rest)) :
    Served bufferSize minLevel called written false buffer rest := by
  obtain ⟨⟨done, owed, left, hcalled, howes, hwritten, hleft⟩, hroom⟩ := h
  cases howes with
  | skip _ ha => cases ha
  | quiet hunlock =>
      obtain ⟨-, -, hrest⟩ := hunlock
      exact ⟨⟨done, [], _, hcalled, .quiet hrest, hwritten, hleft⟩, hroom⟩

/-- **The step of the invariant**, one case for each kind of action. -/
theorem Served.moves {v v' : View} (hmoves : Moves bufferSize minLevel v cs ws v')
    (h : Served bufferSize minLevel called written v.held v.buffer v.actions) :
    Served bufferSize minLevel (called ++ cs) (written ++ ws) v'.held v'.buffer v'.actions := by
  cases hmoves with
  | handler held buffer msg rest =>
      rw [List.append_nil]
      exact Served.handler h
  | write held buffer msg new rest hnew =>
      rw [List.append_nil]
      exact Served.write hnew h
  | wait => simpa using h
  | lock => simpa using Served.lock h
  | unlock => simpa using Served.unlock h
  | timer => simpa using Served.timer h
  | log held buffer msg rest hsize => simpa using Served.log h hsize
  | logUnbuffered held buffer msg rest hsize => simpa using Served.logUnbuffered h hsize
  | drained => simpa using Served.drained h
  | drain => simpa using Served.drain h
  | clear => simpa using Served.clear h
  | skip held buffer a new rest ha hnew => simpa using Served.skip ha hnew h

end Served

/-! ### Runs

The views of all threads, as they are served one by one. An event belongs to one thread, and leaves
the others as they are. -/

/-- The settings stay the same: a refresh finds the values that are in use. -/
def SameSettings (bufferSize minLevel : Int) (s : State) : Event → Prop
  | .call _ _ => True
  | .run i w => (s.threads i).head? = some .refreshSettings →
      w.settings.bufferSize = bufferSize ∧ w.settings.minLevel = minLevel

instance (bufferSize minLevel : Int) (s : State) (e : Event) :
    Decidable (SameSettings bufferSize minLevel s e) := by
  unfold SameSettings
  split <;> infer_instance

/-- Only a refresh changes the settings of the buffer. -/
theorem act_settings (s : State) (i : Nat) (w : World) (rest : List Action) {a : Action}
    (hsame : a = .refreshSettings → w.settings.bufferSize = s.logger.bufferSize ∧
      w.settings.minLevel = s.logger.minLevel) :
    (s.act i w rest a).logger.bufferSize = s.logger.bufferSize ∧
      (s.act i w rest a).logger.minLevel = s.logger.minLevel := by
  cases a with
  | refreshSettings =>
      rw [State.act, State.refreshSettings]
      split
      · exact hsame rfl
      · exact hsame rfl
  | write => rw [State.act, State.write]; split <;> [split; skip] <;> exact ⟨rfl, rfl⟩
  | openFile =>
      rw [State.act, State.openFile]
      split
      · exact ⟨rfl, rfl⟩
      · dsimp only
        split <;> exact ⟨rfl, rfl⟩
  | log => rw [State.act, State.log]; split <;> exact ⟨rfl, rfl⟩
  | drain => rw [State.act, State.drain]; split <;> exact ⟨rfl, rfl⟩
  | flush => rw [State.act, State.flush]; split <;> exact ⟨rfl, rfl⟩
  | lockRecursive => rw [State.act]; split <;> exact ⟨rfl, rfl⟩
  | tryNonRecursive => rw [State.act]; split <;> exact ⟨rfl, rfl⟩
  | abortIfFatal => rw [State.act]; split <;> exact ⟨rfl, rfl⟩
  | lockMutex => rw [State.act]; split <;> exact ⟨rfl, rfl⟩
  | clear => rw [State.act]; split <;> exact ⟨rfl, rfl⟩
  | fallBack => rw [State.act]; split <;> exact ⟨rfl, rfl⟩
  | unlockNonRecursive => exact ⟨rfl, rfl⟩
  | unlockRecursive => exact ⟨rfl, rfl⟩
  | unlockMutex => exact ⟨rfl, rfl⟩
  | dropFile => exact ⟨rfl, rfl⟩
  | checkFile => exact ⟨rfl, rfl⟩

/-- Every thread is served, until the program ends. -/
structure AllServed (bufferSize minLevel : Int) (s : State) (called : Nat → List BufferCall)
    (written : Nat → List LogMessage) : Prop where
  sameSize : s.logger.bufferSize = bufferSize
  sameLevel : s.logger.minLevel = minLevel
  running : s.aborted = false → ∀ i, Served bufferSize minLevel (called i) (written i)
    (s.mutex.held i) (s.buffers i) (s.threads i)
  idle : s.aborted = true → ∀ i, s.threads i = []
  written : ∀ i, written i <+: printed bufferSize.toNat minLevel [] (called i)
  size : ∀ i, (s.buffers i).length ≤ bufferSize.toNat

section Run

variable {bufferSize minLevel : Int} {called : Nat → List BufferCall}
  {written : Nat → List LogMessage}

/-- What has been written is the beginning of what the calls ask for. -/
theorem Served.written_first {called : List BufferCall} {written : List LogMessage} {held : Bool}
    {buffer : List LogMessage} {actions : List Action}
    (h : Served bufferSize minLevel called written held buffer actions) :
    written <+: printed bufferSize.toNat minLevel [] called := by
  obtain ⟨done, owed, left, hcalled, -, hwritten, -⟩ := h.account
  rw [← hcalled, printed_append, ← hwritten, List.append_assoc]
  exact List.prefix_append _ _

theorem allServed_start (logger : FileLogger) :
    AllServed logger.bufferSize logger.minLevel (start logger) (fun _ => []) fun _ => [] where
  sameSize := rfl
  sameLevel := rfl
  running := fun _ _ => ⟨⟨[], [], [], rfl, .quiet rfl, rfl, (List.rtake_nil _).symm⟩, Nat.zero_le _⟩
  idle := fun _ _ => rfl
  written := fun _ => List.prefix_rfl
  size := fun _ => Nat.zero_le _

/-- Every call begins with locking a mutex. -/
theorem quiet_call (c : Call) : Quiet false c.actions := by
  cases c with
  | msgHandler msg => exact ⟨rfl, rfl, rfl, rfl, rfl⟩
  | log msg => exact .inr ⟨rfl, rfl, rfl, rfl, rfl⟩
  | clear buffer => exact .inr ⟨rfl, rfl, rfl, rfl, rfl⟩
  | refreshTimer => exact .inr ⟨rfl, rfl, rfl, rfl⟩
  | flushTimer => exact ⟨rfl, rfl⟩

/-- A thread that is outside calls the logger. -/
theorem AllServed.call {s : State} (h : AllServed bufferSize minLevel s called written) (j : Nat)
    (c : Call) : AllServed bufferSize minLevel (step s (.call j c))
      (fun i => called i ++ calls i s (.call j c))
      (fun i => written i ++ writes i s (.call j c)) := by
  simp only [writes, List.append_nil]
  rw [step]
  split
  · next hidle =>
      obtain ⟨hrunning, houtside⟩ := hidle
      have hserved : ∀ i, Served bufferSize minLevel (called i ++ calls i s (.call j c)) (written i)
          (s.mutex.held i) (s.buffers i) (Function.update s.threads j c.actions i) := by
        intro i
        have hi := h.running hrunning i
        by_cases hij : j = i
        · subst hij
          rw [houtside] at hi
          obtain ⟨⟨done, owed, left, hcalled, howes, hwritten, hleft⟩, hroom⟩ := hi
          rw [calls, if_pos ⟨rfl, hrunning, houtside⟩, Function.update_self]
          cases howes with
          | quiet hfree =>
              have hfree' : s.mutex.held j = false := hfree
              rw [hfree']
              refine ⟨⟨done, [], _, ?_, .quiet (quiet_call c), hwritten, hleft⟩, hroom⟩
              rw [← hcalled]
              simp [pending]
        · rw [calls, if_neg fun hcond => hij hcond.1, List.append_nil,
            Function.update_of_ne (Ne.symm hij)]
          exact hi
      refine ⟨h.sameSize, h.sameLevel, fun _ => hserved, fun haborted => ?_,
        fun i => (hserved i).written_first, h.size⟩
      exact absurd (hrunning.symm.trans haborted) (by simp)
  · next hbusy =>
      have hnone : ∀ i, calls i s (.call j c) = [] := by
        intro i
        rw [calls, if_neg]
        rintro ⟨rfl, hrunning, houtside⟩
        exact hbusy ⟨hrunning, houtside⟩
      simp only [hnone, List.append_nil]
      exact h

/-- Nothing is called or written on behalf of another thread. -/
theorem nothing_of_ne {i j : Nat} (hij : i ≠ j) (s : State) (w : World) :
    calls i s (.run j w) = [] ∧ writes i s (.run j w) = [] := by
  constructor
  · rw [calls]
    split
    · rw [if_neg fun hcond => hij hcond.1.symm]
    · rfl
  · rw [writes]
    split
    · rw [if_neg (Ne.symm hij)]
    · rfl

/-- A program that has ended has no thread with something to do. -/
theorem not_aborted_of_action {s : State} {j : Nat} {a : Action} {rest : List Action}
    (hidle : s.aborted = true → ∀ i, s.threads i = []) (hj : s.threads j = a :: rest) :
    s.aborted = false := by
  cases haborted : s.aborted with
  | false => rfl
  | true => exact absurd (hj.symm.trans (hidle haborted j)) (List.cons_ne_nil _ _)

section Acting

variable {s : State} (h : AllServed bufferSize minLevel s called written) {j : Nat} {w : World}
  {a : Action} {rest : List Action}

include h

theorem AllServed.not_aborted (hj : s.threads j = a :: rest) : s.aborted = false :=
  not_aborted_of_action h.idle hj

/-- A thread unlocks the mutex of the logger only when it has it. -/
theorem AllServed.held_unlock (hj : s.threads j = .unlockMutex :: rest) :
    s.mutex.held j = true := by
  have hserved := h.running (h.not_aborted hj) j
  rw [hj] at hserved
  obtain ⟨done, owed, left, -, howes, -⟩ := hserved.account
  cases howes with
  | quiet hunlock => exact hunlock.1
  | skip _ ha => cases ha

/-- The thread whose turn it is acts. -/
theorem AllServed.act (hj : s.threads j = a :: rest)
    (hsame : SameSettings bufferSize minLevel s (.run j w)) :
    AllServed bufferSize minLevel (s.act j w rest a)
      (fun i => called i ++ calls i s (.run j w))
      (fun i => written i ++ writes i s (.run j w)) := by
  have hrunning := h.not_aborted hj
  have hheld : a = .unlockMutex → s.mutex.held j = true := by
    rintro rfl
    exact h.held_unlock hj
  have hsettings := act_settings s j w rest (a := a) (by
    rintro rfl
    rw [h.sameSize, h.sameLevel]
    exact hsame (by rw [hj]; rfl))
  rw [h.sameSize, h.sameLevel] at hsettings
  rcases Acts.act (w := w) hj h.sameSize h.sameLevel hheld with ⟨habort, hcalls, hwrites⟩ | hacts
  · -- the program ends
    have hnone : ∀ i, calls i s (.run j w) = [] ∧ writes i s (.run j w) = [] := by
      intro i
      by_cases hij : i = j
      · rw [hij]
        exact ⟨hcalls, hwrites⟩
      · exact nothing_of_ne hij s w
    simp only [(hnone _).1, (hnone _).2, List.append_nil]
    rw [habort]
    refine ⟨h.sameSize, h.sameLevel, fun hrun => ?_, fun _ _ => rfl, h.written, h.size⟩
    cases hrun
  · have hserved : ∀ i, Served bufferSize minLevel (called i ++ calls i s (.run j w))
        (written i ++ writes i s (.run j w)) ((s.act j w rest a).mutex.held i)
        ((s.act j w rest a).buffers i) ((s.act j w rest a).threads i) := by
      intro i
      by_cases hij : i = j
      · subst hij
        exact Served.moves hacts.own (h.running hrunning i)
      · obtain ⟨hcalls, hwrites⟩ := nothing_of_ne hij s w
        have hview := hacts.others i hij
        have hi : Served bufferSize minLevel (called i) (written i) (view s i).held
            (view s i).buffer
          (view s i).actions := h.running hrunning i
        rw [hcalls, hwrites, List.append_nil, List.append_nil]
        rw [← hview] at hi
        exact hi
    refine ⟨hsettings.1, hsettings.2, fun _ => hserved, fun haborted => ?_,
      fun i => (hserved i).written_first, fun i => (hserved i).size⟩
    rw [hacts.aborted, hrunning] at haborted
    cases haborted

end Acting

theorem AllServed.step {s : State} (h : AllServed bufferSize minLevel s called written) {e : Event}
    (hsame : SameSettings bufferSize minLevel s e) :
    AllServed bufferSize minLevel (step s e) (fun i => called i ++ calls i s e)
      (fun i => written i ++ writes i s e) := by
  cases e with
  | call j c => exact h.call j c
  | run j w =>
      rw [FileLogger.step]
      cases hj : s.threads j with
      | nil =>
          have hnone : ∀ i, calls i s (.run j w) = [] ∧ writes i s (.run j w) = [] := by
            intro i
            rw [calls, writes, hj]
            exact ⟨rfl, rfl⟩
          simp only [(hnone _).1, (hnone _).2, List.append_nil]
          exact h
      | cons a rest => exact h.act hj hsame

/-- **The messages of a thread are printed as its own calls ask for**, whatever the other threads
do: as long as the settings stay the same, what it has passed to `write` is the beginning of what
its calls of `log` and `clear` print, and all of it when the thread is outside the logger. -/
theorem printed_run (logger : FileLogger) (events : List Event)
    (h : Run.Along step (SameSettings logger.bufferSize logger.minLevel) (start logger) events)
    (i : Nat) :
    let s := run step (start logger) events
    let called := Run.shown step (calls i) (start logger) events
    let written := Run.shown step (writes i) (start logger) events
    written <+: printed logger.bufferSize.toNat logger.minLevel [] called ∧
      (s.aborted = false → s.threads i = [] →
        written = printed logger.bufferSize.toNat logger.minLevel [] called) ∧
      (s.buffers i).length ≤ logger.bufferSize.toNat := by
  have hall := Run.Along.inv_past (I := fun past =>
      AllServed logger.bufferSize logger.minLevel (run step (start logger) past)
        (fun i => Run.shown step (calls i) (start logger) past)
        (fun i => Run.shown step (writes i) (start logger) past))
    (allServed_start logger) (fun past e hpast hsame => by
      simp only [Run.shown_concat, Run.run_append]
      exact hpast.step hsame) h
  refine ⟨hall.written i, fun hrunning houtside => ?_, hall.size i⟩
  have hserved := hall.running hrunning i
  rw [houtside] at hserved
  obtain ⟨done, owed, left, hcalled, howes, hwritten, -⟩ := hserved.account
  cases howes with
  | quiet =>
      have hdone : done ++ [] = _ := hcalled
      rw [List.append_nil] at hdone hwritten
      rw [← hdone]
      exact hwritten

end Run

/-- A log file that takes everything. -/
def writable : World := ⟨⟨ascii "a", 0, 1, 2⟩, true, false, [], 0⟩

/-- Two threads with a buffer for two messages: the third message of thread 0 displaces its first
one, while thread 1 prints a message of its own. -/
theorem printed_run_threads :
    let logger : FileLogger := ⟨ascii "a", 0, 1, 2, true⟩
    let message (type : QtMsgType) (text : String) : LogMessage := ⟨type, ascii text⟩
    let events := [.call 0 (.log (message .QtDebugMsg "first")),
        .call 1 (.log (message .QtWarningMsg "other"))] ++
      List.replicate 3 (.run 0 writable) ++ [.run 1 writable,
        .call 0 (.log (message .QtDebugMsg "second")), .run 0 writable] ++
      List.replicate 5 (.run 1 writable) ++ List.replicate 3 (.run 0 writable) ++
      [.call 0 (.log (message .QtCriticalMsg "third"))] ++ List.replicate 8 (.run 0 writable)
    Run.Along step (SameSettings 2 1) (start logger) events ∧
      Run.shown step (writes 0) (start logger) events =
        [message .QtDebugMsg "second", message .QtCriticalMsg "third"] := by
  intro logger message events
  have halong : Run.Along step (SameSettings 2 1) (start logger) events := by decide +kernel
  refine ⟨halong, ?_⟩
  rw [(printed_run logger events halong 0).2.1 (by decide +kernel) (by decide +kernel)]
  decide +kernel

end FileLogger

end QtWebApp
