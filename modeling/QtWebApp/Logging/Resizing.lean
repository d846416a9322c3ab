import QtWebApp.Logging.Buffer

/-!
# QtWebApp.Logging.Resizing

What becomes of the buffers when the settings change.

The run of the logger is watched (`follow`): for each thread its call of `log` is recorded with the
settings and the buffer that it found, the messages it wrote, and the buffer it left when it gave
the mutex back. Whatever the other threads do in between, what a call writes and leaves is
determined when it takes the message (`CallStage`), so that the question is one about the list of
the recorded calls alone.

The condition comes out of one step: a call deletes one message at most, so it leaves no more than
it may exactly when it has found no more than it may. A buffer that is too long stays so until it is
printed.
-/

namespace QtWebApp

/-- A call of `Logger::log`: the settings it found, its message, the buffer before it, what it has
written, and the buffer after it. -/
structure LogCall where
  size : Int
  level : Int
  msg : LogMessage
  before : List LogMessage
  written : List LogMessage
  after : List LogMessage
  deriving DecidableEq

namespace LogCall

/-- The message is important enough. -/
def Triggers (c : LogCall) : Prop := c.level ≤ c.msg.type.toInt

instance (c : LogCall) : Decidable c.Triggers := by unfold Triggers; infer_instance

/-- What such a call prints. -/
def prints (c : LogCall) : List LogMessage :=
  if c.Triggers then
    if 0 < c.size then FileLogger.appended c.size c.before c.msg else [c.msg]
  else []

/-- What it leaves in the buffer. A disabled buffer is left as it was. -/
def leaves (c : LogCall) : List LogMessage :=
  if 0 < c.size then if c.Triggers then [] else FileLogger.appended c.size c.before c.msg
  else c.before

/-- The buffer that the call found is no longer than the size it found. -/
def Fits (c : LogCall) : Prop := (c.before.length : Int) ≤ c.size

instance (c : LogCall) : Decidable c.Fits := by unfold Fits; infer_instance

/-- The call respects the size it found, `history` being the messages of the thread so far: what can
be printed later, and what is printed now, is among the last of them. -/
structure Respects (c : LogCall) (history : List LogMessage) : Prop where
  size : (c.after.length : Int) ≤ c.size
  writes : (c.written.length : Int) ≤ max c.size 1
  later : c.after <:+ history.rtake c.size.toNat
  now : c.written <:+ history.rtake (max c.size 1).toNat

/-- The message has been taken. -/
def enter (s : FileLogger.State) (i : Nat) (msg : LogMessage) : LogCall where
  size := s.logger.bufferSize
  level := s.logger.minLevel
  msg := msg
  before := s.buffers i
  written := []
  after := []

/-- A message has been passed to `write`. -/
def wrote (c : LogCall) (msg : LogMessage) : LogCall := { c with written := c.written ++ [msg] }

/-- The mutex has been given back. -/
def ended (c : LogCall) (buffer : List LogMessage) : LogCall := { c with after := buffer }

end LogCall

namespace FileLogger

open State

/-! ### Watching the calls

A call begins when it takes its message and ends when it gives the mutex back. The record is made
beside the state, and the state does not depend on it. -/

/-- The state, and for each thread the call it is in and those it has ended. -/
structure Watch where
  state : State
  current : Nat → Option LogCall
  past : Nat → List LogCall

/-- Actions that are not recorded. -/
def unrecorded : Action → Bool
  | .log _ | .write _ | .unlockMutex => false
  | _ => true

/-- The call a thread is in after its next action. -/
def nextCall (s : State) (i : Nat) (current : Option LogCall) : Option LogCall :=
  match s.threads i with
  | .log msg :: _ => some (.enter s i msg)
  | .write msg :: _ => current.map (·.wrote msg)
  | .unlockMutex :: _ => none
  | _ => current

/-- The call that the next action of a thread ends. -/
def endedCall (s : State) (i : Nat) (current : Option LogCall) : List LogCall :=
  match s.threads i with
  | .unlockMutex :: _ => (current.map (·.ended (s.buffers i))).toList
  | _ => []

/-- A logger that no thread has called yet. -/
def Watch.start (logger : FileLogger) : Watch where
  state := State.start logger
  current := fun _ => none
  past := fun _ => []

/-- The state after an event, with its record. -/
def follow (w : Watch) : Event → Watch
  | .call i c => { w with state := step w.state (.call i c) }
  | .run i world =>
      { state := step w.state (.run i world)
        current := Function.update w.current i (nextCall w.state i (w.current i))
        past := Function.update w.past i (w.past i ++ endedCall w.state i (w.current i)) }

/-- The calls of `log` that a thread has ended in a run. -/
def logCalls (logger : FileLogger) (events : List Event) (i : Nat) : List LogCall :=
  (run follow (.start logger) events).past i

/-- Watching changes nothing. -/
theorem follow_state (w : Watch) (e : Event) : (follow w e).state = step w.state e := by
  cases e <;> rfl

/-- The states of a watched run are those of the run. -/
theorem run_follow_state (w : Watch) (events : List Event) :
    (run follow w events).state = run step w.state events :=
  Run.run_map follow_state w events

/-! ### The stages of a call

The message is taken first, and then what will be written is fixed. The call may be interrupted by
others, but by none of its own thread. -/

/-- The buffer that the last of these calls has left. -/
def lastLeft (past : List LogCall) : List LogMessage := (past.getLast?.map LogCall.after).getD []

@[simp] theorem lastLeft_concat (past : List LogCall) (c : LogCall) :
    lastLeft (past ++ [c]) = c.after := by simp [lastLeft]

/-- Each call found what the one before has left, unless the buffer was cleared, and did what was
determined when it took its message. -/
inductive Recorded : List LogCall → Prop
  | nil : Recorded []
  | concat {past : List LogCall} {c : LogCall} : Recorded past → c.before <:+ lastLeft past →
      c.written = c.prints → c.after = c.leaves → Recorded (past ++ [c])

/-- Where a thread is with respect to its calls of `log`, by its own view. -/
inductive CallStage (past : List LogCall) : Option LogCall → View → Prop
  | outside {held : Bool} {buffer : List LogMessage} {actions : List Action}
      (hquiet : Quiet held actions) (hbuffer : buffer <:+ lastLeft past) :
      CallStage past none ⟨held, buffer, actions⟩
  | inside {c : LogCall} {buffer owed left : List LogMessage} {actions : List Action}
      (hbefore : c.before <:+ lastLeft past) (howes : Owes true buffer actions owed left)
      (hpending : pending actions = []) (hwritten : c.written ++ owed = c.prints)
      (hleft : left = c.leaves) : CallStage past (some c) ⟨true, buffer, actions⟩
  /-- It waits for a mutex that it has already. -/
  | stuck {current : Option LogCall} {buffer : List LogMessage} {rest : List Action} :
      CallStage past current ⟨true, buffer, .lockMutex :: rest⟩

section Stage

variable {bufferSize minLevel : Int} {past : List LogCall} {current : Option LogCall} {held : Bool}
  {buffer : List LogMessage} {msg : LogMessage} {a : Action} {new rest : List Action}

/-- A message is taken. What the call will print and leave is determined now. -/
theorem CallStage.log (h : CallStage past current ⟨held, buffer, .log msg :: rest⟩)
    (size level : Int) :
    CallStage past (some ⟨size, level, msg, buffer, [], []⟩)
      ⟨held, if 0 < size then appended size buffer msg else buffer,
        if level ≤ msg.type.toInt then (if 0 < size then .drain else .write msg) :: rest
        else rest⟩ := by
  cases h with
  | inside _ _ hpending => cases hpending
  | outside hquiet hbuffer =>
      obtain ⟨rfl, hpending, hrest⟩ := hquiet
      by_cases htriggers : level ≤ msg.type.toInt
      · have hpending' : ∀ a : Action, bufferCall a = none → pending (a :: rest) = [] :=
          fun a ha => (List.filterMap_cons_none ha).trans hpending
        by_cases hsize : 0 < size
        · rw [if_pos hsize, if_pos htriggers, if_pos hsize]
          refine .inside hbuffer (.drain rfl hpending hrest) (hpending' _ rfl) ?_ ?_
          · simp [LogCall.prints, LogCall.Triggers, htriggers, hsize]
          · simp [LogCall.leaves, LogCall.Triggers, htriggers, hsize]
        · rw [if_neg hsize, if_pos htriggers, if_neg hsize]
          refine .inside hbuffer (.write rfl hpending (.quiet hrest)) (hpending' _ rfl) ?_ ?_
          · simp [LogCall.prints, LogCall.Triggers, htriggers, hsize]
          · simp [LogCall.leaves, hsize]
      · rw [if_neg htriggers]
        refine .inside hbuffer (.quiet hrest) hpending ?_ ?_
        · simp [LogCall.prints, LogCall.Triggers, htriggers]
        · simp [LogCall.leaves, LogCall.Triggers, htriggers]

/-- A message is written that the call owes. -/
theorem CallStage.write (hnew : ∀ a ∈ new, inert a = true)
    (h : CallStage past current ⟨held, buffer, .write msg :: rest⟩) :
    CallStage past (current.map (·.wrote msg)) ⟨held, buffer, new ++ rest⟩ := by
  cases h with
  | outside hquiet => cases hquiet
  | @inside c _ _ _ _ hbefore howes hpending hwritten hleft =>
      cases howes with
      | quiet hquiet => cases hquiet
      | skip _ ha => cases ha
      | @write _ _ owed _ _ hrest howes =>
          refine .inside hbefore (howes.append_inert hnew hrest) ?_ ?_ hleft
          · rw [pending_append_inert hnew]
            exact hrest
          · show c.written ++ [msg] ++ owed = c.prints
            rw [List.append_assoc]
            exact hwritten

theorem CallStage.writeMoves {v' : View} {cs : List BufferCall}
    (h : CallStage past current ⟨held, buffer, .write msg :: rest⟩)
    (hmoves : Moves bufferSize minLevel ⟨held, buffer, .write msg :: rest⟩ cs [msg] v') :
    CallStage past (current.map (·.wrote msg)) v' := by
  cases hmoves with
  | write _ _ _ new _ hnew => exact h.write hnew

/-- The mutex is given back: a call has ended, and it has done what was determined. -/
theorem CallStage.unlock (hrecorded : Recorded past)
    (h : CallStage past current ⟨held, buffer, .unlockMutex :: rest⟩) :
    held = true ∧ Recorded (past ++ (current.map (·.ended buffer)).toList) ∧
      CallStage (past ++ (current.map (·.ended buffer)).toList) none ⟨false, buffer, rest⟩ := by
  cases h with
  | outside hquiet hbuffer =>
      obtain ⟨hheld, -, hrest⟩ := hquiet
      rw [Option.map_none, Option.toList_none, List.append_nil]
      exact ⟨hheld, hrecorded, .outside hrest hbuffer⟩
  | @inside c _ _ _ _ hbefore howes hpending hwritten hleft =>
      cases howes with
      | skip _ ha => cases ha
      | quiet hquiet =>
          obtain ⟨-, -, hrest⟩ := hquiet
          rw [List.append_nil] at hwritten
          rw [Option.map_some, Option.toList_some]
          refine ⟨rfl, .concat hrecorded hbefore hwritten hleft, .outside hrest ?_⟩
          rw [lastLeft_concat, LogCall.ended]

/-- The handler calls `log`, or the flush timer has found a file: a thread that has the mutex
already waits for ever. -/
theorem CallStage.lockAgain {new : List Action}
    (h : CallStage past current ⟨held, buffer, a :: rest⟩) (ha : inert a = true)
    (hnew : pending rest = [] → Quiet false rest → Quiet true new) :
    CallStage past current ⟨held, buffer, .lockMutex :: new⟩ := by
  cases h with
  | inside => exact .stuck
  | stuck => cases ha
  | outside hquiet hbuffer =>
      obtain ⟨hpending, hrest⟩ := (quiet_inert ha).mp hquiet
      cases held with
      | true => exact .stuck
      | false => exact .outside (.inr (hnew hpending hrest)) hbuffer

/-- **Any other action keeps the stage.** -/
theorem CallStage.moves {v' : View} {cs : List BufferCall} {ws : List LogMessage}
    (hmoves : Moves bufferSize minLevel ⟨held, buffer, a :: rest⟩ cs ws v')
    (h : CallStage past current ⟨held, buffer, a :: rest⟩) (ha : unrecorded a = true) :
    CallStage past current v' := by
  cases hmoves with
  | wait => exact h
  | log => cases ha
  | logUnbuffered => cases ha
  | write => cases ha
  | unlock => cases ha
  | lock =>
      cases h with
      | outside hquiet hbuffer =>
          rcases hquiet with hheld | hrest
          · cases hheld
          · exact .outside hrest hbuffer
  | handler =>
      exact h.lockAgain rfl fun hpending hrest => ⟨rfl, hpending, rfl, hpending, hpending, hrest⟩
  | timer => exact h.lockAgain rfl fun hpending hrest => ⟨hpending, rfl, hpending, hrest⟩
  | drained =>
      cases h with
      | outside hquiet => cases hquiet
      | inside hbefore howes _ hwritten hleft =>
          cases howes with
          | quiet hquiet => cases hquiet
          | skip _ ha => cases ha
          | drain _ hrest hquiet => exact .inside hbefore (.quiet hquiet) hrest hwritten hleft
  | drain =>
      cases h with
      | outside hquiet => cases hquiet
      | inside hbefore howes _ hwritten hleft =>
          cases howes with
          | quiet hquiet => cases hquiet
          | skip _ ha => cases ha
          | drain _ hrest hquiet =>
              exact .inside hbefore (.write rfl hrest (.drain rfl hrest hquiet))
                hrest hwritten hleft
  | clear _ cleared =>
      cases h with
      | inside _ _ hpending => cases hpending
      | outside hquiet hbuffer =>
          obtain ⟨-, -, hrest⟩ := hquiet
          refine .outside hrest ?_
          cases cleared with
          | true => exact List.nil_suffix
          | false => exact hbuffer
  | skip _ _ _ new _ hinert hnew =>
      cases h with
      | stuck => cases hinert
      | outside hquiet hbuffer =>
          obtain ⟨hpending, hrest⟩ := (quiet_inert hinert).mp hquiet
          exact .outside (hrest.append_inert hnew hpending) hbuffer
      | inside hbefore howes _ hwritten hleft =>
          obtain ⟨hpending, hrest⟩ := howes.of_inert hinert
          refine .inside hbefore (hrest.append_inert hnew hpending) ?_ hwritten hleft
          rw [pending_append_inert hnew]
          exact hpending

/-- What a thread sees when it has taken a message. -/
theorem view_log (s : State) (i : Nat) (msg : LogMessage) (rest : List Action) :
    view (s.log i msg rest) i = ⟨s.mutex.held i,
      if 0 < s.logger.bufferSize then appended s.logger.bufferSize (s.buffers i) msg
      else s.buffers i,
      if s.logger.minLevel ≤ msg.type.toInt then
        (if 0 < s.logger.bufferSize then .drain else .write msg) :: rest else rest⟩ := by
  unfold State.log
  by_cases hsize : 0 < s.logger.bufferSize
  · rw [if_pos hsize, if_pos hsize, if_pos hsize, view_goOn]
    simp only [setBuffer, Function.update_self]
  · rw [if_neg hsize, if_neg hsize, if_neg hsize, view_goOn]

/-- What a thread sees when it has given the mutex back. -/
theorem view_unlock (s : State) (i : Nat) (w : World) (rest : List Action) :
    view (s.act i w rest .unlockMutex) i = ⟨false, s.buffers i, rest⟩ := by
  rw [State.act, view_goOn, Mutex.held_free]

/-- **The next action of a thread**, as it is recorded. -/
theorem CallStage.act {s : State} {i : Nat} {w : World} (hi : s.threads i = a :: rest)
    (hrecorded : Recorded past) (h : CallStage past current (view s i)) :
    (a = .unlockMutex → s.mutex.held i = true) ∧ Recorded (past ++ endedCall s i current) ∧
      ((s.act i w rest a).aborted = false →
        CallStage (past ++ endedCall s i current) (nextCall s i current)
          (view (s.act i w rest a) i)) := by
  rw [view_eq hi] at h
  unfold endedCall nextCall
  rw [hi]
  by_cases hunlock : a = .unlockMutex
  · subst hunlock
    obtain ⟨hheld, hpast, hnext⟩ := h.unlock hrecorded
    exact ⟨fun _ => hheld, hpast, fun _ => by rw [view_unlock]; exact hnext⟩
  · have hacts := Acts.act (w := w) hi rfl rfl fun hcontra => absurd hcontra hunlock
    have hmoves : (s.act i w rest a).aborted = false →
        Moves s.logger.bufferSize s.logger.minLevel ⟨s.mutex.held i, s.buffers i, a :: rest⟩
          (calls i s (.run i w)) (writes i s (.run i w)) (view (s.act i w rest a) i) := by
      intro hrunning
      rcases hacts with ⟨habort, -⟩ | hacts
      · rw [habort] at hrunning
        cases hrunning
      · exact view_eq hi ▸ hacts.own
    refine ⟨fun hcontra => absurd hcontra hunlock, ?_, fun hrunning => ?_⟩
    · cases a <;> first | simpa using hrecorded | exact absurd rfl hunlock
    · cases a with
      | unlockMutex => exact absurd rfl hunlock
      | log msg =>
          rw [List.append_nil]
          show CallStage past (some (.enter s i msg)) (view (s.log i msg rest) i)
          rw [view_log]
          exact h.log _ _
      | write msg =>
          rw [List.append_nil]
          have hwrites : writes i s (.run i w) = [msg] := by
            simp only [writes, hi, if_true]
          have hown := hmoves hrunning
          rw [hwrites] at hown
          exact h.writeMoves hown
      | _ =>
          rw [List.append_nil]
          exact h.moves (hmoves hrunning) rfl

end Stage

/-! ### Runs

Each event belongs to one thread. The others keep their stages, since those speak of their own views
only. -/

/-- Every thread is at a stage of its calls, until the program ends. -/
structure AllFollowed (w : Watch) : Prop where
  running : w.state.aborted = false → ∀ i, CallStage (w.past i) (w.current i) (view w.state i)
  idle : w.state.aborted = true → ∀ i, w.state.threads i = []
  recorded : ∀ i, Recorded (w.past i)

theorem allFollowed_start (logger : FileLogger) : AllFollowed (.start logger) where
  running := fun _ _ => .outside rfl List.nil_suffix
  idle := fun _ _ => rfl
  recorded := fun _ => .nil

/-- A thread that is outside calls the logger. -/
theorem CallStage.call {past : List LogCall} {current : Option LogCall} {held : Bool}
    {buffer : List LogMessage} (h : CallStage past current ⟨held, buffer, []⟩) (c : Call) :
    CallStage past current ⟨held, buffer, c.actions⟩ := by
  cases h with
  | outside hquiet hbuffer =>
      have hfree : held = false := hquiet
      rw [hfree]
      exact .outside (quiet_call c) hbuffer
  | inside _ howes =>
      cases howes with
      | quiet hquiet => cases hquiet

theorem AllFollowed.call {w : Watch} (h : AllFollowed w) (j : Nat) (c : Call) :
    AllFollowed (follow w (.call j c)) := by
  by_cases hidle : w.state.aborted = false ∧ w.state.threads j = []
  · have hstate : step w.state (.call j c) = w.state.goOn j c.actions := if_pos hidle
    refine ⟨fun hrunning i => ?_, fun haborted => ?_, h.recorded⟩
    · show CallStage (w.past i) (w.current i) (view (step w.state (.call j c)) i)
      have hi := h.running hidle.1 i
      rw [hstate]
      by_cases hij : i = j
      · subst hij
        have hview : view w.state i = ⟨w.state.mutex.held i, w.state.buffers i, []⟩ := by
          rw [view, hidle.2]
        rw [hview] at hi
        rw [view_goOn]
        exact hi.call c
      · rw [view_goOn_of_ne hij]
        exact hi
    · have haborted' : (step w.state (.call j c)).aborted = true := haborted
      rw [hstate] at haborted'
      exact absurd (hidle.1.symm.trans haborted') Bool.false_ne_true
  · have hstate : step w.state (.call j c) = w.state := if_neg hidle
    have hwatch : follow w (.call j c) = w := by rw [follow, hstate]
    rw [hwatch]
    exact h

/-- The thread whose turn it is acts. -/
theorem AllFollowed.run {w : Watch} (h : AllFollowed w) (j : Nat) (world : World) :
    AllFollowed (follow w (.run j world)) := by
  cases hj : w.state.threads j with
  | nil =>
      have hstate : step w.state (.run j world) = w.state := by rw [step, hj]
      have hwatch : follow w (.run j world) = w := by
        simp only [follow, hstate, nextCall, endedCall, hj, List.append_nil,
          Function.update_eq_self]
      rw [hwatch]
      exact h
  | cons a rest =>
      have hstate : step w.state (.run j world) = w.state.act j world rest a := by rw [step, hj]
      have hrunning := not_aborted_of_action h.idle hj
      obtain ⟨hheld, hrecorded, hnext⟩ :=
        (h.running hrunning j).act (w := world) hj (h.recorded j)
      have hacts := Acts.act (w := world) hj rfl rfl hheld
      refine ⟨fun hafter i => ?_, fun haborted i => ?_, fun i => ?_⟩
      · change (step w.state (.run j world)).aborted = false at hafter
        show CallStage (Function.update w.past j _ i) (Function.update w.current j _ i)
          (view (step w.state (.run j world)) i)
        rw [hstate] at hafter ⊢
        by_cases hij : i = j
        · subst hij
          rw [Function.update_self, Function.update_self]
          exact hnext hafter
        · rw [Function.update_of_ne hij, Function.update_of_ne hij]
          rcases hacts with ⟨habort, -⟩ | hacts
          · rw [habort] at hafter
            cases hafter
          · rw [hacts.others i hij]
            exact h.running hrunning i
      · change (step w.state (.run j world)).aborted = true at haborted
        show (step w.state (.run j world)).threads i = []
        rw [hstate] at haborted ⊢
        rcases hacts with ⟨habort, -⟩ | hacts
        · rw [habort]
          rfl
        · rw [hacts.aborted, hrunning] at haborted
          cases haborted
      · show Recorded (Function.update w.past j _ i)
        by_cases hij : i = j
        · subst hij
          rw [Function.update_self]
          exact hrecorded
        · rw [Function.update_of_ne hij]
          exact h.recorded i

theorem AllFollowed.follow {w : Watch} (h : AllFollowed w) (e : Event) :
    AllFollowed (FileLogger.follow w e) := by
  cases e with
  | call j c => exact h.call j c
  | run j world => exact h.run j world

/-- **The calls of a thread are recorded faithfully**, whatever the other threads do and whatever
the settings become. -/
theorem recorded_run (logger : FileLogger) (events : List Event) (i : Nat) :
    Recorded (logCalls logger events i) :=
  (Run.inv_run (I := AllFollowed) (fun _ e h => h.follow e)
    (allFollowed_start logger) events).recorded i

/-! ### Buffers that respect their size

From here on there are only recorded calls, one after the other. -/

theorem suffix_rtake {l m : List LogMessage} {n : Nat} (h : l <:+ m) (hlength : l.length ≤ n) :
    l <:+ m.rtake n := by
  obtain ⟨front, rfl⟩ := h
  have hcut : (front ++ l).length - n ≤ front.length := by
    rw [List.length_append]
    omega
  rw [List.rtake, List.drop_append_of_le_length hcut]
  exact List.suffix_append _ _

theorem appended_length (size : Int) (buffer : List LogMessage) (msg : LogMessage) :
    ((appended size buffer msg).length : Int) =
      if size < buffer.length + 1 then (buffer.length : Int) else buffer.length + 1 := by
  unfold appended
  dsimp only
  rw [List.length_append, List.length_singleton]
  by_cases hfull : size < (buffer.length : Int) + 1
  · rw [if_pos (by omega), if_pos hfull, List.length_tail, List.length_append,
      List.length_singleton, Nat.add_sub_cancel]
  · rw [if_neg (by omega), if_neg hfull, List.length_append, List.length_singleton]
    omega

/-- The buffer is the end of what was there and the new message. -/
theorem appended_suffix (size : Int) (buffer : List LogMessage) (msg : LogMessage) :
    appended size buffer msg <:+ buffer ++ [msg] := by
  unfold appended
  dsimp only
  split
  · exact List.tail_suffix _
  · exact List.suffix_refl _

/-- The sizes are respected exactly by a call that finds a buffer of its size. -/
theorem LogCall.fits_iff {c : LogCall} (hwritten : c.written = c.prints)
    (hafter : c.after = c.leaves) :
    c.Fits ↔ (c.after.length : Int) ≤ c.size ∧ (c.written.length : Int) ≤ max c.size 1 := by
  have happended := appended_length c.size c.before c.msg
  rw [hwritten, hafter, LogCall.Fits, LogCall.prints, LogCall.leaves]
  by_cases hsize : 0 < c.size
  · rw [if_pos hsize, if_pos hsize]
    by_cases htriggers : c.Triggers
    · rw [if_pos htriggers, if_pos htriggers, happended, List.length_nil]
      split <;> omega
    · rw [if_neg htriggers, if_neg htriggers, happended, List.length_nil]
      split <;> omega
  · rw [if_neg hsize, if_neg hsize]
    have hone : ((if c.Triggers then [c.msg] else []).length : Int) ≤ max c.size 1 := by
      split <;> simp only [List.length_singleton, List.length_nil] <;> omega
    exact ⟨fun hfits => ⟨hfits, hone⟩, fun hsizes => hsizes.1⟩

/-- What such a call finds, prints and leaves are the last messages of the thread. -/
theorem LogCall.respects_of_fits {c : LogCall} {history : List LogMessage}
    (hwritten : c.written = c.prints) (hafter : c.after = c.leaves) (hbefore : c.before <:+ history)
    (hfits : c.Fits) : c.Respects (history ++ [c.msg]) := by
  obtain ⟨hsize, hwrites⟩ := (LogCall.fits_iff hwritten hafter).mp hfits
  have hextended : c.before ++ [c.msg] <:+ history ++ [c.msg] := by
    obtain ⟨front, rfl⟩ := hbefore
    rw [List.append_assoc]
    exact List.suffix_append _ _
  have happended : appended c.size c.before c.msg <:+ history ++ [c.msg] :=
    (appended_suffix _ _ _).trans hextended
  refine ⟨hsize, hwrites, suffix_rtake ?_ (by omega), suffix_rtake ?_ (by omega)⟩
  · rw [hafter, LogCall.leaves]
    by_cases hpos : 0 < c.size
    · rw [if_pos hpos]
      split
      · exact List.nil_suffix
      · exact happended
    · -- the buffer that is not used is empty
      rw [if_neg hpos]
      have hnil : c.before = [] := List.eq_nil_of_length_eq_zero
          (by unfold LogCall.Fits at hfits; omega)
      rw [hnil]
      exact List.nil_suffix
  · rw [hwritten, LogCall.prints]
    split
    · split
      · exact happended
      · exact List.suffix_append _ _
    · exact List.nil_suffix

/-- Every call respects the size it found. -/
def AllRespect (calls : List LogCall) : Prop :=
  ∀ past c later, calls = past ++ c :: later → c.Respects ((past ++ [c]).map LogCall.msg)

theorem allRespect_concat {calls : List LogCall} {c : LogCall} :
    AllRespect (calls ++ [c]) ↔ AllRespect calls ∧ c.Respects ((calls ++ [c]).map LogCall.msg) := by
  constructor
  · intro h
    refine ⟨fun past d later heq => h past d (later ++ [c]) ?_, h calls c [] rfl⟩
    rw [heq, List.append_assoc, List.cons_append]
  · rintro ⟨h, hlast⟩ past d later heq
    rcases List.eq_nil_or_concat later with rfl | ⟨later', e, rfl⟩
    · obtain ⟨rfl, hsame⟩ := List.append_inj' heq rfl
      rw [← List.singleton_inj.mp hsame]
      exact hlast
    · rw [List.concat_eq_append, ← List.cons_append, ← List.append_assoc] at heq
      exact h past d later' (List.append_inj' heq rfl).1

/-- **Recorded calls respect their sizes** exactly when each found a buffer of its size; and then
what is left of the last one are the last messages. -/
theorem Recorded.respect_iff {calls : List LogCall} (h : Recorded calls) :
    (AllRespect calls ↔ ∀ c ∈ calls, c.Fits) ∧
      ((∀ c ∈ calls, c.Fits) → lastLeft calls <:+ calls.map LogCall.msg) := by
  induction h with
  | nil =>
      refine ⟨⟨fun _ c hc => absurd hc List.not_mem_nil, fun _ past c later heq => ?_⟩,
        fun _ => List.nil_suffix⟩
      exact absurd heq.symm (by simp)
  | @concat calls c _ hbefore hwritten hafter ih =>
      obtain ⟨hiff, hlast⟩ := ih
      have hrespects : (∀ d ∈ calls, d.Fits) → c.Fits →
          c.Respects ((calls ++ [c]).map LogCall.msg) := by
        intro hall hfits
        rw [List.map_append]
        exact LogCall.respects_of_fits hwritten hafter (hbefore.trans (hlast hall)) hfits
      have hmem : (∀ d ∈ calls ++ [c], d.Fits) ↔ (∀ d ∈ calls, d.Fits) ∧ c.Fits := by
        simp only [List.mem_append, List.mem_singleton, or_imp, forall_and, forall_eq]
      rw [allRespect_concat, hmem, hiff]
      refine ⟨⟨fun ⟨hall, hc⟩ => ⟨hall, ?_⟩, fun ⟨hall, hc⟩ => ⟨hall, hrespects hall hc⟩⟩,
        fun ⟨hall, hc⟩ => ?_⟩
      · exact (LogCall.fits_iff hwritten hafter).mpr ⟨hc.size, hc.writes⟩
      · rw [lastLeft_concat]
        exact (hrespects hall hc).later.trans (List.drop_suffix _ _)

/-- **When the buffer respects a changed size**: in every run, whatever the threads call and the
settings become, the calls of a thread respect the sizes they find if and only if each of them
finds a buffer that is no longer than that size. -/
theorem allRespect_iff (logger : FileLogger) (events : List Event) (i : Nat) :
    AllRespect (logCalls logger events i) ↔ ∀ c ∈ logCalls logger events i, c.Fits :=
  (recorded_run logger events i).respect_iff.1

/-- A thread logs three messages into a buffer for three, the size is set, and it logs an important
one. -/
def resized (size : Int) : List Event :=
  let set : World := { writable with settings := ⟨ascii "a", 0, 1, size⟩ }
  [ascii "first", ascii "second", ascii "third"].flatMap (fun text =>
      .call 0 (.log ⟨.QtDebugMsg, text⟩) :: List.replicate 3 (.run 0 writable)) ++
    .call 0 .refreshTimer :: List.replicate 3 (.run 0 set) ++
    .call 0 (.log ⟨.QtCriticalMsg, ascii "fourth"⟩) :: List.replicate 10 (.run 0 writable)

/-- **A lowered size has no effect on a full buffer**: with the size 1 the important message still
prints three messages, and with the size 0 the three messages stay in the buffer. -/
theorem not_allRespect_lowered :
    let logger : FileLogger := ⟨ascii "a", 0, 1, 3, true⟩
    ((logCalls logger (resized 1) 0).getLast?.map fun c => c.written.map LogMessage.message) =
        some [ascii "second", ascii "third", ascii "fourth"] ∧
      ¬ AllRespect (logCalls logger (resized 1) 0) ∧
      ((logCalls logger (resized 0) 0).getLast?.map fun c => c.after.map LogMessage.message) =
        some [ascii "first", ascii "second", ascii "third"] ∧
      ¬ AllRespect (logCalls logger (resized 0) 0) := by
  intro logger
  have hone : ¬ ∀ c ∈ logCalls logger (resized 1) 0, c.Fits := by decide +kernel
  have hzero : ¬ ∀ c ∈ logCalls logger (resized 0) 0, c.Fits := by decide +kernel
  refine ⟨by decide +kernel, fun hall => ?_, by decide +kernel, fun hall => ?_⟩
  · exact hone ((recorded_run logger (resized 1) 0).respect_iff.1.mp hall)
  · exact hzero ((recorded_run logger (resized 0) 0).respect_iff.1.mp hall)

end FileLogger

end QtWebApp
