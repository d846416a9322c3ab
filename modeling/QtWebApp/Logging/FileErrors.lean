import QtWebApp.Logging.Buffer

/-!
# QtWebApp.Logging.FileErrors

What becomes of the messages that are handed to `FileLogger::write` when the log file fails.

A message is accepted by the log file, or the fall-back of the super class prints it. In between a
thread keeps the mutex of the logger (`Guarded`), so that no other thread opens a file, and the
fall-back always finds the file closed. What is handed over is therefore what was accepted or
printed and what has still to be printed, in every run (`kept_run`). As long as writing works, that
is at most the message that its thread prints next, and nothing holds a thread up that flushes its
buffer (`Straight`). Where writing fails, though, the file is closed and then asked for the reason.

The same view of a thread is used as for the buffers, one thread at a time: what it has still to do,
whether it has the mutex, and whether the file is open (`Writer`).
-/

namespace QtWebApp

/-- The message that goes to the file or to `stderr`. -/
def Output.msg : Output → LogMessage
  | .file msg | .stderr msg => msg

namespace FileLogger

open State

/-! ### What the log file does

What may go wrong, and what is asked of the logger in spite of it. -/

/-- A message is written, and the null pointer is used for it. -/
def UsesNull (s : State) : Event → Prop
  | .call _ _ => False
  | .run i w =>
      match s.threads i with
      | .write msg :: rest => ({ s with usedNull := false }.write i w msg rest).usedNull = true
      | _ => False

/-- Actions that write to the log file. -/
def writesFile (s : State) : Action → Bool
  | .write _ => s.logger.file
  | _ => false

/-- The log file is not in error after writing and flushing. -/
def FileWorks (s : State) : Event → Prop
  | .call _ _ => True
  | .run i w => ∀ a ∈ (s.threads i).head?, writesFile s a = true → w.error = false

instance (s : State) : (e : Event) → Decidable (FileWorks s e)
  | .call _ _ => inferInstanceAs (Decidable True)
  | .run i w => inferInstanceAs (Decidable
      (∀ a ∈ (s.threads i).head?, writesFile s a = true → w.error = false))

/-- What an event puts out for the messages that thread `i` hands to `write`. -/
def delivers (i : Nat) (s : State) : Event → List Output
  | .call _ _ => []
  | .run j w =>
      match s.threads j with
      | .write _ :: _ | .fallBack _ :: _ =>
          if j = i then (step s (.run j w)).output.drop s.output.length else []
      | _ => []

/-- The message that a thread prints through the fall-back before it does anything else. -/
def nextFallBack : List Action → List LogMessage
  | .fallBack msg :: _ => [msg]
  | _ => []

/-- Actions that take the messages of a buffer one by one to the file or to the fall-back. None of
them waits for anything. -/
def delivering : Action → Bool
  | .drain | .write _ | .fallBack _ => true
  | _ => false

/-- The log file fails without harm: `write` never uses the null pointer; what is handed to it is
put out, but for a message that its thread is about to print; and a thread that flushes its buffer
does nothing else before. -/
structure Survives (logger : FileLogger) (events : List Event) : Prop where
  pointer : Run.Along step (fun s e => ¬ UsesNull s e) (start logger) events
  messages : ∀ before after, events = before ++ after →
    (run step (start logger) before).aborted = false → ∀ i,
      Run.shown step (writes i) (start logger) before =
        (Run.shown step (delivers i) (start logger) before).map Output.msg ++
          nextFallBack ((run step (start logger) before).threads i)
  rest : ∀ before after, events = before ++ after → ∀ i,
    .drain ∈ (run step (start logger) before).threads i →
      ∃ a ∈ ((run step (start logger) before).threads i).head?, delivering a = true

/-- The null pointer is used exactly after an error. -/
theorem usesNull_iff (s : State) (e : Event) : UsesNull s e ↔ ¬ FileWorks s e := by
  cases e with
  | call i c => exact iff_of_false id fun h => h trivial
  | run i w =>
      rw [UsesNull, FileWorks]
      cases s.threads i with
      | nil => exact iff_of_false id fun h => h fun a ha => absurd ha (Option.not_mem_none a)
      | cons a rest =>
          have hhead : (∀ b ∈ (a :: rest).head?, writesFile s b = true → w.error = false) ↔
              (writesFile s a = true → w.error = false) := by simp
          rw [hhead]
          cases a with
          | write msg =>
              simp only [State.write, writesFile]
              cases s.logger.file with
              | false =>
                  have hclosed : false = true → w.error = false := fun hfile =>
                    absurd hfile Bool.false_ne_true
                  exact iff_of_false Bool.false_ne_true fun h => h hclosed
              | true =>
                  cases w.error with
                  | false => exact iff_of_false Bool.false_ne_true fun h => h fun _ => rfl
                  | true => exact iff_of_true rfl (by simp)
          | _ => exact iff_of_false id fun h => h fun hnone => absurd hnone Bool.false_ne_true

/-! ### What a thread does with the file

An action is seen as what it does to a writer (`Uses`): it hands a message over, puts one out, or
does neither. The message that could not be written is put in front of what the thread has still to
do, behind the report of the error. -/

/-- The messages that a thread has still to print through the fall-back. -/
def fallBacks (actions : List Action) : List LogMessage :=
  actions.filterMap fun
    | .fallBack msg => some msg
    | _ => none

/-- Actions that neither lock nor unlock the mutex of the logger, nor print a message that could not
be written. -/
def ordinary : Action → Bool
  | .lockMutex | .unlockMutex | .fallBack _ => false
  | _ => true

/-- Actions that a thread takes only while it has the mutex of the logger. -/
def underMutex : Action → Bool
  | .log _ | .drain | .clear _ | .write _ | .fallBack _ | .refreshSettings | .openFile | .dropFile
  | .flush => true
  | _ => false

/-- What a thread knows of the file: whether it has the mutex, whether the file is open, and what it
has to do. -/
structure Writer where
  held : Bool
  file : Bool
  actions : List Action

/-- Thread `i` as a writer. -/
def writer (s : State) (i : Nat) : Writer := ⟨s.mutex.held i, s.logger.file, s.threads i⟩

/-- What an action of a thread changes, which message it hands to `write`, and what is put out. -/
inductive Uses : Writer → List LogMessage → List Output → Writer → Prop
  | wait (v : Writer) : Uses v [] [] v
  | lock (file : Bool) (rest : List Action) :
      Uses ⟨false, file, .lockMutex :: rest⟩ [] [] ⟨true, file, rest⟩
  | unlock (held file : Bool) (rest : List Action) :
      Uses ⟨held, file, .unlockMutex :: rest⟩ [] [] ⟨false, file, rest⟩
  /-- The handler calls `log`. -/
  | handler (held file : Bool) (msg : LogMessage) (rest : List Action) :
      Uses ⟨held, file, .tryNonRecursive msg :: rest⟩ [] []
        ⟨held, file, Logger.log msg ++ .unlockNonRecursive :: rest⟩
  /-- The flush timer has found a file. -/
  | timer (held file : Bool) (rest : List Action) :
      Uses ⟨held, file, .checkFile :: rest⟩ [] []
        ⟨held, file, .lockMutex :: .flush :: .unlockMutex :: rest⟩
  | accepted (held : Bool) (msg : LogMessage) (rest : List Action) :
      Uses ⟨held, true, .write msg :: rest⟩ [msg] [.file msg] ⟨held, true, rest⟩
  | failed (held : Bool) (msg : LogMessage) (text : Bytes) (rest : List Action) :
      Uses ⟨held, true, .write msg :: rest⟩ [msg] []
        ⟨held, false, Logger.qWarning text ++ .fallBack msg :: rest⟩
  | closed (held : Bool) (msg : LogMessage) (rest : List Action) :
      Uses ⟨held, false, .write msg :: rest⟩ [msg] [] ⟨held, false, .fallBack msg :: rest⟩
  | printed (held : Bool) (msg : LogMessage) (rest : List Action) :
      Uses ⟨held, false, .fallBack msg :: rest⟩ [] [.stderr msg] ⟨held, false, rest⟩
  /-- The file was opened in between. -/
  | lost (held : Bool) (msg : LogMessage) (rest : List Action) :
      Uses ⟨held, true, .fallBack msg :: rest⟩ [] [] ⟨held, true, rest⟩
  /-- The rest of what is done under the mutex; it may open or close the file. -/
  | work (held file file' : Bool) (a : Action) (new rest : List Action) (ha : underMutex a = true)
      (hordinary : ordinary a = true) (hnew : ∀ b ∈ new, ordinary b = true) :
      Uses ⟨held, file, a :: rest⟩ [] [] ⟨held, file', new ++ rest⟩
  | skip (held file : Bool) (a : Action) (rest : List Action) (ha : underMutex a = false)
      (hordinary : ordinary a = true) : Uses ⟨held, file, a :: rest⟩ [] [] ⟨held, file, rest⟩

@[simp] theorem writer_goOn (s : State) (i : Nat) (actions : List Action) :
    writer (s.goOn i actions) i = ⟨s.mutex.held i, s.logger.file, actions⟩ := by
  simp only [writer, goOn, Function.update_self]

theorem writer_goOn_of_ne {i j : Nat} (hij : i ≠ j) (s : State) (actions : List Action) :
    writer (s.goOn j actions) i = writer s i := by
  simp only [writer, goOn, Function.update_of_ne hij]

theorem writer_eq {s : State} {i : Nat} {a : Action} {rest : List Action}
    (hi : s.threads i = a :: rest) :
    writer s i = ⟨s.mutex.held i, s.logger.file, a :: rest⟩ := by
  rw [writer, hi]

section Uses

variable {s t : State} {i : Nat} {w : World} {a : Action} {rest : List Action}

/-- A message is handed over, and written, or kept for the fall-back. -/
theorem Uses.write {msg : LogMessage} (hi : s.threads i = .write msg :: rest) :
    Uses (writer s i) [msg] ((s.write i w msg rest).output.drop s.output.length)
      (writer (s.write i w msg rest) i) := by
  rw [writer_eq hi, State.write]
  cases hfile : s.logger.file with
  | false =>
      have hsame : (s.goOn i (.fallBack msg :: rest)).output.drop s.output.length = [] :=
        List.drop_length
      rw [if_neg Bool.false_ne_true, hsame, writer_goOn, hfile]
      exact .closed _ msg rest
  | true =>
      rw [if_pos rfl]
      cases w.error with
      | false =>
          have hnew : ((s.print (.file msg)).goOn i rest).output.drop s.output.length =
              [.file msg] :=
            List.drop_left
          rw [if_neg Bool.false_ne_true, hnew, writer_goOn]
          show Uses _ _ _ ⟨s.mutex.held i, s.logger.file, rest⟩
          rw [hfile]
          exact .accepted _ msg rest
      | true =>
          have hsame : s.output.drop s.output.length = [] := List.drop_length
          rw [if_pos rfl, writer_goOn]
          show Uses _ _ (s.output.drop s.output.length) _
          rw [hsame]
          exact .failed _ msg _ rest

/-- The fall-back prints a message when the file is closed. -/
theorem Uses.fallBack {msg : LogMessage} (hi : s.threads i = .fallBack msg :: rest) :
    Uses (writer s i) [] ((s.act i w rest (.fallBack msg)).output.drop s.output.length)
      (writer (s.act i w rest (.fallBack msg)) i) := by
  rw [writer_eq hi, State.act]
  cases hfile : s.logger.file with
  | false =>
      have hnew : ((s.print (.stderr msg)).goOn i rest).output.drop s.output.length =
          [.stderr msg] :=
        List.drop_left
      rw [if_neg Bool.false_ne_true, hnew, writer_goOn]
      show Uses _ _ _ ⟨s.mutex.held i, s.logger.file, rest⟩
      rw [hfile]
      exact .printed _ msg rest
  | true =>
      have hsame : (s.goOn i rest).output.drop s.output.length = [] := List.drop_length
      rw [if_pos rfl, hsame, writer_goOn, hfile]
      exact .lost _ msg rest

/-- Thread `i` goes on under the mutex. -/
theorem Uses.goOn_work (hi : s.threads i = a :: rest) (ha : underMutex a = true)
    (hordinary : ordinary a = true) (hmutex : t.mutex = s.mutex) (new : List Action)
    (hnew : ∀ b ∈ new, ordinary b = true) :
    Uses (writer s i) [] [] (writer (t.goOn i (new ++ rest)) i) := by
  rw [writer_eq hi, writer_goOn, hmutex]
  exact .work _ _ _ a new rest ha hordinary hnew

/-- Thread `i` goes on, and nothing has happened to the file. -/
theorem Uses.goOn_skip (hi : s.threads i = a :: rest) (ha : underMutex a = false)
    (hordinary : ordinary a = true) (hmutex : t.mutex = s.mutex) (hlogger : t.logger = s.logger) :
    Uses (writer s i) [] [] (writer (t.goOn i rest) i) := by
  rw [writer_eq hi, writer_goOn, hmutex, hlogger]
  exact .skip _ _ a rest ha hordinary

theorem ordinary_qWarning (text : Bytes) {more : List Action} (h : ∀ b ∈ more, ordinary b = true) :
    ∀ b ∈ Logger.qWarning text ++ more, ordinary b = true := by
  have hhandler : ∀ b ∈ Logger.qWarning text, ordinary b = true := by
    simp [Logger.qWarning, Logger.msgHandler, ordinary]
  exact List.forall_mem_append.mpr ⟨hhandler, h⟩

theorem Uses.openFile (hi : s.threads i = .openFile :: rest) :
    Uses (writer s i) [] [] (writer (s.openFile i w rest) i) := by
  have hnone : ∀ b ∈ ([] : List Action), ordinary b = true := List.forall_mem_nil _
  rw [State.openFile]
  split
  · have hnew := ordinary_qWarning (ascii "Name of logFile is empty") hnone
    rw [List.append_nil] at hnew
    exact Uses.goOn_work hi rfl rfl (by rfl) _ hnew
  · dsimp only
    split
    · exact Uses.goOn_work hi rfl rfl (by rfl) [] hnone
    · have hdrop : ∀ b ∈ [Action.dropFile], ordinary b = true := List.forall_mem_singleton.mpr rfl
      rw [List.append_cons]
      exact Uses.goOn_work hi rfl rfl (by rfl) _ (ordinary_qWarning _ hdrop)

/-- Actions that hand a message to `write`, or print it. -/
def handles : Action → Bool
  | .write _ | .fallBack _ => true
  | _ => false

/-- The other actions hand nothing over and put nothing out for it. -/
theorem Uses.other (hi : s.threads i = a :: rest) (ha : handles a = false) :
    s.act i w rest a = s.abort ∨ Uses (writer s i) [] [] (writer (s.act i w rest a) i) := by
  have hnone : ∀ b ∈ ([] : List Action), ordinary b = true := List.forall_mem_nil _
  have hone : ∀ {c : Action}, ordinary c = true → ∀ b ∈ [c], ordinary b = true :=
    fun hc => List.forall_mem_singleton.mpr hc
  cases a with
  | write => cases ha
  | fallBack => cases ha
  -- the mutexes and the message handler
  | lockMutex =>
      refine .inr ?_
      rw [State.act]
      cases hlock : s.mutex.tryLock i with
      | none => exact .wait _
      | some m =>
          obtain ⟨hfree, rfl⟩ := Mutex.tryLock_some hlock
          rw [writer_eq hi, writer_goOn, hfree, Mutex.held_free, Mutex.held_owned,
            decide_eq_true rfl]
          exact .lock _ rest
  | unlockMutex =>
      refine .inr ?_
      rw [State.act, writer_eq hi, writer_goOn, Mutex.held_free]
      exact .unlock _ _ rest
  | tryNonRecursive msg =>
      refine .inr ?_
      rw [State.act]
      split
      · rw [writer_eq hi, writer_goOn]
        exact .handler _ _ msg rest
      · exact Uses.goOn_skip hi rfl rfl (by rfl) (by rfl)
  | checkFile =>
      refine .inr ?_
      rw [State.act]
      split
      · rw [writer_eq hi, writer_goOn]
        exact .timer _ _ rest
      · exact Uses.goOn_skip hi rfl rfl (by rfl) (by rfl)
  | lockRecursive =>
      refine .inr ?_
      rw [State.act]
      split
      · exact Uses.goOn_skip hi rfl rfl (by rfl) (by rfl)
      · exact .wait _
  | abortIfFatal type =>
      rw [State.act]
      split
      · exact .inl rfl
      · exact .inr (Uses.goOn_skip hi rfl rfl (by rfl) (by rfl))
  | unlockNonRecursive => exact .inr (Uses.goOn_skip hi rfl rfl (by rfl) (by rfl))
  | unlockRecursive => exact .inr (Uses.goOn_skip hi rfl rfl (by rfl) (by rfl))
  -- what is done under the mutex of the logger
  | log msg =>
      refine .inr ?_
      rw [State.act, State.log]
      split
      · split
        · exact Uses.goOn_work hi rfl rfl (by rfl) [.drain] (hone rfl)
        · exact Uses.goOn_work hi rfl rfl (by rfl) [] hnone
      · split
        · exact Uses.goOn_work hi rfl rfl (by rfl) [.write msg] (hone rfl)
        · exact Uses.goOn_work hi rfl rfl (by rfl) [] hnone
  | drain =>
      refine .inr ?_
      rw [State.act, State.drain]
      split
      · exact Uses.goOn_work hi rfl rfl (by rfl) [] hnone
      · next msg buffer _ =>
          have htwo : ∀ b ∈ [Action.write msg, .drain], ordinary b = true := by simp [ordinary]
          exact Uses.goOn_work hi rfl rfl (by rfl) [.write msg, .drain] htwo
  | clear buffer =>
      refine .inr ?_
      rw [State.act]
      split
      · exact Uses.goOn_work hi rfl rfl (by rfl) [] hnone
      · exact Uses.goOn_work hi rfl rfl (by rfl) [] hnone
  | refreshSettings =>
      refine .inr ?_
      rw [State.act, State.refreshSettings]
      split
      · exact Uses.goOn_work hi rfl rfl (by rfl) [.openFile] (hone rfl)
      · exact Uses.goOn_work hi rfl rfl (by rfl) [] hnone
  | openFile => exact .inr (Uses.openFile hi)
  | dropFile => exact .inr (Uses.goOn_work hi rfl rfl (by rfl) [] hnone)
  | flush =>
      refine .inr ?_
      rw [State.act, State.flush]
      split
      · exact Uses.goOn_work hi rfl rfl (by rfl) [.openFile] (hone rfl)
      · exact Uses.goOn_work hi rfl rfl (by rfl) [] hnone

/-- **What an action does with the file**, unless it ends the program. -/
theorem Uses.act (hi : s.threads i = a :: rest) :
    (s.act i w rest a = s.abort ∧ writes i s (.run i w) = [] ∧ delivers i s (.run i w) = []) ∨
      Uses (writer s i) (writes i s (.run i w)) (delivers i s (.run i w))
        (writer (s.act i w rest a) i) := by
  have hstep : step s (.run i w) = s.act i w rest a := by rw [step, hi]
  rw [writes, delivers, hstep, hi]
  cases a with
  | write msg =>
      refine .inr ?_
      simp only [if_true]
      exact Uses.write hi
  | fallBack msg =>
      refine .inr ?_
      simp only [if_true]
      exact Uses.fallBack hi
  | _ => exact (Uses.other hi rfl).imp (fun habort => ⟨habort, rfl, rfl⟩) id

end Uses

/-! ### A message is put out or still to be printed

The ledger of a thread: what it has handed over is what was put out and what it has still to print.
It holds in every run, also where the logger fails. -/

/-- What a thread does to the file it does while it has the mutex, and so it prints what could not
be written; while it waits for a mutex that it has already, it does nothing at all. -/
def Guarded (held : Bool) : List Action → Prop
  | [] => True
  | .lockMutex :: rest => held = true ∨ fallBacks rest = [] ∧ Guarded true rest
  | .unlockMutex :: rest => held = true ∧ fallBacks rest = [] ∧ Guarded false rest
  | .log _ :: rest | .drain :: rest | .clear _ :: rest | .write _ :: rest | .fallBack _ :: rest
  | .refreshSettings :: rest | .openFile :: rest | .dropFile :: rest | .flush :: rest =>
      held = true ∧ fallBacks rest = [] ∧ Guarded held rest
  | .lockRecursive :: rest | .tryNonRecursive _ :: rest | .unlockNonRecursive :: rest
  | .abortIfFatal _ :: rest | .unlockRecursive :: rest | .checkFile :: rest => Guarded held rest

section Guarded

variable {held : Bool} {a : Action} {new rest actions : List Action}

/-- An action under the mutex can be taken off the front. -/
theorem guarded_under (ha : underMutex a = true) :
    Guarded held (a :: rest) ↔ held = true ∧ fallBacks rest = [] ∧ Guarded held rest := by
  cases a <;> first | exact Iff.rfl | cases ha

theorem guarded_plain (ha : underMutex a = false) (hordinary : ordinary a = true) :
    Guarded held (a :: rest) ↔ Guarded held rest := by
  cases a <;> first | exact Iff.rfl | exact absurd hordinary (by decide) | cases ha

theorem fallBacks_ordinary (hordinary : ordinary a = true) :
    fallBacks (a :: rest) = fallBacks rest := by
  cases a <;> first | rfl | cases hordinary

theorem fallBacks_append (hnew : ∀ b ∈ new, ordinary b = true) :
    fallBacks (new ++ rest) = fallBacks rest := by
  induction new with
  | nil => rfl
  | cons a new ih =>
      obtain ⟨ha, hnew'⟩ := List.forall_mem_cons.mp hnew
      rw [List.cons_append, fallBacks_ordinary ha]
      exact ih hnew'

theorem Guarded.append (hnew : ∀ b ∈ new, ordinary b = true) (hfree : fallBacks rest = [])
    (h : Guarded true rest) : Guarded true (new ++ rest) := by
  induction new with
  | nil => exact h
  | cons a new ih =>
      obtain ⟨hordinary, hnew'⟩ := List.forall_mem_cons.mp hnew
      rw [List.cons_append]
      by_cases ha : underMutex a = true
      · exact (guarded_under ha).mpr ⟨rfl, (fallBacks_append hnew').trans hfree, ih hnew'⟩
      · exact (guarded_plain ((Bool.not_eq_true _).mp ha) hordinary).mpr (ih hnew')

/-- A thread without the mutex has nothing to print through the fall-back. -/
theorem Guarded.free (h : Guarded false actions) : fallBacks actions = [] := by
  induction actions with
  | nil => rfl
  | cons a rest ih =>
      by_cases ha : underMutex a = true
      · exact absurd ((guarded_under ha).mp h).1 Bool.false_ne_true
      · have hplain := (Bool.not_eq_true _).mp ha
        by_cases hordinary : ordinary a = true
        · rw [fallBacks_ordinary hordinary]
          exact ih ((guarded_plain hplain hordinary).mp h)
        · cases a with
          | lockMutex => exact (h.resolve_left Bool.false_ne_true).1
          | unlockMutex => exact absurd h.1 Bool.false_ne_true
          | fallBack => cases hplain
          | _ => exact absurd rfl hordinary

/-- Something is done under the mutex, or waits for it for ever. -/
theorem Guarded.locked (h : Guarded held rest) (ha : underMutex a = true)
    (hordinary : ordinary a = true) : Guarded held (.lockMutex :: a :: .unlockMutex :: rest) := by
  cases held with
  | true => exact .inl rfl
  | false =>
      have hfree : fallBacks rest = [] := h.free
      have hafter : fallBacks (a :: .unlockMutex :: rest) = [] :=
        (fallBacks_ordinary hordinary).trans hfree
      exact .inr ⟨hafter, (guarded_under ha).mpr ⟨rfl, hfree, rfl, hfree, h⟩⟩

end Guarded

/-- What a thread has handed to `write` is what was put out for it, and what it has still to print;
it prints when the file is closed. -/
structure Kept (handed : List LogMessage) (delivered : List Output) (v : Writer) : Prop where
  guarded : Guarded v.held v.actions
  closed : v.file = true → fallBacks v.actions = []
  ledger : handed = delivered.map Output.msg ++ fallBacks v.actions

section Kept

variable {handed hs : List LogMessage} {delivered ds : List Output} {v v' : Writer}

/-- A message more that is handed over and has still to be printed. -/
theorem owed_concat {msg : LogMessage} {rest : List Action}
    (hledger : handed = delivered.map Output.msg ++ fallBacks rest) (hfree : fallBacks rest = []) :
    handed ++ [msg] = delivered.map Output.msg ++ msg :: fallBacks rest := by
  rw [hledger, hfree, List.append_nil]

/-- **The step of the ledger**, one case for each kind of action. -/
theorem Kept.uses (h : Kept handed delivered v) (hu : Uses v hs ds v') :
    Kept (handed ++ hs) (delivered ++ ds) v' := by
  obtain ⟨hguarded, hclosed, hledger⟩ := h
  cases hu with
  | wait =>
      rw [List.append_nil, List.append_nil]
      exact ⟨hguarded, hclosed, hledger⟩
  | lock =>
      rw [List.append_nil, List.append_nil]
      exact ⟨(hguarded.resolve_left Bool.false_ne_true).2, hclosed, hledger⟩
  | unlock =>
      rw [List.append_nil, List.append_nil]
      exact ⟨hguarded.2.2, hclosed, hledger⟩
  | handler held file msg rest =>
      rw [List.append_nil, List.append_nil]
      have hrest : Guarded held (.unlockNonRecursive :: rest) := hguarded
      exact ⟨hrest.locked rfl rfl, hclosed, hledger⟩
  | timer held file rest =>
      rw [List.append_nil, List.append_nil]
      have hrest : Guarded held rest := hguarded
      exact ⟨hrest.locked rfl rfl, hclosed, hledger⟩
  | accepted held msg rest =>
      obtain ⟨-, hfree, hrest⟩ := hguarded
      refine ⟨hrest, fun _ => hfree, ?_⟩
      rw [List.map_append, List.append_assoc]
      exact owed_concat hledger hfree
  | failed held msg text rest =>
      obtain ⟨hheld, hfree, hrest⟩ := hguarded
      refine ⟨⟨hheld, hfree, hrest⟩, fun hfile => absurd hfile Bool.false_ne_true, ?_⟩
      rw [List.append_nil]
      exact owed_concat hledger hfree
  | closed held msg rest =>
      obtain ⟨hheld, hfree, hrest⟩ := hguarded
      refine ⟨⟨hheld, hfree, hrest⟩, fun hfile => absurd hfile Bool.false_ne_true, ?_⟩
      rw [List.append_nil]
      exact owed_concat hledger hfree
  | printed held msg rest =>
      obtain ⟨-, hfree, hrest⟩ := hguarded
      refine ⟨hrest, fun hfile => absurd hfile Bool.false_ne_true, ?_⟩
      rw [hledger, List.append_nil, List.map_append, List.append_assoc]
      rfl
  | lost held msg rest => exact absurd (hclosed rfl) (List.cons_ne_nil _ _)
  | work held file file' a new rest ha hordinary hnew =>
      obtain ⟨rfl, hfree, hrest⟩ := (guarded_under ha).mp hguarded
      rw [List.append_nil, List.append_nil]
      refine ⟨hrest.append hnew hfree, fun _ => (fallBacks_append hnew).trans hfree, ?_⟩
      rw [hledger, fallBacks_append hnew, fallBacks_ordinary hordinary]
  | skip held file a rest ha hordinary =>
      rw [List.append_nil, List.append_nil]
      have hsame : fallBacks (a :: rest) = fallBacks rest := fallBacks_ordinary hordinary
      exact ⟨(guarded_plain ha hordinary).mp hguarded, fun hfile =>
        hsame.symm.trans (hclosed hfile),
        hsame ▸ hledger⟩

/-- A file is opened by a thread that has the mutex. -/
theorem Uses.opens (hu : Uses v hs ds v') (hguarded : Guarded v.held v.actions)
    (hopen : v'.file = true) : v.file = true ∨ v.held = true := by
  cases hu with
  | work held file file' a new rest ha => exact .inr ((guarded_under ha).mp hguarded).1
  | accepted => exact .inl rfl
  | lost => exact .inl rfl
  | failed => cases hopen
  | closed => cases hopen
  | printed => cases hopen
  | _ => exact .inl hopen

end Kept

/-! ### All threads

The ledgers of the threads side by side. An action changes the one of its own thread; that a file is
opened concerns the others, too, and they have nothing to print through the fall-back then. -/

/-- Every thread prints what could not be written, until the program ends. -/
structure AllKept (s : State) (handed : Nat → List LogMessage) (delivered : Nat → List Output) :
    Prop where
  running : s.aborted = false → ∀ i, Kept (handed i) (delivered i) (writer s i)
  idle : s.aborted = true → ∀ i, s.threads i = []

section Run

variable {s : State} {handed : Nat → List LogMessage} {delivered : Nat → List Output}

theorem allKept_start (logger : FileLogger) :
    AllKept (start logger) (fun _ => []) fun _ => [] where
  running := fun _ _ => ⟨trivial, fun _ => rfl, rfl⟩
  idle := fun _ _ => rfl

/-- No call begins with the file. -/
theorem guarded_call (held : Bool) (c : Call) :
    Guarded held c.actions ∧ fallBacks c.actions = [] := by
  have hlock : ∀ {a}, underMutex a = true → ordinary a = true →
      Guarded held [.lockMutex, a, .unlockMutex] ∧
        fallBacks [.lockMutex, a, .unlockMutex] = [] := by
    intro a ha hordinary
    have houtside : Guarded held [] := trivial
    exact ⟨houtside.locked ha hordinary, fallBacks_ordinary hordinary⟩
  cases c with
  | msgHandler msg => exact ⟨trivial, rfl⟩
  | log msg => exact hlock rfl rfl
  | clear buffer => exact hlock rfl rfl
  | refreshTimer => exact hlock rfl rfl
  | flushTimer => exact ⟨trivial, rfl⟩

/-- A thread that is outside calls the logger. -/
theorem AllKept.call (h : AllKept s handed delivered) (j : Nat) (c : Call) :
    AllKept (step s (.call j c)) handed delivered := by
  rw [step]
  split
  · next hidle =>
      obtain ⟨hrunning, houtside⟩ := hidle
      refine ⟨fun _ i => ?_, fun haborted => ?_⟩
      · have hi := h.running hrunning i
        by_cases hij : i = j
        · subst hij
          obtain ⟨hguarded, hfree⟩ := guarded_call (s.mutex.held i) c
          have hledger := hi.ledger
          rw [writer, houtside] at hledger
          rw [writer_goOn]
          exact ⟨hguarded, fun _ => hfree, by rw [hledger, hfree]; rfl⟩
        · rw [writer_goOn_of_ne hij]
          exact hi
      · have haborted' : s.aborted = true := haborted
        exact absurd (hrunning.symm.trans haborted') Bool.false_ne_true
  · exact h

/-- Nothing is put out on behalf of another thread. -/
theorem delivers_of_ne {i j : Nat} (hij : i ≠ j) (s : State) (w : World) :
    delivers i s (.run j w) = [] := by
  rw [delivers]
  split
  · rw [if_neg (Ne.symm hij)]
  · rw [if_neg (Ne.symm hij)]
  · rfl

section Acting

variable (h : AllKept s handed delivered) {j : Nat} {a : Action} {rest : List Action}
  (hj : s.threads j = a :: rest) (w : World)

include h hj

/-- The thread whose turn it is acts and uses the file, or the program ends. -/
theorem AllKept.acts :
    s.act j w rest a = s.abort ∨
      Acts s.logger.bufferSize s.logger.minLevel s (s.act j w rest a) j (calls j s (.run j w))
          (writes j s (.run j w)) ∧
        Uses (writer s j) (writes j s (.run j w)) (delivers j s (.run j w))
          (writer (s.act j w rest a) j) := by
  have hrunning := not_aborted_of_action h.idle hj
  have hheld : a = .unlockMutex → s.mutex.held j = true := by
    rintro rfl
    have hguarded := (h.running hrunning j).guarded
    rw [writer_eq hj] at hguarded
    exact hguarded.1
  rcases Uses.act (w := w) hj with ⟨habort, -, -⟩ | huses
  · exact .inl habort
  rcases Acts.act (w := w) hj rfl rfl hheld with ⟨habort, -, -⟩ | hacts
  · exact .inl habort
  · exact .inr ⟨hacts, huses⟩

/-- The thread whose turn it is acts. -/
theorem AllKept.act :
    AllKept (s.act j w rest a) (fun i => handed i ++ writes i s (.run j w))
      (fun i => delivered i ++ delivers i s (.run j w)) := by
  have hrunning := not_aborted_of_action h.idle hj
  have hown := h.running hrunning j
  rcases h.acts hj w with habort | ⟨hacts, huses⟩
  · rw [habort]
    exact ⟨fun hrun => absurd hrun.symm Bool.false_ne_true, fun _ _ => rfl⟩
  refine ⟨fun _ i => ?_, fun haborted => ?_⟩
  · by_cases hij : i = j
    · subst hij
      exact hown.uses huses
    · -- another thread sees no more than that the file is opened or closed
      obtain ⟨hguarded, hclosed, hledger⟩ := h.running hrunning i
      have hview := hacts.others i hij
      have hheld : (s.act j w rest a).mutex.held i = s.mutex.held i := congrArg View.held hview
      have hthread : (s.act j w rest a).threads i = s.threads i := congrArg View.actions hview
      rw [(nothing_of_ne hij s w).2, delivers_of_ne hij, List.append_nil, List.append_nil, writer,
        hheld, hthread]
      refine ⟨hguarded, fun hopen => ?_, hledger⟩
      rcases huses.opens hown.guarded hopen with hfile | hmutex
      · exact hclosed hfile
      · have hwithout : s.mutex.held i = false := Mutex.held_other hmutex hij
        rw [writer, hwithout] at hguarded
        exact hguarded.free
  · rw [hacts.aborted, hrunning] at haborted
    cases haborted

end Acting

theorem AllKept.step (h : AllKept s handed delivered) (e : Event) :
    AllKept (step s e) (fun i => handed i ++ writes i s e)
      (fun i => delivered i ++ delivers i s e) := by
  cases e with
  | call j c =>
      simp only [writes, delivers, List.append_nil]
      exact h.call j c
  | run j w =>
      rw [FileLogger.step]
      cases hj : s.threads j with
      | nil =>
          simp only [writes, delivers, hj, List.append_nil]
          exact h
      | cons a rest => exact h.act hj w

/-- **No message is lost**: in every run, whatever the log file does, what a thread has handed to
`write` is what was accepted or printed, and what the thread has still to print. -/
theorem kept_run (logger : FileLogger) (events : List Event) :
    AllKept (run FileLogger.step (start logger) events)
      (fun i => Run.shown FileLogger.step (writes i) (start logger) events)
      (fun i => Run.shown FileLogger.step (delivers i) (start logger) events) := by
  induction events using List.reverseRecOn with
  | nil => exact allKept_start logger
  | append_singleton past e ih =>
      simp only [Run.shown_concat, Run.run_append]
      exact ih.step e

end Run

/-! ### Nothing comes in between, unless writing fails

While the file works there is no report to print, so the fall-back is the very next action, and a
buffer is printed from its first message to its last. -/

/-- What could not be written is printed before anything else. -/
def Prompt (actions : List Action) : Prop := fallBacks actions = nextFallBack actions

section Prompt

variable {actions : List Action} {hs : List LogMessage} {ds : List Output} {v v' : Writer}

theorem prompt_of_free (h : fallBacks actions = []) : Prompt actions := by
  cases actions with
  | nil => rfl
  | cons a rest =>
      cases a with
      | fallBack msg => cases h
      | _ => exact h

theorem Prompt.free {a : Action} {rest : List Action} (h : Prompt (a :: rest))
    (hordinary : ordinary a = true) : fallBacks rest = [] := by
  cases a with
  | fallBack msg => cases hordinary
  | _ => exact h

/-- An action after which the file is still open leaves nothing but the message at hand. -/
theorem Uses.prompt (hu : Uses v hs ds v') (hguarded : Guarded v.held v.actions)
    (h : Prompt v.actions)
    (hworks : ∀ msg rest, v.actions = .write msg :: rest → v.file = true → v'.file = true) :
    Prompt v'.actions := by
  cases hu with
  | wait => exact h
  | lock file rest => exact prompt_of_free (hguarded.resolve_left Bool.false_ne_true).1
  | unlock held file rest => exact prompt_of_free hguarded.2.1
  | handler held file msg rest =>
      have hfree : fallBacks rest = [] := h.free rfl
      exact prompt_of_free hfree
  | timer held file rest =>
      have hfree : fallBacks rest = [] := h.free rfl
      exact prompt_of_free hfree
  | accepted held msg rest => exact prompt_of_free hguarded.2.1
  | failed held msg text rest => exact absurd (hworks msg rest rfl rfl) Bool.false_ne_true
  | closed held msg rest => exact congrArg (msg :: ·) hguarded.2.1
  | printed held msg rest => exact prompt_of_free hguarded.2.1
  | lost held msg rest => exact prompt_of_free hguarded.2.1
  | work held file file' a new rest ha hordinary hnew =>
      have hfree : fallBacks rest = [] := ((guarded_under ha).mp hguarded).2.1
      exact prompt_of_free ((fallBacks_append hnew).trans hfree)
  | skip held file a rest ha hordinary => exact prompt_of_free (h.free hordinary)

end Prompt

/-! ### A buffer is flushed without delay

The actions that take a buffer to the file come in a row, with nothing between them that could
wait. -/

/-- A thread that has still to flush its buffer does so next. -/
inductive Flushing : List Action → Prop
  | none {actions : List Action} (h : .drain ∉ actions) : Flushing actions
  | drain {rest : List Action} (h : .drain ∉ rest) : Flushing (.drain :: rest)
  | write {rest : List Action} (msg : LogMessage) (h : .drain ∉ rest) :
      Flushing (.write msg :: .drain :: rest)
  | fallBack {rest : List Action} (msg : LogMessage) (h : .drain ∉ rest) :
      Flushing (.fallBack msg :: .drain :: rest)

section Flushing

variable {a : Action} {rest actions : List Action}

theorem Flushing.goes_on (h : Flushing actions) (hdrain : .drain ∈ actions) :
    ∃ a ∈ actions.head?, delivering a = true := by
  cases h with
  | none h => exact absurd hdrain h
  | drain => exact ⟨_, rfl, rfl⟩
  | write => exact ⟨_, rfl, rfl⟩
  | fallBack => exact ⟨_, rfl, rfl⟩

theorem Flushing.plain (h : Flushing (a :: rest)) (ha : delivering a = false) :
    .drain ∉ rest := by
  cases h with
  | none h => exact fun hrest => h (List.mem_cons_of_mem a hrest)
  | drain => cases ha
  | write => cases ha
  | fallBack => cases ha

theorem Flushing.of_drain (h : Flushing (.drain :: rest)) : .drain ∉ rest := by
  cases h with
  | none h => exact absurd List.mem_cons_self h
  | drain h => exact h

/-- The message at hand is put out, or printed next. -/
theorem Flushing.handled (h : Flushing (a :: rest)) (ha : handles a = true) :
    Flushing rest ∧ ∀ msg, Flushing (.fallBack msg :: rest) := by
  cases h with
  | none h =>
      have hrest : .drain ∉ rest := fun hrest => h (List.mem_cons_of_mem a hrest)
      exact ⟨.none hrest, fun msg => .none (by simp [hrest])⟩
  | drain => cases ha
  | write _ h => exact ⟨.drain h, fun msg => .fallBack msg h⟩
  | fallBack _ h => exact ⟨.drain h, fun msg => .fallBack msg h⟩

theorem Flushing.moves {bufferSize minLevel : Int} {v v' : View} {cs : List BufferCall}
    {ws : List LogMessage} (hmoves : Moves bufferSize minLevel v cs ws v') (h : Flushing v.actions)
    (hhandled : ∀ a rest, v.actions = a :: rest → handles a = true →
      v'.actions = rest ∨ ∃ msg, v'.actions = .fallBack msg :: rest) : Flushing v'.actions := by
  have hnext : ∀ a rest, v.actions = a :: rest → handles a = true → Flushing v'.actions := by
    intro a rest hactions ha
    rw [hactions] at h
    obtain ⟨hput, hprinted⟩ := h.handled ha
    rcases hhandled a rest hactions ha with hrest | ⟨msg, hrest⟩
    · exact hrest ▸ hput
    · exact hrest ▸ hprinted msg
  cases hmoves with
  | wait => exact h
  | lock buffer rest => exact .none (h.plain rfl)
  | unlock buffer rest => exact .none (h.plain rfl)
  | handler held buffer msg rest => exact .none (by simp [Logger.log, h.plain rfl])
  | timer held buffer rest => exact .none (by simp [h.plain rfl])
  | log held buffer msg rest hsize =>
      dsimp only
      split
      · exact .drain (h.plain rfl)
      · exact .none (h.plain rfl)
  | logUnbuffered held buffer msg rest hsize =>
      dsimp only
      split
      · exact .none (by simp [h.plain rfl])
      · exact .none (h.plain rfl)
  | drained held rest => exact .none h.of_drain
  | drain held msg buffer rest => exact .write msg h.of_drain
  | clear held cleared buffer rest => exact .none (h.plain rfl)
  | write held buffer msg new rest hnew => exact hnext _ rest rfl rfl
  | skip held buffer a new rest ha hnew =>
      by_cases hhandles : handles a = true
      · exact hnext a rest rfl hhandles
      · have hplain : delivering a = false := by
          cases a <;> first | rfl | exact absurd rfl hhandles | cases ha
        have hquiet : .drain ∉ new := fun hdrain => absurd (hnew _ hdrain) Bool.false_ne_true
        exact .none (by simp [hquiet, h.plain hplain])

theorem flushing_call (c : Call) : Flushing c.actions := by
  refine .none ?_
  cases c <;> simp [Call.actions, Logger.msgHandler, Logger.log, Logger.clear]

end Flushing

section Works

variable {s : State} {i : Nat} {w : World} {rest : List Action}

/-! ### As long as the file works

Then nothing is put in front of the next message, and both properties are kept. -/

theorem FileWorks.noError {msg : LogMessage} (hworks : FileWorks s (.run i w))
    (hi : s.threads i = .write msg :: rest) (hfile : s.logger.file = true) : w.error = false := by
  have hhead : Action.write msg ∈ (s.threads i).head? := by rw [hi]; rfl
  exact hworks _ hhead hfile

/-- A log file that works stays open when a message is written. -/
theorem FileWorks.stays {msg : LogMessage} (hworks : FileWorks s (.run i w))
    (hi : s.threads i = .write msg :: rest) (hfile : s.logger.file = true) :
    (s.write i w msg rest).logger.file = true := by
  rw [State.write, if_pos hfile, hworks.noError hi hfile]
  exact hfile

/-- As long as the file works, nothing comes between a message and its fall-back. -/
theorem FileWorks.handled {a : Action} (hworks : FileWorks s (.run i w))
    (hi : s.threads i = a :: rest) (ha : handles a = true) :
    (s.act i w rest a).threads i = rest ∨
      ∃ msg, (s.act i w rest a).threads i = .fallBack msg :: rest := by
  cases a with
  | write msg =>
      rw [State.act, State.write]
      split
      · next hfile =>
          rw [hworks.noError hi hfile]
          exact .inl (Function.update_self ..)
      · exact .inr ⟨msg, Function.update_self ..⟩
  | fallBack msg => exact .inl (Function.update_self ..)
  | _ => cases ha

end Works

/-- A thread prints what could not be written before anything else, and flushes its buffer before it
does something else. -/
def Straight (actions : List Action) : Prop := Prompt actions ∧ Flushing actions

/-- As long as the file works all threads stay straight. -/
theorem straight_step {s : State} {handed : Nat → List LogMessage} {delivered : Nat → List Output}
    {e : Event} (hkept : AllKept s handed delivered) (h : ∀ i, Straight (s.threads i))
    (hworks : FileWorks s e) (i : Nat) : Straight ((step s e).threads i) := by
  cases e with
  | call j c =>
      rw [step]
      split
      · by_cases hij : i = j
        · subst hij
          show Straight (Function.update s.threads i c.actions i)
          rw [Function.update_self]
          exact ⟨prompt_of_free (guarded_call true c).2, flushing_call c⟩
        · show Straight (Function.update s.threads j c.actions i)
          rw [Function.update_of_ne hij]
          exact h i
      · exact h i
  | run j w =>
      rw [step]
      cases hj : s.threads j with
      | nil => exact h i
      | cons a rest =>
          dsimp only
          rcases hkept.acts hj w with habort | ⟨hacts, huses⟩
          · rw [habort]
            exact ⟨prompt_of_free rfl, .none List.not_mem_nil⟩
          by_cases hij : i = j
          · subst hij
            have hrunning := not_aborted_of_action hkept.idle hj
            obtain ⟨hprompt, hflushing⟩ := h i
            constructor
            · refine huses.prompt (hkept.running hrunning i).guarded hprompt
                fun msg rest' hi hfile => ?_
              obtain ⟨rfl, rfl⟩ := List.cons.inj (hj.symm.trans hi)
              exact hworks.stays hj hfile
            · refine Flushing.moves hacts.own hflushing fun b rest' hi hb => ?_
              obtain ⟨rfl, rfl⟩ := List.cons.inj (hj.symm.trans hi)
              exact hworks.handled hj hb
          · have hthread : (s.act j w rest a).threads i = s.threads i :=
              congrArg View.actions (hacts.others i hij)
            rw [hthread]
            exact h i

/-- **The log file fails without harm exactly when it never fails to write**: its error branch
closes the file and then asks it for the error through the null pointer. -/
theorem survives_iff (logger : FileLogger) (events : List Event) :
    Survives logger events ↔ Run.Along step FileWorks (start logger) events := by
  have hpointer : (fun s e => ¬ UsesNull s e) = FileWorks := by
    funext s e
    rw [usesNull_iff, not_not]
  refine ⟨fun h => hpointer ▸ h.pointer, fun h => ?_⟩
  have hstraight : ∀ {before after}, events = before ++ after →
      ∀ i, Straight ((run step (start logger) before).threads i) := by
    rintro before after rfl
    exact Run.Along.inv_past
      (I := fun past => ∀ i, Straight ((run step (start logger) past).threads i))
      (fun _ => ⟨rfl, .none List.not_mem_nil⟩) (fun past e hpast hworks => by
        rw [Run.run_append]
        exact straight_step (kept_run logger past) hpast hworks) h.left
  refine ⟨hpointer.symm ▸ h, fun before after hsplit hrunning i => ?_,
    fun before after hsplit i hdrain => (hstraight hsplit i).2.goes_on hdrain⟩
  rw [((kept_run logger before).running hrunning i).ledger]
  exact congrArg _ (hstraight hsplit i).1

/-- A log file that takes nothing: the disk is full. -/
def full : World := ⟨⟨ascii "a", 0, 1, 2⟩, true, true, ascii "No space left on device", 0⟩

/-- A critical message finds the disk full. The null pointer is used, and the report of the error
waits for the mutex that its own thread has: neither the message before nor the critical one, which
is still in the buffer, is ever put out. -/
theorem not_survives_full :
    let logger : FileLogger := ⟨ascii "a", 0, 1, 2, true⟩
    let first : LogMessage := ⟨.QtDebugMsg, ascii "first"⟩
    let second : LogMessage := ⟨.QtCriticalMsg, ascii "second"⟩
    let events := [.call 0 (.log first)] ++ List.replicate 3 (.run 0 full) ++
      [.call 0 (.log second)] ++ List.replicate 7 (.run 0 full)
    let s := run step (start logger) events
    s.usedNull = true ∧ s.mutex.held 0 = true ∧ (s.threads 0).head? = some .lockMutex ∧
      Run.shown step (writes 0) (start logger) events = [first] ∧ s.buffers 0 = [second] ∧
      s.output = [] ∧ ¬ Survives logger events := by
  intro logger first second events s
  have hwritten : Run.shown step (writes 0) (start logger) events = [first] := by decide +kernel
  have hnothing : Run.shown step (delivers 0) (start logger) events = [] := by decide +kernel
  have hnext : nextFallBack ((run step (start logger) events).threads 0) = [] := by decide +kernel
  refine ⟨by decide +kernel, by decide +kernel, by decide +kernel, hwritten, by decide +kernel,
    by decide +kernel, fun h => ?_⟩
  have hledger := h.messages events [] (List.append_nil _).symm (by decide +kernel) 0
  rw [hwritten, hnothing, hnext] at hledger
  cases hledger

end FileLogger

end QtWebApp
