import QtWebApp.Logging.FileLogger

/-!
# QtWebApp.Logging.Locks

When the threads that log can block each other.

The message handler locks its recursive mutex before the mutex of the logger. A thread that
already holds the mutex of the logger is called upon to lock the recursive one when it reports
an error of its own; that is harmless exactly when it came through the message handler, since
then it holds the recursive mutex, and the inner call of the handler prints to `stderr`. What a
thread has locked and what it has still to do therefore fit together (`Fits`), as long as only
threads inside the handler meet errors.

The other way into the logger are the timers and the direct calls of `log` and `clear`. They lock
the mutex of the logger alone. When they meet an error there, the message handler locks the other
two behind it, and in the end wants the mutex that the thread has already.
-/

namespace QtWebApp

namespace FileLogger

open State

/-- A thread waits for another one that has locked the mutex it needs. -/
inductive Waits (s : State) (i j : Nat) : Prop
  | recursiveMutex (rest : List Action) (hi : s.threads i = .lockRecursive :: rest)
      (hfree : s.recursiveMutex.depth i = 0) (hj : 0 < s.recursiveMutex.depth j)
  | mutex (rest : List Action) (hi : s.threads i = .lockMutex :: rest)
      (hj : s.mutex.held j = true)

/-- No threads wait for each other, and none locks the mutex of the logger a second time. -/
structure Safe (s : State) : Prop where
  noDeadlock : ¬ Deadlocked (Waits s)
  noRelock : ∀ i rest, s.threads i = .lockMutex :: rest → s.mutex.held i = false

/-- Whether an action reports an error of its own. -/
def reports (s : State) (w : World) : Action → Bool
  | .write _ => s.logger.file && w.error
  | .openFile => decide (s.logger.fileName = []) || !w.opens
  | _ => false

/-- A thread that reports an error does so inside the message handler. -/
def Harmless (s : State) : Event → Prop
  | .call _ _ => True
  | .run i w => ∀ a ∈ (s.threads i).head?, reports s w a = true → s.nonRecursiveMutex.held i = true

instance (s : State) : (e : Event) → Decidable (Harmless s e)
  | .call _ _ => inferInstanceAs (Decidable True)
  | .run i w => inferInstanceAs (Decidable
      (∀ a ∈ (s.threads i).head?, reports s w a = true → s.nonRecursiveMutex.held i = true))

/-! ### What a thread has locked, and what it has to do

The actions are read from the first to the last, with the locks that the thread will have then. -/

/-- The actions fit a thread that has locked the recursive mutex `r` times, the non-recursive one
if `n`, and the mutex of the logger if `m`. -/
def Fits (r : Nat) (n m : Bool) : List Action → Prop
  | [] => r = 0 ∧ n = false ∧ m = false
  | .lockRecursive :: rest => (m = true → n = true) ∧ Fits (r + 1) n m rest
  | .tryNonRecursive _ :: rest => (m = true → n = true) ∧ 0 < r ∧ Fits r n m rest
  | .unlockNonRecursive :: rest => n = true ∧ Fits r false m rest
  | .abortIfFatal _ :: rest => Fits r n m rest
  | .unlockRecursive :: rest => 0 < r ∧ (r = 1 → n = false) ∧ Fits (r - 1) n m rest
  | .lockMutex :: rest => m = false ∧ Fits r n true rest
  | .unlockMutex :: rest => m = true ∧ Fits r n false rest
  | .checkFile :: rest => m = false ∧ Fits r n m rest
  | .log _ :: rest | .drain :: rest | .clear _ :: rest | .write _ :: rest | .fallBack _ :: rest
  | .refreshSettings :: rest | .openFile :: rest | .dropFile :: rest | .flush :: rest =>
      m = true ∧ Fits r n m rest

section Fits

variable {r : Nat} {n m : Bool} {rest : List Action}

/-- The message handler may be called by a thread that does not hold the mutex of the logger, and
by one that got it inside the handler. -/
theorem Fits.msgHandler (h : Fits r n m rest) (hm : m = true → n = true) (hn : n = true → 0 < r)
    (msg : LogMessage) : Fits r n m (Logger.msgHandler msg ++ rest) := by
  refine ⟨hm, hm, Nat.succ_pos r, Nat.succ_pos r, ?_, h⟩
  intro hr
  cases n with
  | false => rfl
  | true => exact absurd (hn rfl) (by omega)

theorem Fits.log (h : Fits r n false rest) (msg : LogMessage) :
    Fits r n false (Logger.log msg ++ rest) :=
  ⟨rfl, rfl, rfl, h⟩

/-- Every call fits a thread that has locked nothing. -/
theorem fits_call (c : Call) : Fits 0 false false c.actions := by
  cases c with
  | msgHandler msg =>
      have hend : Fits 0 false false [] := ⟨rfl, rfl, rfl⟩
      exact hend.msgHandler (fun h => h) (fun h => nomatch h) msg
  | log msg => exact ⟨rfl, rfl, rfl, rfl, rfl, rfl⟩
  | clear buffer => exact ⟨rfl, rfl, rfl, rfl, rfl, rfl⟩
  | refreshTimer => exact ⟨rfl, rfl, rfl, rfl, rfl, rfl⟩
  | flushTimer => exact ⟨rfl, rfl, rfl, rfl⟩

end Fits

/-! ### The invariant

Each thread fits, whoever else has locked what. That one mutex has one owner is part of the
mutexes. -/

/-- What a thread has locked fits what it has to do. -/
def FitsIn (s : State) (i : Nat) (actions : List Action) : Prop :=
  Fits (s.recursiveMutex.depth i) (s.nonRecursiveMutex.held i) (s.mutex.held i) actions

/-- Every thread can finish what it has to do, and one that prints through the handler has locked
the recursive mutex. -/
structure Orderly (s : State) : Prop where
  fits : ∀ i, FitsIn s i (s.threads i)
  inner : ∀ i, s.nonRecursiveMutex.held i = true → 0 < s.recursiveMutex.depth i

theorem orderly_start (logger : FileLogger) : Orderly (start logger) where
  fits := fun _ => ⟨rfl, rfl, rfl⟩
  inner := fun _ h => nomatch h

theorem orderly_abort (s : State) : Orderly s.abort where
  fits := fun _ => ⟨rfl, rfl, rfl⟩
  inner := fun _ h => nomatch h

/-- Thread `i` goes on, and may have changed its own locks. -/
theorem Orderly.goOn {s t : State} (h : Orderly s) {i : Nat} {actions : List Action}
    (hthreads : t.threads = s.threads)
    (hothers : ∀ j, j ≠ i → t.recursiveMutex.depth j = s.recursiveMutex.depth j ∧
      t.nonRecursiveMutex.held j = s.nonRecursiveMutex.held j ∧ t.mutex.held j = s.mutex.held j)
    (hfits : FitsIn t i actions)
    (hinner : t.nonRecursiveMutex.held i = true → 0 < t.recursiveMutex.depth i) :
    Orderly (t.goOn i actions) := by
  refine ⟨fun j => ?_, fun j hj => ?_⟩
  · by_cases hji : j = i
    · subst hji
      show FitsIn t j (Function.update t.threads j actions j)
      rw [Function.update_self]
      exact hfits
    · obtain ⟨hr, hn, hm⟩ := hothers j hji
      show FitsIn t j (Function.update t.threads i actions j)
      rw [Function.update_of_ne hji, hthreads, FitsIn, hr, hn, hm]
      exact h.fits j
  · by_cases hji : j = i
    · exact hji ▸ hinner (hji ▸ hj)
    · obtain ⟨hr, hn, -⟩ := hothers j hji
      have hj' : t.nonRecursiveMutex.held j = true := hj
      show 0 < t.recursiveMutex.depth j
      rw [hr]
      exact h.inner j (hn ▸ hj')

/-- Thread `i` goes on, and no mutex has changed. -/
theorem Orderly.goOn_same {s t : State} (h : Orderly s) {i : Nat} {actions : List Action}
    (hthreads : t.threads = s.threads) (hr : t.recursiveMutex = s.recursiveMutex)
    (hn : t.nonRecursiveMutex = s.nonRecursiveMutex) (hm : t.mutex = s.mutex)
    (hfits : FitsIn s i actions) : Orderly (t.goOn i actions) := by
  refine h.goOn hthreads (fun j _ => by rw [hr, hn, hm]; exact ⟨rfl, rfl, rfl⟩) ?_ ?_
  · rw [FitsIn, hr, hn, hm]
    exact hfits
  · rw [hr, hn]
    exact h.inner i

/-! ### One action of one thread

An action takes or gives one lock, or none, and what comes after it fits the locks that are left. A
thread that reports an error gets the actions of the message handler in front of its own. -/

/-- A thread that reports an error in the handler calls it once more. -/
theorem Orderly.qWarning {s : State} (h : Orderly s) {i : Nat} {actions : List Action}
    (hfits : FitsIn s i actions) (hn : s.nonRecursiveMutex.held i = true) (text : Bytes) :
    FitsIn s i (Logger.qWarning text ++ actions) :=
  Fits.msgHandler hfits (fun _ => hn) (h.inner i) ⟨.QtWarningMsg, text⟩

/-- A message is written, or the error is reported that came instead. -/
theorem Orderly.write {s : State} (h : Orderly s) {i : Nat} {w : World} {msg : LogMessage}
    {rest : List Action} (hfits : FitsIn s i (.write msg :: rest))
    (hharmless : reports s w (.write msg) = true → s.nonRecursiveMutex.held i = true) :
    Orderly (s.write i w msg rest) := by
  have hfallBack : FitsIn s i (.fallBack msg :: rest) := hfits
  unfold State.write
  split
  · next hfile =>
      split
      · next herror =>
          have hn := hharmless (by simp [reports, hfile, herror])
          exact h.goOn_same rfl rfl rfl rfl (h.qWarning hfallBack hn _)
      · exact h.goOn_same rfl rfl rfl rfl hfits.2
  · exact h.goOn_same rfl rfl rfl rfl hfallBack

/-- The log file is opened, or the error is reported. -/
theorem Orderly.openFile {s : State} (h : Orderly s) {i : Nat} {w : World} {rest : List Action}
    (hfits : FitsIn s i (.openFile :: rest))
    (hharmless : reports s w .openFile = true → s.nonRecursiveMutex.held i = true) :
    Orderly (s.openFile i w rest) := by
  have hdropFile : FitsIn s i (.dropFile :: rest) := hfits
  unfold State.openFile
  split
  · next hempty =>
      have hn := hharmless (by simp [reports, hempty])
      exact h.goOn_same rfl rfl rfl rfl (h.qWarning hfits.2 hn _)
  · dsimp only
    split
    · exact h.goOn_same rfl rfl rfl rfl hfits.2
    · next hopens =>
        have hn := hharmless (by simp [reports, hopens])
        exact h.goOn_same rfl rfl rfl rfl (h.qWarning hdropFile hn _)

/-! #### The mutexes -/

theorem Orderly.lockRecursive {s : State} (h : Orderly s) {i : Nat} {w : World} {rest : List Action}
    (hfits : FitsIn s i (.lockRecursive :: rest)) : Orderly (s.act i w rest .lockRecursive) := by
  obtain ⟨-, hrest⟩ := hfits
  rw [State.act]
  cases hlock : s.recursiveMutex.tryLock i with
  | none => exact h
  | some m =>
      obtain ⟨hown, hothers⟩ := RecursiveMutex.tryLock_some hlock
      refine h.goOn rfl (fun j hj => ⟨hothers j hj, rfl, rfl⟩) ?_ fun _ => ?_
      · show Fits (m.depth i) _ _ rest
        rw [hown]
        exact hrest
      · show 0 < m.depth i
        omega

theorem Orderly.tryNonRecursive {s : State} (h : Orderly s) {i : Nat} {w : World} {msg : LogMessage}
    {rest : List Action} (hfits : FitsIn s i (.tryNonRecursive msg :: rest)) :
    Orderly (s.act i w rest (.tryNonRecursive msg)) := by
  obtain ⟨hm, hr, hrest⟩ := hfits
  rw [State.act]
  cases hlock : s.nonRecursiveMutex.tryLock i with
  | none => exact h.goOn_same rfl rfl rfl rfl hrest
  | some m =>
      obtain ⟨hfree, rfl⟩ := Mutex.tryLock_some hlock
      -- the thread is not inside the handler yet, so it does not hold the mutex of the logger
      rw [hfree] at hm hrest
      have hmutex : s.mutex.held i = false := by
        cases hheld : s.mutex.held i with
        | false => rfl
        | true => exact absurd (hm hheld) (by simp)
      refine h.goOn rfl (fun j hj => ⟨rfl, ?_, rfl⟩) ?_ fun _ => hr
      · rw [hfree, Mutex.held_owned, decide_eq_false (Ne.symm hj)]
        rfl
      · rw [hmutex] at hrest
        show Fits (s.recursiveMutex.depth i) _ (s.mutex.held i) _
        rw [hmutex, Mutex.held_owned, decide_eq_true rfl]
        have hunlock : Fits (s.recursiveMutex.depth i) true false (.unlockNonRecursive :: rest) :=
          ⟨rfl, hrest⟩
        exact hunlock.log msg

theorem Orderly.unlockRecursive {s : State} (h : Orderly s) {i : Nat} {w : World}
    {rest : List Action} (hfits : FitsIn s i (.unlockRecursive :: rest)) :
    Orderly (s.act i w rest .unlockRecursive) := by
  obtain ⟨hr, hlast, hrest⟩ := hfits
  obtain ⟨hown, hothers⟩ := RecursiveMutex.unlock_depth hr
  refine h.goOn rfl (fun j hj => ⟨hothers j hj, rfl, rfl⟩) ?_ fun hheld => ?_
  · show Fits (s.recursiveMutex.unlock.depth i) _ _ rest
    rw [hown]
    exact hrest
  · -- the handler is left before the last lock is given back
    show 0 < s.recursiveMutex.unlock.depth i
    have hne : s.recursiveMutex.depth i ≠ 1 := by
      intro hone
      exact absurd (hheld.symm.trans (hlast hone)) (by simp)
    omega

theorem Orderly.lockMutex {s : State} (h : Orderly s) {i : Nat} {w : World} {rest : List Action}
    (hfits : FitsIn s i (.lockMutex :: rest)) : Orderly (s.act i w rest .lockMutex) := by
  obtain ⟨-, hrest⟩ := hfits
  rw [State.act]
  cases hlock : s.mutex.tryLock i with
  | none => exact h
  | some m =>
      obtain ⟨hfree, rfl⟩ := Mutex.tryLock_some hlock
      refine h.goOn rfl (fun j hj => ⟨rfl, rfl, ?_⟩) ?_ (h.inner i)
      · rw [hfree, Mutex.held_owned, decide_eq_false (Ne.symm hj)]
        rfl
      · show Fits _ _ (Mutex.held ⟨some i⟩ i) rest
        rw [Mutex.held_owned, decide_eq_true rfl]
        exact hrest

/-- **The step of the invariant.** -/
theorem Orderly.act {s : State} (h : Orderly s) {i : Nat} {w : World} {a : Action}
    {rest : List Action} (hi : s.threads i = a :: rest)
    (hharmless : reports s w a = true → s.nonRecursiveMutex.held i = true) :
    Orderly (s.act i w rest a) := by
  have hfits : FitsIn s i (a :: rest) := hi ▸ h.fits i
  cases a with
  -- the actions on the mutexes
  | lockRecursive => exact h.lockRecursive hfits
  | tryNonRecursive msg => exact h.tryNonRecursive hfits
  | unlockNonRecursive =>
      obtain ⟨hn, hrest⟩ := hfits
      exact h.goOn rfl (fun j hj => ⟨rfl, (Mutex.held_other hn hj).symm, rfl⟩) hrest
        fun hheld => nomatch hheld
  | unlockRecursive => exact h.unlockRecursive hfits
  | lockMutex => exact h.lockMutex hfits
  | unlockMutex =>
      obtain ⟨hm, hrest⟩ := hfits
      exact h.goOn rfl (fun j hj => ⟨rfl, rfl, (Mutex.held_other hm hj).symm⟩) hrest (h.inner i)
  -- the actions that may report an error
  | write msg => exact h.write hfits hharmless
  | openFile => exact h.openFile hfits hharmless
  -- the others leave the mutexes alone
  | abortIfFatal type =>
      rw [State.act]
      split
      · exact orderly_abort s
      · exact h.goOn_same rfl rfl rfl rfl hfits
  | log msg =>
      obtain ⟨hm, hrest⟩ := hfits
      rw [State.act, State.log]
      split
      · refine h.goOn_same rfl rfl rfl rfl ?_
        split
        · exact ⟨hm, hrest⟩
        · exact hrest
      · refine h.goOn_same rfl rfl rfl rfl ?_
        split
        · exact ⟨hm, hrest⟩
        · exact hrest
  | drain =>
      obtain ⟨hm, hrest⟩ := hfits
      rw [State.act, State.drain]
      cases s.buffers i with
      | nil => exact h.goOn_same rfl rfl rfl rfl hrest
      | cons msg buffer => exact h.goOn_same rfl rfl rfl rfl ⟨hm, hm, hrest⟩
  | clear buffer =>
      rw [State.act]
      split
      · exact h.goOn_same rfl rfl rfl rfl hfits.2
      · exact h.goOn_same rfl rfl rfl rfl hfits.2
  | fallBack msg =>
      rw [State.act]
      split
      · exact h.goOn_same rfl rfl rfl rfl hfits.2
      · exact h.goOn_same rfl rfl rfl rfl hfits.2
  | refreshSettings =>
      rw [State.act, State.refreshSettings]
      split
      · exact h.goOn_same rfl rfl rfl rfl hfits
      · exact h.goOn_same rfl rfl rfl rfl hfits.2
  | dropFile => exact h.goOn_same rfl rfl rfl rfl hfits.2
  | checkFile =>
      obtain ⟨hm, hrest⟩ := hfits
      rw [State.act]
      refine h.goOn_same rfl rfl rfl rfl ?_
      split
      · rw [hm] at hrest
        rw [FitsIn, hm]
        exact ⟨rfl, rfl, rfl, hrest⟩
      · exact hrest
  | flush =>
      rw [State.act, State.flush]
      split
      · exact h.goOn_same rfl rfl rfl rfl hfits
      · exact h.goOn_same rfl rfl rfl rfl hfits.2

/-- **The step of the invariant**, for a whole event. -/
theorem orderly_step (s : State) (e : Event) (h : Orderly s) (hharmless : Harmless s e) :
    Orderly (step s e) := by
  cases e with
  | call i c =>
      rw [step]
      split
      · next hidle =>
          have hfits := h.fits i
          rw [hidle.2] at hfits
          obtain ⟨hr, hn, hm⟩ := hfits
          refine h.goOn_same rfl rfl rfl rfl ?_
          rw [FitsIn, hr, hn, hm]
          exact fits_call c
      · exact h
  | run i w =>
      rw [step]
      cases hi : s.threads i with
      | nil => exact h
      | cons a rest => exact h.act hi (hharmless a (by rw [hi]; rfl))

/-! ### No deadlock

A thread waits only for a thread of a higher rank, so that a circle of waiting threads would have to
climb for ever. -/

/-- Threads that wait for the recursive mutex come first, then those at the mutex of the logger. -/
def rank (s : State) (i : Nat) : Nat :=
  match s.threads i with
  | .lockRecursive :: _ => if s.recursiveMutex.depth i = 0 then 0 else 2
  | .lockMutex :: _ => 1
  | _ => 2

theorem rank_le (s : State) (i : Nat) : rank s i ≤ 2 := by
  unfold rank
  split
  · split <;> omega
  · omega
  · omega

/-- Waiting leads to a higher rank. -/
theorem Orderly.rank_lt {s : State} (h : Orderly s) {i j : Nat} (hwaits : Waits s i j) :
    rank s i < rank s j := by
  have hfits := h.fits j
  cases hwaits with
  | recursiveMutex rest hi hfree hj =>
      -- the owner does not wait for the mutex it owns
      have hlow : rank s i = 0 := by simp [rank, hi, hfree]
      have hhigh : 0 < rank s j := by
        unfold rank
        split
        · simp [Nat.ne_of_gt hj]
        · omega
        · omega
      omega
  | mutex rest hi hj =>
      have hlow : rank s i = 1 := by simp [rank, hi]
      have hhigh : rank s j = 2 := by
        unfold rank
        split
        · next hthread =>
            -- it holds the mutex of the logger, so it is inside the handler
            rw [hthread] at hfits
            have hn := hfits.1 hj
            simp [Nat.ne_of_gt (h.inner j hn)]
        · next hthread =>
            rw [hthread] at hfits
            exact absurd (hj.symm.trans hfits.1) (by simp)
        · rfl
      omega

theorem Orderly.safe {s : State} (h : Orderly s) : Safe s where
  noDeadlock := not_deadlocked_of_rank (rank s) (rank_le s) h.rank_lt
  noRelock := by
    intro i rest hi
    have hfits := h.fits i
    rw [hi] at hfits
    exact hfits.1

/-- **The threads never block each other**, as long as only threads inside the message handler
meet errors of the log file. -/
theorem harmless_run (logger : FileLogger) (events : List Event)
    (h : Run.Along step Harmless (start logger) events) : Safe (run step (start logger) events) :=
  (h.inv orderly_step (orderly_start logger)).safe

/-- A log file that cannot be opened, and that is in error. -/
def failing : World := ⟨⟨ascii "b", 0, 0, 0⟩, false, true, ascii "No space left on device", 0⟩

/-- A log file that can be written and opened. -/
def working : World := ⟨⟨ascii "b", 0, 0, 0⟩, true, false, [], 0⟩

/-- A critical message that cannot be written, while another thread opens a new log file. -/
theorem harmless_run_error :
    let logger : FileLogger := ⟨ascii "a", 0, 0, 0, true⟩
    let events := [.call 0 (.msgHandler ⟨.QtCriticalMsg, ascii "m"⟩), .call 1 .refreshTimer,
        .call 2 (.msgHandler ⟨.QtDebugMsg, ascii "n"⟩)] ++
      List.replicate 11 (.run 0 failing) ++ List.replicate 4 (.run 1 working) ++
      List.replicate 4 (.run 2 working)
    Run.Along step Harmless (start logger) events ∧ Safe (run step (start logger) events) := by
  intro logger events
  have halong : Run.Along step Harmless (start logger) events := by decide +kernel
  exact ⟨halong, harmless_run logger events halong⟩

/-- A refresh that finds another file name, and cannot open that file. -/
theorem not_safe_refresh :
    ¬ ∀ (logger : FileLogger) (events : List Event), Safe (run step (start logger) events) := by
  intro hall
  have hsafe := hall ⟨ascii "a", 0, 0, 0, true⟩
    (.call 0 .refreshTimer :: List.replicate 5 (.run 0 failing))
  have hheld := hsafe.noRelock 0 [.log ⟨.QtWarningMsg,
      ascii "Cannot open log file b: No space left on device"⟩, .unlockMutex, .unlockNonRecursive,
    .abortIfFatal .QtWarningMsg, .unlockRecursive, .dropFile, .unlockMutex] (by decide +kernel)
  exact absurd hheld (by decide +kernel)

end FileLogger

end QtWebApp
