import QtWebApp.Sessions.Store

/-!
# QtWebApp.Sessions.Expiry

Which sessions the store hands out.

A look-up does not ask how old a session is; only the timer does. So a session that has expired
is handed out, and renewed, when the timer has not run since (`not_withheld`). What the
look-ups can rely on is the last time the timer ran: a session that was expired then is
never handed out again (`handsOut_recent`).

Here the sessions may also be renewed by the application, with a handle that it has kept, without
the store. The result holds with that, too.
-/

namespace QtWebApp

open Bytes

namespace HttpSessionStore

variable {V : Type}

/-- What can happen to the store and its sessions; a session that is accessed by the application,
with `setLastAccess` or by an assignment, is renewed without the store. -/
inductive Activity (V : Type)
  | operation (e : Event V)
  | access (session : HttpSession) (now : Int)

/-- The store after an activity. -/
def advance (s : HttpSessionStore V) : Activity V → HttpSessionStore V
  | .operation e => s.step e
  | .access session now => { s with memory := session.setLastAccess s.memory now }

/-- The time of an activity that creates or renews a session. -/
def Activity.accessTime? : Activity V → Option Int
  | .operation (.getSession _ _ _ now _) => some now
  | .operation (.getSessionById _ now) => some now
  | .operation _ => none
  | .access _ now => some now

/-- Of the sessions that are there, the look-ups hand out only those with a property. -/
structure OnlyHandsOut (s : HttpSessionStore V) (now : Int) (ok : HttpSession → Prop) : Prop where
  getSession : ∀ (request : RequestView) (response : HttpResponse) (allowCreate : Bool)
    (uuid : Bytes), let r := s.getSession request response allowCreate now uuid
    r.session.isNull = true ∨ r = s.createSession response now uuid ∨ ok r.session
  getSessionById : ∀ id : Bytes, let session := (s.getSessionById id now).1
    session.isNull = true ∨ ok session
  getSessionId : ∀ (request : RequestView) (response : HttpResponse),
    let id := s.getSessionId request response
    id = [] ∨ ∃ session, s.sessions[id]? = some session ∧ ok session

/-- What holds of all stored sessions holds of those that are handed out. -/
theorem onlyHandsOut_of_stored {s : HttpSessionStore V} {ok : HttpSession → Prop}
    (h : ∀ (key : Bytes) (session : HttpSession), s.sessions[key]? = some session → ok session)
    (now : Int) : s.OnlyHandsOut now ok where
  getSession := by
    intro request response allowCreate uuid
    rcases s.getSession_cases request response allowCreate now uuid with
      ⟨session, hstored, -, hs⟩ | ⟨-, hs⟩ | ⟨-, hs⟩
    · exact .inr (.inr (hs ▸ h _ session hstored))
    · exact .inr (.inl hs)
    · exact .inl (hs ▸ rfl)
  getSessionById := by
    intro id
    show (s.value id).isNull = true ∨ ok (s.value id)
    rw [s.value_eq]
    cases hstored : s.sessions[id]? with
    | none => exact .inl rfl
    | some session => exact .inr (h id session hstored)
  getSessionId := by
    intro request response
    by_cases hid : s.getSessionId request response = []
    · exact .inl hid
    · obtain ⟨session, hstored⟩ := contains_of_getSessionId rfl hid
      exact .inr ⟨session, hstored, h _ session hstored⟩

/-! ### The time of the last access

Every activity renews at most some sessions, at its own time, and leaves the others alone. New
sessions begin at the time at which they are made. -/

/-- Renewing a session sets its time, and that of no other data. -/
theorem getLastAccess_setLastAccess (memory : SessionMemory V) (session session' : HttpSession)
    (now : Int) :
    session'.getLastAccess (session.setLastAccess memory now) = session'.getLastAccess memory ∨
      session'.getLastAccess (session.setLastAccess memory now) = now := by
  unfold HttpSession.getLastAccess HttpSession.setLastAccess
  by_cases hsame : session = session'
  · subst hsame
    rw [HttpSession.data_onData_self]
    cases session.data memory with
    | none => exact .inl rfl
    | some d => exact .inr rfl
  · rw [HttpSession.data_onData_ne hsame]
    exact .inl rfl

theorem getLastAccess_onData {memory : SessionMemory V} {session : HttpSession}
    {f : HttpSessionData V → HttpSessionData V} (hf : ∀ d, (f d).lastAccess = d.lastAccess)
    (session' : HttpSession) :
    session'.getLastAccess (session.onData memory f) = session'.getLastAccess memory := by
  unfold HttpSession.getLastAccess
  by_cases hsame : session = session'
  · subst hsame
    rw [HttpSession.data_onData_self]
    cases session.data memory with
    | none => rfl
    | some d => exact hf d
  · rw [HttpSession.data_onData_ne hsame]

/-- A session was accessed since the timer ran, or shortly enough before. -/
def Recent (s : HttpSessionStore V) (sweep : Int) (times : List Int)
    (session : HttpSession) : Prop :=
  sweep - session.getLastAccess s.memory ≤ s.settings.expirationTime ∨
    session.getLastAccess s.memory ∈ times

/-- A new session has the time of its creation, and the others keep theirs. -/
theorem getLastAccess_create (memory : SessionMemory V) (session : HttpSession) (now : Int)
    (uuid : Bytes) :
    session.getLastAccess (HttpSession.create memory now uuid).2 = session.getLastAccess memory ∨
      session.getLastAccess (HttpSession.create memory now uuid).2 = now := by
  obtain ⟨dataPtr⟩ := session
  cases dataPtr with
  | none => exact .inl rfl
  | some p =>
      unfold HttpSession.getLastAccess HttpSession.data HttpSession.create
      simp only [Option.bind_some]
      rcases Nat.lt_trichotomy p memory.length with hlt | rfl | hgt
      · rw [List.getElem?_append_left hlt]
        exact .inl rfl
      · rw [List.getElem?_concat_length]
        exact .inr rfl
      · have hnone : ∀ l : SessionMemory V, l.length ≤ p → l[p]? = none := fun _ h =>
          List.getElem?_eq_none h
        rw [hnone memory (by omega), hnone (memory ++ _) (by simp; omega)]
        exact .inl rfl

/-- The activity keeps the stored sessions, and renews at most some of them. -/
structure Renews (s s' : HttpSessionStore V) (time? : Option Int) : Prop where
  settings : s'.settings = s.settings
  times : ∀ session : HttpSession,
    session.getLastAccess s'.memory = session.getLastAccess s.memory ∨
      time? = some (session.getLastAccess s'.memory)
  stored : ∀ (key : Bytes) (session : HttpSession), s'.sessions[key]? = some session →
    s.sessions[key]? = some session ∨ time? = some (session.getLastAccess s'.memory)

theorem Renews.setLastAccess (s : HttpSessionStore V) (session : HttpSession) (now : Int) :
    Renews s { s with memory := session.setLastAccess s.memory now } (some now) where
  settings := rfl
  times := fun session' => (getLastAccess_setLastAccess s.memory session session' now).imp id
    fun h => congrArg some h.symm
  stored := fun _ _ h => .inl h

theorem Renews.onData (s : HttpSessionStore V) (session : HttpSession)
    {f : HttpSessionData V → HttpSessionData V} (hf : ∀ d, (f d).lastAccess = d.lastAccess)
    (time? : Option Int) : Renews s { s with memory := session.onData s.memory f } time? where
  settings := rfl
  times := fun session' => .inl (getLastAccess_onData hf session')
  stored := fun _ _ h => .inl h

theorem Renews.refl (s : HttpSessionStore V) (time? : Option Int) : Renews s s time? :=
  ⟨rfl, fun _ => .inl rfl, fun _ _ h => .inl h⟩

/-- A session that is created has the time of its creation. -/
theorem createSession_renews (s : HttpSessionStore V) (response : HttpResponse) (now : Int)
    (uuid : Bytes) : Renews s (s.createSession response now uuid).store (some now) where
  settings := rfl
  times := fun session => (getLastAccess_create s.memory session now uuid).imp id
    fun h => congrArg some h.symm
  stored := by
    intro key session hstored
    rw [createSession_sessions, Std.ExtTreeMap.getElem?_insert] at hstored
    split at hstored
    · cases hstored
      right
      simp [createSession_memory, HttpSession.getLastAccess, HttpSession.data]
    · exact .inl hstored

/-- What an activity does to the times and to the stored sessions. -/
theorem advance_renews (s : HttpSessionStore V) (a : Activity V) :
    Renews s (s.advance a) a.accessTime? := by
  cases a with
  | access session now => exact .setLastAccess s session now
  | operation e =>
      cases e with
      | getSession request response allowCreate now uuid =>
          rw [advance, step]
          rcases s.getSession_cases request response allowCreate now uuid with
            ⟨session, -, -, hs⟩ | ⟨-, hs⟩ | ⟨-, hs⟩
          · rw [hs]
            exact .setLastAccess s session now
          · rw [hs]
            exact s.createSession_renews response now uuid
          · rw [hs]
            exact .refl s _
      | getSessionById id now => exact .setLastAccess s _ now
      | removeSession session =>
          refine ⟨rfl, fun _ => .inl rfl, fun key stored hstored => .inl ?_⟩
          rw [advance, step, removeSession, Std.ExtTreeMap.getElem?_erase] at hstored
          exact (Option.ite_none_left_eq_some.mp hstored).2
      | sessionTimerEvent now =>
          refine ⟨rfl, fun _ => .inl rfl, fun key stored hstored => .inl ?_⟩
          rw [advance, step, sessionTimerEvent_sessions] at hstored
          exact (Option.filter_eq_some_iff.mp hstored).1
      | set session key value =>
          have hdata : ∀ d : HttpSessionData V,
              ({ d with values := d.values.insert key value } : HttpSessionData V).lastAccess =
                d.lastAccess := fun _ => rfl
          exact .onData s session hdata none
      | remove session key =>
          have hdata : ∀ d : HttpSessionData V,
              ({ d with values := d.values.erase key } : HttpSessionData V).lastAccess =
                d.lastAccess := fun _ => rfl
          exact .onData s session hdata none
      | get session key => exact .refl s _

/-! ### After the timer has run

What the timer has left was used recently, and what comes in later is newer. -/

/-- The timer leaves only sessions that have not expired. -/
theorem recent_sweep (s : HttpSessionStore V) (sweep : Int) (key : Bytes) (session : HttpSession)
    (hstored : (s.sessionTimerEvent sweep).sessions[key]? = some session) :
    (s.sessionTimerEvent sweep).Recent sweep [] session := by
  rw [sessionTimerEvent_sessions, Option.filter_eq_some_iff] at hstored
  left
  show sweep - session.getLastAccess s.memory ≤ s.settings.expirationTime
  have hkept := hstored.2
  unfold isExpired at hkept
  simpa using hkept

/-- Activities keep the sessions recent, and add their own times. -/
theorem recent_run {s : HttpSessionStore V} {sweep : Int} {times : List Int}
    (h : ∀ (key : Bytes) (session : HttpSession), s.sessions[key]? = some session →
      s.Recent sweep times session) (after : List (Activity V)) (key : Bytes)
    (session : HttpSession) (hstored : (run advance s after).sessions[key]? = some session) :
    (run advance s after).Recent sweep (times ++ after.filterMap Activity.accessTime?) session := by
  induction after generalizing s times with
  | nil =>
      rw [List.filterMap_nil, List.append_nil]
      exact h key session hstored
  | cons a after ih =>
      have hstep := s.advance_renews a
      have hrecent : ∀ (key : Bytes) (session : HttpSession),
          (s.advance a).sessions[key]? = some session →
            (s.advance a).Recent sweep (times ++ a.accessTime?.toList) session := by
        intro key session hkey
        have hnew : a.accessTime? = some (session.getLastAccess (s.advance a).memory) →
            (s.advance a).Recent sweep (times ++ a.accessTime?.toList) session := by
          intro htime
          right
          rw [htime]
          exact List.mem_append_right _ (List.mem_singleton_self _)
        rcases hstep.stored key session hkey with hold | htime
        · rcases hstep.times session with hsame | htime
          · rw [Recent, hsame, hstep.settings]
            exact (h key session hold).imp id (List.mem_append_left _)
          · exact hnew htime
        · exact hnew htime
      have hrest := ih hrecent hstored
      rw [List.append_assoc] at hrest
      cases htime : a.accessTime? with
      | none =>
          rw [List.filterMap_cons_none htime]
          rw [htime] at hrest
          exact hrest
      | some now =>
          rw [List.filterMap_cons_some htime]
          rw [htime] at hrest
          exact hrest

/-- **A session that was expired when the timer ran is not handed out again**, whatever has happened
before and after. -/
theorem handsOut_recent (settings : SessionSettings) (before after : List (Activity V))
    (sweep now : Int) :
    let s := run advance (new settings)
      (before ++ .operation (.sessionTimerEvent sweep) :: after)
    s.OnlyHandsOut now (s.Recent sweep (after.filterMap Activity.accessTime?)) := by
  dsimp only
  rw [Run.run_append, Run.run_cons]
  generalize run advance (new settings) before = s₀
  refine onlyHandsOut_of_stored (fun key session hstored => ?_) now
  have hrecent : (run advance (s₀.sessionTimerEvent sweep) after).Recent sweep
      ([] ++ after.filterMap Activity.accessTime?) session :=
    recent_run (fun key session => s₀.recent_sweep sweep key session) after key session hstored
  exact hrecent

/-- The session of a client that comes back after an hour and a millisecond, when the timer has not
run since. -/
theorem not_withheld :
    ¬ ∀ (settings : SessionSettings) (activities : List (Activity Unit)) (now : Int),
      let s := run advance (new settings) activities
      s.OnlyHandsOut now fun session =>
        now - session.getLastAccess s.memory ≤ s.settings.expirationTime := by
  intro hall
  have hone := hall ⟨ascii "sessionid", [], [], [], 3600000⟩
    [.operation (.getSession (HttpRequest.new defaultSettings).view
      (.new .new) true 0 (ascii "{1}"))]
    3600001
  rcases hone.getSessionById (ascii "{1}") with hnull | hok
  · exact absurd hnull (by decide +kernel)
  · exact absurd hok (by decide +kernel)

end HttpSessionStore

end QtWebApp
