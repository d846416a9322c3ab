import QtWebApp.Base.Run
import QtWebApp.HttpServer.HttpSessionStore

/-!
# QtWebApp.Sessions.Store

The session store in use by any number of clients, and its invariant.

Each operation of the store or of a session is one event; the requests, the responses and the
handles it is given are arbitrary. The only thing that is asked of the world is that
`QUuid::createUuid` returns a new id that is not empty (`Fresh`). Then the ids in memory are
those that were generated, all different, and each key of the store is the id of the session
it is mapped to (`Inv`).

A session in the store is a handle, and its data is in the memory, which only grows: the data of a
session that was removed is still there for whoever has a handle. The number of handles is of no
concern here.
-/

namespace QtWebApp

namespace HttpSessionStore

variable {V : Type}

/-- The operations. -/
inductive Event (V : Type)
  | getSession (request : RequestView) (response : HttpResponse) (allowCreate : Bool) (now : Int)
      (uuid : Bytes)
  | getSessionById (id : Bytes) (now : Int)
  | removeSession (session : HttpSession)
  | sessionTimerEvent (now : Int)
  | set (session : HttpSession) (key : Bytes) (value : V)
  | remove (session : HttpSession) (key : Bytes)
  | get (session : HttpSession) (key : Bytes)

/-- The store after an operation. -/
def step (s : HttpSessionStore V) : Event V → HttpSessionStore V
  | .getSession request response allowCreate now uuid =>
      (s.getSession request response allowCreate now uuid).store
  | .getSessionById id now => (s.getSessionById id now).2
  | .removeSession session => s.removeSession session
  | .sessionTimerEvent now => s.sessionTimerEvent now
  | .set session key value => { s with memory := session.set s.memory key value }
  | .remove session key => { s with memory := session.remove s.memory key }
  | .get _ _ => s

/-- What `QUuid::createUuid` returns in an operation that may create a session. -/
def Event.uuid? : Event V → Option Bytes
  | .getSession _ _ true _ uuid => some uuid
  | _ => none

/-- The ids of all sessions the store has created. -/
def generated (s : HttpSessionStore V) : List Bytes := s.memory.map HttpSessionData.id

/-- An id that `QUuid::createUuid` may return. -/
def Fresh (s : HttpSessionStore V) (uuid : Bytes) : Prop := uuid ≠ [] ∧ uuid ∉ s.generated

instance (s : HttpSessionStore V) (uuid : Bytes) : Decidable (s.Fresh uuid) := by
  unfold Fresh
  infer_instance

/-- What the operations get from outside is as it should be. -/
def Proper (s : HttpSessionStore V) : Event V → Prop
  | .getSession _ _ _ _ uuid => s.Fresh uuid
  | _ => True

instance (s : HttpSessionStore V) : (e : Event V) → Decidable (s.Proper e)
  | .getSession _ _ _ _ uuid => inferInstanceAs (Decidable (s.Fresh uuid))
  | .getSessionById _ _ | .removeSession _ | .sessionTimerEvent _ | .set _ _ _ | .remove _ _
  | .get _ _ => .isTrue trivial

/-! ### What an operation does

One lemma for each function of the store. Later modules use these and do not unfold the
functions. -/

/-- The stored session of an id, when there is one. -/
theorem value_eq (s : HttpSessionStore V) (id : Bytes) :
    s.value id = (s.sessions[id]?).getD .null :=
  Std.ExtTreeMap.getD_eq_getD_getElem?

theorem stored_of_value {s : HttpSessionStore V} {id : Bytes} (h : (s.value id).isNull = false) :
    s.sessions[id]? = some (s.value id) := by
  rw [value_eq] at h ⊢
  cases hstored : s.sessions[id]? with
  | none =>
      -- a missing session reads as the null session
      rw [hstored] at h
      cases h
  | some session => rfl

/-- An id that is reported is in the store. -/
theorem contains_of_getSessionId {s : HttpSessionStore V} {request : RequestView}
    {response : HttpResponse} {id : Bytes} (hid : s.getSessionId request response = id)
    (hne : id ≠ []) : ∃ session, s.sessions[id]? = some session := by
  unfold getSessionId at hid
  dsimp only at hid
  split at hid
  · exact absurd hid.symm hne
  · next hvalid =>
      rw [hid] at hvalid
      have hcontains : s.sessions.contains id = true := by
        by_contra hc
        exact hvalid ⟨hne, Bool.eq_false_iff.mpr hc⟩
      rw [Std.ExtTreeMap.contains_eq_isSome_getElem?] at hcontains
      exact Option.isSome_iff_exists.mp hcontains

/-- The session of a request is found by its id; otherwise it is created or there is none. -/
theorem getSession_cases (s : HttpSessionStore V) (request : RequestView)
    (response : HttpResponse) (allowCreate : Bool) (now : Int) (uuid : Bytes) :
    (∃ session, s.sessions[s.getSessionId request response]? = some session ∧
      session.isNull = false ∧
      s.getSession request response allowCreate now uuid = s.refresh response session now) ∨
    (allowCreate = true ∧
      s.getSession request response allowCreate now uuid = s.createSession response now uuid) ∨
    (allowCreate = false ∧
      s.getSession request response allowCreate now uuid = ⟨.null, response, s⟩) := by
  unfold getSession
  dsimp only
  by_cases hfound : s.getSessionId request response ≠ [] ∧
      (s.value (s.getSessionId request response)).isNull = false
  · rw [if_pos hfound]
    exact .inl ⟨_, stored_of_value hfound.2, hfound.2, rfl⟩
  · rw [if_neg hfound]
    right
    cases allowCreate with
    | true => exact .inl ⟨rfl, rfl⟩
    | false => exact .inr ⟨rfl, rfl⟩

theorem createSession_memory (s : HttpSessionStore V) (response : HttpResponse) (now : Int)
    (uuid : Bytes) : (s.createSession response now uuid).store.memory =
      s.memory ++ [{ id := uuid, lastAccess := now, values := ∅ }] := rfl

/-- The new session has got the new id. -/
theorem getId_create (memory : SessionMemory V) (now : Int) (uuid : Bytes) :
    (HttpSession.create memory now uuid).1.getId (HttpSession.create memory now uuid).2 = uuid := by
  simp [HttpSession.getId, HttpSession.data, HttpSession.create]

/-- The new session is stored under the new id, and the others stay. -/
theorem createSession_sessions (s : HttpSessionStore V) (response : HttpResponse) (now : Int)
    (uuid : Bytes) : (s.createSession response now uuid).store.sessions =
      s.sessions.insert uuid ⟨some s.memory.length⟩ := by
  have hid := getId_create s.memory now uuid
  unfold createSession
  dsimp only
  rw [hid]
  rfl

theorem createSession_response (s : HttpSessionStore V) (response : HttpResponse) (now : Int)
    (uuid : Bytes) : (s.createSession response now uuid).response =
      response.setCookie (s.sessionCookie uuid) := by
  have hid := getId_create s.memory now uuid
  unfold createSession
  dsimp only
  rw [hid]

/-- What the timer leaves: erasing in a loop is filtering. -/
theorem foldl_eraseExpired (s : HttpSessionStore V) (now : Int) (l : List (Bytes × HttpSession))
    (sessions : QMap HttpSession) (key : Bytes) :
    (l.foldl (s.eraseExpired now) sessions)[key]? =
      if ∃ e ∈ l, e.1 = key ∧ s.isExpired now e.2 = true then none else sessions[key]? := by
  induction l generalizing sessions with
  | nil => simp
  | cons e l ih =>
      rw [List.foldl_cons, ih]
      by_cases hrest : ∃ e ∈ l, e.1 = key ∧ s.isExpired now e.2 = true
      · obtain ⟨e', he', hkey⟩ := hrest
        rw [if_pos ⟨e', he', hkey⟩, if_pos ⟨e', List.mem_cons_of_mem e he', hkey⟩]
      · rw [if_neg hrest]
        unfold eraseExpired
        by_cases hexp : s.isExpired now e.2 = true
        · rw [if_pos hexp, Std.ExtTreeMap.getElem?_erase]
          by_cases hkey : e.1 = key
          · rw [if_pos (Std.compare_eq_iff_eq.mpr hkey), if_pos ⟨e, List.mem_cons_self, hkey, hexp⟩]
          · rw [if_neg (fun hc => hkey (Std.compare_eq_iff_eq.mp hc)), if_neg]
            rintro ⟨e', he', hkey', hexp'⟩
            rcases List.mem_cons.mp he' with rfl | hmem
            · exact hkey hkey'
            · exact hrest ⟨e', hmem, hkey', hexp'⟩
        · rw [if_neg hexp, if_neg]
          rintro ⟨e', he', hkey', hexp'⟩
          rcases List.mem_cons.mp he' with rfl | hmem
          · exact hexp hexp'
          · exact hrest ⟨e', hmem, hkey', hexp'⟩

/-- The timer removes the sessions that were not used for too long, and no others. -/
theorem sessionTimerEvent_sessions (s : HttpSessionStore V) (now : Int) (key : Bytes) :
    (s.sessionTimerEvent now).sessions[key]? =
      s.sessions[key]?.filter fun session => !s.isExpired now session := by
  have hloop := s.foldl_eraseExpired now s.sessions.toList s.sessions key
  rw [sessionTimerEvent, hloop]
  cases hget : s.sessions[key]? with
  | none => simp
  | some session =>
      have hmem : (key, session) ∈ s.sessions.toList :=
        Std.ExtTreeMap.mem_toList_iff_getElem?_eq_some.mpr hget
      have honly : (∃ e ∈ s.sessions.toList, e.1 = key ∧ s.isExpired now e.2 = true) ↔
          s.isExpired now session = true := by
        constructor
        · rintro ⟨⟨k, session'⟩, he, rfl, hexp⟩
          have hsame := Std.ExtTreeMap.mem_toList_iff_getElem?_eq_some.mp he
          rw [hget] at hsame
          cases hsame
          exact hexp
        · exact fun hexp => ⟨_, hmem, rfl, hexp⟩
      rw [Option.filter_some]
      cases hexp : s.isExpired now session <;> simp [honly, hexp]

end HttpSessionStore

end QtWebApp
