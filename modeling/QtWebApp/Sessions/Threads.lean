import QtWebApp.Sessions.Laws

/-!
# QtWebApp.Sessions.Threads

Calls of `HttpSessionStore::getSession` by many threads, and the timer in between.

The mutex of the store is held while the id of a request is checked, and again while its session is
looked up or created, but not in between, and not while a session that was found is renewed.
So a call is a few steps, and the steps of different calls and of the timer come in any
order. A session is lost when the timer runs after it was looked up and finds it expired: the
call goes on to renew and return a session that is not in the store any more.

When the timer leaves alone the sessions that calls have got hold of, nothing is lost
(`allDelivered_run`). For this each call is followed by its phase, and for each phase it is said
what the call can count on (`Phase.Good`).
-/

namespace QtWebApp

open Bytes

namespace SessionThreads

variable {V : Type}

/-- Where a call of `getSession` with `allowCreate` stands. -/
inductive Phase
  /-- `getSessionId` has returned. -/
  | validated (response : HttpResponse) (sessionId : Bytes)
  /-- The session was found, and the mutex is unlocked. -/
  | found (response : HttpResponse) (session : HttpSession)
  /-- The cookie is set. -/
  | refreshed (response : HttpResponse) (session : HttpSession)
  /-- The session was renewed or created; what is left is to return it. -/
  | leaving (response : HttpResponse) (session : HttpSession)
  | returned (response : HttpResponse) (session : HttpSession)

/-- The session a call has got hold of and not returned yet. -/
def Phase.session? : Phase → Option HttpSession
  | .validated _ _ => none
  | .found _ session => some session
  | .refreshed _ session => some session
  | .leaving _ session => some session
  | .returned _ _ => none

/-- The store, and the calls in the order in which they began. -/
structure State (V : Type) where
  store : HttpSessionStore V
  threads : List Phase

/-- A store that is not in use. -/
def start (settings : SessionSettings) : State V := ⟨.new settings, []⟩

/-- The steps of the calls, of which there may be any number, and of the timer. -/
inductive Event
  | call (request : RequestView) (response : HttpResponse)
  | lookUp (i : Nat) (now : Int) (uuid : Bytes)
  | setCookie (i : Nat)
  | setLastAccess (i : Nat) (now : Int)
  | leave (i : Nat)
  | sessionTimerEvent (now : Int)

/-- The section of `getSession` in which the mutex is held: the session is found or created. -/
def lookUp (s : State V) (i : Nat) (response : HttpResponse) (sessionId : Bytes) (now : Int)
    (uuid : Bytes) : State V :=
  let session := s.store.value sessionId
  if sessionId ≠ [] ∧ session.isNull = false then
    { s with threads := s.threads.set i (.found response session) }
  else
    let created := s.store.createSession response now uuid
    { store := created.store, threads :=
      s.threads.set i (.leaving created.response created.session) }

/-- One step. A step that a call cannot take changes nothing. -/
def step (s : State V) : Event → State V
  | .call request response =>
      { s with threads := s.threads ++
        [.validated response (s.store.getSessionId request response)] }
  | .lookUp i now uuid =>
      match s.threads[i]? with
      | some (.validated response sessionId) => lookUp s i response sessionId now uuid
      | _ => s
  | .setCookie i =>
      match s.threads[i]? with
      | some (.found response session) =>
          { s with threads := s.threads.set i (.refreshed
            (response.setCookie (s.store.sessionCookie (session.getId s.store.memory))) session) }
      | _ => s
  | .setLastAccess i now =>
      match s.threads[i]? with
      | some (.refreshed response session) =>
          { store := { s.store with memory := session.setLastAccess s.store.memory now }
            threads := s.threads.set i (.leaving response session) }
      | _ => s
  | .leave i =>
      match s.threads[i]? with
      | some (.leaving response session) =>
          { s with threads := s.threads.set i (.returned response session) }
      | _ => s
  | .sessionTimerEvent now => { s with store := s.store.sessionTimerEvent now }

/-! ### What a call delivers

What the caller can expect of the session at the moment it gets it. -/

/-- The session is stored under the id that the response puts into the cookie, so that a value set
in it is found by the next request that presents the cookie. -/
structure Delivered [Inhabited V] (store : HttpSessionStore V) (response : HttpResponse)
    (session : HttpSession) : Prop where
  stored : store.sessions[session.getId store.memory]? = some session
  cookie : store.settings.cookieName ≠ [] →
    response.cookies[store.settings.cookieName]?.map HttpCookie.value =
      some (session.getId store.memory)
  found : ∀ (key : Bytes) (value : V) (request : RequestView) (response' : HttpResponse),
    store.presentedId request response' = session.getId store.memory →
    ∀ (allowCreate : Bool) (now : Int) (uuid : Bytes),
      let r := (store.step (.set session key value)).getSession request response'
          allowCreate now uuid
      r.session.get r.store.memory key = value

/-- Every call that returns in a run delivers its session. -/
def AllDelivered [Inhabited V] (settings : SessionSettings) (events : List Event) : Prop :=
  ∀ before i after, events = before ++ .leave i :: after → ∀ response session,
    (run step (start settings : State V) before).threads[i]? = some (.leaving response session) →
      Delivered (run step (start settings : State V) (before ++ [.leave i])).store response session

/-- `QUuid::createUuid` returns a new id. -/
def Proper (s : State V) : Event → Prop
  | .lookUp _ _ uuid => s.store.Fresh uuid
  | _ => True

/-- The timer finds no session expired that a call has got hold of and not returned yet. -/
def Undisturbed (s : State V) : Event → Prop
  | .sessionTimerEvent now => ∀ t ∈ s.threads, ∀ session ∈ t.session?,
      now - session.getLastAccess s.store.memory ≤ s.store.settings.expirationTime
  | _ => True

instance (s : State V) : (e : Event) → Decidable (Proper s e)
  | .lookUp _ _ uuid => inferInstanceAs (Decidable (s.store.Fresh uuid))
  | .call .. | .setCookie _ | .setLastAccess .. | .leave _ | .sessionTimerEvent _ => .isTrue trivial

instance (s : State V) : (e : Event) → Decidable (Undisturbed s e)
  | .sessionTimerEvent now => inferInstanceAs (Decidable (∀ t ∈ s.threads, ∀ session ∈ t.session?,
      now - session.getLastAccess s.store.memory ≤ s.store.settings.expirationTime))
  | .call .. | .setCookie _ | .setLastAccess .. | .leave _ | .lookUp .. => .isTrue trivial

/-! ### The invariant

A call that has found or made a session counts on its being stored until it returns. Only the timer
can take it away. -/

/-- The session is in the store under its own id. -/
def Stored (store : HttpSessionStore V) (session : HttpSession) (id : Bytes) : Prop :=
  ∃ p : Nat, session = ⟨some p⟩ ∧ store.generated[p]? = some id ∧
    store.sessions[id]? = some session

/-- The cookie of the response holds the id. -/
def Marked (store : HttpSessionStore V) (response : HttpResponse) (id : Bytes) : Prop :=
  store.settings.cookieName ≠ [] →
    response.cookies[store.settings.cookieName]?.map HttpCookie.value = some id

/-- What holds of a call in its phase. -/
def Phase.Good (store : HttpSessionStore V) : Phase → Prop
  | .validated _ _ => True
  | .found _ session => ∃ id, Stored store session id
  | .refreshed response session => ∃ id, Stored store session id ∧ Marked store response id
  | .leaving response session => ∃ id, Stored store session id ∧ Marked store response id
  | .returned _ _ => True

/-- The invariant. -/
structure Inv (s : State V) : Prop where
  ids : s.store.Ids
  good : ∀ t ∈ s.threads, t.Good s.store

/-- A phase stays good when its session stays in the store. -/
theorem Phase.Good.mono {store store' : HttpSessionStore V}
    (hsettings : store'.settings = store.settings) {t : Phase}
    (hstored : ∀ session ∈ t.session?, ∀ id, Stored store session id →
      Stored store' session id) (ht : t.Good store) : t.Good store' := by
  have hmarked : ∀ response id, Marked store response id → Marked store' response id := by
    intro response id h
    rw [Marked, hsettings]
    exact h
  cases t with
  | validated response sessionId => trivial
  | found response session =>
      obtain ⟨id, hid⟩ := ht
      exact ⟨id, hstored session rfl id hid⟩
  | refreshed response session =>
      obtain ⟨id, hid, hcookie⟩ := ht
      exact ⟨id, hstored session rfl id hid, hmarked _ _ hcookie⟩
  | leaving response session =>
      obtain ⟨id, hid, hcookie⟩ := ht
      exact ⟨id, hstored session rfl id hid, hmarked _ _ hcookie⟩
  | returned response session => trivial

/-- A new phase of one call. -/
theorem Inv.set {s : State V} (h : Inv s) {i : Nat} {t : Phase} (ht : t.Good s.store) :
    Inv { s with threads := s.threads.set i t } where
  ids := h.ids
  good := by
    intro t' ht'
    rcases List.mem_or_eq_of_mem_set ht' with hold | rfl
    · exact h.good t' hold
    · exact ht

/-- The store changes, and no session that matters is lost. -/
theorem Inv.onStore {s : State V} (h : Inv s) {store : HttpSessionStore V}
    (hsettings : store.settings = s.store.settings) (hids : store.Ids)
    (hstored : ∀ t ∈ s.threads, ∀ session ∈ t.session?, ∀ id, Stored s.store session id →
      Stored store session id) : Inv { s with store := store } where
  ids := hids
  good := fun t ht => (h.good t ht).mono hsettings (hstored t ht)

theorem Stored.getId {store : HttpSessionStore V} {session : HttpSession} {id : Bytes}
    (h : Stored store session id) : session.getId store.memory = id := by
  obtain ⟨p, rfl, hid, -⟩ := h
  exact HttpSessionStore.getId_of_generated hid

/-- A response is marked with the cookie that was set last. -/
theorem marked_setCookie (store : HttpSessionStore V) (response : HttpResponse) (id : Bytes) :
    Marked store (response.setCookie (store.sessionCookie id)) id := by
  intro hname
  rw [HttpSessionStore.cookies_sessionCookie hname]
  rfl

/-- Creating a session loses no other. -/
theorem Stored.createSession {store : HttpSessionStore V} {session : HttpSession} {id : Bytes}
    (h : Stored store session id) (response : HttpResponse) (now : Int) {uuid : Bytes}
    (hfresh : store.Fresh uuid) :
    Stored (store.createSession response now uuid).store session id := by
  obtain ⟨p, hp, hid, hstored⟩ := h
  have hne : uuid ≠ id := by
    intro heq
    exact hfresh.2 (heq ▸ List.mem_of_getElem? hid)
  refine ⟨p, hp, ?_, ?_⟩
  · rw [HttpSessionStore.createSession_generated]
    exact HttpSessionStore.getElem?_of_prefix (List.prefix_append _ _) hid
  · rw [HttpSessionStore.createSession_sessions, Std.ExtTreeMap.getElem?_insert,
      if_neg fun hc => hne (Std.LawfulEqCmp.eq_of_compare hc)]
    exact hstored

/-- A session is stored when it has been created. -/
theorem stored_createSession (store : HttpSessionStore V) (response : HttpResponse) (now : Int)
    (uuid : Bytes) :
    Stored (store.createSession response now uuid).store ⟨some store.memory.length⟩ uuid := by
  refine ⟨_, rfl, store.createSession_last response now uuid, ?_⟩
  rw [HttpSessionStore.createSession_sessions]
  exact Std.ExtTreeMap.getElem?_insert_self

/-- What is looked up is found, or made under a new id. -/
theorem inv_lookUp {s : State V} (h : Inv s) (i : Nat) (response : HttpResponse) (sessionId : Bytes)
    (now : Int) {uuid : Bytes} (hfresh : s.store.Fresh uuid) :
    Inv (lookUp s i response sessionId now uuid) := by
  unfold lookUp
  dsimp only
  split
  · next hfound =>
      have hstored := HttpSessionStore.stored_of_value hfound.2
      obtain ⟨p, hp, hid⟩ := h.ids.owned sessionId _ hstored
      exact h.set ⟨sessionId, p, hp, hid, hstored⟩
  · have hcreated : Inv { s with store := (s.store.createSession response now uuid).store } :=
      h.onStore rfl (h.ids.createSession response now hfresh)
      fun t _ session _ id hid => hid.createSession response now hfresh
    refine hcreated.set ⟨uuid, stored_createSession s.store response now uuid, ?_⟩
    show Marked _ (s.store.createSession response now uuid).response uuid
    rw [HttpSessionStore.createSession_response]
    exact marked_setCookie s.store response uuid

/-- **The step of the invariant.** -/
theorem inv_step (s : State V) (e : Event) (h : Inv s) (hok : Proper s e ∧ Undisturbed s e) :
    Inv (step s e) := by
  have hphase : ∀ {i : Nat} {t : Phase}, s.threads[i]? = some t → t.Good s.store :=
    fun hi => h.good _ (List.mem_of_getElem? hi)
  cases e with
  | call request response =>
      refine ⟨h.ids, fun t ht => ?_⟩
      rcases List.mem_append.mp ht with hold | hnew
      · exact h.good t hold
      · rw [List.mem_singleton.mp hnew]
        trivial
  | lookUp i now uuid =>
      rw [step]
      split
      · exact inv_lookUp h i _ _ now hok.1
      · exact h
  | setCookie i =>
      rw [step]
      split
      · next response session hi =>
          obtain ⟨id, hid⟩ := hphase hi
          rw [hid.getId]
          exact h.set ⟨id, hid, marked_setCookie s.store response id⟩
      · exact h
  | setLastAccess i now =>
      rw [step]
      split
      · next response session hi =>
          have hshrinks : HttpSessionStore.Shrinks s.store
              { s.store with memory := session.setLastAccess s.store.memory now } :=
            .onData s.store session fun _ => rfl
          have hkept : ∀ session' id, Stored s.store session' id →
              Stored { s.store with memory := session.setLastAccess s.store.memory now }
                session' id := by
            intro session' id hid
            obtain ⟨p, hp, hgen, hstored⟩ := hid
            exact ⟨p, hp, hshrinks.generated ▸ hgen, hstored⟩
          have hrenewed : Inv { s with store := { s.store with
              memory := session.setLastAccess s.store.memory now } } :=
            h.onStore rfl (h.ids.shrinks hshrinks) fun _ _ session' _ id hid =>
              hkept session' id hid
          obtain ⟨id, hid, hcookie⟩ := hphase hi
          exact hrenewed.set ⟨id, hkept session id hid, hcookie⟩
      · exact h
  | leave i =>
      rw [step]
      split
      · exact h.set trivial
      · exact h
  | sessionTimerEvent now =>
      refine h.onStore rfl (h.ids.shrinks ⟨rfl, rfl, fun key session hkey => ?_⟩) ?_
      · rw [HttpSessionStore.sessionTimerEvent_sessions] at hkey
        exact (Option.filter_eq_some_iff.mp hkey).1
      · -- a session that a call has got hold of is not expired
        intro t ht session hsession id hid
        obtain ⟨p, hp, hgen, hstored⟩ := hid
        refine ⟨p, hp, hgen, ?_⟩
        have hfresh := hok.2 t ht session hsession
        rw [HttpSessionStore.sessionTimerEvent_sessions, hstored, Option.filter_some, if_pos]
        unfold HttpSessionStore.isExpired
        simpa using hfresh

theorem inv_start (settings : SessionSettings) : Inv (start settings : State V) :=
  ⟨HttpSessionStore.ids_new settings, fun _ ht => by simp [start] at ht⟩

/-! ### Calls that return

At the end of a call its phase says what is to be shown. The last examples are a client that comes
back in time and loses its session all the same. -/

/-- What a stored session is good for. -/
theorem Stored.delivered [Inhabited V] {store : HttpSessionStore V} (hids : store.Ids)
    {response : HttpResponse} {session : HttpSession} {id : Bytes} (hid : Stored store session id)
    (hmarked : Marked store response id) : Delivered store response session where
  stored := by
    rw [hid.getId]
    obtain ⟨-, -, -, hstored⟩ := hid
    exact hstored
  cookie := by
    rw [hid.getId]
    exact hmarked
  found := by
    intro key value request response' hpresented allowCreate now uuid
    rw [hid.getId] at hpresented
    obtain ⟨p, rfl, hgen, hstored⟩ := hid
    have hp : p < store.memory.length := by
      rw [← HttpSessionStore.memory_length_eq]
      exact (List.getElem?_eq_some_iff.mp hgen).1
    -- setting the value changes neither the ids nor the sessions
    have hids' : (store.step (.set ⟨some p⟩ key value)).Ids :=
      hids.shrinks (.onData store ⟨some p⟩ fun _ => rfl)
    have hfound : (store.step (.set ⟨some p⟩ key value)).getSessionId request response' = id :=
      HttpSessionStore.getSessionId_of_presented hpresented hstored
    rw [HttpSessionStore.getSession_of_stored hids' hfound (hids.ne_nil hgen) hstored]
    dsimp only
    rw [HttpSessionStore.get_eq_valueOf, HttpSessionStore.refresh_session,
      HttpSessionStore.refresh_valueOf, (HttpSessionStore.valueOf_set hp key value).2]
    rfl

/-- **No session is lost** when the timer finds none expired that a call is about to return. -/
theorem allDelivered_run [Inhabited V] {settings : SessionSettings} {events : List Event}
    (h : Run.Along step (fun s e => Proper s e ∧ Undisturbed s e)
      (start settings : State V) events) :
    AllDelivered (V := V) settings events := by
  intro before i after hsplit response session hi
  subst hsplit
  have hinv := Run.Along.inv inv_step (inv_start settings) h.left
  obtain ⟨id, hid, hmarked⟩ := hinv.good _ (List.mem_of_getElem? hi)
  have hdelivered := hid.delivered hinv.ids hmarked
  rw [Run.run_append, Run.run_cons, Run.run_nil, step, hi]
  exact hdelivered

/-- A client that comes without a session, and comes back with the cookie it has got, while the
timer runs. -/
theorem allDelivered_run_back :
    let first := (HttpRequest.new defaultSettings).view
    let second :=
      { first with cookies := (∅ : QMap Bytes).insert (ascii "sessionid") (ascii "{1}") }
    AllDelivered (V := Nat) ⟨ascii "sessionid", [], [], [], 3600000⟩
      [.call first (.new .new), .lookUp 0 5 (ascii "{1}"), .leave 0, .call second (.new .new),
        .lookUp 1 3600004 (ascii "{2}"), .sessionTimerEvent 3600005, .setCookie 1,
        .setLastAccess 1 3600006, .leave 1] :=
  allDelivered_run (by decide +kernel)

/-- The session a call is about to return. -/
def Phase.result? : Phase → Option HttpSession
  | .leaving _ session => some session
  | _ => none

theorem Phase.result?_eq_some {t : Phase} {session : HttpSession} (h : t.result? = some session) :
    ∃ response, t = .leaving response session := by
  cases t with
  | leaving response session' =>
      cases h
      exact ⟨response, rfl⟩
  | validated _ _ | found _ _ | refreshed _ _ | returned _ _ => cases h

/-- The default settings of the store. -/
def defaultSessionSettings : SessionSettings := ⟨ascii "sessionid", [], [], [], 3600000⟩

/-- A client gets a session and comes back in time, but the timer runs before the session is
renewed. -/
def sweptSession : List Event :=
  [.call (HttpRequest.new defaultSettings).view (.new .new), .lookUp 0 5 (ascii "{1}"), .leave 0,
    .call { (HttpRequest.new defaultSettings).view with
      cookies := (∅ : QMap Bytes).insert (ascii "sessionid") (ascii "{1}") } (.new .new),
    .lookUp 1 3600004 (ascii "{2}"), .setCookie 1, .sessionTimerEvent 3600006,
    .setLastAccess 1 3600007]

/-- The session that this client is returned is not in the store. -/
theorem not_allDelivered_swept :
    ¬ ∀ (settings : SessionSettings) (events : List Event),
      Run.Along step Proper (start settings : State Nat) events →
        AllDelivered (V := Nat) settings events := by
  intro hall
  have hrun := hall defaultSessionSettings (sweptSession ++ [.leave 1]) (by decide +kernel)
    sweptSession 1 [] rfl
  have hresult :
      ((run step (start defaultSessionSettings : State Nat) sweptSession).threads[1]?).bind
      Phase.result? = some ⟨some 0⟩ := by decide +kernel
  obtain ⟨t, ht, hleaving⟩ := Option.bind_eq_some_iff.mp hresult
  obtain ⟨response, rfl⟩ := Phase.result?_eq_some hleaving
  exact absurd (hrun response ⟨some 0⟩ ht).stored (by decide +kernel)

end SessionThreads

end QtWebApp
