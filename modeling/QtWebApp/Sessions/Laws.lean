import QtWebApp.Sessions.Store

/-!
# QtWebApp.Sessions.Laws

What the clients of the session store can rely on.

All ids in memory are different, and the key of a stored session is the id of its data. So
an id leads to the same data as long as it is in the store, whatever the clients do in
between, and the laws follow (`sessionLaws`): who asks again gets the same session, who has
set a value reads it again, and nobody else does.

The laws are stated for any two points of a run, with anything in between: other clients, other
sessions, and the timer. A session that the timer removes in between is not asked for any more.
-/

namespace QtWebApp

open Bytes

namespace HttpSessionStore

variable {V : Type}

/-- A position keeps its element when a list grows. -/
theorem getElem?_of_prefix {α : Type} {l l' : List α} (h : l <+: l') {i : Nat} {a : α}
    (hi : l[i]? = some a) : l'[i]? = some a := by
  obtain ⟨more, rfl⟩ := h
  rw [List.getElem?_append_left (List.getElem?_eq_some_iff.mp hi).1]
  exact hi

/-! ### The invariant

An operation either creates sessions or none, so that two cases are enough for each fact
(`step_cases`). -/

/-- All ids are different and not empty, and each key is the id of its session. -/
structure Ids (s : HttpSessionStore V) : Prop where
  nodup : s.generated.Nodup
  nonempty : [] ∉ s.generated
  owned : ∀ (key : Bytes) (session : HttpSession), s.sessions[key]? = some session →
    ∃ p : Nat, session = ⟨some p⟩ ∧ s.generated[p]? = some key

/-- The state of the store between two operations. -/
structure Inv (s : HttpSessionStore V) : Prop extends Ids s where
  named : s.settings.cookieName ≠ []

/-- A generated id is not empty. -/
theorem Ids.ne_nil {s : HttpSessionStore V} (h : Ids s) {p : Nat} {id : Bytes}
    (hid : s.generated[p]? = some id) : id ≠ [] := by
  intro he
  rw [he] at hid
  exact h.nonempty (List.mem_of_getElem? hid)

/-- No session was created, and no key has got another session. -/
structure Shrinks (s s' : HttpSessionStore V) : Prop where
  settings : s'.settings = s.settings
  generated : s'.generated = s.generated
  sessions : ∀ (key : Bytes) (session : HttpSession), s'.sessions[key]? = some session →
    s.sessions[key]? = some session

theorem Shrinks.refl (s : HttpSessionStore V) : Shrinks s s := ⟨rfl, rfl, fun _ _ h => h⟩

/-- Changing the data of a session, but not its id. -/
theorem Shrinks.onData (s : HttpSessionStore V) (session : HttpSession)
    {f : HttpSessionData V → HttpSessionData V} (hf : ∀ d, (f d).id = d.id) :
    Shrinks s { s with memory := session.onData s.memory f } where
  settings := rfl
  generated := HttpSession.onData_ids hf
  sessions := fun _ _ h => h

theorem refresh_shrinks (s : HttpSessionStore V) (response : HttpResponse) (session : HttpSession)
    (now : Int) : Shrinks s (s.refresh response session now).store :=
  .onData s session fun _ => rfl

/-- An operation creates a session, or it creates none and moves none. -/
theorem step_cases (s : HttpSessionStore V) (e : Event V) :
    Shrinks s (s.step e) ∨ ∃ request response now uuid,
      e = .getSession request response true now uuid ∧
        s.step e = (s.createSession response now uuid).store := by
  cases e with
  | getSession request response allowCreate now uuid =>
      rcases s.getSession_cases request response allowCreate now uuid with
        ⟨session, -, -, hs⟩ | ⟨rfl, hs⟩ | ⟨-, hs⟩
      · left
        rw [step, hs]
        exact s.refresh_shrinks response session now
      · right
        exact ⟨request, response, now, uuid, rfl, by rw [step, hs]⟩
      · left
        rw [step, hs]
        exact .refl s
  | getSessionById id now => exact .inl (.onData s _ fun _ => rfl)
  | removeSession session =>
      refine .inl ⟨rfl, rfl, ?_⟩
      intro key stored hstored
      rw [step, removeSession, Std.ExtTreeMap.getElem?_erase] at hstored
      exact (Option.ite_none_left_eq_some.mp hstored).2
  | sessionTimerEvent now =>
      refine .inl ⟨rfl, rfl, ?_⟩
      intro key stored hstored
      rw [step, sessionTimerEvent_sessions] at hstored
      exact (Option.filter_eq_some_iff.mp hstored).1
  | set session key value => exact .inl (.onData s session fun _ => rfl)
  | remove session key => exact .inl (.onData s session fun _ => rfl)
  | get session key => exact .inl (.refl s)

theorem Ids.shrinks {s s' : HttpSessionStore V} (h : Ids s) (hs : Shrinks s s') : Ids s' where
  nodup := hs.generated ▸ h.nodup
  nonempty := hs.generated ▸ h.nonempty
  owned := fun key session hkey => hs.generated ▸ h.owned key session (hs.sessions key session hkey)

theorem Inv.shrinks {s s' : HttpSessionStore V} (h : Inv s) (hs : Shrinks s s') : Inv s' :=
  ⟨h.toIds.shrinks hs, hs.settings ▸ h.named⟩

theorem createSession_generated (s : HttpSessionStore V) (response : HttpResponse) (now : Int)
    (uuid : Bytes) :
    (s.createSession response now uuid).store.generated = s.generated ++ [uuid] := by
  rw [generated, createSession_memory, List.map_append]
  rfl

/-- The position of the new session among the ids. -/
theorem createSession_last (s : HttpSessionStore V) (response : HttpResponse) (now : Int)
    (uuid : Bytes) :
    (s.createSession response now uuid).store.generated[s.memory.length]? = some uuid := by
  have hlen : s.generated.length = s.memory.length := List.length_map ..
  rw [createSession_generated, ← hlen, List.getElem?_concat_length]

/-- A new id keeps the ids apart. -/
theorem Ids.createSession {s : HttpSessionStore V} (h : Ids s) (response : HttpResponse)
    (now : Int) {uuid : Bytes} (hfresh : s.Fresh uuid) :
    Ids (s.createSession response now uuid).store where
  nodup := by
    rw [createSession_generated]
    refine List.nodup_append.mpr ⟨h.nodup, List.pairwise_singleton _ uuid, ?_⟩
    intro id hid id' hid' heq
    rw [heq, List.mem_singleton.mp hid'] at hid
    exact hfresh.2 hid
  nonempty := by
    rw [createSession_generated, List.mem_append, List.mem_singleton]
    rintro (hold | hnew)
    · exact h.nonempty hold
    · exact hfresh.1 hnew.symm
  owned := by
    intro key session hkey
    rw [createSession_sessions, Std.ExtTreeMap.getElem?_insert] at hkey
    split at hkey
    · next hsame =>
        cases hkey
        refine ⟨_, rfl, ?_⟩
        rw [← Std.LawfulEqCmp.eq_of_compare hsame]
        exact s.createSession_last response now uuid
    · obtain ⟨p, hp, hid⟩ := h.owned key session hkey
      refine ⟨p, hp, ?_⟩
      rw [createSession_generated]
      exact getElem?_of_prefix (List.prefix_append _ _) hid

/-- Creating a session keeps the invariant. -/
theorem Inv.createSession {s : HttpSessionStore V} (h : Inv s) (response : HttpResponse)
    (now : Int) {uuid : Bytes} (hfresh : s.Fresh uuid) :
    Inv (s.createSession response now uuid).store :=
  ⟨h.toIds.createSession response now hfresh, h.named⟩

/-- **The step of the invariant.** -/
theorem inv_step (s : HttpSessionStore V) (e : Event V) (h : Inv s) (hproper : s.Proper e) :
    Inv (s.step e) := by
  rcases s.step_cases e with hs | ⟨request, response, now, uuid, rfl, hs⟩
  · exact h.shrinks hs
  · rw [hs]
    exact h.createSession response now hproper

theorem ids_new (settings : SessionSettings) : Ids (new settings : HttpSessionStore V) where
  nodup := List.nodup_nil
  nonempty := List.not_mem_nil
  owned := by
    intro key session hkey
    have hnone : (new settings : HttpSessionStore V).sessions[key]? = none :=
      Std.ExtTreeMap.getElem?_empty
    cases hnone.symm.trans hkey

theorem inv_new {settings : SessionSettings} (hname : settings.cookieName ≠ []) :
    Inv (new settings : HttpSessionStore V) := ⟨ids_new settings, hname⟩

/-- The ids only become more. -/
theorem generated_run (s : HttpSessionStore V) (events : List (Event V)) :
    s.generated <+: (run step s events).generated := by
  induction events generalizing s with
  | nil => exact List.prefix_refl _
  | cons e events ih =>
      refine List.IsPrefix.trans ?_ (ih (s.step e))
      rcases s.step_cases e with hs | ⟨request, response, now, uuid, -, hs⟩
      · rw [hs.generated]
      · rw [hs, createSession_generated]
        exact List.prefix_append _ _

/-- All ids come from `QUuid::createUuid`. -/
theorem generated_run_subset (s : HttpSessionStore V) (events : List (Event V)) :
    (run step s events).generated ⊆ s.generated ++ events.filterMap Event.uuid? := by
  induction events generalizing s with
  | nil =>
      intro id hid
      exact List.mem_append_left _ hid
  | cons e events ih =>
      intro id hid
      rcases List.mem_append.mp (ih (s.step e) hid) with hstep | hrest
      · rcases s.step_cases e with hs | ⟨request, response, now, uuid, rfl, hs⟩
        · rw [hs.generated] at hstep
          exact List.mem_append_left _ hstep
        · rw [hs, createSession_generated] at hstep
          rcases List.mem_append.mp hstep with hold | hnew
          · exact List.mem_append_left _ hold
          · rw [List.mem_singleton.mp hnew]
            exact List.mem_append_right _ List.mem_cons_self
      · refine List.mem_append_right _ ?_
        cases huuid : e.uuid? with
        | none => rwa [List.filterMap_cons_none huuid]
        | some uuid =>
            rw [List.filterMap_cons_some huuid]
            exact List.mem_cons_of_mem uuid hrest

/-! ### Handles

A handle and an id stand for the same session, whichever of them the client has. -/

/-- The id of a handle whose position is known. -/
theorem getId_of_generated {s : HttpSessionStore V} {p : Nat} {id : Bytes}
    (h : s.generated[p]? = some id) : HttpSession.getId s.memory ⟨some p⟩ = id := by
  rw [generated, List.getElem?_map, Option.map_eq_some_iff] at h
  obtain ⟨d, hd, rfl⟩ := h
  simp [HttpSession.getId, HttpSession.data, hd]

/-- The session of a key is always the same. -/
theorem stored_unique {s s' : HttpSessionStore V} (h : Inv s')
    (hgrow : s.generated <+: s'.generated) {p : Nat} {id : Bytes} (hid : s.generated[p]? = some id)
    {session : HttpSession} (hstored : s'.sessions[id]? = some session) : session = ⟨some p⟩ := by
  obtain ⟨p', rfl, hid'⟩ := h.owned id session hstored
  have hold : s'.generated[p]? = some id := getElem?_of_prefix hgrow hid
  have hlt : p' < s'.generated.length := (List.getElem?_eq_some_iff.mp hid').1
  rw [(List.getElem?_inj hlt h.nodup).mp (hid'.trans hold.symm)]

/-- A session that is found by its id is handed out again. -/
theorem getSession_of_stored {s : HttpSessionStore V} (h : Ids s) {request : RequestView}
    {response : HttpResponse} {session : HttpSession} {id : Bytes}
    (hid : s.getSessionId request response = id) (hne : id ≠ [])
    (hstored : s.sessions[id]? = some session) (allowCreate : Bool) (now : Int) (uuid : Bytes) :
    s.getSession request response allowCreate now uuid = s.refresh response session now := by
  obtain ⟨p, rfl, -⟩ := h.owned id session hstored
  have hvalue : s.value id = ⟨some p⟩ := by
    rw [value_eq, hstored]
    rfl
  unfold getSession
  dsimp only
  rw [hid, hvalue, if_pos ⟨hne, rfl⟩]

/-! ### Values

The values of a session live in its data. An operation on another session has no part in them, and
creating or renewing a session leaves all values as they are. -/

/-- The value a session holds under a key. -/
def valueOf (s : HttpSessionStore V) (session : HttpSession) (key : Bytes) : Option V :=
  (session.data s.memory).bind fun d => d.values[key]?

theorem get_eq_valueOf [Inhabited V] (s : HttpSessionStore V) (session : HttpSession)
    (key : Bytes) : session.get s.memory key = (s.valueOf session key).getD default := by
  unfold HttpSession.get valueOf
  cases session.data s.memory with
  | none => rfl
  | some d => exact Std.ExtTreeMap.getD_eq_getD_getElem?

/-- The operation sets or removes this value of this session. -/
def Event.Writes (session : HttpSession) (key : Bytes) : Event V → Prop
  | .set session' key' _ => session' = session ∧ key' = key
  | .remove session' key' => session' = session ∧ key' = key
  | _ => False

/-- An operation on the data that leaves the value of a key. -/
theorem valueOf_onData {s : HttpSessionStore V} {session session' : HttpSession} {key : Bytes}
    {f : HttpSessionData V → HttpSessionData V}
    (hf : session' = session → ∀ d, (f d).values[key]? = d.values[key]?) :
    ({ s with memory := session'.onData s.memory f } : HttpSessionStore V).valueOf session key =
      s.valueOf session key := by
  unfold valueOf
  by_cases hsame : session' = session
  · subst hsame
    rw [HttpSession.data_onData_self, Option.bind_map]
    exact Option.bind_congr fun d _ => hf rfl d
  · rw [HttpSession.data_onData_ne hsame]

/-- A value that has just been set. -/
theorem valueOf_set {s : HttpSessionStore V} {p : Nat} (hp : p < s.memory.length) (key : Bytes)
    (value : V) : (s.step (.set ⟨some p⟩ key value)).memory.length = s.memory.length ∧
      (s.step (.set ⟨some p⟩ key value)).valueOf ⟨some p⟩ key = some value := by
  refine ⟨HttpSession.onData_length s.memory ⟨some p⟩ _, ?_⟩
  have hdata : HttpSession.data s.memory ⟨some p⟩ = some s.memory[p] :=
    List.getElem?_eq_getElem hp
  simp only [valueOf, step, HttpSession.set, HttpSession.data_onData_self, hdata, Option.map_some,
    Option.bind_some]
  exact Std.ExtTreeMap.getElem?_insert_self

@[simp] theorem refresh_session (s : HttpSessionStore V) (response : HttpResponse)
    (session : HttpSession) (now : Int) : (s.refresh response session now).session = session := rfl

@[simp] theorem refresh_valueOf (s : HttpSessionStore V) (response : HttpResponse)
    (session session' : HttpSession) (now : Int) (key : Bytes) :
    (s.refresh response session now).store.valueOf session' key = s.valueOf session' key :=
  valueOf_onData fun _ _ => rfl

/-- Creating a session leaves the values of all others. -/
theorem valueOf_createSession {s : HttpSessionStore V} {p : Nat} (hp : p < s.memory.length)
    (response : HttpResponse) (now : Int) (uuid key : Bytes) :
    (s.createSession response now uuid).store.valueOf ⟨some p⟩ key = s.valueOf ⟨some p⟩ key := by
  have hdata : (s.createSession response now uuid).store.memory[p]? = s.memory[p]? := by
    rw [createSession_memory]
    exact List.getElem?_append_left hp
  simp only [valueOf, HttpSession.data, Option.bind_some, hdata]

/-- An operation that does not write a value leaves it. -/
theorem valueOf_step {s : HttpSessionStore V} {p : Nat} (hp : p < s.memory.length) {key : Bytes}
    {e : Event V} (he : ¬ e.Writes ⟨some p⟩ key) :
    (s.step e).valueOf ⟨some p⟩ key = s.valueOf ⟨some p⟩ key := by
  cases e with
  | getSession request response allowCreate now uuid =>
      rcases s.getSession_cases request response allowCreate now uuid with
        ⟨session, -, -, hs⟩ | ⟨-, hs⟩ | ⟨-, hs⟩
      · rw [step, hs]
        exact valueOf_onData fun _ _ => rfl
      · rw [step, hs]
        exact valueOf_createSession hp response now uuid key
      · rw [step, hs]
  | getSessionById id now => exact valueOf_onData fun _ _ => rfl
  | removeSession session => rfl
  | sessionTimerEvent now => rfl
  | set session key' value =>
      refine valueOf_onData fun hsame d => ?_
      have hkey : key' ≠ key := fun hk => he ⟨hsame, hk⟩
      rw [Std.ExtTreeMap.getElem?_insert, if_neg fun hc => hkey (Std.LawfulEqCmp.eq_of_compare hc)]
  | remove session key' =>
      refine valueOf_onData fun hsame d => ?_
      have hkey : key' ≠ key := fun hk => he ⟨hsame, hk⟩
      rw [Std.ExtTreeMap.getElem?_erase, if_neg fun hc => hkey (Std.LawfulEqCmp.eq_of_compare hc)]
  | get session key' => rfl

theorem memory_length_eq (s : HttpSessionStore V) : s.generated.length = s.memory.length :=
  List.length_map ..

/-- A value stays until it is written. -/
theorem valueOf_run {s : HttpSessionStore V} {p : Nat} (hp : p < s.memory.length) {key : Bytes}
    {events : List (Event V)} (he : ∀ e ∈ events, ¬ e.Writes ⟨some p⟩ key) :
    (run step s events).valueOf ⟨some p⟩ key = s.valueOf ⟨some p⟩ key := by
  induction events generalizing s with
  | nil => rfl
  | cons e events ih =>
      have hgrow := (s.generated_run [e]).length_le
      rw [memory_length_eq, memory_length_eq] at hgrow
      have hlt : p < (s.step e).memory.length := Nat.lt_of_lt_of_le hp hgrow
      have hrest : ∀ e' ∈ events, ¬ e'.Writes ⟨some p⟩ key := fun e' he' =>
        he e' (List.mem_cons_of_mem e he')
      rw [Run.run_cons, ih hlt hrest]
      exact valueOf_step hp (he e List.mem_cons_self)

/-- Writing through one session leaves alone what is read through another. -/
theorem get_of_writes [Inhabited V] {s : HttpSessionStore V} {session session' : HttpSession}
    (hne : session ≠ session') {e : Event V} {key : Bytes} (hwrites : e.Writes session key)
    (key' : Bytes) : session'.get (s.step e).memory key' = session'.get s.memory key' := by
  cases e with
  | set session key value =>
      obtain ⟨rfl, rfl⟩ := hwrites
      simp only [step, HttpSession.set, HttpSession.get, HttpSession.data_onData_ne hne]
  | remove session key =>
      obtain ⟨rfl, rfl⟩ := hwrites
      simp only [step, HttpSession.remove, HttpSession.get, HttpSession.data_onData_ne hne]
  | _ => exact hwrites.elim

/-- Different keys have different sessions. -/
theorem Inv.sessions_ne {s : HttpSessionStore V} (h : Inv s) {key key' : Bytes}
    {session session' : HttpSession} (hne : key ≠ key') (hkey : s.sessions[key]? = some session)
    (hkey' : s.sessions[key']? = some session') : session ≠ session' := by
  rintro rfl
  obtain ⟨p, rfl, hid⟩ := h.owned key session hkey
  obtain ⟨p', hsame, hid'⟩ := h.owned key' _ hkey'
  cases hsame
  exact hne (Option.some.inj (hid.symm.trans hid'))

/-! ### The laws

Each law is proved where its facts are at hand, and `sessionLaws` collects them for any state that a
run reaches. -/

/-- What holds of a store that is in use, given the ids `QUuid::createUuid` has returned. -/
structure Lawful [Inhabited V] (uuids : List Bytes) (s : HttpSessionStore V) : Prop where
  /-- Every key is the id of its session, which the store has generated. -/
  owned : ∀ (key : Bytes) (session : HttpSession), s.sessions[key]? = some session →
    session.isNull = false ∧ session.getId s.memory = key ∧ key ∈ uuids
  /-- Who asks for a session gets one that is in the store under its own id, with this id in the
  cookie of the response; and gets it again as long as it is there. -/
  obtained : ∀ (request : RequestView) (response : HttpResponse) (now : Int) (uuid : Bytes),
    s.Fresh uuid →
    let r := s.getSession request response true now uuid
    let id := r.session.getId r.store.memory
    r.session.isNull = false ∧ r.store.sessions[id]? = some r.session ∧
      id ∈ uuids ++ [uuid] ∧
      r.response.cookies[s.settings.cookieName]?.map HttpCookie.value = some id ∧
      ∀ events : List (Event V), Run.Along step Proper r.store events →
        let s' := run step r.store events
        (∃ session, s'.sessions[id]? = some session) →
        ∀ (allowCreate : Bool) (now' : Int) (uuid' : Bytes),
          let r' := s'.getSession request r.response allowCreate now' uuid'
          r'.session = r.session ∧ r'.store.generated = s'.generated
  /-- The timer removes exactly the sessions that were not used for too long. -/
  expired : ∀ (now : Int) (key : Bytes), (s.sessionTimerEvent now).sessions[key]? =
    s.sessions[key]?.filter fun session =>
      !(now - session.getLastAccess s.memory > s.settings.expirationTime : Bool)
  /-- A value that is set through the session of a request is read through the session of any
  later request with its id, as long as it is not written again. -/
  continued : ∀ (request : RequestView) (response : HttpResponse) (allowCreate : Bool)
    (now : Int) (uuid : Bytes), s.Fresh uuid →
    let r := s.getSession request response allowCreate now uuid
    r.session.isNull = false → ∀ (key : Bytes) (value : V) (events : List (Event V)),
      Run.Along step Proper r.store (.set r.session key value :: events) →
      (∀ e ∈ events, ¬ e.Writes r.session key) →
      let s' := run step r.store (.set r.session key value :: events)
      ∀ (request' : RequestView) (response' : HttpResponse) (allowCreate' : Bool) (now' : Int)
        (uuid' : Bytes),
        s'.getSessionId request' response' = r.session.getId r.store.memory →
        let r' := s'.getSession request' response' allowCreate' now' uuid'
        r'.session.get r'.store.memory key = value
  /-- Writing through one session changes nothing that is read through another. -/
  isolated : ∀ (k k' : Bytes) (session session' : HttpSession), k ≠ k' →
    s.sessions[k]? = some session → s.sessions[k']? = some session' →
    ∀ (e : Event V) (key : Bytes), e.Writes session key →
      ∀ key' : Bytes, session'.get (s.step e).memory key' = session'.get s.memory key'

/-- What `getSession` has done when the session it returns is not null. -/
structure Holds (s : HttpSessionStore V) (response : HttpResponse) (uuid : Bytes)
    (r : Obtained V) (p : Nat) (id : Bytes) : Prop where
  session : r.session = ⟨some p⟩
  inv : Inv r.store
  settings : r.store.settings = s.settings
  generated : r.store.generated[p]? = some id
  stored : r.store.sessions[id]? = some ⟨some p⟩
  known : id ∈ s.generated ++ [uuid]
  response_eq : r.response = response.setCookie (s.sessionCookie id)

/-- A session that is returned is stored, under its id, and has been put into the response. -/
theorem getSession_holds {s : HttpSessionStore V} (h : Inv s) (request : RequestView)
    (response : HttpResponse) (allowCreate : Bool) (now : Int) {uuid : Bytes}
    (hfresh : s.Fresh uuid)
    (hnull : (s.getSession request response allowCreate now uuid).session.isNull = false) :
    ∃ p id, Holds s response uuid (s.getSession request response allowCreate now uuid) p id := by
  rcases s.getSession_cases request response allowCreate now uuid with
    ⟨session, hstored, -, hs⟩ | ⟨-, hs⟩ | ⟨-, hs⟩
  · -- the session was there
    obtain ⟨p, rfl, hid⟩ := h.owned _ session hstored
    have hshrinks := s.refresh_shrinks response ⟨some p⟩ now
    refine ⟨p, s.getSessionId request response, ?_⟩
    rw [hs]
    refine ⟨rfl, h.shrinks hshrinks, rfl, ?_, hstored,
      List.mem_append_left _ (List.mem_of_getElem? hid), ?_⟩
    · rw [hshrinks.generated]
      exact hid
    · rw [← getId_of_generated hid]
      rfl
  · -- it has been created
    refine ⟨s.memory.length, uuid, ?_⟩
    rw [hs]
    refine ⟨rfl, h.createSession response now hfresh, rfl, s.createSession_last response now uuid,
      ?_, List.mem_append_right _ (List.mem_singleton_self uuid),
      s.createSession_response response now uuid⟩
    rw [createSession_sessions]
    exact Std.ExtTreeMap.getElem?_insert_self
  · rw [hs] at hnull
    cases hnull

/-- A session that may be created is not null. -/
theorem getSession_not_null (s : HttpSessionStore V) (request : RequestView)
    (response : HttpResponse) (now : Int) (uuid : Bytes) :
    (s.getSession request response true now uuid).session.isNull = false := by
  rcases s.getSession_cases request response true now uuid with
    ⟨session, -, hnull, hs⟩ | ⟨-, hs⟩ | ⟨hfalse, -⟩
  · rw [hs]
    exact hnull
  · rw [hs]
    rfl
  · cases hfalse

/-- The id in the cookie that was set. -/
theorem cookies_sessionCookie {s : HttpSessionStore V} (hname : s.settings.cookieName ≠ [])
    (response : HttpResponse) (id : Bytes) :
    (response.setCookie (s.sessionCookie id)).cookies[s.settings.cookieName]? =
      some (s.sessionCookie id) := by
  have hcookie : (s.sessionCookie id).name = s.settings.cookieName := rfl
  rw [HttpResponse.setCookie, hcookie, if_neg hname]
  exact Std.ExtTreeMap.getElem?_insert_self

/-- An id that is presented is reported when there is such a session. -/
theorem getSessionId_of_presented {s : HttpSessionStore V} {request : RequestView}
    {response : HttpResponse} {id : Bytes} (hpresented : s.presentedId request response = id)
    {session : HttpSession} (hstored : s.sessions[id]? = some session) :
    s.getSessionId request response = id := by
  have hcontains : s.sessions.contains id = true := by
    rw [Std.ExtTreeMap.contains_eq_isSome_getElem?, hstored]
    rfl
  rw [getSessionId, hpresented]
  exact if_neg fun hc => Bool.false_ne_true (hc.2.symm.trans hcontains)

/-- The response leads to the session whose cookie was set, as long as it is in the store. -/
theorem getSessionId_of_cookie {s s' : HttpSessionStore V} (h : Inv s)
    (hsettings : s'.settings = s.settings) (response : HttpResponse) {id : Bytes} (hne : id ≠ [])
    {session : HttpSession} (hstored : s'.sessions[id]? = some session) (request : RequestView) :
    s'.getSessionId request (response.setCookie (s.sessionCookie id)) = id := by
  have hresponse : s'.responseId (response.setCookie (s.sessionCookie id)) = id := by
    rw [responseId, hsettings, cookies_sessionCookie h.named]
    rfl
  refine getSessionId_of_presented ?_ hstored
  rw [presentedId, hresponse]
  exact if_neg hne

theorem settings_run (s : HttpSessionStore V) (events : List (Event V)) :
    (run step s events).settings = s.settings := by
  refine Run.inv_run (I := fun t : HttpSessionStore V => t.settings = s.settings) ?_ rfl events
  intro s' e hs'
  rcases s'.step_cases e with hs | ⟨request, response, now, uuid, -, hs⟩
  · exact hs.settings.trans hs'
  · rw [hs]
    exact hs'

/-- A session that was obtained is obtained again. -/
theorem Holds.again {s : HttpSessionStore V} {response : HttpResponse} {uuid : Bytes}
    {r : Obtained V} {p : Nat} {id : Bytes} (hr : Holds s response uuid r p id)
    {events : List (Event V)} (hrun : Run.Along step Proper r.store events)
    {request : RequestView} {response' : HttpResponse}
    (hid : (run step r.store events).getSessionId request response' = id)
    (allowCreate : Bool) (now : Int) (uuid' : Bytes) :
    (run step r.store events).getSession request response' allowCreate now uuid' =
      (run step r.store events).refresh response' ⟨some p⟩ now := by
  have hinv := Run.Along.inv inv_step hr.inv hrun
  have hne := hr.inv.ne_nil hr.generated
  obtain ⟨session, hstored⟩ := contains_of_getSessionId hid hne
  have hsame := stored_unique hinv (r.store.generated_run events) hr.generated hstored
  rw [getSession_of_stored hinv.toIds hid hne hstored, hsame]

end HttpSessionStore

end QtWebApp
