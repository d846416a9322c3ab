import QtWebApp.HttpServer.HttpRequest
import QtWebApp.HttpServer.HttpResponse
import QtWebApp.HttpServer.HttpSession

/-!
# QtWebApp.HttpServer.HttpSessionStore

The store that hands a client its session.

The session is found by the id in a cookie: the one of the response first, since that is what
the client will send the next time, else the one of the request. The clock and what
`QUuid::createUuid` returns are arguments of the operations.
-/

namespace QtWebApp

/-- The settings of the store. -/
structure SessionSettings where
  cookieName : Bytes
  cookiePath : Bytes
  cookieComment : Bytes
  cookieDomain : Bytes
  expirationTime : Int

/-- `HttpSessionStore`, with the memory its sessions and their copies point to. -/
structure HttpSessionStore (V : Type) where
  settings : SessionSettings
  sessions : QMap HttpSession
  memory : SessionMemory V

namespace HttpSessionStore

variable {V : Type}

/-- The constructor. -/
def new (settings : SessionSettings) : HttpSessionStore V where
  settings := settings
  sessions := ∅
  memory := []

/-- The id in the session cookie of the response, empty when there is none. -/
def responseId (s : HttpSessionStore V) (response : HttpResponse) : Bytes :=
  match response.cookies[s.settings.cookieName]? with
  | some cookie => cookie.value
  | none => []

/-- The id that a request and its response present. -/
def presentedId (s : HttpSessionStore V) (request : RequestView)
    (response : HttpResponse) : Bytes :=
  let sessionId := s.responseId response
  if sessionId = [] then request.cookies.getD s.settings.cookieName [] else sessionId

/-- `HttpSessionStore::getSessionId`: the id, when there is such a session in the store. -/
def getSessionId (s : HttpSessionStore V) (request : RequestView) (response : HttpResponse) :
    Bytes :=
  let sessionId := s.presentedId request response
  if sessionId ≠ [] ∧ s.sessions.contains sessionId = false then [] else sessionId

/-- The cookie with the id of a session. -/
def sessionCookie (s : HttpSessionStore V) (id : Bytes) : HttpCookie :=
  .new s.settings.cookieName id (s.settings.expirationTime.tdiv 1000) s.settings.cookiePath
    s.settings.cookieComment s.settings.cookieDomain false false

/-- The stored session of an id, null when there is none. -/
def value (s : HttpSessionStore V) (id : Bytes) : HttpSession := s.sessions.getD id .null

/-- What `getSession` returns, and what it leaves behind. -/
structure Obtained (V : Type) where
  session : HttpSession
  response : HttpResponse
  store : HttpSessionStore V

/-- The session is there: refresh the cookie and the time of the last access. -/
def refresh (s : HttpSessionStore V) (response : HttpResponse) (session : HttpSession)
    (now : Int) : Obtained V where
  session := session
  response := response.setCookie (s.sessionCookie (session.getId s.memory))
  store := { s with memory := session.setLastAccess s.memory now }

/-- Create a new session and store it. -/
def createSession (s : HttpSessionStore V) (response : HttpResponse) (now : Int) (uuid : Bytes) :
    Obtained V :=
  let (session, memory) := HttpSession.create s.memory now uuid
  let id := session.getId memory
  { session := session
    response := response.setCookie (s.sessionCookie id)
    store := { s with sessions := s.sessions.insert id session, memory := memory } }

/-- `HttpSessionStore::getSession` of a request and its response. -/
def getSession (s : HttpSessionStore V) (request : RequestView) (response : HttpResponse)
    (allowCreate : Bool) (now : Int) (uuid : Bytes) : Obtained V :=
  let sessionId := s.getSessionId request response
  let session := s.value sessionId
  if sessionId ≠ [] ∧ session.isNull = false then s.refresh response session now
  else if allowCreate then s.createSession response now uuid
  else ⟨.null, response, s⟩

/-- `HttpSessionStore::getSession` of an id. -/
def getSessionById (s : HttpSessionStore V) (id : Bytes) (now : Int) :
    HttpSession × HttpSessionStore V :=
  let session := s.value id
  (session, { s with memory := session.setLastAccess s.memory now })

/-- A session is too old. -/
def isExpired (s : HttpSessionStore V) (now : Int) (session : HttpSession) : Bool :=
  now - session.getLastAccess s.memory > s.settings.expirationTime

/-- One turn of the loop over the sessions: an expired one is erased. -/
def eraseExpired (s : HttpSessionStore V) (now : Int) (sessions : QMap HttpSession)
    (e : Bytes × HttpSession) : QMap HttpSession :=
  if s.isExpired now e.2 then sessions.erase e.1 else sessions

/-- `HttpSessionStore::sessionTimerEvent`. -/
def sessionTimerEvent (s : HttpSessionStore V) (now : Int) : HttpSessionStore V :=
  { s with sessions := s.sessions.toList.foldl (s.eraseExpired now) s.sessions }

/-- `HttpSessionStore::removeSession`. -/
def removeSession (s : HttpSessionStore V) (session : HttpSession) : HttpSessionStore V :=
  { s with sessions := s.sessions.erase (session.getId s.memory) }

end HttpSessionStore

end QtWebApp
