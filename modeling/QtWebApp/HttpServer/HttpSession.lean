import QtWebApp.Base.Containers

/-!
# QtWebApp.HttpServer.HttpSession

The sessions of the clients.

An `HttpSession` is a handle: a pointer to data that all its copies share, or null. The data
blocks lie in a memory, in the order in which they were allocated; a pointer is a position
there. The values of a session are `QVariant`s, whatever these are, with the invalid one as
their default.
-/

namespace QtWebApp

/-- `HttpSession::HttpSessionData`, without its lock and the count of the handles. -/
structure HttpSessionData (V : Type) where
  id : Bytes
  lastAccess : Int
  values : QMap V

/-- The data blocks that have been allocated. -/
abbrev SessionMemory (V : Type) := List (HttpSessionData V)

/-- `HttpSession`. -/
structure HttpSession where
  dataPtr : Option Nat
  deriving DecidableEq, Repr

namespace HttpSession

variable {V : Type}

/-- `HttpSession(false)`, a null session. -/
def null : HttpSession := ⟨none⟩

/-- `HttpSession(true)`, with the time and what `QUuid::createUuid` returns. -/
def create (memory : SessionMemory V) (now : Int) (uuid : Bytes) : HttpSession × SessionMemory V :=
  (⟨some memory.length⟩, memory ++ [{ id := uuid, lastAccess := now, values := ∅ }])

/-- `HttpSession::isNull`. -/
def isNull (s : HttpSession) : Bool := s.dataPtr.isNone

/-- The data a handle points to. -/
def data (memory : SessionMemory V) (s : HttpSession) : Option (HttpSessionData V) :=
  s.dataPtr.bind fun p => memory[p]?

/-- Change the data a handle points to. -/
def onData (memory : SessionMemory V) (s : HttpSession)
    (f : HttpSessionData V → HttpSessionData V) : SessionMemory V :=
  match s.dataPtr with
  | some p => memory.modify p f
  | none => memory

/-- `HttpSession::getId`. -/
def getId (memory : SessionMemory V) (s : HttpSession) : Bytes :=
  match s.data memory with
  | some d => d.id
  | none => []

/-- `HttpSession::set`. -/
def set (memory : SessionMemory V) (s : HttpSession) (key : Bytes) (value : V) : SessionMemory V :=
  s.onData memory fun d => { d with values := d.values.insert key value }

/-- `HttpSession::remove`. -/
def remove (memory : SessionMemory V) (s : HttpSession) (key : Bytes) : SessionMemory V :=
  s.onData memory fun d => { d with values := d.values.erase key }

/-- `HttpSession::get`. -/
def get [Inhabited V] (memory : SessionMemory V) (s : HttpSession) (key : Bytes) : V :=
  match s.data memory with
  | some d => d.values.getD key default
  | none => default

/-- `HttpSession::contains`. -/
def contains (memory : SessionMemory V) (s : HttpSession) (key : Bytes) : Bool :=
  match s.data memory with
  | some d => d.values.contains key
  | none => false

/-- `HttpSession::getAll`. -/
def getAll (memory : SessionMemory V) (s : HttpSession) : QMap V :=
  match s.data memory with
  | some d => d.values
  | none => ∅

/-- `HttpSession::getLastAccess`. -/
def getLastAccess (memory : SessionMemory V) (s : HttpSession) : Int :=
  match s.data memory with
  | some d => d.lastAccess
  | none => 0

/-- `HttpSession::setLastAccess`. -/
def setLastAccess (memory : SessionMemory V) (s : HttpSession) (now : Int) : SessionMemory V :=
  s.onData memory fun d => { d with lastAccess := now }

/-! ### What an operation changes

The ids of the blocks and the number of them stay, and so does the data of every other handle. -/

theorem onData_length (memory : SessionMemory V) (s : HttpSession)
    (f : HttpSessionData V → HttpSessionData V) : (s.onData memory f).length = memory.length := by
  unfold onData
  cases s.dataPtr with
  | some p => exact List.length_modify ..
  | none => rfl

/-- The ids stay when an operation keeps them. -/
theorem onData_ids {memory : SessionMemory V} {s : HttpSession}
    {f : HttpSessionData V → HttpSessionData V} (hf : ∀ d, (f d).id = d.id) :
    (s.onData memory f).map HttpSessionData.id = memory.map HttpSessionData.id := by
  unfold onData
  cases s.dataPtr with
  | none => rfl
  | some p =>
      refine List.ext_getElem? fun i => ?_
      rw [List.getElem?_map, List.getElem?_map]
      by_cases hi : p = i
      · subst hi
        cases hget : memory[p]? with
        | none => simp [hget]
        | some d => simp [hget, hf]
      · rw [List.getElem?_modify_ne _ _ hi]

/-- What the handle's own data become. -/
theorem data_onData_self {memory : SessionMemory V} {s : HttpSession}
    {f : HttpSessionData V → HttpSessionData V} :
    s.data (s.onData memory f) = (s.data memory).map f := by
  unfold data onData
  cases s.dataPtr with
  | none => rfl
  | some p => exact List.getElem?_modify_eq ..

/-- The data of any other handle stay. -/
theorem data_onData_ne {memory : SessionMemory V} {s t : HttpSession}
    {f : HttpSessionData V → HttpSessionData V} (h : s ≠ t) :
    t.data (s.onData memory f) = t.data memory := by
  unfold data onData
  cases hs : s.dataPtr with
  | none => rfl
  | some p =>
      cases ht : t.dataPtr with
      | none => rfl
      | some q =>
          have hne : p ≠ q := by
            intro heq
            have hst : s.dataPtr = t.dataPtr := by rw [hs, ht, heq]
            cases s
            cases t
            exact h (congrArg HttpSession.mk hst)
          exact List.getElem?_modify_ne _ _ hne

end HttpSession

end QtWebApp
