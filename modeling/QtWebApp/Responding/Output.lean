import QtWebApp.HttpServer.HttpConnectionHandler

/-!
# QtWebApp.Responding.Output

What answering a request does to the socket, and what it does not.

A response only writes and flushes. So whatever survives a write and a flush survives the
whole call of a request handler (`call_socket`, `respond_socket`); in particular the state
of the socket, its read buffer and its signal connections stay as they are.

The lemmas come in two kinds: a property of the socket that a write and a flush keep
(`call_socket`), and a change of the socket that makes no difference to a write and a flush
(`Inert`). Each of them goes through the functions of a response from the inside to the outside.
-/

namespace QtWebApp

open Bytes

/-- The headers that decide about the end of a response and of the connection. -/
def framingNames : List Bytes :=
  [ascii "connection", ascii "content-length", ascii "transfer-encoding"]

namespace TcpSocket

/-- Only what concerns the output may differ. -/
structure OutputOnly (s s' : TcpSocket) : Prop where
  state : s'.state = s.state
  isOpen : s'.isOpen = s.isOpen
  readBuffer : s'.readBuffer = s.readBuffer
  encrypted : s'.encrypted = s.encrypted
  connections : s'.connections = s.connections

theorem OutputOnly.refl (s : TcpSocket) : OutputOnly s s := ⟨rfl, rfl, rfl, rfl, rfl⟩

theorem write_outputOnly {n : Network} {s₀ s : TcpSocket} (data : Bytes) (h : OutputOnly s₀ s) :
    OutputOnly s₀ (s.write n data).2 := by
  unfold write
  split <;> exact ⟨h.state, h.isOpen, h.readBuffer, h.encrypted, h.connections⟩

theorem flush_outputOnly {net : Network} {s₀ s : TcpSocket} (h : OutputOnly s₀ s) :
    OutputOnly s₀ (s.flush net) :=
  ⟨h.state, h.isOpen, h.readBuffer, h.encrypted, h.connections⟩

end TcpSocket

namespace HttpResponse

/-! ### The fields of a response that writing leaves alone

Writing goes to the socket, and the headers stay as they are. -/

theorem writeData_fields (net : Network) (r : HttpResponse) (data : Bytes) :
    (r.writeData net data).headers = r.headers ∧
      (r.writeData net data).sentHeaders = r.sentHeaders ∧
        (r.writeData net data).sentLastPart = r.sentLastPart := by
  unfold writeData
  split
  · exact ⟨rfl, rfl, rfl⟩
  · split <;> exact ⟨rfl, rfl, rfl⟩

theorem finish_fields (net : Network) (r : HttpResponse) :
    (r.finish net).headers = r.headers ∧ (r.finish net).sentHeaders = r.sentHeaders := by
  unfold finish
  dsimp only
  split <;> exact ⟨rfl, rfl⟩

/-! ### What a response may do to its socket

`P` is any property of the socket. A call of the request handler keeps it because it writes, flushes
and does nothing else. -/

section Socket

variable {net : Network} {P : TcpSocket → Prop}
  (hwrite : ∀ s data, P s → P (s.write net data).2) (hflush : ∀ s, P s → P (s.flush net))

include hwrite in
/-- The loop that writes a block. -/
theorem writeLoop_socket (n : Nat) (data : Bytes) {s : TcpSocket} (h : P s) :
    P (writeLoop net n data s).2 := by
  induction n generalizing data s with
  | zero => exact h
  | succ n ih =>
      have hone := hwrite s data h
      unfold writeLoop
      split
      · split
        · next heq =>
            rw [heq] at hone
            exact hone
        · next heq =>
            rw [heq] at hone
            exact ih _ hone
      · exact h

include hwrite in
theorem writeToSocket_socket {r : HttpResponse} (data : Bytes) (h : P r.socket) :
    P (r.writeToSocket net data).socket :=
  writeLoop_socket hwrite _ _ h

include hwrite in
theorem writeData_socket {r : HttpResponse} (data : Bytes) (h : P r.socket) :
    P (r.writeData net data).socket := by
  unfold writeData
  split
  · exact h
  · split
    · exact writeToSocket_socket hwrite _ (writeToSocket_socket hwrite _
        (writeToSocket_socket hwrite _ (writeToSocket_socket hwrite _ h)))
    · exact writeToSocket_socket hwrite _ h

include hwrite hflush in
theorem finish_socket {r : HttpResponse} (h : P r.socket) : P (r.finish net).socket := by
  unfold finish
  dsimp only
  split
  · exact hflush _ (writeToSocket_socket hwrite _ h)
  · exact hflush _ h

theorem chooseFraming_socket (r : HttpResponse) (data : Bytes) (lastPart : Bool) :
    (r.chooseFraming data lastPart).socket = r.socket := by
  unfold chooseFraming
  split
  · rfl
  · split <;> rfl

include hwrite hflush in
/-- A part is written. -/
theorem write_socket {r : HttpResponse} (data : Bytes) (lastPart : Bool) (h : P r.socket) :
    P (r.write net data lastPart).socket := by
  have hheaders : P (if r.sentHeaders then r
      else (r.chooseFraming data lastPart).writeHeaders net).socket := by
    split
    · exact h
    · refine writeToSocket_socket hwrite _ ?_
      rwa [chooseFraming_socket]
  have hdata := writeData_socket hwrite data hheaders
  unfold write
  dsimp only
  split
  · exact finish_socket hwrite hflush hdata
  · exact hdata

include hwrite hflush in
/-- One call of a request handler. -/
theorem call_socket {r : HttpResponse} (c : ResponseCall) (h : P r.socket) :
    P (r.call net c).socket := by
  cases c with
  | setHeader name value => exact h
  | setStatus statusCode description => exact h
  | setCookie cookie =>
      show P (r.setCookie cookie).socket
      unfold setCookie
      split <;> exact h
  | write data lastPart => exact write_socket hwrite hflush data lastPart h
  | redirect url =>
      have h' : P ((r.setStatus 303 (ascii "See Other")).setHeader (ascii "Location") url).socket :=
        h
      simp only [call, redirect]
      exact write_socket hwrite hflush _ _ h'
  | flush => exact hflush _ h

include hwrite hflush in
/-- All calls of a request handler. -/
theorem calls_socket (cs : List ResponseCall) {r : HttpResponse} (h : P r.socket) :
    P (cs.foldl (call net) r).socket := by
  induction cs generalizing r with
  | nil => exact h
  | cons c cs ih => exact ih (call_socket hwrite hflush c h)

end Socket

end HttpResponse

namespace HttpConnectionHandler

theorem newResponse_socket (h : HttpConnectionHandler) (request : HttpRequest) :
    (h.newResponse request).socket = h.socket := by
  unfold newResponse
  dsimp only
  split <;> rfl

/-- What survives a write and a flush survives the answer to a request. -/
theorem respond_socket {server : Server} {P : TcpSocket → Prop}
    (hwrite : ∀ s data, P s → P (s.write server.network data).2)
    (hflush : ∀ s, P s → P (s.flush server.network)) {h : HttpConnectionHandler}
    (request : HttpRequest) (hs : P h.socket) : P (h.respond server request).socket := by
  have hcalls := HttpResponse.calls_socket hwrite hflush (server.service h.served request.view)
    (r := h.newResponse request) (by rwa [newResponse_socket])
  unfold respond
  dsimp only
  split
  · exact hcalls
  · exact HttpResponse.write_socket hwrite hflush _ _ hcalls

/-- Answering a request leaves the state, the input and the connections of the socket alone. -/
theorem respond_outputOnly (server : Server) (h : HttpConnectionHandler) (request : HttpRequest) :
    TcpSocket.OutputOnly h.socket (h.respond server request).socket :=
  respond_socket (P := TcpSocket.OutputOnly h.socket)
    (fun _ data hs => TcpSocket.write_outputOnly data hs)
    (fun _ hs => TcpSocket.flush_outputOnly hs) request (.refl _)

/-- So does a rejection. -/
theorem rejection_outputOnly (server : Server) (s : TcpSocket) :
    TcpSocket.OutputOnly s (((s.write server.network rejection).2).flush server.network) :=
  TcpSocket.flush_outputOnly (TcpSocket.write_outputOnly rejection (.refl s))

/-- The handler after a turn of `readHttp`. -/
def turned : Turn HttpConnectionHandler → HttpConnectionHandler
  | .leave h => h
  | .again h => h

/-- The handler once the answer to a request has been sent. -/
def answered (server : Server) (h : HttpConnectionHandler) (r : HttpRequest) :
    HttpConnectionHandler :=
  { h with
      readTimer := false
      socket := (h.respond server r).socket
      log := h.log ++ [Entry.service r.view] }

/-- The rest of a turn, after the answer. -/
theorem serve_eq (server : Server) (h : HttpConnectionHandler) (r : HttpRequest) :
    h.serve server r =
      { (if closeConnection r (h.respond server r) then
          ((h.answered server r).onSocket (TcpSocket.flush server.network)).disconnectFromHost
        else { h.answered server r with readTimer := true }) with currentRequest := none } := rfl

/-- A server that answers every request with the same text. -/
def plainServer (settings : Settings) : Server where
  settings := settings
  ssl := false
  network := ⟨fun _ => some 0, fun _ => true⟩
  service := fun _ _ => [.write (ascii "ok") true]
  upgradeFrom := fun b => ⟨false, [], b⟩

end HttpConnectionHandler

/-! ### What is of no importance to an answer

What waits in the socket, and the slots that are connected to it. -/

/-- A change of the socket that its output does not depend on, and that output leaves alone. -/
structure TcpSocket.Inert (u : TcpSocket → TcpSocket) : Prop where
  write : ∀ net s data, (u s).write net data = ((s.write net data).1, u (s.write net data).2)
  flush : ∀ net s, (u s).flush net = u (s.flush net)
  isOpen : ∀ s, (u s).isOpen = s.isOpen

/-- The same socket with other bytes waiting in it. -/
def TcpSocket.setInput (b : Bytes) (s : TcpSocket) : TcpSocket := { s with readBuffer := b }

/-- The same socket with other slots connected to it. -/
def TcpSocket.setConnections (cs : List (Signal × Slot)) (s : TcpSocket) : TcpSocket :=
  { s with connections := cs }

theorem TcpSocket.Inert.write_flush {u : TcpSocket → TcpSocket} (hu : Inert u) (net : Network)
    (s : TcpSocket) (data : Bytes) :
    (((u s).write net data).2).flush net = u (((s.write net data).2).flush net) := by
  rw [hu.write, hu.flush]

theorem TcpSocket.inert_setInput (b : Bytes) : Inert (setInput b) where
  write := by
    intro net s data
    have hwrites : (s.setInput b).writes = s.writes := rfl
    rw [TcpSocket.write, TcpSocket.write, hwrites]
    cases net.accept s.writes <;> rfl
  flush := fun _ _ => rfl
  isOpen := fun _ => rfl

theorem TcpSocket.inert_setConnections (cs : List (Signal × Slot)) : Inert (setConnections cs) where
  write := by
    intro net s data
    have hwrites : (s.setConnections cs).writes = s.writes := rfl
    rw [TcpSocket.write, TcpSocket.write, hwrites]
    cases net.accept s.writes <;> rfl
  flush := fun _ _ => rfl
  isOpen := fun _ => rfl

namespace HttpResponse

/-- The same response on a changed socket. -/
def onSocket (u : TcpSocket → TcpSocket) (r : HttpResponse) : HttpResponse :=
  { r with socket := u r.socket }

section Inert

variable {net : Network} {u : TcpSocket → TcpSocket} (hu : TcpSocket.Inert u)

include hu

theorem writeLoop_inert (n : Nat) (data : Bytes) (s : TcpSocket) :
    writeLoop net n data (u s) = ((writeLoop net n data s).1, u (writeLoop net n data s).2) := by
  induction n generalizing data s with
  | zero => rfl
  | succ n ih =>
      unfold writeLoop
      rw [hu.write, hu.isOpen]
      by_cases hopen : s.isOpen = true ∧ data ≠ []
      · rw [if_pos hopen, if_pos hopen]
        cases hw : s.write net data with
        | mk written s' =>
            cases written with
            | none => rfl
            | some k => exact ih _ _
      · rw [if_neg hopen, if_neg hopen]

theorem writeToSocket_inert (r : HttpResponse) (data : Bytes) :
    (r.onSocket u).writeToSocket net data = (r.writeToSocket net data).onSocket u := by
  unfold writeToSocket onSocket
  simp only [writeLoop_inert hu]

omit hu in
theorem chooseFraming_inert (r : HttpResponse) (data : Bytes) (lastPart : Bool) :
    (r.onSocket u).chooseFraming data lastPart = (r.chooseFraming data lastPart).onSocket u := by
  have hvalue : (r.onSocket u).connectionValue = r.connectionValue := rfl
  unfold chooseFraming
  rw [hvalue]
  split
  · rfl
  · split <;> rfl

theorem writeHeaders_inert (r : HttpResponse) :
    (r.onSocket u).writeHeaders net = (r.writeHeaders net).onSocket u := by
  have hblock : (r.onSocket u).headerBlock = r.headerBlock := rfl
  unfold writeHeaders
  rw [hblock, writeToSocket_inert hu]
  rfl

theorem writeData_inert (r : HttpResponse) (data : Bytes) :
    (r.onSocket u).writeData net data = (r.writeData net data).onSocket u := by
  have hmode : (r.onSocket u).chunkedMode = r.chunkedMode := rfl
  unfold writeData
  simp only [hmode, writeToSocket_inert hu]
  split
  · rfl
  · split <;> rfl

theorem finish_inert (r : HttpResponse) :
    (r.onSocket u).finish net = (r.finish net).onSocket u := by
  have hmode : (r.onSocket u).chunkedMode = r.chunkedMode := rfl
  unfold finish
  simp only [hmode, writeToSocket_inert hu]
  split <;> simp only [onSocket, hu.flush]

/-- A part is written to the changed socket. -/
theorem write_inert (r : HttpResponse) (data : Bytes) (lastPart : Bool) :
    (r.onSocket u).write net data lastPart = (r.write net data lastPart).onSocket u := by
  have hsent : (r.onSocket u).sentHeaders = r.sentHeaders := rfl
  have hheaders : (if (r.onSocket u).sentHeaders then r.onSocket u
      else ((r.onSocket u).chooseFraming data lastPart).writeHeaders net) =
      (if r.sentHeaders then r
        else (r.chooseFraming data lastPart).writeHeaders net).onSocket u := by
    rw [hsent]
    split
    · rfl
    · rw [chooseFraming_inert, writeHeaders_inert hu]
  unfold write
  simp only [hheaders, writeData_inert hu, finish_inert hu]
  split <;> rfl

/-- One call of a request handler. -/
theorem call_inert (r : HttpResponse) (c : ResponseCall) :
    (r.onSocket u).call net c = (r.call net c).onSocket u := by
  cases c with
  | setHeader name value => rfl
  | setStatus statusCode description => rfl
  | setCookie cookie =>
      simp only [call, setCookie]
      split <;> rfl
  | write data lastPart => exact write_inert hu r data lastPart
  | redirect url =>
      have hlocation : ((r.onSocket u).setStatus 303 (ascii "See Other")).setHeader
          (ascii "Location") url =
          ((r.setStatus 303 (ascii "See Other")).setHeader (ascii "Location") url).onSocket u := rfl
      simp only [call, redirect, hlocation, write_inert hu]
  | flush => simp only [call, onSocket, hu.flush]

/-- All calls of a request handler. -/
theorem calls_inert (cs : List ResponseCall) (r : HttpResponse) :
    cs.foldl (call net) (r.onSocket u) = (cs.foldl (call net) r).onSocket u := by
  induction cs generalizing r with
  | nil => rfl
  | cons c cs ih => rw [List.foldl_cons, List.foldl_cons, call_inert hu, ih]

end Inert

end HttpResponse

namespace HttpConnectionHandler

/-- The answer to a request does not depend on an inert change of the socket. -/
theorem respond_inert {u : TcpSocket → TcpSocket} (hu : TcpSocket.Inert u) (server : Server)
    (h : HttpConnectionHandler) (request : HttpRequest) :
    (h.onSocket u).respond server request = (h.respond server request).onSocket u := by
  have hnew : (h.onSocket u).newResponse request = (h.newResponse request).onSocket u := by
    unfold newResponse
    dsimp only
    split <;> rfl
  have hserved : (h.onSocket u).served = h.served := rfl
  unfold respond
  rw [hnew, hserved, HttpResponse.calls_inert hu]
  dsimp only
  show (if ((server.service h.served request.view).foldl (HttpResponse.call server.network)
    (h.newResponse request)).sentLastPart = true then _ else _) = _
  split
  · rfl
  · rw [HttpResponse.write_inert hu]

end HttpConnectionHandler

end QtWebApp
