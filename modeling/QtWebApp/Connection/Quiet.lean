import QtWebApp.Connection.Coherent
import QtWebApp.Connection.Observed

/-!
# QtWebApp.Connection.Quiet

When nothing is parsed after the end of a connection.

Closing a socket is not the end of the loop in `readHttp`, nor of the connection: bytes that wait
behind the last request, and bytes that arrive while output is unsent, are parsed as if nothing had
happened. The runs without that are exactly those in which no byte is there to be read then
(`late_iff`).

The condition speaks of the turns that `readHttp` makes and of the slots that follow in the same
delivery: each closes the connection only with everything sent or nothing unread. It is exact,
because a byte that is there to be read after the end is parsed at once.
-/

namespace QtWebApp

open Bytes

namespace HttpConnectionHandler

/-! ### The condition

It is about the states that the run goes through, so it is stated along the loops. -/

/-- When the turn of `readHttp` closes the connection after a response, the flush leaves nothing
unsent, or no byte waits behind the request. -/
def Settled (server : Server) (h : HttpConnectionHandler) : Prop :=
  ∀ request, h.currentRequest = some request → request.status = .complete →
    closeConnection request (h.respond server request) = true →
      ((h.respond server request).socket.flush server.network).unsent = false ∨
        h.socket.readBuffer = []

/-- The turn of `readHttp` that begins here is settled. -/
def TurnMeets (server : Server) (n : Nat) (h : HttpConnectionHandler) : Prop :=
  h.socket.readBuffer ≠ [] →
    ∀ g, loop collectBody n (h.ensureRequest server) = some g → Settled server g

namespace Observed

/-- A slot that calls `readHttp` on a connection that was closed finds nothing to read, and all
turns are settled. -/
def SlotMeets (server : Server) (n : Nat) (o : Observed) (slot : Slot) : Prop :=
  (Signal.readyRead, slot) ∈ o.handler.socket.connections →
    ∀ g, o.handler.takesOver server slot = some g →
      (o.closed = true → g.socket.readBuffer = []) ∧
        Loop.Along (HttpConnectionHandler.httpBody server n) (TurnMeets server n) n g

/-- The data that arrives is answered without a byte being parsed too late. -/
def Meets (server : Server) (n : Nat) (o : Observed) : LifeEvent → Prop
  | .event (.receive segment) =>
      Encrypted server o.handler → o.handler.socket.state ≠ .unconnected →
        Run.TryAlong (answerSlot server n) (SlotMeets server n)
          { o with handler := o.handler.arrived segment } (o.handler.socket.slots .readyRead)
  | _ => True

end Observed

/-! ### The end of a turn

A turn ends with a rejection, with an answer that closes, or with one that does not. -/

/-- Whatever the rest of a turn does, it has closed the connection, or left its outline alone. -/
theorem dispatch_cases (server : Server) (g : HttpConnectionHandler) :
    (g.disconnects server = false ∧ ∃ h, g.dispatch server = .again h ∧ SameOutline g h) ∨
      (g.disconnects server = true ∧ ∃ h, g.dispatch server = .leave h) ∨
      (g.disconnects server = true ∧ ∃ request, g.currentRequest = some request ∧
        request.status = .complete ∧ closeConnection request (g.respond server request) = true ∧
        g.dispatch server = .again (g.serve server request)) := by
  have hrefl : SameOutline g g := .refl g
  unfold disconnects dispatch
  cases hr : g.currentRequest with
  | none => exact .inl ⟨rfl, g, rfl, hrefl⟩
  | some request =>
      dsimp only
      cases hstatus : request.status with
      | abort => exact .inr (.inl ⟨rfl, _, rfl⟩)
      | complete =>
          dsimp only
          cases hclose : closeConnection request (g.respond server request) with
          | true => exact .inr (.inr ⟨rfl, request, rfl, hstatus, hclose, rfl⟩)
          | false =>
              have hout := respond_outputOnly server g request
              refine .inl ⟨rfl, _, rfl, ?_⟩
              rw [serve_eq, hclose]
              exact ⟨rfl, rfl, rfl, hout.state, hout.encrypted, hout.connections⟩
      | waitForRequest | waitForHeader | waitForBody => exact .inl ⟨rfl, g, rfl, hrefl⟩

/-- With unsent output the bytes that wait are still there after `disconnectFromHost`. -/
theorem disconnectFromHost_unsent {h : HttpConnectionHandler} (hunsent : h.socket.unsent = true) :
    h.disconnectFromHost.socket.readBuffer = h.socket.readBuffer := by
  unfold disconnectFromHost
  rw [if_pos hunsent]
  split <;> rfl

/-- A response that is not sent completely leaves what waits behind its request. -/
theorem serve_unsent {server : Server} {g : HttpConnectionHandler} {request : HttpRequest}
    (hclose : closeConnection request (g.respond server request) = true)
    (hunsent : ((g.respond server request).socket.flush server.network).unsent = true) :
    (g.serve server request).socket.readBuffer = g.socket.readBuffer := by
  rw [serve_eq, if_pos hclose]
  have hkept : ((g.answered server request).onSocket
      (TcpSocket.flush server.network)).disconnectFromHost.socket.readBuffer =
        (g.respond server request).socket.readBuffer := disconnectFromHost_unsent hunsent
  exact hkept.trans (respond_outputOnly server g request).readBuffer

/-! ### The beginning of a slot

The slot `readHttp` may be called by the signal or by the slot `read` that has just decided. -/

/-- The handler with which `readHttp` takes over. -/
theorem takesOver_cases {server : Server} {h g : HttpConnectionHandler} {slot : Slot}
    (hg : h.takesOver server slot = some g) :
    (slot = .readHttp ∧ g = h) ∨ (slot = .read ∧ g = h.becomeHttp) ∨
      (slot = .read ∧ g = (h.answerHandshake server).closeSocket.becomeHttp) := by
  cases slot with
  | readHttp => exact .inl ⟨rfl, (Option.some.inj hg).symm⟩
  | read =>
      rw [takesOver] at hg
      split at hg
      · cases hg
      · split at hg
        · split at hg
          · cases hg
          · exact .inr (.inr ⟨rfl, (Option.some.inj hg).symm⟩)
        · exact .inr (.inl ⟨rfl, (Option.some.inj hg).symm⟩)
  | disconnected | encrypted | sslErrors | preSharedKeyAuthenticationRequired => cases hg

/-- The handlers have seen the same requests. -/
structure SameRequests (h h' : HttpConnectionHandler) : Prop where
  log : h'.log = h.log
  currentRequest : h'.currentRequest = h.currentRequest

theorem SameRequests.trans {h h₁ h₂ : HttpConnectionHandler} (h₁₂ : SameRequests h h₁)
    (h₂₃ : SameRequests h₁ h₂) : SameRequests h h₂ :=
  ⟨h₂₃.log.trans h₁₂.log, h₂₃.currentRequest.trans h₁₂.currentRequest⟩

theorem closeSocket_requests (h : HttpConnectionHandler) : SameRequests h h.closeSocket := by
  refine disconnectFromHost_inv (I := SameRequests h) ⟨rfl, rfl⟩ (fun _ => ⟨rfl, rfl⟩) fun _ => ?_
  refine emitDisconnected_inv (I := SameRequests h) ?_ ⟨rfl, rfl⟩
  intro g hg
  exact disconnected_inv (I := SameRequests h) ⟨hg.log, hg.currentRequest⟩
    ⟨hg.log, hg.currentRequest⟩

/-- Taking over does not parse anything. -/
theorem takesOver_requests {server : Server} {h g : HttpConnectionHandler} {slot : Slot}
    (hg : h.takesOver server slot = some g) : SameRequests h g := by
  rcases takesOver_cases hg with ⟨-, rfl⟩ | ⟨-, rfl⟩ | ⟨-, rfl⟩
  · exact ⟨rfl, rfl⟩
  · exact ⟨rfl, rfl⟩
  · have hclosed := (h.answerHandshake server).closeSocket_requests
    exact ⟨hclosed.log, hclosed.currentRequest⟩

namespace Observed

/-- A turn that finds bytes to read. -/
theorem httpBody_inv {server : Server} {n : Nat} {o : Observed} {turn : Turn Observed}
    (hne : o.handler.socket.readBuffer ≠ []) (hturn : o.httpBody server n = some turn) :
    ∃ g, loop collectBody n (o.handler.ensureRequest server) = some g ∧
      turn = (g.dispatch server).map
        fun h => ⟨h, o.closed || g.disconnects server, o.late || o.closed⟩ := by
  rw [httpBody, if_neg hne] at hturn
  obtain ⟨g, hg, rfl⟩ := Option.map_eq_some_iff.mp hturn
  exact ⟨g, hg, rfl⟩

/-- A turn that finds bytes to read is late when the connection was closed before. -/
theorem httpBody_late {server : Server} {n : Nat} {o t : Observed}
    (hne : o.handler.socket.readBuffer ≠ [])
    (hturn : o.httpBody server n = some (.leave t) ∨ o.httpBody server n = some (.again t)) :
    t.late = (o.late || o.closed) := by
  rcases hturn with hturn | hturn
  all_goals
    obtain ⟨g, -, ht⟩ := httpBody_inv hne hturn
    cases hend : g.dispatch server <;> rw [hend] at ht <;> cases ht
    rfl

/-- Nothing is read when nothing is there. -/
theorem loop_nil {server : Server} {n k : Nat} {o o' : Observed}
    (hnil : o.handler.socket.readBuffer = []) (hrun : loop (httpBody server n) k o = some o') :
    o' = o := by
  cases k with
  | zero => cases hrun
  | succ k =>
      rw [loop, httpBody, if_pos hnil] at hrun
      exact (Option.some.inj hrun).symm

/-! ### What goes wrong stays wrong

The flag `late` is never taken back on a connection. -/

theorem httpBody_keeps_late {server : Server} {n : Nat} {o t : Observed} (hlate : o.late = true)
    (hturn : o.httpBody server n = some (.leave t) ∨ o.httpBody server n = some (.again t)) :
    t.late = true := by
  by_cases hempty : o.handler.socket.readBuffer = []
  · rw [httpBody, if_pos hempty] at hturn
    rcases hturn with hturn | hturn <;> cases hturn
    exact hlate
  · rw [httpBody_late hempty hturn, hlate]
    rfl

/-- A whole run of the loop keeps the flag. -/
theorem loop_keeps_late {server : Server} {n k : Nat} {o o' : Observed} (hlate : o.late = true)
    (hrun : loop (httpBody server n) k o = some o') : o'.late = true :=
  Loop.loop_keeps (I := fun s => s.late = true) (fun _ _ hs ht => httpBody_keeps_late hs (.inl ht))
    (fun _ _ hs ht => httpBody_keeps_late hs (.inr ht)) hlate hrun

theorem answerSlot_keeps_late {server : Server} {n : Nat} (o : Observed) (slot : Slot)
    (o' : Observed) (hlate : o.late = true) (hrun : o.answerSlot server n slot = some o') :
    o'.late = true := by
  unfold answerSlot at hrun
  split at hrun
  · unfold runSlot at hrun
    split at hrun
    · next g _ => exact loop_keeps_late (o := { o with handler := g }) hlate hrun
    · obtain ⟨h, -, rfl⟩ := Option.map_eq_some_iff.mp hrun
      exact hlate
  · cases hrun
    exact hlate

/-! ### What goes wrong

If the condition fails somewhere, a byte is there that the loop parses next, and the flag is set. -/

/-- A byte that is there to be read on a connection that was closed is parsed. -/
theorem loop_closed {server : Server} {n k : Nat} {o o' : Observed} (hclosed : o.closed = true)
    (hne : o.handler.socket.readBuffer ≠ []) (hrun : loop (httpBody server n) k o = some o') :
    o'.late = true := by
  cases k with
  | zero => cases hrun
  | succ k =>
      rw [loop] at hrun
      split at hrun
      · next t hturn =>
          cases hrun
          rw [httpBody_late hne (.inl hturn), hclosed, Bool.or_true]
      · next t hturn =>
          refine loop_keeps_late ?_ hrun
          rw [httpBody_late hne (.inr hturn), hclosed, Bool.or_true]
      · cases hrun

/-- A turn that is not settled closes the connection and leaves bytes behind. -/
theorem httpBody_unsettled {server : Server} {n : Nat} {o : Observed} {turn : Turn Observed}
    (hbad : ¬ TurnMeets server n o.handler) (hturn : o.httpBody server n = some turn) :
    ∃ t, turn = .again t ∧ t.closed = true ∧ t.handler.socket.readBuffer ≠ [] := by
  unfold TurnMeets Settled at hbad
  push Not at hbad
  obtain ⟨hne, g, hg, request, hr, hstatus, hclose, hunsent, hwaits⟩ := hbad
  obtain ⟨g', hg', rfl⟩ := httpBody_inv hne hturn
  cases hg.symm.trans hg'
  have hdispatch : g.dispatch server = .again (g.serve server request) := by
    unfold dispatch
    rw [hr]
    dsimp only
    rw [hstatus]
  have hdisconnects : g.disconnects server = true := by
    unfold disconnects
    rw [hr]
    dsimp only
    rw [hstatus]
    exact hclose
  rw [hdispatch]
  refine ⟨_, rfl, ?_, ?_⟩
  · show (o.closed || g.disconnects server) = true
    rw [hdisconnects, Bool.or_true]
  · show (g.serve server request).socket.readBuffer ≠ []
    rw [serve_unsent hclose (Bool.eq_true_of_not_eq_false hunsent)]
    exact hwaits

/-- A run with a turn that is not settled. -/
theorem loop_unsettled {server : Server} {n k : Nat} {o o' : Observed}
    (hbad : ¬ Loop.Along (HttpConnectionHandler.httpBody server n) (TurnMeets server n) k o.handler)
    (hrun : loop (httpBody server n) k o = some o') : o'.late = true := by
  induction k generalizing o with
  | zero => cases hrun
  | succ k ih =>
      rw [loop] at hrun
      have hturned := httpBody_handler server n o
      by_cases hok : TurnMeets server n o.handler
      · -- a later turn is not settled
        cases hturn : o.httpBody server n with
        | none =>
            rw [hturn] at hrun
            cases hrun
        | some turn =>
            rw [hturn] at hrun hturned
            cases turn with
            | leave t =>
                refine absurd ⟨hok, fun h hh => ?_⟩ hbad
                cases hturned.trans hh
            | again t =>
                refine ih (fun halong => hbad ⟨hok, fun h hh => ?_⟩) hrun
                cases hturned.trans hh
                exact halong
      · cases hturn : o.httpBody server n with
        | none =>
            rw [hturn] at hrun
            cases hrun
        | some turn =>
            obtain ⟨t, rfl, hclosed, hne⟩ := httpBody_unsettled hok hturn
            rw [hturn] at hrun
            exact loop_closed hclosed hne hrun

/-- A slot that does not meet the condition begins a turn too late. -/
theorem answerSlot_fails {server : Server} {n : Nat} (o : Observed) (slot : Slot) (o' : Observed)
    (hbad : ¬ SlotMeets server n o slot) (hrun : o.answerSlot server n slot = some o') :
    o'.late = true := by
  unfold SlotMeets at hbad
  push Not at hbad
  obtain ⟨hconn, g, hg, hbad⟩ := hbad
  rw [answerSlot, if_pos hconn, runSlot, hg] at hrun
  by_cases hquiet : o.closed = true → g.socket.readBuffer = []
  · exact loop_unsettled (o := { o with handler := g }) (hbad hquiet) hrun
  · push Not at hquiet
    exact loop_closed (o := { o with handler := g }) hquiet.1 hquiet.2 hrun

/-! ### What it means that nothing goes wrong

On a connection that was closed, data then changes neither the requests nor the answers. -/

/-- A slot that does not parse too late leaves the requests of a closed connection alone. -/
theorem answerSlot_quiet {server : Server} {n : Nat} {o o' : Observed} {slot : Slot}
    (hclosed : o.closed = true) (hrun : o.answerSlot server n slot = some o')
    (hquiet : o'.late = false) : o'.closed = true ∧ SameRequests o.handler o'.handler := by
  unfold answerSlot at hrun
  split at hrun
  · unfold runSlot at hrun
    split at hrun
    · next g hg =>
        have hnil : g.socket.readBuffer = [] := by
          by_contra hne
          have hlate := loop_closed (o := { o with handler := g }) hclosed hne hrun
          exact Bool.false_ne_true (hquiet.symm.trans hlate)
        obtain rfl := loop_nil hnil hrun
        exact ⟨hclosed, takesOver_requests hg⟩
    · next hg =>
        obtain ⟨h, hh, rfl⟩ := Option.map_eq_some_iff.mp hrun
        refine ⟨hclosed, ?_⟩
        rcases runSlot_aside hg hh with rfl | ⟨-, -, rfl⟩
        · exact ⟨rfl, rfl⟩
        · exact ⟨rfl, rfl⟩
  · cases hrun
    exact ⟨hclosed, rfl, rfl⟩

/-- **A connection that was closed gets no further answer**, and no further byte of a request, from
data that is not parsed too late. -/
theorem receiveEvent_quiet {server : Server} {n : Nat} {o o' : Observed} {segment : Bytes}
    (hclosed : o.closed = true) (hrun : o.receiveEvent server n segment = some o')
    (hquiet : o'.late = false) : SameRequests o.handler o'.handler := by
  have hall : ∀ (slots : List Slot) {s t : Observed}, s.closed = true →
      tryRun (answerSlot server n) s slots = some t → t.late = false →
        SameRequests s.handler t.handler := by
    intro slots
    induction slots with
    | nil =>
        intro s t _ hrun _
        cases hrun
        exact ⟨rfl, rfl⟩
    | cons slot slots ih =>
        intro s t hs hrun ht
        obtain ⟨s', hfirst, hrest⟩ := Option.bind_eq_some_iff.mp hrun
        have hs' : s'.late = false := by
          refine Bool.eq_false_iff.mpr fun hlate => Bool.false_ne_true (ht.symm.trans ?_)
          exact Run.inv_tryRun (I := fun s => s.late = true) answerSlot_keeps_late hlate hrest
        obtain ⟨hclosed', hsame⟩ := answerSlot_quiet hs hfirst hs'
        exact hsame.trans (ih hclosed' hrest ht)
  unfold receiveEvent at hrun
  split at hrun
  · cases hrun
    exact ⟨rfl, rfl⟩
  · obtain ⟨t, ht, rfl⟩ := Option.map_eq_some_iff.mp hrun
    have hsame : SameRequests o.handler t.handler := by
      unfold receive at ht
      split at ht
      · cases ht
        exact ⟨rfl, rfl⟩
      · have harrived := hall _ (s := { o with handler := o.handler.arrived segment })
            hclosed ht hquiet
        exact ⟨harrived.log, harrived.currentRequest⟩
    refine hsame.trans ?_
    dsimp only
    split <;> exact ⟨rfl, rfl⟩

end Observed

/-! ### What goes well

A turn that meets the condition closes the connection with nothing unread, and the loop ends. -/

/-- `readHttp` serves an open connection whose end will be noticed. -/
structure Attended (h : HttpConnectionHandler) : Prop where
  state : h.socket.state ≠ .unconnected
  webSocket : h.webSocket = none
  type : h.type ≠ .webSocket
  watched : h.Watched

theorem Attended.same {h h' : HttpConnectionHandler} (ha : h.Attended) (hs : SameOutline h h') :
    h'.Attended where
  state := by
    rw [hs.state]
    exact ha.state
  webSocket := by
    have hnone := hs.webSocket
    rw [ha.webSocket, Option.isSome_none] at hnone
    exact Option.isNone_iff_eq_none.mp (Option.isSome_eq_false_iff.mp hnone)
  type := by
    rw [hs.type]
    exact ha.type
  watched := by
    rw [Watched, hs.connections]
    exact ha.watched

theorem Attended.ensureRequest {h : HttpConnectionHandler} (server : Server) (ha : h.Attended) :
    (h.ensureRequest server).Attended := by
  unfold HttpConnectionHandler.ensureRequest
  split
  · exact ha
  · exact ⟨ha.state, ha.webSocket, ha.type, ha.watched⟩

/-- When nothing is unsent the slot `disconnected` has closed the device. -/
theorem Attended.disconnectFromHost_sent {h : HttpConnectionHandler} (ha : h.Attended)
    (hsent : h.socket.unsent = false) : h.disconnectFromHost.socket.readBuffer = [] := by
  rw [disconnectFromHost_http ha.state ha.webSocket ha.type ha.watched, hsent,
    if_neg Bool.false_ne_true]
  rfl

/-- A response that is sent completely, and ends the connection, leaves nothing. -/
theorem Attended.serve_sent {server : Server} {g : HttpConnectionHandler} {request : HttpRequest}
    (ha : g.Attended) (hclose : closeConnection request (g.respond server request) = true)
    (hsent : ((g.respond server request).socket.flush server.network).unsent = false) :
    (g.serve server request).socket.readBuffer = [] := by
  have hout : TcpSocket.OutputOnly g.socket
      ((g.respond server request).socket.flush server.network) :=
    TcpSocket.flush_outputOnly (respond_outputOnly server g request)
  have hflushed : ((g.answered server request).onSocket
      (TcpSocket.flush server.network)).Attended :=
    ha.same ⟨rfl, rfl, rfl, hout.state, hout.encrypted, hout.connections⟩
  rw [serve_eq, if_pos hclose]
  exact hflushed.disconnectFromHost_sent hsent

namespace Observed

/-- `readHttp` has not closed the connection yet. -/
structure Fresh (o : Observed) : Prop where
  attended : o.handler.Attended
  closed : o.closed = false
  late : o.late = false

/-- Nothing has been parsed too late, and nothing can be before more data arrives. -/
structure Done (o : Observed) : Prop where
  late : o.late = false
  quiet : o.closed = true ∨ o.handler.socket.readBuffer = []

/-- A settled turn leaves nothing to read on a connection that it closes. -/
theorem Fresh.httpBody {server : Server} {n : Nat} {o : Observed} {turn : Turn Observed}
    (hf : o.Fresh) (hok : TurnMeets server n o.handler) (hturn : o.httpBody server n = some turn) :
    (∃ t, turn = .leave t ∧ t.Done) ∨
      (∃ t, turn = .again t ∧ (t.Fresh ∨ (t.late = false ∧ t.handler.socket.readBuffer = []))) := by
  by_cases hempty : o.handler.socket.readBuffer = []
  · rw [Observed.httpBody, if_pos hempty] at hturn
    cases hturn
    exact .inl ⟨o, rfl, hf.late, .inr hempty⟩
  · obtain ⟨g, hg, rfl⟩ := httpBody_inv hempty hturn
    have hcollected : g.Attended :=
      collect_keeps Attended.same hg (hf.attended.ensureRequest server)
    have hlate : (o.late || o.closed) = false := by
      rw [hf.late, hf.closed]
      rfl
    rcases dispatch_cases server g with ⟨hopen, h, hh, hsame⟩ | ⟨hclosed, h, hh⟩ |
      ⟨hclosed, request, hr, hstatus, hclose, hh⟩
    · rw [hh]
      refine .inr ⟨_, rfl, .inl ⟨hcollected.same hsame, ?_, hlate⟩⟩
      show (o.closed || g.disconnects server) = false
      rw [hf.closed, hopen]
      rfl
    · rw [hh]
      refine .inl ⟨_, rfl, hlate, .inl ?_⟩
      show (o.closed || g.disconnects server) = true
      rw [hclosed, Bool.or_true]
    · rw [hh]
      refine .inr ⟨_, rfl, .inr ⟨hlate, ?_⟩⟩
      show (g.serve server request).socket.readBuffer = []
      cases hunsent : ((g.respond server request).socket.flush server.network).unsent with
      | false => exact hcollected.serve_sent hclose hunsent
      | true =>
          rw [serve_unsent hclose hunsent]
          refine (hok hempty g hg request hr hstatus hclose).resolve_left fun hsent => ?_
          exact Bool.false_ne_true (hsent.symm.trans hunsent)

/-- Settled turns are never late. -/
theorem Fresh.loop {server : Server} {n k : Nat} {o o' : Observed} (hf : o.Fresh)
    (halong : Loop.Along (HttpConnectionHandler.httpBody server n) (TurnMeets server n) k o.handler)
    (hrun : loop (Observed.httpBody server n) k o = some o') : o'.Done := by
  induction k generalizing o with
  | zero => cases hrun
  | succ k ih =>
      rw [QtWebApp.loop] at hrun
      have hturned := httpBody_handler server n o
      cases hturn : o.httpBody server n with
      | none =>
          rw [hturn] at hrun
          cases hrun
      | some turn =>
          rw [hturn] at hrun hturned
          rcases hf.httpBody halong.1 hturn with ⟨t, rfl, hdone⟩ | ⟨t, rfl, hfresh | ⟨hlate, hnil⟩⟩
          · cases hrun
            exact hdone
          · exact ih hfresh (halong.2 _ hturned.symm) hrun
          · obtain rfl := loop_nil hnil hrun
            exact ⟨hlate, .inr hnil⟩

end Observed

/-! ### Slots

Several slots may be connected to the signal. Those that run after the connection was closed find
nothing to read. -/

/-- The answer to a handshake does not make the connection one of a WebSocket. -/
theorem Ready.answerHandshake_type {server : Server} {closed : Bool} {h : HttpConnectionHandler}
    (hr : Ready server closed h) (hreading : h.Reading) :
    (h.answerHandshake server).type ≠ .webSocket := by
  rw [(h.answerHandshake_outline server).type]
  exact fun htype => hr.taken htype hreading

/-- The handler is still ready when `readHttp` takes over. -/
theorem Ready.takesOver {server : Server} {closed : Bool} {h g : HttpConnectionHandler}
    {slot : Slot} (hr : Ready server closed h)
    (hconn : (Signal.readyRead, slot) ∈ h.socket.connections)
    (hg : h.takesOver server slot = some g) : Ready server closed g := by
  rcases takesOver_cases hg with ⟨rfl, rfl⟩ | ⟨rfl, rfl⟩ | ⟨rfl, rfl⟩
  · exact hr
  · exact ⟨hr.toCoherent.becomeHttp fun htype => hr.taken htype hconn, hr.encrypted⟩
  · have hshaken := hr.same (h.answerHandshake_outline server)
    have htype := hr.answerHandshake_type hconn
    have hclosed := closeSocket_keeps (I := Ready server closed) Ready.same
      Ready.disconnectFromHost hshaken
    exact ⟨hclosed.toCoherent.becomeHttp (closeSocket_over htype).2, hclosed.encrypted⟩

namespace Observed

/-- The slots that have not run yet have nothing to parse, or all of them wait for the first
line. -/
def Spent (o : Observed) : Prop :=
  o.closed = true ∨ o.handler.socket.readBuffer = [] ∨
    (o.handler.socket.state ≠ .unconnected ∧ ¬ o.handler.ReadingHttp)

/-- The handler with which `readHttp` takes over to read something serves an open connection. -/
theorem fresh_takesOver {server : Server} {o : Observed} {g : HttpConnectionHandler} {slot : Slot}
    (hr : Ready server o.closed o.handler) (hlate : o.late = false) (hopen : o.closed = false)
    (hready : o.Spent ∨ (o.handler.socket.state ≠ .unconnected ∧ slot = .readHttp))
    (hconn : (Signal.readyRead, slot) ∈ o.handler.socket.connections)
    (hg : o.handler.takesOver server slot = some g) (hne : g.socket.readBuffer ≠ []) :
    Fresh { o with handler := g } := by
  refine ⟨?_, hopen, hlate⟩
  rcases takesOver_cases hg with ⟨rfl, rfl⟩ | ⟨rfl, rfl⟩ | ⟨rfl, rfl⟩
  · have hstate : o.handler.socket.state ≠ .unconnected := by
      rcases hready with (hclosed | hnil | ⟨-, hnot⟩) | ⟨hstate, -⟩
      · exact absurd (hopen.symm.trans hclosed) Bool.false_ne_true
      · exact absurd hnil hne
      · exact absurd hconn hnot
      · exact hstate
    have htype := hr.http hopen hstate hconn
    exact ⟨hstate, hr.webSocket_eq_none htype, htype, hr.watched hstate hr.encrypted htype⟩
  · have htype : o.handler.type ≠ .webSocket := fun htype => hr.taken htype hconn
    have hstate : o.handler.socket.state ≠ .unconnected := by
      rcases hready with (hclosed | hnil | ⟨hstate, -⟩) | ⟨hstate, -⟩
      · exact absurd (hopen.symm.trans hclosed) Bool.false_ne_true
      · exact absurd hnil hne
      · exact hstate
      · exact hstate
    exact ⟨hstate, hr.webSocket_eq_none htype, HandlerType.noConfusion,
      o.handler.becomeHttp_watched.mpr (hr.watched hstate hr.encrypted htype)⟩
  · -- nothing is left when the handshake was refused
    exact absurd (closeSocket_over (hr.answerHandshake_type hconn)).1 hne

/-- What holds of the handler, and of what has been seen of it, between two slots. -/
structure Calm (server : Server) (o : Observed) : Prop where
  ready : Ready server o.closed o.handler
  late : o.late = false

/-- A slot with which `readHttp` takes over reads everything there is. -/
theorem Calm.readHttp {server : Server} {n : Nat} {o o' : Observed} {g : HttpConnectionHandler}
    {slot : Slot} (hc : Calm server o)
    (hready : o.Spent ∨ (o.handler.socket.state ≠ .unconnected ∧ slot = .readHttp))
    (hconn : (Signal.readyRead, slot) ∈ o.handler.socket.connections)
    (hg : o.handler.takesOver server slot = some g)
    (hquiet : o.closed = true → g.socket.readBuffer = [])
    (halong : Loop.Along (HttpConnectionHandler.httpBody server n) (TurnMeets server n) n g)
    (hrun : Observed.readHttp server n { o with handler := g } = some o') :
    Calm server o' ∧ o'.Spent := by
  obtain ⟨hr, hlate⟩ := hc
  have hover := hr.takesOver hconn hg
  by_cases hnil : g.socket.readBuffer = []
  · obtain rfl := loop_nil hnil hrun
    exact ⟨⟨hover, hlate⟩, .inr (.inl hnil)⟩
  · -- a connection that was closed has nothing to be read
    have hopen : o.closed = false := Bool.eq_false_iff.mpr fun hclosed => hnil (hquiet hclosed)
    have hfresh := fresh_takesOver hr hlate hopen hready hconn hg hnil
    have hdone := hfresh.loop halong hrun
    have hplain : g.readHttp server n = some o'.handler :=
      (readHttp_handler server n { o with handler := g }).symm.trans
        (congrArg (Option.map handler) hrun)
    have hkept : Ready server false o'.handler :=
      readHttp_keeps (I := Ready server false) Ready.same Ready.disconnectFromHost hplain
        (hopen ▸ hover)
    exact ⟨⟨⟨hkept.toCoherent.mono _, hkept.encrypted⟩, hdone.late⟩, hdone.quiet.imp_right .inl⟩

/-- Any other slot reads nothing: it waits on, or a WebSocket takes over. -/
theorem Calm.aside {server : Server} {n : Nat} {o : Observed} {h : HttpConnectionHandler}
    {slot : Slot} (hc : Calm server o) (hspent : o.Spent)
    (hconn : (Signal.readyRead, slot) ∈ o.handler.socket.connections)
    (hg : o.handler.takesOver server slot = none) (hh : o.handler.runSlot server n slot = some h) :
    Calm server { o with handler := h } ∧ Spent { o with handler := h } := by
  obtain ⟨hr, hlate⟩ := hc
  rcases runSlot_aside hg hh with rfl | ⟨rfl, hline, rfl⟩
  · exact ⟨⟨hr, hlate⟩, hspent⟩
  · -- nothing has been read yet, unless the connection was closed
    have hwaits : o.closed = true ∨
        (o.handler.socket.state ≠ .unconnected ∧ ¬ o.handler.ReadingHttp) := by
      refine hspent.imp_right fun hrest => hrest.resolve_left fun hnil => ?_
      rw [hnil] at hline
      cases hline
    refine ⟨⟨hr.becomeWebSocket hconn fun hopen => ?_, hlate⟩, hwaits.imp_right fun hnot => ?_⟩
    · rw [hopen] at hwaits
      exact (hwaits.resolve_left Bool.false_ne_true).2
    · refine .inr ⟨?_, fun hhttp => hnot.2 (readingHttp_of_becomeWebSocket hhttp)⟩
      show (o.handler.answerHandshake server).socket.state ≠ .unconnected
      rw [(o.handler.answerHandshake_outline server).state]
      exact hnot.1

/-- **One slot.** When it meets the condition nothing is parsed too late, and nothing is left for
the slots after it. -/
theorem Calm.answerSlot {server : Server} {n : Nat} {o o' : Observed} {slot : Slot}
    (hc : Calm server o)
    (hready : o.Spent ∨ (o.handler.socket.state ≠ .unconnected ∧ slot = .readHttp))
    (hok : SlotMeets server n o slot) (hrun : o.answerSlot server n slot = some o') :
    Calm server o' ∧ o'.Spent := by
  unfold Observed.answerSlot at hrun
  split at hrun
  · next hconn =>
      unfold Observed.runSlot at hrun
      split at hrun
      · next g hg =>
          obtain ⟨hquiet, halong⟩ := hok hconn g hg
          exact hc.readHttp hready hconn hg hquiet halong hrun
      · next hg =>
          obtain ⟨h, hh, rfl⟩ := Option.map_eq_some_iff.mp hrun
          have hspent : o.Spent := by
            refine hready.elim id ?_
            rintro ⟨-, rfl⟩
            cases hg
          exact hc.aside hspent hconn hg hh
  · next hconn =>
      cases hrun
      refine ⟨hc, hready.elim id ?_⟩
      rintro ⟨hstate, rfl⟩
      exact .inr (.inr ⟨hstate, hconn⟩)

/-- **The signal `readyRead()`.** When every slot meets the condition nothing is parsed too late. -/
theorem Calm.emitReadyRead {server : Server} {n : Nat} {o o' : Observed} (hc : Calm server o)
    (hopen : o.handler.socket.state ≠ .unconnected)
    (halong : Run.TryAlong (Observed.answerSlot server n) (SlotMeets server n) o
      (o.handler.socket.slots .readyRead))
    (hrun : o.emitReadyRead server n = some o') : Calm server o' := by
  have hrest : ∀ {slots : List Slot} {s : Observed}, Calm server s ∧ s.Spent →
      Run.TryAlong (Observed.answerSlot server n) (SlotMeets server n) s slots →
        tryRun (Observed.answerSlot server n) s slots = some o' → Calm server o' := by
    intro slots s hs hslots hrun
    exact (Run.TryAlong.inv (I := fun s => Calm server s ∧ s.Spent)
      (fun s slot t hs hok ht => hs.1.answerSlot (.inl hs.2) hok ht) hs hslots hrun).1
  unfold Observed.emitReadyRead at hrun
  obtain ⟨decided, waiting, hslots⟩ := hc.ready.lined
  cases decided with
  | zero =>
      refine hrest ⟨hc, .inr (.inr ⟨hopen, fun hhttp => ?_⟩)⟩ halong hrun
      have hmem := mem_slots.mpr hhttp
      rw [hslots] at hmem
      simp at hmem
  | succ decided =>
      -- the first slot reads everything
      rw [hslots, List.replicate_succ, List.cons_append] at halong hrun
      obtain ⟨s, hfirst, hlater⟩ := Option.bind_eq_some_iff.mp hrun
      exact hrest (hc.answerSlot (.inr ⟨hopen, rfl⟩) halong.1 hfirst) (halong.2 s hfirst) hlater

/-! ### Events and runs

From the slots to events, and from events to runs. Both directions go through the rule for partial
runs. -/

/-- The invariant of the runs in which nothing is parsed too late. -/
structure Sound (server : Server) (o : Observed) : Prop where
  coherent : Coherent server o.closed o.handler
  late : o.late = false

/-- Data that meets the condition. -/
theorem Sound.receiveEvent {server : Server} {n : Nat} {o o' : Observed} {segment : Bytes}
    (hs : Sound server o) (hok : Meets server n o (.event (.receive segment)))
    (hrun : o.receiveEvent server n segment = some o') : Sound server o' := by
  unfold Observed.receiveEvent at hrun
  split at hrun
  · cases hrun
    exact hs
  · next hready =>
      have hencrypted : Encrypted server o.handler := encrypted_iff.mpr hready
      obtain ⟨t, ht, rfl⟩ := Option.map_eq_some_iff.mp hrun
      have hreceived : Sound server t := by
        unfold Observed.receive at ht
        split at ht
        · cases ht
          exact hs
        · next hopen =>
            have harrived : Ready server o.closed (o.handler.arrived segment) :=
              ⟨hs.coherent.same (arrived_outline _ segment), hencrypted⟩
            have hcalm : Calm server { o with handler := o.handler.arrived segment } :=
              ⟨harrived, hs.late⟩
            have hdone := hcalm.emitReadyRead hopen (hok hencrypted hopen) ht
            exact ⟨hdone.ready.toCoherent, hdone.late⟩
      refine ⟨hreceived.coherent.same ?_, hreceived.late⟩
      dsimp only
      split <;> exact ⟨rfl, rfl, rfl, rfl, rfl, rfl⟩

/-- **An event** that meets the condition. -/
theorem Sound.lifeStep {server : Server} {n : Nat} (o : Observed) (e : LifeEvent) (o' : Observed)
    (hs : Sound server o) (hok : Meets server n o e) (hrun : o.lifeStep server n e = some o') :
    Sound server o' := by
  cases e with
  | connect good =>
      cases hrun
      split
      · exact hs
      · next hidle =>
          exact ⟨hs.coherent.handleConnection (Bool.eq_false_iff.mpr hidle) good, hs.late⟩
  | event e =>
      by_cases he : ∃ segment, e = .receive segment
      · obtain ⟨segment, rfl⟩ := he
        exact hs.receiveEvent hok hrun
      · rw [lifeStep_other fun segment heq => he ⟨segment, heq⟩] at hrun
        obtain ⟨h, hh, rfl⟩ := Option.map_eq_some_iff.mp hrun
        refine ⟨step_keeps (I := Coherent server o.closed) Coherent.same Coherent.disconnectFromHost
          (fun hc _ => hc.becomeUnconnected) hs.coherent (fun {segment _} heq => ?_)
          (fun hssl hopen hplain => hs.coherent.emitEncrypted hssl hopen hplain) hh, hs.late⟩
        exact absurd ⟨segment, heq⟩ he

/-- Data that does not meet the condition is parsed too late. -/
theorem lifeStep_fails {server : Server} {n : Nat} (o : Observed) (e : LifeEvent) (o' : Observed)
    (hbad : ¬ Meets server n o e) (hrun : o.lifeStep server n e = some o') : o'.late = true := by
  cases e with
  | connect good => exact absurd trivial hbad
  | event e =>
      cases e with
      | receive segment =>
          unfold Meets at hbad
          push Not at hbad
          obtain ⟨hencrypted, hopen, hslots⟩ := hbad
          have hstep : o.receiveEvent server n segment = some o' := hrun
          rw [Observed.receiveEvent, if_neg (encrypted_iff.mp hencrypted), Observed.receive,
            if_neg hopen] at hstep
          obtain ⟨t, ht, rfl⟩ := Option.map_eq_some_iff.mp hstep
          have hlate : t.late = true :=
            Run.bad_of_not_along answerSlot_fails answerSlot_keeps_late hslots ht
          exact hlate
      | encrypted | sent | closed | readTimeout | webSocketMessage _ | webSocketClosed =>
          exact absurd trivial hbad

/-- Nothing has been closed or parsed. -/
theorem sound_new (server : Server) : Sound server new where
  coherent := ⟨⟨fun hn => (nomatch hn), fun hn => (nomatch hn)⟩, ⟨0, 0, rfl⟩,
    fun _ => ⟨rfl, HandlerType.noConfusion, List.not_mem_nil⟩, fun hn => (nomatch hn),
    fun _ _ => HandlerType.noConfusion, fun _ hopen => absurd rfl hopen,
    fun hopen => absurd rfl hopen, fun _ hopen => absurd rfl hopen⟩
  late := rfl

/-- **After the end of a connection** nothing is parsed throughout a run exactly when no byte is
there to be read then. -/
theorem late_iff {server : Server} {n : Nat} {events : List LifeEvent} {o : Observed}
    (hrun : tryRun (lifeStep server n) new events = some o) :
    (∀ before after o', events = before ++ after →
      tryRun (lifeStep server n) new before = some o' → o'.late = false) ↔
    Run.TryAlong (lifeStep server n) (Meets server n) new events := by
  refine Run.tryAlong_iff (I := Sound server) (fun _ hs => hs.late) Sound.lifeStep
    (fun o e o' _ hbad hstep hlate => ?_) (sound_new server) hrun
  exact Bool.false_ne_true (hlate.symm.trans (lifeStep_fails o e o' hbad hstep))

/-- A request that asks for the end of the connection, and another one behind it. -/
def lastRequest : List LifeEvent :=
  [.connect true, .event (.receive
    (ascii "GET / HTTP/1.1\r\nConnection: close\r\n\r\nGET /b HTTP/1.1\r\n\r\n"))]

/-- A response that ends the connection and is sent at once. -/
theorem late_iff_sent :
    ∃ o, tryRun (lifeStep (plainServer defaultSettings) 100) new lastRequest = some o ∧
      ((∀ before after o', lastRequest = before ++ after →
        tryRun (lifeStep (plainServer defaultSettings) 100) new before = some o' →
          o'.late = false) ↔
      Run.TryAlong (lifeStep (plainServer defaultSettings) 100)
        (Meets (plainServer defaultSettings) 100) new lastRequest) := by
  have hends : (tryRun (lifeStep (plainServer defaultSettings) 100) new lastRequest).isSome =
      true := by
    decide +kernel
  obtain ⟨o, ho⟩ := Option.isSome_iff_exists.mp hends
  exact ⟨o, ho, late_iff ho⟩

/-- A server whose network is slow: a flush never gets rid of everything. -/
def slowServer : Server :=
  { plainServer defaultSettings with network := ⟨fun _ => some 0, fun _ => false⟩ }

/-- The response that ends the connection is not sent yet, and the request behind it is served. -/
theorem late_slow :
    ∃ o, tryRun (lifeStep slowServer 100) new lastRequest = some o ∧
      o.late = true ∧ o.handler.served.map (·.path) = [ascii "/", ascii "/b"] := by
  have hsee : (tryRun (lifeStep slowServer 100) new lastRequest).map
      (fun o => (o.late, o.handler.served.map (·.path))) = some
        (true, [ascii "/", ascii "/b"]) := by
    decide +kernel
  obtain ⟨o, ho, hboth⟩ := Option.map_eq_some_iff.mp hsee
  obtain ⟨hlate, hpaths⟩ := Prod.mk.inj hboth
  exact ⟨o, ho, hlate, hpaths⟩

end Observed

end HttpConnectionHandler

end QtWebApp
