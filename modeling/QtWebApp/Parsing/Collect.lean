import QtWebApp.HttpServer.HttpConnectionHandler
import QtWebApp.Parsing.Lines

/-!
# QtWebApp.Parsing.Collect

The two loops of `readHttp`, freed of their fuel.

The inner loop of `readHttp` is a run of `readFromSocket` calls (`Reads`) with a handler
around it that looks on: it keeps the request, the read buffer and the timer up to date and
changes nothing else (`Collected`).

With `Loop.Ends` a loop is a relation between the state before it and the state after it. It does
not hold if the loop goes on for ever, so both that it ends and what it does can be said with it.
-/

namespace QtWebApp

open Bytes

namespace HttpConnectionHandler

open HttpRequest

/-- The inner loop of `readHttp` ends. -/
abbrev CollectEnds : HttpConnectionHandler → HttpConnectionHandler → Prop :=
  Loop.Ends fun _ => collectBody

/-- `readHttp` ends. -/
abbrev ReadHttpEnds (server : Server) : HttpConnectionHandler → HttpConnectionHandler → Prop :=
  Loop.Ends (httpBody server)

/-- A handler after some calls of `readFromSocket`, with the request and the bytes that they
left. -/
structure Collected (h h' : HttpConnectionHandler) (r : HttpRequest) (b : Bytes) : Prop where
  request : h'.currentRequest = some r
  socket : h'.socket = { h.socket with readBuffer := b }
  log : h'.log = h.log
  type : h'.type = h.type
  webSocket : h'.webSocket = h.webSocket
  busy : h'.busy = h.busy

theorem Collected.trans {h h₁ h₂ : HttpConnectionHandler} {r₁ r₂ : HttpRequest} {b₁ b₂ : Bytes}
    (h₁₂ : Collected h h₁ r₁ b₁) (h₂₃ : Collected h₁ h₂ r₂ b₂) : Collected h h₂ r₂ b₂ where
  request := h₂₃.request
  socket := by rw [h₂₃.socket, h₁₂.socket]
  log := h₂₃.log.trans h₁₂.log
  type := h₂₃.type.trans h₁₂.type
  webSocket := h₂₃.webSocket.trans h₁₂.webSocket
  busy := h₂₃.busy.trans h₁₂.busy

/-- One call of `readFromSocket` seen from the handler. -/
theorem readOnce_collected (h : HttpConnectionHandler) (r : HttpRequest) :
    Collected h (h.readOnce r) (r.readFromSocket h.socket.readBuffer).1
      (r.readFromSocket h.socket.readBuffer).2 := by
  unfold readOnce
  dsimp only
  split <;> exact ⟨rfl, rfl, rfl, rfl, rfl, rfl⟩

theorem collectBody_again {h : HttpConnectionHandler} {r : HttpRequest}
    (hr : h.currentRequest = some r) (hh : r.Hungry h.socket.readBuffer) :
    h.collectBody = some (.again (h.readOnce r)) := by
  unfold collectBody
  rw [hr]
  exact if_pos hh

theorem collectBody_leave {h : HttpConnectionHandler} {r : HttpRequest}
    (hr : h.currentRequest = some r) (hh : ¬ r.Hungry h.socket.readBuffer) :
    h.collectBody = some (.leave h) := by
  unfold collectBody
  rw [hr]
  exact if_neg hh

/-- A run of calls is a run of the inner loop. -/
theorem collectEnds_of_reads {r r' : HttpRequest} {b b' : Bytes} (hrun : Reads r b r' b')
    {h : HttpConnectionHandler} (hr : h.currentRequest = some r) (hb : h.socket.readBuffer = b) :
    ∃ h', CollectEnds h h' ∧ Collected h h' r' b' := by
  induction hrun generalizing h with
  | stop hn =>
      subst hb
      exact ⟨h, .leave (k := 0) (Loop.mono_const _) (collectBody_leave hr hn),
        ⟨hr, rfl, rfl, rfl, rfl, rfl⟩⟩
  | @more r _ _ _ hh _ ih =>
      subst hb
      have hone := readOnce_collected h r
      obtain ⟨h', hends, hcol⟩ := ih hone.request (by rw [hone.socket])
      exact ⟨h', .again (k := 0) (Loop.mono_const _) (collectBody_again hr hh) hends,
        hone.trans hcol⟩

/-- A run of the inner loop is a run of calls. -/
theorem reads_of_collectEnds {h h' : HttpConnectionHandler} (hends : CollectEnds h h')
    {r : HttpRequest} (hr : h.currentRequest = some r) :
    ∃ r' b', Reads r h.socket.readBuffer r' b' ∧ Collected h h' r' b' := by
  refine Loop.Ends.induction
    (motive := fun h h' => ∀ r, h.currentRequest = some r →
      ∃ r' b', Reads r h.socket.readBuffer r' b' ∧ Collected h h' r' b') ?_ ?_ hends r hr
  · intro _ h h' hturn r hr
    by_cases hh : r.Hungry h.socket.readBuffer
    · rw [collectBody_again hr hh] at hturn
      cases hturn
    · rw [collectBody_leave hr hh] at hturn
      cases hturn
      exact ⟨r, _, .stop hh, ⟨hr, rfl, rfl, rfl, rfl, rfl⟩⟩
  · intro _ h h₁ h' hturn ih r hr
    by_cases hh : r.Hungry h.socket.readBuffer
    · rw [collectBody_again hr hh] at hturn
      cases hturn
      have hone := readOnce_collected h r
      obtain ⟨r', b', hrun, hcol⟩ := ih _ hone.request
      rw [hone.socket] at hrun
      exact ⟨r', b', .more hh hrun, hone.trans hcol⟩
    · rw [collectBody_leave hr hh] at hturn
      cases hturn

/-! ### The outer loop

A turn begins with a new request or with the one that is not finished. It ends with an answer, with
a rejection, or because there are no more bytes. -/

theorem ensureRequest_some {server : Server} {h : HttpConnectionHandler} {r : HttpRequest}
    (hr : h.currentRequest = some r) : h.ensureRequest server = h := by
  unfold ensureRequest
  rw [hr]

theorem ensureRequest_none {server : Server} {h : HttpConnectionHandler}
    (hnone : h.currentRequest = none) :
    h.ensureRequest server = { h with currentRequest := some (.new server.settings) } := by
  unfold ensureRequest
  rw [hnone]

theorem ensureRequest_socket (server : Server) (h : HttpConnectionHandler) :
    (h.ensureRequest server).socket = h.socket := by
  unfold ensureRequest
  split <;> rfl

/-- More fuel does not change a turn of `readHttp`. -/
theorem httpBody_mono (server : Server) : Loop.Mono (httpBody server) := by
  intro n m hnm h t ht
  unfold httpBody at ht ⊢
  split
  · next hb => rwa [if_pos hb] at ht
  · next hb =>
      rw [if_neg hb, Option.map_eq_some_iff] at ht
      obtain ⟨h', hloop, hturn⟩ := ht
      rw [Option.map_eq_some_iff]
      exact ⟨h', Loop.loop_mono (fun _ _ hb => hb) hnm hloop, hturn⟩

theorem readHttpEnds_iff {server : Server} {h h' : HttpConnectionHandler} :
    ReadHttpEnds server h h' ↔ ∃ fuel, h.readHttp server fuel = some h' := Iff.rfl

/-- With no byte waiting `readHttp` does nothing. -/
theorem readHttpEnds_empty (server : Server) {h : HttpConnectionHandler}
    (hb : h.socket.readBuffer = []) : ReadHttpEnds server h h :=
  .leave (k := 0) (httpBody_mono server) (by simp [httpBody, hb])

/-- A turn of `readHttp`: the inner loop, and then the decision what becomes of the request. -/
theorem httpBody_turn {server : Server} {h h' : HttpConnectionHandler}
    (hb : h.socket.readBuffer ≠ []) (hc : CollectEnds (h.ensureRequest server) h') :
    ∃ k, httpBody server k h = some (h'.dispatch server) := by
  obtain ⟨k, hk⟩ := hc
  exact ⟨k, by simp [httpBody, hb, hk]⟩

/-- Another turn. -/
theorem readHttpEnds_again {server : Server} {h h₁ h₂ h' : HttpConnectionHandler}
    (hb : h.socket.readBuffer ≠ []) (hc : CollectEnds (h.ensureRequest server) h₁)
    (hd : h₁.dispatch server = .again h₂) (ht : ReadHttpEnds server h₂ h') :
    ReadHttpEnds server h h' := by
  obtain ⟨k, hk⟩ := httpBody_turn hb hc
  exact .again (httpBody_mono server) (hk.trans (by rw [hd])) ht

/-- How a run of `readHttp` that finds bytes begins. -/
theorem readHttpEnds_inv {server : Server} {h h' : HttpConnectionHandler}
    (hb : h.socket.readBuffer ≠ []) (hends : ReadHttpEnds server h h') :
    ∃ h₁, CollectEnds (h.ensureRequest server) h₁ ∧
      (h₁.dispatch server = .leave h' ∨
        ∃ h₂, h₁.dispatch server = .again h₂ ∧ ReadHttpEnds server h₂ h') := by
  have hturn : ∀ k t, httpBody server k h = some t →
      ∃ h₁, CollectEnds (h.ensureRequest server) h₁ ∧ h₁.dispatch server = t := by
    intro k t ht
    rw [httpBody, if_neg hb, Option.map_eq_some_iff] at ht
    obtain ⟨h₁, hloop, hd⟩ := ht
    exact ⟨h₁, ⟨k, hloop⟩, hd⟩
  rcases hends.inv with ⟨k, hk⟩ | ⟨k, h₂, hk, ht⟩
  · obtain ⟨h₁, hc, hd⟩ := hturn k _ hk
    exact ⟨h₁, hc, .inl hd⟩
  · obtain ⟨h₁, hc, hd⟩ := hturn k _ hk
    exact ⟨h₁, hc, .inr ⟨h₂, hd, ht⟩⟩

/-! ### More fuel

The functions of the model that run a loop take fuel. If they return something, they return the same
with more of it. -/

/-- More fuel does not change what `readHttp` does. -/
theorem readHttp_mono (server : Server) {n m : Nat} (hnm : n ≤ m) {h h' : HttpConnectionHandler}
    (hrun : h.readHttp server n = some h') : h.readHttp server m = some h' :=
  Loop.loop_mono (httpBody_mono server n m hnm) hnm hrun

theorem read_mono (server : Server) {n m : Nat} (hnm : n ≤ m) {h h' : HttpConnectionHandler}
    (hrun : h.read server n = some h') : h.read server m = some h' := by
  unfold read at hrun ⊢
  split
  · next hlf => rwa [if_pos hlf] at hrun
  · next hlf =>
      rw [if_neg hlf] at hrun
      dsimp only at hrun ⊢
      split
      · next hup => rwa [if_pos hup] at hrun
      · next hup =>
          rw [if_neg hup] at hrun
          exact readHttp_mono server hnm hrun

theorem runSlot_mono (server : Server) {n m : Nat} (hnm : n ≤ m) {h h' : HttpConnectionHandler}
    {slot : Slot} (hrun : h.runSlot server n slot = some h') :
    h.runSlot server m slot = some h' := by
  cases slot with
  | read => exact read_mono server hnm hrun
  | readHttp => exact readHttp_mono server hnm hrun
  | disconnected => exact hrun
  | encrypted => exact hrun
  | sslErrors => exact hrun
  | preSharedKeyAuthenticationRequired => exact hrun

/-- More fuel does not change what the arrival of data does. -/
theorem emitReadyRead_mono (server : Server) {n m : Nat} (hnm : n ≤ m)
    {h h' : HttpConnectionHandler} (hrun : h.emitReadyRead server n = some h') :
    h.emitReadyRead server m = some h' := by
  refine Loop.foldlM_mono (fun s slot t ht => ?_) hrun
  split
  · next hc =>
      rw [if_pos hc] at ht
      exact runSlot_mono server hnm ht
  · next hc => rwa [if_neg hc] at ht

end HttpConnectionHandler

end QtWebApp
