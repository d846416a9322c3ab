import QtWebApp.Connection.Phases

/-!
# QtWebApp.Connection.Tidy

The type of a handler and its signal connections.

Which slot answers `readyRead()` is decided by the type of the handler (`Tidy.emitReadyRead`),
not by how often the slot is connected; and the end of a connection runs the slot
`disconnected` once, or nobody notices it (`Tidy.emitDisconnected_eq`). The two belong together
from the first connection of a handler on; that whole runs keep them together is part of the
invariant `Ordered`.

The slots of a signal form a list, in which a slot stands as often as it was connected. `Tidy` says
what these lists are for each type of handler, except for the number of repetitions.
-/

namespace QtWebApp

open Bytes

namespace TcpSocket

theorem slots_connect (s : TcpSocket) (signal signal' : Signal) (slot : Slot) :
    (s.connect signal slot).slots signal' =
      s.slots signal' ++ if signal = signal' then [slot] else [] := by
  unfold slots connect
  by_cases h : signal = signal' <;> simp [h]

theorem slots_disconnect_self (s : TcpSocket) (signal : Signal) (slot : Slot) :
    (s.disconnect signal slot).slots signal = (s.slots signal).filter (· ≠ slot) := by
  unfold slots disconnect
  induction s.connections with
  | nil => rfl
  | cons c cs ih =>
      obtain ⟨signal', slot'⟩ := c
      by_cases hsignal : signal' = signal
      · by_cases hslot : slot' = slot <;> simp_all
      · simp_all

theorem slots_disconnect_other {signal signal' : Signal} (h : signal ≠ signal') (s : TcpSocket)
    (slot : Slot) : (s.disconnect signal slot).slots signal' = s.slots signal' := by
  unfold slots disconnect
  rw [List.filter_filter]
  refine congrArg (List.map Prod.snd) (List.filter_congr fun c _ => ?_)
  by_cases hc : c.1 = signal'
  · have hne : c ≠ (signal, slot) := by
      intro heq
      exact h (by rw [← hc, heq])
    simp [hc, hne]
  · simp [hc]

end TcpSocket

namespace HttpConnectionHandler

/-! ### The slot that answers to data

An undecided handler has only the slot `read`, one that serves HTTP only `readHttp`, and a WebSocket
neither. -/

/-- The slot `read` waits for data. -/
def Reading (h : HttpConnectionHandler) : Prop :=
  (Signal.readyRead, Slot.read) ∈ h.socket.connections

instance (h : HttpConnectionHandler) : Decidable h.Reading := by
  unfold Reading
  infer_instance

/-- The type of a handler and the slots connected to its socket belong together. -/
structure Tidy (server : Server) (h : HttpConnectionHandler) : Prop where
  typed : h.webSocket.isSome = true ↔ h.type = .webSocket
  wired : h.Wired
  undecided : h.type = .undefined → ∀ slot ∈ h.socket.slots .readyRead, slot = .read
  http : h.type = .http → h.socket.slots .readyRead = [.readHttp]
  taken : h.type = .webSocket → h.socket.slots .readyRead = [] ∧ ¬ h.Watched
  quiet : server.ssl = true → h.socket.encrypted = false → h.type = .undefined

/-- Output and parsing keep a handler tidy. -/
theorem Tidy.same {server : Server} {h h' : HttpConnectionHandler} (ht : Tidy server h)
    (hs : SameOutline h h') : Tidy server h' := by
  have hslots : h'.socket.slots .readyRead = h.socket.slots .readyRead := by
    unfold TcpSocket.slots
    rw [hs.connections]
  refine ⟨?_, ?_, ?_, ?_, ?_, ?_⟩
  · rw [hs.webSocket, hs.type]
    exact ht.typed
  · rw [Wired, hs.connections]
    exact ht.wired
  · rw [hs.type, hslots]
    exact ht.undecided
  · rw [hs.type, hslots]
    exact ht.http
  · rw [hs.type, hslots, Watched, hs.connections]
    exact ht.taken
  · rw [hs.type, hs.encrypted]
    exact ht.quiet

theorem Tidy.webSocket_eq_none {server : Server} {h : HttpConnectionHandler} (ht : Tidy server h)
    (htype : h.type ≠ .webSocket) : h.webSocket = none := by
  cases hw : h.webSocket with
  | none => rfl
  | some webSocket => exact absurd (ht.typed.mp (by rw [hw]; rfl)) htype

/-- Where the slot `read` waits, nothing has been decided. -/
theorem Tidy.reading_undefined {server : Server} {h : HttpConnectionHandler} (ht : Tidy server h)
    (hr : h.Reading) : h.type = .undefined := by
  have hmem := mem_slots.mpr hr
  cases htype : h.type with
  | undefined => rfl
  | http =>
      rw [ht.http htype] at hmem
      simp at hmem
  | webSocket =>
      rw [(ht.taken htype).1] at hmem
      cases hmem

/-! ### The slots keep the handler tidy

One lemma for each slot and for each way a connection ends. -/

/-- The slot `disconnected`. -/
theorem Tidy.disconnected {server : Server} {h : HttpConnectionHandler} (ht : Tidy server h) :
    Tidy server h.disconnected := by
  by_cases htype : h.type = .webSocket
  · rw [disconnected_webSocket htype]
    obtain ⟨hslots, -⟩ := ht.taken htype
    refine ⟨⟨fun hc => (nomatch hc), fun hc => (nomatch hc)⟩, ht.wired, fun _ slot hslot => ?_,
      fun hc => (nomatch hc), fun hc => (nomatch hc), fun _ _ => rfl⟩
    have hnone : slot ∈ h.socket.slots .readyRead := hslot
    rw [hslots] at hnone
    cases hnone
  · rw [disconnected_http htype]
    refine ⟨?_, fun slot hslot => (nomatch hslot), fun _ slot hslot => (nomatch hslot),
      fun hc => (nomatch hc), fun hc => (nomatch hc), fun _ _ => rfl⟩
    show h.webSocket.isSome = true ↔ HandlerType.undefined = .webSocket
    rw [ht.webSocket_eq_none htype]
    exact ⟨fun hc => (nomatch hc), fun hc => (nomatch hc)⟩

/-- **The end of a connection** runs the slot `disconnected` once, or nobody notices it. -/
theorem Tidy.emitDisconnected_eq {server : Server} {h : HttpConnectionHandler}
    (ht : Tidy server h) :
    h.emitDisconnected =
      if h.webSocket.isSome = true ∨ h.Watched then h.disconnected else h := by
  cases hw : h.webSocket with
  | some webSocket =>
      have hsome : h.webSocket.isSome = true := by
        rw [hw]
        rfl
      have htype := ht.typed.mp hsome
      -- the WebSocket calls the slot, the socket is not connected to it any more
      have hunwatched : ¬ h.disconnected.Watched := by
        rw [disconnected_webSocket htype]
        exact (ht.taken htype).2
      have hnone : h.disconnected.webSocket = none := by
        rw [disconnected_webSocket htype]
      rw [emitDisconnected_webSocket hsome htype,
        emitDisconnected_unwatched hnone ht.disconnected.wired hunwatched]
      exact (if_pos (.inl rfl)).symm
  | none =>
      have htype : h.type ≠ .webSocket := by
        intro htype
        have hsome := ht.typed.mpr htype
        rw [hw] at hsome
        cases hsome
      by_cases hwatched : h.Watched
      · rw [if_pos (.inr hwatched)]
        exact emitDisconnected_http hw htype hwatched
      · rw [if_neg]
        · exact emitDisconnected_unwatched hw ht.wired hwatched
        · exact fun hc => hc.elim (fun hsome => nomatch hsome) hwatched

theorem Tidy.onState {server : Server} {h : HttpConnectionHandler} (ht : Tidy server h)
    (state : SocketState) : Tidy server (h.onSocket fun s => { s with state := state }) :=
  ⟨ht.typed, ht.wired, ht.undecided, ht.http, ht.taken, ht.quiet⟩

/-- The end of the connection. -/
theorem Tidy.becomeUnconnected {server : Server} {h : HttpConnectionHandler} (ht : Tidy server h) :
    Tidy server h.becomeUnconnected :=
  emitDisconnected_inv (I := Tidy server) Tidy.disconnected (ht.onState .unconnected)

/-- The device of a handler that has not decided yet is closed. -/
theorem closeSocket_undefined {h : HttpConnectionHandler} (htype : h.type = .undefined) :
    h.closeSocket.type = .undefined ∧ h.closeSocket.socket.encrypted = h.socket.encrypted := by
  refine disconnectFromHost_inv (I := fun g => g.type = .undefined ∧
    g.socket.encrypted = h.socket.encrypted) ⟨htype, rfl⟩ (fun _ => ⟨htype, rfl⟩) fun _ => ?_
  refine emitDisconnected_inv (I := fun g => g.type = .undefined ∧
    g.socket.encrypted = h.socket.encrypted) ?_ ⟨htype, rfl⟩
  intro g hg
  obtain ⟨hgtype, hgenc⟩ := hg
  refine ⟨rfl, ?_⟩
  rw [disconnected_http (by rw [hgtype]; exact HandlerType.noConfusion)]
  exact hgenc

/-- The decision for HTTP. -/
theorem Tidy.becomeHttp {server : Server} {h : HttpConnectionHandler} (ht : Tidy server h)
    (htype : h.type = .undefined) (hencrypted : Encrypted server h) : Tidy server h.becomeHttp := by
  have hnone : h.webSocket = none := ht.webSocket_eq_none
      (by rw [htype]; exact HandlerType.noConfusion)
  have hslots : (h.socket.slots .readyRead).filter (· ≠ .read) = [] := by
    refine List.filter_eq_nil_iff.mpr fun slot hslot => ?_
    simp [ht.undecided htype slot hslot]
  refine ⟨?_, ?_, fun hc => (nomatch hc), fun _ => ?_, fun hc =>
    (nomatch hc), fun hssl hplain => ?_⟩
  · show h.webSocket.isSome = true ↔ HandlerType.http = .webSocket
    rw [hnone]
    exact ⟨fun hc => (nomatch hc), fun hc => (nomatch hc)⟩
  · intro slot hslot
    rw [becomeHttp_connections] at hslot
    rcases hslot with ⟨hold, -⟩ | hnew
    · exact ht.wired slot hold
    · cases hnew
  · show ((h.socket.disconnect .readyRead .read).connect .readyRead .readHttp).slots .readyRead = _
    rw [TcpSocket.slots_connect, TcpSocket.slots_disconnect_self, hslots]
    rfl
  · exact absurd (hplain.symm.trans (hencrypted hssl)) Bool.false_ne_true

/-- The decision for a WebSocket. -/
theorem Tidy.becomeWebSocket {server : Server} {h : HttpConnectionHandler} (ht : Tidy server h)
    (htype : h.type = .undefined) (hencrypted : Encrypted server h) :
    Tidy server h.becomeWebSocket := by
  have hslots : (h.socket.slots .readyRead).filter (· ≠ .read) = [] := by
    refine List.filter_eq_nil_iff.mpr fun slot hslot => ?_
    simp [ht.undecided htype slot hslot]
  refine ⟨⟨fun _ => rfl, fun _ => rfl⟩, ?_, fun hc => (nomatch hc), fun hc => (nomatch hc),
    fun _ => ⟨?_, ?_⟩, fun hssl hplain => ?_⟩
  · intro slot hslot
    rw [becomeWebSocket_connections] at hslot
    exact ht.wired slot hslot.1.1
  · show ((h.socket.disconnect .readyRead .read).disconnect .disconnected .disconnected).slots
      .readyRead = []
    rw [TcpSocket.slots_disconnect_other Signal.noConfusion,
      TcpSocket.slots_disconnect_self, hslots]
  · rw [Watched, becomeWebSocket_connections]
    exact fun hc => hc.2 rfl
  · exact absurd (hplain.symm.trans (hencrypted hssl)) Bool.false_ne_true

/-- The end of the TLS handshake. -/
theorem Tidy.emitEncrypted {server : Server} {h : HttpConnectionHandler} (ht : Tidy server h)
    (htype : h.type = .undefined) : Tidy server h.emitEncrypted := by
  have hnone : h.webSocket = none := ht.webSocket_eq_none
      (by rw [htype]; exact HandlerType.noConfusion)
  have hsame : h.emitEncrypted.type = .undefined ∧ h.emitEncrypted.webSocket = none := by
    rw [emitEncrypted_eq]
    exact ⟨htype, hnone⟩
  refine ⟨?_, ?_, fun _ slot hslot => ?_, fun hc => ?_, fun hc => ?_, fun _ _ => hsame.1⟩
  · rw [hsame.1, hsame.2]
    exact ⟨fun hc => (nomatch hc), fun hc => (nomatch hc)⟩
  · intro slot hslot
    rw [mem_emitEncrypted] at hslot
    rcases hslot with hold | ⟨-, hread | hnew⟩
    · exact ht.wired slot hold
    · cases hread
    · exact congrArg Prod.snd hnew
  · have hmem := mem_slots.mp hslot
    rw [mem_emitEncrypted] at hmem
    rcases hmem with hold | ⟨-, hread | hnew⟩
    · exact ht.undecided htype slot (mem_slots.mpr hold)
    · exact congrArg Prod.snd hread
    · cases hnew
  · cases hsame.1.symm.trans hc
  · cases hsame.1.symm.trans hc

/-! ### What answers `readyRead()`

The slot `read` may be connected twice. It decides at its first run, and the second does not take
place, since it was disconnected. -/

/-- HTTP requests do not make a handler wait for its first data again. -/
theorem readHttp_not_reading {server : Server} {n : Nat} {h h' : HttpConnectionHandler}
    (hrun : h.readHttp server n = some h') (hr : ¬ h.Reading) : ¬ h'.Reading := by
  refine readHttp_keeps (I := fun g => ¬ g.Reading) ?_ ?_ hrun hr
  · intro g g' hg hs
    rw [Reading, hs.connections]
    exact hg
  · intro g hg
    refine disconnectFromHost_inv (I := fun g => ¬ g.Reading) hg (fun _ => hg) fun _ => ?_
    refine emitDisconnected_inv (I := fun g => ¬ g.Reading) ?_ hg
    intro g hg
    exact disconnected_inv (I := fun g => ¬ g.Reading) hg List.not_mem_nil

/-- The slot `read` decides when it finds a line, and does not wait for data any more. -/
theorem read_decided {server : Server} {n : Nat} {h h' : HttpConnectionHandler}
    (hrun : h.read server n = some h') (hline : LF ∈ h.socket.readBuffer) : ¬ h'.Reading := by
  have hhttp : ∀ g : HttpConnectionHandler, ¬ g.becomeHttp.Reading := by
    intro g
    rw [Reading, becomeHttp_connections]
    simp
  rw [read_eq, if_neg (not_not.mpr hline)] at hrun
  split at hrun
  · split at hrun
    · cases hrun
      rw [Reading, becomeWebSocket_connections]
      exact fun hreading => hreading.1.2 rfl
    · exact readHttp_not_reading hrun (hhttp _)
  · exact readHttp_not_reading hrun (hhttp _)

/-- The slot `read`, once it has decided, does not wait for data any more. -/
theorem read_once {server : Server} {n : Nat} {h h' : HttpConnectionHandler}
    (hrun : h.read server n = some h') (hreading : h'.Reading) : h' = h := by
  by_cases hline : LF ∈ h.socket.readBuffer
  · exact absurd hreading (read_decided hrun hline)
  · rw [read_eq, if_pos hline] at hrun
    exact (Option.some.inj hrun).symm

/-- However often the slot `read` is connected, it decides once. -/
theorem foldlM_read {server : Server} {n : Nat} {slots : List Slot}
    (hall : ∀ slot ∈ slots, slot = .read) {h : HttpConnectionHandler}
    (hread : h.Reading → h.read server n = some h) :
    slots.foldlM (fun h slot => if (Signal.readyRead, slot) ∈ h.socket.connections then
      h.runSlot server n slot else some h) h = some h := by
  induction slots with
  | nil => rfl
  | cons slot slots ih =>
      obtain ⟨rfl, hrest⟩ := List.forall_mem_cons.mp hall
      -- a second call finds the first line decided, or no line
      have hone : (if (Signal.readyRead, Slot.read) ∈ h.socket.connections then
          h.runSlot server n .read else some h) = some h := by
        split
        · next hr => exact hread hr
        · rfl
      rw [List.foldlM_cons, hone]
      exact ih hrest

/-- **What answers to data** is decided by the type of the handler. -/
theorem Tidy.emitReadyRead {server : Server} {n : Nat} {h : HttpConnectionHandler}
    (ht : Tidy server h) :
    h.emitReadyRead server n =
      if h.type = .http then h.readHttp server n
      else if h.Reading then h.read server n else some h := by
  unfold HttpConnectionHandler.emitReadyRead
  cases htype : h.type with
  | http =>
      have hslots := ht.http htype
      have hmem : (Signal.readyRead, Slot.readHttp) ∈ h.socket.connections :=
        mem_slots.mp (by rw [hslots]; exact List.mem_singleton_self _)
      rw [hslots, if_pos rfl, List.foldlM_cons, if_pos hmem]
      exact Option.bind_fun_some _
  | webSocket =>
      have hquiet : ¬ h.Reading := by
        intro hr
        cases htype.symm.trans (ht.reading_undefined hr)
      rw [(ht.taken htype).1, if_neg HandlerType.noConfusion, if_neg hquiet]
      rfl
  | undefined =>
      rw [if_neg HandlerType.noConfusion]
      have hall := ht.undecided htype
      split
      · next hr =>
          cases hslots : h.socket.slots .readyRead with
          | nil =>
              have hmem := mem_slots.mpr hr
              rw [hslots] at hmem
              cases hmem
          | cons slot slots =>
              rw [hslots] at hall
              obtain ⟨rfl, hrest⟩ := List.forall_mem_cons.mp hall
              have hmem : (Signal.readyRead, Slot.read) ∈ h.socket.connections := hr
              rw [List.foldlM_cons, if_pos hmem]
              show (h.read server n).bind _ = h.read server n
              -- the other connections of the slot do not count
              cases hrun : h.read server n with
              | none => rfl
              | some h' =>
                  refine foldlM_read hrest fun hr' => ?_
                  obtain rfl := read_once hrun hr'
                  exact hrun
      · next hr => exact foldlM_read hall fun hr' => absurd hr' hr

end HttpConnectionHandler

end QtWebApp
