import QtWebApp.Connection.Reuse
import QtWebApp.Parsing.Head

/-!
# QtWebApp.Connection.Detection

Which connections become WebSockets.

The slot `read` decides once, when the first line is complete, and looks at whatever has arrived
by then: a header that comes in a later segment is not seen, and any other text of the same
spelling is.

`Detects` says what a client relies on: the upgrade is tried when it is asked for, and HTTP is
served when it is not. What the slot makes of the upgrade afterwards is left to the library, and not
part of this.
-/

namespace QtWebApp

open Bytes

/-- The request asks for a WebSocket. -/
def RequestHead.AsksWebSocket (head : RequestHead) : Prop :=
  trimmed head.method = ascii "GET" ∧
    ∃ v ∈ head.headers.values (ascii "upgrade"), toLower v = ascii "websocket"

instance (head : RequestHead) : Decidable head.AsksWebSocket := by
  unfold RequestHead.AsksWebSocket
  infer_instance

namespace HttpConnectionHandler

/-- A connection is opened: a descriptor is handed over, and the TLS handshake is made if there
is one. -/
def opened (server : Server) (h : HttpConnectionHandler) : HttpConnectionHandler :=
  if server.ssl then (h.handleConnection server true).emitEncrypted
  else h.handleConnection server true

/-- A connection that waits for its first line. -/
structure Waiting (server : Server) (h : HttpConnectionHandler) : Prop where
  tidy : Tidy server h
  reading : h.Reading
  connected : h.socket.state ≠ .unconnected
  undecided : LF ∉ h.socket.readBuffer

/-- A connection on which nothing has arrived yet. -/
structure Untouched (server : Server) (h : HttpConnectionHandler) : Prop extends
    Waiting server h where
  empty : h.socket.readBuffer = []

/-- The slot `read` runs on the handler `g` while segments arrive. -/
def ReadsOn (server : Server) (n : Nat) (h : HttpConnectionHandler) (segments : List Bytes)
    (g : HttpConnectionHandler) : Prop :=
  ∃ before segment after h', segments = before ++ segment :: after ∧
    h.receiveAll server n before = some h' ∧ h'.socket.state ≠ .unconnected ∧ h'.Reading ∧
      g = h'.arrived segment

/-- The slot `read` takes the branch of the WebSocket. -/
def TriesUpgrade (g : HttpConnectionHandler) : Prop := LF ∈ g.socket.readBuffer ∧ g.AsksUpgrade

/-- The slot `read` takes the branch of HTTP. -/
def TakesHttp (g : HttpConnectionHandler) : Prop := LF ∈ g.socket.readBuffer ∧ ¬ g.AsksUpgrade

/-- The upgrade is tried when it is wanted, and else the connection is an HTTP connection. -/
structure Detects (server : Server) (n : Nat) (h : HttpConnectionHandler) (segments : List Bytes)
    (wanted : Prop) : Prop where
  webSocket : (∃ g, ReadsOn server n h segments g ∧ g.TriesUpgrade) ↔ wanted
  http : (∃ g, ReadsOn server n h segments g ∧ g.TakesHttp) ↔ ¬ wanted

/-- What has arrived with the segment that completes the first line, after `buffer`. -/
def opening (buffer : Bytes) : List Bytes → Bytes
  | [] => buffer
  | segment :: segments =>
      if LF ∈ buffer ++ segment then buffer ++ segment else opening (buffer ++ segment) segments

/-- The first 4096 bytes of the opening begin with `GET ` and have the text of the header in them,
spelled in one way, exactly when the request asks for a WebSocket. -/
structure Telling (head : RequestHead) (segments : List Bytes) : Prop where
  shown : head.AsksWebSocket → ascii "GET " <+: (opening [] segments).take 4096 ∧
    ascii "Upgrade: websocket" <:+: (opening [] segments).take 4096
  hidden : ¬ head.AsksWebSocket → ascii "GET " <+: (opening [] segments).take 4096 →
    ¬ ascii "Upgrade: websocket" <:+: (opening [] segments).take 4096

/-! ### Arriving segments

Until a line feed is there, the slot `read` returns. So it decides on exactly one buffer, and which
one follows from the segments. -/

/-- The first segment arrives. -/
theorem readsOn_cons {server : Server} {n : Nat} {h g : HttpConnectionHandler} {segment : Bytes}
    {segments : List Bytes} (hopen : h.socket.state ≠ .unconnected) (hreading : h.Reading) :
    ReadsOn server n h (segment :: segments) g ↔ g = h.arrived segment ∨
      ∃ h₁, h.receive server n segment = some h₁ ∧ ReadsOn server n h₁ segments g := by
  constructor
  · rintro ⟨before, s, after, h', hsplit, hrun, hopen', hreading', hg⟩
    cases before with
    | nil =>
        obtain ⟨rfl, -⟩ := List.cons.inj hsplit
        cases hrun
        exact .inl hg
    | cons b before =>
        obtain ⟨rfl, hrest⟩ := List.cons.inj hsplit
        obtain ⟨h₁, hfirst, hrun⟩ := Option.bind_eq_some_iff.mp hrun
        exact .inr ⟨h₁, hfirst, before, s, after, h', hrest, hrun, hopen', hreading', hg⟩
  · rintro (rfl | ⟨h₁, hfirst, before, s, after, h', hrest, hrun, hopen', hreading', hg⟩)
    · exact ⟨[], segment, segments, h, rfl, rfl, hopen, hreading, rfl⟩
    · refine ⟨segment :: before, s, after, h', by rw [hrest]; rfl, ?_, hopen', hreading', hg⟩
      rw [receiveAll, List.foldlM_cons, hfirst]
      exact hrun

/-- A handler that has decided stays so while data arrives. -/
theorem receive_not_reading {server : Server} {n : Nat} {h h' : HttpConnectionHandler}
    {segment : Bytes} (hrun : h.receive server n segment = some h') (hr : ¬ h.Reading) :
    ¬ h'.Reading := by
  unfold receive at hrun
  split at hrun
  · cases hrun
    exact hr
  · refine emitReadyRead_keeps (I := fun g => ¬ g.Reading) ?_ hrun hr
    intro g g' slot hg hconn hslot
    cases slot with
    | read => exact absurd hconn hg
    | readHttp => exact readHttp_not_reading hslot hg
    | disconnected | encrypted | sslErrors | preSharedKeyAuthenticationRequired =>
        cases hslot
        exact hg

/-- The slot `read` runs no more once it has decided. -/
theorem not_readsOn {server : Server} {n : Nat} {h g : HttpConnectionHandler} (hr : ¬ h.Reading)
    (segments : List Bytes) : ¬ ReadsOn server n h segments g := by
  rintro ⟨before, s, after, h', -, hrun, -, hreading, -⟩
  induction before generalizing h with
  | nil =>
      cases hrun
      exact hr hreading
  | cons b before ih =>
      obtain ⟨h₁, hfirst, hrun⟩ := Option.bind_eq_some_iff.mp hrun
      exact ih (receive_not_reading hfirst hr) hrun

/-- A segment on a connection that waits. -/
theorem Waiting.receive {server : Server} {n : Nat} {h : HttpConnectionHandler}
    (hw : Waiting server h) (segment : Bytes) :
    h.receive server n segment = (h.arrived segment).read server n := by
  have harrived : Tidy server (h.arrived segment) := hw.tidy.same (arrived_outline h segment)
  have hreading : (h.arrived segment).Reading := hw.reading
  have hundefined := harrived.reading_undefined hreading
  rw [receive_open hw.connected, harrived.emitReadyRead, hundefined,
    if_neg HandlerType.noConfusion, if_pos hreading]

/-- As long as the first line is not complete the connection waits on. -/
theorem Waiting.arrived {server : Server} {h : HttpConnectionHandler} (hw : Waiting server h)
    {segment : Bytes} (hline : LF ∉ h.socket.readBuffer ++ segment) :
    Waiting server (h.arrived segment) :=
  ⟨hw.tidy.same (arrived_outline h segment), hw.reading, hw.connected, hline⟩

/-- **One decision.** The slot `read` finds a complete line once, and what it finds with it is the
opening. -/
theorem Waiting.reads_opening {server : Server} {n : Nat} {segments : List Bytes}
    {h : HttpConnectionHandler} (hw : Waiting server h)
    (hline : LF ∈ h.socket.readBuffer ++ segments.flatten) (P : Bytes → Prop) :
    (∃ g, ReadsOn server n h segments g ∧ LF ∈ g.socket.readBuffer ∧ P g.socket.readBuffer) ↔
      P (opening h.socket.readBuffer segments) := by
  induction segments generalizing h with
  | nil =>
      rw [List.flatten_nil, List.append_nil] at hline
      exact absurd hline hw.undecided
  | cons segment segments ih =>
      have hbuffer : (h.arrived segment).socket.readBuffer = h.socket.readBuffer ++ segment := rfl
      have hcons : ∀ g, ReadsOn server n h (segment :: segments) g ↔ _ :=
        fun g => readsOn_cons hw.connected hw.reading
      rw [opening]
      split
      · next hfirst =>
          constructor
          · rintro ⟨g, hreads, hg, hP⟩
            rcases (hcons g).mp hreads with rfl | ⟨h₁, hrun, hlater⟩
            · exact hP
            · rw [hw.receive] at hrun
              exact absurd hlater (not_readsOn (read_decided hrun hfirst) segments)
          · intro hP
            exact ⟨h.arrived segment, (hcons _).mpr (.inl rfl), hfirst, hP⟩
      · next hnone =>
          have hwaits := hw.arrived hnone
          have hreceive : h.receive server n segment = some (h.arrived segment) := by
            rw [hw.receive, read_eq]
            exact if_pos hnone
          rw [List.flatten_cons, ← List.append_assoc] at hline
          rw [← hbuffer, ← ih hwaits hline]
          constructor
          · rintro ⟨g, hreads, hg, hP⟩
            rcases (hcons g).mp hreads with rfl | ⟨h₁, hrun, hlater⟩
            · exact absurd hg hnone
            · rw [hreceive] at hrun
              cases hrun
              exact ⟨g, hlater, hg, hP⟩
          · rintro ⟨g, hreads, hg, hP⟩
            exact ⟨g, (hcons g).mpr (.inr ⟨_, hreceive, hreads⟩), hg, hP⟩

/-- What is detected is a matter of the opening. -/
theorem Untouched.detects_opening {server : Server} {n : Nat} {h : HttpConnectionHandler}
    (hu : Untouched server h) {segments : List Bytes} (hline : LF ∈ segments.flatten)
    (wanted : Prop) :
    Detects server n h segments wanted ↔
      (looksLikeUpgrade ((opening [] segments).take 4096) = true ↔ wanted) := by
  have hfirst : LF ∈ h.socket.readBuffer ++ segments.flatten := by
    rw [hu.empty]
    exact hline
  have hyes := hu.reads_opening (n := n) hfirst fun b => looksLikeUpgrade (b.take 4096) = true
  have hno := hu.reads_opening (n := n) hfirst fun b => ¬ looksLikeUpgrade (b.take 4096) = true
  rw [hu.empty] at hyes hno
  constructor
  · intro hdetects
    exact hyes.symm.trans hdetects.webSocket
  · intro hiff
    exact ⟨hyes.trans hiff, hno.trans (not_congr hiff)⟩

/-- The text by which an upgrade is recognised. -/
theorem looksLikeUpgrade_iff (line : Bytes) :
    looksLikeUpgrade line = true ↔ ascii "GET " <+: line ∧
      ascii "Upgrade: websocket" <:+: line := by
  rw [looksLikeUpgrade, Bool.and_eq_true, startsWith_iff, containsText_iff]

/-! ### New connections

What the theorems assume of a handler holds of every free one that gets a connection. -/

/-- A connection that a free handler has just opened is untouched. -/
theorem Ordered.untouched {server : Server} {h : HttpConnectionHandler} (ho : Ordered server h)
    (hfree : h.Free) : Untouched server (h.opened server) := by
  have htidy := (ho.handleConnection hfree true).tidy
  obtain ⟨-, htype, -, hconnections⟩ := handleConnection_outline server true hfree.state
  have hsocket : (h.handleConnection server true).socket.state = .connected ∧
      (h.handleConnection server true).socket.readBuffer = [] := by
    rw [handleConnection_good hfree.state]
    exact ⟨rfl, rfl⟩
  have hundefined := htype.trans hfree.type
  unfold opened
  generalize h.handleConnection server true = g at htidy hconnections hsocket hundefined
  have hopen : g.socket.state ≠ .unconnected := by
    rw [hsocket.1]
    exact SocketState.noConfusion
  have hnoLine : LF ∉ g.socket.readBuffer := by
    rw [hsocket.2]
    exact List.not_mem_nil
  unfold firstConnections at hconnections
  split
  · next hssl =>
      rw [if_pos hssl] at hconnections
      -- with TLS the slots are connected when the handshake is over
      have hstarts : (Signal.encrypted, Slot.encrypted) ∈ g.socket.connections := by
        rw [hconnections]
        simp
      have hreading : g.emitEncrypted.Reading :=
        mem_emitEncrypted.mpr (.inr ⟨List.ne_nil_of_mem (mem_slots.mpr hstarts), .inl rfl⟩)
      have hkept := emitEncrypted_eq g
      refine ⟨⟨htidy.emitEncrypted hundefined, hreading, ?_, ?_⟩, ?_⟩
      · rw [hkept]
        exact hopen
      · rw [hkept]
        exact hnoLine
      · rw [hkept]
        exact hsocket.2
  · next hplain =>
      rw [if_neg hplain] at hconnections
      have hreading : g.Reading := by
        rw [Reading, hconnections]
        simp
      exact ⟨⟨htidy, hreading, hopen, hnoLine⟩, hsocket.2⟩

/-! ### Detection

What the slot sees are the first 4096 bytes of that buffer, and what it looks for is a piece of
text. -/

/-- **When detection works.** -/
theorem detects_iff {server : Server} {n : Nat} {h : HttpConnectionHandler}
    (hu : Untouched server h) (head : RequestHead) (rest : Bytes) (segments : List Bytes)
    (hcut : segments.flatten = head.bytes ++ rest) :
    Detects server n h segments head.AsksWebSocket ↔ Telling head segments := by
  have hline : LF ∈ segments.flatten := by
    rw [hcut]
    simp [RequestHead.bytes]
  rw [hu.detects_opening hline, looksLikeUpgrade_iff]
  constructor
  · intro hiff
    exact ⟨hiff.mpr, fun hnot hget htext => hnot (hiff.mp ⟨hget, htext⟩)⟩
  · intro htelling
    refine ⟨fun hlooks => ?_, htelling.shown⟩
    by_contra hnot
    exact htelling.hidden hnot hlooks.1 hlooks.2

/-- The head of a WebSocket handshake. -/
def handshakeHead : RequestHead where
  first := ascii "GET /chat HTTP/1.1\r"
  method := ascii "GET"
  path := ascii "/chat"
  version := ascii "HTTP/1.1"
  lines := [ascii "Host: a\r", ascii "Upgrade: websocket\r", ascii "Connection: Upgrade\r"]
  last := [CR]
  first_line := by decide
  first_split := by decide +kernel
  first_http := RequestHead.ascii_http
  lines_line := by decide
  lines_text := by decide
  last_line := RequestHead.blank_line
  last_blank := RequestHead.trimmed_blank

theorem handshakeHead_asks : handshakeHead.AsksWebSocket := by decide +kernel

/-- A handshake that arrives in one segment. -/
theorem detects_iff_whole :
    Detects (plainServer defaultSettings) 0 (new.opened (plainServer defaultSettings))
      [handshakeHead.bytes] handshakeHead.AsksWebSocket := by
  have huntouched := (ordered_new (plainServer defaultSettings)).untouched free_new
  have htelling : Telling handshakeHead [handshakeHead.bytes] := by
    refine ⟨fun _ => ?_, fun hnot => absurd handshakeHead_asks hnot⟩
    rw [← looksLikeUpgrade_iff]
    decide +kernel
  exact (detects_iff huntouched handshakeHead [] [handshakeHead.bytes] (by simp)).mpr htelling

/-- A handshake the first line of which arrives before the rest. -/
theorem not_detects_cut :
    ¬ ∀ (server : Server) (n : Nat) (h : HttpConnectionHandler), Untouched server h →
      ∀ (head : RequestHead) (rest : Bytes) (segments : List Bytes),
        segments.flatten = head.bytes ++ rest → (head.bytes ++ rest).length ≤ 4096 →
          Detects server n h segments head.AsksWebSocket := by
  intro hall
  have huntouched := (ordered_new (plainServer defaultSettings)).untouched free_new
  have hcut : [handshakeHead.bytes.take 20, handshakeHead.bytes.drop 20].flatten =
      handshakeHead.bytes ++ [] := by simp
  have hdetects := hall _ 0 _ huntouched handshakeHead [] _ hcut (by decide +kernel)
  have hmem : LF ∈ [handshakeHead.bytes.take 20, handshakeHead.bytes.drop 20].flatten := by
    decide +kernel
  have hlooks := ((huntouched.detects_opening hmem _).mp hdetects).mpr handshakeHead_asks
  exact absurd hlooks (by decide +kernel)

end HttpConnectionHandler

end QtWebApp
