import QtWebApp.WebSockets.Endpoint

/-!
# QtWebApp.WebSockets.WebSocketConnection

The two ends of a connection.

An end gets the bytes that the other end has written, in their order and in pieces of any size, each
at any time. Apart from that, anything may happen at either end in any order: calls, reads, waits
that time out, the end of the connection. The theorems say what the ends know of each other in every
such run.

No theorem asks that the network is fast or fair. What is said about an end that is up to date
assumes that nothing is on the way to it and that it has read what it has; `deliver` leads there
from every state.

The two directions of a connection do not depend on each other, so the invariant is about one end
and what the other one has written (`Direction`), and each theorem reads off what it needs from it.
-/

namespace QtWebApp

open QWebSocketProtocol Utf8 QWebSocketDataProcessor QWebSocketFrame

/-- The ends of a connection. -/
inductive Side
  | client | server
  deriving DecidableEq, Repr

namespace Side

/-- The other end. -/
def other : Side → Side
  | client => server
  | server => client

@[simp] theorem other_other (side : Side) : side.other.other = side := by
  cases side <;> rfl

theorem other_ne (side : Side) : side.other ≠ side := by
  cases side <;> decide

theorem eq_or_eq_other (side side' : Side) : side' = side ∨ side' = side.other := by
  cases side <;> cases side' <;> decide

end Side

/-- The signal is about a complete message. -/
def WebSocketSignal.isMessage : WebSocketSignal → Bool
  | .textMessageReceived _ | .binaryMessageReceived _ => true
  | _ => false

/-- The signal that a message leads to at the other end. -/
def Transmission.messageSignal : Transmission → Option WebSocketSignal
  | .text message => some (.textMessageReceived (scrub message))
  | .binary data => some (.binaryMessageReceived data)
  | _ => none

/-- The data of a pong that is announced. -/
def WebSocketSignal.pongData : WebSocketSignal → Option Bytes
  | .pong payload => some payload
  | _ => none

/-- The data of a pong that is sent. -/
def Transmission.pongData : Transmission → Option Bytes
  | .pong payload => some payload
  | _ => none

/-- The data of a ping that is sent. -/
def Transmission.pingData : Transmission → Option Bytes
  | .ping payload => some payload
  | _ => none

/-- Two ends, and how many of the bytes that the other end has written have arrived. -/
structure WebSocketConnection where
  ends : Side → QWebSocket
  arrived : Side → Nat

namespace WebSocketConnection

/-- The connection after the handshake. -/
def established : WebSocketConnection where
  ends side := .connected (side == .client)
  arrived _ := 0

/-- The bytes on their way to an end. -/
def onTheWay (c : WebSocketConnection) (side : Side) : Bytes :=
  (c.ends side.other).written.drop (c.arrived side)

/-- Something happens at one of the ends. Only what is on the way can arrive. -/
def step (apps : Side → Application) (c : WebSocketConnection) (m : Side × QWebSocket.Event) :
    WebSocketConnection :=
  if m.2.data <+: c.onTheWay m.1 then
    { ends := Function.update c.ends m.1 ((c.ends m.1).occur (apps m.1) m.2)
      arrived := Function.update c.arrived m.1 (c.arrived m.1 + m.2.data.length) }
  else c

/-- A run of the connection. -/
def run (apps : Side → Application) (moves : List (Side × QWebSocket.Event)) :
    WebSocketConnection :=
  moves.foldl (step apps) established

/-! ### The invariant

A step concerns one end. What it writes is added to what is on the way to the other end, of which a
part has arrived already; so the other end stays as sane as it was. -/

/-- Each end is sane about what has arrived of what the other end has written. -/
structure Good (patient : Side → Prop) (c : WebSocketConnection) : Prop where
  sane : ∀ side, (c.ends side).Sane (fun _ _ => True) (patient side)
    ((c.ends side.other).written.take (c.arrived side)) []
  settled : ∀ side, (c.ends side).Settled
  arrived_le : ∀ side, c.arrived side ≤ (c.ends side.other).written.length

/-- Nothing has been written or read. -/
theorem good_established : Good (fun _ => True) established where
  sane side := (QWebSocket.connected_sane (side == .client)).1
  settled side := (QWebSocket.connected_sane (P := fun _ _ => True) (side == .client)).2
  arrived_le _ := Nat.le_refl 0

/-- **A step of the connection.** -/
theorem step_good (apps : Side → Application) {patient : Side → Prop} {c : WebSocketConnection}
    (h : Good patient c) (m : Side × QWebSocket.Event) :
    Good (fun side => patient side ∧ m ≠ (side, .timeOut)) (step apps c m) := by
  obtain ⟨side, e⟩ := m
  unfold step
  split
  · next hdata =>
      dsimp only at hdata ⊢
      obtain ⟨hsane, hsettled⟩ := QWebSocket.occur_sane (apps side).allows_true (h.sane side)
        (h.settled side) (e := e) fun _ _ _ _ _ => trivial
      obtain ⟨more, hmore⟩ := hsane.written
      have hinput : (c.ends side.other).written.take (c.arrived side + e.data.length) =
          (c.ends side.other).written.take (c.arrived side) ++ e.data := by
        rw [List.take_add]
        exact congrArg (_ ++ ·) (List.prefix_iff_eq_take.mp hdata).symm
      have hlen : c.arrived side + e.data.length ≤ (c.ends side.other).written.length := by
        have hle := hdata.length_le
        rw [onTheWay, List.length_drop] at hle
        have harrived := h.arrived_le side
        omega
      have hother : side.other ≠ side := side.other_ne
      refine ⟨fun side' => ?_, fun side' => ?_, fun side' => ?_⟩ <;> dsimp only
      · rcases side.eq_or_eq_other side' with rfl | rfl
        · rw [Function.update_self, Function.update_self, Function.update_of_ne hother, hinput]
          have hpatient : patient side' ∧ (side', e) ≠ (side', .timeOut) →
              patient side' ∧ e ≠ .timeOut :=
            fun hp => ⟨hp.1, fun he => hp.2 (by rw [he])⟩
          have hmono := hsane.mono hpatient
          exact ⟨hmono.outgoing, hmono.answers, hmono.closes, List.nil_prefix, hmono.incoming⟩
        · rw [Function.update_of_ne hother, Function.update_of_ne hother, Side.other_other,
            Function.update_self, ← hmore]
          have harrived := h.arrived_le side.other
          have hpeer := h.sane side.other
          rw [Side.other_other] at harrived hpeer
          rw [List.take_append_of_le_length harrived]
          exact hpeer.mono And.left
      · rcases side.eq_or_eq_other side' with rfl | rfl
        · rw [Function.update_self]
          exact hsettled
        · rw [Function.update_of_ne hother]
          exact h.settled side.other
      · rcases side.eq_or_eq_other side' with rfl | rfl
        · rw [Function.update_self, Function.update_of_ne hother]
          exact hlen
        · rw [Function.update_of_ne hother, Side.other_other, Function.update_self, ← hmore,
            List.length_append]
          have harrived := h.arrived_le side.other
          rw [Side.other_other] at harrived
          exact Nat.le_add_right_of_le harrived
  · exact ⟨fun side => (h.sane side).mono And.left, h.settled, h.arrived_le⟩

/-- **A run of the connection** keeps the invariant. -/
theorem run_good (apps : Side → Application) (moves : List (Side × QWebSocket.Event)) :
    Good (fun side => (side, .timeOut) ∉ moves) (run apps moves) := by
  induction moves using List.reverseRecOn with
  | nil => exact ⟨fun side => (good_established.sane side).mono fun _ => trivial,
      good_established.settled, good_established.arrived_le⟩
  | append_singleton moves m ih =>
      have hstep := step_good apps ih m
      have hrun : run apps (moves ++ [m]) = step apps (run apps moves) m := List.foldl_concat ..
      rw [hrun]
      refine ⟨fun side => (hstep.sane side).mono fun hp =>
        ⟨fun hmem => hp (List.mem_append_left _ hmem),
        fun hm => hp ?_⟩, hstep.settled, hstep.arrived_le⟩
      rw [hm]
      exact List.mem_append_right _ (List.mem_singleton_self _)

/-! ### One direction

`a` is the end that sends, `b` the one that receives, and nothing here is about a run. The frames
that `b` has read are the first of those that `a` has written. -/

/-- How far the transmissions of the other end have come: `sent` are those that are frames, the
frames `fs` have been handled, the frames `ws` have not, and behind them there may be a close frame
that is too long. -/
structure Direction (patient : Prop) (a b : QWebSocket) (input pending way : Bytes)
    (fs : List QWebSocketFrame) (sent : List Transmission) (ws : List WireFrame) (tail : Bytes) :
    Prop where
  incoming : b.Incoming patient input fs pending
  frames : ∃ parts, List.Forall₂ QWebSocket.Wire sent parts ∧
    parts.flatten.map WireFrame.frame = fs ++ ws.map WireFrame.frame
  rest : pending ++ way = ws.flatMap WireFrame.bytes ++ tail
  sent_eq : a.sent = sent ∧ tail = [] ∨ ∃ closeCode reason key,
    a.sent = sent ++ [.close closeCode reason] ∧
      125 < (QWebSocket.closeData closeCode reason).length ∧
      tail = QWebSocket.tooLong closeCode reason key

/-- One end has got the first part of what the other one has written. -/
theorem exists_direction {patient : Prop} {a b : QWebSocket} {input pending way : Bytes}
    {fs : List QWebSocketFrame} (ha : a.Outgoing) (hb : b.Incoming patient input fs pending)
    (hall : input ++ way = a.written) :
    ∃ sent ws tail, Direction patient a b input pending way fs sent ws tail := by
  obtain ⟨parts, tail, sent, hparts, hwritten, htail, hsent⟩ := QWebSocket.encodes_wires ha.encodes
  obtain ⟨ws₁, ws₂, hws, hfs, hrest⟩ :=
    QWebSocket.consumed_wires hb.consumed (inOrder_isValid hb.inOrder) (hall.trans hwritten) htail
  refine ⟨sent, ws₂, tail, hb, ⟨parts, hparts, ?_⟩, hrest, hsent⟩
  rw [hws, List.map_append, hfs]

/-- What the invariant says about one direction. -/
theorem Good.direction {patient : Side → Prop} {c : WebSocketConnection} (h : Good patient c)
    (side : Side) : ∃ input pending fs sent ws tail,
      Direction (patient side) (c.ends side.other) (c.ends side) input pending
        (c.onTheWay side) fs sent
        ws tail := by
  obtain ⟨fs, pending, hi⟩ := (h.sane side).incoming
  have hall : (c.ends side.other).written.take (c.arrived side) ++ c.onTheWay side =
      (c.ends side.other).written := List.take_append_drop _ _
  obtain ⟨sent, ws, tail, hd⟩ := exists_direction (h.sane side.other).outgoing hi hall
  exact ⟨_, pending, fs, sent, ws, tail, hd⟩

namespace Direction

variable {patient : Prop} {a b : QWebSocket} {input pending way : Bytes} {fs : List QWebSocketFrame}
  {sent : List Transmission} {ws : List WireFrame} {tail : Bytes}

/-- All frames together are announced as what was sent. -/
theorem announced_eq (h : Direction patient a b input pending way fs sent ws tail) :
    (announced [] (fs ++ ws.map WireFrame.frame)).filter ProcessorSignal.isComplete =
      sent.map Transmission.announcement := by
  obtain ⟨parts, hparts, hframes⟩ := h.frames
  rw [← hframes]
  exact (wires_announced hparts).1

theorem received_eq (h : Direction patient a b input pending way fs sent ws tail) :
    b.received.filter ProcessorSignal.isComplete =
      (announced [] fs).filter ProcessorSignal.isComplete := by
  rw [← h.incoming.received, List.filter_filter]
  refine List.filter_congr fun s _ => ?_
  cases hs : s.isComplete with
  | false => rfl
  | true => rw [ProcessorSignal.not_isError_of_isComplete hs]; rfl

theorem sent_prefix (h : Direction patient a b input pending way fs sent ws tail) :
    sent <+: a.sent := by
  rcases h.sent_eq with ⟨heq, -⟩ | ⟨closeCode, reason, key, heq, -⟩
  · rw [heq]
  · rw [heq]
    exact List.prefix_append _ _

/-- What has been received is the first part of what was sent. -/
theorem received_prefix (h : Direction patient a b input pending way fs sent ws tail) :
    b.received.filter ProcessorSignal.isComplete <+: a.sent.map Transmission.announcement := by
  refine List.IsPrefix.trans ?_ (h.sent_prefix.map Transmission.announcement)
  rw [h.received_eq, ← h.announced_eq, announced_append, List.filter_append]
  exact List.prefix_append _ _

/-- When everything has arrived and has been read, every frame has been handled. -/
theorem finished (h : Direction patient a b input pending [] fs sent ws tail)
    (hopen : b.isOpen = true) (hsettled : b.Settled)
    (hread : b.reading = none → b.readBuffer = []) : ws = [] ∧ a.sent = sent := by
  obtain ⟨-, -, hposition⟩ := h.incoming.listening hopen
  have hnone : parse pending = none := hposition.parse_none hsettled hread
  have hrest := h.rest
  rw [List.append_nil] at hrest
  cases ws with
  | cons w ws =>
      rw [hrest, List.flatMap_cons, List.append_assoc, WireFrame.parse_bytes] at hnone
      cases hnone
  | nil =>
      refine ⟨rfl, ?_⟩
      rcases h.sent_eq with ⟨heq, -⟩ | ⟨closeCode, reason, key, -, hlong, htail⟩
      · exact heq
      · obtain ⟨f, hf⟩ := (QWebSocket.parse_tooLong key hlong).1
        rw [hrest, htail, List.flatMap_nil, List.nil_append, hf] at hnone
        cases hnone

/-- An end that is up to date has received everything. -/
theorem received_all (h : Direction patient a b input pending [] fs sent ws tail)
    (hopen : b.isOpen = true) (hsettled : b.Settled)
    (hread : b.reading = none → b.readBuffer = []) :
    b.received.filter ProcessorSignal.isComplete = a.sent.map Transmission.announcement := by
  obtain ⟨rfl, hsent⟩ := h.finished hopen hsettled hread
  rw [hsent, ← h.announced_eq, h.received_eq]
  exact congrArg (fun l => (announced [] l).filter ProcessorSignal.isComplete)
    (List.append_nil fs).symm

/-- If the other end sends what this end takes, and this end is patient, then it finds no error. -/
theorem no_error (h : Direction patient a b input pending way fs sent ws tail) (hpatient : patient)
    (hfits : ∀ t ∈ a.sent, t.Fits) : ∀ e ∈ b.received, e.isError = false := by
  intro e he
  cases herr : e.isError with
  | false => rfl
  | true =>
      exfalso
      obtain ⟨f, rest, hparse, hbad⟩ := h.incoming.errors hpatient e he herr
      have hmore := parse_append hparse way
      rw [h.rest] at hmore
      cases ws with
      | cons w ws =>
          rw [List.flatMap_cons, List.append_assoc, WireFrame.parse_bytes] at hmore
          obtain ⟨hframe, -⟩ := Prod.mk.inj (Option.some.inj hmore)
          obtain ⟨parts, hparts, hframes⟩ := h.frames
          have hall := wires_inOrder hparts fun t ht => hfits t (h.sent_prefix.subset ht)
          rw [hframes, inOrder_append, List.map_cons, hframe, ← List.singleton_append,
            inOrder_append] at hall
          exact hbad hall.2.1
      | nil =>
          rcases h.sent_eq with ⟨-, htail⟩ | ⟨closeCode, reason, key, heq, hlong, -⟩
          · rw [htail] at hmore
            cases hmore
          · have hfit : (QWebSocket.closeData closeCode reason).length ≤ 125 :=
              hfits (.close closeCode reason) (by rw [heq]; simp)
            omega

/-- What an end makes of the complete things that it receives comes from the other end. -/
theorem filterMap_prefix (h : Direction patient a b input pending way fs sent ws tail) {β : Type}
    (f : ProcessorSignal → Option β) (hf : ∀ s, s.isComplete = false → f s = none) :
    b.received.filterMap f <+: a.sent.filterMap fun t => f t.announcement := by
  have hcomplete : b.received.filterMap f =
      (b.received.filter ProcessorSignal.isComplete).filterMap f := by
    rw [List.filterMap_filter]
    refine List.filterMap_congr fun s _ => ?_
    cases hs : s.isComplete with
    | true => rfl
    | false => rw [hf s hs]; rfl
  have hprefix := h.received_prefix.filterMap f
  rw [List.filterMap_map] at hprefix
  rw [hcomplete]
  exact hprefix

end Direction

/-! ### What the ends know of each other

The main results. All of them are about the state after any sequence of moves, and take the
invariant at one of the two ends. -/

/-- The messages are announced by what has been received completely. -/
theorem messages_received {b : QWebSocket} (h : b.Answers) :
    b.signals.filter WebSocketSignal.isMessage =
    (b.received.filter ProcessorSignal.isComplete).filterMap
      fun s => s.passOn.filter WebSocketSignal.isMessage := by
  have hsignals : b.signals.filter WebSocketSignal.isMessage =
      b.received.filterMap fun s => s.passOn.filter WebSocketSignal.isMessage := by
    rw [← List.filter_filterMap, ← h.signals, List.filter_filter]
    refine List.filter_congr fun s _ => ?_
    cases s <;> rfl
  rw [hsignals, List.filterMap_filter]
  refine List.filterMap_congr fun s _ => ?_
  cases s <;> rfl

/-- Of what is announced, the messages. -/
theorem messages_announced (ts : List Transmission) :
    (ts.map Transmission.announcement).filterMap
    (fun s => s.passOn.filter WebSocketSignal.isMessage) =
      ts.filterMap Transmission.messageSignal := by
  rw [List.filterMap_map]
  refine List.filterMap_congr fun t _ => ?_
  cases t <;> rfl

/-- The messages that an end has announced are the first that the other end has sent. -/
theorem Good.messages {patient : Side → Prop} {c : WebSocketConnection}
    (h : Good patient c) (side : Side) :
    (c.ends side).signals.filter WebSocketSignal.isMessage <+:
      (c.ends side.other).sent.filterMap Transmission.messageSignal := by
  obtain ⟨input, pending, fs, sent, ws, tail, hd⟩ := h.direction side
  rw [messages_received (h.sane side).answers, ← messages_announced]
  exact hd.received_prefix.filterMap _

/-- **Messages.** In every run, the messages that an end has announced are the first messages that
the other end has sent, in their order: none is lost, repeated, changed or made up. A text arrives
without its lone surrogates. -/
theorem messages_prefix (apps : Side → Application)
    (moves : List (Side × QWebSocket.Event)) (side : Side) :
    ((run apps moves).ends side).signals.filter WebSocketSignal.isMessage <+:
      ((run apps moves).ends side.other).sent.filterMap Transmission.messageSignal :=
  (run_good apps moves).messages side

/-! ### When everything has arrived

Delivering is a run of its own, after which nothing is on the way to an end. So what holds of all
runs holds after it. -/

/-- Everything arrives that is on the way to an end, and the end reads it. -/
def deliver (apps : Side → Application) (c : WebSocketConnection) (side : Side) :
    WebSocketConnection :=
  step apps (step apps c (side, .arrive (c.onTheWay side))) (side, .processData)

/-- Delivering is a part of a run, in which nobody calls anything. -/
theorem deliver_run (apps : Side → Application)
    (moves : List (Side × QWebSocket.Event)) (side : Side) :
    ∃ more, deliver apps (run apps moves) side = run apps (moves ++ more) ∧ ∀ m ∈ more, m.1 = side ∧
      ∀ c, m.2 ≠ .call c := by
  refine ⟨[(side, .arrive ((run apps moves).onTheWay side)), (side, .processData)],
    ?_, fun m hm => ?_⟩
  · unfold run
    rw [List.foldl_append]
    rfl
  · simp only [List.mem_cons, List.not_mem_nil, or_false] at hm
    rcases hm with rfl | rfl
    · exact ⟨rfl, fun _ h => by cases h⟩
    · exact ⟨rfl, fun _ h => by cases h⟩

/-- After that, nothing is on the way, and the end has read what it has. -/
theorem deliver_spec (apps : Side → Application) {c : WebSocketConnection} {side : Side}
    (harrived : c.arrived side ≤ (c.ends side.other).written.length) :
    (deliver apps c side).ends side.other = c.ends side.other ∧
      (deliver apps c side).onTheWay side = [] ∧
      (((deliver apps c side).ends side).reading = none →
        ((deliver apps c side).ends side).readBuffer = []) := by
  obtain ⟨c₁, hc₁⟩ : ∃ c₁, c₁ = step apps c (side, .arrive (c.onTheWay side)) := ⟨_, rfl⟩
  have harrive : c₁ =
      { ends := Function.update c.ends side ((c.ends side).arrive (apps side) (c.onTheWay side))
        arrived := Function.update c.arrived side
          (c.arrived side + (c.onTheWay side).length) } := by
    rw [hc₁]
    exact if_pos (List.prefix_refl _)
  have hprocess : deliver apps c side =
      { ends := Function.update c₁.ends side ((c₁.ends side).occur (apps side) .processData)
        arrived := Function.update c₁.arrived side (c₁.arrived side + 0) } := by
    unfold deliver
    rw [← hc₁]
    exact if_pos List.nil_prefix
  have hother : (deliver apps c side).ends side.other = c.ends side.other := by
    rw [hprocess, harrive]
    simp only [Function.update_of_ne side.other_ne]
  refine ⟨hother, ?_, ?_⟩
  · rw [onTheWay, hother, List.drop_eq_nil_iff, hprocess, harrive]
    simp only [Function.update_self, onTheWay, List.length_drop]
    omega
  · rw [hprocess]
    dsimp only
    rw [Function.update_self]
    unfold QWebSocket.occur
    dsimp only
    split
    · exact QWebSocket.processData_exhausted (apps side) _
    · next hreading => exact fun hnone => absurd hnone hreading

/-- **Nothing is lost.** When everything has arrived and `processData` has run, an end that has not
closed has received everything that the other end has sent. -/
theorem received_eq_sent (apps : Side → Application)
    (moves : List (Side × QWebSocket.Event)) (side : Side)
    (hopen : ((deliver apps (run apps moves) side).ends side).isOpen = true) :
    ((deliver apps (run apps moves) side).ends side).received.filter ProcessorSignal.isComplete =
      ((run apps moves).ends side.other).sent.map Transmission.announcement := by
  obtain ⟨more, hrun, -⟩ := deliver_run apps moves side
  obtain ⟨hother, hway, hread⟩ := deliver_spec apps ((run_good apps moves).arrived_le side)
  have hgood := run_good apps (moves ++ more)
  rw [← hrun] at hgood
  obtain ⟨input, pending, fs, sent, ws, tail, hd⟩ := hgood.direction side
  rw [hway] at hd
  rw [← hother]
  exact hd.received_all hopen (hgood.settled side) hread

/-- A run in which the client sends a text, and more after the text has arrived. -/
def greeting (apps : Side → Application) : List (Side × QWebSocket.Event) :=
  let hello := (Side.client, QWebSocket.Event.call (.sendTextMessage (QString.ofAscii "hello")))
  [hello, (.server, .arrive ((step apps established hello).onTheWay .server)),
    (.client, .call (.sendBinaryMessage [0, 1, 2]))]

theorem received_eq_sent_greeting : let apps := fun _ => Application.silent UInt32.ofNat
    ((deliver apps (run apps (greeting apps)) .server).ends .server).received.filter
      ProcessorSignal.isComplete = ((run apps (greeting apps)).ends .client).sent.map
        Transmission.announcement :=
  received_eq_sent _ _ .server (by decide)

/-- **No errors.** An end never finds fault with what the other end has written, as long as the
other end has sent nothing that is too large and no wait of this end has timed out. -/
theorem no_errors (apps : Side → Application) (moves : List (Side × QWebSocket.Event)) (side : Side)
    (hpatient : (side, .timeOut) ∉ moves)
    (hfits : ∀ t ∈ ((run apps moves).ends side.other).sent, t.Fits) :
    ∀ e ∈ ((run apps moves).ends side).received, e.isError = false := by
  obtain ⟨input, pending, fs, sent, ws, tail, hd⟩ := (run_good apps moves).direction side
  exact hd.no_error hpatient hfits

theorem no_errors_greeting : let apps := fun _ => Application.silent UInt32.ofNat
    ∀ e ∈ ((run apps (greeting apps ++ [(.client, .timeOut), (.server, .processData)])).ends
      .server).received,
      e.isError = false :=
  no_errors _ _ .server (by decide) (by decide)

/-- **Pongs.** The pongs that an end has announced have the data of its first pings, in their
order. -/
theorem pongs_prefix (apps : Side → Application)
    (moves : List (Side × QWebSocket.Event)) (side : Side) :
    ((run apps moves).ends side).signals.filterMap WebSocketSignal.pongData <+:
      ((run apps moves).ends side).sent.filterMap Transmission.pingData := by
  have hgood := run_good apps moves
  obtain ⟨_, _, _, _, _, _, hback⟩ := hgood.direction side
  obtain ⟨_, _, _, _, _, _, hforth⟩ := hgood.direction side.other
  have hsignals := (hgood.sane side).answers.signals
  have hpongs := (hgood.sane side.other).answers.pongs
  rw [Side.other_other] at hforth
  generalize (run apps moves).ends side = a at *
  generalize (run apps moves).ends side.other = b at *
  -- from the pongs that were announced to the pongs that were received
  have hannounced : a.signals.filterMap WebSocketSignal.pongData =
      a.received.filterMap fun s => s.passOn.bind WebSocketSignal.pongData := by
    rw [← List.filterMap_filterMap, ← hsignals, List.filterMap_filter]
    refine List.filterMap_congr fun s _ => ?_
    cases s <;> rfl
  -- to the pongs that the other end has sent
  have hreceived := hback.filterMap_prefix
      (fun s => s.passOn.bind WebSocketSignal.pongData) fun s hs => by
    cases s <;> first | rfl | cases hs
  have hsent : (b.sent.filterMap fun t => t.announcement.passOn.bind WebSocketSignal.pongData) =
      (b.sent.filter Transmission.isPong).filterMap Transmission.pongData := by
    rw [List.filterMap_filter]
    refine List.filterMap_congr fun t _ => ?_
    cases t <;> rfl
  -- to the pings that it has received
  have hanswered := hpongs.filterMap Transmission.pongData
  have hpings : (b.received.filterMap ProcessorSignal.answer).filterMap Transmission.pongData =
      b.received.filterMap fun s => s.answer.bind Transmission.pongData := List.filterMap_filterMap
  -- and to the pings that this end has sent
  have hforth := hforth.filterMap_prefix (fun s => s.answer.bind Transmission.pongData)
      fun s hs => by
    cases s <;> first | rfl | cases hs
  have hown : (fun t : Transmission => t.announcement.answer.bind Transmission.pongData) =
      Transmission.pingData := by
    funext t
    cases t <;> rfl
  rw [hannounced]
  rw [hsent] at hreceived
  rw [hpings] at hanswered
  rw [hown] at hforth
  exact (hreceived.trans hanswered).trans hforth

/-- **The closing handshake.** Each end sends at most one close frame, and nothing after it. If an
end has received one, then it has received everything that the other end has sent. Its close code
and reason are what it reads in the payload; that is the code and the reason of the other end, if
the code is valid and the reason does not begin with a byte order mark. -/
theorem closing_handshake (apps : Side → Application) (moves : List (Side × QWebSocket.Event))
    (side : Side) :
    let a := (run apps moves).ends side.other
    let b := (run apps moves).ends side
    (∀ t ∈ b.sent, t.isClose = true → ∃ l, b.sent = l ++ [t] ∧ ∀ t' ∈ l, t'.isClose = false) ∧
    (b.isClosingHandshakeReceived = true →
      a.isClosingHandshakeSent = true ∧ b.isClosingHandshakeSent = true ∧
      b.received.filter ProcessorSignal.isComplete = a.sent.map Transmission.announcement ∧
      (b.closeCode, b.closeReason) = closePayload (QWebSocket.closeData a.closeCode a.closeReason) ∧
      (isCloseCodeValid a.closeCode = true → (scrub a.closeReason).head? ≠ some 0xFEFF →
        b.closeCode = a.closeCode ∧ b.closeReason = scrub a.closeReason)) := by
  intro a b
  have hgood := run_good apps moves
  have ha := (hgood.sane side.other).outgoing
  obtain ⟨_, _, _, _, _, _, hd⟩ := hgood.direction side
  refine ⟨fun t ht hclose => QWebSocket.encodes_close (hgood.sane side).outgoing.encodes ht hclose,
    fun hheard => ?_⟩
  have hanswers := (hgood.sane side).answers
  have hmem : ∃ closeCode reason, .closeReceived closeCode reason ∈ b.received := by
    have hany := hanswers.heard.symm.trans hheard
    obtain ⟨s, hs, hclose⟩ := List.any_eq_true.mp hany
    cases s with
    | closeReceived closeCode reason => exact ⟨closeCode, reason, hs⟩
    | _ => cases hclose
  obtain ⟨closeCode, reason, hmem⟩ := hmem
  obtain ⟨hsent, hcode, hreason⟩ := hanswers.agreed closeCode reason hmem
  have hprefix := hd.received_prefix
  have hcomplete : .closeReceived closeCode reason ∈ b.received.filter ProcessorSignal.isComplete :=
    List.mem_filter.mpr ⟨hmem, rfl⟩
  have hisClose : ∀ t : Transmission, t.announcement = .closeReceived closeCode reason →
      t.isClose = true := by
    intro t h
    cases t <;> first | rfl | cases h
  -- a close frame was sent, so it is the last thing that was sent
  obtain ⟨t, ht, hannounce⟩ := List.mem_map.mp (List.IsPrefix.subset hprefix hcomplete)
  obtain ⟨l, hl, hopen⟩ := QWebSocket.encodes_close ha.encodes ht (hisClose t hannounce)
  have hasent : a.isClosingHandshakeSent = true := by
    cases hunsent : a.isClosingHandshakeSent with
    | true => rfl
    | false =>
        have hno := ha.unclosed hunsent t ht
        rw [hisClose t hannounce] at hno
        cases hno
  have hagreed : (b.closeCode, b.closeReason) =
      closePayload (QWebSocket.closeData a.closeCode a.closeReason) := by
    cases t with
    | close code r =>
        obtain ⟨hacode, hareason⟩ := ha.closeFrame code r ht
        have hpayload : closePayload (QWebSocket.closeData code r) = (closeCode, reason) := by
          injection hannounce with hcode' hreason'
          exact Prod.ext hcode' hreason'
        rw [show a.closeCode = code from hacode, show a.closeReason = r from hareason, hpayload]
        exact Prod.ext hcode hreason
    | _ => cases hannounce
  refine ⟨hasent, hsent, ?_, hagreed, fun hvalid hmark => ?_⟩
  · have hsplit : (a.sent.map Transmission.announcement) =
        l.map Transmission.announcement ++ [t.announcement] := by
      rw [show a.sent = l ++ [t] from hl, List.map_append, List.map_singleton]
    rw [hsplit]
    rw [show ((run apps moves).ends side.other).sent.map Transmission.announcement = _ from hsplit,
      List.prefix_concat_iff] at hprefix
    refine hprefix.resolve_right fun hbefore => ?_
    obtain ⟨t', ht', hannounce'⟩ := List.mem_map.mp (hbefore.subset hcomplete)
    have hno := hopen t' ht'
    rw [hisClose t' hannounce'] at hno
    cases hno
  · rw [closePayload_closeData hvalid hmark] at hagreed
    exact Prod.mk.inj hagreed

end WebSocketConnection

end QtWebApp
