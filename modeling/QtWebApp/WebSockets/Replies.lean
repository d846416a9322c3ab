import QtWebApp.HttpServer.HttpRequestHandler
import QtWebApp.WebSockets.WebSocketConnection

/-!
# QtWebApp.WebSockets.Replies

What the server answers on a WebSocket.

`occur_rule` is the rule for a property that every operation of an end keeps. With it, `Owed` says
that an end has sent what the slots of the server have called for, in this order, until the socket
below took no more. Together with what the ends know of each other, this says what a client gets for
what it has sent: the replies to its messages, one after the other.

The calls of a slot depend on what has been announced before, since a slot sees the whole list of
signals. So a run of the server determines its replies, and `replies` computes them from what the
client has sent, message by message, without the network in between.
-/

namespace QtWebApp

open QWebSocketProtocol Utf8 QWebSocketFrame QWebSocketDataProcessor HttpConnectionHandler

/-- What a call sends, if it does not close. -/
def Call.transmission : Call → Option Transmission
  | .sendTextMessage message => some (.text message)
  | .sendBinaryMessage data => some (.binary data)
  | .ping payload => some (.ping (payload.take 125))
  | .close _ _ => none

/-- The application has sent it: neither a pong nor a close frame. -/
def Transmission.isCalled : Transmission → Bool
  | .pong _ | .close _ _ => false
  | _ => true

namespace QWebSocket

/-! ### A rule for one end

A property that does not speak of reading has to be checked for the slots of the data processor
only. The loops in between carry it along, and that is shown once. -/

section Rule

variable {app : Application} {Q : QWebSocket → Prop}
  (hread : ∀ {s : QWebSocket} (processor : QWebSocketDataProcessor)
    (received : List ProcessorSignal)
    (reading : Option Reading) (readBuffer : Bytes), Q s → Q { s with
      dataProcessor := processor
      received := received
      reading := reading
      readBuffer := readBuffer })
  (hsignal : ∀ {s : QWebSocket} (signal : ProcessorSignal), Q s → Q (s.onSignal app signal))

include hread

theorem next_rule {s : QWebSocket} (h : Q s) (returns : Bool) : Q (s.next returns) := by
  unfold next
  split
  · exact hread s.dataProcessor s.received none s.readBuffer h
  · exact hread s.dataProcessor s.received _ _ h

include hsignal

theorem handleFrames_rule {s : QWebSocket} (h : Q s) (n : Nat) : Q (handleFrames app n s) := by
  induction n generalizing s with
  | zero => exact h
  | succ n ih =>
      unfold handleFrames
      split
      · exact h
      · next r hr =>
          split
          · exact h
          · refine ih ?_
            rw [handleFrame_eq]
            refine next_rule hread ?_ _
            have htaken : Q (s.taken (s.dataProcessor.processFrame r.frame).processor
                (s.dataProcessor.processFrame r.frame).signals) :=
              hread _ _ s.reading s.readBuffer h
            generalize s.taken _ _ = s' at htaken
            induction (s.dataProcessor.processFrame r.frame).signals generalizing s' with
            | nil => exact htaken
            | cons signal l ihl => exact ihl _ (hsignal signal htaken)

/-- **A rule for one end.** What is not about reading, and what the slots of the data processor, the
calls and the end of the connection keep, is kept by every event. -/
theorem occur_rule {s : QWebSocket} (h : Q s) (hend : Q s → Q s.becomeUnconnected) (e : Event)
    (hcall : ∀ c, e = .call c → Q s → Q (s.call app c)) : Q (s.occur app e) := by
  have hreading : ∀ reading readBuffer, Q { s with reading := reading, readBuffer := readBuffer } :=
    fun reading readBuffer => hread s.dataProcessor s.received reading readBuffer h
  cases e with
  | call c =>
      unfold occur
      dsimp only
      split
      · exact hcall c rfl h
      · exact h
  | arrive data =>
      show Q (s.arrive app data)
      unfold arrive
      split
      · dsimp only
        split
        · exact hreading _ _
        · exact handleFrames_rule hread hsignal (hreading _ _) _
      · exact h
  | processData =>
      unfold occur processData
      dsimp only
      split
      · split
        · exact h
        · exact handleFrames_rule hread hsignal (hreading _ _) _
      · exact h
  | timeOut =>
      show Q (s.timeOut app)
      unfold timeOut
      split
      · exact h
      · exact handleFrames_rule hread hsignal (hreading _ _) _
  | becomeUnconnected => exact hend h

end Rule

/-! ### Calls

Calls are answered in order. Once the socket takes no more, what is called for is lost, so what has
been sent is the first part of what was called for. -/

/-- An end has sent, apart from what it sends by itself, what the calls were about: all of it as
long as the socket takes it, and the first part of it in any case. -/
structure Owed (calls : List Call) (s : QWebSocket) : Prop where
  coherent : s.Coherent
  sent_prefix : s.sent.filter Transmission.isCalled <+: calls.filterMap Call.transmission
  sent_eq : s.Writable → s.sent.filter Transmission.isCalled = calls.filterMap Call.transmission

/-- A call that sends something. -/
theorem Owed.transmits {calls : List Call} {s s' : QWebSocket} (h : Owed calls s) {c : Call}
    {t : Transmission} (ht : c.transmission = some t) (hcalled : t.isCalled = true)
    (htransmits : Transmits t s s') : Owed (calls ++ [c]) s' := by
  have hcalls : (calls ++ [c]).filterMap Call.transmission =
      calls.filterMap Call.transmission ++ [t] := by
    rw [List.filterMap_append, List.filterMap_cons_some ht, List.filterMap_nil]
  cases htransmits with
  | sent hs hwire hsends =>
      obtain ⟨n, rfl⟩ := hsends
      rw [record_of_writable hs]
      have hsent : (s.sent ++ [t]).filter Transmission.isCalled =
          (calls ++ [c]).filterMap Call.transmission := by
        rw [List.filter_append, h.sent_eq hs, List.filter_cons_of_pos hcalled,
          List.filter_nil, hcalls]
      exact ⟨⟨h.coherent.open_closing, h.coherent.closed_connected⟩, by
        rw [← hsent], fun _ => hsent⟩
  | lost hs hsends =>
      obtain ⟨n, rfl⟩ := hsends
      refine ⟨⟨h.coherent.open_closing, h.coherent.closed_connected⟩, ?_, fun hw => absurd hw hs⟩
      rw [hcalls]
      exact h.sent_prefix.trans (List.prefix_append _ _)

/-- After closing nothing more is sent, whatever the calls. -/
theorem Owed.closes {calls : List Call} {s s' : QWebSocket} (h : Owed calls s)
    {closeCode : CloseCode} {reason : QString} (hcloses : Closes closeCode reason s s')
    (more : List Call) :
    Owed (calls ++ more) s' := by
  have hopen : ¬ s'.isOpen = true := by
    rw [hcloses.isOpen]
    exact Bool.false_ne_true
  refine ⟨⟨fun h => absurd h hopen, fun _ => hcloses.socketState⟩, ?_, fun hw => absurd hw.1 hopen⟩
  have hsame : s'.sent.filter Transmission.isCalled = s.sent.filter Transmission.isCalled := by
    rcases hcloses.sent with hsent | hsent
    · rw [hsent]
    · rw [hsent, List.filter_append]
      exact List.append_nil _
  rw [hsame, List.filterMap_append]
  exact h.sent_prefix.trans (List.prefix_append _ _)

/-- **A call**, whatever it is. -/
theorem Owed.call {calls : List Call} {s : QWebSocket} (h : Owed calls s)
    (app : Application) (c : Call) :
    Owed (calls ++ [c]) (s.call app c) := by
  cases c with
  | sendTextMessage message =>
      exact h.transmits rfl rfl (sendTextMessage_transmits app h.coherent message)
  | sendBinaryMessage data =>
      exact h.transmits rfl rfl (sendBinaryMessage_transmits app h.coherent data)
  | ping payload => exact h.transmits rfl rfl (ping_transmits app s payload)
  | close closeCode reason => exact h.closes (close_closes app s closeCode reason) _

/-- A call passes nothing on. -/
theorem call_connected (app : Application) {s : QWebSocket} (hs : s.Coherent) (c : Call) :
    (s.call app c).signals.filter isConnected = s.signals.filter isConnected := by
  have hacts : Acts (fun _ _ => True) s (s.call app c) := call_acts app hs fun _ _ _ => trivial
  have hsignals := hacts.handles.signals
  rw [List.filterMap_nil, List.append_nil] at hsignals
  have hdata : ∀ x : WebSocketSignal, (isConnected x && x.isData) = isConnected x := by
    intro x
    cases x <;> rfl
  have hfilter : ∀ l : List WebSocketSignal,
      (l.filter WebSocketSignal.isData).filter isConnected = l.filter isConnected := fun l => by
    simp only [List.filter_filter, hdata]
  rw [← hfilter, hsignals, hfilter]

/-- The calls of a slot. -/
theorem Owed.calls {calls : List Call} {s : QWebSocket} (h : Owed calls s) (app : Application)
    (l : List Call) : Owed (calls ++ l) (l.foldl (QWebSocket.call app) s) ∧
      (l.foldl (QWebSocket.call app) s).signals.filter isConnected =
        s.signals.filter isConnected := by
  induction l generalizing calls s with
  | nil =>
      rw [List.append_nil]
      exact ⟨h, rfl⟩
  | cons c l ih =>
      obtain ⟨howed, hsignals⟩ := ih (h.call app c)
      rw [List.append_assoc] at howed
      exact ⟨howed, hsignals.trans (call_connected app h.coherent c)⟩

/-! ### The server

The slots of `HttpConnectionHandler` are the application of the server. It calls nothing else but
`close`, when its read timer fires. -/

/-- The server has sent what its slots have called for. -/
def Replied (requestHandler : HttpRequestHandler) (s : QWebSocket) : Prop :=
  Owed (slotCalls requestHandler [] (s.signals.filter isConnected)) s

section Server

variable {requestHandler : HttpRequestHandler} {nextMask : Nat → UInt32}

/-- **A slot runs**: the signal is one more, and so are its calls. -/
theorem Replied.relay {s : QWebSocket} (h : Replied requestHandler s) (signal : WebSocketSignal) :
    Replied requestHandler (s.relay (webSocketApplication requestHandler nextMask) signal) := by
  have hemit : Owed (slotCalls requestHandler [] (s.signals.filter isConnected)) (s.emit signal) :=
    ⟨⟨h.coherent.open_closing, h.coherent.closed_connected⟩, h.sent_prefix, h.sent_eq⟩
  obtain ⟨howed, hsignals⟩ := hemit.calls (webSocketApplication requestHandler nextMask)
    (runWebSocketSlot requestHandler (s.signals.filter isConnected) signal)
  have hrelay : s.relay (webSocketApplication requestHandler nextMask) signal =
      (runWebSocketSlot requestHandler (s.signals.filter isConnected) signal).foldl
        (QWebSocket.call (webSocketApplication requestHandler nextMask)) (s.emit signal) := rfl
  have hcalls : slotCalls requestHandler [] ((s.emit signal).signals.filter isConnected) =
      slotCalls requestHandler [] (s.signals.filter isConnected) ++
        runWebSocketSlot requestHandler (s.signals.filter isConnected) signal := by
    show slotCalls requestHandler [] ((s.signals ++ [signal]).filter isConnected) = _
    rw [List.filter_append, slotCalls_append, List.nil_append]
    cases signal <;> first | rfl | exact congrArg (_ ++ ·) (List.append_nil _)
  rw [Replied, hrelay, hsignals, hcalls]
  exact howed

/-- Closing sends nothing that was called for. -/
theorem Replied.closes {s s' : QWebSocket} (h : Replied requestHandler s) {closeCode : CloseCode}
    {reason : QString} (hcloses : Closes closeCode reason s s') : Replied requestHandler s' := by
  obtain ⟨l, hl, hall⟩ := hcloses.signals
  have hnone : l.filter isConnected = [] := by
    rw [List.filter_eq_nil_iff]
    intro x hx
    rw [hall x hx]
    exact Bool.false_ne_true
  have howed := Owed.closes h hcloses []
  rw [List.append_nil] at howed
  rw [Replied, hl, List.filter_append, hnone, List.append_nil]
  exact howed

theorem write_written (s : QWebSocket) (data : Bytes) :
    ∃ written, (s.write data).2 = { s with written := written } := by
  unfold QWebSocket.write
  split <;> exact ⟨_, rfl⟩

theorem writePong_written (app : Application) (s : QWebSocket) (data : Bytes) :
    ∃ written masks, s.writePong app data = { s with written := written, masks := masks } := by
  obtain ⟨masks, hdraw⟩ := maskingKey_eq app s
  obtain ⟨written, hheader⟩ := write_written (s.maskingKey app).2
    (getFrameHeader .pong data.length (s.maskingKey app).1 true)
  unfold writePong
  dsimp only
  rw [hheader, hdraw]
  split
  · obtain ⟨all, hdata⟩ := write_written { { s with masks := masks } with written := written }
      (if s.mustMask then mask data (s.maskingKey app).1 else data)
    exact ⟨all, masks, hdata⟩
  · exact ⟨written, masks, rfl⟩

/-- A pong is not what the application sends. -/
theorem Replied.processPing {s : QWebSocket} (h : Replied requestHandler s) (app : Application)
    (data : Bytes) :
    Replied requestHandler (s.processPing app data) := by
  have hpong : Replied requestHandler (s.record (.pong data)) := by
    unfold record
    split
    · have hsent : (s.sent ++ [Transmission.pong data]).filter Transmission.isCalled =
          s.sent.filter Transmission.isCalled := by
        rw [List.filter_append]
        exact List.append_nil _
      exact ⟨⟨h.coherent.open_closing, h.coherent.closed_connected⟩, hsent ▸ h.sent_prefix,
        fun hw => hsent.trans (h.sent_eq hw)⟩
    · exact h
  obtain ⟨written, masks, heq⟩ := writePong_written app (s.record (.pong data)) data
  unfold QWebSocket.processPing
  rw [heq]
  exact ⟨⟨hpong.coherent.open_closing, hpong.coherent.closed_connected⟩,
    hpong.sent_prefix, hpong.sent_eq⟩

/-- A signal of the data processor. -/
theorem Replied.onSignal {s : QWebSocket} (h : Replied requestHandler s)
    (signal : ProcessorSignal) :
    Replied requestHandler (s.onSignal (webSocketApplication requestHandler nextMask) signal) := by
  cases signal with
  | pingReceived data => exact h.processPing _ data
  | closeReceived closeCode reason =>
      have hnoted : Replied requestHandler { s with isClosingHandshakeReceived := true } :=
        ⟨⟨h.coherent.open_closing, h.coherent.closed_connected⟩, h.sent_prefix, h.sent_eq⟩
      exact hnoted.closes (processClose_closes _ s closeCode reason)
  | errorEncountered code description => exact h.closes (close_closes _ s code description)
  | pongReceived data => exact h.relay _
  | textFrameReceived frame lastFrame => exact h.relay _
  | binaryFrameReceived frame lastFrame => exact h.relay _
  | textMessageReceived message => exact h.relay _
  | binaryMessageReceived message => exact h.relay _

theorem Replied.becomeUnconnected {s : QWebSocket} (h : Replied requestHandler s) :
    Replied requestHandler s.becomeUnconnected := by
  unfold QWebSocket.becomeUnconnected
  split
  · exact h
  · have hsignals : (s.signals ++ [WebSocketSignal.disconnected]).filter isConnected =
        s.signals.filter isConnected := by
      rw [List.filter_append]
      exact List.append_nil _
    refine ⟨⟨fun _ hs => (by cases hs), fun _ hs => (by cases hs)⟩, ?_, fun hw => absurd rfl hw.2⟩
    show s.sent.filter _ <+:
      (slotCalls requestHandler []
        ((s.signals ++ [WebSocketSignal.disconnected]).filter _)).filterMap _
    rw [hsignals]
    exact h.sent_prefix

/-- **A step of the server.** It answers what arrives, and closes when its read timer says so. -/
theorem Replied.occur {s : QWebSocket} (h : Replied requestHandler s) (e : Event)
    (he : ∀ c, e = .call c → c = closeOnTimeout) :
    Replied requestHandler (s.occur (webSocketApplication requestHandler nextMask) e) := by
  refine occur_rule (fun _ _ _ _ h => ?_) (fun signal h => h.onSignal signal) h
    Replied.becomeUnconnected e
    fun c hc h => ?_
  · exact ⟨⟨h.coherent.open_closing, h.coherent.closed_connected⟩, h.sent_prefix, h.sent_eq⟩
  · rw [he c hc]
    exact h.closes (close_closes _ s _ _)

/-- Nothing has been received or sent. -/
theorem replied_connected (mustMask : Bool) : Replied requestHandler (connected mustMask) :=
  ⟨(outgoing_connected mustMask).toCoherent, List.prefix_refl _, fun _ => rfl⟩

end Server

end QWebSocket

/-! ### What the server gets

The handler hears of messages and frames by two of the signals. A text is heard of once, a binary
message once for each of its frames. -/

/-- The signals about the frames of a binary message. -/
def binaryFrames (data : Bytes) : List WebSocketSignal :=
  if data.length ≤ frameSize then [.binaryFrameReceived data true]
  else .binaryFrameReceived (data.take frameSize) false :: binaryFrames (data.drop frameSize)
termination_by data.length
decreasing_by
  have hpos := QWebSocket.frameSize_pos
  rw [List.length_drop]
  omega

/-- The signals with which the server gets a transmission. -/
def Transmission.heard : Transmission → List WebSocketSignal
  | .text message => [.textMessageReceived (scrub message)]
  | .binary data => binaryFrames data
  | _ => []

/-- The signals of the data processor of which the server hears. -/
def heardOf (l : List ProcessorSignal) : List WebSocketSignal :=
  (l.filterMap ProcessorSignal.passOn).filter isConnected

theorem heardOf_append (l l' : List ProcessorSignal) :
    heardOf (l ++ l') = heardOf l ++ heardOf l' := by
  rw [heardOf, List.filterMap_append, List.filter_append]
  rfl

theorem heardOf_cons (s : ProcessorSignal) (l : List ProcessorSignal) :
    heardOf (s :: l) = heardOf [s] ++ heardOf l := heardOf_append [s] l

namespace QWebSocketDataProcessor

/-- The frames of a text are not heard of. -/
theorem heardOf_text {g : List QWebSocketFrame} (f : QWebSocketFrame) (h : IsText (g ++ [f])) :
    heardOf [frameSignal g f] = [] := by
  rw [frameSignal, if_pos h]
  rfl

/-- The frames of a binary message are, and not the message. -/
theorem heardOf_binary {g : List QWebSocketFrame} (f : QWebSocketFrame) (h : ¬ IsText (g ++ [f])) :
    heardOf [frameSignal g f] = [.binaryFrameReceived f.payload f.isFinalFrame] ∧
      heardOf [messageSignal (g ++ [f])] = [] := by
  rw [frameSignal, messageSignal, if_neg h, if_neg h]
  exact ⟨rfl, rfl⟩

/-- Of the frames of a text only the message is heard. -/
theorem fragments_text {opCode : OpCode} {data : Bytes} {ws : List WireFrame}
    (h : QWebSocket.Fragments opCode data ws) (hop : opCode.toNat < 8) {g : List QWebSocketFrame}
    (ht : IsText (g ++ ws.map WireFrame.frame)) :
    heardOf (announced g (ws.map WireFrame.frame)) = heardOf
      [messageSignal (g ++ ws.map WireFrame.frame)] := by
  induction h generalizing g with
  | @last w hfinal hsize =>
      have hctl : ¬ w.frame.isControlFrame = true := by
        rw [frame_isControlFrame]
        simpa using hop
      have hlast : w.frame.isFinalFrame = true := hfinal
      rw [List.map_singleton] at ht ⊢
      rw [announced, if_neg hctl, if_pos hlast, heardOf_cons, heardOf_text _ ht]
      rfl
  | @more w ws data hfinal hsize hdata hrest ih =>
      have hctl : ¬ w.frame.isControlFrame = true := by
        rw [frame_isControlFrame]
        simpa using hop
      have hmore : ¬ w.frame.isFinalFrame = true := by
        show ¬ w.isFinalFrame = true
        rw [hfinal]
        exact Bool.false_ne_true
      rw [List.map_cons] at ht ⊢
      rw [announced, if_neg hctl, if_neg hmore, heardOf_cons,
        heardOf_text _ ((isText_append_cons g w.frame _).mp ht), List.nil_append]
      have hsplit : g ++ w.frame :: ws.map WireFrame.frame =
          (g ++ [w.frame]) ++ ws.map WireFrame.frame := by
        rw [List.append_assoc, List.singleton_append]
      rw [hsplit] at ht ⊢
      exact ih (by decide) ht

/-- Of the frames of a binary message each one is heard. -/
theorem fragments_binary {opCode : OpCode} {data : Bytes} {ws : List WireFrame}
    (h : QWebSocket.Fragments opCode data ws) (hop : opCode.toNat < 8) {g : List QWebSocketFrame}
    (ht : ¬ IsText (g ++ ws.map WireFrame.frame)) :
    heardOf (announced g (ws.map WireFrame.frame)) = binaryFrames data := by
  induction h generalizing g with
  | @last w hfinal hsize =>
      have hctl : ¬ w.frame.isControlFrame = true := by
        rw [frame_isControlFrame]
        simpa using hop
      have hlast : w.frame.isFinalFrame = true := hfinal
      rw [List.map_singleton] at ht ⊢
      obtain ⟨hframe, hmessage⟩ := heardOf_binary _ ht
      rw [announced, if_neg hctl, if_pos hlast, heardOf_cons, hframe, hlast,
        binaryFrames, if_pos hsize]
      exact congrArg (_ ++ ·) hmessage
  | @more w ws data hfinal hsize hdata hrest ih =>
      have hctl : ¬ w.frame.isControlFrame = true := by
        rw [frame_isControlFrame]
        simpa using hop
      have hmore : w.frame.isFinalFrame = false := hfinal
      have hlong : ¬ (w.payload ++ data).length ≤ frameSize := by
        have hpos := List.length_pos_iff.mpr hdata
        rw [List.length_append]
        omega
      rw [List.map_cons] at ht ⊢
      obtain ⟨hframe, -⟩ := heardOf_binary w.frame (mt (isText_append_cons g w.frame _).mpr ht)
      have hsplit : g ++ w.frame :: ws.map WireFrame.frame =
          (g ++ [w.frame]) ++ ws.map WireFrame.frame := by
        rw [List.append_assoc, List.singleton_append]
      rw [hsplit] at ht
      have hall : binaryFrames (w.payload ++ data) =
          .binaryFrameReceived w.payload false :: binaryFrames data := by
        rw [binaryFrames, if_neg hlong, List.take_left' hsize, List.drop_left' hsize]
      rw [announced, if_neg hctl, if_neg (by rw [hmore]; exact Bool.false_ne_true),
        heardOf_cons, hframe, hmore, ih (by decide) ht, hall]
      rfl

/-- **What the server hears of a transmission.** -/
theorem wire_heard {t : Transmission} {ws : List WireFrame} (h : QWebSocket.Wire t ws) :
    heardOf (announced [] (ws.map WireFrame.frame)) = t.heard := by
  have hcontrol : ∀ {w : WireFrame}, 8 ≤ w.opCode.toNat →
      heardOf (announced [] ([w].map WireFrame.frame)) = [] := by
    intro w hctl
    rw [(wire_control hctl).1]
    unfold controlSignals
    split <;> rfl
  cases h with
  | text h =>
      rw [fragments_text h (by decide) ((fragments_isText h).mpr rfl),
        List.nil_append, messageSignal,
        if_pos ((fragments_isText h).mpr rfl), decode_of_fragments h]
      rfl
  | binary h => exact fragments_binary h (by decide) (mt (fragments_isText h).mp (by decide))
  | ping hop hfinal => exact hcontrol (by rw [hop]; decide)
  | pong hop hfinal => exact hcontrol (by rw [hop]; decide)
  | close hop hfinal hpayload => exact hcontrol (by rw [hop]; decide)

/-- What the server hears of all transmissions. -/
theorem wires_heard {ts : List Transmission} {parts : List (List WireFrame)}
    (h : List.Forall₂ QWebSocket.Wire ts parts) :
    heardOf (announced [] (parts.flatten.map WireFrame.frame)) = ts.flatMap Transmission.heard := by
  induction h with
  | nil => rfl
  | cons hwire _ ih =>
      rw [List.flatten_cons, List.map_append, announced_append,
        (wire_announced hwire).2, heardOf_append, wire_heard hwire, ih, List.flatMap_cons]

end QWebSocketDataProcessor

/-! ### What the client gets

The two directions put together: what the client sends, what the server hears of it, what its slots
call for, and what arrives at the client. -/

/-- The messages that the client gets for what it has sent. -/
def HttpRequestHandler.replies (requestHandler : HttpRequestHandler) (sent : List Transmission) :
    List WebSocketSignal :=
  ((slotCalls requestHandler [] (sent.flatMap Transmission.heard)).filterMap
    Call.transmission).filterMap
    Transmission.messageSignal

namespace WebSocketConnection

/-- **A rule for a run.** A property of an end that its own events keep. -/
theorem run_rule {apps : Side → Application} {moves : List (Side × QWebSocket.Event)} {side : Side}
    {Q : QWebSocket → Prop} (hstart : Q (.connected (side == .client)))
    (hstep : ∀ s e, (side, e) ∈ moves → Q s → Q (s.occur (apps side) e)) :
    Q ((run apps moves).ends side) := by
  induction moves using List.reverseRecOn with
  | nil => exact hstart
  | append_singleton moves m ih =>
      have hbefore := ih fun s e he => hstep s e (List.mem_append_left _ he)
      have hrun : run apps (moves ++ [m]) = step apps (run apps moves) m := List.foldl_concat ..
      rw [hrun]
      unfold step
      split
      · dsimp only
        by_cases hside : m.1 = side
        · subst hside
          rw [Function.update_self]
          exact hstep _ m.2 (List.mem_append_right _ (List.mem_singleton_self _)) hbefore
        · rw [Function.update_of_ne (Ne.symm hside)]
          exact hbefore
      · exact hbefore

namespace Direction

variable {patient : Prop} {a b : QWebSocket} {input pending way : Bytes} {fs : List QWebSocketFrame}
  {sent : List Transmission} {ws : List WireFrame} {tail : Bytes}

theorem heard_eq (h : Direction patient a b input pending way fs sent ws tail) :
    heardOf (announced [] (fs ++ ws.map WireFrame.frame)) = sent.flatMap Transmission.heard := by
  obtain ⟨parts, hparts, hframes⟩ := h.frames
  rw [← hframes]
  exact wires_heard hparts

/-- Errors are not heard of. -/
theorem heardOf_received (h : Direction patient a b input pending way fs sent ws tail) :
    heardOf b.received = heardOf (announced [] fs) := by
  rw [← h.incoming.received, heardOf, heardOf, List.filterMap_filter]
  refine congrArg _ (List.filterMap_congr fun s _ => ?_)
  cases s <;> rfl

/-- What has been heard is the first part of what is heard of everything that was sent. -/
theorem heard_prefix (h : Direction patient a b input pending way fs sent ws tail) :
    heardOf b.received <+: a.sent.flatMap Transmission.heard := by
  obtain ⟨more, hmore⟩ := h.sent_prefix
  rw [h.heardOf_received, ← hmore, List.flatMap_append, ← h.heard_eq,
    announced_append, heardOf_append, List.append_assoc]
  exact List.prefix_append _ _

/-- A server that is up to date has heard of everything. -/
theorem heard_all (h : Direction patient a b input pending [] fs sent ws tail)
    (hopen : b.isOpen = true) (hsettled : b.Settled)
    (hread : b.reading = none → b.readBuffer = []) :
    heardOf b.received = a.sent.flatMap Transmission.heard := by
  obtain ⟨rfl, hsent⟩ := h.finished hopen hsettled hread
  rw [h.heardOf_received, hsent, ← h.heard_eq]
  exact congrArg (fun l => heardOf (announced [] l)) (List.append_nil fs).symm

end Direction

/-- The signals that have been passed on to the slots of the server. -/
theorem connected_signals {b : QWebSocket} (h : b.Answers) :
    b.signals.filter isConnected = heardOf b.received := by
  rw [heardOf, ← h.signals, List.filter_filter]
  refine List.filter_congr fun s _ => ?_
  cases s <;> rfl

/-- Messages are not what an end sends by itself. -/
theorem messages_called (ts : List Transmission) :
    ts.filterMap Transmission.messageSignal =
      (ts.filter Transmission.isCalled).filterMap Transmission.messageSignal := by
  rw [List.filterMap_filter]
  refine List.filterMap_congr fun t _ => ?_
  cases t <;> rfl

/-- The applications at the ends: any at the client, the slots of `HttpConnectionHandler` at the
server. -/
def withServer (requestHandler : HttpRequestHandler) (nextMask : Nat → UInt32)
    (client : Application) :
    Side → Application
  | .client => client
  | .server => webSocketApplication requestHandler nextMask

/-- In a run the server sends nothing but its replies. -/
theorem replied_run {requestHandler : HttpRequestHandler} {nextMask : Nat → UInt32}
    {client : Application} {moves : List (Side × QWebSocket.Event)}
    (hserver : ∀ c, (.server, .call c) ∈ moves → c = closeOnTimeout) :
    ((run (withServer requestHandler nextMask client) moves).ends .server).Replied requestHandler :=
  run_rule (QWebSocket.replied_connected _) fun _ e he h => h.occur e fun c hc =>
    hserver c (hc ▸ he)

/-- **Replies.** Whatever the request handler of the server answers and whatever the client does:
the messages that the client has got are the first ones of what the request handler replies to the
messages that the client has sent, in their order. -/
theorem replies_prefix (requestHandler : HttpRequestHandler) (nextMask : Nat → UInt32)
    (client : Application) (moves : List (Side × QWebSocket.Event))
    (hserver : ∀ c, (.server, .call c) ∈ moves → c = closeOnTimeout) :
    let c := run (withServer requestHandler nextMask client) moves
    (c.ends .client).signals.filter WebSocketSignal.isMessage <+:
      requestHandler.replies (c.ends .client).sent := by
  intro c
  have hgood := run_good (withServer requestHandler nextMask client) moves
  have hreplied : (c.ends .server).Replied requestHandler := replied_run hserver
  obtain ⟨input, pending, fs, sent, ws, tail, hd⟩ := hgood.direction .server
  have hheard : (c.ends .server).signals.filter isConnected <+:
      (c.ends .client).sent.flatMap Transmission.heard := by
    rw [connected_signals (hgood.sane .server).answers]
    exact hd.heard_prefix
  refine (hgood.messages .client).trans ?_
  rw [messages_called]
  have hcalled := slotCalls_prefix requestHandler hheard
  exact ((hreplied.sent_prefix.trans (hcalled.filterMap _)).filterMap _)

theorem replies_prefix_greeting :
    let apps := withServer .default UInt32.ofNat (.silent UInt32.ofNat)
    let c := run apps (greeting apps ++ [(.server, .processData), (.server, .call closeOnTimeout)])
    (c.ends .client).signals.filter WebSocketSignal.isMessage <+:
      HttpRequestHandler.default.replies (c.ends .client).sent :=
  replies_prefix .default UInt32.ofNat (.silent UInt32.ofNat) _ (by simp [greeting])

/-- After a run, everything that the client has sent arrives at the server. -/
def delivered (requestHandler : HttpRequestHandler) (nextMask : Nat → UInt32) (client : Application)
    (moves : List (Side × QWebSocket.Event)) : WebSocketConnection :=
  deliver (withServer requestHandler nextMask client)
    (run (withServer requestHandler nextMask client) moves) .server

/-- Then everything that the server has sent arrives at the client. -/
def returned (requestHandler : HttpRequestHandler) (nextMask : Nat → UInt32) (client : Application)
    (moves : List (Side × QWebSocket.Event)) : WebSocketConnection :=
  deliver (withServer requestHandler nextMask client)
    (delivered requestHandler nextMask client moves) .client

/-- **All replies.** Let everything that the client has sent arrive at the server, and then
everything that the server has sent at the client. If the server is still connected and the client
has not closed, then the client has got all replies. -/
theorem replies_eq (requestHandler : HttpRequestHandler) (nextMask : Nat → UInt32)
    (client : Application) (moves : List (Side × QWebSocket.Event))
    (hserver : ∀ c, (.server, .call c) ∈ moves → c = closeOnTimeout)
    (hwritable : ((delivered requestHandler nextMask client moves).ends .server).Writable)
    (hopen : ((returned requestHandler nextMask client moves).ends .client).isOpen = true) :
    ((returned requestHandler nextMask client moves).ends .client).signals.filter
      WebSocketSignal.isMessage =
      requestHandler.replies
        ((run (withServer requestHandler nextMask client) moves).ends .client).sent := by
  have hreplied : ∀ more, (∀ m ∈ more, ∀ c, m.2 ≠ .call c) →
      ((run (withServer requestHandler nextMask client) (moves ++ more)).ends .server).Replied
        requestHandler := by
    intro more hmore
    refine replied_run fun c hc => ?_
    rcases List.mem_append.mp hc with hc | hc
    · exact hserver c hc
    · exact absurd rfl (hmore _ hc c)
  unfold returned delivered at *
  generalize withServer requestHandler nextMask client = apps at *
  obtain ⟨more, hrun, hmore⟩ := deliver_run apps moves .server
  obtain ⟨more', hrun', -⟩ := deliver_run apps (moves ++ more) .client
  obtain ⟨hother, hway, hread⟩ := deliver_spec apps ((run_good apps moves).arrived_le .server)
  obtain ⟨hother', hway', hread'⟩ := deliver_spec apps
      ((run_good apps (moves ++ more)).arrived_le .client)
  have hgood := run_good apps (moves ++ more)
  have hgood' := run_good apps (moves ++ more ++ more')
  have hsent := (hreplied more fun m hm => (hmore m hm).2).sent_eq
  rw [← hrun] at hrun' hother' hway' hread' hgood hsent
  rw [← hrun'] at hgood'
  generalize deliver apps (run apps moves) .server = c at *
  generalize deliver apps c .client = c' at *
  -- the server has heard everything
  obtain ⟨_, _, _, _, _, _, hd⟩ := hgood.direction .server
  rw [hway] at hd
  have hheard := hd.heard_all hwritable.1 (hgood.settled .server) hread
  rw [← connected_signals (hgood.sane .server).answers] at hheard
  -- and the client has got everything that the server has sent
  obtain ⟨_, _, _, _, _, _, hd'⟩ := hgood'.direction .client
  rw [hway'] at hd'
  have hreceived := hd'.received_all hopen (hgood'.settled .client) hread'
  calc (c'.ends .client).signals.filter WebSocketSignal.isMessage
      = (c'.ends .server).sent.filterMap Transmission.messageSignal := by
        rw [messages_received (hgood'.sane .client).answers, hreceived, messages_announced]
        rfl
    _ = (c.ends .server).sent.filterMap Transmission.messageSignal := by
        rw [show c'.ends .server = c.ends .server from hother']
    _ = requestHandler.replies (c.ends .client).sent := by
        rw [messages_called, hsent hwritable, hheard]
        rfl
    _ = requestHandler.replies ((run apps moves).ends .client).sent := by
        rw [show c.ends .client = (run apps moves).ends .client from hother]

theorem replies_eq_greeting :
    let apps := withServer .default UInt32.ofNat (.silent UInt32.ofNat)
    ((returned .default UInt32.ofNat (.silent UInt32.ofNat) (greeting apps)).ends
      .client).signals.filter
      WebSocketSignal.isMessage =
        HttpRequestHandler.default.replies ((run apps (greeting apps)).ends .client).sent :=
  replies_eq .default UInt32.ofNat (.silent UInt32.ofNat) _ (by simp [greeting]) (by decide)
    (by decide)

/-! ### The echo

A request handler that overrides nothing sends texts and frames back as they come, except for a
ping. -/

/-- What comes back from a server that has not overridden anything. -/
def echo : WebSocketSignal → Option WebSocketSignal
  | .textMessageReceived message => some (.textMessageReceived
      (if message = QString.ofAscii "ping" then QString.ofAscii "pong" else message))
  | .binaryFrameReceived frame _ => some (.binaryMessageReceived frame)
  | _ => none

theorem not_mem_binaryFrames (message : QString) (data : Bytes) :
    .textMessageReceived message ∉ binaryFrames data := by
  fun_induction binaryFrames data with
  | case1 data hshort => simp
  | case2 data hlong ih => simpa using ih

theorem heard_scrub {t : Transmission} {message : QString}
    (h : .textMessageReceived message ∈ t.heard) :
    scrub message = message := by
  cases t with
  | text m =>
      cases List.mem_singleton.mp h
      exact scrub_scrub m
  | binary data => exact absurd h (not_mem_binaryFrames message data)
  | ping payload => exact absurd h List.not_mem_nil
  | pong payload => exact absurd h List.not_mem_nil
  | close closeCode reason => exact absurd h List.not_mem_nil

/-- A slot of the default handler sends one message at most. -/
theorem echo_slot (before : List WebSocketSignal) (signal : WebSocketSignal)
    (hscrub : ∀ message, signal = .textMessageReceived message → scrub message = message) :
    ((runWebSocketSlot HttpRequestHandler.default before signal).filterMap
      Call.transmission).filterMap
      Transmission.messageSignal = (echo signal).toList := by
  cases signal with
  | textMessageReceived message =>
      have hpong : scrub (QString.ofAscii "pong") = QString.ofAscii "pong" := by decide
      unfold runWebSocketSlot websocketTextMessage echo
      dsimp only
      by_cases hping : message = QString.ofAscii "ping"
      · rw [if_pos hping, if_pos hping]
        exact congrArg (fun text => [WebSocketSignal.textMessageReceived text]) hpong
      · rw [if_neg hping, if_neg hping]
        exact congrArg (fun text => [WebSocketSignal.textMessageReceived text]) (hscrub message rfl)
  | _ => rfl

/-- **The echo.** What the default handler replies to whatever has been sent. -/
theorem replies_default (sent : List Transmission) :
    HttpRequestHandler.default.replies sent = (sent.flatMap Transmission.heard).filterMap echo := by
  unfold HttpRequestHandler.replies
  have hscrub : ∀ message, .textMessageReceived message ∈ sent.flatMap Transmission.heard →
      scrub message = message := by
    intro message h
    obtain ⟨t, -, ht⟩ := List.mem_flatMap.mp h
    exact heard_scrub ht
  generalize sent.flatMap Transmission.heard = l at hscrub
  generalize ([] : List WebSocketSignal) = before
  induction l generalizing before with
  | nil => rfl
  | cons signal l ih =>
      have hrest := ih (fun message h => hscrub message (List.mem_cons_of_mem _ h))
          (before ++ [signal])
      have hfirst := echo_slot before signal fun message h =>
        hscrub message (h ▸ List.mem_cons_self ..)
      rw [slotCalls, List.filterMap_append, List.filterMap_append, hrest, hfirst]
      cases signal <;> rfl

end WebSocketConnection

end QtWebApp
