import QtWebApp.WebSockets.ProperClose

/-!
# QtWebApp.WebSockets.Endpoint

What holds of one end of a connection, whatever arrives there and whatever the application does.

`Handles` says what the object makes of the signals of its data processor, and `handleFrame_sane`
what it makes of a frame. From these come the invariants of an end: `Outgoing` about what it has
written, `Incoming` about what it has read, and `Answers` about how one depends on the other. They
hold after every sequence of events, for every stream of bytes.

The proofs follow the code outwards. First what a call does (`Acts`), then what a signal of the data
processor leads to, then all signals of a frame, then a frame that was read, then the loop of
`processData`, then an event, and in the end a sequence of events. `Sane` is the conjunction that is
carried along the whole way.

What `patient` stands for: an end whose wait for the rest of a frame has timed out finds an error
that is not in its input. As long as that has not happened, every error is the fault of a frame.
-/

namespace QtWebApp

open QWebSocketProtocol Utf8 QWebSocketDataProcessor QWebSocketFrame

/-- The signal is about received data. -/
def WebSocketSignal.isData : WebSocketSignal → Bool
  | .aboutToClose | .error | .disconnected => false
  | _ => true

/-- The transmission is a pong. -/
def Transmission.isPong : Transmission → Bool
  | .pong _ => true
  | _ => false

namespace ProcessorSignal

/-- The signal of the object that passes on a signal of its data processor. -/
def passOn : ProcessorSignal → Option WebSocketSignal
  | .pongReceived data => some (.pong data)
  | .textFrameReceived frame lastFrame => some (.textFrameReceived frame lastFrame)
  | .binaryFrameReceived frame lastFrame => some (.binaryFrameReceived frame lastFrame)
  | .textMessageReceived message => some (.textMessageReceived message)
  | .binaryMessageReceived message => some (.binaryMessageReceived message)
  | _ => none

/-- The pong that answers a signal. -/
def answer : ProcessorSignal → Option Transmission
  | .pingReceived data => some (.pong data)
  | _ => none

/-- The signal is about a close frame. -/
def isClose : ProcessorSignal → Bool
  | .closeReceived _ _ => true
  | _ => false

end ProcessorSignal

/-- The call closes with a code and a reason for which `P` holds, if it closes. -/
def Call.ClosesWith (P : CloseCode → QString → Prop) (c : Call) : Prop :=
  ∀ closeCode reason, c = .close closeCode reason → P closeCode reason

/-- The application closes with codes and reasons for which `P` holds, and so may the object. -/
structure Application.Allows (app : Application) (P : CloseCode → QString → Prop) : Prop where
  proper : ∀ closeCode reason, ProperClose closeCode reason → P closeCode reason
  react : ∀ before signal, ∀ c ∈ app.react before signal, c.ClosesWith P

/-- Any application, if nothing is said about how it closes. -/
theorem Application.allows_true (app : Application) : app.Allows fun _ _ => True where
  proper _ _ _ := trivial
  react _ _ _ _ _ _ _ := trivial

namespace QWebSocket

variable {P : CloseCode → QString → Prop}

/-! ### Calls

A call of the application, or of the object itself when it answers. Whatever the call is, it adds to
what has been written and sent, and leaves what has been received. -/

/-- What a call does: it sends something, or it closes. -/
inductive Acts (P : CloseCode → QString → Prop) (s s' : QWebSocket) : Prop
  | transmits {t : Transmission} (hclose : t.isClose = false) (hpong : t.isPong = false)
      (h : Transmits t s s')
  | closes {closeCode : CloseCode} {reason : QString} (hP : P closeCode reason)
      (h : Closes closeCode reason s s')

/-- **What a call does**, whatever the call. -/
theorem call_acts (app : Application) {s : QWebSocket} (hs : s.Coherent) {c : Call}
    (hc : c.ClosesWith P) : Acts P s (s.call app c) := by
  cases c with
  | sendTextMessage message => exact .transmits rfl rfl (sendTextMessage_transmits app hs message)
  | sendBinaryMessage data => exact .transmits rfl rfl (sendBinaryMessage_transmits app hs data)
  | ping payload => exact .transmits rfl rfl (ping_transmits app s payload)
  | close closeCode reason => exact .closes (hc _ _ rfl) (close_closes app s closeCode reason)

/-- A call keeps what is written a sequence of frames. -/
theorem Acts.outgoing {s s' : QWebSocket} (h : Acts P s s') (hs : s.Outgoing) : s'.Outgoing := by
  cases h with
  | transmits hclose _ h => exact h.outgoing hclose hs
  | closes _ h => exact h.outgoing hs

/-- What the signals `l` of the data processor lead to, before the next frame is read. -/
structure Handles (P : CloseCode → QString → Prop) (l : List ProcessorSignal) (s s' : QWebSocket) :
    Prop where
  dataProcessor : s'.dataProcessor = s.dataProcessor
  reading : s'.reading = s.reading
  received : s'.received = s.received
  stillOpen : s'.isOpen = true → s.isOpen = true ∧ s'.readBuffer = s.readBuffer
  closed : (s.isOpen = false → s.readBuffer = []) → s'.isOpen = false → s'.readBuffer = []
  writable : s'.Writable → s.Writable
  signals : s'.signals.filter WebSocketSignal.isData =
    s.signals.filter WebSocketSignal.isData ++ l.filterMap ProcessorSignal.passOn
  pongs : ∃ p, s'.sent.filter Transmission.isPong = s.sent.filter Transmission.isPong ++ p ∧
    p <+: l.filterMap ProcessorSignal.answer ∧
    (s'.Writable → p = l.filterMap ProcessorSignal.answer) ∧ (¬ s.Writable → p = [])
  written : s.written <+: s'.written
  kept : s.isClosingHandshakeSent = true → s'.isClosingHandshakeSent = true ∧
    s'.closeCode = s.closeCode ∧ s'.closeReason = s.closeReason
  heard : s'.isClosingHandshakeReceived =
    (s.isClosingHandshakeReceived || l.any ProcessorSignal.isClose)
  closes : ∀ closeCode reason, .close closeCode reason ∈ s'.sent →
    .close closeCode reason ∈ s.sent ∨ P closeCode reason

/-- More has been written, and what has been closed was closed as `P` says. -/
structure Grows (P : CloseCode → QString → Prop) (s s' : QWebSocket) : Prop where
  written : s.written <+: s'.written
  closes : ∀ closeCode reason, .close closeCode reason ∈ s'.sent →
    .close closeCode reason ∈ s.sent ∨ P closeCode reason

theorem Handles.refl (s : QWebSocket) : Handles P [] s s where
  dataProcessor := rfl
  reading := rfl
  received := rfl
  stillOpen h := ⟨h, rfl⟩
  closed h := h
  writable h := h
  signals := (List.append_nil _).symm
  pongs := ⟨[], (List.append_nil _).symm, List.nil_prefix, fun _ => rfl, fun _ => rfl⟩
  written := List.prefix_refl _
  kept h := ⟨h, rfl, rfl⟩
  heard := (Bool.or_false _).symm
  closes _ _ h := .inl h

/-- The signals of a frame are answered one after the other. -/
theorem Handles.trans {l l' : List ProcessorSignal} {s s' s'' : QWebSocket} (h : Handles P l s s')
    (h' : Handles P l' s' s'') : Handles P (l ++ l') s s'' where
  dataProcessor := h'.dataProcessor.trans h.dataProcessor
  reading := h'.reading.trans h.reading
  received := h'.received.trans h.received
  stillOpen hopen := by
    obtain ⟨hopen', hbuffer'⟩ := h'.stillOpen hopen
    obtain ⟨hopen, hbuffer⟩ := h.stillOpen hopen'
    exact ⟨hopen, hbuffer'.trans hbuffer⟩
  closed hempty hclosed := h'.closed (h.closed hempty) hclosed
  writable hw := h.writable (h'.writable hw)
  signals := by rw [h'.signals, h.signals, List.filterMap_append, List.append_assoc]
  pongs := by
    obtain ⟨p, hp, hprefix, hall, hnone⟩ := h.pongs
    obtain ⟨p', hp', hprefix', hall', hnone'⟩ := h'.pongs
    refine ⟨p ++ p', by rw [hp', hp, List.append_assoc], ?_, fun hw => ?_, fun hw => ?_⟩
    · rw [List.filterMap_append]
      by_cases hw : s'.Writable
      · rw [hall hw]
        exact (List.prefix_append_right_inj _).mpr hprefix'
      · rw [hnone' hw, List.append_nil]
        exact hprefix.trans (List.prefix_append _ _)
    · rw [List.filterMap_append, hall (h'.writable hw), hall' hw]
    · rw [hnone hw, hnone' (fun h' => hw (h.writable h'))]
      rfl
  written := h.written.trans h'.written
  kept hsent := by
    obtain ⟨hsent', hcode, hreason⟩ := h.kept hsent
    obtain ⟨hsent'', hcode', hreason'⟩ := h'.kept hsent'
    exact ⟨hsent'', hcode'.trans hcode, hreason'.trans hreason⟩
  heard := by rw [h'.heard, h.heard, List.any_append, Bool.or_assoc]
  closes closeCode reason hmem :=
    (h'.closes closeCode reason hmem).elim (h.closes closeCode reason) .inr

/-- What is sent without being an answer. -/
theorem Transmits.handles {t : Transmission} (hclose : t.isClose = false) (hpong : t.isPong = false)
    {s s' : QWebSocket} (h : Transmits t s s') : Handles P [] s s' := by
  obtain ⟨sent, written, n, rfl, hsent, hwritten⟩ := h.frame
  refine ⟨rfl, rfl, rfl, fun h => ⟨h, rfl⟩, fun h => h, fun h => h, (List.append_nil _).symm,
    ⟨[], ?_, List.nil_prefix, fun _ => rfl, fun _ => rfl⟩, hwritten, fun h => ⟨h, rfl, rfl⟩,
    (Bool.or_false _).symm, fun closeCode reason hmem => .inl ?_⟩
  · rw [List.append_nil]
    rcases hsent with rfl | rfl
    · rw [List.filter_append, List.filter_cons_of_neg (by simp [hpong]), List.filter_nil,
        List.append_nil]
    · rfl
  · rcases hsent with rfl | rfl
    · rcases List.mem_append.mp hmem with hmem | hmem
      · exact hmem
      · rw [← List.mem_singleton.mp hmem] at hclose
        cases hclose
    · exact hmem

/-- Closing makes no answer, and nothing is passed on. -/
theorem Closes.handles {closeCode : CloseCode} {reason : QString} (hP : P closeCode reason)
    {s s' : QWebSocket} (h : Closes closeCode reason s s') : Handles P [] s s' := by
  have hclosed : ¬ s'.Writable := fun hw => by
    have hopen := hw.1
    rw [h.isOpen] at hopen
    cases hopen
  obtain ⟨l, hl, hall⟩ := h.signals
  have hnone : l.filter WebSocketSignal.isData = [] := by
    rw [List.filter_eq_nil_iff]
    intro x hx
    rw [hall x hx]
    exact Bool.false_ne_true
  refine ⟨h.dataProcessor, h.reading, h.received, fun hopen => ?_, fun _ _ => h.readBuffer,
    fun hw => absurd hw hclosed, ?_,
    ⟨[], ?_, List.nil_prefix, fun hw => absurd hw hclosed, fun _ => rfl⟩,
    h.written, fun hsent => ⟨h.isClosingHandshakeSent, (h.again hsent).2.2⟩, ?_,
    fun code r hmem => ?_⟩
  · rw [h.isOpen] at hopen
    cases hopen
  · rw [hl, List.filter_append, hnone]
    rfl
  · rw [List.append_nil]
    rcases h.sent with hsent | hsent
    · rw [hsent]
    · rw [hsent, List.filter_append]
      exact List.append_nil _
  · rw [h.isClosingHandshakeReceived]
    exact (Bool.or_false _).symm
  · rcases h.sent with hsent | hsent
    · rw [hsent] at hmem
      exact .inl hmem
    · rw [hsent] at hmem
      rcases List.mem_append.mp hmem with hmem | hmem
      · exact .inl hmem
      · cases List.mem_singleton.mp hmem
        exact .inr hP

theorem Acts.handles {s s' : QWebSocket} (h : Acts P s s') : Handles P [] s s' := by
  cases h with
  | transmits hclose hpong h => exact h.handles hclose hpong
  | closes hP h => exact h.handles hP

/-! ### Signals

The slots of the object for the signals of its data processor. Some pass the signal on, and then the
application reacts with calls; the ping and the close frame are answered first. -/

theorem emit_outgoing {s : QWebSocket} (hs : s.Outgoing) (signal : WebSocketSignal) :
    (s.emit signal).Outgoing :=
  ⟨⟨hs.open_closing, hs.closed_connected⟩, hs.encodes, hs.isOpen_eq, hs.unclosed, hs.closeFrame⟩

/-- A signal that sends nothing. -/
theorem handles_quiet {s : QWebSocket} {signal : ProcessorSignal} {signals : List WebSocketSignal}
    {heard : Bool} (hsignals : signals.filter WebSocketSignal.isData =
      s.signals.filter WebSocketSignal.isData ++ [signal].filterMap ProcessorSignal.passOn)
    (hanswer : signal.answer = none)
    (hheard : heard = (s.isClosingHandshakeReceived || signal.isClose)) :
    Handles P [signal] s { s with signals := signals, isClosingHandshakeReceived := heard } where
  dataProcessor := rfl
  reading := rfl
  received := rfl
  stillOpen h := ⟨h, rfl⟩
  closed h := h
  writable h := h
  signals := hsignals
  pongs := by
    rw [List.filterMap_cons_none hanswer]
    exact ⟨[], (List.append_nil _).symm, List.nil_prefix, fun _ => rfl, fun _ => rfl⟩
  written := List.prefix_refl _
  kept h := ⟨h, rfl, rfl⟩
  heard := by
    rw [List.any_cons, List.any_nil, Bool.or_false]
    exact hheard
  closes _ _ h := .inl h

/-- A signal is passed on, and the application reacts to it. -/
theorem relay_handles {app : Application} (happ : app.Allows P) {s : QWebSocket} (hs : s.Outgoing)
    {signal : ProcessorSignal} {signal' : WebSocketSignal} (hpass : signal.passOn = some signal')
    (hclose : signal.isClose = false) (hanswer : signal.answer = none) :
    Handles P [signal] s (s.relay app signal') ∧ (s.relay app signal').Outgoing := by
  have hemit : Handles P [signal] s (s.emit signal') := by
    refine handles_quiet ?_ hanswer (by rw [hclose, Bool.or_false])
    have hdata : signal'.isData = true := by
      cases signal <;> cases hpass <;> rfl
    rw [List.filter_append, List.filter_cons_of_pos hdata, List.filterMap_cons_some hpass]
    rfl
  have hcalls : ∀ (calls : List Call) (s' : QWebSocket), (∀ c ∈ calls, c.ClosesWith P) →
      Handles P [signal] s s' → s'.Outgoing →
      Handles P [signal] s (calls.foldl (call app) s') ∧ (calls.foldl (call app) s').Outgoing := by
    intro calls
    induction calls with
    | nil => exact fun s' _ h ho => ⟨h, ho⟩
    | cons c calls ih =>
        intro s' hc h ho
        rw [List.forall_mem_cons] at hc
        have hacts := call_acts app ho.toCoherent hc.1
        refine ih (s'.call app c) hc.2 ?_ (hacts.outgoing ho)
        have htrans := h.trans hacts.handles
        rwa [List.append_nil] at htrans
  exact hcalls _ _ (happ.react _ _) hemit (emit_outgoing hs signal')

/-- The pong for a ping. -/
theorem processPing_handles (app : Application) (s : QWebSocket) {data : Bytes}
    (hshort : data.length ≤ 125) : Handles P [.pingReceived data] s (s.processPing app data) := by
  have hpings : [ProcessorSignal.pingReceived data].filterMap ProcessorSignal.answer =
      [.pong data] := rfl
  cases processPing_transmits app s hshort with
  | sent hw hwire hsends =>
      obtain ⟨n, heq⟩ := hsends
      rw [heq, record_of_writable hw]
      refine ⟨rfl, rfl, rfl, fun h => ⟨h, rfl⟩, fun h => h, fun h => h, (List.append_nil _).symm,
        ⟨[.pong data], ?_, by rw [hpings], fun _ => hpings.symm, fun h => absurd hw h⟩,
        List.prefix_append _ _, fun h => ⟨h, rfl, rfl⟩, (Bool.or_false _).symm,
        fun closeCode reason hmem => ?_⟩
      · rw [List.filter_append]
        rfl
      · rcases List.mem_append.mp hmem with hmem | hmem
        · exact .inl hmem
        · cases List.mem_singleton.mp hmem
  | lost hw hsends =>
      obtain ⟨n, heq⟩ := hsends
      rw [heq]
      exact ⟨rfl, rfl, rfl, fun h => ⟨h, rfl⟩, fun h => h, fun h => h, (List.append_nil _).symm,
        ⟨[], (List.append_nil _).symm, List.nil_prefix, fun h => absurd h hw, fun _ => rfl⟩,
        List.prefix_append _ _, fun h => ⟨h, rfl, rfl⟩, (Bool.or_false _).symm, fun _ _ h => .inl h⟩

/-- A close frame is noted, and answered. -/
theorem processClose_closes (app : Application) (s : QWebSocket) (closeCode : CloseCode)
    (reason : QString) : Closes closeCode reason { s with isClosingHandshakeReceived := true }
      (s.processClose app closeCode reason) := close_closes app _ closeCode reason

/-- **What becomes of a signal of the data processor.** -/
theorem onSignal_handles {app : Application} (happ : app.Allows P) {s : QWebSocket}
    (hs : s.Outgoing) (signal : ProcessorSignal) (hproper : ProperSignal signal)
    (hshort : ∀ data, signal = .pingReceived data → data.length ≤ 125) :
    Handles P [signal] s (s.onSignal app signal) ∧ (s.onSignal app signal).Outgoing := by
  cases signal with
  | pingReceived data =>
      exact ⟨processPing_handles app s (hshort data rfl),
        (processPing_transmits app s (hshort data rfl)).outgoing rfl hs⟩
  | closeReceived closeCode reason =>
      have hP := happ.proper _ _ (hproper _ _ (.inl rfl))
      have hclose := processClose_closes app s closeCode reason
      have hnote : Handles P [.closeReceived closeCode reason] s
          { s with isClosingHandshakeReceived := true } :=
        handles_quiet (List.append_nil _).symm rfl (Bool.or_true _).symm
      have hnoted : Outgoing { s with isClosingHandshakeReceived := true } :=
        ⟨⟨hs.open_closing, hs.closed_connected⟩, hs.encodes, hs.isOpen_eq,
          hs.unclosed, hs.closeFrame⟩
      exact ⟨hnote.trans (hclose.handles hP), hclose.outgoing hnoted⟩
  | errorEncountered code description =>
      have hP := happ.proper _ _ (hproper _ _ (.inr rfl))
      have hclose := close_closes app s code description
      have hnothing : Handles P [.errorEncountered code description] s s :=
        handles_quiet (List.append_nil _).symm rfl (Bool.or_false _).symm
      exact ⟨hnothing.trans (hclose.handles hP), hclose.outgoing hs⟩
  | pongReceived data => exact relay_handles happ hs rfl rfl rfl
  | textFrameReceived frame lastFrame => exact relay_handles happ hs rfl rfl rfl
  | binaryFrameReceived frame lastFrame => exact relay_handles happ hs rfl rfl rfl
  | textMessageReceived message => exact relay_handles happ hs rfl rfl rfl
  | binaryMessageReceived message => exact relay_handles happ hs rfl rfl rfl

/-- All signals of a frame. -/
theorem foldl_onSignal_handles {app : Application} (happ : app.Allows P) {s : QWebSocket}
    (hs : s.Outgoing) {l : List ProcessorSignal} (hproper : ∀ signal ∈ l, ProperSignal signal)
    (hshort : ∀ data, .pingReceived data ∈ l → data.length ≤ 125) :
    Handles P l s (l.foldl (onSignal app) s) ∧ (l.foldl (onSignal app) s).Outgoing := by
  induction l generalizing s with
  | nil => exact ⟨.refl s, hs⟩
  | cons signal l ih =>
      rw [List.forall_mem_cons] at hproper
      obtain ⟨hfirst, hs'⟩ := onSignal_handles happ hs _ hproper.1 fun data h =>
        hshort data (List.mem_cons.mpr (.inl h.symm))
      obtain ⟨hrest, hs''⟩ := ih hs' hproper.2 fun data h => hshort data (List.mem_cons_of_mem _ h)
      exact ⟨hfirst.trans hrest, hs''⟩

/-! ### Invariants

What holds between two events. The bytes that have arrived are cut in two: those that have become
frames, and those that have not. -/

/-- Where an open end is in its input, of which `pending` has not been handled. -/
inductive Position (patient : Prop) (pending : Bytes) (s : QWebSocket) : Prop
  | idle (hreading : s.reading = none) (hbuffer : s.readBuffer = pending)
  | reading (hreading : s.reading = some (Reading.reached pending).1)
      (hbuffer : s.readBuffer = (Reading.reached pending).2)
  | timedOut {r : Reading} (himpatient : ¬ patient) (hreading : s.reading = some r) (hdone : r.Done)
      (hinvalid : r.frame.isValid = false) (hproper : r.Proper)

/-- What an end has made of its input: the frames `fs` came in order and were announced. After an
error it is closed; if it has been patient, the error was in the input. -/
structure Incoming (patient : Prop) (input : Bytes) (fs : List QWebSocketFrame) (pending : Bytes)
    (s : QWebSocket) : Prop where
  consumed : Consumed input fs pending
  inOrder : InOrder [] fs
  received : s.received.filter (fun e => !e.isError) = announced [] fs
  listening : s.isOpen = true → s.received = announced [] fs ∧
    s.dataProcessor = accumulated (unfinished [] fs) ∧ Position patient pending s
  deaf : s.isOpen = false → s.readBuffer = [] ∧ ∀ r, s.reading = some r →
    r.waiting = true ∨ ¬ patient ∧ r.Done ∧ r.frame.isValid = false ∧ r.Proper
  errors : patient → ∀ e ∈ s.received, e.isError = true →
    ∃ f rest, parse pending = some (f, rest) ∧ ¬ InOrder (unfinished [] fs) [f]

/-- What an end has done because of what it has received. -/
structure Answers (s : QWebSocket) : Prop where
  signals : s.signals.filter WebSocketSignal.isData = s.received.filterMap ProcessorSignal.passOn
  pongs : s.sent.filter Transmission.isPong <+: s.received.filterMap ProcessorSignal.answer
  answered : s.Writable →
    s.sent.filter Transmission.isPong = s.received.filterMap ProcessorSignal.answer
  heard : s.isClosingHandshakeReceived = s.received.any ProcessorSignal.isClose
  agreed : ∀ closeCode reason, .closeReceived closeCode reason ∈ s.received →
    s.isClosingHandshakeSent = true ∧ s.closeCode = closeCode ∧ s.closeReason = reason

/-- No frame is there that has been read and not handled. -/
def Settled (s : QWebSocket) : Prop := ∀ r, s.reading = some r → r.waiting = true

/-- An open end that has read everything has no complete frame left. -/
theorem Position.parse_none {patient : Prop} {pending : Bytes} {s : QWebSocket}
    (h : Position patient pending s) (hsettled : s.Settled)
    (hread : s.reading = none → s.readBuffer = []) :
    parse pending = none := by
  cases h with
  | idle hreading hbuffer =>
      rw [← hbuffer, hread hreading]
      rfl
  | reading hreading _ => exact parse_eq_none.mpr (hsettled _ hreading)
  | timedOut _ hreading hdone _ =>
      have hwaits := hsettled _ hreading
      rw [hdone.1] at hwaits
      cases hwaits

/-- The signals of the data processor that are about to be handled. -/
def taken (s : QWebSocket) (processor : QWebSocketDataProcessor)
    (l : List ProcessorSignal) : QWebSocket :=
  { s with dataProcessor := processor, received := s.received ++ l }

theorem taken_outgoing {s : QWebSocket} (hs : s.Outgoing) (processor : QWebSocketDataProcessor)
    (l : List ProcessorSignal) : (s.taken processor l).Outgoing :=
  ⟨⟨hs.open_closing, hs.closed_connected⟩, hs.encodes, hs.isOpen_eq, hs.unclosed, hs.closeFrame⟩

/-- What has been answered stays in step with what has been received. -/
theorem Answers.handles {s s' : QWebSocket} (h : s.Answers) {processor : QWebSocketDataProcessor}
    {l : List ProcessorSignal} (hh : Handles P l (s.taken processor l) s')
    (hclose : ∀ closeCode reason, .closeReceived closeCode reason ∈ l →
      s'.isClosingHandshakeSent = true ∧ s'.closeCode = closeCode ∧ s'.closeReason = reason) :
    s'.Answers := by
  have hreceived : s'.received = s.received ++ l := hh.received
  obtain ⟨p, hp, hprefix, hall, hnone⟩ := hh.pongs
  have hsent : s'.sent.filter Transmission.isPong = s.sent.filter Transmission.isPong ++ p := hp
  refine ⟨?_, ?_, fun hw => ?_, ?_, fun closeCode reason hmem => ?_⟩
  · rw [hh.signals, hreceived, List.filterMap_append]
    exact congrArg (· ++ _) h.signals
  · rw [hsent, hreceived, List.filterMap_append]
    by_cases hw : s.Writable
    · rw [h.answered hw]
      exact (List.prefix_append_right_inj _).mpr hprefix
    · rw [hnone hw, List.append_nil]
      exact h.pongs.trans (List.prefix_append _ _)
  · rw [hsent, hreceived, List.filterMap_append, h.answered (hh.writable hw), hall hw]
  · rw [hh.heard, hreceived, List.any_append]
    exact congrArg (· || _) h.heard
  · rw [hreceived, List.mem_append] at hmem
    rcases hmem with hmem | hmem
    · obtain ⟨hsent, hcode, hreason⟩ := h.agreed closeCode reason hmem
      obtain ⟨hsent', hcode', hreason'⟩ := hh.kept hsent
      exact ⟨hsent', hcode'.trans hcode, hreason'.trans hreason⟩
    · exact hclose closeCode reason hmem

/-- Reading leaves everything else as it is. -/
theorem reading_invariants {s : QWebSocket} (ho : s.Outgoing) (ha : s.Answers)
    (reading : Option Reading) (readBuffer : Bytes) :
    Outgoing { s with reading := reading, readBuffer := readBuffer } ∧
      Answers { s with reading := reading, readBuffer := readBuffer } :=
  ⟨⟨⟨ho.open_closing, ho.closed_connected⟩, ho.encodes, ho.isOpen_eq, ho.unclosed, ho.closeFrame⟩,
    ⟨ha.signals, ha.pongs, ha.answered, ha.heard, ha.agreed⟩⟩

/-! ### One frame

The case split of the whole module: either the frame comes in order and is announced, or it does
not, and the end closes. After that the next frame is read, which touches nothing but the reader. -/

/-- The reader goes as far as the data allow, wherever it has stopped before. -/
theorem readFrame_eq (s : QWebSocket) : s.readFrame = { s with
    reading := some (Reading.reached s.readBuffer).1
    readBuffer := (Reading.reached s.readBuffer).2 } := rfl

/-- The reader has come to the end of the data, or there is less of it now. -/
theorem readFrame_settled (s : QWebSocket) :
    s.readFrame.Settled ∨ s.readFrame.readBuffer.length < s.readBuffer.length := by
  rcases Reading.reached_cases s.readBuffer with hdone | hwaits
  · exact .inr (parse_length_lt (parse_eq_some.mpr ⟨hdone, rfl, rfl⟩))
  · refine .inl fun r hr => ?_
    cases hr
    exact hwaits

theorem readFrame_nil {s : QWebSocket} (h : s.readBuffer = []) :
    s.readFrame = { s with reading := some Reading.start.wait, readBuffer := [] } := by
  rw [readFrame_eq, h]
  rfl

/-- What comes after a frame: the next one is read, unless `process` returns and there is no
data. -/
def next (s : QWebSocket) (returns : Bool) : QWebSocket :=
  if returns = true ∧ s.readBuffer = [] then { s with reading := none } else s.readFrame

theorem handleFrame_eq (app : Application) (s : QWebSocket) (f : QWebSocketFrame) :
    s.handleFrame app f =
      ((s.dataProcessor.processFrame f).signals.foldl (onSignal app)
        (s.taken (s.dataProcessor.processFrame f).processor
          (s.dataProcessor.processFrame f).signals)).next
          (s.dataProcessor.processFrame f).returns := rfl

theorem next_invariants {s : QWebSocket} (ho : s.Outgoing) (ha : s.Answers) (returns : Bool) :
    (s.next returns).Outgoing ∧ (s.next returns).Answers := by
  unfold next
  split
  · exact reading_invariants ho ha none s.readBuffer
  · exact reading_invariants ho ha _ _

theorem next_settled (s : QWebSocket) (returns : Bool) :
    (s.next returns).Settled ∨ (s.next returns).readBuffer.length < s.readBuffer.length := by
  unfold next
  split
  · exact .inl fun r hr => by cases hr
  · exact readFrame_settled s

/-- An end that has closed its device reads nothing. -/
theorem next_closed {s : QWebSocket} (hempty : s.readBuffer = []) (returns : Bool) :
    (s.next returns).readBuffer = [] ∧ (s.next returns).Settled := by
  unfold next
  split
  · exact ⟨hempty, fun r hr => by cases hr⟩
  · rw [readFrame_nil hempty]
    refine ⟨rfl, fun r hr => ?_⟩
    cases hr
    rfl

theorem next_fields (s : QWebSocket) (returns : Bool) : (s.next returns).isOpen = s.isOpen ∧
    (s.next returns).received = s.received ∧ (s.next returns).dataProcessor = s.dataProcessor ∧
    (s.next returns).written = s.written ∧ (s.next returns).sent = s.sent := by
  unfold next
  split <;> exact ⟨rfl, rfl, rfl, rfl, rfl⟩

/-- The next frame is read from the data behind this one. -/
theorem next_position (patient : Prop) (s : QWebSocket) (returns : Bool) :
    Position patient s.readBuffer (s.next returns) := by
  unfold next
  split
  · exact .idle rfl rfl
  · exact .reading rfl rfl

/-- A frame that does not come in order: there is an error, and the device is closed. -/
theorem handleFrame_rejected {app : Application} (happ : app.Allows P) {patient : Prop}
    {input pending : Bytes} {fs : List QWebSocketFrame} {s : QWebSocket} (ho : s.Outgoing)
    (ha : s.Answers) (hi : Incoming patient input fs pending s) {f : QWebSocketFrame}
    {processor : QWebSocketDataProcessor} {code : CloseCode} {description : QString}
    (hf : s.dataProcessor.processFrame f = ⟨processor, [.errorEncountered code description], true⟩)
    (hproper : ProperClose f.closeCode f.closeReason)
    (hcontrol : f.isValid = true → f.isControlFrame = true → f.payload.length ≤ 125)
    (herror : patient → ∃ f rest, parse pending = some (f, rest) ∧
      ¬ InOrder (unfinished [] fs) [f]) :
    (s.handleFrame app f).Outgoing ∧ (s.handleFrame app f).Answers ∧
      Incoming patient input fs pending (s.handleFrame app f) ∧ Grows P s (s.handleFrame app f) ∧
      (s.handleFrame app f).Settled := by
  have hsignals := proper_processFrame s.dataProcessor hproper hcontrol
  rw [hf] at hsignals
  obtain ⟨hh, ho'⟩ := onSignal_handles happ
    (taken_outgoing ho processor [.errorEncountered code description])
    (.errorEncountered code description) (hsignals _ (List.mem_singleton_self _))
    (fun _ h => by cases h)
  have hcloses : Closes code description (s.taken processor [.errorEncountered code description])
      ((s.taken processor [.errorEncountered code description]).onSignal app
        (.errorEncountered code description)) := close_closes app _ code description
  have heq : s.handleFrame app f =
      ((s.taken processor [.errorEncountered code description]).onSignal app
      (.errorEncountered code description)).next true := by
    rw [handleFrame_eq, hf]
    rfl
  rw [heq]
  generalize (s.taken processor [.errorEncountered code description]).onSignal app
    (.errorEncountered code description) = s' at *
  have ha' : s'.Answers := ha.handles hh fun _ _ h => by cases List.mem_singleton.mp h
  have hreceived : s'.received = s.received ++ [.errorEncountered code description] := hh.received
  obtain ⟨hopen, hreceived', -, hwritten, hsent⟩ := next_fields s' true
  obtain ⟨hbuffer, hsettled⟩ := next_closed hcloses.readBuffer true
  obtain ⟨ho'', ha''⟩ := next_invariants ho' ha' true
  refine ⟨ho'', ha'', ⟨hi.consumed, hi.inOrder, ?_, fun h => ?_, fun _ => ⟨hbuffer, fun r hr =>
    .inl (hsettled r hr)⟩, fun hp e he herr => herror hp⟩, ⟨?_, ?_⟩, hsettled⟩
  · rw [hreceived', hreceived, List.filter_append, hi.received]
    exact List.append_nil _
  · rw [hopen, hcloses.isOpen] at h
    cases h
  · rw [hwritten]
    exact hh.written
  · rw [hsent]
    exact hh.closes

/-- A control frame is announced as what it is. -/
theorem closeReceived_mem {g : List QWebSocketFrame} {f : QWebSocketFrame} {closeCode : CloseCode}
    {reason : QString} (h : .closeReceived closeCode reason ∈ announced g [f]) :
    announced g [f] = [.closeReceived closeCode reason] := by
  obtain ⟨-, heq⟩ := announced_isControl h rfl
  rw [heq] at h ⊢
  unfold controlSignals at h ⊢
  cases hop : f.opCode <;> rw [hop] at h <;> simp_all

theorem pingReceived_mem {g : List QWebSocketFrame} {f : QWebSocketFrame} {data : Bytes}
    (h : .pingReceived data ∈ announced g [f]) : f.isControlFrame = true ∧ data = f.payload := by
  obtain ⟨hc, heq⟩ := announced_isControl h rfl
  rw [heq] at h
  refine ⟨hc, ?_⟩
  unfold controlSignals at h
  cases hop : f.opCode <;> rw [hop] at h <;> simp_all

/-- A frame that comes in order is no error. -/
theorem announced_no_error {g fs : List QWebSocketFrame} (hg : Sound g) (h : InOrder g fs) :
    ∀ e ∈ announced g fs, e.isError = false := by
  have hnone := (processFrames_no_error hg).mpr h
  rwa [processFrames_inOrder hg h] at hnone

/-- A frame that comes in order: it is announced. -/
theorem handleFrame_accepted {app : Application} (happ : app.Allows P) {patient : Prop}
    {input pending : Bytes} {fs : List QWebSocketFrame} {s : QWebSocket} (ho : s.Outgoing)
    (ha : s.Answers) (hi : Incoming patient input fs pending s) {f : QWebSocketFrame}
    (hopen : s.isOpen = true) (hparse : parse pending = some (f, s.readBuffer))
    (hproper : ProperClose f.closeCode f.closeReason) (hf : InOrder (unfinished [] fs) [f]) :
    (s.handleFrame app f).Outgoing ∧ (s.handleFrame app f).Answers ∧
      Incoming patient input (fs ++ [f]) s.readBuffer (s.handleFrame app f) ∧
      Grows P s (s.handleFrame app f) ∧
        ((s.handleFrame app f).Settled ∨ (s.handleFrame app f).readBuffer.length <
          s.readBuffer.length) := by
  obtain ⟨hreceived, hprocessor, -⟩ := hi.listening hopen
  have hsound : Sound (unfinished [] fs) := sound_unfinished sound_nil hi.inOrder
  obtain ⟨hnext, hsignals⟩ : ((s.dataProcessor.processFrame f).processor =
        accumulated (unfinished [] (fs ++ [f]))) ∧
      (s.dataProcessor.processFrame f).signals = announced (unfinished [] fs) [f] := by
    rw [hprocessor, unfinished_append]
    rcases processFrame_cases hsound f with ⟨-, hnext, hsignals⟩ | ⟨hbad, -⟩
    · exact ⟨hnext, hsignals⟩
    · exact absurd hf hbad
  have hvalid : f.isValid = true := hf.1
  have hpropers := proper_processFrame s.dataProcessor hproper (parse_control hparse)
  rw [hsignals] at hpropers
  rw [handleFrame_eq, hnext, hsignals]
  generalize (s.dataProcessor.processFrame f).returns = returns
  have hshort : ∀ data, .pingReceived data ∈ announced (unfinished [] fs) [f] →
      data.length ≤ 125 := by
    intro data hmem
    obtain ⟨hc, rfl⟩ := pingReceived_mem hmem
    exact parse_control hparse hvalid hc
  have hall : InOrder [] (fs ++ [f]) := (inOrder_append [] fs [f]).mpr ⟨hi.inOrder, hf⟩
  have hnone := announced_no_error sound_nil hall
  obtain ⟨hh, ho'⟩ := foldl_onSignal_handles happ
    (taken_outgoing ho (accumulated (unfinished [] (fs ++ [f]))) (announced (unfinished [] fs) [f]))
    hpropers hshort
  have hclose : ∀ closeCode reason, .closeReceived closeCode reason ∈
      announced (unfinished [] fs) [f] →
      let s' := (announced (unfinished [] fs) [f]).foldl (onSignal app)
        (s.taken (accumulated (unfinished [] (fs ++ [f]))) (announced (unfinished [] fs) [f]))
      s'.isClosingHandshakeSent = true ∧ s'.closeCode = closeCode ∧ s'.closeReason = reason := by
    intro closeCode reason hmem
    rw [closeReceived_mem hmem]
    -- the device is open, so this end has not sent a close frame before
    have hunsent : s.isClosingHandshakeSent = false := by
      have hopen' := ho.isOpen_eq
      rw [hopen] at hopen'
      simpa using hopen'.symm
    have hcloses := processClose_closes app (s.taken (accumulated (unfinished [] (fs ++ [f])))
      [.closeReceived closeCode reason]) closeCode reason
    obtain ⟨hcode, hreason, -⟩ := hcloses.first hunsent
    exact ⟨hcloses.isClosingHandshakeSent, hcode, hreason⟩
  have ha' := ha.handles hh hclose
  generalize (announced (unfinished [] fs) [f]).foldl (onSignal app)
    (s.taken (accumulated (unfinished [] (fs ++ [f]))) (announced (unfinished [] fs) [f])) = s' at *
  have hreceived' : s'.received = announced [] (fs ++ [f]) := by
    rw [hh.received, announced_append, ← hreceived]
    rfl
  have hempty : s'.isOpen = false → s'.readBuffer = [] := hh.closed fun hc => by
    rw [show s.isOpen = false from hc] at hopen
    cases hopen
  obtain ⟨hopen', hreceived'', hprocessor', hwritten, hsent⟩ := next_fields s' returns
  obtain ⟨ho'', ha''⟩ := next_invariants ho' ha' returns
  refine ⟨ho'', ha'', ⟨hi.consumed.snoc hparse, hall, ?_, fun h => ?_, fun h => ?_,
    fun _ e he herr => ?_⟩,
    ⟨?_, ?_⟩, ?_⟩
  · rw [hreceived'', hreceived', List.filter_eq_self]
    intro e he
    rw [hnone e he]
    rfl
  · rw [hopen'] at h
    rw [hreceived'', hprocessor', hh.dataProcessor]
    refine ⟨hreceived', rfl, ?_⟩
    have hposition := next_position patient s' returns
    rwa [(hh.stillOpen h).2] at hposition
  · rw [hopen'] at h
    obtain ⟨hbuffer, hsettled⟩ := next_closed (hempty h) returns
    exact ⟨hbuffer, fun r hr => .inl (hsettled r hr)⟩
  · rw [hreceived'', hreceived'] at he
    rw [hnone e he] at herr
    cases herr
  · rw [hwritten]
    exact hh.written
  · rw [hsent]
    exact hh.closes
  · cases h : s'.isOpen with
    | true =>
        have hsettled := next_settled s' returns
        rwa [(hh.stillOpen h).2] at hsettled
    | false => exact .inl (next_closed (hempty h) returns).2

/-! ### An end is sane

The invariants together. A frame keeps them, whether it is accepted or not; if it is not, the end
closes and takes no more. -/

/-- The invariant of an end that has got `input`, when it had written `old` before. -/
structure Sane (P : CloseCode → QString → Prop) (patient : Prop) (input old : Bytes)
    (s : QWebSocket) :
    Prop where
  outgoing : s.Outgoing
  answers : s.Answers
  closes : ∀ closeCode reason, .close closeCode reason ∈ s.sent → P closeCode reason
  written : old <+: s.written
  incoming : ∃ fs pending, Incoming patient input fs pending s

theorem Grows.sane {s s' : QWebSocket} (h : Grows P s s')
    (hs : ∀ closeCode reason, .close closeCode reason ∈ s.sent → P closeCode reason) :
    ∀ closeCode reason, .close closeCode reason ∈ s'.sent → P closeCode reason :=
  fun closeCode reason hmem => (h.closes closeCode reason hmem).elim (hs closeCode reason) id

/-- **What becomes of a frame that was read.** -/
theorem handleFrame_sane {app : Application} (happ : app.Allows P) {patient : Prop}
    {input old : Bytes} {s : QWebSocket} (h : Sane P patient input old s) {r : Reading}
    (hr : s.reading = some r) (hw : r.waiting = false) :
    Sane P patient input old (s.handleFrame app r.frame) ∧ ((s.handleFrame app r.frame).Settled ∨
      (s.handleFrame app r.frame).readBuffer.length < s.readBuffer.length) := by
  obtain ⟨ho, ha, hc, hold, fs, pending, hi⟩ := h
  have hinvalid : ¬ patient → r.frame.isValid = false → r.Proper →
      Sane P patient input old (s.handleFrame app r.frame) ∧ ((s.handleFrame app r.frame).Settled ∨
        (s.handleFrame app r.frame).readBuffer.length < s.readBuffer.length) := by
    intro himpatient hv hproper
    have hf : s.dataProcessor.processFrame r.frame =
        ⟨s.dataProcessor.clear, [.errorEncountered r.frame.closeCode r.frame.closeReason],
          true⟩ := by
      rw [processFrame, if_neg (by rw [hv]; exact Bool.false_ne_true)]
    obtain ⟨ho', ha', hi', hgrown, hsettled⟩ := handleFrame_rejected happ ho ha hi hf hproper
      (fun hv' => by rw [hv] at hv'; cases hv') fun hp => absurd hp himpatient
    exact ⟨⟨ho', ha', hgrown.sane hc, hold.trans hgrown.written, fs, pending, hi'⟩, .inl hsettled⟩
  cases hopen : s.isOpen with
  | false =>
      rcases (hi.deaf hopen).2 r hr with hwaits | ⟨himpatient, -, hv, hproper⟩
      · rw [hw] at hwaits
        cases hwaits
      · exact hinvalid himpatient hv hproper
  | true =>
      obtain ⟨-, hprocessor, hposition⟩ := hi.listening hopen
      cases hposition with
      | idle hreading _ =>
          rw [hreading] at hr
          cases hr
      | timedOut himpatient hreading _ hv hproper =>
          rw [hreading] at hr
          cases hr
          exact hinvalid himpatient hv hproper
      | reading hreading hbuffer =>
          rw [hreading] at hr
          cases hr
          have hdone : (Reading.reached pending).1.Done := by
            rcases Reading.reached_cases pending with hdone | hwaits
            · exact hdone
            · rw [hw] at hwaits
              cases hwaits
          have hparse : parse pending = some ((Reading.reached pending).1.frame, s.readBuffer) :=
            parse_eq_some.mpr ⟨hdone, rfl, hbuffer.symm⟩
          have hsound : Sound (unfinished [] fs) := sound_unfinished sound_nil hi.inOrder
          rcases processFrame_cases hsound (Reading.reached pending).1.frame with
            ⟨hf, -⟩ | ⟨hbad, code, description, hf⟩
          · obtain ⟨ho', ha', hi', hgrown, hless⟩ := handleFrame_accepted happ ho ha hi hopen hparse
              (Reading.proper_reached pending) hf
            exact ⟨⟨ho', ha', hgrown.sane hc, hold.trans hgrown.written, _, _, hi'⟩, hless⟩
          · rw [← hprocessor] at hf
            obtain ⟨ho', ha', hi', hgrown, hsettled⟩ := handleFrame_rejected happ ho ha hi hf
              (Reading.proper_reached pending) (parse_control hparse) fun _ => ⟨_, _, hparse, hbad⟩
            exact ⟨⟨ho', ha', hgrown.sane hc, hold.trans hgrown.written, fs, pending, hi'⟩,
              .inl hsettled⟩

/-! ### Events

`processData` ends because each turn takes bytes away, so the fuel suffices
(`handleFrames_exhausted`). Each event keeps the invariant, and the theorem about a run is the
induction over its events. -/

/-- The loop of `processData`: with more fuel than bytes it ends because everything is read. -/
theorem handleFrames_sane {app : Application} (happ : app.Allows P) {patient : Prop}
    {input old : Bytes} {s : QWebSocket} (h : Sane P patient input old s) {n : Nat}
    (hn : s.Settled ∨ s.readBuffer.length < n) :
    Sane P patient input old (handleFrames app n s) ∧ (handleFrames app n s).Settled := by
  induction n generalizing s with
  | zero => exact ⟨h, hn.resolve_right (Nat.not_lt_zero _)⟩
  | succ n ih =>
      unfold handleFrames
      split
      · next hr => exact ⟨h, fun r hr' => by rw [hr] at hr'; cases hr'⟩
      · next r hr =>
          split
          · next hw => exact ⟨h, fun r' hr' => by rw [hr] at hr'; cases hr'; exact hw⟩
          · next hw =>
              have hw' : r.waiting = false := by simpa using hw
              obtain ⟨h', hless⟩ := handleFrame_sane happ h hr hw'
              refine ih h' (hless.imp_right fun hlt => ?_)
              rcases hn with hsettled | hlen
              · rw [hsettled r hr] at hw'
                cases hw'
              · omega

/-- An end that reads no frame has no data left. -/
theorem handleFrames_exhausted (app : Application) (n : Nat) {s : QWebSocket}
    (h : s.reading = none → s.readBuffer = []) :
    (handleFrames app n s).reading = none → (handleFrames app n s).readBuffer = [] := by
  induction n generalizing s with
  | zero => exact h
  | succ n ih =>
      unfold handleFrames
      split
      · exact h
      · next r hr =>
          split
          · exact h
          · refine ih ?_
            rw [handleFrame_eq]
            unfold next
            split
            · next hempty => exact fun _ => hempty.2
            · exact fun hnone => by cases hnone

theorem processData_exhausted (app : Application) (s : QWebSocket) :
    (s.processData app).reading = none → (s.processData app).readBuffer = [] := by
  unfold processData
  split
  · next hempty => exact fun _ => hempty
  · exact handleFrames_exhausted app _ fun hnone => by cases hnone

/-- **`processData`.** -/
theorem processData_sane {app : Application} (happ : app.Allows P) {patient : Prop}
    {input old : Bytes} {s : QWebSocket} (h : Sane P patient input old s) (hr : s.reading = none) :
    Sane P patient input old (s.processData app) ∧ (s.processData app).Settled := by
  unfold processData
  split
  · exact ⟨h, fun r hr' => by rw [hr] at hr'; cases hr'⟩
  · next hne =>
      obtain ⟨ho, ha, hc, hold, fs, pending, hi⟩ := h
      obtain ⟨ho', ha'⟩ := reading_invariants ho ha (some (Reading.reached s.readBuffer).1)
        (Reading.reached s.readBuffer).2
      have hread : Incoming patient input fs pending s.readFrame := by
        refine ⟨hi.consumed, hi.inOrder, hi.received, fun hopen => ?_, fun hclosed => ?_, hi.errors⟩
        · obtain ⟨hreceived, hprocessor, hposition⟩ := hi.listening hopen
          refine ⟨hreceived, hprocessor, ?_⟩
          cases hposition with
          | idle _ hbuffer =>
              rw [← hbuffer]
              exact .reading rfl rfl
          | reading hreading _ => rw [hreading] at hr; cases hr
          | timedOut _ hreading _ _ => rw [hreading] at hr; cases hr
        · exact absurd (hi.deaf hclosed).1 hne
      refine handleFrames_sane happ ⟨ho', ha', hc, hold, fs, pending, hread⟩ ?_
      exact (readFrame_settled s).imp_right Nat.lt_succ_of_lt

/-! ### What happens to an end

One lemma for each kind of event: data arrive, a wait times out, the application calls, or the
connection ends. -/

theorem Incoming.arrive {patient : Prop} {input pending : Bytes} {fs : List QWebSocketFrame}
    {s : QWebSocket} (hi : Incoming patient input fs pending s) (data : Bytes)
    (reading : Option Reading) (readBuffer : Bytes)
    (hopen : s.isOpen = true → Position patient (pending ++ data)
      { s with reading := reading, readBuffer := readBuffer })
    (hclosed : s.isOpen = false → reading = s.reading ∧ readBuffer = s.readBuffer) :
    Incoming patient (input ++ data) fs (pending ++ data)
      { s with reading := reading, readBuffer := readBuffer } := by
  refine ⟨hi.consumed.append data, hi.inOrder, hi.received, fun h => ?_, fun h => ?_,
    fun hp e he herr => ?_⟩
  · obtain ⟨hreceived, hprocessor, -⟩ := hi.listening h
    exact ⟨hreceived, hprocessor, hopen h⟩
  · obtain ⟨rfl, rfl⟩ := hclosed h
    exact hi.deaf h
  · obtain ⟨f, rest, hparse, hbad⟩ := hi.errors hp e he herr
    exact ⟨f, rest ++ data, parse_append hparse data, hbad⟩

/-- **Data arrive.** The reader goes on where it was waiting, or `processData` is called. -/
theorem arrive_sane {app : Application} (happ : app.Allows P) {patient : Prop} {input old : Bytes}
    {s : QWebSocket} (h : Sane P patient input old s) (hsettled : s.Settled) (data : Bytes) :
    Sane P patient (input ++ data) old (s.arrive app data) ∧ (s.arrive app data).Settled := by
  obtain ⟨ho, ha, hc, hold, fs, pending, hi⟩ := h
  unfold arrive
  split
  · next hopen =>
      obtain ⟨-, -, hposition⟩ := hi.listening hopen
      have hclosed : ∀ {reading readBuffer}, s.isOpen = false → reading = s.reading ∧
          readBuffer = s.readBuffer := by
        intro _ _ hc
        rw [hc] at hopen
        cases hopen
      dsimp only
      split
      · next hr =>
          have hi' := hi.arrive data s.reading (s.readBuffer ++ data)
            (fun _ => ?_) hclosed
          · obtain ⟨ho', ha'⟩ := reading_invariants ho ha s.reading (s.readBuffer ++ data)
            exact ⟨⟨ho', ha', hc, hold, fs, _, hi'⟩, hsettled⟩
          · cases hposition with
            | idle _ hbuffer => exact .idle hr (by rw [hbuffer])
            | reading hreading _ => rw [hreading] at hr; cases hr
            | timedOut _ hreading _ _ => rw [hreading] at hr; cases hr
      · next r hr =>
          have hw := hsettled r hr
          obtain ⟨hreading, hbuffer⟩ : r = (Reading.reached pending).1 ∧
              s.readBuffer = (Reading.reached pending).2 := by
            cases hposition with
            | idle hreading _ => rw [hreading] at hr; cases hr
            | reading hreading hbuffer =>
                rw [hreading] at hr
                cases hr
                exact ⟨rfl, hbuffer⟩
            | timedOut _ hreading hdone _ =>
                rw [hreading] at hr
                cases hr
                rw [hdone.1] at hw
                cases hw
          have hresume : r.resume (s.readBuffer ++ data) = Reading.reached (pending ++ data) := by
            have harrive := Reading.arrive_reached pending data
            rw [Reading.arrive, ← hreading, if_pos hw, ← hbuffer] at harrive
            exact harrive
          have hi' := hi.arrive data (some (Reading.reached (pending ++ data)).1)
            (Reading.reached (pending ++ data)).2 (fun _ => .reading rfl rfl) hclosed
          obtain ⟨ho', ha'⟩ := reading_invariants ho ha (some (Reading.reached (pending ++ data)).1)
            (Reading.reached (pending ++ data)).2
          rw [hresume]
          refine handleFrames_sane happ ⟨ho', ha', hc, hold, fs, _, hi'⟩ (.inr ?_)
          rw [← hresume]
          exact Nat.lt_succ_of_le (turns_length_le _ _ _)
  · next hopen =>
      have hopen' : s.isOpen = false := by simpa using hopen
      have hi' := hi.arrive data s.reading s.readBuffer
        (fun h => absurd h hopen) (fun _ => ⟨rfl, rfl⟩)
      exact ⟨⟨ho, ha, hc, hold, fs, _, hi'⟩, hsettled⟩

/-- Less patience. -/
theorem Sane.mono {patient patient' : Prop} (hle : patient' → patient) {input old : Bytes}
    {s : QWebSocket} (h : Sane P patient input old s) : Sane P patient' input old s := by
  obtain ⟨ho, ha, hc, hold, fs, pending, hi⟩ := h
  refine ⟨ho, ha, hc, hold, fs, pending, hi.consumed, hi.inOrder, hi.received, fun hopen => ?_,
    fun hclosed => ?_,
    fun hp => hi.errors (hle hp)⟩
  · obtain ⟨hreceived, hprocessor, hposition⟩ := hi.listening hopen
    refine ⟨hreceived, hprocessor, ?_⟩
    cases hposition with
    | idle hreading hbuffer => exact .idle hreading hbuffer
    | reading hreading hbuffer => exact .reading hreading hbuffer
    | timedOut himpatient hreading hdone hinvalid hproper =>
        exact .timedOut (fun hp => himpatient (hle hp)) hreading hdone hinvalid hproper
  · obtain ⟨hbuffer, hreading⟩ := hi.deaf hclosed
    exact ⟨hbuffer, fun r hr => (hreading r hr).imp_right fun h => ⟨fun hp => h.1 (hle hp), h.2⟩⟩

/-- **A wait times out.** From now on the end is not patient any more. -/
theorem timeOut_sane {app : Application} (happ : app.Allows P) {patient : Prop} {input old : Bytes}
    {s : QWebSocket} (h : Sane P patient input old s) (hsettled : s.Settled) :
    Sane P False input old (s.timeOut app) ∧ (s.timeOut app).Settled := by
  unfold timeOut
  split
  · exact ⟨h.mono False.elim, hsettled⟩
  · next r hr =>
      obtain ⟨ho, ha, hc, hold, fs, pending, hi⟩ := h
      obtain ⟨ho', ha'⟩ := reading_invariants ho ha (some r.timeOut) s.readBuffer
      have hdone : r.timeOut.Done := ⟨rfl, rfl⟩
      refine handleFrames_sane happ
        ⟨ho', ha', hc, hold, fs, pending, ⟨hi.consumed, hi.inOrder, hi.received,
        fun hopen => ?_, fun hclosed => ?_, fun hp => hp.elim⟩⟩ (.inr (Nat.lt_succ_self _))
      · obtain ⟨hreceived, hprocessor, -⟩ := hi.listening hopen
        exact ⟨hreceived, hprocessor, .timedOut not_false rfl hdone rfl (Reading.proper_timeOut r)⟩
      · refine ⟨(hi.deaf hclosed).1, fun r' hr' => ?_⟩
        cases hr'
        exact .inr ⟨not_false, hdone, rfl, Reading.proper_timeOut r⟩

/-- **The application calls.** -/
theorem call_sane {app : Application} {patient : Prop} {input old : Bytes} {s : QWebSocket}
    (h : Sane P patient input old s) (hsettled : s.Settled) {c : Call} (hcall : c.ClosesWith P) :
    Sane P patient input old (s.call app c) ∧ (s.call app c).Settled := by
  obtain ⟨ho, ha, hc, hold, fs, pending, hi⟩ := h
  have hacts := call_acts app ho.toCoherent hcall
  have hh := hacts.handles
  have hsame : s.taken s.dataProcessor [] = s := by
    unfold taken
    rw [List.append_nil]
  have hsettled' : (s.call app c).Settled := by
    unfold Settled
    rw [hh.reading]
    exact hsettled
  refine ⟨⟨hacts.outgoing ho, ?_, Grows.sane ⟨hh.written, hh.closes⟩ hc, hold.trans hh.written, fs,
    pending, ⟨hi.consumed, hi.inOrder, ?_, fun hopen => ?_,
    fun hclosed => ⟨?_, fun r hr => .inl (hsettled' r hr)⟩, ?_⟩⟩, hsettled'⟩
  · have htaken : Handles P [] (s.taken s.dataProcessor []) (s.call app c) := by
      rw [hsame]
      exact hh
    exact ha.handles htaken fun _ _ hmem => absurd hmem List.not_mem_nil
  · rw [hh.received]
    exact hi.received
  · obtain ⟨hopen', hbuffer⟩ := hh.stillOpen hopen
    obtain ⟨hreceived, hprocessor, hposition⟩ := hi.listening hopen'
    refine ⟨hh.received.trans hreceived, hh.dataProcessor.trans hprocessor, ?_⟩
    cases hposition with
    | idle hreading hb => exact .idle (hh.reading.trans hreading) (hbuffer.trans hb)
    | reading hreading hb => exact .reading (hh.reading.trans hreading) (hbuffer.trans hb)
    | timedOut himpatient hreading hdone hinvalid hproper =>
        exact .timedOut himpatient (hh.reading.trans hreading) hdone hinvalid hproper
  · exact hh.closed (fun hc => (hi.deaf hc).1) hclosed
  · rw [hh.received]
    exact hi.errors

/-- **The connection ends.** Nothing more is read or written. -/
theorem becomeUnconnected_sane {patient : Prop} {input old : Bytes} {s : QWebSocket}
    (h : Sane P patient input old s) (hsettled : s.Settled) :
    Sane P patient input old s.becomeUnconnected ∧ s.becomeUnconnected.Settled := by
  unfold becomeUnconnected
  split
  · exact ⟨h, hsettled⟩
  · obtain ⟨ho, ha, hc, hold, fs, pending, hi⟩ := h
    refine ⟨⟨⟨⟨fun _ h => (by cases h), fun _ h => (by cases h)⟩, ho.encodes, ho.isOpen_eq,
      ho.unclosed, ho.closeFrame⟩,
      ⟨?_, ha.pongs, fun hw => absurd rfl hw.2, ha.heard, ha.agreed⟩, hc, hold, fs, pending,
      hi.consumed, hi.inOrder,
      hi.received, fun hopen => ?_, hi.deaf, hi.errors⟩, hsettled⟩
    · show (s.signals ++ [WebSocketSignal.disconnected]).filter WebSocketSignal.isData = _
      rw [List.filter_append, ha.signals]
      exact List.append_nil _
    · obtain ⟨hreceived, hprocessor, hposition⟩ := hi.listening hopen
      refine ⟨hreceived, hprocessor, ?_⟩
      cases hposition with
      | idle hreading hb => exact .idle hreading hb
      | reading hreading hb => exact .reading hreading hb
      | timedOut himpatient hreading hdone hinvalid hproper =>
          exact .timedOut himpatient hreading hdone hinvalid hproper

/-- **A step of an end.** -/
theorem occur_sane {app : Application} (happ : app.Allows P) {patient : Prop} {input old : Bytes}
    {s : QWebSocket} (h : Sane P patient input old s) (hsettled : s.Settled) {e : Event}
    (he : ∀ c, e = .call c → c.ClosesWith P) :
    Sane P (patient ∧ e ≠ .timeOut) (input ++ e.data) s.written (s.occur app e) ∧
      (s.occur app e).Settled := by
  replace h : Sane P patient input s.written s := 
    ⟨h.outgoing, h.answers, h.closes, List.prefix_refl _, h.incoming⟩
  cases e with
  | call c =>
      have hmono : Sane P (patient ∧ Event.call c ≠ .timeOut) (input ++ []) s.written s := by
        rw [List.append_nil]
        exact h.mono And.left
      unfold occur
      dsimp only
      split
      · exact call_sane hmono hsettled (he c rfl)
      · exact ⟨hmono, hsettled⟩
  | arrive data => exact arrive_sane happ (h.mono And.left) hsettled data
  | processData =>
      have hmono : Sane P (patient ∧ Event.processData ≠ .timeOut) (input ++ []) s.written s := by
        rw [List.append_nil]
        exact h.mono And.left
      unfold occur
      dsimp only
      split
      · next hr => exact processData_sane happ hmono hr
      · exact ⟨hmono, hsettled⟩
  | timeOut =>
      obtain ⟨hsane, hsettled'⟩ := timeOut_sane happ h hsettled
      refine ⟨?_, hsettled'⟩
      rw [show input ++ Event.timeOut.data = input from List.append_nil _]
      exact hsane.mono fun hp => hp.2 rfl
  | becomeUnconnected =>
      obtain ⟨hsane, hsettled'⟩ := becomeUnconnected_sane h hsettled
      refine ⟨?_, hsettled'⟩
      rw [show input ++ Event.becomeUnconnected.data = input from List.append_nil _]
      exact hsane.mono And.left

/-- The invariant holds at the beginning. -/
theorem connected_sane (mustMask : Bool) :
    Sane P True [] [] (connected mustMask) ∧ (connected mustMask).Settled := by
  have hincoming : Incoming True [] [] [] (connected mustMask) := by
    refine ⟨.nil, trivial, rfl, fun _ => ⟨rfl, rfl, .idle rfl rfl⟩, fun h => ?_, fun _ e he => ?_⟩
    · cases h
    · cases he
  have hanswers : Answers (connected mustMask) := by
    refine ⟨rfl, List.prefix_refl _, fun _ => rfl, rfl, fun _ _ hmem => ?_⟩
    cases hmem
  refine ⟨⟨outgoing_connected mustMask, hanswers, fun _ _ hmem => absurd hmem List.not_mem_nil,
    List.nil_prefix, [], [], hincoming⟩, fun r hr => ?_⟩
  cases hr

/-- **A run of an end.** Its invariant holds after every sequence of events. -/
theorem foldl_occur_sane {app : Application} (happ : app.Allows P) (mustMask : Bool)
    (events : List Event) (hevents : ∀ c, .call c ∈ events → c.ClosesWith P) :
    Sane P (.timeOut ∉ events) (events.flatMap Event.data) []
      (events.foldl (occur app) (connected mustMask)) ∧
        (events.foldl (occur app) (connected mustMask)).Settled := by
  induction events using List.reverseRecOn with
  | nil =>
      obtain ⟨hsane, hsettled⟩ := connected_sane mustMask
      exact ⟨hsane.mono fun _ => trivial, hsettled⟩
  | append_singleton events e ih =>
      have hbefore := ih fun c hc => hevents c (List.mem_append_left _ hc)
      obtain ⟨hsane, hsettled⟩ := occur_sane happ hbefore.1 hbefore.2 (e := e) fun c hc =>
        hevents c (by rw [hc]; exact List.mem_append_right _ (List.mem_singleton_self _))
      rw [List.foldl_append, List.flatMap_append, List.flatMap_singleton]
      have hsane := Sane.mk hsane.outgoing hsane.answers hsane.closes List.nil_prefix hsane.incoming
      refine ⟨hsane.mono fun hp => ⟨fun hmem => hp (List.mem_append_left _ hmem), fun he => hp ?_⟩,
        hsettled⟩
      rw [he]
      exact List.mem_append_right _ (List.mem_singleton_self _)

/-! ### Any input

Two theorems about an end whose other end may be anything at all. -/

/-- **Everything that is written is frames.** Whatever arrives, in whatever pieces and at whatever
times: if the application closes with proper codes and reasons, then an end writes the frames of
what it sends, every close frame has a proper code and reason, and nothing follows a close frame. -/
theorem written_frames (app : Application) (mustMask : Bool) (events : List Event)
    (hreact : ∀ before signal, ∀ c ∈ app.react before signal, c.ClosesWith ProperClose)
    (hcall : ∀ c, .call c ∈ events → c.ClosesWith ProperClose) :
    let s := events.foldl (occur app) (connected mustMask)
    (∃ parts, List.Forall₂ Wire s.sent parts ∧ s.written = parts.flatten.flatMap WireFrame.bytes) ∧
    (∀ closeCode reason, .close closeCode reason ∈ s.sent → ProperClose closeCode reason) ∧
    (∀ t ∈ s.sent, t.isClose = true → ∃ l, s.sent = l ++ [t] ∧ ∀ t' ∈ l, t'.isClose = false) := by
  intro s
  obtain ⟨hsane, -⟩ := foldl_occur_sane ⟨fun _ _ h => h, hreact⟩ mustMask events hcall
  refine ⟨?_, hsane.closes, fun t ht hclose => encodes_close hsane.outgoing.encodes ht hclose⟩
  obtain ⟨parts, tail, sent, hparts, hwritten, -,
      ⟨hsent, rfl⟩ | ⟨closeCode, reason, key, hsent, hlong, -⟩⟩ :=
    encodes_wires hsane.outgoing.encodes
  · refine ⟨parts, ?_, hwritten.trans (List.append_nil _)⟩
    rw [hsent]
    exact hparts
  · have hproper := hsane.closes closeCode reason (by rw [hsent]; simp)
    have hshort := hproper.short
    rw [closeData, List.length_append, length_toBigEndian] at hlong
    omega

/-- A client says hello and closes, while something arrives that is not a frame. -/
theorem written_frames_hello :
    let events : List Event :=
  [.call (.sendTextMessage (QString.ofAscii "hello")), .arrive [0xFF, 0xFF],
      .call (.close closeCodeGoingAway (QString.ofAscii "bye"))]
    let s := events.foldl (occur (.silent UInt32.ofNat)) (connected true)
    (∃ parts, List.Forall₂ Wire s.sent parts ∧ s.written = parts.flatten.flatMap WireFrame.bytes) ∧
    (∀ closeCode reason, .close closeCode reason ∈ s.sent → ProperClose closeCode reason) ∧
    (∀ t ∈ s.sent, t.isClose = true → ∃ l, s.sent = l ++ [t] ∧ ∀ t' ∈ l, t'.isClose = false) := by
  refine written_frames (.silent UInt32.ofNat) true _
    (fun _ _ _ hc => absurd hc List.not_mem_nil) fun c hc => ?_
  simp only [List.mem_cons, Event.call.injEq, reduceCtorEq, List.not_mem_nil,
    or_false, false_or] at hc
  rcases hc with rfl | rfl
  · exact fun _ _ h => by cases h
  · rintro _ _ ⟨⟩
    exact ⟨by decide, by decide⟩

/-- **Only the bytes count.** An end that is open and has read all of its input has announced
everything that an end makes of a part of this input: in whatever pieces and at whatever times it
arrives, whatever the applications do, and whether they mask their frames or not. -/
theorem received_prefix_of_input (app app' : Application) (mustMask mustMask' : Bool)
    (events events' : List Event)
    (hinput : events.flatMap Event.data <+: events'.flatMap Event.data)
    (hopen : (events'.foldl (occur app') (connected mustMask')).isOpen = true)
    (hread : (events'.foldl (occur app') (connected mustMask')).reading = none →
      (events'.foldl (occur app') (connected mustMask')).readBuffer = []) :
    (events.foldl (occur app) (connected mustMask)).received.filter (fun e => !e.isError) <+:
      (events'.foldl (occur app') (connected mustMask')).received := by
  obtain ⟨hsane, -⟩ := foldl_occur_sane app.allows_true mustMask events
    fun _ _ _ _ _ => trivial
  obtain ⟨hsane', hsettled'⟩ := foldl_occur_sane app'.allows_true mustMask' events'
    fun _ _ _ _ _ => trivial
  generalize events.foldl (occur app) (connected mustMask) = s at *
  generalize events'.foldl (occur app') (connected mustMask') = s' at *
  obtain ⟨fs, pending, hi⟩ := hsane.incoming
  obtain ⟨fs', pending', hi'⟩ := hsane'.incoming
  obtain ⟨more, hmore⟩ := hinput
  obtain ⟨hreceived', -, hposition⟩ := hi'.listening hopen
  have hnone : parse pending' = none := hposition.parse_none hsettled' hread
  have hconsumed := hi.consumed.append more
  rw [hmore] at hconsumed
  obtain ⟨gs, hgs⟩ := hconsumed.prefix_of_parse_none hi'.consumed hnone
  rw [hi.received, hreceived', ← hgs, announced_append]
  exact List.prefix_append _ _

/-- The beginning of a frame, and the frame byte by byte. -/
theorem received_prefix_of_input_hello :
    let events : List Event := [.arrive [0x81, 0x02, 0x68], .processData]
    let events' : List Event :=
      [.arrive [0x81], .processData, .arrive [0x02], .arrive [0x68], .arrive [0x69]]
    (events.foldl (occur (.silent UInt32.ofNat)) (connected false)).received.filter
      (fun e => !e.isError) <+:
      (events'.foldl (occur (.silent UInt32.ofNat)) (connected true)).received :=
  received_prefix_of_input _ _ false true _ _ (by decide) (by decide) (by decide)

end QWebSocket

end QtWebApp
