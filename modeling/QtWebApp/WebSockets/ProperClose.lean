import QtWebApp.WebSockets.Delivery

/-!
# QtWebApp.WebSockets.ProperClose

With which codes and reasons an end closes because of what has arrived.

The code is always one that may be sent, and the reason fits into a close frame: of the errors that
`readFrame` finds, of those that the data processor finds, and of the close frames that are
answered.

That matters because `close` writes a frame with whatever code and reason it is given. An end that
closes on its own account therefore never sends a close frame that the other end would reject; only
the application can do that. The errors that are found while reading have fixed reasons, which are
checked one by one; the reason of a close frame that is answered is as long as it came.
-/

namespace QtWebApp

open QWebSocketProtocol Utf8 QWebSocketFrame

/-- A code that may be sent, with a reason that fits into a close frame. -/
structure ProperClose (closeCode : CloseCode) (reason : QString) : Prop where
  valid : isCloseCodeValid closeCode = true
  short : (toUtf8 reason).length ≤ 123

instance (closeCode : CloseCode) (reason : QString) : Decidable (ProperClose closeCode reason) :=
  decidable_of_iff (isCloseCodeValid closeCode = true ∧ (toUtf8 reason).length ≤ 123)
    ⟨fun h => ⟨h.1, h.2⟩, fun h => ⟨h.valid, h.short⟩⟩

namespace QWebSocketFrame.Reading

/-- The frame closes properly, if it closes. -/
def Proper (r : Reading) : Prop := ProperClose r.frame.closeCode r.frame.closeReason

/-- A new frame has the code of a normal closure, and no reason. -/
theorem proper_new : ProperClose QWebSocketFrame.new.closeCode QWebSocketFrame.new.closeReason := by
  decide

/-- The check of the header has fixed reasons. -/
theorem proper_checkValidity {f : QWebSocketFrame} (h : ProperClose f.closeCode f.closeReason) :
    ProperClose f.checkValidity.closeCode f.checkValidity.closeReason := by
  unfold checkValidity
  split_ifs
  · decide
  · decide
  · decide
  · decide
  · exact h
  · exact h

theorem proper_fail (r : Reading) {code : CloseCode} {reason : String}
    (h : ProperClose code (QString.ofAscii reason)) : (r.fail code reason).Proper := h

/-- Waiting for bytes changes no reason. -/
theorem proper_take {r : Reading} (h : r.Proper) (n : Nat) (b : Bytes) {next : Bytes → Reading}
    (hnext : ∀ d, (next d).Proper) : (r.take n b next).1.Proper := by
  unfold take
  split
  · exact hnext _
  · exact h

theorem proper_header (r : Reading) (first second : UInt8) : (r.header first second).Proper := by
  have hframe : ProperClose (headerFrame first second).checkValidity.closeCode
      (headerFrame first second).checkValidity.closeReason := proper_checkValidity proper_new
  unfold header Proper
  dsimp only
  split_ifs <;> exact hframe

/-- One case for each state of the reader. -/
theorem proper_turn {r : Reading} (h : r.Proper) (b : Bytes) : (r.turn b).1.Proper := by
  unfold turn
  by_cases hw : r.waiting = true
  · rw [if_pos hw]
    exact h
  · rw [if_neg hw]
    cases r.processingState with
    | readHeader => exact proper_take h 2 b fun d => proper_header r _ _
    | readPayloadLength =>
        refine proper_take h 2 b fun d => ?_
        unfold shortLength
        dsimp only
        split_ifs
        · exact proper_fail _ (by decide)
        · exact h
    | readBigPayloadLength =>
        refine proper_take h 8 b fun d => ?_
        unfold bigLength
        dsimp only
        split_ifs
        · exact proper_fail _ (by decide)
        · exact proper_fail _ (by decide)
        · exact h
    | readMask => exact proper_take h 4 b fun d => h
    | readPayload =>
        dsimp only
        split_ifs
        · exact h
        · exact proper_fail _ (by decide)
        · exact proper_take h _ b fun d => h
    | dispatchResult => exact h

theorem proper_turns {r : Reading} (h : r.Proper) (n : Nat) (b : Bytes) :
    (r.turns n b).1.Proper := by
  induction n generalizing r b with
  | zero => exact h
  | succ n ih => exact ih (proper_turn h b) _

/-- **`readFrame`** finds errors that are told properly. -/
theorem proper_reached (b : Bytes) : (reached b).1.Proper :=
  proper_turns (r := start) proper_new 4 b

/-- A wait that takes too long. -/
theorem proper_timeOut (r : Reading) : r.timeOut.Proper := proper_fail r (by decide)

end QWebSocketFrame.Reading

namespace QWebSocketDataProcessor

open ProcessorSignal

/-- What a signal makes an end close with is proper. -/
def ProperSignal (s : ProcessorSignal) : Prop :=
  ∀ closeCode reason, s = .closeReceived closeCode reason ∨ s = .errorEncountered closeCode reason →
    ProperClose closeCode reason

/-- A text without its byte order mark is not longer. -/
theorem toUtf8_tail_le {t : QString} (h : t.head? = some 0xFEFF) :
    (toUtf8 t.tail).length ≤ (toUtf8 t).length := by
  cases t with
  | nil => exact Nat.le_refl _
  | cons u rest =>
      obtain rfl : u = 0xFEFF := Option.some_inj.mp h
      have hmark : codePoints (utf16 0xFEFF ++ rest) = 0xFEFF :: codePoints rest :=
        codePoints_cons (.inr ⟨by norm_num, by norm_num⟩) rest
      have hone : utf16 0xFEFF ++ rest = 0xFEFF :: rest := rfl
      rw [hone] at hmark
      show ((codePoints rest).flatMap bytesOf).length ≤
        ((codePoints (0xFEFF :: rest)).flatMap bytesOf).length
      rw [hmark, List.flatMap_cons, List.length_append]
      exact Nat.le_add_left _ _

/-- A text that was read without fault is not longer than its bytes. -/
theorem toUnicodeWithHeader_short {b : Bytes} {n : Nat}
    (hvalid : (toUnicodeWithHeader b).2.invalidChars = 0)
    (hrest : (toUnicodeWithHeader b).2.remaining = []) (hn : b.length ≤ n) :
    (toUtf8 (toUnicodeWithHeader b).1).length ≤ n := by
  have hconvert := @convertToUnicode_eq .new ConverterState.pending_new b (.inr rfl)
  rw [show ConverterState.new.remaining ++ b = b from rfl] at hconvert
  have hstate : (toUnicodeWithHeader b).2 = (convertToUnicode b .new).2 := rfl
  rw [hstate] at hvalid hrest
  cases hdec : decode b with
  | none =>
      rw [hdec] at hconvert
      exact absurd hvalid hconvert
  | some p =>
      obtain ⟨t, r⟩ := p
      rw [hdec] at hconvert
      dsimp only at hconvert
      rw [hconvert] at hrest
      dsimp only at hrest
      rw [hrest] at hdec
      have hbytes := toUtf8_decode hdec
      have htext : (toUnicodeWithHeader b).1 = if t.head? = some 0xFEFF then t.tail else t := by
        unfold toUnicodeWithHeader
        rw [hconvert]
      rw [htext]
      split
      · next hmark =>
          have hle := toUtf8_tail_le hmark
          rw [hbytes] at hle
          exact Nat.le_trans hle hn
      · rw [hbytes]
        exact hn

/-- The answer to a close frame is proper, whatever is in it. -/
theorem closePayload_proper {payload : Bytes} (h : payload.length ≤ 125) :
    ProperClose (closePayload payload).1 (closePayload payload).2 := by
  unfold closePayload
  split
  · decide
  · split
    · decide
    · dsimp only
      split
      · decide
      · next hvalid =>
          have hcode : isCloseCodeValid (fromBigEndian (payload.take 2)) = true := by
            simpa using hvalid
          split
          · exact ⟨hcode, Nat.zero_le _⟩
          · split
            · decide
            · next hgood =>
                refine ⟨hcode, ?_⟩
                rw [not_or, not_not, not_not] at hgood
                exact toUnicodeWithHeader_short hgood.1 hgood.2 (by rw [List.length_drop]; omega)

theorem proper_error {code : CloseCode} {description : QString} (h : ProperClose code description) :
    ProperSignal (.errorEncountered code description) := by
  rintro closeCode reason (heq | heq)
  · cases heq
  · cases heq
    exact h

/-- The fixed errors of the data processor. -/
theorem proper_failWith (p : QWebSocketDataProcessor) {code : CloseCode} {description : String}
    (h : ProperClose code (QString.ofAscii description)) :
    ∀ s ∈ (p.failWith code description).signals, ProperSignal s := by
  intro s hs
  rw [List.mem_singleton.mp hs]
  exact proper_error h

/-- A close frame that is answered with its own reason. -/
theorem proper_controlSignals {f : QWebSocketFrame} (h : f.payload.length ≤ 125) :
    ∀ s ∈ controlSignals f, ProperSignal s := by
  intro s hs closeCode reason heq
  unfold controlSignals at hs
  cases hop : f.opCode <;> rw [hop] at hs
  case close =>
    obtain rfl := List.mem_singleton.mp hs
    rcases heq with heq | heq
    · cases heq
      exact closePayload_proper h
    · cases heq
  case ping =>
    obtain rfl := List.mem_singleton.mp hs
    rcases heq with heq | heq <;> cases heq
  case pong =>
    obtain rfl := List.mem_singleton.mp hs
    rcases heq with heq | heq <;> cases heq
  all_goals exact absurd hs List.not_mem_nil

/-- A signal that closes nothing. -/
theorem proper_data {s : ProcessorSignal} (herror : s.isError = false)
    (hcontrol : s.isControl = false) :
    ProperSignal s := by
  rintro closeCode reason (rfl | rfl)
  · cases hcontrol
  · cases herror

/-- A text that is not UTF-8, or too large. -/
theorem proper_processText (p : QWebSocketDataProcessor) (f : QWebSocketFrame) :
    ∀ s ∈ (p.processText f).signals, ProperSignal s := by
  unfold processText
  dsimp only
  split_ifs
  · exact proper_failWith _ (by decide)
  · rw [List.forall_mem_cons, List.forall_mem_singleton]
    exact ⟨proper_data rfl rfl, proper_data rfl rfl⟩
  · rw [List.forall_mem_singleton]
    exact proper_data rfl rfl

theorem proper_processBinary (p : QWebSocketDataProcessor) (f : QWebSocketFrame) :
    ∀ s ∈ (p.processBinary f).signals, ProperSignal s := by
  unfold processBinary
  dsimp only
  split_ifs
  · rw [List.forall_mem_cons, List.forall_mem_singleton]
    exact ⟨proper_data rfl rfl, proper_data rfl rfl⟩
  · rw [List.forall_mem_singleton]
    exact proper_data rfl rfl

theorem proper_processDataFrame (p : QWebSocketDataProcessor) (f : QWebSocketFrame) :
    ∀ s ∈ (p.processDataFrame f).signals, ProperSignal s := by
  unfold processDataFrame
  by_cases hfirst : (!p.isFragmented && f.isContinuationFrame) = true
  · rw [if_pos hfirst]
    exact proper_failWith _ (by decide)
  · rw [if_neg hfirst]
    by_cases hsecond : (p.isFragmented && f.isDataFrame && !f.isContinuationFrame) = true
    · rw [if_pos hsecond]
      exact proper_failWith _ (by decide)
    · rw [if_neg hsecond]
      generalize (if f.isContinuationFrame then p
        else { p with opCode := f.opCode, isFragmented := !f.isFinalFrame }) = q
      dsimp only
      split_ifs
      · exact proper_failWith _ (by decide)
      · exact proper_processText _ f
      · exact proper_processBinary _ f

/-- **The data processor** closes with proper codes and reasons, whatever it gets. -/
theorem proper_processFrame (p : QWebSocketDataProcessor) {f : QWebSocketFrame}
    (h : ProperClose f.closeCode f.closeReason)
    (hcontrol : f.isValid = true → f.isControlFrame = true → f.payload.length ≤ 125) :
    ∀ s ∈ (p.processFrame f).signals, ProperSignal s := by
  unfold processFrame
  split_ifs with hv hc
  · exact proper_controlSignals (hcontrol hv hc)
  · exact proper_processDataFrame p f
  · intro s hs
    rw [List.mem_singleton.mp hs]
    exact proper_error h

end QWebSocketDataProcessor

end QtWebApp
