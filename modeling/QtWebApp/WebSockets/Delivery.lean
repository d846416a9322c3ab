import Mathlib.Data.List.Forall2
import QtWebApp.WebSockets.Sending
import QtWebApp.WebSockets.Reassembly

/-!
# QtWebApp.WebSockets.Delivery

What one end sends is what the data processor of the other end announces.

The frames of a message come in order, and the processor puts exactly that message together. So the
frames of some transmissions are announced as these transmissions, and nothing of them is left over.

Reading is right only for what fits: a message that is larger than the data processor takes and a
reason that is too long for a close frame are sent, and rejected at the other end (`Fits`). A text
comes out as `scrub` leaves it, since a surrogate that stands alone has no UTF-8.
-/

namespace QtWebApp

open QWebSocketProtocol Utf8

/-- What the other end announces. -/
def Transmission.announcement : Transmission → ProcessorSignal
  | .text message => .textMessageReceived (scrub message)
  | .binary data => .binaryMessageReceived data
  | .ping payload => .pingReceived payload
  | .pong payload => .pongReceived payload
  | .close closeCode reason =>
      let (closeCode, reason) := QWebSocketDataProcessor.closePayload
          (QWebSocket.closeData closeCode reason)
      .closeReceived closeCode reason

/-- The other end takes it: a message that is not too large, a reason that is not too long. -/
def Transmission.Fits : Transmission → Prop
  | .text message => (toUtf8 message).length ≤ maxMessageSize
  | .binary data => data.length ≤ maxMessageSize
  | .close closeCode reason => (QWebSocket.closeData closeCode reason).length ≤ 125
  | _ => True

instance : (t : Transmission) → Decidable t.Fits
  | .text message => inferInstanceAs (Decidable ((toUtf8 message).length ≤ maxMessageSize))
  | .binary data => inferInstanceAs (Decidable (data.length ≤ maxMessageSize))
  | .close closeCode reason =>
      inferInstanceAs (Decidable ((QWebSocket.closeData closeCode reason).length ≤ 125))
  | .ping _ | .pong _ => isTrue trivial

/-- The signal is about something complete. -/
def ProcessorSignal.isComplete (s : ProcessorSignal) : Bool := s.isMessage || s.isControl

theorem ProcessorSignal.not_isError_of_isComplete {s : ProcessorSignal} (h : s.isComplete = true) :
    s.isError = false := by
  cases s <;> first | rfl | cases h

namespace QWebSocketDataProcessor

/-! ### Frames in two parts

The functions of the reassembly over a list of frames, for a list that is cut somewhere. The second
part starts with what the first one has left unfinished. -/

theorem unfinished_append (g fs fs' : List QWebSocketFrame) :
    unfinished g (fs ++ fs') = unfinished (unfinished g fs) fs' := by
  induction fs generalizing g with
  | nil => rfl
  | cons f fs ih =>
      rw [List.cons_append, unfinished, unfinished]
      split_ifs
      · exact ih g
      · exact ih []
      · exact ih (g ++ [f])

theorem announced_append (g fs fs' : List QWebSocketFrame) :
    announced g (fs ++ fs') = announced g fs ++ announced (unfinished g fs) fs' := by
  induction fs generalizing g with
  | nil => rfl
  | cons f fs ih =>
      rw [List.cons_append, announced, announced, unfinished]
      split_ifs
      · rw [ih, List.append_assoc]
      · rw [ih, List.cons_append, List.cons_append]
      · rw [ih, List.cons_append]

/-- Frames come in order if the second part continues the first one. -/
theorem inOrder_append (g fs fs' : List QWebSocketFrame) :
    InOrder g (fs ++ fs') ↔ InOrder g fs ∧ InOrder (unfinished g fs) fs' := by
  induction fs generalizing g with
  | nil => exact ⟨fun h => ⟨trivial, h⟩, fun h => h.2⟩
  | cons f fs ih =>
      rw [List.cons_append, InOrder, InOrder, unfinished]
      split_ifs
      · rw [ih, and_assoc]
      · rw [ih, and_assoc, and_assoc]
      · rw [ih, and_assoc, and_assoc]

/-- No frame that comes in order is an error. -/
theorem inOrder_isValid {g fs : List QWebSocketFrame} (h : InOrder g fs) :
    ∀ f ∈ fs, f.isValid = true := by
  induction fs generalizing g with
  | nil => exact fun f hf => absurd hf List.not_mem_nil
  | cons f fs ih =>
      rw [InOrder] at h
      rw [List.forall_mem_cons]
      refine ⟨h.1, ?_⟩
      have hrest := h.2
      split_ifs at hrest
      · exact ih hrest
      · exact ih hrest.2
      · exact ih hrest.2

/-! ### One frame

What the data processor makes of one frame depends on whether the frame comes in order, and that can
be read off from the frames before it. -/

/-- What is left unfinished is the beginning of a message again. -/
theorem sound_unfinished {g fs : List QWebSocketFrame} (hg : Sound g) (h : InOrder g fs) :
    Sound (unfinished g fs) := by
  induction fs generalizing g with
  | nil => exact hg
  | cons f fs ih =>
      rw [InOrder] at h
      rw [unfinished]
      obtain ⟨-, h⟩ := h
      split_ifs at h ⊢
      · exact ih hg h
      · exact ih sound_nil h.2
      · exact ih (sound_append h.1) h.2

/-- What becomes of a frame: it is announced if it comes in order, otherwise there is an error. -/
theorem processFrame_cases {g : List QWebSocketFrame} (hg : Sound g) (f : QWebSocketFrame) :
    (InOrder g [f] ∧ ((accumulated g).processFrame f).processor = accumulated (unfinished g [f]) ∧
      ((accumulated g).processFrame f).signals = announced g [f]) ∨
    (¬ InOrder g [f] ∧ ∃ code description,
      (accumulated g).processFrame f = ⟨new, [.errorEncountered code description], true⟩) := by
  by_cases h : InOrder g [f]
  · have hrun := processFrames_inOrder hg h
    rw [processFrames_cons, Prod.mk.injEq] at hrun
    exact .inl ⟨h, hrun.1, (List.append_nil _).symm.trans hrun.2⟩
  · refine .inr ⟨h, ?_⟩
    by_cases hv : f.isValid = true
    · by_cases hc : f.isControlFrame = true
      · refine absurd ⟨hv, ?_⟩ h
        rw [if_pos hc]
        trivial
      · have hframe : (accumulated g).processFrame f = (accumulated g).processDataFrame f := by
          rw [processFrame, if_pos hv, if_neg hc]
        rcases processDataFrame_cases hg (isDataFrame_of_not_control hc)
          with ⟨hadmits, -⟩ | ⟨-, heq⟩
        · refine absurd ⟨hv, ?_⟩ h
          rw [if_neg hc]
          refine ⟨hadmits, ?_⟩
          split <;> trivial
        · rw [hframe]
          exact heq
    · exact ⟨_, _, by rw [processFrame, if_neg hv, clear_eq]⟩

/-- Only a control frame is announced as one. -/
theorem announced_isControl {g : List QWebSocketFrame} {f : QWebSocketFrame} {s : ProcessorSignal}
    (h : s ∈ announced g [f]) (hs : s.isControl = true) :
    f.isControlFrame = true ∧ announced g [f] = controlSignals f := by
  rw [announced] at h ⊢
  have hframe : (frameSignal g f).isControl = false := by
    unfold frameSignal
    split <;> rfl
  have hmessage : (messageSignal (g ++ [f])).isControl = false := by
    unfold messageSignal
    split <;> rfl
  split_ifs at h ⊢ with hc hfinal
  · exact ⟨hc, List.append_nil _⟩
  · simp only [announced, List.mem_cons, List.not_mem_nil, or_false] at h
    rcases h with rfl | rfl
    · rw [hframe] at hs
      cases hs
    · rw [hmessage] at hs
      cases hs
  · simp only [announced, List.mem_cons, List.not_mem_nil, or_false] at h
    rw [h, hframe] at hs
    cases hs

/-! ### The frames of a message

By induction on the fragments: the first frame has the opcode, the others continue it, and the last
one makes the message complete. -/

theorem frame_isControlFrame (w : WireFrame) :
    w.frame.isControlFrame = decide (8 ≤ w.opCode.toNat) := by
  have h := WireFrame.isControlFrame_iff w.frame
  cases hc : w.frame.isControlFrame with
  | true => exact (decide_eq_true (h.mp hc)).symm
  | false => exact (decide_eq_false fun hle => by rw [h.mpr hle] at hc; cases hc).symm

/-- The pieces are the whole data. -/
theorem fragments_payloads {opCode : OpCode} {data : Bytes} {ws : List WireFrame}
    (h : QWebSocket.Fragments opCode data ws) : payloads (ws.map WireFrame.frame) = data := by
  induction h with
  | last hfinal hsize => exact List.append_nil _
  | more hfinal hsize hdata hrest ih => exact congrArg (_ ++ ·) ih

/-- The frames of a message are announced as one message, and nothing is left over. -/
theorem fragments_announced {opCode : OpCode} {data : Bytes} {ws : List WireFrame}
    (h : QWebSocket.Fragments opCode data ws) (hop : opCode.toNat < 8) (g : List QWebSocketFrame) :
    (announced g (ws.map WireFrame.frame)).filter ProcessorSignal.isComplete =
        [messageSignal (g ++ ws.map WireFrame.frame)] ∧
      unfinished g (ws.map WireFrame.frame) = [] := by
  have hframe : ∀ g f, (frameSignal g f).isComplete = false := by
    intro g f
    unfold frameSignal
    split <;> rfl
  have hmessage : ∀ g, (messageSignal g).isComplete = true := by
    intro g
    unfold messageSignal
    split <;> rfl
  induction h generalizing g with
  | @last w hfinal hsize =>
      have hdata : ¬ w.frame.isControlFrame = true := by
        rw [frame_isControlFrame]
        simpa using hop
      have hlast : w.frame.isFinalFrame = true := hfinal
      rw [List.map_singleton, announced, unfinished, if_neg hdata, if_neg hdata,
        if_pos hlast, if_pos hlast,
        List.filter_cons_of_neg (by simp [hframe]), List.filter_cons_of_pos (hmessage _)]
      exact ⟨rfl, rfl⟩
  | @more w ws data hfinal hsize hdata hrest ih =>
      have hctl : ¬ w.frame.isControlFrame = true := by
        rw [frame_isControlFrame]
        simpa using hop
      have hmore : ¬ w.frame.isFinalFrame = true := by
        show ¬ w.isFinalFrame = true
        rw [hfinal]
        exact Bool.false_ne_true
      obtain ⟨hann, hleft⟩ := ih (by decide) (g ++ [w.frame])
      rw [List.map_cons, announced, unfinished, if_neg hctl, if_neg hctl,
        if_neg hmore, if_neg hmore,
        List.filter_cons_of_neg (by simp [hframe]), hann, List.append_assoc]
      exact ⟨rfl, hleft⟩

/-- What is counted for the size limit is at most the bytes. -/
theorem sizeSoFar_le (g : List QWebSocketFrame) : sizeSoFar g ≤ (payloads g).length := by
  unfold sizeSoFar decoded
  split
  · cases h : decode (payloads g) with
    | none => exact Nat.zero_le _
    | some p => exact Nat.le_trans (Nat.le_add_right _ _) (decode_length h)
  · exact Nat.le_refl _

theorem isText_append_cons (g : List QWebSocketFrame) (f : QWebSocketFrame)
    (fs : List QWebSocketFrame) :
    IsText (g ++ f :: fs) ↔ IsText (g ++ [f]) := by
  unfold IsText
  cases g <;> exact Iff.rfl

/-- A part of a text is a text as far as it goes. -/
theorem decode_isSome_of_append {a b : Bytes} (h : (decode (a ++ b)).isSome = true) :
    (decode a).isSome = true := by
  rw [decode_append] at h
  cases ha : decode a with
  | none =>
      rw [ha] at h
      cases h
  | some p => rfl

/-- The frames of a message come in order. -/
theorem fragments_inOrder {opCode : OpCode} {data : Bytes} {ws : List WireFrame}
    (h : QWebSocket.Fragments opCode data ws) (hop : opCode.toNat < 8) {g : List QWebSocketFrame}
    (hcont : opCode = .continuation ↔ g ≠ []) (hne : g ≠ [] → data ≠ [])
    (hsize : (payloads g).length + data.length ≤ maxMessageSize)
    (htext : IsText (g ++ ws.map WireFrame.frame) →
      ∃ t, decode (payloads g ++ data) = some (t, [])) :
    InOrder g (ws.map WireFrame.frame) := by
  have hsofar := sizeSoFar_le g
  induction h generalizing g with
  | @last w hfinal hpiece =>
      have hdata : ¬ w.frame.isControlFrame = true := by
        rw [frame_isControlFrame]
        simpa using hop
      have hadmits : Admits g w.frame := by
        refine ⟨hcont, ?_, fun ht => ?_⟩
        · show sizeSoFar g + w.payload.length ≤ maxMessageSize
          omega
        · obtain ⟨t, hall⟩ := htext ht
          have hdec : decode (payloads (g ++ [w.frame])) = some (t, []) := by
            rw [payloads_append]
            exact hall
          refine ⟨by rw [hdec]; rfl, fun hempty => ?_, fun _ => by rw [decoded, hdec]; rfl⟩
          have hnil : g = [] := not_not.mp fun hg => hne hg hempty
          rw [hnil, decoded_nil]
      have hlast : w.frame.isFinalFrame = true := hfinal
      refine ⟨rfl, ?_⟩
      rw [if_neg hdata, if_pos hlast]
      exact ⟨hadmits, trivial⟩
  | @more w ws data hfinal hpiece hdata hrest ih =>
      have hpayload := QWebSocket.ne_nil_of_frameSize hpiece
      have hctl : ¬ w.frame.isControlFrame = true := by
        rw [frame_isControlFrame]
        simpa using hop
      have hmore : ¬ w.frame.isFinalFrame = true := by
        show ¬ w.isFinalFrame = true
        rw [hfinal]
        exact Bool.false_ne_true
      have hgrown : payloads (g ++ [w.frame]) = payloads g ++ w.payload := payloads_append g w.frame
      rw [List.length_append] at hsize
      have hadmits : Admits g w.frame := by
        refine ⟨hcont, ?_, fun ht => ?_⟩
        · show sizeSoFar g + w.payload.length ≤ maxMessageSize
          omega
        · obtain ⟨t, hall⟩ := htext ((isText_append_cons g w.frame _).mpr ht)
          rw [← List.append_assoc, ← hgrown] at hall
          refine ⟨decode_isSome_of_append (by rw [hall]; rfl), fun hempty => absurd hempty hpayload,
            fun hf => absurd hf hmore⟩
      refine ⟨rfl, ?_⟩
      rw [if_neg hctl, if_neg hmore]
      refine ⟨hadmits, ih (by decide) (by simp) (fun _ => hdata) ?_ (fun ht => ?_) (sizeSoFar_le _)⟩
      · rw [hgrown, List.length_append]
        omega
      · rw [hgrown, List.append_assoc]
        rw [List.append_assoc] at ht
        exact htext ht

theorem fragments_isText {opCode : OpCode} {data : Bytes} {ws : List WireFrame}
    (h : QWebSocket.Fragments opCode data ws) : IsText (ws.map WireFrame.frame) ↔
      opCode = .text := by
  cases h with
  | last => exact Option.some_inj
  | more => exact Option.some_inj

/-- A text is read as it was sent, up to surrogates that stand alone. -/
theorem decode_of_fragments {message : QString} {ws : List WireFrame}
    (h : QWebSocket.Fragments .text (toUtf8 message) ws) :
    decoded (ws.map WireFrame.frame) = (scrub message, []) := by
  rw [decoded, fragments_payloads h, decode_toUtf8]
  rfl

/-! ### What is sent

The same for everything that can be sent, and then for a list of it. Control frames may come between
two messages, but no end sends one in the middle of a message. -/

/-- A control frame is announced by itself, and comes in order everywhere. -/
theorem wire_control {w : WireFrame} (hctl : 8 ≤ w.opCode.toNat) :
    announced [] ([w].map WireFrame.frame) = controlSignals w.frame ∧
      unfinished [] ([w].map WireFrame.frame) = [] ∧ InOrder [] ([w].map WireFrame.frame) := by
  have hc : w.frame.isControlFrame = true := by
    rw [frame_isControlFrame]
    exact decide_eq_true hctl
  rw [List.map_singleton, announced, unfinished, InOrder, if_pos hc, if_pos hc, if_pos hc]
  exact ⟨List.append_nil _, rfl, rfl, trivial⟩

/-- **What is sent is announced.** -/
theorem wire_announced {t : Transmission} {ws : List WireFrame} (h : QWebSocket.Wire t ws) :
    (announced [] (ws.map WireFrame.frame)).filter ProcessorSignal.isComplete = [t.announcement] ∧
      unfinished [] (ws.map WireFrame.frame) = [] := by
  cases h with
  | text h =>
      obtain ⟨hann, hleft⟩ := fragments_announced h (by decide) []
      rw [List.nil_append, messageSignal, if_pos ((fragments_isText h).mpr rfl),
        decode_of_fragments h] at hann
      exact ⟨hann, hleft⟩
  | binary h =>
      obtain ⟨hann, hleft⟩ := fragments_announced h (by decide) []
      rw [List.nil_append, messageSignal, if_neg (mt (fragments_isText h).mp (by decide)),
        fragments_payloads h] at hann
      exact ⟨hann, hleft⟩
  | @ping w hop hfinal =>
      obtain ⟨hann, hleft, -⟩ := wire_control (w := w) (by rw [hop]; decide)
      have hsignal : controlSignals w.frame = [.pingReceived w.payload] := by
        unfold controlSignals
        rw [show w.frame.opCode = .ping from hop]
        rfl
      exact ⟨by rw [hann, hsignal]; rfl, hleft⟩
  | @pong w hop hfinal =>
      obtain ⟨hann, hleft, -⟩ := wire_control (w := w) (by rw [hop]; decide)
      have hsignal : controlSignals w.frame = [.pongReceived w.payload] := by
        unfold controlSignals
        rw [show w.frame.opCode = .pong from hop]
        rfl
      exact ⟨by rw [hann, hsignal]; rfl, hleft⟩
  | @close w closeCode reason hop hfinal hpayload =>
      obtain ⟨hann, hleft, -⟩ := wire_control (w := w) (by rw [hop]; decide)
      have hsignal : controlSignals w.frame =
          [Transmission.announcement (.close closeCode reason)] := by
        unfold controlSignals
        rw [show w.frame.opCode = .close from hop]
        dsimp only
        rw [show w.frame.payload = _ from hpayload]
        rfl
      exact ⟨by rw [hann, hsignal]; rfl, hleft⟩

/-- **What is sent comes in order**, if the other end takes it. -/
theorem wire_inOrder {t : Transmission} {ws : List WireFrame} (h : QWebSocket.Wire t ws)
    (hfits : t.Fits) : InOrder [] (ws.map WireFrame.frame) := by
  have hempty : (payloads []).length = 0 := rfl
  cases h with
  | @text message _ h =>
      refine fragments_inOrder h (by decide) (by decide) (fun hg => absurd rfl hg) ?_ fun _ => ?_
      · rw [hempty, Nat.zero_add]
        exact hfits
      · exact ⟨scrub message, decode_toUtf8 message⟩
  | binary h =>
      refine fragments_inOrder h (by decide) (by decide) (fun hg => absurd rfl hg) ?_ fun ht => ?_
      · rw [hempty, Nat.zero_add]
        exact hfits
      · exact absurd ((fragments_isText h).mp ht) (by decide)
  | ping hop hfinal => exact (wire_control (by rw [hop]; decide)).2.2
  | pong hop hfinal => exact (wire_control (by rw [hop]; decide)).2.2
  | close hop hfinal hpayload => exact (wire_control (by rw [hop]; decide)).2.2

/-- The frames of some transmissions. -/
theorem wires_announced {ts : List Transmission} {parts : List (List WireFrame)}
    (h : List.Forall₂ QWebSocket.Wire ts parts) :
    (announced [] (parts.flatten.map WireFrame.frame)).filter ProcessorSignal.isComplete =
        ts.map Transmission.announcement ∧
      unfinished [] (parts.flatten.map WireFrame.frame) = [] := by
  induction h with
  | nil => exact ⟨rfl, rfl⟩
  | cons hwire _ ih =>
      obtain ⟨hann, hleft⟩ := wire_announced hwire
      rw [List.flatten_cons, List.map_append, announced_append, unfinished_append, hleft,
        List.filter_append, hann, ih.1, List.map_cons]
      exact ⟨rfl, ih.2⟩

/-- All that is sent comes in order, if all of it fits. -/
theorem wires_inOrder {ts : List Transmission} {parts : List (List WireFrame)}
    (h : List.Forall₂ QWebSocket.Wire ts parts) (hfits : ∀ t ∈ ts, t.Fits) :
    InOrder [] (parts.flatten.map WireFrame.frame) := by
  induction h with
  | nil => trivial
  | cons hwire _ ih =>
      rw [List.forall_mem_cons] at hfits
      rw [List.flatten_cons, List.map_append, inOrder_append, (wire_announced hwire).2]
      exact ⟨wire_inOrder hwire hfits.1, ih hfits.2⟩

/-! ### Close frames

The payload of a close frame is read as the code and the reason that were written. Only a byte order
mark at the beginning of the reason would be lost. -/

/-- A valid code has four digits, so it fits into two bytes. -/
theorem isCloseCodeValid_lt {closeCode : CloseCode} (h : isCloseCodeValid closeCode = true) :
    closeCode < 5000 := by
  simp only [isCloseCodeValid, Bool.and_eq_true, decide_eq_true_eq] at h
  exact h.1.1.1.1.2

/-- A close frame is read as what was sent, if the code is valid and the reason is not taken for one
with a byte order mark. -/
theorem closePayload_closeData {closeCode : CloseCode} (hvalid : isCloseCodeValid closeCode = true)
    {reason : QString} (hmark : (scrub reason).head? ≠ some 0xFEFF) :
    closePayload (QWebSocket.closeData closeCode reason) = (closeCode, scrub reason) := by
  have hlt := isCloseCodeValid_lt hvalid
  have hlen : (QWebSocket.closeData closeCode reason).length = 2 + (toUtf8 reason).length := by
    rw [QWebSocket.closeData, List.length_append, length_toBigEndian]
  have hcode : fromBigEndian ((QWebSocket.closeData closeCode reason).take 2) = closeCode := by
    rw [QWebSocket.closeData, List.take_left' (length_toBigEndian 2 closeCode),
      fromBigEndian_toBigEndian, Nat.mod_eq_of_lt (Nat.lt_trans hlt (by norm_num))]
  have hreason : (QWebSocket.closeData closeCode reason).drop 2 = toUtf8 reason := by
    rw [QWebSocket.closeData, List.drop_left' (length_toBigEndian 2 closeCode)]
  have hconvert : convertToUnicode (toUtf8 reason) .new = (scrub reason, ⟨[], 0⟩) := by
    have h := @convertToUnicode_eq .new ConverterState.pending_new (toUtf8 reason) (.inr rfl)
    rw [show ConverterState.new.remaining ++ toUtf8 reason = toUtf8 reason from rfl,
      decode_toUtf8] at h
    exact h
  unfold closePayload
  rw [if_neg (by omega), if_neg (by omega), hcode]
  dsimp only
  rw [hvalid, if_neg (by simp)]
  split
  · next htwo =>
      have hempty : toUtf8 reason = [] := List.length_eq_zero_iff.mp (by omega)
      have hscrub := decode_toUtf8 reason
      rw [hempty, decode_nil] at hscrub
      rw [(Prod.mk.inj (Option.some.inj hscrub)).1]
  · rw [hreason]
    unfold toUnicodeWithHeader
    rw [hconvert]
    dsimp only
    rw [if_neg (by simp), if_neg hmark]

end QWebSocketDataProcessor

/-! ### What is written

From frames to bytes, which may have been read up to any point. A frame that is not finished yet is
a beginning of what comes next. -/

namespace QWebSocket

open QWebSocketFrame

/-- The frames that are read at the beginning of a stream of frames, behind which there is something
that is not a frame. -/
theorem consumed_wires {b c d tail : Bytes} {fs : List QWebSocketFrame} {ws : List WireFrame}
    (h : Consumed b fs c) (hvalid : ∀ f ∈ fs, f.isValid = true)
    (hb : b ++ d = ws.flatMap WireFrame.bytes ++ tail)
    (htail : ∀ p f rest, p <+: tail → parse p = some (f, rest) → f.isValid = false) :
    ∃ ws₁ ws₂, ws = ws₁ ++ ws₂ ∧ fs = ws₁.map WireFrame.frame ∧
      c ++ d = ws₂.flatMap WireFrame.bytes ++ tail := by
  induction h with
  | nil => exact ⟨[], ws, rfl, rfl, hb⟩
  | @snoc fs c rest f h hf ih =>
      rw [List.forall_mem_append] at hvalid
      obtain ⟨ws₁, ws₂, hws, hfs, hc⟩ := ih hvalid.1
      cases ws₂ with
      | nil =>
          have hbad := htail c f rest ⟨d, hc⟩ hf
          rw [hvalid.2 f (List.mem_singleton_self f)] at hbad
          cases hbad
      | cons w ws₂ =>
          have hmore := parse_append hf d
          rw [hc, List.flatMap_cons, List.append_assoc, WireFrame.parse_bytes] at hmore
          obtain ⟨hframe, hrest⟩ := Prod.mk.inj (Option.some.inj hmore)
          refine ⟨ws₁ ++ [w], ws₂, ?_, ?_, hrest.symm⟩
          · rw [hws, List.append_assoc]
            rfl
          · rw [hfs, List.map_append, List.map_singleton, hframe]

/-- A control frame that is read has at most 125 bytes. -/
theorem parse_control {b rest : Bytes} {f : QWebSocketFrame} (h : parse b = some (f, rest))
    (hv : f.isValid = true) (hc : f.isControlFrame = true) : f.payload.length ≤ 125 := by
  obtain ⟨w, -, rfl⟩ := WireFrame.bytes_of_parse h hv
  exact (w.control ((WireFrame.isControlFrame_iff w.frame).mp hc)).1

/-- A close frame whose reason is too long is not taken. -/
theorem parse_tooLong {closeCode : CloseCode} {reason : QString} (key : UInt32)
    (hlong : 125 < (closeData closeCode reason).length) :
    (∃ f, parse (tooLong closeCode reason key) = some f) ∧
      ∀ p f rest, p <+: tooLong closeCode reason key → parse p = some (f, rest) →
        f.isValid = false := by
  obtain ⟨masked, length, more, hlength, hbytes⟩ :
      ∃ masked length more, (length = 126 ∨ length = 127) ∧
      tooLong closeCode reason key =
        WireFrame.firstByte .close true :: WireFrame.secondByte masked length :: more := by
    have hsecond : ∀ n < 128, (if key ≠ 0 then (0x80 : UInt8) else 0) ||| UInt8.ofNat n =
        WireFrame.secondByte (decide (key ≠ 0)) n := by
      intro n hn
      rw [← secondByte_eq _ hn]
      simp only [decide_eq_true_eq]
    unfold tooLong getFrameHeader
    dsimp only
    rw [firstByte_eq, if_neg (by omega)]
    split
    · have h126 := hsecond 126 (by omega)
      exact ⟨decide (key ≠ 0), 126, _, .inl rfl, by rw [← h126]; rfl⟩
    · have h127 := hsecond 127 (by omega)
      exact ⟨decide (key ≠ 0), 127, _, .inr rfl, by rw [← h127]; rfl⟩
  have herror : (Reading.headerFrame (WireFrame.firstByte .close true)
      (WireFrame.secondByte masked length)).checkValidity =
        QWebSocketFrame.error closeCodeProtocolError "Control frame is larger than 125 bytes" := by
    rcases hlength with rfl | rfl
    · rw [WireFrame.headerFrame_eq _ _ _ (by omega)]
      rfl
    · rw [WireFrame.headerFrame_eq _ _ _ (by omega)]
      rfl
  rw [hbytes]
  refine ⟨⟨_, by rw [WireFrame.parse_cons, WireFrame.header_error herror]⟩, fun p f rest hp h => ?_⟩
  rcases p with _ | ⟨first, _ | ⟨second, p⟩⟩
  · cases h
  · cases h
  · obtain ⟨rfl, htail⟩ := List.cons_prefix_cons.mp hp
    obtain ⟨rfl, -⟩ := List.cons_prefix_cons.mp htail
    rw [WireFrame.parse_cons, WireFrame.header_error herror] at h
    cases h
    rfl

/-- What is written is the frames of what is sent; behind them there may be a close frame that is
too long. -/
theorem encodes_wires {ts : List Transmission} {b : Bytes} (h : Encodes ts b) :
    ∃ parts tail sent, List.Forall₂ Wire sent parts ∧
      b = parts.flatten.flatMap WireFrame.bytes ++ tail ∧
      (∀ p f rest, p <+: tail → parse p = some (f, rest) → f.isValid = false) ∧
      (ts = sent ∧ tail = [] ∨ ∃ closeCode reason key, ts = sent ++ [.close closeCode reason] ∧
        125 < (closeData closeCode reason).length ∧ tail = tooLong closeCode reason key) := by
  have hnil : ∀ p f rest, p <+: [] → parse p = some (f, rest) → f.isValid = false := by
    intro p f rest hp hparse
    rw [List.prefix_nil.mp hp] at hparse
    cases hparse
  induction h with
  | nil => exact ⟨[], [], [], .nil, rfl, hnil, .inl ⟨rfl, rfl⟩⟩
  | @frames ts b t ws h hopen hwire ih =>
      obtain ⟨parts, tail, sent, hparts, hb, -, ⟨rfl, rfl⟩ | ⟨closeCode, reason, key, rfl, -⟩⟩ := ih
      · refine ⟨parts ++ [ws], [], ts ++ [t], ?_, ?_, hnil, .inl ⟨rfl, rfl⟩⟩
        · exact List.rel_append hparts (.cons hwire .nil)
        · rw [hb, List.flatten_append, List.flatMap_append, List.flatten_singleton, List.append_nil,
            List.append_nil]
      · have hclose := hopen (.close closeCode reason) (by simp)
        cases hclose
  | @tooLong ts b closeCode reason key h hopen hlong ih =>
      obtain ⟨parts, tail, sent, hparts, hb, -, ⟨rfl, rfl⟩ | ⟨code, r, k, rfl, -⟩⟩ := ih
      · refine ⟨parts, _, ts, hparts, ?_, (parse_tooLong key hlong).2,
          .inr ⟨closeCode, reason, key, rfl, hlong, rfl⟩⟩
        rw [hb, List.append_nil]
      · have hclose := hopen (.close code r) (by simp)
        cases hclose

/-- A close frame is the last thing that is sent. -/
theorem encodes_close {ts : List Transmission} {b : Bytes} (h : Encodes ts b)
    {t : Transmission} (ht : t ∈ ts) (hclose : t.isClose = true) :
    ∃ l, ts = l ++ [t] ∧ ∀ t' ∈ l, t'.isClose = false := by
  have hlast : ∀ {l : List Transmission} {t' : Transmission}, (∀ t ∈ l, t.isClose = false) →
      t ∈ l ++ [t'] → ∃ l', l ++ [t'] = l' ++ [t] ∧ ∀ t ∈ l', t.isClose = false := by
    intro l t' hopen hmem
    rcases List.mem_append.mp hmem with hmem | hmem
    · rw [hopen t hmem] at hclose
      cases hclose
    · rw [List.mem_singleton.mp hmem]
      exact ⟨l, rfl, hopen⟩
  cases h with
  | nil => cases ht
  | frames _ hopen _ => exact hlast hopen ht
  | tooLong _ _ hopen _ => exact hlast hopen ht

end QWebSocket

end QtWebApp
