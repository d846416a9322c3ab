import QtWebApp.WebSockets.QWebSocketDataProcessor
import QtWebApp.WebSockets.FrameFormat

/-!
# QtWebApp.WebSockets.Reassembly

The data processor puts messages together.

What the processor keeps is compared with the list of data frames since the last complete message:
it is `accumulated` from them, nothing else. `Admits` says when a data frame may follow, and
`processFrame_cases` that the processor takes exactly these frames. So a sequence of frames leads
to its `messages`, whatever control frames stand in between.

The processor forgets the frames of a message and keeps what they add up to. That is the reason for
the detour over lists of frames: the state is a function of the list (`accumulated`), so an
invariant of the processor becomes a statement about which lists there can be (`Sound`).
-/

namespace QtWebApp

open QWebSocketProtocol Utf8

namespace ProcessorSignal

/-- The signal is about a complete message. -/
def isMessage : ProcessorSignal → Bool
  | .textMessageReceived _ | .binaryMessageReceived _ => true
  | _ => false

/-- The signal is about a control frame. -/
def isControl : ProcessorSignal → Bool
  | .pingReceived _ | .pongReceived _ | .closeReceived _ _ => true
  | _ => false

/-- The signal is about an error. -/
def isError : ProcessorSignal → Bool
  | .errorEncountered _ _ => true
  | _ => false

end ProcessorSignal

namespace QWebSocketDataProcessor

/-- Clearing makes a processor like a new one. -/
theorem clear_eq (p : QWebSocketDataProcessor) : p.clear = new := by
  obtain ⟨_, _, _, _, ⟨remaining, invalidChars⟩⟩ := p
  unfold clear
  dsimp only
  split_ifs with h
  · rfl
  · rw [not_or, not_not, not_not] at h
    rw [h.1, h.2]
    rfl

/-- After an error the processor is as new. -/
theorem failWith_eq (p : QWebSocketDataProcessor) (code : CloseCode) (description : String) :
    p.failWith code description =
      ⟨new, [.errorEncountered code (QString.ofAscii description)], true⟩ := by
  rw [failWith, clear_eq]

/-! ### The frames of a message

What the frames of a message add up to, and when one more may follow. For a text this depends on all
of its bytes, as a character may go from one frame into the next. -/

/-- The data of some frames. -/
def payloads (g : List QWebSocketFrame) : Bytes := g.flatMap (·.payload)

/-- The frames belong to a text message. -/
def IsText (g : List QWebSocketFrame) : Prop := g.head?.map (·.opCode) = some .text

instance (g : List QWebSocketFrame) : Decidable (IsText g) := inferInstanceAs (Decidable (_ = _))

/-- The text of some frames, and the bytes of a character that is not complete. -/
def decoded (g : List QWebSocketFrame) : QString × Bytes := (decode (payloads g)).getD ([], [])

/-- How long the message is so far: code units of a text, bytes otherwise. -/
def sizeSoFar (g : List QWebSocketFrame) : Nat :=
  if IsText g then (decoded g).1.length else (payloads g).length

/-- A data frame that may follow the frames of a message. -/
structure Admits (g : List QWebSocketFrame) (f : QWebSocketFrame) : Prop where
  /-- A message does not begin with a continuation, and it consists of nothing else after that. -/
  opCode : f.opCode = .continuation ↔ g ≠ []
  size : sizeSoFar g + f.payload.length ≤ maxMessageSize
  /-- A text is UTF-8 as far as it goes, no empty frame stands inside of a character, and the last
  character is complete. -/
  text : IsText (g ++ [f]) → (decode (payloads (g ++ [f]))).isSome ∧
    (f.payload = [] → (decoded g).2 = []) ∧ (f.isFinalFrame = true → (decoded (g ++ [f])).2 = [])

/-- What the processor has of the message. -/
def accumulated : List QWebSocketFrame → QWebSocketDataProcessor
  | [] => new
  | f :: g =>
      if f.opCode = .text then
        { isFragmented := true
          opCode := .text
          binaryMessage := []
          textMessage := (decoded (f :: g)).1
          converterState := ⟨(decoded (f :: g)).2, 0⟩ }
      else
        { isFragmented := true
          opCode := f.opCode
          binaryMessage := payloads (f :: g)
          textMessage := []
          converterState := .new }

/-- The frames make up a part of a message: a text is UTF-8 as far as it goes. -/
def Sound (g : List QWebSocketFrame) : Prop := IsText g → (decode (payloads g)).isSome = true

/-- The signal for one data frame. -/
def frameSignal (g : List QWebSocketFrame) (f : QWebSocketFrame) : ProcessorSignal :=
  if IsText (g ++ [f]) then
    .textFrameReceived ((decode ((decoded g).2 ++ f.payload)).getD ([], [])).1 f.isFinalFrame
  else .binaryFrameReceived f.payload f.isFinalFrame

/-- The signal for a complete message. -/
def messageSignal (g : List QWebSocketFrame) : ProcessorSignal :=
  if IsText g then .textMessageReceived (decoded g).1 else .binaryMessageReceived (payloads g)

/-- One frame more adds its payload at the end. -/
@[simp] theorem payloads_append (g : List QWebSocketFrame) (f : QWebSocketFrame) :
    payloads (g ++ [f]) = payloads g ++ f.payload := by
  simp [payloads]

/-- The bytes of a text so far can be decoded. -/
theorem decode_of_sound {g : List QWebSocketFrame} (hg : Sound g) (ht : IsText g) :
    decode (payloads g) = some (decoded g) := by
  obtain ⟨p, hp⟩ := Option.isSome_iff_exists.mp (hg ht)
  rw [decoded, hp]
  rfl

/-- The text of one frame more. -/
theorem decode_append_frame {g : List QWebSocketFrame} (hg : decode (payloads g) = some (decoded g))
    (f : QWebSocketFrame) : decode (payloads (g ++ [f])) =
      (decode ((decoded g).2 ++ f.payload)).map (prepend (decoded g).1) := by
  rw [payloads_append, decode_append, hg]
  rfl

/-- No frames are no text. -/
theorem decoded_nil : decoded [] = ([], []) := rfl

/-! ### One data frame

The cases of `processDataFrame`: the frame is of the wrong kind, too long, not UTF-8, or it is
taken. In each case of an error the processor is as new afterwards. -/

/-- A data frame in a text message that has begun. -/
theorem processText_cases {g : List QWebSocketFrame} {f : QWebSocketFrame}
    {p : QWebSocketDataProcessor} (hg : decode (payloads g) = some (decoded g))
    (htext : p.textMessage = (decoded g).1) (hstate : p.converterState = ⟨(decoded g).2, 0⟩)
    (ht : IsText (g ++ [f])) :
    let good := (decode (payloads (g ++ [f]))).isSome ∧ (f.payload = [] → (decoded g).2 = []) ∧
      (f.isFinalFrame = true → (decoded (g ++ [f])).2 = [])
    (good → p.processText f = if f.isFinalFrame then
        ⟨new, [frameSignal g f, messageSignal (g ++ [f])], true⟩
      else ⟨{ p with
          textMessage := (decoded (g ++ [f])).1
          converterState := ⟨(decoded (g ++ [f])).2, 0⟩ }, [frameSignal g f], false⟩) ∧
    (¬ good → p.processText f =
      ⟨new, [.errorEncountered closeCodeWrongDatatype
        (QString.ofAscii "Invalid UTF-8 code encountered.")], true⟩) := by
  intro good
  have hpending : ConverterState.Pending ⟨(decoded g).2, 0⟩ := ⟨rfl, decode_rest hg⟩
  by_cases hempty : f.payload = [] ∧ (decoded g).2 ≠ []
  · -- an empty frame in the middle of a character is an error
    refine ⟨fun hgood => absurd (hgood.2.1 hempty.1) hempty.2, fun _ => ?_⟩
    have hbad : (convertToUnicode f.payload p.converterState).2.invalidChars ≠ 0 := by
      rw [hstate, hempty.1]
      obtain ⟨b, begun, hrest⟩ := List.exists_cons_of_ne_nil hempty.2
      have hkept : decode (decoded g).2 = some ([], (decoded g).2) := decode_rest hg
      rw [hrest] at hkept
      obtain ⟨hfront, -⟩ := pending_cases hkept
      rw [hrest]
      unfold convertToUnicode
      dsimp only
      rw [List.take_nil, List.append_nil, hfront]
      simp
    unfold processText
    dsimp only
    rw [if_pos (.inl hbad), failWith_eq]
  · have hne : f.payload ≠ [] ∨ (decoded g).2 = [] := by
      by_cases h : f.payload = []
      · exact .inr (not_not.mp fun hrest => hempty ⟨h, hrest⟩)
      · exact .inl h
    have hconvert := convertToUnicode_eq hpending hne
    have hdecode := decode_append_frame hg f
    dsimp only at hconvert
    rw [← hstate] at hconvert
    cases hnext : decode ((decoded g).2 ++ f.payload) with
    | none =>
        rw [hnext] at hconvert hdecode
        refine ⟨fun hgood => ?_, fun _ => ?_⟩
        · have hsome := hgood.1
          rw [hdecode] at hsome
          cases hsome
        · unfold processText
          dsimp only
          rw [if_pos (.inl hconvert), failWith_eq]
    | some q =>
        obtain ⟨t, r⟩ := q
        rw [hnext] at hconvert hdecode
        dsimp only at hconvert
        have hall : decoded (g ++ [f]) = ((decoded g).1 ++ t, r) := by
          rw [decoded, hdecode]
          rfl
        have hsignal : frameSignal g f = .textFrameReceived t f.isFinalFrame := by
          rw [frameSignal, if_pos ht, hnext]
          rfl
        have hmessage : messageSignal (g ++ [f]) = .textMessageReceived ((decoded g).1 ++ t) := by
          rw [messageSignal, if_pos ht, hall]
        constructor
        · rintro ⟨-, -, hfinal⟩
          rw [hall] at hfinal
          have hfine : ¬ ((0 : Nat) ≠ 0 ∨ (f.isFinalFrame = true ∧ r ≠ [])) := by
            rintro (h | ⟨h, hr⟩)
            · exact h rfl
            · exact hr (hfinal h)
          unfold processText
          rw [hconvert]
          dsimp only
          rw [if_neg hfine, htext, clear_eq, hsignal, hmessage, hall]
          cases f.isFinalFrame <;> rfl
        · intro hbad
          have hfail : (0 : Nat) ≠ 0 ∨ (f.isFinalFrame = true ∧ r ≠ []) := by
            refine .inr (not_not.mp fun h => hbad ⟨?_, ?_, fun hfinal => ?_⟩)
            · rw [hdecode]
              rfl
            · intro h
              exact hne.resolve_left (not_not.mpr h)
            · rw [hall]
              exact not_not.mp fun hr => h ⟨hfinal, hr⟩
          unfold processText
          rw [hconvert]
          dsimp only
          rw [if_pos hfail, failWith_eq]

/-- A data frame in a binary message that has begun. -/
theorem processBinary_eq {g : List QWebSocketFrame} {f : QWebSocketFrame}
    {p : QWebSocketDataProcessor} (hbinary : p.binaryMessage = payloads g)
    (ht : ¬ IsText (g ++ [f])) :
    p.processBinary f = if f.isFinalFrame then
        ⟨new, [frameSignal g f, messageSignal (g ++ [f])], true⟩
      else ⟨{ p with binaryMessage := payloads (g ++ [f]) }, [frameSignal g f], false⟩ := by
  unfold processBinary
  dsimp only
  rw [frameSignal, messageSignal, if_neg ht, if_neg ht, hbinary, clear_eq, payloads_append]
  cases f.isFinalFrame <;> rfl

/-- Among data frames the opcode tells a continuation. -/
theorem isContinuationFrame_eq {f : QWebSocketFrame} (h : f.isDataFrame = true) :
    f.isContinuationFrame = (f.opCode == .continuation) := by
  rw [QWebSocketFrame.isContinuationFrame, h, Bool.true_and]

/-- The processor between two data frames, just before it takes the next one. -/
theorem taken_cases {g : List QWebSocketFrame} (hg : Sound g) {f : QWebSocketFrame}
    (hdata : f.isDataFrame = true) (hop : f.opCode = .continuation ↔ g ≠ []) :
    let p := if f.isContinuationFrame then accumulated g
      else { accumulated g with opCode := f.opCode, isFragmented := !f.isFinalFrame }
    p.messageLength = sizeSoFar g ∧ (p.opCode = .text ↔ IsText (g ++ [f])) ∧
    (IsText (g ++ [f]) → decode (payloads g) = some (decoded g) ∧ p.textMessage = (decoded g).1 ∧
      p.converterState = ⟨(decoded g).2, 0⟩ ∧ (f.isFinalFrame = false →
        { p with
          textMessage := (decoded (g ++ [f])).1
          converterState := ⟨(decoded (g ++ [f])).2, 0⟩ } = accumulated (g ++ [f]))) ∧
    (¬ IsText (g ++ [f]) → p.binaryMessage = payloads g ∧ (f.isFinalFrame = false →
      { p with binaryMessage := payloads (g ++ [f]) } = accumulated (g ++ [f]))) := by
  intro p
  cases g with
  | nil =>
      have hne : f.opCode ≠ .continuation := fun h => (hop.mp h) rfl
      have hcont : f.isContinuationFrame = false := by
        rw [isContinuationFrame_eq hdata]
        simpa using hne
      have hp : p = { new with opCode := f.opCode, isFragmented := !f.isFinalFrame } := by
        show (if f.isContinuationFrame = true then _ else _) = _
        rw [hcont]
        rfl
      have htext : IsText ([] ++ [f]) ↔ f.opCode = .text := by simp [IsText]
      rw [hp]
      refine ⟨?_, htext.symm, fun ht => ⟨rfl, rfl, rfl, fun hfinal => ?_⟩, fun ht =>
        ⟨rfl, fun hfinal => ?_⟩⟩
      · simp [messageLength, sizeSoFar, new, payloads, IsText]
      · rw [hfinal, List.nil_append, accumulated, if_pos (htext.mp ht), htext.mp ht]
        rfl
      · rw [hfinal, List.nil_append, accumulated, if_neg (mt htext.mpr ht)]
        rfl
  | cons f' rest =>
      have hcont : f.isContinuationFrame = true := by
        rw [isContinuationFrame_eq hdata]
        simpa using hop.mpr (List.cons_ne_nil f' rest)
      have hp : p = accumulated (f' :: rest) := by
        show (if f.isContinuationFrame = true then _ else _) = _
        rw [hcont]
        rfl
      have htext : IsText (f' :: rest ++ [f]) ↔ f'.opCode = .text := by simp [IsText]
      have htext' : IsText (f' :: rest) ↔ f'.opCode = .text := by simp [IsText]
      rw [hp]
      by_cases hop' : f'.opCode = .text
      · have hdec := decode_of_sound hg (htext'.mpr hop')
        rw [accumulated, if_pos hop']
        refine ⟨?_, iff_of_true rfl (htext.mpr hop'), fun _ => ⟨hdec, rfl, rfl, fun _ => ?_⟩,
          fun ht => absurd (htext.mpr hop') ht⟩
        · rw [sizeSoFar, if_pos (htext'.mpr hop')]
          rfl
        · rw [List.cons_append, accumulated, if_pos hop']
      · rw [accumulated, if_neg hop']
        refine ⟨?_, iff_of_false hop' (mt htext.mp hop'), fun ht => absurd (htext.mp ht) hop',
          fun _ => ⟨rfl, fun _ => ?_⟩⟩
        · rw [sizeSoFar, if_neg (mt htext'.mp hop'), messageLength, if_neg hop']
        · rw [List.cons_append, accumulated, if_neg hop']

/-- **What becomes of a data frame.** A frame that the message admits is added to it, or completes
it; any other one is an error and ends the message. -/
theorem processDataFrame_cases {g : List QWebSocketFrame} (hg : Sound g) {f : QWebSocketFrame}
    (hdata : f.isDataFrame = true) :
    (Admits g f ∧ (accumulated g).processDataFrame f = if f.isFinalFrame then
        ⟨new, [frameSignal g f, messageSignal (g ++ [f])], true⟩
      else ⟨accumulated (g ++ [f]), [frameSignal g f], false⟩) ∨
    (¬ Admits g f ∧ ∃ code description, (accumulated g).processDataFrame f =
      ⟨new, [.errorEncountered code description], true⟩) := by
  have hfragmented : (accumulated g).isFragmented = decide (g ≠ []) := by
    cases g with
    | nil => rfl
    | cons f' rest =>
        rw [accumulated]
        split <;> rfl
  have hcont := isContinuationFrame_eq hdata
  by_cases hop : f.opCode = .continuation ↔ g ≠ []
  · -- the frame is of the right kind
    have hfirst : ¬ (!(accumulated g).isFragmented && f.isContinuationFrame) = true := by
      rw [hfragmented, hcont]
      by_cases hnil : g = [] <;> simp_all
    have hsecond : ¬ ((accumulated g).isFragmented && f.isDataFrame && !f.isContinuationFrame) =
        true := by
      rw [hfragmented, hcont, hdata]
      by_cases hnil : g = [] <;> simp_all
    obtain ⟨hlen, hiff, htext, hbinary⟩ := taken_cases hg hdata hop
    generalize hp : (if f.isContinuationFrame then accumulated g
      else { accumulated g with opCode := f.opCode, isFragmented := !f.isFinalFrame }) = p at *
    have hunfold : (accumulated g).processDataFrame f =
        if maxMessageSize < p.messageLength + f.payload.length then
          p.failWith closeCodeTooMuchData "Received message is too big."
        else if p.opCode = .text then p.processText f else p.processBinary f := by
      unfold processDataFrame
      rw [if_neg hfirst, if_neg hsecond, hp]
    rw [hunfold, hlen]
    by_cases hsize : maxMessageSize < sizeSoFar g + f.payload.length
    · rw [if_pos hsize]
      exact .inr ⟨fun h => absurd h.size (by omega), _, _, failWith_eq _ _ _⟩
    · rw [if_neg hsize]
      by_cases ht : IsText (g ++ [f])
      · obtain ⟨hdec, hmsg, hstate, hnext⟩ := htext ht
        rw [if_pos (hiff.mpr ht)]
        obtain ⟨hgood, hbad⟩ := processText_cases hdec hmsg hstate ht
        by_cases hok : (decode (payloads (g ++ [f]))).isSome ∧
          (f.payload = [] → (decoded g).2 = []) ∧
            (f.isFinalFrame = true → (decoded (g ++ [f])).2 = [])
        · refine .inl ⟨⟨hop, by omega, fun _ => hok⟩, ?_⟩
          rw [hgood hok]
          cases hfinal : f.isFinalFrame with
          | true => rfl
          | false => rw [hnext hfinal, if_neg Bool.false_ne_true]
        · exact .inr ⟨fun h => hok (h.text ht), _, _, hbad hok⟩
      · obtain ⟨hmsg, hnext⟩ := hbinary ht
        rw [if_neg (mt hiff.mp ht)]
        refine .inl ⟨⟨hop, by omega, fun h => absurd h ht⟩, ?_⟩
        rw [processBinary_eq hmsg ht]
        cases hfinal : f.isFinalFrame with
        | true => rfl
        | false => rw [hnext hfinal, if_neg Bool.false_ne_true]
  · -- a continuation of nothing, or a message inside of a message
    refine .inr ⟨fun h => hop h.opCode, ?_⟩
    unfold processDataFrame
    by_cases hnil : g = []
    · have hfirst : (!(accumulated g).isFragmented && f.isContinuationFrame) = true := by
        rw [hfragmented, hcont]
        simp_all
      rw [if_pos hfirst]
      exact ⟨_, _, failWith_eq _ _ _⟩
    · have hfirst : ¬ (!(accumulated g).isFragmented && f.isContinuationFrame) = true := by
        rw [hfragmented]
        simp [hnil]
      have hsecond : ((accumulated g).isFragmented && f.isDataFrame && !f.isContinuationFrame) =
          true := by
        rw [hfragmented, hcont, hdata]
        simp_all
      rw [if_neg hfirst, if_pos hsecond]
      exact ⟨_, _, failWith_eq _ _ _⟩

/-! ### Many frames

By induction on the frames. Control frames may stand anywhere, a message ends with its final frame,
and the first frame that is not in order is the first one with an error. -/

/-- The data frames since the last complete message, when some more frames have come. -/
def unfinished : List QWebSocketFrame → List QWebSocketFrame → List QWebSocketFrame
  | g, [] => g
  | g, f :: fs =>
      if f.isControlFrame then unfinished g fs
      else if f.isFinalFrame then unfinished [] fs
      else unfinished (g ++ [f]) fs

/-- The complete messages, each as the list of its data frames. -/
def messages : List QWebSocketFrame → List QWebSocketFrame → List (List QWebSocketFrame)
  | _, [] => []
  | g, f :: fs =>
      if f.isControlFrame then messages g fs
      else if f.isFinalFrame then (g ++ [f]) :: messages [] fs
      else messages (g ++ [f]) fs

/-- Valid frames that come in an admissible order. -/
def InOrder : List QWebSocketFrame → List QWebSocketFrame → Prop
  | _, [] => True
  | g, f :: fs => f.isValid = true ∧
      if f.isControlFrame then InOrder g fs
      else Admits g f ∧ if f.isFinalFrame then InOrder [] fs else InOrder (g ++ [f]) fs

/-- The signals for some frames that come in order. -/
def announced : List QWebSocketFrame → List QWebSocketFrame → List ProcessorSignal
  | _, [] => []
  | g, f :: fs =>
      if f.isControlFrame then controlSignals f ++ announced g fs
      else if f.isFinalFrame then frameSignal g f :: messageSignal (g ++ [f]) :: announced [] fs
      else frameSignal g f :: announced (g ++ [f]) fs

/-- A message that has not begun is sound. -/
theorem sound_nil : Sound [] := fun h => by cases h

/-- The frames of a message with one more that it admits. -/
theorem sound_append {g : List QWebSocketFrame} {f : QWebSocketFrame} (h : Admits g f) :
    Sound (g ++ [f]) := fun ht => (h.text ht).1

/-- No control frame is an error. -/
theorem controlSignals_no_error (f : QWebSocketFrame) :
    ∀ s ∈ controlSignals f, s.isError = false := by
  unfold controlSignals
  cases f.opCode <;> simp [ProcessorSignal.isError]

/-- The signal for a frame is no error. -/
theorem frameSignal_no_error (g : List QWebSocketFrame) (f : QWebSocketFrame) :
    (frameSignal g f).isError = false := by
  unfold frameSignal
  split <;> rfl

/-- The signal for a message is no error. -/
theorem messageSignal_no_error (g : List QWebSocketFrame) : (messageSignal g).isError = false := by
  unfold messageSignal
  split <;> rfl

/-- The first frame, and then the others. -/
theorem processFrames_cons (p : QWebSocketDataProcessor) (f : QWebSocketFrame)
    (fs : List QWebSocketFrame) : p.processFrames (f :: fs) =
      (((p.processFrame f).processor.processFrames fs).1,
        (p.processFrame f).signals ++ ((p.processFrame f).processor.processFrames fs).2) := rfl

/-- Every frame is a control frame or a data frame. -/
theorem isDataFrame_of_not_control {f : QWebSocketFrame} (h : ¬ f.isControlFrame = true) :
    f.isDataFrame = true := by
  simpa [QWebSocketFrame.isDataFrame] using h

/-- A control frame changes nothing. -/
theorem processFrame_control {p : QWebSocketDataProcessor} {f : QWebSocketFrame}
    (hv : f.isValid = true) (hc : f.isControlFrame = true) :
    p.processFrame f = ⟨p, controlSignals f, true⟩ := by
  rw [processFrame, if_pos hv, if_pos hc]

/-- Frames that come in order are processed as they should be. -/
theorem processFrames_inOrder {g fs : List QWebSocketFrame} (hg : Sound g) (h : InOrder g fs) :
    (accumulated g).processFrames fs = (accumulated (unfinished g fs), announced g fs) := by
  induction fs generalizing g with
  | nil => rfl
  | cons f fs ih =>
      obtain ⟨hv, hrest⟩ := h
      rw [processFrames_cons, unfinished, announced]
      by_cases hc : f.isControlFrame = true
      · rw [if_pos hc] at hrest
        rw [processFrame_control hv hc, if_pos hc, if_pos hc]
        dsimp only
        rw [ih hg hrest]
      · rw [if_neg hc] at hrest
        obtain ⟨hadmits, hrest⟩ := hrest
        have hframe : (accumulated g).processFrame f = (accumulated g).processDataFrame f := by
          rw [processFrame, if_pos hv, if_neg hc]
        rw [hframe, if_neg hc, if_neg hc]
        rcases processDataFrame_cases hg (isDataFrame_of_not_control hc) with ⟨-, heq⟩ | ⟨hbad, -⟩
        · rw [heq]
          by_cases hfinal : f.isFinalFrame = true
          · rw [if_pos hfinal] at hrest ⊢
            rw [if_pos hfinal, if_pos hfinal]
            have hnext := ih sound_nil hrest
            dsimp only [accumulated] at hnext ⊢
            rw [hnext]
            rfl
          · rw [if_neg hfinal] at hrest ⊢
            rw [if_neg hfinal, if_neg hfinal]
            dsimp only
            rw [ih (sound_append hadmits) hrest]
            rfl
        · exact absurd hadmits hbad

/-- No error is reported exactly for frames that come in order. -/
theorem processFrames_no_error {g fs : List QWebSocketFrame} (hg : Sound g) :
    (∀ s ∈ ((accumulated g).processFrames fs).2, s.isError = false) ↔ InOrder g fs := by
  induction fs generalizing g with
  | nil => exact ⟨fun _ => trivial, fun _ s hs => by cases hs⟩
  | cons f fs ih =>
      rw [processFrames_cons, InOrder, List.forall_mem_append]
      by_cases hv : f.isValid = true
      · by_cases hc : f.isControlFrame = true
        · rw [processFrame_control hv hc, if_pos hc]
          dsimp only
          rw [ih hg]
          exact ⟨fun h => ⟨hv, h.2⟩, fun h => ⟨controlSignals_no_error f, h.2⟩⟩
        · have hframe : (accumulated g).processFrame f = (accumulated g).processDataFrame f := by
            rw [processFrame, if_pos hv, if_neg hc]
          rw [hframe, if_neg hc]
          rcases processDataFrame_cases hg (isDataFrame_of_not_control hc) with
            ⟨hadmits, heq⟩ | ⟨hbad, code, description, heq⟩
          · rw [heq]
            by_cases hfinal : f.isFinalFrame = true
            · rw [if_pos hfinal, if_pos hfinal]
              have hnext := ih (g := []) sound_nil
              dsimp only [accumulated] at hnext ⊢
              rw [hnext]
              refine ⟨fun h => ⟨hv, hadmits, h.2⟩, fun h => ⟨?_, h.2.2⟩⟩
              simp [frameSignal_no_error, messageSignal_no_error]
            · rw [if_neg hfinal, if_neg hfinal]
              dsimp only
              rw [ih (sound_append hadmits)]
              refine ⟨fun h => ⟨hv, hadmits, h.2⟩, fun h => ⟨?_, h.2.2⟩⟩
              simp [frameSignal_no_error]
          · rw [heq]
            refine ⟨fun h => ?_, fun h => absurd h.2.1 hbad⟩
            have herror := h.1 (.errorEncountered code description) (List.mem_singleton_self _)
            cases herror
      · have hframe : (accumulated g).processFrame f =
            ⟨(accumulated g).clear, [.errorEncountered f.closeCode f.closeReason], true⟩ := by
          rw [processFrame, if_neg hv]
        rw [hframe]
        refine ⟨fun h => ?_, fun h => absurd h.1 hv⟩
        have herror := h.1 (.errorEncountered f.closeCode f.closeReason) (List.mem_singleton_self _)
        cases herror

/-! ### Messages

What is announced for frames that come in order, sorted by messages and control frames. -/

/-- The messages that are announced. -/
theorem announced_messages {g fs : List QWebSocketFrame} :
    (announced g fs).filter ProcessorSignal.isMessage = (messages g fs).map messageSignal := by
  have hframe : ∀ g f, (frameSignal g f).isMessage = false := by
    intro g f
    unfold frameSignal
    split <;> rfl
  have hmessage : ∀ g, (messageSignal g).isMessage = true := by
    intro g
    unfold messageSignal
    split <;> rfl
  have hcontrol : ∀ f, (controlSignals f).filter ProcessorSignal.isMessage = [] := by
    intro f
    unfold controlSignals
    cases f.opCode <;> rfl
  induction fs generalizing g with
  | nil => rfl
  | cons f fs ih =>
      rw [announced, messages]
      split
      · rw [List.filter_append, hcontrol, List.nil_append, ih]
      · split
        · rw [List.filter_cons_of_neg (by simp [hframe]), List.filter_cons_of_pos (hmessage _), ih,
            List.map_cons]
        · rw [List.filter_cons_of_neg (by simp [hframe]), ih]

/-- The control frames that are announced. -/
theorem announced_control {g fs : List QWebSocketFrame} :
    (announced g fs).filter ProcessorSignal.isControl =
      (fs.filter (·.isControlFrame)).flatMap controlSignals := by
  have hframe : ∀ g f, (frameSignal g f).isControl = false := by
    intro g f
    unfold frameSignal
    split <;> rfl
  have hmessage : ∀ g, (messageSignal g).isControl = false := by
    intro g
    unfold messageSignal
    split <;> rfl
  have hcontrol : ∀ f, (controlSignals f).filter ProcessorSignal.isControl = controlSignals f := by
    intro f
    unfold controlSignals
    cases f.opCode <;> rfl
  induction fs generalizing g with
  | nil => rfl
  | cons f fs ih =>
      rw [announced]
      split
      · next hc => rw [List.filter_append, hcontrol, ih, List.filter_cons_of_pos hc,
          List.flatMap_cons]
      · next hc =>
          rw [List.filter_cons_of_neg hc]
          split
          · rw [List.filter_cons_of_neg (by simp [hframe]),
              List.filter_cons_of_neg (by simp [hmessage]), ih]
          · rw [List.filter_cons_of_neg (by simp [hframe]), ih]

/-- Every data frame is in a message, or in the one that is not complete. -/
theorem messages_flatten (g fs : List QWebSocketFrame) :
    (messages g fs).flatten ++ unfinished g fs = g ++ fs.filter (·.isDataFrame) := by
  induction fs generalizing g with
  | nil => simp [messages, unfinished]
  | cons f fs ih =>
      rw [messages, unfinished]
      by_cases hc : f.isControlFrame = true
      · rw [if_pos hc, if_pos hc, ih, List.filter_cons_of_neg
          (by simp [QWebSocketFrame.isDataFrame, hc])]
      · rw [if_neg hc, if_neg hc, List.filter_cons_of_pos (isDataFrame_of_not_control hc)]
        by_cases hfinal : f.isFinalFrame = true
        · rw [if_pos hfinal, if_pos hfinal, List.flatten_cons, List.append_assoc, ih]
          simp
        · rw [if_neg hfinal, if_neg hfinal, ih]
          simp

/-- **Reassembly.** A processor reports no error exactly if the frames are valid and come in order.
Then it announces the complete messages of the data frames, in which no data frame is lost or
repeated, and every control frame, and it keeps nothing but the frames of the message that is not
complete. -/
theorem processFrames_messages (fs : List QWebSocketFrame) :
    ((∀ s ∈ (new.processFrames fs).2, s.isError = false) ↔ InOrder [] fs) ∧
    (InOrder [] fs →
      (new.processFrames fs).2.filter ProcessorSignal.isMessage =
          (messages [] fs).map messageSignal ∧
        (messages [] fs).flatten ++ unfinished [] fs = fs.filter (·.isDataFrame) ∧
        (new.processFrames fs).2.filter ProcessorSignal.isControl =
          (fs.filter (·.isControlFrame)).flatMap controlSignals ∧
        (new.processFrames fs).1 = accumulated (unfinished [] fs)) := by
  refine ⟨processFrames_no_error (g := []) sound_nil, fun h => ?_⟩
  have hrun : new.processFrames fs = (accumulated (unfinished [] fs), announced [] fs) :=
    processFrames_inOrder (g := []) sound_nil h
  rw [hrun]
  exact ⟨announced_messages, messages_flatten [] fs, announced_control, rfl⟩

end QWebSocketDataProcessor

end QtWebApp
