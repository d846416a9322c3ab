import QtWebApp.WebSockets.FrameReading

/-!
# QtWebApp.WebSockets.FrameFormat

What frames look like on the wire.

A `WireFrame` carries the rules that its fields obey: a known opcode, and a control frame is short
and not fragmented. `bytes` is its one encoding. `parse_bytes` says that `readFrame` reads every
such frame, and `bytes_of_parse` that it accepts nothing else.

Both directions are proved along the states of the reader, from the last one to the first: the
payload, the key, the length, the header. For each of them one lemma says that the reader reads what
the encoding has there, and one that it accepts nothing but that. The length has one encoding only,
since the reader rejects a length that would have fitted into fewer bytes.
-/

namespace QtWebApp

open QWebSocketProtocol

/-- A control frame is short and not fragmented. -/
def OneControl (opCode : OpCode) (isFinalFrame : Bool) (size : Nat) : Prop :=
  8 ≤ opCode.toNat → size ≤ 125 ∧ isFinalFrame = true

instance (opCode : OpCode) (isFinalFrame : Bool) (size : Nat) :
    Decidable (OneControl opCode isFinalFrame size) := inferInstanceAs (Decidable (_ → _))

/-- A frame that can be sent. -/
structure WireFrame where
  opCode : OpCode
  isFinalFrame : Bool
  maskingKey : Option UInt32
  payload : Bytes
  known : isOpCodeReserved opCode = false
  short : payload.length ≤ maxFrameSize
  control : OneControl opCode isFinalFrame payload.length

namespace WireFrame

/-! ### Bytes

The encoding of a frame, as the protocol has it: two bytes with the opcode, the flags and a length,
the rest of the length, the key if the frame is masked, and the payload under that key. -/

/-- The first byte: the opcode and the bit of a final frame. -/
def firstByte (opCode : OpCode) (isFinalFrame : Bool) : UInt8 :=
  UInt8.ofNat (opCode.toNat + if isFinalFrame then 0x80 else 0)

/-- The second byte: a length below 128 and the bit of a masked frame. -/
def secondByte (masked : Bool) (length : Nat) : UInt8 :=
  UInt8.ofNat (length + if masked then 0x80 else 0)

/-- The bytes of the length, as few as possible. -/
def lengthBytes (masked : Bool) (size : Nat) : Bytes :=
  if size ≤ 125 then [secondByte masked size]
  else if size ≤ 0xFFFF then secondByte masked 126 :: toBigEndian 2 size
  else secondByte masked 127 :: toBigEndian 8 size

/-- The key and the masked payload. -/
def maskedBytes (maskingKey : Option UInt32) (payload : Bytes) : Bytes :=
  match maskingKey with
  | some key => maskBytes key ++ mask payload key
  | none => payload

/-- The frame on the wire. -/
def bytes (w : WireFrame) : Bytes :=
  firstByte w.opCode w.isFinalFrame :: lengthBytes w.maskingKey.isSome w.payload.length ++
    maskedBytes w.maskingKey w.payload

/-- The length in the second byte. -/
def lengthField (size : Nat) : Nat := if size ≤ 125 then size else if size ≤ 0xFFFF
    then 126 else 127

/-- The frame as `readFrame` returns it. -/
def frame (w : WireFrame) : QWebSocketFrame :=
  { QWebSocketFrame.new with
    mask := w.maskingKey.getD 0
    opCode := w.opCode
    length := lengthField w.payload.length
    payload := w.payload
    isFinalFrame := w.isFinalFrame
    isValid := true }

/-! ### The header

The fields of the two bytes can be read off again, and a first byte without reserved bits is
determined by its fields. As there are only 256 values, this is decided case by case. -/

/-- The fields of a first byte are the ones it was made of, and no reserved bit is set. -/
theorem firstByte_fields (opCode : OpCode) (isFinalFrame : Bool) :
    let b := firstByte opCode isFinalFrame
    (b &&& 0x80 != 0) = isFinalFrame ∧ (b &&& 0x40 != 0) = false ∧ (b &&& 0x20 != 0) = false ∧
      (b &&& 0x10 != 0) = false ∧ OpCode.ofBits (b &&& 0x0F).toNat = opCode := by
  cases opCode <;> cases isFinalFrame <;> decide

/-- The fields of a second byte are the ones it was made of. -/
theorem secondByte_fields (masked : Bool) {length : Nat} (h : length < 128) :
    (secondByte masked length &&& 0x80 != 0) = masked ∧
      (secondByte masked length &&& 0x7F).toNat = length := by
  have hall : ∀ n < 128, ∀ m : Bool, (secondByte m n &&& 0x80 != 0) = m ∧
      (secondByte m n &&& 0x7F).toNat = n := by decide
  exact hall length h masked

/-- A first byte without reserved bits. -/
theorem firstByte_of_fields (b : UInt8) (h4 : (b &&& 0x40 != 0) = false)
    (h2 : (b &&& 0x20 != 0) = false) (h1 : (b &&& 0x10 != 0) = false) :
    firstByte (OpCode.ofBits (b &&& 0x0F).toNat) (b &&& 0x80 != 0) = b := by
  have hall : ∀ n < 256, (UInt8.ofNat n &&& 0x40 != 0) = false →
      (UInt8.ofNat n &&& 0x20 != 0) = false →
      (UInt8.ofNat n &&& 0x10 != 0) = false →
      firstByte (OpCode.ofBits (UInt8.ofNat n &&& 0x0F).toNat) (UInt8.ofNat n &&& 0x80 != 0) =
        UInt8.ofNat n := by decide +kernel
  have hb := hall b.toNat (UInt8.toNat_lt b)
  rw [UInt8.ofNat_toNat] at hb
  exact hb h4 h2 h1

/-- Every second byte is made of its fields. -/
theorem secondByte_of_fields (b : UInt8) :
    secondByte (b &&& 0x80 != 0) (b &&& 0x7F).toNat = b ∧ (b &&& 0x7F).toNat < 128 := by
  have hall : ∀ n < 256, secondByte (UInt8.ofNat n &&& 0x80 != 0) (UInt8.ofNat n &&& 0x7F).toNat =
      UInt8.ofNat n ∧ (UInt8.ofNat n &&& 0x7F).toNat < 128 := by decide +kernel
  have hb := hall b.toNat (UInt8.toNat_lt b)
  rwa [UInt8.ofNat_toNat] at hb

/-- The opcodes from 8 on are those of control frames. -/
theorem isControlFrame_iff (f : QWebSocketFrame) : f.isControlFrame = true ↔
    8 ≤ f.opCode.toNat := by
  unfold QWebSocketFrame.isControlFrame
  cases f.opCode <;> decide

/-- A header that is found valid. -/
theorem checkValidity_cases (f : QWebSocketFrame) :
    (f.checkValidity = { f with isValid := true } ∧ f.rsv1 = false ∧ f.rsv2 = false ∧
      f.rsv3 = false ∧
      isOpCodeReserved f.opCode = false ∧ OneControl f.opCode f.isFinalFrame f.length) ∨
      ∃ reason, f.checkValidity = QWebSocketFrame.error closeCodeProtocolError reason ∧
        ¬ (f.rsv1 = false ∧ f.rsv2 = false ∧ f.rsv3 = false ∧ isOpCodeReserved f.opCode = false ∧
          OneControl f.opCode f.isFinalFrame f.length) := by
  unfold QWebSocketFrame.checkValidity
  split_ifs with hrsv hreserved hcontrol hlong hparts
  · exact .inr ⟨_, rfl, by grind⟩
  · exact .inr ⟨_, rfl, by grind⟩
  · refine .inr ⟨_, rfl, fun h => ?_⟩
    have hone := h.2.2.2.2 ((isControlFrame_iff f).mp hcontrol)
    omega
  · refine .inr ⟨_, rfl, fun h => ?_⟩
    have hone := h.2.2.2.2 ((isControlFrame_iff f).mp hcontrol)
    rw [hone.2] at hparts
    cases hparts
  · refine .inl ⟨rfl, by grind, by grind, by grind, by simpa using hreserved, fun _ => ?_⟩
    exact ⟨by omega, by simpa using hparts⟩
  · refine .inl ⟨rfl, by grind, by grind, by grind, by simpa using hreserved, fun h => ?_⟩
    exact absurd ((isControlFrame_iff f).mpr h) hcontrol

/-! ### The key and the payload

The reader takes the key and the payload in two states, and unmasks at the end. A frame that is not
masked skips the first of them. -/

open QWebSocketFrame Reading

/-- A frame with its key and its payload. -/
def withData (f : QWebSocketFrame) (key : UInt32) (payload : Bytes) : QWebSocketFrame :=
  { f with mask := key, payload := payload }

/-- What `PS_READ_PAYLOAD` leads to. -/
theorem finish_readPayload {r : Reading} (hw : r.waiting = false)
    (hs : r.processingState = .readPayload) (b : Bytes) : r.finish b =
      if r.payloadLength = 0 then some (r.frame, b)
      else if maxFrameSize < r.payloadLength then
        some (QWebSocketFrame.error closeCodeTooMuchData "Maximum framesize exceeded.", b)
      else if r.payloadLength ≤ b.length then
        some ((r.payload (b.take r.payloadLength)).frame, b.drop r.payloadLength)
      else none := by
  have hturn : r.turn b = if r.payloadLength = 0
      then ({ r with processingState := .dispatchResult }, b)
      else if maxFrameSize < r.payloadLength then
        (r.fail closeCodeTooMuchData "Maximum framesize exceeded.", b)
      else r.take r.payloadLength b r.payload := by
    rw [turn, if_neg (by rw [hw]; exact Bool.false_ne_true), hs]
  by_cases hzero : r.payloadLength = 0
  · rw [if_pos hzero] at hturn ⊢
    rw [finish_turn, hturn]
    exact finish_done (r := { r with processingState := .dispatchResult }) ⟨hw, rfl⟩ b
  · rw [if_neg hzero] at hturn ⊢
    by_cases hbig : maxFrameSize < r.payloadLength
    · rw [if_pos hbig] at hturn ⊢
      rw [finish_turn, hturn]
      exact finish_done (r := r.fail _ _) ⟨rfl, rfl⟩ b
    · rw [if_neg hbig] at hturn ⊢
      rw [finish_take _ hturn]
      split
      · exact finish_done (r := r.payload (b.take r.payloadLength)) ⟨hw, rfl⟩ _
      · rfl

/-- What `PS_READ_MASK` leads to. -/
theorem finish_readMask {r : Reading} (hw : r.waiting = false) (hs : r.processingState = .readMask)
    (b : Bytes) : r.finish b =
      if 4 ≤ b.length then (r.maskingKey (fromBigEndian (b.take 4))).finish
        (b.drop 4) else none := by
  refine finish_take (fun b => r.maskingKey (fromBigEndian b)) ?_
  rw [turn, if_neg (by rw [hw]; exact Bool.false_ne_true), hs]

/-- The data of a payload that is there. -/
theorem finish_data {r : Reading} (hw : r.waiting = false) (hs : r.processingState = .readPayload)
    (hempty : r.frame.payload = []) (data : Bytes) (hlen : r.payloadLength = data.length)
    (hshort : data.length ≤ maxFrameSize) (rest : Bytes) : r.finish (data ++ rest) =
      some (withData r.frame r.frame.mask (if r.hasMask then mask data r.frame.mask else data),
        rest) := by
  rw [finish_readPayload hw hs, hlen]
  by_cases hzero : data.length = 0
  · obtain rfl := List.length_eq_zero_iff.mp hzero
    rw [if_pos hzero, List.nil_append, mask_nil, ite_self, withData, ← hempty]
  · rw [if_neg hzero, if_neg (by omega), if_pos (by rw [List.length_append]; omega), List.take_left,
      List.drop_left]
    rfl

/-- What a valid result says about the data of the payload. -/
theorem data_of_finish {r : Reading} (hw : r.waiting = false)
    (hs : r.processingState = .readPayload) (hempty : r.frame.payload = []) {b rest : Bytes}
    {f : QWebSocketFrame} (h : r.finish b = some (f, rest)) (hvalid : f.isValid = true) :
    ∃ data, b = data ++ rest ∧ r.payloadLength = data.length ∧ data.length ≤ maxFrameSize ∧
      f = withData r.frame r.frame.mask (if r.hasMask then mask data r.frame.mask else data) := by
  rw [finish_readPayload hw hs] at h
  split_ifs at h with hzero hbig hlen
  · cases h
    refine ⟨[], rfl, hzero, Nat.zero_le _, ?_⟩
    rw [mask_nil, ite_self, withData, ← hempty]
  · cases h
    cases hvalid
  · cases h
    refine ⟨b.take r.payloadLength, (List.take_append_drop _ b).symm, ?_, ?_, rfl⟩
    · rw [List.length_take_of_le hlen]
    · rw [List.length_take_of_le hlen]
      omega

/-- **The key and the payload are read.** -/
theorem finish_maskedBytes {r : Reading} (hw : r.waiting = false) (hmask : r.frame.mask = 0)
    (hempty : r.frame.payload = []) {key : Option UInt32} (hkey : r.hasMask = key.isSome)
    {payload : Bytes} (hlen : r.payloadLength = payload.length)
    (hshort : payload.length ≤ maxFrameSize) (rest : Bytes) :
    r.afterLength.finish (maskedBytes key payload ++ rest) =
      some (withData r.frame (key.getD 0) payload, rest) := by
  cases key with
  | none =>
      have hplain : r.hasMask = false := hkey
      have hstate : r.afterLength.processingState = .readPayload := by
        rw [afterLength, hplain]
        rfl
      have hread := finish_data (r := r.afterLength) hw hstate hempty payload hlen hshort rest
      rw [maskedBytes, hread]
      show some (withData r.frame r.frame.mask
        (if r.hasMask = true then mask payload r.frame.mask else payload), rest) = _
      rw [if_neg (by rw [hplain]; exact Bool.false_ne_true), hmask]
      rfl
  | some key =>
      have hmasked : r.hasMask = true := hkey
      have hstate : r.afterLength.processingState = .readMask := by
        rw [afterLength, hmasked]
        rfl
      have hfour : (maskBytes key).length = 4 := length_toBigEndian 4 _
      have hread := finish_data
          (r := r.afterLength.maskingKey (fromBigEndian (maskBytes key))) hw rfl
        hempty (mask payload key) (hlen.trans (length_mask payload key).symm)
        (by rw [length_mask]; exact hshort) rest
      rw [maskedBytes, List.append_assoc, finish_readMask (r := r.afterLength) hw hstate,
        if_pos (by rw [List.length_append]; omega), List.take_left' hfour,
        List.drop_left' hfour, hread]
      have hback := ofNat_maskBytes key
      show some (withData r.frame (UInt32.ofNat (fromBigEndian (maskBytes key)))
        (if r.hasMask = true then
          mask (mask payload key) (UInt32.ofNat (fromBigEndian (maskBytes key)))
        else mask payload key), rest) = _
      rw [if_pos hmasked, hback, mask_mask]
      rfl

/-- **Only a key and a payload are read.** -/
theorem maskedBytes_of_finish {r : Reading} (hw : r.waiting = false) (hmask : r.frame.mask = 0)
    (hempty : r.frame.payload = []) {b rest : Bytes} {f : QWebSocketFrame}
    (h : r.afterLength.finish b = some (f, rest)) (hvalid : f.isValid = true) :
    ∃ (key : Option UInt32) (payload : Bytes), b = maskedBytes key payload ++ rest ∧
      r.hasMask = key.isSome ∧ r.payloadLength = payload.length ∧ payload.length ≤ maxFrameSize ∧
      f = withData r.frame (key.getD 0) payload := by
  cases hmasked : r.hasMask with
  | false =>
      have hstate : r.afterLength.processingState = .readPayload := by
        rw [afterLength, hmasked]
        rfl
      obtain ⟨data, hb, hlen, hshort, hf⟩ := data_of_finish
          (r := r.afterLength) hw hstate hempty h hvalid
      refine ⟨none, data, hb, rfl, hlen, hshort, ?_⟩
      rw [hf]
      show withData r.frame r.frame.mask (if r.hasMask = true
        then mask data r.frame.mask else data) = _
      rw [if_neg (by rw [hmasked]; exact Bool.false_ne_true), hmask]
      rfl
  | true =>
      have hstate : r.afterLength.processingState = .readMask := by
        rw [afterLength, hmasked]
        rfl
      rw [finish_readMask (r := r.afterLength) hw hstate] at h
      split_ifs at h with hfour
      obtain ⟨data, hb, hlen, hshort, hf⟩ := data_of_finish
        (r := r.afterLength.maskingKey (fromBigEndian (b.take 4))) hw rfl hempty h hvalid
      have hbytes : maskBytes (UInt32.ofNat (fromBigEndian (b.take 4))) = b.take 4 := by
        have hlt := fromBigEndian_lt (b.take 4)
        have htake : (b.take 4).length = 4 := List.length_take_of_le hfour
        have hback := toBigEndian_fromBigEndian (b.take 4)
        rw [htake] at hlt hback
        rw [maskBytes, UInt32.toNat_ofNat', Nat.mod_eq_of_lt (by omega), hback]
      refine ⟨some (UInt32.ofNat (fromBigEndian (b.take 4))),
        mask data (UInt32.ofNat (fromBigEndian (b.take 4))), ?_, rfl, ?_, ?_, ?_⟩
      · rw [maskedBytes, mask_mask, hbytes, List.append_assoc, ← hb, List.take_append_drop]
      · rw [length_mask]
        exact hlen
      · rw [length_mask]
        exact hshort
      · rw [hf]
        show withData r.frame (UInt32.ofNat (fromBigEndian (b.take 4)))
          (if r.hasMask = true then mask data (UInt32.ofNat (fromBigEndian (b.take 4))) else data) =
            _
        rw [if_pos hmasked]
        rfl

/-! ### The length

There are three forms of the length. The state behind the header says which one follows; a form that
is longer than necessary is an error. -/

/-- The reader behind a header that is valid. -/
def afterHeader (first second : UInt8) (payloadLength : Nat) : Reading :=
  { start with
    frame := { headerFrame first second with isValid := true }
    hasMask := second &&& 0x80 != 0
    payloadLength := payloadLength }

/-- A stream with two bytes or more begins with a header. -/
theorem parse_cons (first second : UInt8) (rest : Bytes) :
    parse (first :: second :: rest) = (start.header first second).finish rest := by
  have hturn : start.turn (first :: second :: rest) = start.take 2 (first :: second :: rest)
      fun b => start.header (b.getD 0 0) (b.getD 1 0) := rfl
  have htwo : 2 ≤ (first :: second :: rest).length := by simp
  rw [parse, finish_take _ hturn, if_pos htwo]
  rfl

/-- An error in the header ends the reader; nothing more is read. -/
theorem header_error {first second : UInt8} {code : CloseCode} {reason : String}
    (h : (headerFrame first second).checkValidity = QWebSocketFrame.error code reason) (b : Bytes) :
    (start.header first second).finish b = some (QWebSocketFrame.error code reason, b) := by
  have hframe : (start.header first second).frame = QWebSocketFrame.error code reason := by
    unfold header
    simp only [h]
    rfl
  have hdone : (start.header first second).Done := by
    refine ⟨(header_cases start first second).1, ?_⟩
    unfold header
    simp only [h]
    rfl
  rw [finish_done hdone, hframe]

/-- The state behind a valid header depends on the length field. -/
theorem header_valid {first second : UInt8} (h : (headerFrame first second).checkValidity =
    { headerFrame first second with isValid := true }) :
    start.header first second =
      if (second &&& 0x7F).toNat = 126 then
        { afterHeader first second 0 with processingState := .readPayloadLength }
      else if (second &&& 0x7F).toNat = 127 then
        { afterHeader first second 0 with processingState := .readBigPayloadLength }
      else (afterHeader first second (second &&& 0x7F).toNat).afterLength := by
  have hlength : (headerFrame first second).length = (second &&& 0x7F).toNat := rfl
  unfold header
  simp only [h, hlength, if_true]
  by_cases h126 : (second &&& 0x7F).toNat = 126
  · rw [if_pos h126, if_pos h126]
    rfl
  · rw [if_neg h126, if_neg h126]
    by_cases h127 : (second &&& 0x7F).toNat = 127
    · rw [if_pos h127, if_pos h127]
      rfl
    · rw [if_neg h127, if_neg h127]
      rfl

/-- What `PS_READ_PAYLOAD_LENGTH` leads to. -/
theorem finish_readPayloadLength {r : Reading} (hw : r.waiting = false)
    (hs : r.processingState = .readPayloadLength) (b : Bytes) : r.finish b =
      if 2 ≤ b.length then (r.shortLength (fromBigEndian (b.take 2))).finish
        (b.drop 2) else none := by
  refine finish_take (fun b => r.shortLength (fromBigEndian b)) ?_
  rw [turn, if_neg (by rw [hw]; exact Bool.false_ne_true), hs]

/-- What `PS_READ_BIG_PAYLOAD_LENGTH` leads to. -/
theorem finish_readBigPayloadLength {r : Reading} (hw : r.waiting = false)
    (hs : r.processingState = .readBigPayloadLength) (b : Bytes) : r.finish b =
      if 8 ≤ b.length then (r.bigLength (fromBigEndian (b.take 8))).finish
        (b.drop 8) else none := by
  refine finish_take (fun b => r.bigLength (fromBigEndian b)) ?_
  rw [turn, if_neg (by rw [hw]; exact Bool.false_ne_true), hs]

/-! ### Frames

The parts put together: the reader accepts the encodings of frames, and nothing else. -/

/-- The two bytes of a header are read as the fields they were made of. -/
theorem headerFrame_eq (opCode : OpCode) (isFinalFrame masked : Bool) {length : Nat}
    (h : length < 128) : headerFrame (firstByte opCode isFinalFrame) (secondByte masked length) =
      { QWebSocketFrame.new with
        isFinalFrame := isFinalFrame, opCode := opCode, length := length } := by
  obtain ⟨hfinal, h4, h2, h1, hop⟩ := firstByte_fields opCode isFinalFrame
  have hlen := (secondByte_fields masked h).2
  simp only [headerFrame, hfinal, h4, h2, h1, hop, hlen]
  rfl

/-- A control frame says its length in one byte. -/
theorem oneControl_lengthField {opCode : OpCode} {isFinalFrame : Bool} {size : Nat}
    (h : OneControl opCode isFinalFrame size) :
    OneControl opCode isFinalFrame (lengthField size) := by
  intro hcontrol
  obtain ⟨hsize, hfinal⟩ := h hcontrol
  rw [lengthField, if_pos hsize]
  exact ⟨hsize, hfinal⟩

/-- **Every frame is read**, and nothing behind it. -/
theorem parse_bytes (w : WireFrame) (rest : Bytes) :
    parse (w.bytes ++ rest) = some (w.frame, rest) := by
  have hfield : lengthField w.payload.length < 128 := by
    unfold lengthField
    split_ifs <;> omega
  have hframe := headerFrame_eq w.opCode w.isFinalFrame w.maskingKey.isSome hfield
  have hfields := secondByte_fields w.maskingKey.isSome hfield
  have hvalid : (headerFrame (firstByte w.opCode w.isFinalFrame)
      (secondByte w.maskingKey.isSome (lengthField w.payload.length))).checkValidity =
      { headerFrame (firstByte w.opCode w.isFinalFrame)
        (secondByte w.maskingKey.isSome (lengthField w.payload.length)) with isValid := true } := by
    rw [hframe]
    rcases checkValidity_cases { QWebSocketFrame.new with
        isFinalFrame := w.isFinalFrame
        opCode := w.opCode
        length := lengthField w.payload.length } with ⟨h, -⟩ | ⟨-, -, hbad⟩
    · exact h
    · exact absurd ⟨rfl, rfl, rfl, w.known, oneControl_lengthField w.control⟩ hbad
  -- behind the header and the length, whatever form it has
  have hbody : ∀ r : Reading, r.waiting = false → r.payloadLength = w.payload.length →
      r.hasMask = w.maskingKey.isSome →
      r.frame = { headerFrame (firstByte w.opCode w.isFinalFrame)
        (secondByte w.maskingKey.isSome (lengthField w.payload.length)) with isValid := true } →
      r.afterLength.finish (maskedBytes w.maskingKey w.payload ++ rest) = some (w.frame, rest) := by
    intro r hw hlen hkey hr
    rw [hframe] at hr
    rw [finish_maskedBytes hw (by rw [hr]; rfl) (by rw [hr]; rfl) hkey hlen w.short rest, hr]
    rfl
  have hheader := header_valid hvalid
  rw [hfields.2] at hheader
  by_cases hone : w.payload.length ≤ 125
  · have hcode : lengthField w.payload.length = w.payload.length := if_pos hone
    rw [hcode] at hheader hfields hbody
    rw [bytes, lengthBytes, if_pos hone, List.cons_append, List.cons_append, List.singleton_append,
      List.cons_append, parse_cons, hheader, if_neg (by omega), if_neg (by omega)]
    exact hbody _ rfl rfl hfields.1 rfl
  · by_cases htwo : w.payload.length ≤ 0xFFFF
    · have hcode : lengthField w.payload.length = 126 := by
        rw [lengthField, if_neg hone, if_pos htwo]
      rw [hcode] at hheader hfields hbody
      have hlen2 : (toBigEndian 2 w.payload.length).length = 2 := length_toBigEndian 2 _
      have hback : fromBigEndian (toBigEndian 2 w.payload.length) = w.payload.length := by
        rw [fromBigEndian_toBigEndian, Nat.mod_eq_of_lt (by omega)]
      simp only [bytes, lengthBytes, if_neg hone, if_pos htwo, List.cons_append, List.append_assoc]
      rw [parse_cons, hheader, if_pos rfl, finish_readPayloadLength rfl rfl,
        if_pos (by rw [List.length_append]; omega), List.take_left' hlen2,
        List.drop_left' hlen2, hback, shortLength, if_neg (by omega)]
      exact hbody _ rfl rfl hfields.1 rfl
    · have hcode : lengthField w.payload.length = 127 := by
        rw [lengthField, if_neg hone, if_neg htwo]
      rw [hcode] at hheader hfields hbody
      have hshort : w.payload.length ≤ 2147483646 := w.short
      have hlen8 : (toBigEndian 8 w.payload.length).length = 8 := length_toBigEndian 8 _
      have hback : fromBigEndian (toBigEndian 8 w.payload.length) = w.payload.length := by
        rw [fromBigEndian_toBigEndian, Nat.mod_eq_of_lt (by omega)]
      simp only [bytes, lengthBytes, if_neg hone, if_neg htwo, List.cons_append, List.append_assoc]
      rw [parse_cons, hheader, if_neg (by omega), if_pos rfl, finish_readBigPayloadLength rfl rfl,
        if_pos (by rw [List.length_append]; omega), List.take_left' hlen8,
        List.drop_left' hlen8, hback, bigLength, if_neg (by omega), if_neg (by omega)]
      exact hbody _ rfl rfl hfields.1 rfl

/-- An error is not a valid frame. -/
theorem finish_fail_invalid {r : Reading} {code : CloseCode} {reason : String} {b rest : Bytes}
    {f : QWebSocketFrame} (h : (r.fail code reason).finish b = some (f, rest)) :
    f.isValid = false := by
  rw [finish_done ⟨rfl, rfl⟩] at h
  cases h
  rfl

/-- A length that was accepted in its longer form. -/
theorem length_of_finish {b rest : Bytes} {f : QWebSocketFrame}
    (hvalid : f.isValid = true) {r : Reading} :
    (∀ n, (r.shortLength n).finish b = some (f, rest) →
      126 ≤ n ∧ { r with payloadLength := n }.afterLength.finish b = some (f, rest)) ∧
    (∀ n, (r.bigLength n).finish b = some (f, rest) →
      0xFFFF < n ∧ { r with payloadLength := n }.afterLength.finish b = some (f, rest)) := by
  constructor
  · intro n h
    unfold shortLength at h
    dsimp only at h
    split at h
    · rw [finish_fail_invalid h] at hvalid
      cases hvalid
    · exact ⟨by omega, h⟩
  · intro n h
    unfold bigLength at h
    dsimp only at h
    split at h
    · rw [finish_fail_invalid h] at hvalid
      cases hvalid
    · split at h
      · rw [finish_fail_invalid h] at hvalid
        cases hvalid
      · exact ⟨by omega, h⟩

/-- **Nothing but frames is accepted.** What `readFrame` takes for a valid frame is the encoding of
that frame. -/
theorem bytes_of_parse {b rest : Bytes} {f : QWebSocketFrame} (h : parse b = some (f, rest))
    (hvalid : f.isValid = true) : ∃ w : WireFrame, b = w.bytes ++ rest ∧ f = w.frame := by
  match b, h with
  | [], h => cases h
  | [_], h => cases h
  | first :: second :: body, h =>
      rw [parse_cons] at h
      obtain ⟨hsecond, hfield⟩ := secondByte_of_fields second
      rcases checkValidity_cases (headerFrame first second) with
        ⟨hok, h4, h2, h1, hknown, hcontrol⟩ | ⟨reason, hbad, -⟩
      · have hfirst := firstByte_of_fields first h4 h2 h1
        rw [header_valid hok] at h
        have hheader := headerFrame_eq (OpCode.ofBits (first &&& 0x0F).toNat) (first &&& 0x80 != 0)
          (second &&& 0x80 != 0) hfield
        rw [hfirst, hsecond] at hheader
        -- with the length in hand, the key and the payload complete the frame
        have hdone : ∀ (lengthPart tail : Bytes) (size : Nat), body = lengthPart ++ tail →
            lengthField size = (second &&& 0x7F).toNat →
            lengthBytes (second &&& 0x80 != 0) size = second :: lengthPart →
            (afterHeader first second size).afterLength.finish tail = some (f, rest) →
            ∃ w : WireFrame, first :: second :: body = w.bytes ++ rest ∧ f = w.frame := by
          intro lengthPart tail size hbody hlength hbytes hfinish
          obtain ⟨key, payload, htail, hkey, hsize, hshort, hf⟩ :=
            maskedBytes_of_finish (r := afterHeader first second size) rfl rfl rfl hfinish hvalid
          have hkey : (second &&& 0x80 != 0) = key.isSome := hkey
          have hsize : size = payload.length := hsize
          have hcontrol : OneControl (OpCode.ofBits (first &&& 0x0F).toNat) (first &&& 0x80 != 0)
              payload.length := by
            intro hop
            have hone : (second &&& 0x7F).toNat ≤ 125 ∧ (first &&& 0x80 != 0) = true := hcontrol hop
            rw [← hlength, lengthField] at hone
            refine ⟨?_, hone.2⟩
            have hsmall := hone.1
            split_ifs at hsmall <;> omega
          refine ⟨⟨OpCode.ofBits (first &&& 0x0F).toNat, first &&& 0x80 != 0, key, payload, hknown,
            hshort, hcontrol⟩, ?_, ?_⟩
          · simp only [bytes]
            rw [hfirst, ← hkey, ← hsize, hbytes, hbody, htail]
            simp
          · rw [hf]
            show withData { headerFrame first second with isValid := true } _ _ = _
            rw [hheader, ← hlength, hsize]
            rfl
        split_ifs at h with h126 h127
        · rw [finish_readPayloadLength rfl rfl] at h
          split at h
          · next htwo =>
              obtain ⟨hmin, hrest⟩ := (length_of_finish hvalid).1 _ h
              have htake : (body.take 2).length = 2 := List.length_take_of_le htwo
              have hlt := fromBigEndian_lt (body.take 2)
              have hback := toBigEndian_fromBigEndian (body.take 2)
              rw [htake] at hlt hback
              refine hdone (body.take 2) (body.drop 2) (fromBigEndian (body.take 2))
                (List.take_append_drop 2 body).symm ?_ ?_ hrest
              · rw [lengthField, if_neg (by omega), if_pos (by omega), h126]
              · rw [lengthBytes, if_neg (by omega), if_pos (by omega), hback, ← h126, hsecond]
          · cases h
        · rw [finish_readBigPayloadLength rfl rfl] at h
          split at h
          · next height =>
              obtain ⟨hmin, hrest⟩ := (length_of_finish hvalid).2 _ h
              have htake : (body.take 8).length = 8 := List.length_take_of_le height
              have hback := toBigEndian_fromBigEndian (body.take 8)
              rw [htake] at hback
              refine hdone (body.take 8) (body.drop 8) (fromBigEndian (body.take 8))
                (List.take_append_drop 8 body).symm ?_ ?_ hrest
              · rw [lengthField, if_neg (by omega), if_neg (by omega), h127]
              · rw [lengthBytes, if_neg (by omega), if_neg (by omega), hback, ← h127, hsecond]
          · cases h
        · refine hdone [] body (second &&& 0x7F).toNat rfl ?_ ?_ h
          · rw [lengthField, if_pos (by omega)]
          · rw [lengthBytes, if_pos (by omega), hsecond]
      · rw [header_error hbad] at h
        cases h
        cases hvalid

/-- **The format.** In whatever pieces the data arrive: `readFrame` returns a valid frame exactly if
they begin with the encoding of that frame, and then nothing but this encoding has been read. -/
theorem foldl_arrive_iff (pieces : List Bytes) (f : QWebSocketFrame) (rest : Bytes) :
    let s := pieces.foldl arrive (start.advance [])
    (s.1.Done ∧ s.1.frame = f ∧ f.isValid = true ∧ s.2 = rest) ↔
      ∃ w : WireFrame, pieces.flatten = w.bytes ++ rest ∧ f = w.frame := by
  intro s
  have hs : s = reached pieces.flatten := foldl_arrive [] pieces
  rw [hs]
  constructor
  · rintro ⟨hdone, hframe, hvalid, hrest⟩
    exact bytes_of_parse (parse_eq_some.mpr ⟨hdone, hframe, hrest⟩) hvalid
  · rintro ⟨w, hbytes, rfl⟩
    obtain ⟨hdone, hframe, hrest⟩ := parse_eq_some.mp (parse_bytes w rest)
    rw [← hbytes] at hdone hframe hrest
    exact ⟨hdone, hframe, rfl, hrest⟩

/-- What a frame is can be seen from its bytes. -/
theorem bytes_injective {w w' : WireFrame} {rest rest' : Bytes}
    (h : w.bytes ++ rest = w'.bytes ++ rest') :
    w.frame = w'.frame ∧ rest = rest' := by
  have hread := parse_bytes w rest
  rw [h, parse_bytes w' rest'] at hread
  obtain ⟨hframe, hrest⟩ := Prod.mk.inj (Option.some.inj hread)
  exact ⟨hframe.symm, hrest.symm⟩

end WireFrame

end QtWebApp
