import QtWebApp.WebSockets.QWebSocket
import QtWebApp.WebSockets.FrameFormat

/-!
# QtWebApp.WebSockets.Sending

Everything that a `QWebSocket` writes is a sequence of frames.

`Sends` says that an operation wrote certain frames and changed nothing else. A message is written
as its `Fragments`: pieces of it, none of them empty unless the message is, the first one with the
opcode of the message, the last one final.

The statement about the bytes is `Encodes`: what an end has written is the frames of what it has
sent, in order, and a close frame ends it. One kind of close frame is no frame at all, because
`close` does not look at the length of the reason; it has a case of its own there (`tooLong`).

That an operation writes nothing is as much a part of this as what it writes. A socket that is not
writable takes nothing, so each lemma about an operation has both cases (`Transmits`, `Closes`).
-/

namespace QtWebApp

open QWebSocketProtocol Utf8

/-- The transmission is a close frame. -/
def Transmission.isClose : Transmission → Bool
  | .close _ _ => true
  | _ => false

namespace QWebSocket

/-! ### Frames

A frame is built from its header and its payload, which are written separately by some operations
and together by others. Here both are the bytes of the frame format. -/

theorem write_of_writable {s : QWebSocket} (h : s.Writable) (data : Bytes) :
    s.write data = (some data.length, { s with written := s.written ++ data }) := if_pos h

theorem write_of_not_writable {s : QWebSocket} (h : ¬ s.Writable) (data : Bytes) :
    s.write data = (none, s) := if_neg h

/-- An operation writes some frames and changes nothing else, except that it draws keys. -/
def Sends (s s' : QWebSocket) (ws : List WireFrame) : Prop :=
  ∃ n, s' = { s with written := s.written ++ ws.flatMap WireFrame.bytes, masks := n }

theorem Sends.refl (s : QWebSocket) : Sends s s [] := by
  refine ⟨s.masks, ?_⟩
  rw [List.flatMap_nil, List.append_nil]

/-- What is written one after the other. -/
theorem Sends.trans {s s' s'' : QWebSocket} {ws ws' : List WireFrame} (h : Sends s s' ws)
    (h' : Sends s' s'' ws') : Sends s s'' (ws ++ ws') := by
  obtain ⟨n, rfl⟩ := h
  obtain ⟨m, rfl⟩ := h'
  refine ⟨m, ?_⟩
  rw [List.flatMap_append, ← List.append_assoc]

theorem Sends.writable {s s' : QWebSocket} {ws : List WireFrame} (h : Sends s s' ws) :
    s'.Writable ↔ s.Writable := by
  obtain ⟨n, rfl⟩ := h
  exact Iff.rfl

/-- The key as it stands in a frame: none if it is zero. -/
def keyField (key : UInt32) : Option UInt32 := if key = 0 then none else some key

theorem firstByte_eq (opCode : OpCode) (lastFrame : Bool) :
    UInt8.ofNat (opCode.toNat &&& 0x0F) ||| (if lastFrame then 0x80 else 0) =
      WireFrame.firstByte opCode lastFrame := by
  cases opCode <;> cases lastFrame <;> decide

theorem secondByte_eq (masked : Bool) {n : Nat} (h : n < 128) :
    (if masked then (0x80 : UInt8) else 0) ||| UInt8.ofNat n = WireFrame.secondByte masked n := by
  have hall : ∀ n < 128, ∀ m : Bool, (if m then (0x80 : UInt8) else 0) ||| UInt8.ofNat n =
      WireFrame.secondByte m n := by decide
  exact hall n h masked

/-- **The header and the data are a frame.** -/
theorem getFrameHeader_append {w : WireFrame} {key : UInt32} (hkey : w.maskingKey = keyField key) :
    getFrameHeader w.opCode w.payload.length key w.isFinalFrame ++
      mask w.payload key = w.bytes := by
  have hmasked : w.maskingKey.isSome = decide (key ≠ 0) := by
    rw [hkey, keyField]
    by_cases hzero : key = 0
    · rw [if_pos hzero, hzero]
      rfl
    · rw [if_neg hzero]
      simp [hzero]
  have hdata : (if key ≠ 0 then toBigEndian 4 key.toNat else []) ++ mask w.payload key =
      WireFrame.maskedBytes w.maskingKey w.payload := by
    rw [hkey, keyField]
    by_cases hzero : key = 0
    · rw [if_pos hzero, if_neg (not_not.mpr hzero), hzero, mask_zero]
      rfl
    · rw [if_neg hzero, if_pos hzero]
      rfl
  have hsecond : ∀ n < 128, (if key ≠ 0 then (0x80 : UInt8) else 0) ||| UInt8.ofNat n =
      WireFrame.secondByte w.maskingKey.isSome n := by
    intro n hn
    rw [← secondByte_eq _ hn, hmasked]
    simp only [decide_eq_true_eq]
  have hlength : (if w.payload.length ≤ 125 then
        [(if key ≠ 0 then (0x80 : UInt8) else 0) ||| UInt8.ofNat w.payload.length]
      else if w.payload.length ≤ 0xFFFF then
        ((if key ≠ 0 then (0x80 : UInt8) else 0) ||| 126) :: toBigEndian 2 w.payload.length
      else ((if key ≠ 0 then (0x80 : UInt8) else 0) ||| 127) :: toBigEndian 8 w.payload.length) =
      WireFrame.lengthBytes w.maskingKey.isSome w.payload.length := by
    unfold WireFrame.lengthBytes
    split
    · rw [hsecond _ (by omega)]
    · have h126 := hsecond 126 (by omega)
      have h127 := hsecond 127 (by omega)
      rw [← h126, ← h127]
      rfl
  unfold getFrameHeader
  dsimp only
  rw [firstByte_eq, hlength, List.append_assoc, hdata]
  rfl

/-! ### Keys and control frames

A key is drawn for each frame of a client, and the same operations write frames without one for a
server. The pong is written by a function of its own. -/

/-- The key that is drawn masks as it should: no masking is a key that is zero. -/
theorem maskingKey_data (app : Application) (s : QWebSocket) (data : Bytes) :
    (if (s.maskingKey app).2.mustMask then mask data (s.maskingKey app).1 else data) =
      mask data (s.maskingKey app).1 := by
  unfold maskingKey
  by_cases h : s.mustMask = true
  · rw [if_pos h]
    exact if_pos h
  · rw [if_neg h, mask_zero]
    exact if_neg h

/-- Drawing a key changes nothing else. -/
theorem maskingKey_eq (app : Application) (s : QWebSocket) :
    ∃ n, (s.maskingKey app).2 = { s with masks := n } := by
  unfold maskingKey
  split
  · exact ⟨_, rfl⟩
  · exact ⟨s.masks, rfl⟩

/-- A frame that is written at once. -/
theorem sends_write {app : Application} {s : QWebSocket} (hs : s.Writable)
    {w : WireFrame} {data : Bytes} (hdata : data = w.bytes) :
    Sends s ((s.maskingKey app).2.write data).2 [w] := by
  obtain ⟨n, hdraw⟩ := maskingKey_eq app s
  have hwritable : (s.maskingKey app).2.Writable := by
    rw [hdraw]
    exact hs
  rw [write_of_writable hwritable, hdata, hdraw]
  exact ⟨n, by rw [List.flatMap_singleton]⟩

/-- A control frame, with a key or without one. -/
theorem writeFrame_sends (app : Application) {s : QWebSocket} (hs : s.Writable) (opCode : OpCode)
    {payload : Bytes} (hknown : isOpCodeReserved opCode = false) (hshort : payload.length ≤ 125) :
    ∃ w : WireFrame, w.opCode = opCode ∧ w.isFinalFrame = true ∧ w.payload = payload ∧
      Sends s (s.writeFrame app opCode payload) [w] := by
  have hmax : payload.length ≤ maxFrameSize := Nat.le_trans hshort (by decide)
  refine ⟨⟨opCode, true, keyField (s.maskingKey app).1, payload, hknown, hmax,
    fun _ => ⟨hshort, rfl⟩⟩, rfl, rfl, rfl, ?_⟩
  unfold writeFrame
  dsimp only
  rw [maskingKey_data]
  exact sends_write hs
    (getFrameHeader_append (w := ⟨opCode, true, _, payload, hknown, hmax, _⟩) rfl)

/-- What is written to a socket that takes nothing. -/
theorem writeFrame_not_writable (app : Application) {s : QWebSocket} (hs : ¬ s.Writable)
    (opCode : OpCode) (payload : Bytes) : Sends s (s.writeFrame app opCode payload) [] := by
  obtain ⟨n, hdraw⟩ := maskingKey_eq app s
  have hwritable : ¬ (s.maskingKey app).2.Writable := by
    rw [hdraw]
    exact hs
  unfold writeFrame
  dsimp only
  rw [write_of_not_writable hwritable, hdraw]
  exact ⟨n, by rw [List.flatMap_nil, List.append_nil]⟩

/-- The pong that answers a ping. -/
theorem writePong_sends (app : Application) {s : QWebSocket} (hs : s.Writable) {data : Bytes}
    (hshort : data.length ≤ 125) : ∃ w : WireFrame, w.opCode = .pong ∧ w.isFinalFrame = true ∧
      w.payload = data ∧ Sends s (s.writePong app data) [w] := by
  obtain ⟨n, hdraw⟩ := maskingKey_eq app s
  have hmax : data.length ≤ maxFrameSize := Nat.le_trans hshort (by decide)
  refine ⟨⟨.pong, true, keyField (s.maskingKey app).1, data, rfl, hmax, fun _ => ⟨hshort, rfl⟩⟩,
    rfl, rfl, rfl, ?_⟩
  have hbytes := @getFrameHeader_append
      ⟨.pong, true, keyField (s.maskingKey app).1, data, rfl, hmax,
    fun _ => ⟨hshort, rfl⟩⟩ (s.maskingKey app).1 rfl
  have hwritable : (s.maskingKey app).2.Writable := by
    rw [hdraw]
    exact hs
  have hmask := maskingKey_data app s data
  have hagain : ∀ b, ({ (s.maskingKey app).2 with written := b } : QWebSocket).Writable :=
    fun _ => hwritable
  unfold writePong
  dsimp only at hbytes ⊢
  rw [write_of_writable hwritable]
  dsimp only
  by_cases hlen : 0 < data.length
  · rw [if_pos hlen, hmask, write_of_writable (hagain _)]
    dsimp only
    rw [List.append_assoc, hbytes, hdraw]
    exact ⟨n, by rw [List.flatMap_singleton]⟩
  · obtain rfl : data = [] := List.length_eq_zero_iff.mp (by omega)
    rw [mask_nil, List.append_nil] at hbytes
    rw [if_neg hlen, hbytes, hdraw]
    exact ⟨n, by rw [List.flatMap_singleton]⟩

/-- A pong that nobody takes. -/
theorem writePong_not_writable (app : Application) {s : QWebSocket} (hs : ¬ s.Writable)
    (data : Bytes) : Sends s (s.writePong app data) [] := by
  obtain ⟨n, hdraw⟩ := maskingKey_eq app s
  have hwritable : ¬ (s.maskingKey app).2.Writable := by
    rw [hdraw]
    exact hs
  unfold writePong
  dsimp only
  rw [write_of_not_writable hwritable]
  dsimp only
  rw [write_of_not_writable hwritable, ite_self, hdraw]
  exact ⟨n, by rw [List.flatMap_nil, List.append_nil]⟩

/-! ### Messages

The loop counts the frames that are left; the induction is on that number. What is left of the data
and the number agree at every turn, so the last frame ends the message. -/

/-- The frames in which data are written as a message: pieces of the data that have as much as a
frame may have, and a final one with the rest. -/
inductive Fragments : OpCode → Bytes → List WireFrame → Prop
  | last {w : WireFrame} (hfinal : w.isFinalFrame = true) (hsize : w.payload.length ≤ frameSize) :
      Fragments w.opCode w.payload [w]
  | more {w : WireFrame} {ws : List WireFrame} {data : Bytes} (hfinal : w.isFinalFrame = false)
      (hsize : w.payload.length = frameSize) (hdata : data ≠ [])
      (hrest : Fragments .continuation data ws) : Fragments w.opCode (w.payload ++ data) (w :: ws)

theorem frameSize_pos : 0 < frameSize := by norm_num [frameSize]

theorem ne_nil_of_frameSize {data : Bytes} (h : data.length = frameSize) : data ≠ [] :=
  List.ne_nil_of_length_pos (by rw [h]; exact frameSize_pos)

theorem numFrames_pos (n : Nat) : 0 < numFrames n := by
  unfold numFrames
  generalize n / frameSize + (if n % frameSize = 0 then 0 else 1) = frames
  dsimp only
  split <;> omega

theorem numFrames_of_le {n : Nat} (h : n ≤ frameSize) : numFrames n = 1 := by
  unfold numFrames
  rcases Nat.lt_or_eq_of_le h with hlt | rfl
  · rw [Nat.div_eq_of_lt hlt, Nat.mod_eq_of_lt hlt]
    split_ifs <;> simp_all
  · rw [Nat.div_self frameSize_pos, Nat.mod_self]
    rfl

/-- One frame more for a message that is longer by what a frame holds. -/
theorem numFrames_of_lt {n : Nat} (h : frameSize < n) :
    numFrames n = numFrames (n - frameSize) + 1 := by
  obtain ⟨k, rfl⟩ := Nat.exists_eq_add_of_lt h
  have hk : frameSize + k + 1 = k + 1 + frameSize := by omega
  have hpos : 0 < (k + 1) / frameSize + if (k + 1) % frameSize = 0 then 0 else 1 := by
    by_cases hrest : (k + 1) % frameSize = 0
    · have hdvd := Nat.dvd_of_mod_eq_zero hrest
      exact Nat.add_pos_left (Nat.div_pos (Nat.le_of_dvd (Nat.succ_pos k) hdvd) frameSize_pos) _
    · rw [if_neg hrest]
      exact Nat.succ_pos _
  rw [hk, Nat.add_sub_cancel]
  unfold numFrames
  rw [Nat.add_div_right _ frameSize_pos, Nat.add_mod_right, Nat.succ_add]
  dsimp only
  rw [if_neg (Nat.succ_ne_zero _), if_neg (Nat.ne_of_gt hpos)]

/-- A data frame that is written: its header and its data. -/
theorem sends_data {app : Application} {s : QWebSocket} (hs : s.Writable) {w : WireFrame}
    (hkey : w.maskingKey = keyField (s.maskingKey app).1) {t : QWebSocket}
    (ht : t = ((s.maskingKey app).2.write
      (getFrameHeader w.opCode w.payload.length (s.maskingKey app).1 w.isFinalFrame)).2) :
    t.Writable ∧ Sends s (t.write (if t.mustMask then mask w.payload (s.maskingKey app).1
      else w.payload)).2 [w] ∧ (w.payload = [] → Sends s t [w]) := by
  obtain ⟨n, hdraw⟩ := maskingKey_eq app s
  have hwritable : (s.maskingKey app).2.Writable := by
    rw [hdraw]
    exact hs
  have hbytes := getFrameHeader_append hkey
  have hmask := maskingKey_data app s w.payload
  have hagain : ∀ b, ({ (s.maskingKey app).2 with written := b } : QWebSocket).Writable :=
    fun _ => hwritable
  rw [write_of_writable hwritable] at ht
  subst ht
  refine ⟨hwritable, ?_, fun hempty => ?_⟩
  · dsimp only
    rw [hmask, write_of_writable (hagain _)]
    dsimp only
    rw [List.append_assoc, hbytes, hdraw]
    exact ⟨n, by rw [List.flatMap_singleton]⟩
  · rw [hempty, mask_nil, List.append_nil] at hbytes
    rw [hempty, hbytes, hdraw]
    exact ⟨n, by rw [List.flatMap_singleton]⟩

/-- A turn of the loop: a frame with the next piece of the data. -/
theorem writeFrames_succ (app : Application) (data : Bytes) (left : Nat)
    {opCode : OpCode} {w : Sending} (hs : w.socket.Writable)
    (hknown : isOpCodeReserved opCode = false) (hdata : opCode.toNat < 8)
    (hrest : w.currentPosition + w.bytesLeft = data.length) :
    ∃ (f : WireFrame) (s : QWebSocket), f.opCode = opCode ∧ f.isFinalFrame = (left == 0) ∧
      f.payload = (data.drop w.currentPosition).take (min w.bytesLeft frameSize) ∧
      Sends w.socket s [f] ∧ writeFrames app data (left + 1) opCode w =
        writeFrames app data left .continuation ⟨s, w.currentPosition + min w.bytesLeft frameSize,
          w.bytesLeft - min w.bytesLeft frameSize,
          w.payloadWritten + min w.bytesLeft frameSize⟩ := by
  obtain ⟨s, position, bytesLeft, payloadWritten⟩ := w
  dsimp only at hs hrest ⊢
  generalize hsize : min bytesLeft frameSize = size
  have hchunk : ((data.drop position).take size).length = size := by
    rw [List.length_take, List.length_drop]
    omega
  have hmax : ((data.drop position).take size).length ≤ maxFrameSize := by
    have hframe : frameSize ≤ maxFrameSize := by norm_num [frameSize, maxFrameSize]
    omega
  obtain ⟨f, hop, hfinal, hkey, hpayload⟩ : ∃ f : WireFrame, f.opCode = opCode ∧
      f.isFinalFrame = (left == 0) ∧ f.maskingKey = keyField (s.maskingKey app).1 ∧
      f.payload = (data.drop position).take size :=
    ⟨⟨opCode, left == 0, keyField (s.maskingKey app).1,
      (data.drop position).take size, hknown, hmax,
      fun hcontrol => absurd hcontrol (Nat.not_le.mpr hdata)⟩, rfl, rfl, rfl, rfl⟩
  obtain ⟨hwritable, hsends, hempty⟩ := sends_data hs hkey rfl
  rw [hop, hfinal, hpayload, hchunk] at hwritable hsends hempty
  rw [writeFrames]
  dsimp only
  rw [hsize]
  by_cases hzero : 0 < size
  · obtain ⟨n, rfl⟩ := Nat.exists_eq_succ_of_ne_zero (Nat.ne_of_gt hzero)
    refine ⟨f, _, hop, hfinal, hpayload, hsends, ?_⟩
    have hmasked :
        (if ((s.maskingKey app).2.write (getFrameHeader opCode (n + 1) (s.maskingKey app).1
        (left == 0))).2.mustMask = true then
          mask ((data.drop position).take (n + 1)) (s.maskingKey app).1
        else (data.drop position).take (n + 1)).length = n + 1 := by
      split
      · rw [length_mask, hchunk]
      · exact hchunk
    rw [if_pos hzero, write_of_writable hwritable]
    dsimp only
    rw [hmasked]
  · obtain rfl : size = 0 := by omega
    exact ⟨f, _, hop, hfinal, hpayload, hempty List.take_zero, by rw [if_neg hzero]; rfl⟩

/-- The rest of a message that is written: as many frames as it needs, and all of its data. -/
theorem writeFrames_sends (app : Application) (data : Bytes) {left : Nat}
    (opCode : OpCode) (w : Sending) (hs : w.socket.Writable)
    (hknown : isOpCodeReserved opCode = false) (hdata : opCode.toNat < 8)
    (hleft : left = numFrames w.bytesLeft) (hrest : w.currentPosition + w.bytesLeft = data.length) :
    ∃ ws, Fragments opCode (data.drop w.currentPosition) ws ∧
      Sends w.socket (writeFrames app data left opCode w).socket ws ∧
      (writeFrames app data left opCode w).payloadWritten = w.payloadWritten + w.bytesLeft := by
  induction left generalizing opCode w with
  | zero =>
      have hpos := numFrames_pos w.bytesLeft
      omega
  | succ left ih =>
      obtain ⟨f, s, hop, hfinal, hpayload, hsends, hnext⟩ :=
        writeFrames_succ app data left hs hknown hdata hrest
      rw [hnext]
      rcases Nat.lt_or_ge frameSize w.bytesLeft with hmore | hlast
      · -- more frames follow, and this one has as much as a frame may have
        rw [Nat.min_eq_right (Nat.le_of_lt hmore)] at hpayload ⊢
        have hframes := numFrames_of_lt hmore
        obtain ⟨ws, hfragments, hrestSends, hwritten⟩ := ih .continuation
          ⟨s, w.currentPosition + frameSize, w.bytesLeft - frameSize, w.payloadWritten + frameSize⟩
          (hsends.writable.mpr hs) rfl (by decide) (by dsimp only; omega) (by dsimp only; omega)
        dsimp only at hfragments hwritten
        have hlen : f.payload.length = frameSize := by
          rw [hpayload, List.length_take, List.length_drop]
          omega
        have hdrop : data.drop w.currentPosition = f.payload ++ data.drop
            (w.currentPosition + frameSize) := by
          rw [hpayload, ← List.drop_drop, List.take_append_drop]
        refine ⟨f :: ws, ?_, hsends.trans hrestSends, by rw [hwritten]; omega⟩
        rw [hdrop, ← hop]
        refine .more ?_ hlen (fun h => ?_) hfragments
        · have hone := numFrames_pos (w.bytesLeft - frameSize)
          rw [hfinal]
          exact beq_false_of_ne (by omega)
        · have hnone := congrArg List.length h
          rw [List.length_drop, List.length_nil] at hnone
          omega
      · -- the last frame has the rest
        rw [Nat.min_eq_left hlast] at hpayload ⊢
        have hone : left = 0 := by
          rw [numFrames_of_le hlast] at hleft
          omega
        subst hone
        refine ⟨[f], ?_, hsends, rfl⟩
        have hall : f.payload = data.drop w.currentPosition := by
          rw [hpayload]
          exact List.take_of_length_le (by rw [List.length_drop]; omega)
        have hsize : f.payload.length ≤ frameSize := by
          rw [hpayload]
          exact Nat.le_trans (List.length_take_le _ _) hlast
        rw [← hall, ← hop]
        exact .last hfinal hsize

/-! ### What is sent

The ghost list `sent` has an entry for each thing that is sent; here is how the frames that are
written belong to the entries. -/

/-- The frames as which something is sent. -/
inductive Wire : Transmission → List WireFrame → Prop
  | text {message : QString} {ws : List WireFrame} (h : Fragments .text (toUtf8 message) ws) :
      Wire (.text message) ws
  | binary {data : Bytes} {ws : List WireFrame} (h : Fragments .binary data ws) :
      Wire (.binary data) ws
  | ping {w : WireFrame} (hop : w.opCode = .ping) (hfinal : w.isFinalFrame = true) :
      Wire (.ping w.payload) [w]
  | pong {w : WireFrame} (hop : w.opCode = .pong) (hfinal : w.isFinalFrame = true) :
      Wire (.pong w.payload) [w]
  | close {w : WireFrame} {closeCode : CloseCode} {reason : QString} (hop : w.opCode = .close)
      (hfinal : w.isFinalFrame = true) (hpayload : w.payload = closeData closeCode reason) :
      Wire (.close closeCode reason) [w]

/-- The socket below is closed exactly when it is not writable any more, or the connection is
gone. -/
structure Coherent (s : QWebSocket) : Prop where
  open_closing : s.isOpen = true → s.socketState ≠ .closing
  closed_connected : s.isOpen = false → s.socketState ≠ .connected

/-- The state of the connection tells whether the socket takes anything. The operations ask for the
one, and the socket for the other. -/
theorem Coherent.connected_iff {s : QWebSocket} (h : s.Coherent) :
    s.socketState = .connected ↔ s.Writable := by
  unfold Writable
  cases hopen : s.isOpen with
  | false => simpa using h.closed_connected hopen
  | true =>
      have hclosing := h.open_closing hopen
      cases hstate : s.socketState <;> simp_all

theorem record_of_writable {s : QWebSocket} (h : s.Writable) (t : Transmission) :
    s.record t = { s with sent := s.sent ++ [t] } := if_pos h

theorem record_of_not_writable {s : QWebSocket} (h : ¬ s.Writable) (t : Transmission) :
    s.record t = s := if_neg h

theorem record_writable (s : QWebSocket) (t : Transmission) : (s.record t).Writable ↔
    s.Writable := by
  unfold record
  split <;> exact Iff.rfl

/-- An operation that is not about closing: something is sent, if the socket takes it. -/
inductive Transmits (t : Transmission) : QWebSocket → QWebSocket → Prop
  | sent {s s' : QWebSocket} {ws : List WireFrame} (hs : s.Writable) (hwire : Wire t ws)
      (hsends : Sends (s.record t) s' ws) : Transmits t s s'
  | lost {s s' : QWebSocket} (hs : ¬ s.Writable) (hsends : Sends s s' []) : Transmits t s s'

/-- **`doWriteFrames`.** -/
theorem doWriteFrames_sends (app : Application) {s : QWebSocket} (hs : s.Writable)
    (hstate : s.socketState = .connected) (data : Bytes) (isBinary : Bool) :
    (s.doWriteFrames app data isBinary).1 = data.length ∧
      ∃ ws, Fragments (if isBinary then .binary else .text) data ws ∧
        Sends s (s.doWriteFrames app data isBinary).2 ws := by
  have hdata : (if isBinary then OpCode.binary else OpCode.text).toNat < 8 ∧
      isOpCodeReserved (if isBinary then .binary else .text) = false := by
    cases isBinary <;> decide
  obtain ⟨ws, hfragments, hsends, hwritten⟩ := writeFrames_sends app data _ ⟨s, 0, data.length, 0⟩
    hs hdata.2 hdata.1 rfl (Nat.zero_add _)
  rw [Nat.zero_add] at hwritten
  unfold doWriteFrames
  rw [if_neg (not_not.mpr hstate)]
  dsimp only at hfragments hsends hwritten ⊢
  rw [hwritten, if_neg (not_not.mpr rfl)]
  exact ⟨rfl, ws, hfragments, hsends⟩

/-- A text message is sent in UTF-8. -/
theorem sendTextMessage_transmits (app : Application) {s : QWebSocket} (hc : s.Coherent)
    (message : QString) : Transmits (.text message) s (s.sendTextMessage app message).2 := by
  by_cases hs : s.Writable
  · have hstate : (s.record (.text message)).socketState = .connected := by
      rw [record_of_writable hs]
      exact hc.connected_iff.mpr hs
    obtain ⟨-, ws, hfragments, hsends⟩ := doWriteFrames_sends app
        ((record_writable s _).mpr hs) hstate
      (toUtf8 message) false
    exact .sent hs (.text hfragments) hsends
  · unfold sendTextMessage doWriteFrames
    rw [record_of_not_writable hs, if_pos (fun h => hs (hc.connected_iff.mp h))]
    exact .lost hs (Sends.refl s)

/-- A binary message is sent as it is. -/
theorem sendBinaryMessage_transmits (app : Application) {s : QWebSocket} (hc : s.Coherent)
    (data : Bytes) : Transmits (.binary data) s (s.sendBinaryMessage app data).2 := by
  by_cases hs : s.Writable
  · have hstate : (s.record (.binary data)).socketState = .connected := by
      rw [record_of_writable hs]
      exact hc.connected_iff.mpr hs
    obtain ⟨-, ws, hfragments, hsends⟩ := doWriteFrames_sends app
        ((record_writable s _).mpr hs) hstate
      data true
    exact .sent hs (.binary hfragments) hsends
  · unfold sendBinaryMessage doWriteFrames
    rw [record_of_not_writable hs, if_pos (fun h => hs (hc.connected_iff.mp h))]
    exact .lost hs (Sends.refl s)

/-- A ping is cut to the length that a control frame may have. -/
theorem ping_transmits (app : Application) (s : QWebSocket) (payload : Bytes) :
    Transmits (.ping (payload.take 125)) s (s.ping app payload) := by
  by_cases hs : s.Writable
  · obtain ⟨w, hop, hfinal, hpayload, hsends⟩ := writeFrame_sends app
      ((record_writable s (.ping (payload.take 125))).mpr hs) .ping rfl
      (List.length_take_le 125 payload)
    refine .sent hs ?_ hsends
    rw [← hpayload]
    exact .ping hop hfinal
  · unfold ping
    rw [record_of_not_writable hs]
    exact .lost hs (writeFrame_not_writable app hs _ _)

/-- The pong has the data of the ping, which came in a control frame and is short enough. -/
theorem processPing_transmits (app : Application) (s : QWebSocket) {data : Bytes}
    (hshort : data.length ≤ 125) : Transmits (.pong data) s (s.processPing app data) := by
  by_cases hs : s.Writable
  · obtain ⟨w, hop, hfinal, hpayload, hsends⟩ := writePong_sends app
      ((record_writable s (.pong data)).mpr hs) hshort
    refine .sent hs ?_ hsends
    rw [← hpayload]
    exact .pong hop hfinal
  · unfold processPing
    rw [record_of_not_writable hs]
    exact .lost hs (writePong_not_writable app hs _)

/-! ### Everything that is written

The invariant `Outgoing` is about the whole history of an end. Operations that send something keep
it by adding to both lists, and `close` by ending them. -/

/-- A close frame whose reason is too long: it is written, but it is not a frame. -/
def tooLong (closeCode : CloseCode) (reason : QString) (key : UInt32) : Bytes :=
  getFrameHeader .close (closeData closeCode reason).length key true ++
    mask (closeData closeCode reason) key

/-- The bytes as which something is sent. Nothing follows a close frame. -/
inductive Encodes : List Transmission → Bytes → Prop
  | nil : Encodes [] []
  | frames {ts : List Transmission} {b : Bytes} {t : Transmission} {ws : List WireFrame}
      (h : Encodes ts b) (hopen : ∀ t ∈ ts, t.isClose = false) (hwire : Wire t ws) :
      Encodes (ts ++ [t]) (b ++ ws.flatMap WireFrame.bytes)
  | tooLong {ts : List Transmission} {b : Bytes} {closeCode : CloseCode} {reason : QString}
      (key : UInt32) (h : Encodes ts b) (hopen : ∀ t ∈ ts, t.isClose = false)
      (hlong : 125 < (closeData closeCode reason).length) :
      Encodes (ts ++ [.close closeCode reason]) (b ++ QWebSocket.tooLong closeCode reason key)

/-- What an end has sent is what it has written, and it has closed its device if that was the
end. -/
structure Outgoing (s : QWebSocket) : Prop extends Coherent s where
  encodes : Encodes s.sent s.written
  isOpen_eq : s.isOpen = !s.isClosingHandshakeSent
  unclosed : s.isClosingHandshakeSent = false → ∀ t ∈ s.sent, t.isClose = false
  closeFrame : ∀ closeCode reason, .close closeCode reason ∈ s.sent →
    s.closeCode = closeCode ∧ s.closeReason = reason

/-- An end has written nothing when it is connected. -/
theorem outgoing_connected (mustMask : Bool) : (connected mustMask).Outgoing where
  open_closing _ h := by cases h
  closed_connected h := by cases h
  encodes := .nil
  isOpen_eq := rfl
  unclosed _ t ht := by cases ht
  closeFrame _ _ h := by cases h

/-- The fields that sending leaves alone. -/
theorem Transmits.frame {t : Transmission} {s s' : QWebSocket} (h : Transmits t s s') :
    ∃ sent written n, s' = { s with sent := sent, written := written, masks := n } ∧
      (sent = s.sent ++ [t] ∨ sent = s.sent) ∧ s.written <+: written := by
  cases h with
  | sent hs _ hsends =>
      obtain ⟨n, rfl⟩ := hsends
      rw [record_of_writable hs]
      exact ⟨_, _, n, rfl, .inl rfl, List.prefix_append _ _⟩
  | lost _ hsends =>
      obtain ⟨n, rfl⟩ := hsends
      exact ⟨s.sent, _, n, rfl, .inr rfl, List.prefix_append _ _⟩

/-- **Sending keeps what is written a sequence of frames.** -/
theorem Transmits.outgoing {t : Transmission} (ht : t.isClose = false) {s s' : QWebSocket}
    (h : Transmits t s s') (hs : s.Outgoing) : s'.Outgoing := by
  cases h with
  | sent hwritable hwire hsends =>
      obtain ⟨n, rfl⟩ := hsends
      rw [record_of_writable hwritable]
      have hunsent : s.isClosingHandshakeSent = false := by
        have hopen := hs.isOpen_eq
        rw [hwritable.1] at hopen
        simpa using hopen.symm
      refine ⟨⟨hs.open_closing, hs.closed_connected⟩, hs.encodes.frames (hs.unclosed hunsent) hwire,
        hs.isOpen_eq, fun _ t' ht' => ?_, fun closeCode reason hmem => ?_⟩
      · rcases List.mem_append.mp ht' with hmem | hmem
        · exact hs.unclosed hunsent t' hmem
        · rw [List.mem_singleton.mp hmem]
          exact ht
      · rcases List.mem_append.mp hmem with hmem | hmem
        · exact hs.closeFrame closeCode reason hmem
        · rw [← List.mem_singleton.mp hmem] at ht
          cases ht
  | lost _ hsends =>
      obtain ⟨n, rfl⟩ := hsends
      refine ⟨⟨hs.open_closing, hs.closed_connected⟩, ?_, hs.isOpen_eq, hs.unclosed, hs.closeFrame⟩
      rw [List.flatMap_nil, List.append_nil]
      exact hs.encodes

/-! ### Closing

The close frame is the last thing that is written. What is sent later is neither written nor
recorded. -/

/-- What `close` does. -/
structure Closes (closeCode : CloseCode) (reason : QString) (s s' : QWebSocket) : Prop where
  isOpen : s'.isOpen = false
  readBuffer : s'.readBuffer = []
  socketState : s'.socketState ≠ .connected
  isClosingHandshakeSent : s'.isClosingHandshakeSent = true
  isClosingHandshakeReceived : s'.isClosingHandshakeReceived = s.isClosingHandshakeReceived
  dataProcessor : s'.dataProcessor = s.dataProcessor
  reading : s'.reading = s.reading
  received : s'.received = s.received
  signals : ∃ l, s'.signals = s.signals ++ l ∧ ∀ x ∈ l, x = .aboutToClose
  written : s.written <+: s'.written
  again : s.isClosingHandshakeSent = true → s'.sent = s.sent ∧ s'.written = s.written ∧
    s'.closeCode = s.closeCode ∧ s'.closeReason = s.closeReason
  first : s.isClosingHandshakeSent = false → s'.closeCode = closeCode ∧ s'.closeReason = reason ∧
    if s.Writable then
      s'.sent = s.sent ++ [.close closeCode reason] ∧
        (Encodes s.sent s.written → (∀ t ∈ s.sent, t.isClose = false) → Encodes s'.sent s'.written)
    else s'.sent = s.sent ∧ s'.written = s.written

/-- The close frame. -/
theorem writeFrame_close (app : Application) {s : QWebSocket} (hs : s.Writable)
    (closeCode : CloseCode) (reason : QString) :
    ∃ b n, s.writeFrame app .close (closeData closeCode reason) =
        { s with written := s.written ++ b, masks := n } ∧
      ∀ ts c, Encodes ts c → (∀ t ∈ ts, t.isClose = false) →
        Encodes (ts ++ [.close closeCode reason]) (c ++ b) := by
  rcases Nat.lt_or_ge 125 (closeData closeCode reason).length with hlong | hshort
  · obtain ⟨n, hdraw⟩ := maskingKey_eq app s
    have hwritable : (s.maskingKey app).2.Writable := by
      rw [hdraw]
      exact hs
    refine ⟨tooLong closeCode reason (s.maskingKey app).1, n, ?_, fun ts c h hopen =>
      .tooLong _ h hopen hlong⟩
    unfold writeFrame
    dsimp only
    rw [maskingKey_data, write_of_writable hwritable, hdraw]
    rfl
  · obtain ⟨w, hop, hfinal, hpayload, n, hsends⟩ := writeFrame_sends app hs .close rfl hshort
    refine ⟨[w].flatMap WireFrame.bytes, n, hsends, fun ts c h hopen => ?_⟩
    exact h.frames hopen (.close hop hfinal hpayload)

/-- `closeSocket` closes the device and forgets what has not been read. -/
theorem closeSocket_eq (s : QWebSocket) : ∃ state l, s.closeSocket = { s with
      isOpen := false, readBuffer := [], socketState := state, signals := s.signals ++ l } ∧
    state ≠ .connected ∧ ∀ x ∈ l, x = .aboutToClose := by
  have hstate : (if s.socketState = .connected then SocketState.closing else s.socketState) ≠
      .connected := by
    split
    · exact fun h => by cases h
    · assumption
  unfold closeSocket
  cases hopen : s.isOpen with
  | false =>
      refine ⟨_, [], ?_, hstate, by simp⟩
      rw [List.append_nil]
      rfl
  | true => exact ⟨_, [.aboutToClose], rfl, hstate, by simp⟩

/-- **`close`.** A close frame is written once, and only while the socket takes it. -/
theorem close_closes (app : Application) (s : QWebSocket) (closeCode : CloseCode)
    (reason : QString) :
    Closes closeCode reason s (s.close app closeCode reason) := by
  cases hsent : s.isClosingHandshakeSent with
  | true =>
      have hclose : s.close app closeCode reason = s.closeSocket := by
        unfold close
        rw [hsent]
        rfl
      obtain ⟨state, l, heq, hstate, hl⟩ := closeSocket_eq s
      rw [hclose, heq]
      exact ⟨rfl, rfl, hstate, hsent, rfl, rfl, rfl, rfl, ⟨l, rfl, hl⟩, List.prefix_refl _, fun _ =>
        ⟨rfl, rfl, rfl, rfl⟩,
        fun h => by rw [hsent] at h; cases h⟩
  | false =>
      let s₀ : QWebSocket := { s with closeCode := closeCode, closeReason := reason }
      obtain ⟨sent, written, n, hwrite, hgrown, hfirst⟩ : ∃ sent written n,
          (s₀.record (.close closeCode reason)).writeFrame app .close (closeData closeCode reason) =
            { s₀ with sent := sent, written := written, masks := n } ∧ s.written <+: written ∧
          if s.Writable then
            sent = s.sent ++ [.close closeCode reason] ∧
              (Encodes s.sent s.written → (∀ t ∈ s.sent, t.isClose = false) → Encodes sent written)
          else sent = s.sent ∧ written = s.written := by
        by_cases hs : s.Writable
        · have hs₀ : s₀.Writable := hs
          obtain ⟨b, n, hframe, hencodes⟩ := writeFrame_close app ((record_writable s₀ _).mpr hs₀)
            closeCode reason
          rw [record_of_writable hs₀] at hframe
          rw [record_of_writable hs₀, hframe]
          refine ⟨_, _, n, rfl, List.prefix_append _ _, ?_⟩
          rw [if_pos hs]
          exact ⟨rfl, fun h hopen => hencodes _ _ h hopen⟩
        · have hs₀ : ¬ s₀.Writable := hs
          obtain ⟨n, hframe⟩ := writeFrame_not_writable app hs₀ .close (closeData closeCode reason)
          rw [record_of_not_writable hs₀, hframe]
          refine ⟨_, _, n, rfl, List.prefix_append _ _, ?_⟩
          rw [if_neg hs]
          exact ⟨rfl, by rw [List.flatMap_nil, List.append_nil]⟩
      have hclose : s.close app closeCode reason = ({ s₀ with
          sent := sent, written := written, masks := n, isClosingHandshakeSent := true,
          signals := s.signals ++ [.aboutToClose] } : QWebSocket).closeSocket := by
        unfold close
        rw [if_neg (by rw [hsent]; exact Bool.false_ne_true)]
        exact congrArg (fun t : QWebSocket =>
          (QWebSocket.emit { t with isClosingHandshakeSent := true } .aboutToClose).closeSocket)
            hwrite
      obtain ⟨state, l, heq, hstate, hl⟩ := closeSocket_eq { s₀ with
          sent := sent, written := written, masks := n, isClosingHandshakeSent := true,
          signals := s.signals ++ [.aboutToClose] }
      rw [hclose, heq]
      refine ⟨rfl, rfl, hstate, rfl, rfl, rfl, rfl, rfl, ⟨.aboutToClose :: l, by simp, ?_⟩, hgrown,
        fun h => ?_, fun _ => ⟨rfl, rfl, hfirst⟩⟩
      · intro x hx
        rcases List.mem_cons.mp hx with rfl | hx
        · rfl
        · exact hl x hx
      · rw [hsent] at h
        cases h

/-- At most a close frame is sent. -/
theorem Closes.sent {closeCode : CloseCode} {reason : QString} {s s' : QWebSocket}
    (h : Closes closeCode reason s s') : s'.sent = s.sent ∨
      s'.sent = s.sent ++ [.close closeCode reason] := by
  cases hsent : s.isClosingHandshakeSent with
  | true => exact .inl (h.again hsent).1
  | false =>
      have hfirst := (h.first hsent).2.2
      split_ifs at hfirst
      · exact .inr hfirst.1
      · exact .inl hfirst.1

/-- **Closing ends what is written.** -/
theorem Closes.outgoing {closeCode : CloseCode} {reason : QString} {s s' : QWebSocket}
    (h : Closes closeCode reason s s') (hs : s.Outgoing) : s'.Outgoing := by
  refine ⟨⟨fun hopen => ?_, fun _ => h.socketState⟩, ?_, ?_, fun hunsent => ?_,
    fun code r hmem => ?_⟩
  · rw [h.isOpen] at hopen
    cases hopen
  · cases hsent : s.isClosingHandshakeSent with
    | true =>
        obtain ⟨hsame, hwritten, -⟩ := h.again hsent
        rw [hsame, hwritten]
        exact hs.encodes
    | false =>
        have hfirst := (h.first hsent).2.2
        split_ifs at hfirst
        · exact hfirst.2 hs.encodes (hs.unclosed hsent)
        · rw [hfirst.1, hfirst.2]
          exact hs.encodes
  · rw [h.isOpen, h.isClosingHandshakeSent]
    rfl
  · rw [h.isClosingHandshakeSent] at hunsent
    cases hunsent
  · cases hsent : s.isClosingHandshakeSent with
    | true =>
        obtain ⟨hsame, -, hcode, hreason⟩ := h.again hsent
        rw [hsame] at hmem
        rw [hcode, hreason]
        exact hs.closeFrame code r hmem
    | false =>
        obtain ⟨hcode, hreason, hfirst⟩ := h.first hsent
        rw [hcode, hreason]
        have hold : .close code r ∉ s.sent := fun hmem => by
          have hclose := hs.unclosed hsent _ hmem
          cases hclose
        split_ifs at hfirst
        · rw [hfirst.1] at hmem
          rcases List.mem_append.mp hmem with hmem | hmem
          · exact absurd hmem hold
          · cases List.mem_singleton.mp hmem
            exact ⟨rfl, rfl⟩
        · rw [hfirst.1] at hmem
          exact absurd hmem hold

end QWebSocket

end QtWebApp
