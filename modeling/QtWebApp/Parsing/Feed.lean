import QtWebApp.Parsing.Lines

/-!
# QtWebApp.Parsing.Feed

The parser byte by byte.

What a request makes of the bytes it receives should not depend on the pieces in which they
arrive. `feed` is the parser that gets one byte at a time, counts every byte once, and ends a
line at its line feed (or where the limit is exceeded). `call_spec` says that a call of
`readFromSocket` does to a request what feeding it the bytes that the call consumed does, up
to the bytes that were counted more than once (`exact`), provided that the call `Meets` the
conditions under which the code does not depend on where a segment ended.

Three things in the code depend on segments: the counter may overflow, a line may be ended by a
return whose line feed has not arrived yet, and the bytes that were counted twice may decide about a
limit. The conditions exclude just these; they speak of one call and the state before it.
-/

namespace QtWebApp

open Bytes

namespace HttpRequest

/-! ### The machine

The machine has the state of the request. A line ends where the code would end it, at a line feed or
where the limit is exceeded, and there the same functions follow. -/

/-- The request with every byte counted once. -/
def exact (r : HttpRequest) : HttpRequest :=
  { r with currentSize := r.currentSize - r.recounted, recounted := 0 }

/-- The part of `readRequest` or `readHeader` after the line was read. -/
def finishLine (r : HttpRequest) : HttpRequest :=
  match r.status with
  | .waitForRequest => r.finishRequestLine
  | .waitForHeader => r.finishHeaderLine
  | _ => r

/-- More text in the line buffer, counted once. -/
def grow (r : HttpRequest) (d : Bytes) : HttpRequest :=
  { r with lineBuffer := r.lineBuffer ++ d, currentSize := r.currentSize + d.length }

/-- One byte of a line. -/
def feedLine (r : HttpRequest) (c : UInt8) : HttpRequest :=
  if c = LF ∨ r.maxSize < (r.grow [c]).currentSize then (r.grow [c]).finishLine else r.grow [c]

/-- One byte. -/
def feed (r : HttpRequest) (c : UInt8) : HttpRequest :=
  match r.status with
  | .waitForRequest | .waitForHeader => (r.feedLine c).afterRead
  | .waitForBody => (r.readBody [c]).1.afterRead
  | .complete | .abort => r

/-- The request needs more data. -/
def Busy (r : HttpRequest) : Prop := r.status ≠ .complete ∧ r.status ≠ .abort

/-- The request line or a header is being read. -/
def InLine (r : HttpRequest) : Prop := r.status = .waitForRequest ∨ r.status = .waitForHeader

/-- A negative body length was announced: the next look at the request ends it. -/
def Overdue (r : HttpRequest) : Prop := r.status = .waitForBody ∧ r.expectedBodySize < 0

instance (r : HttpRequest) : Decidable r.Busy := by unfold Busy; infer_instance
instance (r : HttpRequest) : Decidable r.InLine := by unfold InLine; infer_instance
instance (r : HttpRequest) : Decidable r.Overdue := by unfold Overdue; infer_instance

/-- Bytes fed one after the other, the request needing more before each of them. -/
inductive Feeds : HttpRequest → Bytes → HttpRequest → Prop
  | one (r : HttpRequest) (c : UInt8) : Feeds r [c] (r.feed c)
  | more {r r' : HttpRequest} {c : UInt8} {d : Bytes} : (r.feed c).Busy → ¬ (r.feed c).Overdue →
      Feeds (r.feed c) d r' → Feeds r (c :: d) r'

/-! ### The conditions of a call

All of them can be decided, so a run can be checked while it is computed. -/

/-- The line in the buffer is the blank line after the headers. -/
def EndsHead (r : HttpRequest) : Prop :=
  r.status = .waitForHeader ∧ (CR ∈ r.lineBuffer ∨ LF ∈ r.lineBuffer) ∧ trimmed r.lineBuffer = []

/-- Reading this piece of a line does the same as if its bytes came one by one. The counter does
not overflow; a return is followed by its line feed, unless the limit is exceeded there; the
bytes that were counted twice do not decide whether the announced body is too large. -/
structure LineMeets (r : HttpRequest) (socket : Bytes) : Prop where
  counter : IsInt (r.currentSize + (r.appendLine socket).1.lineBuffer.length)
  lineEnd : CR ∈ (r.appendLine socket).1.lineBuffer → LF ∈ (r.appendLine socket).1.lineBuffer ∨
    r.maxSize < (r.appendLine socket).1.exact.currentSize
  announced : (r.appendLine socket).1.EndsHead →
    IsInt ((r.appendLine socket).1.announceBody.expectedBodySize +
      (r.appendLine socket).1.currentSize) ∧
    ((r.appendLine socket).1.announceBody.bodyTooLarge ↔
      (r.appendLine socket).1.announceBody.exact.bodyTooLarge)

/-- The conditions of a call of `readFromSocket`: those of a piece of a line, and that the bytes
counted twice do not decide whether too much was received. -/
structure ReadMeets (r : HttpRequest) (socket : Bytes) : Prop where
  line : r.InLine → r.LineMeets socket
  received : (r.readStep socket).1.receivedTooMuch ↔ (r.readStep socket).1.exact.receivedTooMuch

instance (r : HttpRequest) : Decidable r.EndsHead := by unfold EndsHead; infer_instance

instance (r : HttpRequest) (socket : Bytes) : Decidable (r.LineMeets socket) :=
  decidable_of_iff
    (IsInt (r.currentSize + (r.appendLine socket).1.lineBuffer.length) ∧
      (CR ∈ (r.appendLine socket).1.lineBuffer → LF ∈ (r.appendLine socket).1.lineBuffer ∨
        r.maxSize < (r.appendLine socket).1.exact.currentSize) ∧
      ((r.appendLine socket).1.EndsHead →
        IsInt ((r.appendLine socket).1.announceBody.expectedBodySize +
          (r.appendLine socket).1.currentSize) ∧
        ((r.appendLine socket).1.announceBody.bodyTooLarge ↔
          (r.appendLine socket).1.announceBody.exact.bodyTooLarge)))
    ⟨fun h => ⟨h.1, h.2.1, h.2.2⟩, fun h => ⟨h.1, h.2, h.3⟩⟩

instance (r : HttpRequest) (socket : Bytes) : Decidable (r.ReadMeets socket) :=
  decidable_of_iff
    ((r.InLine → r.LineMeets socket) ∧
      ((r.readStep socket).1.receivedTooMuch ↔ (r.readStep socket).1.exact.receivedTooMuch))
    ⟨fun h => ⟨h.1, h.2⟩, fun h => ⟨h.1, h.2⟩⟩

/-! ### Counting once

The functions behind a line commute with `exact`, as long as the double count decides nothing. -/

/-- The checks after a read, when counting twice does not matter. -/
theorem afterRead_exact {r : HttpRequest} (h : r.receivedTooMuch ↔ r.exact.receivedTooMuch) :
    r.exact.afterRead = r.afterRead.exact := by
  unfold afterRead
  by_cases htoo : r.receivedTooMuch
  · rw [if_pos htoo, if_pos (h.mp htoo)]
    rfl
  · rw [if_neg htoo, if_neg (mt h.mpr htoo)]
    show (if r.status = .complete then _ else _) = _
    by_cases hdone : r.status = .complete
    · simp only [hdone, if_true]
      rfl
    · simp only [hdone, if_false]

theorem finishRequestLine_exact (r : HttpRequest) :
    r.exact.finishRequestLine = r.finishRequestLine.exact := by
  have hbuffer : r.exact.lineBuffer = r.lineBuffer := rfl
  unfold finishRequestLine
  rw [hbuffer]
  by_cases hend : CR ∉ r.lineBuffer ∧ LF ∉ r.lineBuffer
  · rw [if_pos hend, if_pos hend]
  · rw [if_neg hend, if_neg hend]
    dsimp only
    by_cases hblank : trimmed r.lineBuffer = []
    · rw [if_pos hblank, if_pos hblank]
      rfl
    · rw [if_neg hblank, if_neg hblank]
      rcases (trimmed r.lineBuffer).splitOn SP with _ | ⟨m, _ | ⟨p, _ | ⟨v, _ | _⟩⟩⟩
      case cons.cons.cons.nil =>
        by_cases hv : containsText v (ascii "HTTP") = true
        · simp only [hv, if_true]
          rfl
        · simp only [hv]
          rfl
      all_goals rfl

/-- Reading the announcement of the body does not look at the counter. -/
theorem announceBody_exact (r : HttpRequest) : r.exact.announceBody = r.announceBody.exact := rfl

theorem endOfHeaders_exact {r : HttpRequest}
    (h : r.announceBody.bodyTooLarge ↔ r.announceBody.exact.bodyTooLarge) :
    r.exact.endOfHeaders = r.endOfHeaders.exact := by
  have hmulti : r.announceBody.exact.multiPartTooLarge ↔ r.announceBody.multiPartTooLarge := Iff.rfl
  unfold endOfHeaders
  rw [announceBody_exact]
  show (if r.announceBody.expectedBodySize = 0 then _ else _) = _
  dsimp only
  by_cases hzero : r.announceBody.expectedBodySize = 0
  · rw [if_pos hzero, if_pos hzero]
    rfl
  · rw [if_neg hzero, if_neg hzero]
    by_cases hlarge : r.announceBody.bodyTooLarge
    · rw [if_pos hlarge, if_pos (h.mp hlarge)]
      rfl
    · rw [if_neg hlarge, if_neg (mt h.mpr hlarge)]
      by_cases hm : r.announceBody.multiPartTooLarge
      · rw [if_pos hm, if_pos (hmulti.mpr hm)]
        rfl
      · rw [if_neg hm, if_neg (mt hmulti.mp hm)]
        rfl

theorem finishHeaderLine_exact {r : HttpRequest}
    (h : r.EndsHead → (r.announceBody.bodyTooLarge ↔ r.announceBody.exact.bodyTooLarge))
    (hs : r.status = .waitForHeader) : r.exact.finishHeaderLine = r.finishHeaderLine.exact := by
  have hbuffer : r.exact.lineBuffer = r.lineBuffer := rfl
  unfold finishHeaderLine
  rw [hbuffer]
  by_cases hend : CR ∉ r.lineBuffer ∧ LF ∉ r.lineBuffer
  · rw [if_pos hend, if_pos hend]
  · rw [if_neg hend, if_neg hend]
    dsimp only
    by_cases hcolon : 0 < indexOf (trimmed r.lineBuffer) [58] 0
    · rw [if_pos hcolon, if_pos hcolon]
      rfl
    · rw [if_neg hcolon, if_neg hcolon]
      by_cases hblank : trimmed r.lineBuffer = []
      · rw [if_neg (not_not.mpr hblank), if_neg (not_not.mpr hblank)]
        have hends : r.EndsHead := ⟨hs, by tauto, hblank⟩
        exact endOfHeaders_exact (r := { r with lineBuffer := [] }) (h hends)
      · rw [if_pos hblank, if_pos hblank]
        unfold headerContinuation
        show (if r.headers.contains r.currentHeader = true then _ else _) = _
        by_cases hc : r.headers.contains r.currentHeader = true
        · rw [if_pos hc, if_pos hc]
          rfl
        · rw [if_neg hc, if_neg hc]
          rfl

/-- Finishing a line, when counting twice does not matter. -/
theorem finishLine_exact {r : HttpRequest}
    (h : r.EndsHead → (r.announceBody.bodyTooLarge ↔ r.announceBody.exact.bodyTooLarge)) :
    r.exact.finishLine = r.finishLine.exact := by
  unfold finishLine
  show (match r.status with | .waitForRequest => _ | .waitForHeader => _ | _ => _) = _
  cases hs : r.status with
  | waitForRequest => exact finishRequestLine_exact r
  | waitForHeader => exact finishHeaderLine_exact h hs
  | waitForBody => rfl
  | complete => rfl
  | abort => rfl

/-! ### A piece of a line

A call in the head takes a piece of one line at most. If the line ends in it, the call does what
feeding the last byte does; if not, it does what feeding bytes inside a line does. -/

/-- A request in the middle of its head, the counter being within the limit. -/
structure LineState (r : HttpRequest) : Prop where
  inLine : r.InLine
  boundary : r.boundary = []
  expected : r.expectedBodySize = 0
  body : r.bodyData = []
  file : r.tempFile = none
  buffer : CR ∉ r.lineBuffer ∧ LF ∉ r.lineBuffer
  counted : (r.recounted : Int) ≤ r.currentSize
  within : r.currentSize ≤ r.maxSize
  limit : r.maxSize < intMax

@[simp] theorem grow_nil (r : HttpRequest) : r.grow [] = r := by simp [grow]

theorem grow_grow (r : HttpRequest) (d e : Bytes) : (r.grow d).grow e = r.grow (d ++ e) := by
  simp [grow, Int.add_assoc]

theorem InLine.busy {r : HttpRequest} (h : r.InLine) : r.Busy ∧ ¬ r.Overdue := by
  rcases h with hs | hs <;> simp [Busy, Overdue, hs]

/-- A byte of the head goes into the line. -/
theorem feed_inLine {r : HttpRequest} (h : r.InLine) (c : UInt8) :
    r.feed c = (r.feedLine c).afterRead := by
  rcases h with hs | hs <;> simp only [feed, hs]

/-- Bytes of a line before its end, all within the limit. -/
theorem feeds_line {r : HttpRequest} (hl : r.InLine) (hb : r.boundary = []) {y : Bytes}
    (hy : LF ∉ y) (hfit : r.currentSize + y.length ≤ r.maxSize) (z : UInt8) :
    Feeds r (y ++ [z]) ((r.grow y).feed z) := by
  induction y generalizing r with
  | nil => simpa using Feeds.one r z
  | cons c y ih =>
      have hc : c ≠ LF := fun e => hy (by simp [e])
      have hlen : ((c :: y).length : Int) = 1 + y.length := by
        rw [List.length_cons]
        omega
      have hone : ([c] : Bytes).length = 1 := rfl
      have hfeed : r.feed c = r.grow [c] := by
        have hin : ¬ (c = LF ∨ r.maxSize < (r.grow [c]).currentSize) := by
          simp only [grow, hone, hc, false_or]
          omega
        have hl' : (r.grow [c]).InLine := hl
        have hb' : (r.grow [c]).boundary = [] := hb
        have hw : (r.grow [c]).currentSize ≤ (r.grow [c]).maxSize := by
          simp only [grow, hone]
          omega
        rw [feed_inLine hl, feedLine, if_neg hin, afterRead_within hb' hw hl'.busy.1.1]
      have hrest := ih (r := r.grow [c]) hl hb (fun e => hy (by simp [e]))
        (by simp only [grow, hone]; omega)
      rw [grow_grow, List.singleton_append] at hrest
      have hl' : (r.grow [c]).InLine := hl
      exact .more (by rw [hfeed]; exact hl'.busy.1) (by rw [hfeed]; exact hl'.busy.2)
        (by rw [hfeed]; exact hrest)

/-- A read of the head asks for what is left of the limit, and one byte more. -/
theorem LineState.toRead {r : HttpRequest} (h : r.LineState) :
    r.toRead = r.maxSize - r.currentSize + 1 ∧ 0 < r.toRead := by
  have hcounted := h.counted
  have hwithin := h.within
  have hlimit : r.maxSize < 2147483647 := h.limit
  have hroom : r.toRead = r.maxSize - r.currentSize + 1 := by
    unfold HttpRequest.toRead
    rw [int32_of_isInt (n := r.maxSize - r.currentSize) ⟨by omega, by omega⟩,
      int32_of_isInt ⟨by omega, by omega⟩]
  exact ⟨hroom, by omega⟩

/-- What a piece of a line looks like: bytes before the end of the line within the limit, and
one more, which is a line feed, exceeds the limit or is the last one there. -/
theorem appendLine_piece {r : HttpRequest} (h : r.LineState) {b : Bytes} (hb : b ≠ [])
    (hint : IsInt (r.currentSize + (r.appendLine b).1.lineBuffer.length)) :
    ∃ y z rest, b = y ++ z :: rest ∧ LF ∉ y ∧ r.currentSize + y.length ≤ r.maxSize ∧
      r.appendLine b =
        ({ r with
            lineBuffer := r.lineBuffer ++ (y ++ [z])
            currentSize := r.currentSize + (r.lineBuffer ++ (y ++ [z])).length
            recounted := r.recounted + r.lineBuffer.length }, rest) := by
  have hw := h.within
  obtain ⟨htoRead, hpos⟩ := h.toRead
  have hread : readLine b r.toRead = lineUpTo (r.maxSize - r.currentSize + 1).toNat b := by
    rw [readLine_pos hpos, htoRead]
  have happend : r.appendLine b =
      ({ r with
          lineBuffer := r.lineBuffer ++ (lineUpTo (r.maxSize - r.currentSize + 1).toNat b).1
          currentSize := int32 (r.currentSize +
            (r.lineBuffer ++ (lineUpTo (r.maxSize - r.currentSize + 1).toNat b).1).length)
          recounted := r.recounted + r.lineBuffer.length },
        (lineUpTo (r.maxSize - r.currentSize + 1).toNat b).2) := by
    simp only [appendLine, hread]
  rw [happend] at hint ⊢
  generalize hn : (r.maxSize - r.currentSize + 1).toNat = n at hint ⊢
  have hsplit := lineUpTo_append n b
  have hlen := lineUpTo_length_le n b
  have hne : (lineUpTo n b).1 ≠ [] := lineUpTo_ne_nil hb (by omega)
  -- the line feed can only be the last byte
  have hlast : LF ∉ (lineUpTo n b).1.dropLast := by
    rcases lineUpTo_cases n b with ⟨x, hx, hline, -⟩ | ⟨hno, -⟩
    · rw [hline, List.dropLast_concat]
      exact hx
    · exact fun hmem => hno (List.mem_of_mem_dropLast hmem)
  generalize hgot : (lineUpTo n b).1 = got at *
  generalize (lineUpTo n b).2 = rest at *
  obtain ⟨y, z, rfl⟩ : ∃ y z, got = y ++ [z] :=
    ⟨got.dropLast, got.getLast hne, (List.dropLast_concat_getLast hne).symm⟩
  rw [List.length_append, List.length_singleton] at hlen
  refine ⟨y, z, rest, by simpa using hsplit.symm, by simpa using hlast, by omega, ?_⟩
  rw [int32_of_isInt hint]

/-- A line without its end is left alone. -/
theorem finishLine_noEnd {r : HttpRequest} (hcr : CR ∉ r.lineBuffer) (hlf : LF ∉ r.lineBuffer) :
    r.finishLine = r := by
  unfold finishLine
  split
  · exact if_pos ⟨hcr, hlf⟩
  · exact if_pos ⟨hcr, hlf⟩
  · rfl

theorem readStep_inLine {r : HttpRequest} (h : r.InLine) (b : Bytes) :
    r.readStep b = ((r.appendLine b).1.finishLine, (r.appendLine b).2) := by
  have hstatus : (r.appendLine b).1.status = r.status := rfl
  rcases h with hs | hs <;> simp only [readStep, hs, readRequest, readHeader, finishLine, hstatus]

/-- **A call during the head** does to the request what feeding it the bytes that it consumed
does. -/
theorem feeds_line_call {r : HttpRequest} (h : r.LineState) {b : Bytes} (hb : b ≠ [])
    (hm : r.ReadMeets b) :
    ∃ d, d ≠ [] ∧ b = d ++ (r.readFromSocket b).2 ∧
      Feeds r.exact d (r.readFromSocket b).1.exact := by
  have hline := hm.line h.inLine
  have hreceived := hm.received
  have hc := h.counted
  obtain ⟨y, z, rest, hbytes, hy, hfit, happend⟩ := appendLine_piece h hb hline.counter
  have hstep := readStep_inLine h.inLine b
  have hcall : r.readFromSocket b =
      ((r.appendLine b).1.finishLine.afterRead, (r.appendLine b).2) := by
    rw [readFromSocket, hstep]
  rw [hstep] at hreceived
  have hexact : (r.appendLine b).1.exact = (r.exact.grow y).grow [z] := by
    rw [grow_grow, happend]
    simp only [exact, grow, List.length_append, List.length_singleton]
    congr 1
    omega
  refine ⟨y ++ [z], by simp, ?_, ?_⟩
  · rw [hcall, happend]
    simpa using hbytes
  · have hinl : (r.exact.grow y).InLine := h.inLine
    have hfeeds := feeds_line (r := r.exact) h.inLine h.boundary hy
      (by simp only [exact]; omega) z
    -- where no line ends, finishing it changes nothing
    have hfinish : (r.exact.grow y).feedLine z = (r.appendLine b).1.exact.finishLine := by
      unfold feedLine
      rw [← hexact]
      split
      · rfl
      · next hend =>
          obtain ⟨hz, hover⟩ := not_or.mp hend
          have hbuffer : (r.appendLine b).1.lineBuffer =
              r.lineBuffer ++ (y ++ [z]) := by rw [happend]
          have hlf : LF ∉ (r.appendLine b).1.lineBuffer := by
            rw [hbuffer]
            simp [h.buffer.2, hy, Ne.symm hz]
          have hcr : CR ∉ (r.appendLine b).1.lineBuffer := fun hmem =>
            (hline.lineEnd hmem).elim hlf hover
          exact (finishLine_noEnd (r := (r.appendLine b).1.exact) hcr hlf).symm
    rw [hcall]
    rwa [feed_inLine hinl, hfinish, finishLine_exact fun he => (hline.announced he).2,
      afterRead_exact hreceived] at hfeeds

end HttpRequest

end QtWebApp
