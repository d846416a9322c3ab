import QtWebApp.Parsing.FeedBody

/-!
# QtWebApp.Parsing.Calls

The states of a request between two calls of `readFromSocket`, and what one call does.

A request that needs more data is in the middle of its head, in the middle of its body, or
waits for a body of negative length (`Parsing`). A call that `Meets` its conditions leads
from one of these to another or ends the request, and does what feeding the consumed bytes
does (`call_spec`).

`readRequest` and `readHeader` look for a line end in what they have, whether or not a whole line
has arrived. That is why the states are described by what waits in the line buffer, and why most
lemmas of this module are about requests to which a piece of a line has just been added
(`LineRead`).
-/

namespace QtWebApp

open Bytes

namespace HttpRequest

/-- What a request that needs more data can be. -/
inductive Parsing (r : HttpRequest) : Prop
  | head (h : r.LineState)
  | body (h : r.Expecting)
  | due (h : r.Due)

/-- The fields that finishing a line of the head leaves alone, the blank line apart. -/
structure SameParse (r s : HttpRequest) : Prop where
  boundary : s.boundary = r.boundary
  expected : s.expectedBodySize = r.expectedBodySize
  body : s.bodyData = r.bodyData
  file : s.tempFile = r.tempFile
  maxSize : s.maxSize = r.maxSize
  currentSize : s.currentSize = r.currentSize
  recounted : s.recounted = r.recounted

theorem SameParse.refl (r : HttpRequest) : SameParse r r := ⟨rfl, rfl, rfl, rfl, rfl, rfl, rfl⟩

/-- No line end waits in the line buffer. -/
def NoEnd (r : HttpRequest) : Prop := CR ∉ r.lineBuffer ∧ LF ∉ r.lineBuffer

theorem noEnd_nil {r : HttpRequest} (h : r.lineBuffer = []) : r.NoEnd := by simp [NoEnd, h]

/-- Finishing a piece of the request line. -/
theorem finishRequestLine_cases {r : HttpRequest} (hs : r.status = .waitForRequest) :
    r.finishRequestLine.status = .abort ∨
      (SameParse r r.finishRequestLine ∧ r.finishRequestLine.InLine ∧
        r.finishRequestLine.NoEnd) := by
  have hself : SameParse r { r with lineBuffer := [] } := ⟨rfl, rfl, rfl, rfl, rfl, rfl, rfl⟩
  unfold finishRequestLine
  split
  · next hend => exact .inr ⟨.refl r, .inl hs, hend⟩
  · dsimp only
    split
    · exact .inr ⟨hself, .inl hs, noEnd_nil rfl⟩
    · split
      · split
        · exact .inr ⟨⟨rfl, rfl, rfl, rfl, rfl, rfl, rfl⟩, .inr rfl, noEnd_nil rfl⟩
        · exact .inl rfl
      · exact .inl rfl

/-- Finishing a piece of a header line: a header, or the end of the head. -/
theorem finishHeaderLine_cases {r : HttpRequest} (hs : r.status = .waitForHeader) :
    (SameParse r r.finishHeaderLine ∧ r.finishHeaderLine.InLine ∧ r.finishHeaderLine.NoEnd) ∨
      (r.EndsHead ∧ r.finishHeaderLine = { r with lineBuffer := [] }.endOfHeaders) := by
  unfold finishHeaderLine
  split
  · next hend => exact .inl ⟨.refl r, .inr hs, hend⟩
  · next hend =>
      dsimp only
      split
      · exact .inl ⟨⟨rfl, rfl, rfl, rfl, rfl, rfl, rfl⟩, .inr hs, noEnd_nil rfl⟩
      · split
        · unfold headerContinuation
          split
          · exact .inl ⟨⟨rfl, rfl, rfl, rfl, rfl, rfl, rfl⟩, .inr hs, noEnd_nil rfl⟩
          · exact .inl ⟨⟨rfl, rfl, rfl, rfl, rfl, rfl, rfl⟩, .inr hs, noEnd_nil rfl⟩
        · next hblank => exact .inr ⟨⟨hs, by tauto, not_not.mp hblank⟩, rfl⟩

/-- The end of the head when a body is to follow. -/
theorem endOfHeaders_busy {r : HttpRequest} (h : r.endOfHeaders.Busy) :
    r.endOfHeaders = { r.announceBody with status := .waitForBody } ∧
      r.announceBody.expectedBodySize ≠ 0 ∧ ¬ r.announceBody.bodyTooLarge ∧
      ¬ r.announceBody.multiPartTooLarge := by
  unfold endOfHeaders at h ⊢
  dsimp only at h ⊢
  by_cases hzero : r.announceBody.expectedBodySize = 0
  · rw [if_pos hzero] at h
    exact absurd rfl h.1
  · rw [if_neg hzero] at h ⊢
    by_cases hlarge : r.announceBody.bodyTooLarge
    · rw [if_pos hlarge] at h
      exact absurd rfl h.2
    · rw [if_neg hlarge] at h ⊢
      by_cases hmulti : r.announceBody.multiPartTooLarge
      · rw [if_pos hmulti] at h
        exact absurd rfl h.2
      · rw [if_neg hmulti]
        exact ⟨rfl, hzero, hlarge, hmulti⟩

/-! ### A line of the head

A call in the head reads a piece of a line and then asks whether the line has ended with it. Between
the two the piece is in the buffer and has been counted, and nothing else has changed. -/

/-- A request in its head to whose line buffer a piece of a line has just been added. -/
structure LineRead (r : HttpRequest) : Prop where
  inLine : r.InLine
  boundary : r.boundary = []
  expected : r.expectedBodySize = 0
  body : r.bodyData = []
  file : r.tempFile = none
  counted : (r.recounted : Int) ≤ r.currentSize
  size : r.currentSize ≤ intMax
  limit : r.maxSize < intMax

/-- What a read of a piece of the head leads to, as long as the counter does not overflow. -/
theorem LineState.read {r : HttpRequest} (h : r.LineState) {b : Bytes} (hb : b ≠ [])
    (hint : IsInt (r.currentSize + (r.appendLine b).1.lineBuffer.length)) :
    (r.appendLine b).1.LineRead := by
  obtain ⟨y, z, rest, -, -, -, happend⟩ := appendLine_piece h hb hint
  have hc := h.counted
  have hsize : r.currentSize + (r.lineBuffer ++ (y ++ [z])).length ≤ intMax := by
    rw [happend] at hint
    exact hint.2
  rw [happend]
  refine ⟨h.inLine, h.boundary, h.expected, h.body, h.file, ?_, hsize, h.limit⟩
  simp only [List.length_append, List.length_singleton]
  omega

/-- A request that stays in its head. -/
theorem LineRead.lineState {r s : HttpRequest} (hr : r.LineRead) (h : SameParse r s)
    (hin : s.InLine) (hn : s.NoEnd) (hfit : ¬ s.receivedTooMuch) : s.LineState where
  inLine := hin
  boundary := h.boundary.trans hr.boundary
  expected := h.expected.trans hr.expected
  body := h.body.trans hr.body
  file := h.file.trans hr.file
  buffer := hn
  counted := by
    rw [h.recounted, h.currentSize]
    exact hr.counted
  within := Int.not_lt.mp fun hlt => hfit (.inl ⟨h.boundary.trans hr.boundary, hlt⟩)
  limit := by
    rw [h.maxSize]
    exact hr.limit

/-- The length that the headers announce is an `int`. -/
theorem LineRead.announced {r : HttpRequest} (h : r.LineRead) :
    IsInt r.announceBody.expectedBodySize := by
  unfold announceBody
  dsimp only
  rw [h.expected]
  split
  · decide
  · exact toInt_isInt _

/-- A request whose head has ended. -/
theorem LineRead.parsing_end {r : HttpRequest} (h : r.LineRead)
    (hint : IsInt (r.announceBody.expectedBodySize + r.currentSize))
    (hbusy : r.endOfHeaders.Busy) (hfit : ¬ r.endOfHeaders.receivedTooMuch) :
    r.endOfHeaders.Parsing := by
  obtain ⟨heq, hne, hlarge, hmulti⟩ := endOfHeaders_busy hbusy
  have hmax : r.announceBody.expectedBodySize + r.currentSize ≤ 2147483647 := hint.2
  rw [heq] at hfit ⊢
  rcases Int.lt_or_le r.announceBody.expectedBodySize 0 with hneg | hpos
  · exact .due ⟨⟨rfl, hneg⟩, h.announced, h.body, h.file, h.counted, h.size⟩
  · have hcur : r.announceBody.currentSize = r.currentSize := rfl
    refine .body ⟨rfl, ?_, h.announced, h.counted, fun hplain => ?_, fun hboundary => ?_, h.limit⟩
    · show 0 < r.announceBody.expectedBodySize
      omega
    · have hfits : ¬ r.announceBody.maxSize <
          int32 (r.announceBody.expectedBodySize + r.announceBody.currentSize) :=
        fun hlt => hlarge ⟨hplain, hlt⟩
      rw [hcur, int32_of_isInt hint] at hfits
      show (r.bodyData.length : Int) < r.announceBody.expectedBodySize ∧
        r.currentSize + (r.announceBody.expectedBodySize - r.bodyData.length) ≤
          r.announceBody.maxSize
      rw [h.body, List.length_nil]
      exact ⟨by omega, by omega⟩
    · have hfits : ¬ r.announceBody.maxMultiPartSize < r.announceBody.expectedBodySize :=
        fun hlt => hmulti ⟨hboundary, hlt⟩
      have hreceived : ¬ r.announceBody.maxMultiPartSize < r.currentSize :=
        fun hlt => hfit (.inr ⟨hboundary, hlt⟩)
      show ((r.tempFile.getD []).length : Int) < r.announceBody.expectedBodySize ∧
        r.announceBody.expectedBodySize ≤ r.announceBody.maxMultiPartSize ∧
        r.currentSize ≤ r.announceBody.maxMultiPartSize ∧
        r.currentSize + r.announceBody.expectedBodySize ≤ 2147483647
      rw [h.file, Option.getD_none, List.length_nil]
      exact ⟨by omega, by omega, by omega, by omega⟩

theorem finishRequestLine_buffer (r : HttpRequest) :
    r.finishRequestLine.lineBuffer.length ≤ r.lineBuffer.length := by
  unfold finishRequestLine
  split
  · exact Nat.le_refl _
  · dsimp only
    split
    · exact Nat.zero_le _
    · split
      · split <;> exact Nat.zero_le _
      · exact Nat.zero_le _

theorem finishHeaderLine_buffer (r : HttpRequest) :
    r.finishHeaderLine.lineBuffer.length ≤ r.lineBuffer.length := by
  unfold finishHeaderLine
  split
  · exact Nat.le_refl _
  · dsimp only
    split
    · exact Nat.zero_le _
    · split
      · unfold headerContinuation
        split <;> exact Nat.zero_le _
      · unfold endOfHeaders
        dsimp only
        split
        · exact Nat.zero_le _
        · split
          · exact Nat.zero_le _
          · split <;> exact Nat.zero_le _

/-- **A call in the head** that leaves a request in need of more: the head goes on, or ends here. -/
theorem LineState.call_cases {r : HttpRequest} (h : r.LineState) {b : Bytes} (hb : b ≠ [])
    (hint : IsInt (r.currentSize + (r.appendLine b).1.lineBuffer.length))
    (hbusy : (r.readFromSocket b).1.Busy) :
    ((r.readFromSocket b).1.LineState ∧
      (r.readFromSocket b).1.currentSize = (r.appendLine b).1.currentSize ∧
      (r.readFromSocket b).1.lineBuffer.length ≤ (r.appendLine b).1.lineBuffer.length) ∨
    ((r.appendLine b).1.EndsHead ∧ (r.readFromSocket b).1 =
        ({ (r.appendLine b).1 with lineBuffer := [] } : HttpRequest).endOfHeaders ∧
      ¬ (r.readFromSocket b).1.receivedTooMuch) := by
  have hread := h.read hb hint
  have hcall : (r.readFromSocket b).1 = (r.appendLine b).1.finishLine.afterRead := by
    rw [readFromSocket, readStep_inLine h.inLine]
  rw [hcall] at hbusy ⊢
  obtain ⟨hsame, hfit, hbusy'⟩ := afterRead_of_busy hbusy
  rw [hsame]
  generalize (r.appendLine b).1 = r₁ at *
  unfold finishLine at hfit hbusy' ⊢
  rcases hread.inLine with hs | hs
  · rw [hs] at hfit hbusy' ⊢
    rcases finishRequestLine_cases hs with habort | ⟨hkeep, hin, hno⟩
    · exact absurd habort hbusy'.2
    · exact .inl ⟨hread.lineState hkeep hin hno hfit, hkeep.currentSize,
        finishRequestLine_buffer r₁⟩
  · rw [hs] at hfit hbusy' ⊢
    rcases finishHeaderLine_cases hs with ⟨hkeep, hin, hno⟩ | ⟨hends, hend⟩
    · exact .inl ⟨hread.lineState hkeep hin hno hfit, hkeep.currentSize, finishHeaderLine_buffer r₁⟩
    · exact .inr ⟨hends, hend, hfit⟩

/-- The blank line behind the headers is used up. -/
theorem LineRead.blank {r : HttpRequest} (h : r.LineRead) :
    ({ r with lineBuffer := [] } : HttpRequest).LineRead :=
  ⟨h.inLine, h.boundary, h.expected, h.body, h.file, h.counted, h.size, h.limit⟩

/-- **What becomes of a request in the middle of its head** that still needs data. -/
theorem parsing_line_call {r : HttpRequest} (h : r.LineState) {b : Bytes} (hb : b ≠ [])
    (hm : r.ReadMeets b) (hbusy : (r.readFromSocket b).1.Busy) :
    (r.readFromSocket b).1.Parsing := by
  have hline := hm.line h.inLine
  have hread := h.read hb hline.counter
  rcases h.call_cases hb hline.counter hbusy with ⟨hstate, -, -⟩ | ⟨hends, hend, hfit⟩
  · exact .head hstate
  · rw [hend] at hbusy hfit ⊢
    exact hread.blank.parsing_end (hline.announced hends).1 hbusy hfit

/-! ### A piece of the body

In the body there are no lines, and a call takes what is there up to the announced length. -/

/-- A piece of a body that leaves the request in need of more does not complete the body. -/
theorem takeMore_busy {r : HttpRequest} {d : Bytes} (hbusy : (r.takeMore d).Busy) :
    (r.bodyTaken + d.length : Int) < r.expectedBodySize := by
  unfold takeMore at hbusy
  unfold bodyTaken
  split_ifs at hbusy ⊢ with hb hdone hlarge hdone
  · exact absurd rfl hbusy.1
  · rw [List.length_append] at hdone
    omega
  · exact absurd rfl hbusy.2
  · exact absurd rfl hbusy.1
  · rw [List.length_append] at hdone
    omega

/-- **What becomes of a request in the middle of its body** that still needs data. -/
theorem parsing_body_call {r : HttpRequest} (h : r.Expecting) {b : Bytes}
    (hbusy : (r.readFromSocket b).1.Busy) : (r.readFromSocket b).1.Parsing := by
  have hcall : (r.readFromSocket b).1 = (r.takeMore (b.take r.bodyRoom.toNat)).afterRead := by
    simp only [readFromSocket, readStep, h.status, readBody_eq]
  rw [hcall] at hbusy ⊢
  obtain ⟨hsame, -, hbusy'⟩ := afterRead_of_busy hbusy
  rw [hsame]
  exact .body (h.takeMore (takeMore_busy hbusy'))

/-! ### One call

The cases of the head and of the body together. This is what the loop of `readHttp` needs to
know. -/

/-- What a call does to a request: it consumes bytes, or it ends a request that waits for a body
of negative length. -/
inductive CallDoes (r : HttpRequest) (b : Bytes) (r' : HttpRequest) (rest : Bytes) : Prop
  | feeds (d : Bytes) (hd : d ≠ []) (hb : b = d ++ rest) (hfeeds : Feeds r.exact d r'.exact)
      (hdue : ¬ r.Overdue)
  | settles (hdue : r.Overdue) (hrest : rest = b) (hsettle : r'.exact = r.exact.settle)
      (hend : ¬ r'.Busy)

/-- **One call of `readFromSocket`** that finds bytes. -/
theorem call_spec {r : HttpRequest} (h : r.Parsing) {b : Bytes} (hb : b ≠ []) (hm : r.ReadMeets b) :
    CallDoes r b (r.readFromSocket b).1 (r.readFromSocket b).2 ∧
      ((r.readFromSocket b).1.Busy → (r.readFromSocket b).1.Parsing) := by
  cases h with
  | head h =>
      obtain ⟨d, hd, hbytes, hfeeds⟩ := feeds_line_call h hb hm
      exact ⟨.feeds d hd hbytes hfeeds h.inLine.busy.2, parsing_line_call h hb hm⟩
  | body h =>
      obtain ⟨d, hd, hbytes, hfeeds⟩ := feeds_body_call h hb hm
      exact ⟨.feeds d hd hbytes hfeeds h.busy.2, parsing_body_call h⟩
  | due h =>
      obtain ⟨hcall, -, hend⟩ := h.call b
      rw [hcall]
      exact ⟨.settles h.overdue rfl (h.settle_exact hm).symm hend, fun hbusy => absurd hbusy hend⟩

theorem Parsing.busy {r : HttpRequest} (h : r.Parsing) : r.Busy := by
  cases h with
  | head h => exact h.inLine.busy.1
  | body h => exact h.busy.1
  | due h => exact ⟨by simp [h.overdue.1], by simp [h.overdue.1]⟩

/-! ### The first call

A new request, under a limit that lets something pass and under one that does not. -/

/-- A new request is in the middle of its head, unless the limit is negative. -/
theorem parsing_new {settings : Settings} (h₀ : 0 ≤ settings.maxRequestSize)
    (h₁ : settings.maxRequestSize < intMax) : (new settings).Parsing :=
  .head ⟨.inl rfl, rfl, rfl, rfl, rfl, ⟨by simp [new], by simp [new]⟩, by simp [new], h₀, h₁⟩

/-- What is read under a negative limit is too much. -/
theorem finishRequestLine_tooMuch {r : HttpRequest} (hb : r.boundary = [])
    (hsize : r.maxSize < r.currentSize) : r.finishRequestLine.afterRead.status = .abort := by
  have hkeep : r.finishRequestLine.boundary = r.boundary ∧ r.finishRequestLine.maxSize = r.maxSize ∧
      r.finishRequestLine.currentSize = r.currentSize := by
    unfold finishRequestLine
    split
    · exact ⟨rfl, rfl, rfl⟩
    · dsimp only
      split
      · exact ⟨rfl, rfl, rfl⟩
      · split
        · split <;> exact ⟨rfl, rfl, rfl⟩
        · exact ⟨rfl, rfl, rfl⟩
  have htoo : r.finishRequestLine.receivedTooMuch :=
    .inl ⟨hkeep.1.trans hb, by rw [hkeep.2.1, hkeep.2.2]; exact hsize⟩
  simp [afterRead, htoo]

/-- Under a negative limit the first call aborts the request. -/
theorem new_negative_call {settings : Settings} (h : settings.maxRequestSize < 0) {b : Bytes}
    (hc : IsInt ((new settings).appendLine b).1.lineBuffer.length) :
    ((new settings).readFromSocket b).1.status = .abort := by
  have hsize : ((new settings).appendLine b).1.currentSize =
      ((new settings).appendLine b).1.lineBuffer.length := by
    show int32 (0 + (((new settings).appendLine b).1.lineBuffer.length : Int)) = _
    rw [Int.zero_add, int32_of_isInt hc]
  exact finishRequestLine_tooMuch (r := ((new settings).appendLine b).1) rfl
    (by rw [hsize]; exact Int.lt_of_lt_of_le h (Int.natCast_nonneg _))

/-- Under a negative limit the first byte aborts the request. -/
theorem new_negative_feed {settings : Settings} (h : settings.maxRequestSize < 0) (c : UInt8) :
    ((new settings).feed c).status = .abort := by
  have hlt : (new settings).maxSize < ((new settings).grow [c]).currentSize := by
    show settings.maxRequestSize < 0 + 1
    omega
  rw [feed_inLine (.inl rfl), feedLine, if_pos (.inr hlt)]
  exact finishRequestLine_tooMuch (r := (new settings).grow [c]) rfl hlt

end HttpRequest

end QtWebApp
