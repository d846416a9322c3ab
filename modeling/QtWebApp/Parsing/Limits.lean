import QtWebApp.Base.Run
import QtWebApp.Parsing.Calls

/-!
# QtWebApp.Parsing.Limits

The size limits of requests that are accepted.

As long as it does not overflow, the counter of a request is never behind the bytes it has taken: a
line counts with everything that waited of it, a piece of a body with its size, and only a multipart
body is counted elsewhere, by the size of its temp file. So what the checks after every read let
pass is within the limits (`Within`), whatever `Content-Length` says. But what waits of a line is
counted again with every piece, and so the counter can overflow although the pieces together are no
more than an `int` (`not_bounded_overflow`).

The invariant has to be kept by every function that a call may run. Most of them leave the counter
and the limits alone, so there is a lemma for each that says just this, and the proofs about a call
put these together.
-/

namespace QtWebApp

open Bytes

namespace HttpRequest

/-! ### Taking bytes from the socket

The state is a request, what is unread, and a count of the bytes taken that the code does not keep.
A segment may arrive at any time, also while something is unread. -/

/-- A request, the read buffer of its socket, and how many bytes it has taken from it. -/
structure Intake where
  request : HttpRequest
  socket : Bytes
  /-- All bytes that were taken. -/
  taken : Nat
  /-- Those that were not taken for a multipart body. -/
  outside : Nat

/-- What happens to a request: a segment arrives, or `readFromSocket` is called. -/
inductive ReadEvent
  | arrive (segment : Bytes)
  | read
  deriving DecidableEq, Repr

/-- The request receives a multipart body. -/
def InMultiPart (r : HttpRequest) : Prop := r.status = .waitForBody ∧ r.boundary ≠ []

instance (r : HttpRequest) : Decidable r.InMultiPart := by
  unfold InMultiPart
  infer_instance

namespace Intake

/-- A new request. -/
def start (settings : Settings) : Intake where
  request := .new settings
  socket := []
  taken := 0
  outside := 0

/-- The state after an event. -/
def step (s : Intake) : ReadEvent → Intake
  | .arrive segment => { s with socket := s.socket ++ segment }
  | .read =>
      let (request, rest) := s.request.readFromSocket s.socket
      let n := s.socket.length - rest.length
      { request := request
        socket := rest
        taken := s.taken + n
        outside := s.outside + if s.request.InMultiPart then 0 else n }

end Intake

/-- The size of what a call receives can be added to the counter: a line with what waited of it, a
piece of a body, a multipart body as far as it is there. -/
def SumFits (r : HttpRequest) (socket : Bytes) : Prop :=
  match r.status with
  | .waitForRequest | .waitForHeader =>
      IsInt (r.currentSize + (r.appendLine socket).1.lineBuffer.length)
  | .waitForBody =>
      if r.boundary = [] then IsInt (r.currentSize + (socket.take r.bodyRoom.toNat).length)
      else IsInt (r.currentSize + (r.tempFile.getD [] ++ socket.take r.bodyRoom.toNat).length)
  | .complete | .abort => True

instance (r : HttpRequest) (socket : Bytes) : Decidable (r.SumFits socket) := by
  unfold SumFits IsInt
  split <;> infer_instance

/-- What the counter adds up fits into an `int`. -/
def SumsFit (s : Intake) : ReadEvent → Prop
  | .arrive _ => True
  | .read => s.request.SumFits s.socket

instance (s : Intake) (e : ReadEvent) : Decidable (SumsFit s e) := by
  unfold SumsFit
  split <;> infer_instance

/-- The counter is not behind, and a complete request is within its limits. -/
structure Bounded (settings : Settings) (s : Intake) : Prop where
  counted : (s.outside : Int) ≤ s.request.currentSize
  plain : s.request.status = .complete → s.request.boundary = [] →
    (s.taken : Int) ≤ settings.maxRequestSize ∧
      (s.request.bodyData.length : Int) ≤ settings.maxRequestSize
  multiPart : s.request.status = .complete → s.request.boundary ≠ [] →
    ((s.request.tempFile.getD []).length : Int) ≤ settings.maxMultiPartSize

/-! ### What the pieces of a call leave alone

`SameData` and its extensions name the fields that matter for the limits. The lemmas follow the code
from the single line to the end of a call. -/

/-- The fields that hold the limits and what was received. -/
structure SameData (r s : HttpRequest) : Prop where
  maxSize : s.maxSize = r.maxSize
  maxMultiPartSize : s.maxMultiPartSize = r.maxMultiPartSize
  body : s.bodyData = r.bodyData
  file : s.tempFile = r.tempFile

theorem SameData.refl (r : HttpRequest) : SameData r r := ⟨rfl, rfl, rfl, rfl⟩

theorem SameData.trans {r s t : HttpRequest} (h₁ : SameData r s) (h₂ : SameData s t) :
    SameData r t :=
  ⟨h₂.maxSize.trans h₁.maxSize, h₂.maxMultiPartSize.trans h₁.maxMultiPartSize,
    h₂.body.trans h₁.body, h₂.file.trans h₁.file⟩

/-- A line is finished: the counter stays, and there is a boundary only when the head ends. -/
structure LineFinished (r s : HttpRequest) : Prop extends SameData r s where
  currentSize : s.currentSize = r.currentSize
  boundary : s.InLine → s.boundary = r.boundary

theorem finishRequestLine_finished (r : HttpRequest) : LineFinished r r.finishRequestLine := by
  have hself : LineFinished r { r with lineBuffer := [] } :=
    ⟨⟨rfl, rfl, rfl, rfl⟩, rfl, fun _ => rfl⟩
  unfold finishRequestLine
  split
  · exact ⟨.refl r, rfl, fun _ => rfl⟩
  · dsimp only
    split
    · exact hself
    · split
      · split
        · exact ⟨⟨rfl, rfl, rfl, rfl⟩, rfl, fun _ => rfl⟩
        · exact ⟨⟨rfl, rfl, rfl, rfl⟩, rfl, fun _ => rfl⟩
      · exact ⟨⟨rfl, rfl, rfl, rfl⟩, rfl, fun _ => rfl⟩

/-- The blank line is such a line, too. -/
theorem endOfHeaders_finished (r : HttpRequest) : LineFinished r r.endOfHeaders := by
  unfold endOfHeaders
  dsimp only
  split
  · exact ⟨⟨rfl, rfl, rfl, rfl⟩, rfl, fun h => by simp [InLine] at h⟩
  · split
    · exact ⟨⟨rfl, rfl, rfl, rfl⟩, rfl, fun h => by simp [InLine] at h⟩
    · split
      · exact ⟨⟨rfl, rfl, rfl, rfl⟩, rfl, fun h => by simp [InLine] at h⟩
      · exact ⟨⟨rfl, rfl, rfl, rfl⟩, rfl, fun h => by simp [InLine] at h⟩

theorem finishHeaderLine_finished (r : HttpRequest) : LineFinished r r.finishHeaderLine := by
  unfold finishHeaderLine
  split
  · exact ⟨.refl r, rfl, fun _ => rfl⟩
  · dsimp only
    split
    · exact ⟨⟨rfl, rfl, rfl, rfl⟩, rfl, fun _ => rfl⟩
    · split
      · unfold headerContinuation
        split
        · exact ⟨⟨rfl, rfl, rfl, rfl⟩, rfl, fun _ => rfl⟩
        · exact ⟨⟨rfl, rfl, rfl, rfl⟩, rfl, fun _ => rfl⟩
      · have hend := endOfHeaders_finished { r with lineBuffer := [] }
        exact ⟨⟨hend.maxSize, hend.maxMultiPartSize, hend.body, hend.file⟩, hend.currentSize,
          hend.boundary⟩

theorem finishLine_finished (r : HttpRequest) : LineFinished r r.finishLine := by
  unfold finishLine
  split
  · exact finishRequestLine_finished r
  · exact finishHeaderLine_finished r
  · exact ⟨.refl r, rfl, fun _ => rfl⟩

/-- What the parser of multipart bodies leaves alone. -/
structure SameMultiPart (r s : HttpRequest) : Prop extends SameData r s where
  boundary : s.boundary = r.boundary

theorem SameMultiPart.refl (r : HttpRequest) : SameMultiPart r r := ⟨.refl r, rfl⟩

theorem SameMultiPart.trans {r s t : HttpRequest} (h₁ : SameMultiPart r s)
    (h₂ : SameMultiPart s t) :
    SameMultiPart r t :=
  ⟨h₁.toSameData.trans h₂.toSameData, h₂.boundary.trans h₁.boundary⟩

theorem finishPart_same (r : HttpRequest) (p : PartNames) (fieldValue : Bytes)
    (uploadedFile : Option Nat) : SameMultiPart r (r.finishPart p fieldValue uploadedFile) := by
  unfold finishPart
  split
  · exact ⟨⟨rfl, rfl, rfl, rfl⟩, rfl⟩
  · split
    · exact ⟨⟨rfl, rfl, rfl, rfl⟩, rfl⟩
    · exact .refl r

theorem writeUpload_same (r : HttpRequest) (line : Bytes) (uploadedFile : Option Nat) :
    SameMultiPart r (r.writeUpload line uploadedFile).1 := by
  cases uploadedFile with
  | none => exact ⟨⟨rfl, rfl, rfl, rfl⟩, rfl⟩
  | some i => exact ⟨⟨rfl, rfl, rfl, rfl⟩, rfl⟩

/-- The data of a part. -/
theorem readPartData_same (p : PartNames) (lines : List Bytes) (fieldValue : Bytes)
    (uploadedFile : Option Nat) (r : HttpRequest) :
    SameMultiPart r (readPartData p lines fieldValue uploadedFile r).1 := by
  induction lines generalizing fieldValue uploadedFile r with
  | nil => exact .refl r
  | cons line ls ih =>
      unfold readPartData
      split
      · exact finishPart_same r p fieldValue uploadedFile
      · split
        · have hcounted : SameMultiPart r
              { r with currentSize := int32 (r.currentSize + line.length) } :=
            ⟨⟨rfl, rfl, rfl, rfl⟩, rfl⟩
          exact hcounted.trans (ih _ _ _)
        · split
          · exact (writeUpload_same r line uploadedFile).trans (ih _ _ _)
          · exact ih _ _ _

theorem readParts_same (fuel : Nat) (lines : List Bytes) (r : HttpRequest) :
    SameMultiPart r (readParts fuel lines r) := by
  induction fuel generalizing lines r with
  | zero => exact .refl r
  | succ fuel ih =>
      cases lines with
      | nil => exact .refl r
      | cons l ls =>
          unfold readParts
          dsimp only
          have hdata := readPartData_same (readPartHeaders (l :: ls) ⟨[], []⟩).1
            (readPartHeaders (l :: ls) ⟨[], []⟩).2 [] none r
          split
          · exact hdata
          · exact hdata.trans (ih _ _)

theorem parseMultiPartFile_same (r : HttpRequest) : SameMultiPart r r.parseMultiPartFile :=
  readParts_same _ _ r

/-- The parser adds to the counter, at most the size of the file. -/
theorem parseMultiPartFile_counts {r : HttpRequest} (h0 : 0 ≤ r.currentSize)
    (hfit : IsInt (r.currentSize + (r.tempFile.getD []).length)) :
    r.currentSize ≤ r.parseMultiPartFile.currentSize := by
  obtain ⟨k, hk, hsize⟩ := parseMultiPartFile_size r
  have hmax : r.currentSize + (r.tempFile.getD []).length ≤ 2147483647 := hfit.2
  have hself : r.parseMultiPartFile =
      r.parseMultiPartFile.setSize (int32 (r.currentSize + k)) r.recounted :=
    hsize r.currentSize r.recounted ⟨by omega, by omega⟩
  have hcount : r.parseMultiPartFile.currentSize = int32 (r.currentSize + k) := by
    rw [hself]
    rfl
  rw [hcount, int32_of_isInt ⟨by omega, by omega⟩]
  omega

/-- The checks after a read let a request pass only within the limit. -/
theorem afterRead_checks (r : HttpRequest) :
    SameMultiPart r r.afterRead ∧ r.afterRead.currentSize = r.currentSize ∧
      (r.afterRead.InLine → r.InLine) ∧
      (r.afterRead.status = .complete → r.status = .complete ∧ ¬ r.receivedTooMuch) := by
  unfold afterRead
  dsimp only
  split
  · rw [if_neg (by simp)]
    exact ⟨⟨⟨rfl, rfl, rfl, rfl⟩, rfl⟩, rfl, fun h => by simp [InLine] at h, fun h => nomatch h⟩
  · next hfit =>
      split
      · next hdone => exact ⟨⟨⟨rfl, rfl, rfl, rfl⟩, rfl⟩, rfl, fun h => h, fun _ => ⟨hdone, hfit⟩⟩
      · exact ⟨.refl r, rfl, fun h => h, fun h => ⟨h, hfit⟩⟩

/-! ### The invariant

One case for each kind of read: a line, a piece of a plain body, a block of a multipart body, and
nothing at all. -/

/-- What holds of a request and the bytes it has taken at any time. -/
structure Within (settings : Settings) (s : Intake) : Prop where
  maxSize : s.request.maxSize = settings.maxRequestSize
  maxMultiPartSize : s.request.maxMultiPartSize = settings.maxMultiPartSize
  counted : (s.outside : Int) ≤ s.request.currentSize
  all : s.request.boundary = [] → s.taken = s.outside
  body : s.request.bodyData.length ≤ s.outside
  head : s.request.InLine → s.request.boundary = [] ∧ s.request.tempFile = none
  plain : s.request.status = .complete → s.request.boundary = [] →
    s.request.currentSize ≤ s.request.maxSize
  multiPart : s.request.status = .complete → s.request.boundary ≠ [] →
    ((s.request.tempFile.getD []).length : Int) ≤ settings.maxMultiPartSize

theorem Within.bounded {settings : Settings} {s : Intake} (h : Within settings s) :
    Bounded settings s := by
  refine ⟨h.counted, fun hdone hplain => ?_, h.multiPart⟩
  have hall := h.all hplain
  have hsize := h.plain hdone hplain
  have hcounted := h.counted
  have hbody := h.body
  rw [h.maxSize] at hsize
  exact ⟨by omega, by omega⟩

/-- A new request has taken nothing. -/
theorem within_start (settings : Settings) : Within settings (.start settings) where
  maxSize := rfl
  maxMultiPartSize := rfl
  counted := Int.le_refl _
  all := fun _ => rfl
  body := Nat.le_refl _
  head := fun _ => ⟨rfl, rfl⟩
  plain := fun h => nomatch h
  multiPart := fun h => nomatch h

/-- The checks after a read complete the step. -/
theorem Within.of_read {settings : Settings} {r : HttpRequest} {rest : Bytes} {taken outside : Nat}
    (hsame : r.maxSize = settings.maxRequestSize ∧ r.maxMultiPartSize = settings.maxMultiPartSize)
    (hcounted : (outside : Int) ≤ r.currentSize) (hall : r.boundary = [] → taken = outside)
    (hbody : r.bodyData.length ≤ outside)
    (hhead : r.InLine → r.boundary = [] ∧ r.tempFile = none)
    (hmultiPart : r.status = .complete → r.boundary ≠ [] →
      ((r.tempFile.getD []).length : Int) ≤ settings.maxMultiPartSize) :
    Within settings ⟨r.afterRead, rest, taken, outside⟩ := by
  obtain ⟨hkept, hsize, hline, hdone⟩ := afterRead_checks r
  refine ⟨hkept.maxSize.trans hsame.1, hkept.maxMultiPartSize.trans hsame.2, ?_,
    fun hplain => ?_, ?_,
    fun h => ?_, fun hcomplete hplain => ?_, fun hcomplete hboundary => ?_⟩
  · show (outside : Int) ≤ r.afterRead.currentSize
    rw [hsize]
    exact hcounted
  · exact hall (hkept.boundary.symm.trans hplain)
  · show r.afterRead.bodyData.length ≤ outside
    rw [hkept.body]
    exact hbody
  · obtain ⟨hb, hf⟩ := hhead (hline h)
    exact ⟨hkept.boundary.trans hb, hkept.file.trans hf⟩
  · have hfit := (hdone hcomplete).2
    show r.afterRead.currentSize ≤ r.afterRead.maxSize
    rw [hsize, hkept.maxSize]
    exact Int.not_lt.mp fun hlt => hfit (.inl ⟨hkept.boundary.symm.trans hplain, hlt⟩)
  · have hboundary' : r.boundary ≠ [] := fun hb => hboundary (hkept.boundary.trans hb)
    show ((r.afterRead.tempFile.getD []).length : Int) ≤ settings.maxMultiPartSize
    rw [hkept.file]
    exact hmultiPart (hdone hcomplete).1 hboundary'

/-- A line is read. -/
theorem Within.readLine {settings : Settings} (hlimit : 0 < settings.maxMultiPartSize) {s : Intake}
    (h : Within settings s) (hline : s.request.InLine)
    (hfit : IsInt (s.request.currentSize +
      (s.request.appendLine s.socket).1.lineBuffer.length)) {t : HttpRequest}
    (ht : LineFinished (s.request.appendLine s.socket).1 t) {n : Nat}
    (hn : n = (readLine s.socket s.request.toRead).1.length) :
    Within settings ⟨t.afterRead, (s.request.appendLine s.socket).2, s.taken + n,
      s.outside + n⟩ := by
  obtain ⟨hboundary, hfile⟩ := h.head hline
  have hbuffer : (s.request.appendLine s.socket).1.lineBuffer =
      s.request.lineBuffer ++ (Bytes.readLine s.socket s.request.toRead).1 := rfl
  have hsize : (s.request.appendLine s.socket).1.currentSize = s.request.currentSize +
      (s.request.appendLine s.socket).1.lineBuffer.length := int32_of_isInt hfit
  have hcounted := h.counted
  have hbody := h.body
  refine .of_read ⟨ht.maxSize.trans h.maxSize, ht.maxMultiPartSize.trans h.maxMultiPartSize⟩ ?_ ?_
    ?_ ?_ ?_
  · rw [ht.currentSize, hsize, hbuffer, List.length_append]
    omega
  · intro _
    rw [h.all hboundary]
  · rw [ht.body]
    show s.request.bodyData.length ≤ s.outside + n
    omega
  · intro hline'
    exact ⟨(ht.boundary hline').trans hboundary, ht.file.trans hfile⟩
  · intro _ _
    rw [ht.file]
    show ((s.request.tempFile.getD []).length : Int) ≤ settings.maxMultiPartSize
    rw [hfile]
    show (0 : Int) ≤ settings.maxMultiPartSize
    omega

/-- A piece of a body that is not multipart is read. -/
theorem Within.readPlain {settings : Settings} {s : Intake} (h : Within settings s)
    (hs : s.request.status = .waitForBody) (hb : s.request.boundary = []) {d rest : Bytes}
    (hfit : IsInt (s.request.currentSize + d.length)) :
    Within settings ⟨(s.request.takeMore d).afterRead, rest, s.taken + d.length,
      s.outside + d.length⟩ := by
  have hcounted : ((s.outside + d.length : Nat) : Int) ≤ s.request.currentSize + d.length := by
    have hbefore := h.counted
    omega
  have hbody : (s.request.bodyData ++ d).length ≤ s.outside + d.length := by
    have hbefore := h.body
    rw [List.length_append]
    omega
  have hall : s.taken + d.length = s.outside + d.length := by rw [h.all hb]
  unfold takeMore
  rw [if_pos hb, int32_of_isInt hfit]
  split
  · exact .of_read ⟨h.maxSize, h.maxMultiPartSize⟩ hcounted (fun _ => hall) hbody
      (fun hline => by simp [InLine] at hline) fun _ hboundary => absurd hb hboundary
  · exact .of_read ⟨h.maxSize, h.maxMultiPartSize⟩ hcounted (fun _ => hall) hbody
      (fun hline => by simp [InLine, hs] at hline) fun _ hboundary => absurd hb hboundary

/-- A block of a multipart body is read. -/
theorem Within.readMultiPart {settings : Settings} {s : Intake} (h : Within settings s)
    (hs : s.request.status = .waitForBody) (hb : s.request.boundary ≠ []) {d rest : Bytes}
    (hfit : IsInt (s.request.currentSize + (s.request.tempFile.getD [] ++ d).length)) {n : Nat} :
    Within settings ⟨(s.request.takeMore d).afterRead, rest, s.taken + n, s.outside⟩ := by
  have hcounted := h.counted
  have hlimit := h.maxMultiPartSize
  unfold takeMore
  rw [if_neg hb]
  split
  · exact .of_read ⟨h.maxSize, hlimit⟩ hcounted (fun hplain => absurd hplain hb) h.body
      (fun hline => by simp [InLine] at hline) fun hdone => nomatch hdone
  · next hroom =>
      split
      · -- the body is there: its parts are counted
        obtain ⟨hsame, hboundary⟩ := parseMultiPartFile_same
          { s.request with tempFile := some (s.request.tempFile.getD [] ++ d) }
        have hcounts : s.request.currentSize ≤ (parseMultiPartFile
            { s.request with tempFile := some (s.request.tempFile.getD [] ++ d) }).currentSize :=
          parseMultiPartFile_counts (by show 0 ≤ s.request.currentSize; omega) hfit
        refine .of_read ⟨hsame.maxSize.trans h.maxSize, hsame.maxMultiPartSize.trans hlimit⟩ ?_ ?_
          ?_
          (fun hline => by simp [InLine] at hline) fun _ _ => ?_
        · exact hcounted.trans hcounts
        · intro hplain
          exact absurd (hboundary.symm.trans hplain) hb
        · show (parseMultiPartFile _).bodyData.length ≤ s.outside
          rw [hsame.body]
          exact h.body
        · show (((parseMultiPartFile _).tempFile.getD []).length : Int) ≤ settings.maxMultiPartSize
          rw [hsame.file]
          show ((s.request.tempFile.getD [] ++ d).length : Int) ≤ settings.maxMultiPartSize
          omega
      · refine .of_read ⟨h.maxSize, hlimit⟩ hcounted (fun hplain => absurd hplain hb) h.body
          (fun hline => ?_) fun hdone => ?_
        · simp [InLine, hs] at hline
        · cases hs.symm.trans hdone

/-- A request that has ended takes nothing. -/
theorem Within.readNothing {settings : Settings} {s : Intake} (h : Within settings s) :
    Within settings ⟨s.request.afterRead, s.socket, s.taken + (s.socket.length - s.socket.length),
      s.outside + if s.request.InMultiPart then 0 else s.socket.length - s.socket.length⟩ := by
  have hnothing : (if s.request.InMultiPart then 0 else s.socket.length - s.socket.length) = 0 := by
    split
    · rfl
    · exact Nat.sub_self _
  rw [hnothing, Nat.sub_self]
  exact .of_read ⟨h.maxSize, h.maxMultiPartSize⟩ h.counted h.all h.body h.head h.multiPart

/-- **The step of the invariant.** -/
theorem within_step {settings : Settings} (hlimit : 0 < settings.maxMultiPartSize) (s : Intake)
    (e : ReadEvent) (h : Within settings s) (hfit : SumsFit s e) : Within settings (s.step e) := by
  cases e with
  | arrive segment =>
      exact ⟨h.maxSize, h.maxMultiPartSize, h.counted, h.all, h.body, h.head, h.plain, h.multiPart⟩
  | read =>
      have hfit' : s.request.SumFits s.socket := hfit
      rw [Intake.step]
      unfold readFromSocket readStep
      unfold SumFits at hfit'
      have htaken : (Bytes.readLine s.socket s.request.toRead).1.length +
          (Bytes.readLine s.socket s.request.toRead).2.length = s.socket.length := by
        rw [← List.length_append, readLine_append]
      have hline : s.socket.length - (s.request.appendLine s.socket).2.length =
          (Bytes.readLine s.socket s.request.toRead).1.length := by
        show s.socket.length - (Bytes.readLine s.socket s.request.toRead).2.length = _
        omega
      cases hs : s.request.status with
      | waitForRequest =>
          have hout : ¬ s.request.InMultiPart := fun hm => nomatch hs.symm.trans hm.1
          rw [hs] at hfit'
          dsimp only [readRequest]
          rw [if_neg hout]
          exact h.readLine hlimit (.inl hs) hfit' (finishRequestLine_finished _) hline
      | waitForHeader =>
          have hout : ¬ s.request.InMultiPart := fun hm => nomatch hs.symm.trans hm.1
          rw [hs] at hfit'
          dsimp only [readHeader]
          rw [if_neg hout]
          exact h.readLine hlimit (.inr hs) hfit' (finishHeaderLine_finished _) hline
      | waitForBody =>
          have hlen : s.socket.length - (s.socket.drop s.request.bodyRoom.toNat).length =
              (s.socket.take s.request.bodyRoom.toNat).length := by
            rw [List.length_drop, List.length_take]
            omega
          rw [hs] at hfit'
          dsimp only
          rw [readBody_eq]
          dsimp only at hfit' ⊢
          rw [hlen]
          by_cases hb : s.request.boundary = []
          · rw [if_pos hb] at hfit'
            rw [if_neg fun hm : s.request.InMultiPart => hm.2 hb]
            exact h.readPlain hs hb hfit'
          · rw [if_neg hb] at hfit'
            have hin : s.request.InMultiPart := ⟨hs, hb⟩
            rw [if_pos hin]
            exact h.readMultiPart hs hb hfit'
      | complete => exact h.readNothing
      | abort => exact h.readNothing

/-- **Accepted requests are within their limits**, and the counter is not behind, in every state of
every run in which the counter does not overflow. -/
theorem bounded_run (settings : Settings) (hlimit : 0 < settings.maxMultiPartSize)
    (events : List ReadEvent) (h : Run.Along Intake.step SumsFit (.start settings) events) :
    Bounded settings (run Intake.step (.start settings) events) :=
  (h.inv (within_step hlimit) (within_start settings)).bounded

/-- A request with a body that arrives in pieces. -/
theorem bounded_run_pieces :
    let events : List ReadEvent := [.arrive (ascii "POST / HTTP/1.1\r\nContent-Len"), .read, .read,
      .arrive (ascii "gth: 5\r\n\r\nab"), .read, .read, .read, .arrive (ascii "cde"), .read]
    (run Intake.step (.start defaultSettings) events).request.status = .complete ∧
      Bounded defaultSettings (run Intake.step (.start defaultSettings) events) := by
  intro events
  have hdone : (run Intake.step (.start defaultSettings) events).request.status = .complete := by
    decide +kernel
  have halong : Run.Along Intake.step SumsFit (.start defaultSettings) events := by decide +kernel
  exact ⟨hdone, bounded_run defaultSettings (by decide) events halong⟩

/-! ### A counter that overflows

The condition of `bounded_run` is about the counter, which takes the line buffer again with every
piece of a line. So it can fail although the pieces themselves add up to no more than an `int`
holds: a line without an end that comes in two large pieces is enough. -/

/-- A request that has got `n` letters of its request line. -/
def lettered (settings : Settings) (n : Nat) (size : Int) (recounted : Nat) : HttpRequest :=
  { new settings with
    lineBuffer := List.replicate n 97
    currentSize := size
    recounted := recounted }

/-- A call that gets no more than letters. -/
theorem lettered_call (settings : Settings) {n m : Nat} {size : Int} {k : Nat} {b rest : Bytes}
    (hread : readLine b (lettered settings n size k).toRead = (List.replicate m 97, rest))
    (hsize : int32 (size + (n + m : Nat)) ≤ settings.maxRequestSize) :
    (lettered settings n size k).readFromSocket b =
      (lettered settings (n + m) (int32 (size + (n + m : Nat))) (k + n), rest) := by
  have happend : (lettered settings n size k).appendLine b =
      (lettered settings (n + m) (int32 (size + (n + m : Nat))) (k + n), rest) := by
    unfold appendLine
    rw [hread]
    have hbuffer : (lettered settings n size k).lineBuffer ++ List.replicate m 97 =
        List.replicate (n + m) 97 := List.replicate_append_replicate
    dsimp only
    rw [hbuffer, List.length_replicate]
    simp [lettered]
  have hno : ∀ c : UInt8, c ≠ 97 →
      c ∉ (lettered settings (n + m) (int32 (size + (n + m : Nat))) (k + n)).lineBuffer :=
    fun c hc hmem => hc (List.eq_of_mem_replicate hmem)
  have hline : (lettered settings n size k).InLine := .inl rfl
  have hwaits : RequestStatus.waitForRequest ≠ .complete := by decide
  rw [readFromSocket, readStep_inLine hline, happend]
  dsimp only
  rw [finishLine_noEnd (hno CR (by decide)) (hno LF (by decide)),
    afterRead_within rfl hsize fun h => absurd h hwaits]

theorem readLine_letters {m : Nat} (hm : 0 < m) {n : Int} (hn : m ≤ n) :
    readLine (List.replicate m 97) n = (List.replicate m 97, []) := by
  have hno : LF ∉ List.take n.toNat (List.replicate m 97) := fun hmem =>
    absurd (List.eq_of_mem_replicate (List.mem_of_mem_take hmem)) (by decide)
  have hall : (List.replicate m (97 : UInt8)).length ≤ n.toNat := by
    rw [List.length_replicate]
    omega
  rw [readLine_pos (by omega), lineUpTo_noLF hno, List.take_of_length_le hall,
    List.drop_of_length_le hall]

/-- A piece of the line arrives and is read. -/
theorem lettered_read {settings : Settings} {n m k : Nat} {size : Int} (hm : 0 < m)
    (hroom : m ≤ (lettered settings n size k).toRead)
    (hsize : int32 (size + (n + m : Nat)) ≤ settings.maxRequestSize) (taken outside : Nat) :
    run Intake.step ⟨lettered settings n size k, [], taken, outside⟩
        [.arrive (List.replicate m 97), .read] =
      ⟨lettered settings (n + m) (int32 (size + (n + m : Nat))) (k + n), [], taken + m,
        outside + m⟩ := by
  have hout : ¬ (lettered settings n size k).InMultiPart := fun h => h.2 rfl
  have hcall := lettered_call settings (readLine_letters hm hroom) hsize
  simp only [Run.run_cons, Run.run_nil, Intake.step, List.nil_append]
  rw [hcall, if_neg hout]
  simp only [List.length_replicate, List.length_nil, Nat.sub_zero]

/-- **The counter can fall behind**: after two large pieces of a line, whose sizes add up to an
`int`, it is negative. -/
theorem not_bounded_overflow :
    ¬ ∀ settings : Settings, 0 < settings.maxRequestSize → 0 < settings.maxMultiPartSize →
      ∀ events : List ReadEvent, ((run Intake.step (.start settings) events).taken : Int) ≤ intMax →
        Bounded settings (run Intake.step (.start settings) events) := by
  intro hall
  let settings : Settings := ⟨1610612736, 1000000, by decide, by decide⟩
  suffices ∀ n m : Nat, n = 1073741824 → m = 536870913 → False from this _ _ rfl rfl
  intro n m hn hm
  have hroom : ∀ (size : Int) (n k : Nat), (lettered settings n size k).toRead =
      int32 (int32 (1610612736 - size) + 1) := fun _ _ _ => rfl
  have hstart : Intake.start settings = ⟨lettered settings 0 0 0, [], 0, 0⟩ := rfl
  have hfirst := @lettered_read settings 0 n 0 0 (by omega) (by rw [hroom]; unfold int32; omega)
    (by show _ ≤ (1610612736 : Int); unfold int32; omega) 0 0
  have hsecond := @lettered_read settings (0 + n) m (0 + 0) (int32 (0 + (0 + n : Nat))) (by omega)
    (by rw [hroom]; unfold int32; omega) (by show _ ≤ (1610612736 : Int); unfold int32; omega)
    (0 + n) (0 + n)
  rw [← hstart] at hfirst
  have hbounded := hall settings (by decide) (by decide)
    ([.arrive (List.replicate n 97), .read] ++ [.arrive (List.replicate m 97), .read])
  rw [Run.run_append, hfirst, hsecond] at hbounded
  have hbounded := hbounded (by show ((0 + n + m : Nat) : Int) ≤ 2147483647; omega)
  have hcounted : ((0 + n + m : Nat) : Int) ≤ int32
      (int32 (0 + (0 + n : Nat)) + (0 + n + m : Nat)) :=
    hbounded.counted
  unfold int32 at hcounted
  omega

end HttpRequest

end QtWebApp
