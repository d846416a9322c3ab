import QtWebApp.Parsing.ReadLoops
import QtWebApp.Parsing.Uploads

/-!
# QtWebApp.Parsing.BodyLimits

The limits at the end of the headers and behind it.

At the blank line after the headers the announced length is compared with a limit: without a
boundary the sum of it and the counter, formed in an `int`, with a boundary the length alone. What
arrives of a multipart body is compared again, by the size of the temp file, and after every call
the counter is, to which the parser of the body adds the sizes of the form fields (`fieldBytes`).

Each of the two results is exact for one check. Both start from a request that is reachable and
stands at the blank line, whatever was in its headers and however they arrived, since the counter
may be any number up to the limit then.
-/

namespace QtWebApp

open Bytes

namespace HttpRequest

/-! ### The head of a reachable request

What calls of `readHttp` make of a new request before its body begins, and that every list of lines
leads to such a request. -/

/-- What is known of a request while its head is read. -/
structure HeadState (settings : Settings) (r : HttpRequest) : Prop where
  maxSize : r.maxSize = settings.maxRequestSize
  maxMultiPartSize : r.maxMultiPartSize = settings.maxMultiPartSize
  file : r.tempFile = none

/-- A body is never followed by a line. -/
theorem takeMore_not_inLine {r : HttpRequest} (hs : r.status = .waitForBody) (d : Bytes) :
    ¬ (r.takeMore d).InLine := by
  unfold takeMore
  split_ifs <;> simp [InLine, hs]

/-- **The head is read with the limits of the settings**, and without a temp file. -/
theorem ReadTo.headState {settings : Settings} {ok : HttpRequest → Bytes → Prop} {r : HttpRequest}
    (h : ReadTo settings ok r) (hline : r.InLine) : HeadState settings r := by
  induction h with
  | new => exact ⟨rfl, rfl, rfl⟩
  | @call r socket _ hhungry _ ih =>
      obtain ⟨hkept, -, hbefore, -⟩ := afterRead_checks (r.readStep socket).1
      have hstep : (r.readStep socket).1.InLine := hbefore hline
      by_cases hin : r.InLine
      · have hhead := ih hin
        have hfinished := finishLine_finished (r.appendLine socket).1
        rw [readStep_inLine hin] at hkept
        show HeadState settings (r.readStep socket).1.afterRead
        rw [readStep_inLine hin]
        exact ⟨hkept.maxSize.trans (hfinished.maxSize.trans hhead.maxSize),
          hkept.maxMultiPartSize.trans (hfinished.maxMultiPartSize.trans hhead.maxMultiPartSize),
          hkept.file.trans (hfinished.file.trans hhead.file)⟩
      · have hs : r.status = .waitForBody := by
          cases hs : r.status with
          | waitForRequest => exact absurd (.inl hs) hin
          | waitForHeader => exact absurd (.inr hs) hin
          | waitForBody => rfl
          | complete => exact absurd hs hhungry.2.1
          | abort => exact absurd hs hhungry.2.2
        have htook : (r.readStep socket).1 = r.takeMore (socket.take r.bodyRoom.toNat) := by
          simp only [readStep, hs, readBody_eq]
        rw [htook] at hstep
        exact absurd hstep (takeMore_not_inLine hs _)

/-- Every line finds the request waiting for more. -/
def TakesLines : HttpRequest → List Bytes → Prop
  | _, [] => True
  | r, line :: lines => r.Hungry line ∧ TakesLines (r.readFromSocket line).1 lines

instance TakesLines.decide (r : HttpRequest) (lines : List Bytes) :
    Decidable (TakesLines r lines) :=
  match lines with
  | [] => inferInstanceAs (Decidable True)
  | line :: lines =>
      have := TakesLines.decide (r.readFromSocket line).1 lines
      inferInstanceAs (Decidable (r.Hungry line ∧ TakesLines (r.readFromSocket line).1 lines))

/-- The request after these lines. -/
def afterLines (r : HttpRequest) (lines : List Bytes) : HttpRequest :=
  lines.foldl (fun r line => (r.readFromSocket line).1) r

theorem ReadTo.lines {settings : Settings} {r : HttpRequest} {lines : List Bytes}
    (h : ReadTo settings (fun _ _ => True) r) (htakes : TakesLines r lines) :
    ReadTo settings (fun _ _ => True) (r.afterLines lines) := by
  induction lines generalizing r with
  | nil => exact h
  | cons line lines ih => exact ih (.call h htakes.1 trivial) htakes.2

/-- The request with the blank line taken from the buffer. -/
def atBlank (r : HttpRequest) (socket : Bytes) : HttpRequest :=
  { (r.appendLine socket).1 with lineBuffer := [] }

theorem readHeader_endsHead {r : HttpRequest} {socket : Bytes}
    (h : (r.appendLine socket).1.EndsHead) :
    r.readHeader socket = ((r.atBlank socket).endOfHeaders, (r.appendLine socket).2) := by
  obtain ⟨-, hend, hblank⟩ := h
  have hline : ¬ (CR ∉ (r.appendLine socket).1.lineBuffer ∧
      LF ∉ (r.appendLine socket).1.lineBuffer) :=
    fun hno => hend.elim hno.1 hno.2
  have hcolon : ¬ 0 < indexOf ([] : Bytes) [58] 0 := by decide
  unfold readHeader finishHeaderLine
  dsimp only
  rw [if_neg hline, hblank, if_neg hcolon, if_neg (by simp)]
  rfl

/-- What the end of the headers decides. -/
theorem endOfHeaders_status (r : HttpRequest) :
    r.endOfHeaders.status =
      if r.announceBody.expectedBodySize = 0 then .complete
      else if r.announceBody.bodyTooLarge ∨ r.announceBody.multiPartTooLarge then .abort
      else .waitForBody := by
  unfold endOfHeaders
  dsimp only
  by_cases hzero : r.announceBody.expectedBodySize = 0
  · rw [if_pos hzero, if_pos hzero]
  · rw [if_neg hzero, if_neg hzero]
    by_cases hplain : r.announceBody.bodyTooLarge
    · rw [if_pos hplain, if_pos (.inl hplain)]
    · rw [if_neg hplain]
      by_cases hmulti : r.announceBody.multiPartTooLarge
      · rw [if_pos hmulti, if_pos (.inr hmulti)]
      · rw [if_neg hmulti, if_neg fun h => h.elim hplain hmulti]

/-! ### The size of a body without boundary

The sum of the counter and the announced length may leave the range of an `int` at both ends, since
the length may be negative. -/

/-- The length that the headers announce. -/
def announcedLength (r : HttpRequest) : Int := toInt (r.headers.value (ascii "content-length"))

/-- A reachable request at the blank line after its headers, which announce no boundary and a length
other than zero. -/
structure AtSizeCheck (settings : Settings) (r : HttpRequest) (socket : Bytes) : Prop where
  reached : ReadTo settings (fun _ _ => True) r
  ends : (r.appendLine socket).1.EndsHead
  plain : (r.appendLine socket).1.announceBody.boundary = []
  length : r.announcedLength ≠ 0

/-- The check of the announced length is exact: the sum of it and the counter is formed without
overflow, the body is waited for if the length is positive and the sum within the limit, and
otherwise the request is aborted. -/
structure SizeCheckExact (r : HttpRequest) (socket : Bytes) : Prop where
  sum : IsInt (r.announcedLength + (r.appendLine socket).1.currentSize)
  waits : (r.readHeader socket).1.status = .waitForBody ↔ 0 < r.announcedLength ∧
    (r.appendLine socket).1.currentSize + r.announcedLength ≤ r.maxSize
  aborts : (r.readHeader socket).1.status ≠ .waitForBody → (r.readHeader socket).1.status = .abort

theorem announceBody_length {r : HttpRequest} (h : r.announcedLength ≠ 0) :
    r.announceBody.expectedBodySize = r.announcedLength := by
  unfold announcedLength at h
  have hvalue : r.headers.value (ascii "content-length") ≠ [] := fun hnil => h (by rw [hnil]; rfl)
  exact if_neg hvalue

/-- Without a boundary the comparison with the limit is made after the sum has wrapped around. -/
theorem readHeader_plain_status {r : HttpRequest} {socket : Bytes}
    (hend : (r.appendLine socket).1.EndsHead)
    (hplain : (r.appendLine socket).1.announceBody.boundary = [])
    (hlength : r.announcedLength ≠ 0) :
    (r.readHeader socket).1.status =
      if r.maxSize < int32 (r.announcedLength + (r.appendLine socket).1.currentSize) then .abort
      else .waitForBody := by
  have hexpected : (r.atBlank socket).announceBody.expectedBodySize = r.announcedLength :=
    announceBody_length (r := r.atBlank socket) hlength
  have hboundary : (r.atBlank socket).announceBody.boundary = [] := hplain
  have hlarge : (r.atBlank socket).announceBody.bodyTooLarge ∨
      (r.atBlank socket).announceBody.multiPartTooLarge ↔
        r.maxSize < int32 (r.announcedLength + (r.appendLine socket).1.currentSize) := by
    unfold bodyTooLarge multiPartTooLarge
    rw [hexpected, hboundary]
    simp only [true_and, ne_eq, not_true_eq_false, false_and, or_false]
    exact Iff.rfl
  rw [readHeader_endsHead hend, endOfHeaders_status, hexpected, if_neg hlength]
  exact if_congr hlarge rfl rfl

/-- A comparison with a positive limit that is made after the sum has wrapped around. -/
theorem wrappedCheck_iff {limit length counter : Int} (hlimit : 0 < limit)
    (hcounter : IsInt counter) (hlength : length ≠ 0) :
    IsInt (length + counter) ∧
        (¬ limit < int32 (length + counter) ↔ 0 < length ∧ counter + length ≤ limit) ↔
      (0 < length ∧ counter + length ≤ intMax) ∨ (length < 0 ∧ limit < counter + length) := by
  have hint : (intMax : Int) = 2147483647 := rfl
  have hlow := hcounter.1
  have hhigh := hcounter.2
  constructor
  · rintro ⟨hsum, hcheck⟩
    have hupper := hsum.2
    rw [int32_of_isInt hsum] at hcheck
    omega
  · intro h
    have hsum : IsInt (length + counter) := by
      rcases h with ⟨hpos, hfits⟩ | ⟨hneg, hover⟩
      · exact ⟨by omega, by omega⟩
      · exact ⟨by omega, by omega⟩
    rw [int32_of_isInt hsum]
    exact ⟨hsum, by omega⟩

/-- **When the check of the announced length is exact**: the length is positive and its sum with the
counter is an `int`, or it is negative and the head alone is so far over the limit that the
sum still is. -/
theorem sizeCheckExact_iff {settings : Settings} (hlimit : 0 < settings.maxRequestSize)
    {r : HttpRequest} {socket : Bytes} (h : AtSizeCheck settings r socket) :
    r.SizeCheckExact socket ↔
      (0 < r.announcedLength ∧
          (r.appendLine socket).1.currentSize + r.announcedLength ≤ intMax) ∨
        (r.announcedLength < 0 ∧
          r.maxSize < (r.appendLine socket).1.currentSize + r.announcedLength) := by
  have hmax : r.maxSize = settings.maxRequestSize := (h.reached.headState (.inr h.ends.1)).maxSize
  have hcounter : IsInt (r.appendLine socket).1.currentSize := isInt_int32 _
  have hstatus := readHeader_plain_status h.ends h.plain h.length
  have hwaits : (r.readHeader socket).1.status = .waitForBody ↔
      ¬ r.maxSize < int32 (r.announcedLength + (r.appendLine socket).1.currentSize) := by
    rw [hstatus]
    split
    · next hlarge => exact ⟨fun hw => (nomatch hw), fun hfits => absurd hlarge hfits⟩
    · next hfits => exact ⟨fun _ => hfits, fun _ => rfl⟩
  rw [← wrappedCheck_iff (by omega) hcounter h.length]
  refine ⟨fun hexact => ⟨hexact.sum, hwaits.symm.trans hexact.waits⟩,
    fun ⟨hsum, hcheck⟩ => ⟨hsum, hwaits.trans hcheck, fun hends => ?_⟩⟩
  have hlarge := not_not.mp (mt hwaits.mpr hends)
  rw [hstatus, if_pos hlarge]

/-- A request line and a header that announces a body of this length. -/
def lengthLines (value : Bytes) : List Bytes :=
  [ascii "POST / HTTP/1.1\r\n", ascii "Content-Length: " ++ value ++ ascii "\r\n"]

/-- A request that has read these lines. -/
def withLength (value : Bytes) : HttpRequest := (new defaultSettings).afterLines (lengthLines value)

theorem atSizeCheck_withLength {value socket : Bytes}
    (h : TakesLines (new defaultSettings) (lengthLines value) ∧
      ((withLength value).appendLine socket).1.EndsHead ∧
      ((withLength value).appendLine socket).1.announceBody.boundary = [] ∧
      (withLength value).announcedLength ≠ 0) :
    AtSizeCheck defaultSettings (withLength value) socket :=
  ⟨.lines .new h.1, h.2.1, h.2.2.1, h.2.2.2⟩

theorem sizeCheckExact_iff_five : (withLength (ascii "5")).SizeCheckExact (ascii "\r\n") :=
  (sizeCheckExact_iff (by decide)
    (atSizeCheck_withLength (by decide +kernel))).mpr (.inl (by decide +kernel))

/-- **The body of a negative length is waited for, and a length near the largest `int` makes the sum
overflow.** -/
theorem not_sizeCheckExact :
    (AtSizeCheck defaultSettings (withLength (ascii "-1")) (ascii "\r\n") ∧
      ¬ (withLength (ascii "-1")).SizeCheckExact (ascii "\r\n")) ∧
    (AtSizeCheck defaultSettings (withLength (ascii "2147483647")) (ascii "\r\n") ∧
      ¬ (withLength (ascii "2147483647")).SizeCheckExact (ascii "\r\n")) := by
  refine ⟨⟨atSizeCheck_withLength (by decide +kernel), fun h => ?_⟩,
    atSizeCheck_withLength (by decide +kernel), fun h => ?_⟩
  · have hwaits : ((withLength (ascii "-1")).readHeader (ascii "\r\n")).1.status =
        .waitForBody := by
      decide +kernel
    exact absurd (h.waits.mp hwaits).1 (by decide +kernel)
  · exact absurd h.sum (by decide +kernel)

/-! ### The bytes of the form fields

The parser of the body adds up the sizes of the lines of each field. With wrap-around the order of
the additions makes no difference. -/

/-- A part with a field name alone is a form field. -/
def ReadPart.IsField (s : ReadPart) : Prop := s.names.fileName = [] ∧ s.names.fieldName ≠ []

instance (s : ReadPart) : Decidable s.IsField := by unfold ReadPart.IsField; infer_instance

/-- What a part adds to the counter: the size of its data, when it is a form field. -/
def ReadPart.counted (s : ReadPart) : Nat := if s.IsField then lineTotal s.data else 0

/-- The size of the form fields in a multipart body. -/
def fieldBytes (boundary body : Bytes) : Nat :=
  let lines := fileLines body.length body
  ((partsOf boundary lines.length lines).map ReadPart.counted).sum

theorem int32_int32 (n : Int) : int32 (int32 n) = int32 n := int32_of_isInt (isInt_int32 n)

theorem finishPart_currentSize (r : HttpRequest) (p : PartNames) (fieldValue : Bytes)
    (file : Option Nat) : (r.finishPart p fieldValue file).currentSize = r.currentSize := by
  unfold finishPart
  split
  · rfl
  · split <;> rfl

/-- The data of a form field is counted line by line. -/
theorem readPartData_fieldSize {p : PartNames} (hfield : p.fileName = [] ∧ p.fieldName ≠ [])
    (ls : List Bytes) (fieldValue : Bytes) (file : Option Nat) (r : HttpRequest) :
    int32 (readPartData p ls fieldValue file r).1.currentSize =
      int32 (r.currentSize + lineTotal (untilBoundary r.boundary ls).1) := by
  induction ls generalizing fieldValue r with
  | nil => simp [readPartData, untilBoundary, lineTotal]
  | cons l ls ih =>
      by_cases hstop : l.startsWith (ascii "--" ++ r.boundary) = true
      · rw [untilBoundary_here hstop, readPartData, if_pos hstop, finishPart_currentSize]
        simp [lineTotal]
      · have htotal : lineTotal (l :: (untilBoundary r.boundary ls).1) =
            l.length + lineTotal (untilBoundary r.boundary ls).1 := by simp [lineTotal]
        rw [untilBoundary_data hstop, readPartData, if_neg hstop, if_pos hfield, ih,
          int32_add, htotal, Int.natCast_add, Int.add_assoc]

/-- The data of any other part is not counted. -/
theorem readPartData_uncounted {p : PartNames} (hfield : ¬ (p.fileName = [] ∧ p.fieldName ≠ []))
    (ls : List Bytes) (fieldValue : Bytes) (file : Option Nat) (r : HttpRequest) :
    (readPartData p ls fieldValue file r).1.currentSize = r.currentSize := by
  induction ls generalizing fieldValue file r with
  | nil => rfl
  | cons l ls ih =>
      by_cases hstop : l.startsWith (ascii "--" ++ r.boundary) = true
      · rw [readPartData, if_pos hstop, finishPart_currentSize]
      · rw [readPartData, if_neg hstop, if_neg hfield]
        split
        · cases file with
          | none => exact ih _ _ _
          | some i => exact ih _ _ _
        · exact ih _ _ _

/-- What one part adds to the counter. -/
theorem readPartData_counted (p : PartNames) (ls : List Bytes) (r : HttpRequest) :
    int32 (readPartData p ls [] none r).1.currentSize = int32 (int32 r.currentSize +
      ReadPart.counted ⟨p, (untilBoundary r.boundary ls).1,
        (untilBoundary r.boundary ls).2.isSome⟩) := by
  rw [int32_add]
  by_cases hfield : ReadPart.IsField
    ⟨p, (untilBoundary r.boundary ls).1, (untilBoundary r.boundary ls).2.isSome⟩
  · rw [readPartData_fieldSize hfield, ReadPart.counted, if_pos hfield]
  · rw [readPartData_uncounted hfield, ReadPart.counted, if_neg hfield,
      Int.natCast_zero, Int.add_zero]

/-- Additions with wrap-around are one addition. -/
theorem foldl_int32 (parts : List ReadPart) {c : Int} (hc : IsInt c) :
    parts.foldl (fun c s => int32 (c + s.counted)) c =
      int32 (c + (parts.map ReadPart.counted).sum) := by
  induction parts generalizing c with
  | nil => simp [int32_of_isInt hc]
  | cons s parts ih =>
      rw [List.foldl_cons, ih (isInt_int32 _), int32_add, List.map_cons, List.sum_cons,
        Int.natCast_add, Int.add_assoc]

/-- **The parser of a multipart body adds the sizes of the form fields** to the counter. -/
theorem parseMultiPartFile_fieldBytes {r : HttpRequest} (hsize : IsInt r.currentSize) :
    r.parseMultiPartFile.currentSize =
      int32 (r.currentSize + fieldBytes r.boundary (r.tempFile.getD [])) := by
  obtain ⟨k, -, hparse⟩ := parseMultiPartFile_size r
  have hself : r.parseMultiPartFile.currentSize = int32 (r.currentSize + k) :=
    congrArg HttpRequest.currentSize (hparse r.currentSize r.recounted hsize)
  have hfold : int32 r.parseMultiPartFile.currentSize =
      r.readPartsOf.foldl (fun c s => int32 (c + s.counted)) (int32 r.currentSize) :=
    readParts_fold (f := fun r => int32 r.currentSize) readPartData_counted _ _ r
  rw [hself, int32_int32, ← hself, int32_of_isInt hsize, foldl_int32 _ hsize] at hfold
  exact hfold

/-! ### The arrival of a multipart body

The body goes into a temp file. Its size is compared with the limit after every block, before it is
asked whether the body is complete. -/

/-- What `readHttp` makes of a request and its socket when more segments arrive: its inner loop runs
after each of them until it has no more to do. -/
inductive Continues (r : HttpRequest) (socket : Bytes) : List Bytes → HttpRequest → Bytes → Prop
  | start : Continues r socket [] r socket
  | arrive {segments : List Bytes} {r' : HttpRequest} {b : Bytes} (segment : Bytes) :
      Continues r socket segments r' b → ¬ r'.Hungry b →
      Continues r socket (segments ++ [segment]) r' (b ++ segment)
  | read {segments : List Bytes} {r' : HttpRequest} {b : Bytes} :
      Continues r socket segments r' b → r'.Hungry b →
      Continues r socket segments (r'.readFromSocket b).1 (r'.readFromSocket b).2

/-- The request is not aborted, and it is complete when all segments have arrived. -/
def BodyAccepted (r : HttpRequest) (socket : Bytes) (segments : List Bytes) : Prop :=
  (∀ arrived r' b, arrived <+: segments → Continues r socket arrived r' b → r'.status ≠ .abort) ∧
    ∃ r' b, Continues r socket segments r' b ∧ r'.status = .complete

/-- A request that waits for the rest of a multipart body of a size within the limit, its counter
being within the limit. -/
structure AwaitsParts (r : HttpRequest) : Prop where
  status : r.status = .waitForBody
  boundary : r.boundary ≠ []
  isInt : IsInt r.expectedBodySize
  limit : r.expectedBodySize ≤ r.maxMultiPartSize
  counter : IsInt r.currentSize
  within : r.currentSize ≤ r.maxMultiPartSize

/-- How such a request ends. -/
def verdict (r : HttpRequest) (body : Bytes) : RequestStatus :=
  if r.expectedBodySize < r.maxMultiPartSize ∧
      int32 (r.currentSize + fieldBytes r.boundary body) ≤ r.maxMultiPartSize then .complete
  else .abort

/-- The request `r` is receiving its body, of which `arrived` has arrived, or has ended. -/
inductive BodyStage (r : HttpRequest) (body arrived : Bytes) (r' : HttpRequest) (b : Bytes) : Prop
  | receiving (file : Option Bytes) : r' = { r with tempFile := file } →
      file.getD [] ++ b = arrived → ((file.getD []).length : Int) < r.expectedBodySize →
      BodyStage r body arrived r' b
  | ended : r'.status = r.verdict body → BodyStage r body arrived r' b

section Stages

variable {r : HttpRequest} {body arrived : Bytes}

/-- The checks after a read of a multipart request whose counter is within the limit. -/
theorem afterRead_parts (hb : r.boundary ≠ []) (hs : r.status ≠ .complete)
    (hw : r.currentSize ≤ r.maxMultiPartSize) : r.afterRead = r := by
  have hfits : ¬ r.receivedTooMuch := by
    rintro (⟨hnil, -⟩ | ⟨-, hlt⟩)
    · exact hb hnil
    · omega
  simp only [afterRead, if_neg hfits, if_neg hs]

theorem afterRead_parts_status (hb : r.boundary ≠ []) (hs : r.status = .complete) :
    r.afterRead.status = if r.currentSize ≤ r.maxMultiPartSize then .complete else .abort := by
  unfold afterRead
  by_cases hw : r.currentSize ≤ r.maxMultiPartSize
  · have hfits : ¬ r.receivedTooMuch := by
      rintro (⟨hnil, -⟩ | ⟨-, hlt⟩)
      · exact hb hnil
      · omega
    simp only [if_neg hfits, if_pos hs]
    rw [decoded_status, hs, if_pos hw]
  · have hover : r.receivedTooMuch := .inr ⟨hb, by omega⟩
    simp [hover, hw]

theorem afterRead_of_abort (hs : r.status = .abort) : r.afterRead.status = .abort := by
  unfold afterRead
  split <;> simp [hs]

/-- **A block of the body is received**: the body is complete with it or not. -/
theorem AwaitsParts.take (h : r.AwaitsParts) {file : Option Bytes} {d : Bytes}
    (hfits : ((file.getD [] ++ d).length : Int) ≤ r.expectedBodySize)
    (hwhole : ((file.getD [] ++ d).length : Int) = r.expectedBodySize → file.getD [] ++ d = body) :
    (({ r with tempFile := file } : HttpRequest).takeMore d).afterRead =
        { r with tempFile := some (file.getD [] ++ d) } ∧
        ((file.getD [] ++ d).length : Int) < r.expectedBodySize ∨
      (({ r with tempFile := file } : HttpRequest).takeMore d).afterRead.status =
        r.verdict body := by
  have hlimit := h.limit
  have hs := h.status
  unfold takeMore verdict
  rw [if_neg (show ¬ ({ r with tempFile := file } : HttpRequest).boundary = [] from h.boundary)]
  dsimp only
  by_cases hlarge : r.maxMultiPartSize ≤ ((file.getD [] ++ d).length : Int)
  · -- the temp file has reached the limit, so the body has the size of the limit
    rw [if_pos hlarge, if_neg fun hc => by omega]
    exact .inr (afterRead_of_abort rfl)
  · rw [if_neg hlarge]
    by_cases hdone : r.expectedBodySize ≤ ((file.getD [] ++ d).length : Int)
    · rw [if_pos hdone]
      have hbody := hwhole (by omega)
      rw [hbody] at hlarge hdone ⊢
      have hkept := parseMultiPartFile_same { r with tempFile := some body }
      have hsize := parseMultiPartFile_fieldBytes (r := { r with tempFile := some body }) h.counter
      refine .inr ?_
      rw [afterRead_parts_status (by dsimp only; rw [hkept.boundary]; exact h.boundary) rfl]
      dsimp only
      rw [hkept.maxMultiPartSize, hsize]
      refine if_congr ⟨fun hw => ⟨by omega, hw⟩, fun hc => hc.2⟩ rfl rfl
    · rw [if_neg hdone]
      have hsame : ({ r with tempFile := some (file.getD [] ++ d) } : HttpRequest).afterRead =
          { r with tempFile := some (file.getD [] ++ d) } :=
        afterRead_parts h.boundary (by dsimp only; rw [hs]; decide) h.within
      exact .inl ⟨hsame, by omega⟩

/-- **One call of `readFromSocket`** while the body is received takes something or ends the
request. -/
theorem BodyStage.read (h : r.AwaitsParts) (hbody : (body.length : Int) = r.expectedBodySize)
    {r' : HttpRequest} {b later : Bytes} (hstage : BodyStage r body arrived r' b)
    (hlater : arrived ++ later = body) (hhungry : r'.Hungry b) :
    BodyStage r body arrived (r'.readFromSocket b).1 (r'.readFromSocket b).2 ∧
      (r'.readFromSocket b).2.length < b.length := by
  cases hstage with
  | ended hs =>
      rw [verdict] at hs
      split at hs
      · exact absurd hs hhungry.2.1
      · exact absurd hs hhungry.2.2
  | receiving file hr harrived hmissing =>
      subst hr
      have htaken : ({ r with tempFile := file } : HttpRequest).bodyTaken = (file.getD []).length :=
        if_neg h.boundary
      have hreceiving : ({ r with tempFile := file } : HttpRequest).Receiving :=
        ⟨h.status, h.isInt, by rw [htaken]; exact hmissing⟩
      obtain ⟨hroom, hle⟩ := hreceiving.room
      have hpos := List.length_pos_iff.mpr hhungry.1
      rw [htaken] at hle
      dsimp only at hle
      rw [hreceiving.call]
      generalize hn : ({ r with tempFile := file } : HttpRequest).bodyRoom.toNat = n
      have hlength : ((file.getD [] ++ b.take n).length : Int) ≤ r.expectedBodySize := by
        rw [List.length_append, List.length_take]
        omega
      have hsplit : file.getD [] ++ b.take n ++ (b.drop n ++ later) = body := by
        rw [← hlater, ← harrived, List.append_assoc, ← List.append_assoc (b.take n),
          List.take_append_drop, List.append_assoc]
      have hwhole : ((file.getD [] ++ b.take n).length : Int) = r.expectedBodySize →
          file.getD [] ++ b.take n = body := by
        intro hall
        have hrest := congrArg List.length hsplit
        rw [List.length_append] at hrest
        have hnil : b.drop n ++ later = [] := List.eq_nil_of_length_eq_zero (by omega)
        rwa [hnil, List.append_nil] at hsplit
      refine ⟨?_, by dsimp only; rw [List.length_drop]; omega⟩
      rcases h.take hlength hwhole with ⟨hsame, hmore⟩ | hended
      · refine .receiving (some (file.getD [] ++ b.take n)) hsame ?_ hmore
        dsimp only [Option.getD_some]
        rw [List.append_assoc, List.take_append_drop, harrived]
      · exact .ended hended

/-- A segment arrives. -/
theorem BodyStage.arrive {r' : HttpRequest} {b : Bytes} (h : BodyStage r body arrived r' b)
    (segment : Bytes) : BodyStage r body (arrived ++ segment) r' (b ++ segment) := by
  cases h with
  | receiving file hr harrived hmissing =>
      refine .receiving file hr ?_ hmissing
      rw [← harrived, List.append_assoc]
  | ended hs => exact .ended hs

/-- When everything has arrived and been read, the request has ended. -/
theorem BodyStage.idle (h : r.AwaitsParts) (hbody : (body.length : Int) = r.expectedBodySize)
    {r' : HttpRequest} {b : Bytes} (hstage : BodyStage r body body r' b) (hidle : ¬ r'.Hungry b) :
    r'.status = r.verdict body := by
  cases hstage with
  | ended hs => exact hs
  | receiving file hr harrived hmissing =>
      have hs : r'.status = .waitForBody := by rw [hr]; exact h.status
      have hnil : b = [] := by
        by_contra hb
        exact hidle ⟨hb, by simp [hs], by simp [hs]⟩
      rw [hnil, List.append_nil] at harrived
      rw [harrived] at hmissing
      omega

end Stages

/-! ### Multipart bodies up to the limit

The whole way of a body from the blank line on, in any segments. -/

/-- A reachable request at the blank line after its headers, which announce a boundary and a length
within the limit; what is left of the socket and the segments to come are the body. -/
structure AtMultiPart (settings : Settings) (r : HttpRequest) (socket : Bytes)
    (segments : List Bytes) :
    Prop where
  reached : ReadTo settings (fun _ _ => True) r
  hungry : r.Hungry socket
  ends : (r.appendLine socket).1.EndsHead
  boundary : (r.appendLine socket).1.announceBody.boundary ≠ []
  positive : 0 < r.announcedLength
  limit : r.announcedLength ≤ settings.maxMultiPartSize
  whole : (((r.appendLine socket).2 ++ segments.flatten).length : Int) = r.announcedLength

/-- The request that waits for its body. -/
def opened (r : HttpRequest) (socket : Bytes) : HttpRequest :=
  { (r.atBlank socket).announceBody with status := .waitForBody }

/-- Reading the blank line leaves the limit and the temp file alone. -/
theorem opened_kept (r : HttpRequest) (socket : Bytes) :
    (r.opened socket).maxMultiPartSize = r.maxMultiPartSize ∧
      (r.opened socket).tempFile = r.tempFile := by
  simp only [opened, announceBody, atBlank, appendLine, and_self]

namespace AtMultiPart

variable {settings : Settings} {r : HttpRequest} {socket : Bytes} {segments arrived : List Bytes}

theorem expected (h : AtMultiPart settings r socket segments) :
    (r.opened socket).expectedBodySize = r.announcedLength :=
  announceBody_length (r := r.atBlank socket) (Int.ne_of_gt h.positive)

theorem headState (h : AtMultiPart settings r socket segments) : HeadState settings r :=
  h.reached.headState (.inr h.ends.1)

theorem maxMultiPartSize (h : AtMultiPart settings r socket segments) :
    (r.opened socket).maxMultiPartSize = settings.maxMultiPartSize :=
  (opened_kept r socket).1.trans h.headState.maxMultiPartSize

/-- The announced length is within the limit, so the body is waited for. -/
theorem endOfHeaders (h : AtMultiPart settings r socket segments) :
    (r.atBlank socket).endOfHeaders = r.opened socket := by
  have hexpected := h.expected
  have hmax := h.maxMultiPartSize
  have hpos := h.positive
  have hlimit := h.limit
  have hzero : ¬ (r.atBlank socket).announceBody.expectedBodySize = 0 := by
    show ¬ (r.opened socket).expectedBodySize = 0
    omega
  have hplain : ¬ (r.atBlank socket).announceBody.bodyTooLarge := fun hlarge => h.boundary hlarge.1
  have hmulti : ¬ (r.atBlank socket).announceBody.multiPartTooLarge := by
    intro hlarge
    have hover : (r.opened socket).maxMultiPartSize < (r.opened socket).expectedBodySize := hlarge.2
    omega
  unfold HttpRequest.endOfHeaders
  dsimp only
  rw [if_neg hzero, if_neg hplain, if_neg hmulti]
  rfl

/-- The first call finishes the head. -/
theorem call (h : AtMultiPart settings r socket segments) :
    r.readFromSocket socket = ((r.opened socket).afterRead, (r.appendLine socket).2) := by
  have hs : r.status = .waitForHeader := h.ends.1
  simp only [readFromSocket, readStep, hs]
  rw [readHeader_endsHead h.ends, h.endOfHeaders]

theorem awaitsParts (h : AtMultiPart settings r socket segments)
    (hw : (r.appendLine socket).1.currentSize ≤ settings.maxMultiPartSize) :
    (r.opened socket).AwaitsParts := by
  have hmax := h.maxMultiPartSize
  refine ⟨rfl, h.boundary, ?_, ?_, isInt_int32 _, ?_⟩
  · rw [h.expected]
    exact toInt_isInt _
  · rw [h.expected, hmax]
    exact h.limit
  · rw [hmax]
    exact hw

/-- The state in which the body begins to be received. -/
theorem stage_start (h : AtMultiPart settings r socket segments)
    (hw : (r.appendLine socket).1.currentSize ≤ settings.maxMultiPartSize) (body : Bytes) :
    BodyStage (r.opened socket) body ((r.appendLine socket).2 ++ ([] : List Bytes).flatten)
      (r.readFromSocket socket).1 (r.readFromSocket socket).2 := by
  have hawaits := h.awaitsParts hw
  have hfile : (r.opened socket).tempFile = none := (opened_kept r socket).2.trans h.headState.file
  rw [h.call]
  dsimp only
  rw [afterRead_parts hawaits.boundary (by rw [hawaits.status]; decide) hawaits.within]
  refine .receiving none ?_ (by simp) ?_
  · rw [← hfile]
  · rw [h.expected]
    exact h.positive

/-- The next call keeps the stage. -/
theorem stage_read (h : AtMultiPart settings r socket segments)
    (hw : (r.appendLine socket).1.currentSize ≤ settings.maxMultiPartSize)
    (hpre : arrived <+: segments) {r' : HttpRequest} {b : Bytes}
    (hstage : BodyStage (r.opened socket) ((r.appendLine socket).2 ++ segments.flatten)
      ((r.appendLine socket).2 ++ arrived.flatten) r' b) (hhungry : r'.Hungry b) :
    BodyStage (r.opened socket) ((r.appendLine socket).2 ++ segments.flatten)
        ((r.appendLine socket).2 ++ arrived.flatten) (r'.readFromSocket b).1
        (r'.readFromSocket b).2 ∧ (r'.readFromSocket b).2.length < b.length := by
  obtain ⟨more, rfl⟩ := hpre
  have hlater : (r.appendLine socket).2 ++ arrived.flatten ++ more.flatten =
      (r.appendLine socket).2 ++ (arrived ++ more).flatten := by
    rw [List.flatten_append, List.append_assoc]
  exact hstage.read (h.awaitsParts hw) (by rw [h.whole, h.expected]) hlater hhungry

theorem stage_arrive {body r'} {b : Bytes} (segment : Bytes)
    (hstage : BodyStage (r.opened socket) body ((r.appendLine socket).2 ++ arrived.flatten) r' b) :
    BodyStage (r.opened socket) body ((r.appendLine socket).2 ++ (arrived ++ [segment]).flatten) r'
      (b ++ segment) := by
  have hnext := hstage.arrive segment
  rw [List.append_assoc] at hnext
  simpa using hnext

/-- **The stages of the arrival.** -/
theorem stage (h : AtMultiPart settings r socket segments)
    (hw : (r.appendLine socket).1.currentSize ≤ settings.maxMultiPartSize)
    (hpre : arrived <+: segments) {r' : HttpRequest} {b : Bytes}
    (hcontinues : Continues r socket arrived r' b) :
    (arrived = [] ∧ r' = r ∧ b = socket) ∨
      BodyStage (r.opened socket) ((r.appendLine socket).2 ++ segments.flatten)
        ((r.appendLine socket).2 ++ arrived.flatten) r' b := by
  induction hcontinues with
  | start => exact .inl ⟨rfl, rfl, rfl⟩
  | arrive segment _ hidle ih =>
      rcases ih ((List.prefix_append _ _).trans hpre) with ⟨-, rfl, rfl⟩ | hstage
      · exact absurd h.hungry hidle
      · exact .inr (stage_arrive segment hstage)
  | read _ hhungry ih =>
      rcases ih hpre with ⟨rfl, rfl, rfl⟩ | hstage
      · exact .inr (h.stage_start hw _)
      · exact .inr (h.stage_read hw hpre hstage hhungry).1

/-- The inner loop of `readHttp` ends. -/
theorem drained (h : AtMultiPart settings r socket segments)
    (hw : (r.appendLine socket).1.currentSize ≤ settings.maxMultiPartSize)
    (hpre : arrived <+: segments) {r' : HttpRequest} {b : Bytes}
    (hcontinues : Continues r socket arrived r' b)
    (hstage : BodyStage (r.opened socket) ((r.appendLine socket).2 ++ segments.flatten)
      ((r.appendLine socket).2 ++ arrived.flatten) r' b) :
    ∃ t b', Continues r socket arrived t b' ∧ ¬ t.Hungry b' ∧
      BodyStage (r.opened socket) ((r.appendLine socket).2 ++ segments.flatten)
        ((r.appendLine socket).2 ++ arrived.flatten) t b' := by
  induction hn : b.length using Nat.strongRecOn generalizing r' b with
  | _ n ih =>
      by_cases hhungry : r'.Hungry b
      · obtain ⟨hnext, hshorter⟩ := h.stage_read hw hpre hstage hhungry
        exact ih _ (by omega) (.read hcontinues hhungry) hnext rfl
      · exact ⟨r', b, hcontinues, hhungry, hstage⟩

/-- All segments arrive. -/
theorem arrives (h : AtMultiPart settings r socket segments)
    (hw : (r.appendLine socket).1.currentSize ≤ settings.maxMultiPartSize)
    (hpre : arrived <+: segments) :
    ∃ t b, Continues r socket arrived t b ∧ ¬ t.Hungry b ∧
      BodyStage (r.opened socket) ((r.appendLine socket).2 ++ segments.flatten)
        ((r.appendLine socket).2 ++ arrived.flatten) t b := by
  induction arrived using List.reverseRecOn with
  | nil => exact h.drained hw hpre (.read .start h.hungry) (h.stage_start hw _)
  | append_singleton arrived segment ih =>
      obtain ⟨t, b, hcontinues, hidle, hstage⟩ := ih ((List.prefix_append _ _).trans hpre)
      exact h.drained hw hpre (.arrive segment hcontinues hidle) (stage_arrive segment hstage)

/-- A body within the counter's limit ends as the verdict says. -/
theorem verdict_iff (h : AtMultiPart settings r socket segments)
    (hw : (r.appendLine socket).1.currentSize ≤ settings.maxMultiPartSize) :
    BodyAccepted r socket segments ↔
      (r.opened socket).verdict ((r.appendLine socket).2 ++ segments.flatten) = .complete := by
  have hawaits := h.awaitsParts hw
  have hs : r.status = .waitForHeader := h.ends.1
  have hends : ∀ {arrived r' b}, arrived <+: segments → Continues r socket arrived r' b →
      r'.status = .waitForHeader ∨ r'.status = .waitForBody ∨
        r'.status = (r.opened socket).verdict ((r.appendLine socket).2 ++ segments.flatten) := by
    intro arrived r' b hpre hcontinues
    rcases h.stage hw hpre hcontinues with ⟨-, rfl, -⟩ | ⟨file, rfl, -, -⟩ | hended
    · exact .inl hs
    · exact .inr (.inl hawaits.status)
    · exact .inr (.inr hended)
  constructor
  · rintro ⟨-, t, b, hcontinues, hdone⟩
    rcases hends (List.prefix_refl _) hcontinues with hhead | hbody | hended
    · exact nomatch hhead.symm.trans hdone
    · exact nomatch hbody.symm.trans hdone
    · exact hended.symm.trans hdone
  · intro hverdict
    refine ⟨fun arrived r' b hpre hcontinues habort => ?_, ?_⟩
    · rcases hends hpre hcontinues with hhead | hbody | hended
      · exact nomatch hhead.symm.trans habort
      · exact nomatch hbody.symm.trans habort
      · exact nomatch hverdict.symm.trans (hended.symm.trans habort)
    · obtain ⟨t, b, hcontinues, hidle, hstage⟩ := h.arrives hw (List.prefix_refl _)
      refine ⟨t, b, hcontinues, ?_⟩
      rw [hstage.idle hawaits (by rw [h.whole, h.expected]) hidle, hverdict]

/-- A head that is itself over the limit of multipart bodies ends the request. -/
theorem not_accepted_of_head (h : AtMultiPart settings r socket segments)
    (hover : settings.maxMultiPartSize < (r.appendLine socket).1.currentSize) :
    ¬ BodyAccepted r socket segments := by
  intro haccepted
  have hmax := h.maxMultiPartSize
  have htoo : (r.opened socket).receivedTooMuch := .inr ⟨h.boundary, by rw [hmax]; exact hover⟩
  refine haccepted.1 [] _ _ (List.nil_prefix) (.read .start h.hungry) ?_
  rw [h.call]
  simp only [afterRead, if_pos htoo]
  rfl

end AtMultiPart

/-- **Which multipart bodies up to the limit are accepted**: those of a request whose head, as it is
counted, is within the limit for multipart bodies, too, also together with the form fields in the
body, and whose body is shorter than this limit. -/
theorem bodyAccepted_iff {settings : Settings} {r : HttpRequest} {socket : Bytes}
    {segments : List Bytes} (h : AtMultiPart settings r socket segments) :
    BodyAccepted r socket segments ↔
      r.announcedLength < settings.maxMultiPartSize ∧
        (r.appendLine socket).1.currentSize ≤ settings.maxMultiPartSize ∧
        int32 ((r.appendLine socket).1.currentSize +
          fieldBytes (r.appendLine socket).1.announceBody.boundary
            ((r.appendLine socket).2 ++ segments.flatten)) ≤ settings.maxMultiPartSize := by
  by_cases hw : (r.appendLine socket).1.currentSize ≤ settings.maxMultiPartSize
  · have hverdict : (r.opened socket).verdict ((r.appendLine socket).2 ++ segments.flatten) =
        .complete ↔ r.announcedLength < settings.maxMultiPartSize ∧
          int32 ((r.appendLine socket).1.currentSize +
            fieldBytes (r.appendLine socket).1.announceBody.boundary
              ((r.appendLine socket).2 ++ segments.flatten)) ≤ settings.maxMultiPartSize := by
      rw [verdict, h.expected, h.maxMultiPartSize]
      exact ite_eq_left_iff.trans (not_imp_comm.trans ⟨fun hc => hc (by decide), fun hc _ => hc⟩)
    rw [h.verdict_iff hw, hverdict]
    exact ⟨fun ⟨hlength, hsum⟩ => ⟨hlength, hw, hsum⟩, fun ⟨hlength, _, hsum⟩ => ⟨hlength, hsum⟩⟩
  · exact ⟨fun haccepted => absurd haccepted (h.not_accepted_of_head (Int.not_le.mp hw)),
      fun hc => absurd hc.2.1 hw⟩

/-- A request line and headers that announce a multipart body with the boundary `b`. -/
def partsLines (length : Bytes) : List Bytes :=
  [ascii "POST / HTTP/1.1\r\n", ascii "Content-Type: multipart/form-data; boundary=b\r\n",
    ascii "Content-Length: " ++ length ++ ascii "\r\n"]

/-- A request that has read these lines. -/
def withParts (settings : Settings) (length : Bytes) : HttpRequest :=
  (new settings).afterLines (partsLines length)

theorem atMultiPart_withParts {settings : Settings} {length socket : Bytes} {segments : List Bytes}
    (h : TakesLines (new settings) (partsLines length) ∧ (withParts settings length).Hungry socket ∧
      ((withParts settings length).appendLine socket).1.EndsHead ∧
      ((withParts settings length).appendLine socket).1.announceBody.boundary ≠ [] ∧
      0 < (withParts settings length).announcedLength ∧
      (withParts settings length).announcedLength ≤ settings.maxMultiPartSize ∧
      ((((withParts settings length).appendLine socket).2 ++ segments.flatten).length : Int) =
        (withParts settings length).announcedLength) :
    AtMultiPart settings (withParts settings length) socket segments := by
  obtain ⟨htakes, hhungry, hends, hboundary, hpositive, hlimit, hwhole⟩ := h
  exact ⟨.lines .new htakes, hhungry, hends, hboundary, hpositive, hlimit, hwhole⟩

/-- A multipart body with one form field. -/
def fieldBody (value : Bytes) : Bytes :=
  ascii "--b\r\nContent-Disposition: form-data; name=\"x\"\r\n\r\n" ++ value ++
    ascii "\r\n--b--\r\n"

/-- Settings with this limit for multipart bodies. -/
def partsLimit (limit : Int) (h : IsInt limit) : Settings :=
  { defaultSettings with
    maxMultiPartSize := limit
    maxMultiPartSize_isInt := h }

theorem bodyAccepted_iff_field :
    BodyAccepted (withParts defaultSettings (ascii "59"))
      (ascii "\r\n" ++ (fieldBody (ascii "v")).take 9)
      [((fieldBody (ascii "v")).drop 9).take 30, (fieldBody (ascii "v")).drop 39] :=
  (bodyAccepted_iff (atMultiPart_withParts (by decide +kernel))).mpr
    (by decide +kernel)

/-- **Bodies up to the limit are rejected**: one of the size of the limit, one whose form field
exceeds the limit together with the head, and one of five bytes because the head does. -/
theorem not_bodyAccepted :
    let letters : Bytes := List.replicate 100 120
    let field := fieldBody (List.replicate 20 118)
    let full := partsLimit 100 (by decide)
    let small := partsLimit 50 (by decide)
    (AtMultiPart full (withParts full (ascii "100")) (ascii "\r\n") [letters] ∧
        ¬ BodyAccepted (withParts full (ascii "100")) (ascii "\r\n") [letters]) ∧
      (AtMultiPart full (withParts full (ascii "78")) (ascii "\r\n") [field] ∧
        ¬ BodyAccepted (withParts full (ascii "78")) (ascii "\r\n") [field]) ∧
      (AtMultiPart small (withParts small (ascii "5")) (ascii "\r\n") [ascii "xxxxx"] ∧
        ¬ BodyAccepted (withParts small (ascii "5")) (ascii "\r\n") [ascii "xxxxx"]) := by
  intro letters field full small
  have hletters : AtMultiPart full (withParts full (ascii "100")) (ascii "\r\n") [letters] :=
    atMultiPart_withParts (by decide +kernel)
  have hfield : AtMultiPart full (withParts full (ascii "78")) (ascii "\r\n") [field] :=
    atMultiPart_withParts (by decide +kernel)
  have hsmall : AtMultiPart small (withParts small (ascii "5")) (ascii "\r\n") [ascii "xxxxx"] :=
    atMultiPart_withParts (by decide +kernel)
  refine ⟨⟨hletters, ?_⟩, ⟨hfield, ?_⟩, hsmall, hsmall.not_accepted_of_head (by decide +kernel)⟩
  · rw [hletters.verdict_iff (by decide +kernel)]
    decide +kernel
  · rw [hfield.verdict_iff (by decide +kernel)]
    decide +kernel

end HttpRequest

end QtWebApp
