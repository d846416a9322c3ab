import QtWebApp.Parsing.Feed

/-!
# QtWebApp.Parsing.FeedBody

Bodies byte by byte.

The body of a request may be taken in any pieces: a call of `readBody` appends what it read
(`takeMore`), and taking two pieces is taking them together as long as the first does not
complete the body. At the end of a multipart body `parseMultiPartFile` adds the sizes of the
form fields to the counter; by how much does not depend on what the counter was
(`parseMultiPartFile_size`).

The body may be long, and nothing in the code looks at it before it is complete. The one thing that
pieces could change is the moment at which it is complete; a call never takes more than what is
missing, so the last byte of the body is always the last byte of some call.
-/

namespace QtWebApp

open Bytes

namespace HttpRequest

/-! ### The counter during the parsing of a multipart body

The parser only ever adds to the counter, and what it adds does not depend on the counter. So the
double count of the head is carried through it unchanged. -/

/-- The same request with another count. -/
def setSize (r : HttpRequest) (size : Int) (recounted : Nat) : HttpRequest :=
  { r with currentSize := size, recounted := recounted }

theorem exact_eq_setSize (r : HttpRequest) :
    r.exact = r.setSize (r.currentSize - r.recounted) 0 := rfl

theorem int32_add (a b : Int) : int32 (int32 a + b) = int32 (a + b) := by
  unfold int32
  omega

/-- The number of bytes in a list of lines. -/
def lineTotal (lines : List Bytes) : Nat := (lines.map List.length).sum

theorem finishPart_size (r : HttpRequest) (p : PartNames) (fieldValue : Bytes)
    (uploadedFile : Option Nat) (c : Int) (n : Nat) :
    (r.setSize c n).finishPart p fieldValue uploadedFile =
      (r.finishPart p fieldValue uploadedFile).setSize c n := by
  unfold finishPart
  split
  · rfl
  · split <;> rfl

theorem writeUpload_size (r : HttpRequest) (line : Bytes) (uploadedFile : Option Nat) (c : Int)
    (n : Nat) :
    (r.setSize c n).writeUpload line uploadedFile =
      ((r.writeUpload line uploadedFile).1.setSize c n, (r.writeUpload line uploadedFile).2) := by
  cases uploadedFile <;> rfl

/-- The data of one part adds a number to the counter that does not depend on the counter. -/
theorem readPartData_size (p : PartNames) (lines : List Bytes) (fieldValue : Bytes)
    (uploadedFile : Option Nat) (r : HttpRequest) :
    ∃ k : Nat, k + lineTotal (readPartData p lines fieldValue uploadedFile r).2.2 ≤
      lineTotal lines ∧
      ∀ c n, IsInt c → readPartData p lines fieldValue uploadedFile (r.setSize c n) =
        ((readPartData p lines fieldValue uploadedFile r).1.setSize (int32 (c + k)) n,
          (readPartData p lines fieldValue uploadedFile r).2) := by
  induction lines generalizing fieldValue uploadedFile r with
  | nil => exact ⟨0, by simp [readPartData, lineTotal], fun c n hc => by
      simp [readPartData, int32_of_isInt hc]⟩
  | cons line ls ih =>
      have htotal : lineTotal (line :: ls) = line.length + lineTotal ls := by simp [lineTotal]
      have hboundary : ∀ c n, (r.setSize c n).boundary = r.boundary := fun _ _ => rfl
      unfold readPartData
      simp only [hboundary]
      by_cases hstart : line.startsWith (ascii "--" ++ r.boundary) = true
      · simp only [hstart, if_true]
        refine ⟨0, by omega, fun c n hc => ?_⟩
        rw [finishPart_size, Int.natCast_zero, Int.add_zero, int32_of_isInt hc]
      · simp only [hstart]
        by_cases hfield : p.fileName = [] ∧ p.fieldName ≠ []
        · -- a form field: the line counts
          simp only [hfield, ne_eq, not_false_eq_true, and_self, if_true]
          obtain ⟨k, hk, hsize⟩ := ih (fieldValue ++ line) uploadedFile
            { r with currentSize := int32 (r.currentSize + line.length) }
          refine ⟨k + line.length, by simp only [Bool.false_eq_true, if_false]; omega,
            fun c n hc => ?_⟩
          have h := hsize (int32 (c + line.length)) n (isInt_int32 _)
          rw [int32_add] at h
          have hsum : c + (line.length : Int) + k = c + ((k + line.length : Nat) : Int) := by omega
          rw [hsum] at h
          exact h
        · simp only [hfield, if_false]
          by_cases hfile : p.fileName ≠ [] ∧ p.fieldName ≠ []
          · simp only [hfile, ne_eq, not_false_eq_true, and_self, if_true, writeUpload_size]
            obtain ⟨k, hk, hsize⟩ := ih fieldValue (some (r.writeUpload line uploadedFile).2)
              (r.writeUpload line uploadedFile).1
            exact ⟨k, by simp only [Bool.false_eq_true, if_false]; omega,
              fun c n hc => hsize c n hc⟩
          · simp only [hfile, if_false]
            obtain ⟨k, hk, hsize⟩ := ih fieldValue uploadedFile r
            exact ⟨k, by simp only [Bool.false_eq_true, if_false]; omega,
              fun c n hc => hsize c n hc⟩

theorem readPartHeaders_total (lines : List Bytes) (p : PartNames) :
    lineTotal (readPartHeaders lines p).2 ≤ lineTotal lines := by
  induction lines generalizing p with
  | nil => exact Nat.le_refl _
  | cons l ls ih =>
      have htotal : lineTotal (l :: ls) = l.length + lineTotal ls := by simp [lineTotal]
      unfold readPartHeaders
      dsimp only
      split
      · have := ih (disposition (trimmed l) p)
        omega
      · split
        · show lineTotal ls ≤ _
          omega
        · have := ih p
          omega

theorem readParts_size (fuel : Nat) (lines : List Bytes) (r : HttpRequest) :
    ∃ k : Nat, k ≤ lineTotal lines ∧ ∀ c n, IsInt c →
      readParts fuel lines (r.setSize c n) = (readParts fuel lines r).setSize
        (int32 (c + k)) n := by
  induction fuel generalizing lines r with
  | zero => exact ⟨0, by omega, fun c n hc => by simp [readParts, int32_of_isInt hc]⟩
  | succ fuel ih =>
      cases lines with
      | nil => exact ⟨0, by omega, fun c n hc => by simp [readParts, int32_of_isInt hc]⟩
      | cons l ls =>
          have hheaders := readPartHeaders_total (l :: ls) ⟨[], []⟩
          unfold readParts
          dsimp only
          obtain ⟨k, hk, hsize⟩ := readPartData_size (readPartHeaders (l :: ls) ⟨[], []⟩).1
            (readPartHeaders (l :: ls) ⟨[], []⟩).2 [] none r
          generalize hres : readPartData (readPartHeaders (l :: ls) ⟨[], []⟩).1
            (readPartHeaders (l :: ls) ⟨[], []⟩).2 [] none r = res at hk hsize ⊢
          by_cases hfinished : res.2.1 = true
          · refine ⟨k, by omega, fun c n hc => ?_⟩
            rw [hsize c n hc]
            simp only [hfinished, if_true]
          · obtain ⟨k', hk', hsize'⟩ := ih res.2.2 res.1
            refine ⟨k + k', by omega, fun c n hc => ?_⟩
            rw [hsize c n hc]
            simp only [hfinished]
            have h := hsize' (int32 (c + k)) n (isInt_int32 _)
            rw [int32_add] at h
            have hsum : c + (k : Int) + k' = c + ((k + k' : Nat) : Int) := by omega
            rw [hsum] at h
            exact h

theorem lineTotal_fileLines (n : Nat) (file : Bytes) :
    lineTotal (fileLines n file) ≤ file.length := by
  induction n generalizing file with
  | zero => simp [fileLines, lineTotal]
  | succ n ih =>
      cases file with
      | nil => simp [fileLines, lineTotal]
      | cons c cs =>
          have hsplit := congrArg List.length (lineUpTo_append 65536 (c :: cs))
          have hrest := ih (lineUpTo 65536 (c :: cs)).2
          have htotal : lineTotal (fileLines (n + 1) (c :: cs)) =
              (lineUpTo 65536 (c :: cs)).1.length +
                lineTotal (fileLines n (lineUpTo 65536 (c :: cs)).2) := by
            simp [fileLines, lineTotal]
          rw [List.length_append] at hsplit
          omega

/-- **The counter during the parsing of a multipart body**: at most the size of the file is
added, and how much does not depend on the counter. -/
theorem parseMultiPartFile_size (r : HttpRequest) :
    ∃ k : Nat, k ≤ (r.tempFile.getD []).length ∧ ∀ c n, IsInt c →
      (r.setSize c n).parseMultiPartFile = r.parseMultiPartFile.setSize (int32 (c + k)) n := by
  obtain ⟨k, hk, hsize⟩ := readParts_size
    (fileLines (r.tempFile.getD []).length (r.tempFile.getD [])).length
    (fileLines (r.tempFile.getD []).length (r.tempFile.getD [])) r
  exact ⟨k, hk.trans (lineTotal_fileLines _ _), hsize⟩

/-- Without overflow, counting once and parsing can be exchanged. -/
theorem parseMultiPartFile_exact {r : HttpRequest} (hc : (r.recounted : Int) ≤ r.currentSize)
    (hfit : r.currentSize + (r.tempFile.getD []).length ≤ intMax) :
    r.exact.parseMultiPartFile = r.parseMultiPartFile.exact := by
  have hmax : r.currentSize + (r.tempFile.getD []).length ≤ 2147483647 := hfit
  obtain ⟨k, hk, hsize⟩ := parseMultiPartFile_size r
  have hself : r.parseMultiPartFile =
      r.parseMultiPartFile.setSize (int32 (r.currentSize + k)) r.recounted :=
    hsize r.currentSize r.recounted ⟨by omega, by omega⟩
  rw [exact_eq_setSize, hsize _ _ ⟨by omega, by omega⟩, exact_eq_setSize, hself,
    int32_of_isInt ⟨by omega, by omega⟩, int32_of_isInt ⟨by omega, by omega⟩]
  simp only [setSize]
  congr 1
  omega

/-! ### Pieces of a body

A call of `readBody` as a function of the bytes that it takes, which are at most those that are
missing. The induction over a body goes byte by byte. -/

/-- The number of bytes that a call of `readBody` asks for. -/
def bodyRoom (r : HttpRequest) : Int :=
  if r.boundary = [] then int32 (r.expectedBodySize - r.bodyData.length)
  else min (int32 (r.expectedBodySize - (r.tempFile.getD []).length)) 65536

/-- What `readBody` does with the bytes it has read. -/
def takeMore (r : HttpRequest) (d : Bytes) : HttpRequest :=
  if r.boundary = [] then
    if r.expectedBodySize ≤ ((r.bodyData ++ d).length : Int) then
      { r with
          currentSize := int32 (r.currentSize + d.length)
          bodyData := r.bodyData ++ d
          status := .complete }
    else { r with currentSize := int32 (r.currentSize + d.length), bodyData := r.bodyData ++ d }
  else if r.maxMultiPartSize ≤ ((r.tempFile.getD [] ++ d).length : Int) then
    { r with tempFile := some (r.tempFile.getD [] ++ d), status := .abort }
  else if r.expectedBodySize ≤ ((r.tempFile.getD [] ++ d).length : Int) then
    { ({ r with tempFile := some (r.tempFile.getD [] ++ d) } : HttpRequest).parseMultiPartFile with
        status := .complete }
  else { r with tempFile := some (r.tempFile.getD [] ++ d) }

theorem readBody_eq (r : HttpRequest) (socket : Bytes) :
    r.readBody socket =
      (r.takeMore (socket.take r.bodyRoom.toNat), socket.drop r.bodyRoom.toNat) := by
  unfold readBody takeMore bodyRoom
  by_cases hb : r.boundary = []
  · rw [if_pos hb, if_pos hb, if_pos hb]
    unfold readPlainBody readData
    dsimp only
  · rw [if_neg hb, if_neg hb, if_neg hb]
    unfold readMultiPartBody readData
    dsimp only
    split
    · rfl
    · split <;> rfl

/-- A request whose announced body has begun to arrive, everything being within the limits. -/
structure Expecting (r : HttpRequest) : Prop where
  status : r.status = .waitForBody
  positive : 0 < r.expectedBodySize
  isInt : IsInt r.expectedBodySize
  counted : (r.recounted : Int) ≤ r.currentSize
  plain : r.boundary = [] → (r.bodyData.length : Int) < r.expectedBodySize ∧
    r.currentSize + (r.expectedBodySize - r.bodyData.length) ≤ r.maxSize
  multi : r.boundary ≠ [] → ((r.tempFile.getD []).length : Int) < r.expectedBodySize ∧
    r.expectedBodySize ≤ r.maxMultiPartSize ∧ r.currentSize ≤ r.maxMultiPartSize ∧
    r.currentSize + r.expectedBodySize ≤ intMax
  limit : r.maxSize < intMax

/-- The number of bytes of the body that are there. -/
def bodyTaken (r : HttpRequest) : Nat :=
  if r.boundary = [] then r.bodyData.length else (r.tempFile.getD []).length

theorem Expecting.busy {r : HttpRequest} (h : r.Expecting) : r.Busy ∧ ¬ r.Overdue := by
  have hp := h.positive
  exact ⟨by simp [Busy, h.status], fun ho => by have := ho.2; omega⟩

theorem Expecting.exact {r : HttpRequest} (h : r.Expecting) : r.exact.Expecting := by
  have hc := h.counted
  have hsize : r.exact.currentSize ≤ r.currentSize := by simp only [HttpRequest.exact]; omega
  refine ⟨h.status, h.positive, h.isInt, ?_, fun hb => ?_, fun hb => ?_, h.limit⟩
  · simp only [HttpRequest.exact, Int.natCast_zero]
    omega
  · obtain ⟨h₁, h₂⟩ := h.plain hb
    exact ⟨h₁, by simp only [HttpRequest.exact] at hsize ⊢; omega⟩
  · obtain ⟨h₁, h₂, h₃, h₄⟩ := h.multi hb
    exact ⟨h₁, h₂, by simp only [HttpRequest.exact] at hsize ⊢; omega,
      by simp only [HttpRequest.exact] at hsize ⊢; omega⟩

/-- While something of the body is missing, a call asks for something, and for no more than that. -/
theorem bodyRoom_of_missing {r : HttpRequest} (hint : IsInt r.expectedBodySize)
    (hmissing : (r.bodyTaken : Int) < r.expectedBodySize) :
    0 < r.bodyRoom ∧ r.bodyRoom + r.bodyTaken ≤ r.expectedBodySize := by
  have hi : r.expectedBodySize ≤ 2147483647 := hint.2
  unfold bodyTaken at hmissing ⊢
  unfold bodyRoom
  by_cases hb : r.boundary = []
  · rw [if_pos hb] at hmissing ⊢
    rw [if_pos hb, int32_of_isInt ⟨by omega, by omega⟩]
    omega
  · rw [if_neg hb] at hmissing ⊢
    rw [if_neg hb, int32_of_isInt ⟨by omega, by omega⟩]
    omega

theorem Expecting.room {r : HttpRequest} (h : r.Expecting) :
    0 < r.bodyRoom ∧ r.bodyRoom + r.bodyTaken ≤ r.expectedBodySize := by
  refine bodyRoom_of_missing h.isInt ?_
  unfold bodyTaken
  by_cases hb : r.boundary = []
  · rw [if_pos hb]
    exact (h.plain hb).1
  · rw [if_neg hb]
    exact (h.multi hb).1

theorem Expecting.afterRead {r : HttpRequest} (h : r.Expecting) : r.afterRead = r := by
  have hin : ¬ r.receivedTooMuch := by
    intro htoo
    rcases htoo with ⟨hb, hlt⟩ | ⟨hb, hlt⟩
    · have := h.plain hb
      omega
    · have := h.multi hb
      omega
  simp [HttpRequest.afterRead, hin, h.status]

/-! ### Pieces put together

Two pieces are taken as one, and so a body can be fed byte by byte. -/

/-- A piece that does not complete the body. -/
theorem takeMore_part {r : HttpRequest} (h : r.Expecting) {d : Bytes}
    (hd : (r.bodyTaken + d.length : Int) < r.expectedBodySize) :
    r.takeMore d =
      if r.boundary = [] then
        { r with currentSize := r.currentSize + d.length, bodyData := r.bodyData ++ d }
      else { r with tempFile := some (r.tempFile.getD [] ++ d) } := by
  have hc := h.counted
  have hl : r.maxSize < 2147483647 := h.limit
  unfold takeMore bodyTaken at *
  by_cases hb : r.boundary = []
  · obtain ⟨hlt, hfit⟩ := h.plain hb
    rw [if_pos hb] at hd
    rw [if_pos hb, if_pos hb, if_neg (by rw [List.length_append]; omega),
      int32_of_isInt ⟨by omega, by omega⟩]
  · obtain ⟨hlt, hmax, -, -⟩ := h.multi hb
    rw [if_neg hb] at hd
    rw [if_neg hb, if_neg hb, if_neg (by rw [List.length_append]; omega),
      if_neg (by rw [List.length_append]; omega)]

theorem Expecting.takeMore {r : HttpRequest} (h : r.Expecting) {d : Bytes}
    (hd : (r.bodyTaken + d.length : Int) < r.expectedBodySize) : (r.takeMore d).Expecting := by
  have hc := h.counted
  rw [takeMore_part h hd]
  unfold bodyTaken at hd
  by_cases hb : r.boundary = []
  · obtain ⟨hlt, hfit⟩ := h.plain hb
    rw [if_pos hb] at hd ⊢
    refine ⟨h.status, h.positive, h.isInt, ?_, fun _ => ⟨?_, ?_⟩, fun hne => absurd hb hne, h.limit⟩
    · show (r.recounted : Int) ≤ r.currentSize + d.length
      omega
    · show ((r.bodyData ++ d).length : Int) < r.expectedBodySize
      rw [List.length_append]
      omega
    · show r.currentSize + d.length + (r.expectedBodySize - (r.bodyData ++ d).length) ≤ r.maxSize
      rw [List.length_append]
      omega
  · obtain ⟨hlt, hrest⟩ := h.multi hb
    rw [if_neg hb] at hd ⊢
    refine ⟨h.status, h.positive, h.isInt, hc, fun he => absurd he hb, fun _ =>
      ⟨?_, hrest⟩, h.limit⟩
    show ((r.tempFile.getD [] ++ d).length : Int) < r.expectedBodySize
    rw [List.length_append]
    omega

/-- Two pieces, the first of which does not complete the body, are one. -/
theorem takeMore_takeMore {r : HttpRequest} (h : r.Expecting) {d e : Bytes}
    (hd : (r.bodyTaken + d.length : Int) < r.expectedBodySize) :
    (r.takeMore d).takeMore e = r.takeMore (d ++ e) ∧
      (r.takeMore d).bodyTaken = r.bodyTaken + d.length ∧
      (r.takeMore d).expectedBodySize = r.expectedBodySize := by
  rw [takeMore_part h hd]
  by_cases hb : r.boundary = []
  · rw [if_pos hb]
    refine ⟨?_, ?_, rfl⟩
    · unfold takeMore
      simp only [hb, if_true, List.append_assoc, List.length_append, Int.natCast_add, Int.add_assoc]
    · simp [bodyTaken, hb]
  · rw [if_neg hb]
    refine ⟨?_, ?_, rfl⟩
    · unfold takeMore
      simp only [hb, if_false, Option.getD_some, List.append_assoc]
    · simp [bodyTaken, hb]

theorem feed_waitForBody {r : HttpRequest} (hs : r.status = .waitForBody) (hroom : 0 < r.bodyRoom)
    (c : UInt8) : r.feed c = (r.takeMore [c]).afterRead := by
  have htake : ([c] : Bytes).take r.bodyRoom.toNat = [c] :=
    List.take_of_length_le (by rw [List.length_singleton]; omega)
  simp only [feed, hs, readBody_eq, htake]

/-- Bytes of a body, fed one after the other. -/
theorem feeds_body {r : HttpRequest} (h : r.Expecting) {d : Bytes} (hne : d ≠ [])
    (hroom : (r.bodyTaken + d.length : Int) ≤ r.expectedBodySize) :
    Feeds r d (r.takeMore d).afterRead := by
  induction d generalizing r with
  | nil => exact absurd rfl hne
  | cons c d ih =>
      have hfeed := feed_waitForBody h.status h.room.1 c
      rcases eq_or_ne d [] with rfl | hd
      · rw [← hfeed]
        exact .one r c
      · have hlen : 0 < d.length := List.length_pos_iff.mpr hd
        rw [List.length_cons] at hroom
        have hpart : (r.bodyTaken + ([c] : Bytes).length : Int) < r.expectedBodySize := by
          rw [List.length_singleton]
          omega
        have hnext := h.takeMore hpart
        obtain ⟨htwo, htaken, hexpected⟩ := takeMore_takeMore (e := d) h hpart
        rw [List.length_singleton] at htaken
        have hrest := ih hnext hd (by rw [htaken, hexpected]; omega)
        rw [htwo, List.singleton_append] at hrest
        rw [hnext.afterRead] at hfeed
        exact .more (by rw [hfeed]; exact hnext.busy.1) (by rw [hfeed]; exact hnext.busy.2)
          (by rw [hfeed]; exact hrest)

/-- Counting once and taking a piece of the body can be exchanged. -/
theorem takeMore_exact {r : HttpRequest} (h : r.Expecting) {d : Bytes}
    (hroom : (r.bodyTaken + d.length : Int) ≤ r.expectedBodySize) :
    r.exact.takeMore d = (r.takeMore d).exact := by
  have hc := h.counted
  have hl : r.maxSize < 2147483647 := h.limit
  unfold takeMore
  by_cases hb : r.boundary = []
  · obtain ⟨hlt, hfit⟩ := h.plain hb
    unfold bodyTaken at hroom
    rw [if_pos hb] at hroom
    have hsize : int32 (r.exact.currentSize + d.length) =
        int32 (r.currentSize + d.length) - r.recounted := by
      rw [int32_of_isInt ⟨by simp only [exact]; omega, by simp only [exact]; omega⟩,
        int32_of_isInt ⟨by omega, by omega⟩]
      simp only [exact]
      omega
    rw [if_pos (show r.exact.boundary = [] from hb), if_pos hb, hsize]
    show (if r.expectedBodySize ≤ ((r.bodyData ++ d).length : Int) then _ else _) = _
    by_cases hdone : r.expectedBodySize ≤ ((r.bodyData ++ d).length : Int)
    · rw [if_pos hdone, if_pos hdone]
      rfl
    · rw [if_neg hdone, if_neg hdone]
      rfl
  · obtain ⟨hlt, hmax, hcur, hfit⟩ := h.multi hb
    unfold bodyTaken at hroom
    rw [if_neg hb] at hroom
    rw [if_neg (show ¬ r.exact.boundary = [] from hb), if_neg hb]
    show (if r.maxMultiPartSize ≤ ((r.tempFile.getD [] ++ d).length : Int) then _ else _) = _
    by_cases hlarge : r.maxMultiPartSize ≤ ((r.tempFile.getD [] ++ d).length : Int)
    · rw [if_pos hlarge, if_pos hlarge]
      rfl
    · rw [if_neg hlarge, if_neg hlarge]
      show (if r.expectedBodySize ≤ ((r.tempFile.getD [] ++ d).length : Int) then _ else _) = _
      by_cases hdone : r.expectedBodySize ≤ ((r.tempFile.getD [] ++ d).length : Int)
      · rw [if_pos hdone, if_pos hdone]
        have hparse := parseMultiPartFile_exact
          (r := { r with tempFile := some (r.tempFile.getD [] ++ d) }) hc
          (by simp only [Option.getD_some, List.length_append]; omega)
        show { HttpRequest.parseMultiPartFile _ with status := RequestStatus.complete } = _
        exact congrArg (fun s : HttpRequest => { s with status := .complete }) hparse
      · rw [if_neg hdone, if_neg hdone]
        rfl

/-- **A call for a body** does to the request what feeding it the bytes that it consumed does. -/
theorem feeds_body_call {r : HttpRequest} (h : r.Expecting) {b : Bytes} (hb : b ≠ [])
    (hm : r.ReadMeets b) :
    ∃ d, d ≠ [] ∧ b = d ++ (r.readFromSocket b).2 ∧
      Feeds r.exact d (r.readFromSocket b).1.exact := by
  obtain ⟨hroom, hfit⟩ := h.room
  have hreceived := hm.received
  have hstep : r.readStep b =
      (r.takeMore (b.take r.bodyRoom.toNat), b.drop r.bodyRoom.toNat) := by
    simp only [readStep, h.status, readBody_eq]
  have hlen : ((b.take r.bodyRoom.toNat).length : Int) ≤ r.bodyRoom := by
    rw [List.length_take]
    omega
  have hne : b.take r.bodyRoom.toNat ≠ [] := by
    intro he
    have hzero := congrArg List.length he
    rw [List.length_take, List.length_nil] at hzero
    have hpos := List.length_pos_iff.mpr hb
    omega
  have hfeeds := feeds_body h.exact hne
    (show ((r.bodyTaken : Int) + _) ≤ r.expectedBodySize by omega)
  rw [hstep] at hreceived
  rw [takeMore_exact h (by omega), afterRead_exact hreceived] at hfeeds
  refine ⟨b.take r.bodyRoom.toNat, hne, ?_, ?_⟩
  · rw [readFromSocket, hstep]
    exact (List.take_append_drop _ _).symm
  · rw [readFromSocket, hstep]
    exact hfeeds

/-! ### What a request can be between two calls

Besides a head and a body there is a third state: a body of negative length was announced. The next
call ends such a request and takes nothing. -/

/-- When a request still needs data, the checks after a read have changed nothing. -/
theorem afterRead_of_busy {r : HttpRequest} (h : r.afterRead.Busy) :
    r.afterRead = r ∧ ¬ r.receivedTooMuch ∧ r.Busy := by
  by_cases htoo : r.receivedTooMuch
  · have habort : r.afterRead.status = .abort := by simp [afterRead, htoo]
    exact absurd habort h.2
  · by_cases hdone : r.status = .complete
    · have hcomplete : r.afterRead.status = .complete := by
        simp only [afterRead, if_neg htoo, if_pos hdone]
        rw [decoded_status, hdone]
      exact absurd hcomplete h.1
    · have hsame : r.afterRead = r := by simp [afterRead, htoo, hdone]
      rw [hsame] at h
      exact ⟨hsame, htoo, h⟩

/-- A request that waits for the body of a negative length. -/
structure Due (r : HttpRequest) : Prop where
  overdue : r.Overdue
  isInt : IsInt r.expectedBodySize
  body : r.bodyData = []
  file : r.tempFile = none
  counted : (r.recounted : Int) ≤ r.currentSize
  size : r.currentSize ≤ intMax

/-- The next look at a request that waits for the body of a negative length. -/
def settle (r : HttpRequest) : HttpRequest := (r.takeMore []).afterRead

/-- The call consumes nothing and ends the request. -/
theorem Due.call {r : HttpRequest} (h : r.Due) (b : Bytes) :
    r.readFromSocket b = (r.settle, b) ∧ r.readStep b = (r.takeMore [], b) ∧ ¬ r.settle.Busy := by
  have hneg := h.overdue.2
  have hroom : r.bodyRoom.toNat = 0 := by
    unfold bodyRoom
    rw [h.body, h.file]
    show (if _ then int32 (r.expectedBodySize - 0)
      else min (int32 (r.expectedBodySize - 0)) 65536).toNat = 0
    rw [Int.sub_zero, int32_of_isInt h.isInt]
    split <;> omega
  have hstep : r.readStep b = (r.takeMore [], b) := by
    simp only [readStep, h.overdue.1, readBody_eq, hroom, List.take_zero, List.drop_zero]
  have hdone : (r.takeMore []).status = .complete ∨ (r.takeMore []).status = .abort := by
    unfold takeMore
    rw [h.body, h.file]
    split_ifs
    all_goals first
      | exact .inl rfl
      | exact .inr rfl
      | (exfalso; simp only [Option.getD_none, List.append_nil, List.length_nil] at *; omega)
  refine ⟨by rw [readFromSocket, hstep]; rfl, hstep, fun hbusy => ?_⟩
  exact hdone.elim (afterRead_of_busy hbusy).2.2.1 (afterRead_of_busy hbusy).2.2.2

/-- Counting once makes no difference to it. -/
theorem Due.settle_exact {r : HttpRequest} (h : r.Due) {b : Bytes} (hm : r.ReadMeets b) :
    r.exact.settle = r.settle.exact := by
  have hneg := h.overdue.2
  have hc := h.counted
  have hsize : r.currentSize ≤ 2147483647 := h.size
  have hreceived := hm.received
  rw [(h.call b).2.1] at hreceived
  have htake : r.exact.takeMore [] = (r.takeMore []).exact := by
    have hcount : int32 (r.exact.currentSize + (([] : Bytes).length : Int)) =
        int32 (r.currentSize + (([] : Bytes).length : Int)) - r.recounted := by
      simp only [List.length_nil, Int.natCast_zero, Int.add_zero]
      rw [int32_of_isInt ⟨by simp only [exact]; omega, by simp only [exact]; omega⟩,
        int32_of_isInt ⟨by omega, by omega⟩]
      rfl
    have hparse := parseMultiPartFile_exact
      (r := { r with tempFile := some (r.tempFile.getD [] ++ []) }) hc
      (by rw [h.file]; exact (Int.add_zero r.currentSize).symm ▸ h.size)
    unfold takeMore
    rw [hcount]
    show (if r.boundary = []
      then (if r.expectedBodySize ≤ ((r.bodyData ++ []).length : Int) then _ else _)
      else if r.maxMultiPartSize ≤ ((r.tempFile.getD [] ++ []).length : Int) then _
      else if r.expectedBodySize ≤ ((r.tempFile.getD [] ++ []).length : Int) then _ else _) = _
    split_ifs
    all_goals first
      | rfl
      | exact congrArg (fun s : HttpRequest => { s with status := .complete }) hparse
  unfold settle
  rw [htake, afterRead_exact hreceived]

end HttpRequest

end QtWebApp
