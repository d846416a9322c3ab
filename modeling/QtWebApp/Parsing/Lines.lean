import QtWebApp.HttpServer.HttpRequest

/-!
# QtWebApp.Parsing.Lines

What one call of `readFromSocket` does when a whole line is waiting, and the runs of such
calls.

A line that fits into the size limit is read as a whole and counted once (`takeLine`), so a
call is then `finishRequestLine` or `finishHeaderLine` on the request that holds it. A line
that does not fit aborts the request.

`Reads` is the inner loop of `readHttp` as a relation between requests with the bytes that
are waiting for them: calls of `readFromSocket` for as long as there are bytes and the
request is neither complete nor aborted.

The counter is exact between two lines as long as every line is read in one call (`AtLine`). What
happens to it when a line comes in several pieces is the subject of other modules.
-/

namespace QtWebApp

open Bytes

namespace HttpRequest

/-! ### Runs of calls

The relation has no fuel. A run exists only if the loop ends, and then it is the only one. -/

/-- `readHttp` calls `readFromSocket` once more. -/
def Hungry (r : HttpRequest) (socket : Bytes) : Prop :=
  socket ≠ [] ∧ r.status ≠ .complete ∧ r.status ≠ .abort

instance (r : HttpRequest) (socket : Bytes) : Decidable (r.Hungry socket) := by
  unfold Hungry; infer_instance

/-- The calls of `readFromSocket` made by the inner loop of `readHttp`, from the request and the
bytes in the socket before to those after. -/
inductive Reads : HttpRequest → Bytes → HttpRequest → Bytes → Prop
  | stop {r b} : ¬ r.Hungry b → Reads r b r b
  | more {r b r' b'} : r.Hungry b →
      Reads (r.readFromSocket b).1 (r.readFromSocket b).2 r' b' → Reads r b r' b'

theorem reads_of_done {r : HttpRequest} {b : Bytes}
    (hdone : r.status = .complete ∨ r.status = .abort) : Reads r b r b :=
  .stop fun hh => hdone.elim hh.2.1 hh.2.2

/-- Without bytes nothing is read. -/
theorem reads_nil (r : HttpRequest) : Reads r [] r [] := .stop fun hh => hh.1 rfl

/-- One call whose result is known, and the run from there. -/
theorem Reads.step {r r₁ r' : HttpRequest} {b b₁ b' : Bytes} (hh : r.Hungry b)
    (hcall : r.readFromSocket b = (r₁, b₁)) (htail : Reads r₁ b₁ r' b') : Reads r b r' b' :=
  .more hh (by rw [hcall]; exact htail)

/-! ### A whole line

A read stops at the first line feed, so whatever follows the line in the socket stays there. -/

/-- The request with a whole line in its line buffer, counted; `x` is without the line feed. -/
def takeLine (r : HttpRequest) (x : Bytes) : HttpRequest :=
  { r with
      lineBuffer := x ++ [LF]
      currentSize := r.currentSize + (x.length + 1) }

/-- A request between two lines of its head, the size counter being right and within the
limit. -/
structure AtLine (r : HttpRequest) : Prop where
  buffer : r.lineBuffer = []
  boundary : r.boundary = []
  nonneg : 0 ≤ r.currentSize
  within : r.currentSize ≤ r.maxSize
  limit : r.maxSize < intMax
  isInt : IsInt r.maxSize

theorem AtLine.toRead {r : HttpRequest} (h : r.AtLine) :
    r.toRead = r.maxSize - r.currentSize + 1 := by
  have hn := h.nonneg
  have hw := h.within
  have hl : r.maxSize < 2147483647 := h.limit
  unfold HttpRequest.toRead
  rw [int32_of_isInt (n := r.maxSize - r.currentSize) ⟨by omega, by omega⟩,
    int32_of_isInt ⟨by omega, by omega⟩]

/-- A line that fits is taken as a whole. -/
theorem appendLine_whole {r : HttpRequest} (h : r.AtLine) {x : Bytes} (hx : LF ∉ x)
    (hfit : r.currentSize + (x.length + 1) ≤ r.maxSize) (rest : Bytes) :
    r.appendLine (x ++ LF :: rest) = (r.takeLine x, rest) := by
  have hn := h.nonneg
  have hl : r.maxSize < 2147483647 := h.limit
  have hread : readLine (x ++ LF :: rest) r.toRead = (x ++ [LF], rest) := by
    rw [h.toRead, readLine_pos (by omega), lineUpTo_line hx (by omega)]
  have hcount : int32 (r.currentSize + (x ++ [LF]).length) = r.currentSize + (x.length + 1) := by
    rw [int32_of_isInt ⟨by simp; omega, by simp; omega⟩]
    simp
  unfold appendLine
  rw [hread]
  simp only [h.buffer, List.nil_append, hcount, List.length_nil, Nat.add_zero, takeLine]

/-- A line that does not fit is read just far enough to exceed the limit. -/
theorem appendLine_too_long {r : HttpRequest} (h : r.AtLine) {x : Bytes} (rest : Bytes)
    (hx : LF ∉ x) (hlong : r.maxSize < r.currentSize + (x.length + 1)) :
    (r.appendLine (x ++ LF :: rest)).1.currentSize = r.maxSize + 1 := by
  have hn := h.nonneg
  have hw := h.within
  have hl : r.maxSize < 2147483647 := h.limit
  obtain ⟨n, hn'⟩ : ∃ n : Nat, (n : Int) = r.maxSize - r.currentSize + 1 :=
    ⟨(r.maxSize - r.currentSize + 1).toNat, by omega⟩
  have hlen : (lineUpTo n (x ++ LF :: rest)).1.length = n := by
    rcases Nat.lt_or_ge x.length n with hlt | hge
    · rw [lineUpTo_line hx hlt]
      simp only [List.length_append, List.length_singleton]
      omega
    · have htake : (x ++ LF :: rest).take n = x.take n := List.take_append_of_le_length hge
      rw [lineUpTo_noLF (by rw [htake]; exact fun hmem => hx (List.mem_of_mem_take hmem)), htake]
      simpa using hge
  have hread : readLine (x ++ LF :: rest) r.toRead = lineUpTo n (x ++ LF :: rest) := by
    rw [h.toRead, readLine_pos (by omega), ← hn']
    rfl
  simp only [appendLine, hread, h.buffer, List.nil_append, hlen]
  rw [int32_of_isInt ⟨by omega, by omega⟩]
  omega

/-! ### What follows a line

The checks at the end of a call, for a request that is not multipart. They let pass what is within
the limit, and decode the parameters and cookies of a request that is complete. -/

theorem not_receivedTooMuch {r : HttpRequest} (hb : r.boundary = [])
    (hw : r.currentSize ≤ r.maxSize) :
    ¬ r.receivedTooMuch := by
  rintro (⟨-, hlt⟩ | ⟨hne, -⟩)
  · omega
  · exact hne hb

/-- Decoding the parameters and the cookies leaves the status as it is. -/
theorem decoded_status (r : HttpRequest) :
    r.decodeRequestParams.extractCookies.status = r.status := rfl

/-- More bytes than allowed abort a request without boundary. -/
theorem afterRead_abort {r : HttpRequest} (hb : r.boundary = []) (hlt : r.maxSize < r.currentSize) :
    r.afterRead.status = .abort := by
  have htoo : r.receivedTooMuch := .inl ⟨hb, hlt⟩
  simp [afterRead, htoo]

theorem afterRead_within {r : HttpRequest} (hb : r.boundary = []) (hw : r.currentSize ≤ r.maxSize)
    (hs : r.status ≠ .complete) : r.afterRead = r := by
  simp [afterRead, not_receivedTooMuch hb hw, hs]

theorem afterRead_complete {r : HttpRequest} (hb : r.boundary = [])
    (hw : r.currentSize ≤ r.maxSize) (hs : r.status = .complete) :
    r.afterRead = r.decodeRequestParams.extractCookies := by
  simp [afterRead, not_receivedTooMuch hb hw, hs]

@[simp] theorem trimmed_line (x : Bytes) : trimmed (x ++ [LF]) = trimmed x :=
  trimmed_append_space (by decide)

/-- A call in the state `waitForRequest` with a whole line waiting. -/
theorem readFromSocket_requestLine {r : HttpRequest} (h : r.AtLine)
    (hs : r.status = .waitForRequest) {x : Bytes} (hx : LF ∉ x)
    (hfit : r.currentSize + (x.length + 1) ≤ r.maxSize) (rest : Bytes) :
    r.readFromSocket (x ++ LF :: rest) = ((r.takeLine x).finishRequestLine.afterRead, rest) := by
  simp only [readFromSocket, readStep, hs, readRequest, appendLine_whole h hx hfit]

/-- A call in the state `waitForHeader` with a whole line waiting. -/
theorem readFromSocket_headerLine {r : HttpRequest} (h : r.AtLine)
    (hs : r.status = .waitForHeader) {x : Bytes} (hx : LF ∉ x)
    (hfit : r.currentSize + (x.length + 1) ≤ r.maxSize) (rest : Bytes) :
    r.readFromSocket (x ++ LF :: rest) = ((r.takeLine x).finishHeaderLine.afterRead, rest) := by
  simp only [readFromSocket, readStep, hs, readHeader, appendLine_whole h hx hfit]

/-! ### The lines of a head

The first line has three words, the others are headers or continue one. What a list of header lines
makes of the header map is a fold over the lines (`headerAfter`). -/

/-- What a header line that is not blank does to the headers and the name of the last one. -/
def headerAfter (s : QMultiMap × Bytes) (line : Bytes) : QMultiMap × Bytes :=
  let colon := line.indexOf [58] 0
  if 0 < colon then
    (s.1.insert (toLower (line.left colon)) (trimmed (line.mid (colon + 1))),
      toLower (line.left colon))
  else if s.1.contains s.2 then (s.1.insert s.2 (s.1.value s.2 ++ ascii " " ++ line), s.2)
  else s

/-- The headers that a list of header lines makes. -/
def headersOf (lines : List Bytes) : QMultiMap × Bytes :=
  lines.foldl (fun s x => headerAfter s (trimmed x)) (.empty, [])

/-- The lines as they are sent. -/
def lineBytes (lines : List Bytes) : Bytes := lines.flatMap (· ++ [LF])

theorem lineBytes_cons (x : Bytes) (xs : List Bytes) :
    lineBytes (x :: xs) = x ++ LF :: lineBytes xs := by
  simp [lineBytes]

theorem lineBytes_cons_length (x : Bytes) (xs : List Bytes) :
    ((lineBytes (x :: xs)).length : Int) = (x.length + 1) + (lineBytes xs).length := by
  rw [lineBytes_cons, List.length_append, List.length_cons]
  omega

/-- The request line is taken apart. -/
theorem finishRequestLine_takeLine {r : HttpRequest} {x m p v : Bytes}
    (hsplit : (trimmed x).splitOn SP = [m, p, v]) (hv : containsText v (ascii "HTTP") = true) :
    (r.takeLine x).finishRequestLine =
      { r.takeLine x with
          lineBuffer := []
          method := trimmed m
          path := p
          version := v
          status := .waitForHeader } := by
  have hne : trimmed x ≠ [] := by
    intro he
    simp [he] at hsplit
  simp [finishRequestLine, takeLine, hne, hsplit, hv]

/-- The request after a header line that is not blank. -/
def takeHeader (r : HttpRequest) (x : Bytes) : HttpRequest :=
  { r.takeLine x with
      lineBuffer := []
      headers := (headerAfter (r.headers, r.currentHeader) (trimmed x)).1
      currentHeader := (headerAfter (r.headers, r.currentHeader) (trimmed x)).2 }

theorem takeHeader_status (r : HttpRequest) (x : Bytes) : (r.takeHeader x).status = r.status :=
  rfl

/-- A header line changes the headers as `headerAfter` says. -/
theorem takeHeader_headers (r : HttpRequest) (x : Bytes) :
    ((r.takeHeader x).headers, (r.takeHeader x).currentHeader) =
      headerAfter (r.headers, r.currentHeader) (trimmed x) := rfl

theorem AtLine.takeHeader {r : HttpRequest} (h : r.AtLine) {x : Bytes}
    (hfit : r.currentSize + (x.length + 1) ≤ r.maxSize) : (r.takeHeader x).AtLine where
  buffer := rfl
  boundary := h.boundary
  nonneg := by
    have hn := h.nonneg
    simp only [HttpRequest.takeHeader, takeLine]
    omega
  within := hfit
  limit := h.limit
  isInt := h.isInt

theorem finishHeaderLine_takeLine {r : HttpRequest} {x : Bytes} (hx : trimmed x ≠ []) :
    (r.takeLine x).finishHeaderLine = r.takeHeader x := by
  simp only [takeHeader, finishHeaderLine, takeLine, List.mem_append, List.mem_singleton, or_true,
    not_true_eq_false, and_false, if_false, trimmed_line, headerAfter, ne_eq, hx,
    not_false_eq_true, if_true]
  split
  · rfl
  · unfold headerContinuation
    split <;> rfl

/-- A call with a whole header line waiting. -/
theorem readFromSocket_takeHeader {r : HttpRequest} (h : r.AtLine) (hs : r.status = .waitForHeader)
    {x : Bytes} (hx : LF ∉ x) (htext : trimmed x ≠ [])
    (hfit : r.currentSize + (x.length + 1) ≤ r.maxSize) (rest : Bytes) :
    r.readFromSocket (x ++ LF :: rest) = (r.takeHeader x, rest) := by
  have hnext : (r.takeHeader x).status ≠ .complete := by
    rw [takeHeader_status, hs]
    decide
  rw [readFromSocket_headerLine h hs hx hfit, finishHeaderLine_takeLine htext,
    afterRead_within (h.takeHeader hfit).boundary (h.takeHeader hfit).within hnext]

/-- The blank line ends the headers. -/
theorem finishHeaderLine_blank {r : HttpRequest} {x : Bytes} (hx : trimmed x = []) :
    (r.takeLine x).finishHeaderLine = { r.takeLine x with lineBuffer := [] }.endOfHeaders := by
  simp [finishHeaderLine, takeLine, hx, indexOf, Search.find]

end HttpRequest

end QtWebApp
