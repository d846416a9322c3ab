import QtWebApp.Parsing.FeedBody
import QtWebApp.Parsing.WellFormed

/-!
# QtWebApp.Parsing.Framed

One request on its way through the parser, in any pieces.

A `FramedRequest` is a request as it is sent, line by line. `Place` says where in it the parser
is, whatever the segments were: inside a line of the head, of which the line buffer holds the
beginning, inside the body, or at the end. A call of `readFromSocket` takes the parser to its
next place and counts what it has read together with the line buffer, or aborts the request
because this exceeds the limit (`CallTakes`).

Nothing is assumed about the segments here but that none ends between the two bytes of a line end.
What a call takes lies within one line of the head, or within the body.
-/

namespace QtWebApp

open Bytes

/-- A request as a client may send it, without multipart body: every line of the head ends with
CR and LF, and the body is as long as announced. -/
structure FramedRequest where
  head : RequestHead
  body : Bytes
  lineEnds : ∀ x ∈ head.first :: (head.lines ++ [head.last]), x.getLast? = some CR ∧ CR ∉ x.dropLast
  plain : HttpRequest.NotMultipart head.headers
  announced : ∀ v ∈ head.headers.values (ascii "content-length"), numeral 10 v = some body.length
  unannounced : head.headers.values (ascii "content-length") = [] → body = []

/-- The request as it is sent. -/
def FramedRequest.bytes (req : FramedRequest) : Bytes := req.head.bytes ++ req.body

theorem FramedRequest.length (req : FramedRequest) :
    req.bytes.length = req.head.bytes.length + req.body.length := by
  rw [bytes, List.length_append]

namespace HttpRequest

/-! ### Open lines

What has arrived of the last line, from the bytes alone. -/

/-- The number of bytes after the last line feed. -/
def openBytes (b : Bytes) : Nat := b.foldl (fun n c => if c = LF then 0 else n + 1) 0

theorem openBytes_append {b y : Bytes} (hy : LF ∉ y) :
    openBytes (b ++ y) = openBytes b + y.length := by
  induction y generalizing b with
  | nil => simp
  | cons c y ih =>
      have hc : c ≠ LF := fun e => hy (by simp [e])
      have hone : openBytes (b ++ [c]) = openBytes b + 1 := by simp [openBytes, hc]
      rw [← List.singleton_append, ← List.append_assoc, ih fun h => hy (by simp [h]), hone,
        List.length_append, List.length_singleton]
      omega

theorem openBytes_le (b : Bytes) : openBytes b ≤ b.length := by
  induction b using List.reverseRecOn with
  | nil => exact Nat.le_refl 0
  | append_singleton b c ih =>
      have hone : openBytes (b ++ [c]) = if c = LF then 0 else openBytes b + 1 := by
        simp [openBytes]
      rw [hone, List.length_append, List.length_singleton]
      split <;> omega

@[simp] theorem openBytes_line (b : Bytes) : openBytes (b ++ [LF]) = 0 := by simp [openBytes]

/-! ### Places in a request

The place is determined by the bytes that have been taken, but the relation is easier to work with,
since each call changes a small part of it. -/

/-- The lines of a head from one of them on: the lines read before (without the request line), the
line, and those that follow. -/
inductive LinePlace (req : FramedRequest) : RequestStatus → List Bytes → Bytes → List Bytes → Prop
  | request : LinePlace req .waitForRequest [] req.head.first (req.head.lines ++ [req.head.last])
  | header {done : List Bytes} {x : Bytes} {after : List Bytes}
      (h : req.head.lines = done ++ x :: after) :
      LinePlace req .waitForHeader done x (after ++ [req.head.last])
  | blank : LinePlace req .waitForHeader req.head.lines req.head.last []

/-- The parser is in the head: `y` waits of the line `y ++ z`, `got` are all bytes it has taken. -/
structure InHead (req : FramedRequest) (r : HttpRequest) (got y z : Bytes)
    (done todo : List Bytes) :
    Prop where
  line : LinePlace req r.status done (y ++ z) todo
  buffer : r.lineBuffer = y
  waiting : openBytes got = y.length
  headers : (r.headers, r.currentHeader) = headersOf done
  boundary : r.boundary = []
  expected : r.expectedBodySize = 0
  body : r.bodyData = []

/-- Where the parser is: the bytes of the request it has taken, and those to come. -/
inductive Place (req : FramedRequest) (r : HttpRequest) (got rest : Bytes) : Prop
  | head {y z : Bytes} {done todo : List Bytes} (h : InHead req r got y z done todo)
      (hrest : rest = z ++ LF :: (lineBytes todo ++ req.body))
  | body (status : r.status = .waitForBody) (hrest : rest ≠ []) (buffer : r.lineBuffer = [])
      (boundary : r.boundary = []) (expected : r.expectedBodySize = req.body.length)
      (body : req.body = r.bodyData ++ rest)
      (fits : r.currentSize + rest.length ≤ r.maxSize)
  | complete (status : r.status = .complete) (hrest : rest = [])

namespace LinePlace

variable {req : FramedRequest} {status : RequestStatus} {done todo : List Bytes} {x : Bytes}

theorem inLine {r : HttpRequest} (h : LinePlace req r.status done x todo) : r.InLine := by
  generalize hs : r.status = status at h
  cases h with
  | request => exact .inl hs
  | header => exact .inr hs
  | blank => exact .inr hs

/-- The line is one of the head. -/
theorem mem (h : LinePlace req status done x todo) :
    x ∈ req.head.first :: (req.head.lines ++ [req.head.last]) := by
  cases h with
  | request => exact List.mem_cons_self
  | header h => simp [h]
  | blank => simp

theorem noLF (h : LinePlace req status done x todo) : LF ∉ x := by
  have hmem := h.mem
  rw [List.mem_cons, List.mem_append, List.mem_singleton] at hmem
  rcases hmem with rfl | hx | rfl
  · exact req.head.first_line
  · exact req.head.lines_line x hx
  · exact req.head.last_line

/-- A piece of the line that does not end with its return holds no end of line. -/
theorem noEnd (h : LinePlace req status done x todo) {d z : Bytes} (hx : x = d ++ z)
    (hd : d.getLast? ≠ some CR) : CR ∉ d ∧ LF ∉ d := by
  obtain ⟨hlast, hcr⟩ := req.lineEnds x h.mem
  have hlf := h.noLF
  rw [hx] at hlast hcr hlf
  rcases eq_or_ne z [] with rfl | hz
  · rw [List.append_nil] at hlast
    exact absurd hlast hd
  · rw [List.dropLast_append_of_ne_nil hz] at hcr
    exact ⟨fun hmem => hcr (List.mem_append_left _ hmem), fun hmem =>
      hlf (List.mem_append_left _ hmem)⟩

/-- After a line the next one begins. -/
theorem next (req : FramedRequest) {done after : List Bytes} (h : req.head.lines = done ++ after) :
    ∃ x todo, after ++ [req.head.last] = x :: todo ∧ LinePlace req .waitForHeader done x todo := by
  cases after with
  | nil =>
      rw [List.append_nil] at h
      exact ⟨req.head.last, [], rfl, h ▸ .blank⟩
  | cons x after => exact ⟨x, after ++ [req.head.last], rfl, .header h⟩

/-- No line follows the blank one only. -/
theorem of_nil (h : LinePlace req status done x todo) (htodo : todo = []) :
    status = .waitForHeader ∧ done = req.head.lines ∧ x = req.head.last := by
  cases h with
  | request => simp at htodo
  | header => simp at htodo
  | blank => exact ⟨rfl, rfl, rfl⟩

theorem notMultipart {r : HttpRequest} (h : LinePlace req status done x todo)
    (hr : (r.headers, r.currentHeader) = headersOf done) : NotMultipart r.headers := by
  have hpart : ∀ more, NotMultipart (headersOf (done ++ more)).1 → NotMultipart r.headers := by
    intro more hm
    have hdone : r.headers = (headersOf done).1 := congrArg Prod.fst hr
    rw [headersOf, List.foldl_append] at hm
    rw [hdone]
    exact notMultipart_of_foldl hm
  have hplain : NotMultipart (headersOf req.head.lines).1 := req.plain
  cases h with
  | request => exact hpart req.head.lines hplain
  | header h => exact hpart _ (h ▸ hplain)
  | blank => exact hpart [] (by rwa [List.append_nil])

end LinePlace

/-! ### A piece of a line

A read takes bytes up to the line feed or up to what is left of the limit. Both ends of it are
compared with the line that is sent. -/

/-- More text of a line: the whole line buffer is counted. -/
def countLine (r : HttpRequest) (d : Bytes) : HttpRequest :=
  { r with
      lineBuffer := r.lineBuffer ++ d
      currentSize := r.currentSize + (r.lineBuffer ++ d).length
      recounted := r.recounted + r.lineBuffer.length }

/-- The counter has room for what the head still adds to it, and for the body. -/
def CountFits (req : FramedRequest) (r : HttpRequest) (rest : Bytes) : Prop :=
  ∀ n : Nat, n + req.body.length ≤ rest.length → (n : Int) ≤ r.maxSize - r.currentSize + 1 →
    r.currentSize + r.lineBuffer.length + n ≤ intMax ∧
      (r.currentSize + r.lineBuffer.length + n ≤ r.maxSize →
        r.currentSize + r.lineBuffer.length + n + req.body.length ≤ intMax)

theorem countLine_size (r : HttpRequest) (d : Bytes) :
    (r.countLine d).currentSize = r.currentSize + r.lineBuffer.length + d.length := by
  simp only [countLine, List.length_append]
  omega

/-- With the line feed the line is there. -/
theorem countLine_line (r : HttpRequest) (z : Bytes) :
    r.countLine (z ++ [LF]) =
      (r.setSize r.currentSize (r.recounted + r.lineBuffer.length)).takeLine
      (r.lineBuffer ++ z) := by
  simp [countLine, takeLine, setSize, Int.add_assoc]

/-- **What is read of a line**: so much that the limit is exceeded, all there is, or the line up to
its line feed. -/
theorem appendLine_place {r : HttpRequest} (h0 : 0 ≤ r.currentSize) (hw : r.currentSize ≤ r.maxSize)
    (hl : r.maxSize < intMax) {z b later tail : Bytes} (hz : LF ∉ z)
    (hb : b ++ later = z ++ LF :: tail)
    (hfit : ∀ n : Nat, n ≤ z.length + 1 → (n : Int) ≤ r.maxSize - r.currentSize + 1 →
      r.currentSize + r.lineBuffer.length + n ≤ intMax) :
    (∃ d rest, d.length ≤ z.length + 1 ∧ r.appendLine b = (r.countLine d, rest) ∧
        r.maxSize < (r.countLine d).currentSize) ∨
      (∃ z', z = b ++ z' ∧ later = z' ++ LF :: tail ∧ r.appendLine b = (r.countLine b, [])) ∨
      ∃ b', b = z ++ LF :: b' ∧ tail = b' ++ later ∧
        r.appendLine b = (r.countLine (z ++ [LF]), b') := by
  have hl' : r.maxSize < 2147483647 := hl
  obtain ⟨n, hn⟩ : ∃ n : Nat, (n : Int) = r.maxSize - r.currentSize + 1 :=
    ⟨(r.maxSize - r.currentSize + 1).toNat, by omega⟩
  have htoRead : r.toRead = n := by
    unfold toRead
    rw [int32_of_isInt (n := r.maxSize - r.currentSize) ⟨by omega, by omega⟩,
      int32_of_isInt ⟨by omega, by omega⟩, hn]
  have happend : ∀ d rest, lineUpTo n b = (d, rest) → d.length ≤ n → d.length ≤ z.length + 1 →
      r.appendLine b = (r.countLine d, rest) := by
    intro d rest hline hdn hdz
    have hread : readLine b r.toRead = (d, rest) := by
      rw [htoRead, readLine_pos (by omega)]
      exact hline
    have hsum := hfit d.length hdz (by omega)
    have hint : IsInt (r.currentSize + (r.lineBuffer ++ d).length) := by
      rw [List.length_append, Int.natCast_add, ← Int.add_assoc]
      exact ⟨by omega, hsum⟩
    simp only [appendLine, hread, int32_of_isInt hint, countLine]
  -- the limit comes first
  have hover : ∀ d : Bytes, d.length = n → r.maxSize < (r.countLine d).currentSize := by
    intro d hd
    rw [countLine_size]
    omega
  have hpiece : (∃ z', z = b ++ z' ∧ later = z' ++ LF :: tail) ∨
      ∃ b', b = z ++ LF :: b' ∧ tail = b' ++ later := by
    rcases List.append_eq_append_iff.mp hb with ⟨z', hz', hlater⟩ | ⟨c, hc, htail⟩
    · exact .inl ⟨z', hz', hlater⟩
    · cases c with
      | nil => exact .inl ⟨[], by simpa using hc.symm, by simpa using htail.symm⟩
      | cons a b' =>
          obtain ⟨rfl, htail'⟩ := List.cons.inj htail
          exact .inr ⟨b', hc, htail'⟩
  rcases hpiece with ⟨z', rfl, hlater⟩ | ⟨b', rfl, htail⟩
  · have hlf : LF ∉ b := fun hmem => hz (List.mem_append_left _ hmem)
    have hline := lineUpTo_noLF (n := n) fun hmem => hlf (List.mem_of_mem_take hmem)
    rw [List.length_append] at happend
    rcases Nat.lt_or_ge n b.length with hlong | hshort
    · have hlen : (b.take n).length = n := by
        rw [List.length_take]
        omega
      refine .inl ⟨b.take n, b.drop n, ?_, happend _ _ hline (by omega) (by omega), hover _ hlen⟩
      rw [List.length_append]
      omega
    · rw [List.take_of_length_le hshort, List.drop_of_length_le hshort] at hline
      exact .inr (.inl ⟨z', rfl, hlater, happend _ _ hline hshort (by omega)⟩)
  · rcases Nat.lt_or_ge z.length n with hshort | hlong
    · have hlen : (z ++ [LF]).length = z.length + 1 := by simp
      exact .inr
        (.inr ⟨b', rfl, htail, happend _ _ (lineUpTo_line hz hshort) (by omega) (by omega)⟩)
    · have htake : (z ++ LF :: b').take n = z.take n := List.take_append_of_le_length hlong
      have hline := lineUpTo_noLF (n := n) (b := z ++ LF :: b')
        (by rw [htake]; exact fun hmem => hz (List.mem_of_mem_take hmem))
      have hlen : ((z ++ LF :: b').take n).length = n := by
        rw [htake, List.length_take]
        omega
      exact .inl ⟨_, _, by omega, happend _ _ hline (by omega) (by omega), hover _ hlen⟩

/-! ### One call

Four cases: the line goes on in a later segment, it ends, it is the blank one, or the parser is in
the body. In each of them the counter grows by what was read and what had been waiting. -/

/-- What a call of `readFromSocket` does to a request at its place, the read buffer being `b`: it
finds the sum too large, or takes bytes and counts them together with the line buffer. -/
inductive CallTakes (req : FramedRequest) (r : HttpRequest) (got rest b : Bytes) : Prop
  | aborts (h : (r.readFromSocket b).1.status = .abort)
      (hsum : r.maxSize < r.currentSize + r.lineBuffer.length + rest.length)
  | takes {d rest' : Bytes} (hne : d ≠ []) (hb : b = d ++ (r.readFromSocket b).2)
      (hrest : rest = d ++ rest') (place : Place req (r.readFromSocket b).1 (got ++ d) rest')
      (size : (r.readFromSocket b).1.currentSize = r.currentSize + r.lineBuffer.length + d.length)
      (maxSize : (r.readFromSocket b).1.maxSize = r.maxSize)
      (within : (r.readFromSocket b).1.currentSize ≤ r.maxSize)
      (buffer : (r.readFromSocket b).2 = [] ∨ (r.readFromSocket b).1.lineBuffer = [])

/-- A call whose result is known. -/
theorem CallTakes.of_call {req : FramedRequest} {r t : HttpRequest} {got rest b b' d rest' : Bytes}
    (hcall : r.readFromSocket b = (t, b')) (hne : d ≠ []) (hb : b = d ++ b')
    (hrest : rest = d ++ rest') (place : Place req t (got ++ d) rest')
    (size : t.currentSize = r.currentSize + r.lineBuffer.length + d.length)
    (maxSize : t.maxSize = r.maxSize) (within : t.currentSize ≤ r.maxSize)
    (buffer : b' = [] ∨ t.lineBuffer = []) : CallTakes req r got rest b := by
  refine .takes hne ?_ hrest ?_ ?_ ?_ ?_ ?_
  all_goals rw [hcall]
  all_goals assumption

/-- The parser is at the beginning of a line after the request line. -/
theorem place_next {req : FramedRequest} {r : HttpRequest} {got : Bytes} {done after : List Bytes}
    (hlines : req.head.lines = done ++ after) (hs : r.status = .waitForHeader)
    (hbuffer : r.lineBuffer = []) (hwaiting : openBytes got = 0)
    (hheaders : (r.headers, r.currentHeader) = headersOf done) (hboundary : r.boundary = [])
    (hexpected : r.expectedBodySize = 0) (hbody : r.bodyData = []) :
    Place req r got (lineBytes (after ++ [req.head.last]) ++ req.body) := by
  obtain ⟨x, todo, htodo, hline⟩ := LinePlace.next req hlines
  rw [htodo]
  refine .head (y := []) (z := x)
    ⟨hs ▸ hline, hbuffer, hwaiting, hheaders, hboundary, hexpected, hbody⟩ ?_
  simp [lineBytes]

/-- The parser reads the length that the client has announced. -/
theorem toInt_announced (req : FramedRequest) (hlen : (req.body.length : Int) ≤ intMax) :
    toInt (req.head.headers.value (ascii "content-length")) = req.body.length := by
  cases hvs : req.head.headers.values (ascii "content-length") with
  | nil =>
      rw [QMultiMap.value_eq_nil_of_values hvs, req.unannounced hvs]
      rfl
  | cons v vs =>
      have hnumeral := req.announced v (by rw [hvs]; exact List.mem_cons_self)
      rw [QMultiMap.value_of_values_cons hvs, toInt_numeral hnumeral, if_pos hlen]

/-- A line with which the counter exceeds the limit aborts the request. -/
theorem call_over {r : HttpRequest} (hin : r.InLine) (hm : NotMultipart r.headers)
    (hboundary : r.boundary = []) {b d rest : Bytes}
    (happend : r.appendLine b = (r.countLine d, rest))
    (hover : r.maxSize < (r.countLine d).currentSize) : (r.readFromSocket b).1.status = .abort := by
  have hkeep : SameLimits (r.countLine d) (r.countLine d).finishLine := by
    rcases hin with hs | hs
    · have hstatus : (r.countLine d).status = .waitForRequest := hs
      simp only [finishLine, hstatus]
      exact finishRequestLine_sameLimits _
    · have hstatus : (r.countLine d).status = .waitForHeader := hs
      simp only [finishLine, hstatus]
      exact finishHeaderLine_sameLimits hm
  rw [readFromSocket, readStep_inLine hin, happend]
  refine afterRead_abort (hkeep.boundary.trans hboundary) ?_
  rw [hkeep.maxSize, hkeep.currentSize]
  exact hover

namespace InHead

variable {req : FramedRequest} {r : HttpRequest} {got y z : Bytes} {done todo : List Bytes}

theorem setSize (h : InHead req r got y z done todo) (size : Int) (n : Nat) :
    InHead req (r.setSize size n) got y z done todo :=
  ⟨h.line, h.buffer, h.waiting, h.headers, h.boundary, h.expected, h.body⟩

/-- A line of the head is finished. -/
theorem finishLine (h : InHead req r got y z done todo) (htodo : todo ≠ [])
    (hw : (r.takeLine (y ++ z)).currentSize ≤ r.maxSize) :
    Place req (r.takeLine (y ++ z)).finishLine.afterRead (got ++ (z ++ [LF]))
        (lineBytes todo ++ req.body) ∧
      SameLimits (r.takeLine (y ++ z)) (r.takeLine (y ++ z)).finishLine.afterRead ∧
      (r.takeLine (y ++ z)).finishLine.afterRead.lineBuffer = [] := by
  have hopen : openBytes (got ++ (z ++ [LF])) = 0 := by
    rw [← List.append_assoc]
    exact openBytes_line _
  have hline := h.line
  have hheaders := h.headers
  generalize hs : r.status = status at hline
  generalize y ++ z = x at hline hw ⊢
  have hstatus : (r.takeLine x).status = status := hs
  unfold HttpRequest.finishLine
  cases hline with
  | request =>
      simp only [hstatus]
      rw [finishRequestLine_takeLine req.head.first_split req.head.first_http, afterRead_within]
      · exact ⟨place_next (List.nil_append _).symm rfl rfl hopen hheaders h.boundary
          h.expected h.body,
          ⟨rfl, rfl, rfl⟩, rfl⟩
      · exact h.boundary
      · exact hw
      · simp
  | @header done x after hlines =>
      simp only [hstatus]
      have hnext : headersOf (done ++ [x]) = headerAfter (r.headers, r.currentHeader)
          (trimmed x) := by
        rw [hheaders, headersOf, List.foldl_append]
        rfl
      have hsplit : req.head.lines = (done ++ [x]) ++ after := by simp [hlines]
      rw [finishHeaderLine_takeLine (req.head.lines_text x (by simp [hlines])), afterRead_within]
      · exact ⟨place_next hsplit hs rfl hopen hnext.symm h.boundary h.expected h.body,
          ⟨rfl, rfl, rfl⟩, rfl⟩
      · exact h.boundary
      · exact hw
      · rw [takeHeader_status, hs]
        decide
  | blank => exact absurd rfl htodo

/-- The length that the parser expects at the end of the head. -/
theorem contentLength (h : InHead req r got y z req.head.lines todo)
    (hlen : (req.body.length : Int) ≤ intMax) :
    toInt (r.headers.value (ascii "content-length")) = req.body.length := by
  have hall : r.headers = req.head.headers := congrArg Prod.fst h.headers
  rw [hall]
  exact toInt_announced req hlen

/-- What the blank line makes of the request. -/
theorem finishLine_blank (h : InHead req r got y z req.head.lines todo)
    (hs : r.status = .waitForHeader) (hx : y ++ z = req.head.last)
    (hlen : (req.body.length : Int) ≤ intMax) (h0 : 0 ≤ (r.takeLine (y ++ z)).currentSize)
    (hfit : (r.takeLine (y ++ z)).currentSize + req.body.length ≤ intMax) :
    (r.takeLine (y ++ z)).finishLine =
      { ({ r.takeLine (y ++ z) with lineBuffer := [] } : HttpRequest) with
          expectedBodySize := req.body.length
          status :=
            if (req.body.length : Int) = 0 then .complete
            else if r.maxSize < req.body.length + (r.takeLine (y ++ z)).currentSize then .abort
            else .waitForBody } := by
  have hstatus : (r.takeLine (y ++ z)).status = .waitForHeader := hs
  have hblank : trimmed (y ++ z) = [] := by
    rw [hx]
    exact req.head.last_blank
  have hplain := endOfHeaders_plain
    (r := ({ r.takeLine (y ++ z) with lineBuffer := [] } : HttpRequest)) h.boundary h.expected
    (h.line.notMultipart h.headers)
  have hvalue : toInt (({ r.takeLine (y ++ z) with lineBuffer := [] } :
      HttpRequest).headers.value (ascii "content-length")) = req.body.length := h.contentLength hlen
  have hint : int32 (req.body.length + (r.takeLine (y ++ z)).currentSize) =
      req.body.length + (r.takeLine (y ++ z)).currentSize :=
    int32_of_isInt ⟨by omega, by rw [Int.add_comm]; exact hfit⟩
  rw [hvalue] at hplain
  simp only [hint] at hplain
  simp only [HttpRequest.finishLine, hstatus]
  rw [finishHeaderLine_blank hblank, hplain]
  rfl

/-- The head is finished: the request is complete, its body is too large, or it is waited for. -/
theorem finishHead (h : InHead req r got y z req.head.lines todo) (hs : r.status = .waitForHeader)
    (hx : y ++ z = req.head.last) (hlen : (req.body.length : Int) ≤ intMax)
    (h0 : 0 ≤ (r.takeLine (y ++ z)).currentSize)
    (hw : (r.takeLine (y ++ z)).currentSize ≤ r.maxSize)
    (hfit : (r.takeLine (y ++ z)).currentSize + req.body.length ≤ intMax) (got' : Bytes) :
    ((r.takeLine (y ++ z)).finishLine.afterRead.status = .abort ∧
        r.maxSize < (r.takeLine (y ++ z)).currentSize + req.body.length) ∨
      (Place req (r.takeLine (y ++ z)).finishLine.afterRead got' req.body ∧
        SameLimits (r.takeLine (y ++ z)) (r.takeLine (y ++ z)).finishLine.afterRead ∧
        (r.takeLine (y ++ z)).finishLine.afterRead.lineBuffer = []) := by
  rw [h.finishLine_blank hs hx hlen h0 hfit]
  rcases Nat.eq_zero_or_pos req.body.length with hzero | hpos
  · have hnil : req.body = [] := List.eq_nil_of_length_eq_zero hzero
    have hdone : (req.body.length : Int) = 0 := by omega
    rw [if_pos hdone, afterRead_complete]
    · exact .inr ⟨.complete rfl hnil, ⟨rfl, rfl, rfl⟩, rfl⟩
    · exact h.boundary
    · exact hw
    · rfl
  · have hne : ¬ (req.body.length : Int) = 0 := by omega
    rw [if_neg hne]
    by_cases hlarge : r.maxSize < req.body.length + (r.takeLine (y ++ z)).currentSize
    · rw [if_pos hlarge, afterRead_within]
      · exact .inl ⟨rfl, by omega⟩
      · exact h.boundary
      · exact hw
      · simp
    · rw [if_neg hlarge, afterRead_within]
      · refine .inr ⟨.body rfl (List.length_pos_iff.mp hpos) rfl h.boundary rfl ?_ ?_,
          ⟨rfl, rfl, rfl⟩, rfl⟩
        · show req.body = r.bodyData ++ req.body
          rw [h.body, List.nil_append]
        · show (r.takeLine (y ++ z)).currentSize + req.body.length ≤ r.maxSize
          omega
      · exact h.boundary
      · exact hw
      · simp

/-- A piece of a line that goes on in a later segment. -/
theorem call_piece (h : InHead req r got y z done todo) {b z' : Bytes}
    (hz : z = b ++ z') (hb : b ≠ []) (hcut : b.getLast? ≠ some CR)
    (happend : r.appendLine b = (r.countLine b, []))
    (hw : (r.countLine b).currentSize ≤ r.maxSize) :
    CallTakes req r got (z ++ LF :: (lineBytes todo ++ req.body)) b := by
  have hin := h.line.inLine
  have hgrown : (r.countLine b).lineBuffer = y ++ b := by
    rw [← h.buffer]
    rfl
  have hx : y ++ z = (y ++ b) ++ z' := by rw [hz, List.append_assoc]
  obtain ⟨hcr, hlf⟩ := h.line.noEnd hx (by rwa [List.getLast?_append_of_ne_nil _ hb])
  have hcall : r.readFromSocket b = (r.countLine b, []) := by
    rw [readFromSocket, readStep_inLine hin, happend]
    show ((r.countLine b).finishLine.afterRead, ([] : Bytes)) = _
    rw [finishLine_noEnd (by rwa [hgrown]) (by rwa [hgrown]), afterRead_within]
    · exact h.boundary
    · exact hw
    · exact hin.busy.1.1
  have hopen : openBytes (got ++ b) = (y ++ b).length := by
    rw [openBytes_append (fun hmem => hlf (List.mem_append_right _ hmem)), h.waiting,
      List.length_append]
  have hplace : Place req (r.countLine b) (got ++ b) (z' ++ LF :: (lineBytes todo ++ req.body)) :=
    .head ⟨hx ▸ h.line, hgrown, hopen, h.headers, h.boundary, h.expected, h.body⟩ rfl
  have hrest : z ++ LF :: (lineBytes todo ++ req.body) =
      b ++ (z' ++ LF :: (lineBytes todo ++ req.body)) := by rw [hz, List.append_assoc]
  exact .of_call hcall hb (List.append_nil b).symm hrest hplace
    (countLine_size r b) rfl hw (.inl rfl)

/-- A line up to its line feed. -/
theorem call_line (h : InHead req r got y z done todo) {b b' : Bytes} (hb : b = z ++ LF :: b')
    (happend : r.appendLine b = (r.countLine (z ++ [LF]), b')) (h0 : 0 ≤ r.currentSize)
    (hw : (r.countLine (z ++ [LF])).currentSize ≤ r.maxSize)
    (hlen : (req.body.length : Int) ≤ intMax)
    (hfit : (r.countLine (z ++ [LF])).currentSize + req.body.length ≤ intMax) :
    CallTakes req r got (z ++ LF :: (lineBytes todo ++ req.body)) b := by
  have hsize := countLine_size r (z ++ [LF])
  have hcall : r.readFromSocket b = ((r.countLine (z ++ [LF])).finishLine.afterRead, b') := by
    rw [readFromSocket, readStep_inLine h.line.inLine, happend]
  have h' := h.setSize r.currentSize (r.recounted + r.lineBuffer.length)
  rw [countLine_line, h.buffer] at hw hfit hsize hcall
  rw [h.buffer] at h'
  generalize hr' : r.setSize r.currentSize (r.recounted + y.length) = r' at hw hfit hsize hcall h'
  have hmax : r'.maxSize = r.maxSize := by rw [← hr']; rfl
  have hline : b = (z ++ [LF]) ++ b' := by rw [hb, List.append_assoc, List.singleton_append]
  have hrest : z ++ LF :: (lineBytes todo ++ req.body) =
      (z ++ [LF]) ++ (lineBytes todo ++ req.body) := by
        rw [List.append_assoc, List.singleton_append]
  -- the line is taken, whatever it makes of the request
  have htakes : ∀ t : HttpRequest, r.readFromSocket b = (t, b') →
      Place req t (got ++ (z ++ [LF])) (lineBytes todo ++ req.body) →
      SameLimits (r'.takeLine (y ++ z)) t → t.lineBuffer = [] →
      CallTakes req r got (z ++ LF :: (lineBytes todo ++ req.body)) b := by
    intro t ht hplace hsame hempty
    have hsizet : t.currentSize = (r'.takeLine (y ++ z)).currentSize := hsame.currentSize
    refine .of_call ht (by simp) hline hrest hplace ?_ (hsame.maxSize.trans hmax) ?_ (.inr hempty)
    · rw [hsizet, hsize, h.buffer]
    · rw [hsizet]
      exact hw
  rw [← hmax] at hw
  rcases eq_or_ne todo [] with htodo | htodo
  · obtain ⟨hs, rfl, hx⟩ := h'.line.of_nil htodo
    rcases h'.finishHead hs hx hlen (by rw [hsize]; omega) hw hfit (got ++ (z ++ [LF])) with
      ⟨habort, hlarge⟩ | ⟨hplace, hsame, hempty⟩
    · refine .aborts (by rw [hcall]; exact habort) ?_
      rw [hsize, hmax, List.length_append, List.length_singleton] at hlarge
      rw [h.buffer, List.length_append, List.length_cons, List.length_append]
      omega
    · exact htakes _ hcall (by rw [htodo]; exact hplace) hsame hempty
  · obtain ⟨hplace, hsame, hempty⟩ := h'.finishLine htodo hw
    exact htakes _ hcall hplace hsame hempty

/-- **A call during the head.** -/
theorem call (h : InHead req r got y z done todo) {b later : Bytes} (hb : b ≠ [])
    (hlater : b ++ later = z ++ LF :: (lineBytes todo ++ req.body))
    (hcut : b.length ≤ z.length → b.getLast? ≠ some CR) (h0 : 0 ≤ r.currentSize)
    (hw : r.currentSize ≤ r.maxSize) (hl : r.maxSize < intMax)
    (hlen : (req.body.length : Int) ≤ intMax)
    (hfit : CountFits req r (z ++ LF :: (lineBytes todo ++ req.body))) :
    CallTakes req r got (z ++ LF :: (lineBytes todo ++ req.body)) b := by
  have hin := h.line.inLine
  have hm := h.line.notMultipart h.headers
  have hz : LF ∉ z := fun hmem => h.line.noLF (List.mem_append_right _ hmem)
  have hroom : z.length + 1 + req.body.length ≤
      (z ++ LF :: (lineBytes todo ++ req.body)).length := by
    rw [List.length_append, List.length_cons, List.length_append]
    omega
  have haborts : ∀ d rest, d.length ≤ z.length + 1 → r.appendLine b = (r.countLine d, rest) →
      r.maxSize < (r.countLine d).currentSize →
      CallTakes req r got (z ++ LF :: (lineBytes todo ++ req.body)) b := by
    intro d rest hd happend hover
    refine .aborts (call_over hin hm h.boundary happend hover) ?_
    rw [countLine_size] at hover
    omega
  rcases appendLine_place h0 hw hl hz hlater fun n hn hle => (hfit n (by omega) hle).1 with
    ⟨d, rest, hd, happend, hover⟩ | ⟨z', hz', -, happend⟩ | ⟨b', hb', -, happend⟩
  · exact haborts d rest hd happend hover
  · have hlen' : b.length ≤ z.length := by rw [hz', List.length_append]; omega
    rcases Int.lt_or_le r.maxSize (r.countLine b).currentSize with hover | hwithin
    · exact haborts b [] (by omega) happend hover
    · exact h.call_piece hz' hb (hcut hlen') happend hwithin
  · have hone : (z ++ [LF]).length = z.length + 1 := by simp
    rcases Int.lt_or_le r.maxSize (r.countLine (z ++ [LF])).currentSize with hover | hwithin
    · exact haborts _ b' (by omega) happend hover
    · have hsize := countLine_size r (z ++ [LF])
      have hcount := (hfit (z ++ [LF]).length (by omega) (by omega)).2 (by omega)
      exact h.call_line hb' happend h0 hwithin hlen (by rw [hsize]; exact hcount)

end InHead

/-- **A call during the body.** -/
theorem call_body {req : FramedRequest} {r : HttpRequest} {got rest b later : Bytes}
    (hs : r.status = .waitForBody) (hbuffer : r.lineBuffer = []) (hboundary : r.boundary = [])
    (hexpected : r.expectedBodySize = req.body.length) (hbody : req.body = r.bodyData ++ rest)
    (hfits : r.currentSize + rest.length ≤ r.maxSize) (hb : b ≠ []) (hlater : b ++ later = rest)
    (h0 : 0 ≤ r.currentSize) (hl : r.maxSize < intMax) : CallTakes req r got rest b := by
  have hl' : r.maxSize < 2147483647 := hl
  have hlen : req.body.length = r.bodyData.length + rest.length := by rw [hbody, List.length_append]
  have hrest : rest.length = b.length + later.length := by rw [← hlater, List.length_append]
  have hroom : r.bodyRoom = rest.length := by
    have hleft : r.expectedBodySize - r.bodyData.length = rest.length := by omega
    unfold bodyRoom
    rw [if_pos hboundary, hleft, int32_of_isInt ⟨by omega, by omega⟩]
  have htake : b.take r.bodyRoom.toNat = b := List.take_of_length_le (by omega)
  have hdrop : b.drop r.bodyRoom.toNat = [] := List.drop_of_length_le (by omega)
  have hsize : int32 (r.currentSize + b.length) = r.currentSize + b.length :=
    int32_of_isInt ⟨by omega, by omega⟩
  have hbufferLen : r.lineBuffer.length = 0 := by rw [hbuffer, List.length_nil]
  have hcall : r.readFromSocket b = ((r.takeMore b).afterRead, []) := by
    simp only [readFromSocket, readStep, hs, readBody_eq, htake, hdrop]
  have hsum : r.expectedBodySize ≤ ((r.bodyData ++ b).length : Int) ↔ later = [] := by
    rw [List.length_append, ← List.length_eq_zero_iff]
    omega
  unfold takeMore at hcall
  rw [if_pos hboundary, hsize] at hcall
  rcases eq_or_ne later [] with hlast | hmore
  · rw [if_pos (hsum.mpr hlast), afterRead_complete] at hcall
    · refine .of_call hcall hb (List.append_nil b).symm
        (hlater.symm.trans (by rw [hlast])) ?_ ?_ rfl ?_ (.inl rfl)
      · exact .complete rfl rfl
      · show r.currentSize + b.length = _
        omega
      · show r.currentSize + b.length ≤ r.maxSize
        omega
    · exact hboundary
    · show r.currentSize + b.length ≤ r.maxSize
      omega
    · rfl
  · rw [if_neg (mt hsum.mp hmore), afterRead_within] at hcall
    · refine .of_call hcall hb (List.append_nil b).symm hlater.symm ?_ ?_ rfl ?_ (.inl rfl)
      · refine .body hs hmore hbuffer hboundary hexpected ?_ ?_
        · show req.body = (r.bodyData ++ b) ++ later
          rw [List.append_assoc, hlater]
          exact hbody
        · show r.currentSize + b.length + later.length ≤ r.maxSize
          omega
      · show r.currentSize + b.length = _
        omega
      · show r.currentSize + b.length ≤ r.maxSize
        omega
    · exact hboundary
    · show r.currentSize + b.length ≤ r.maxSize
      omega
    · show r.status ≠ .complete
      simp [hs]

end HttpRequest

end QtWebApp
