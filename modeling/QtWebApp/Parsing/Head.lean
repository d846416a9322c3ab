import QtWebApp.Parsing.Lines

/-!
# QtWebApp.Parsing.Head

A whole request head passes through the parser.

A `RequestHead` is any sequence of lines that the parser takes for the head of a request:
a request line, header lines that are not blank (with or without a colon), a blank line.
When it fits into the size limit, the calls of `readFromSocket` consume exactly its bytes
(`reads_head`); when it does not, they abort the request (`reads_head_too_long`).

There are two limits at which the arithmetic of the code matters. A negative limit aborts every
request at once. With the largest limit the room for the next line is computed as a negative number,
a read takes nothing, and the loop goes on for ever.
-/

namespace QtWebApp

open Bytes

/-- The head of a request, line by line, each without its line feed. -/
structure RequestHead where
  first : Bytes
  method : Bytes
  path : Bytes
  version : Bytes
  lines : List Bytes
  last : Bytes
  first_line : LF ∉ first
  first_split : (trimmed first).splitOn SP = [method, path, version]
  first_http : containsText version (ascii "HTTP") = true
  lines_line : ∀ x ∈ lines, LF ∉ x
  lines_text : ∀ x ∈ lines, trimmed x ≠ []
  last_line : LF ∉ last
  last_blank : trimmed last = []

namespace RequestHead

/-- The version is one of HTTP. -/
theorem ascii_http : (ascii "HTTP/1.1").containsText (ascii "HTTP") = true := by decide

theorem blank_line : LF ∉ [CR] := by decide

theorem trimmed_blank : trimmed [CR] = [] := by decide

/-- The head as it is sent. -/
def bytes (head : RequestHead) : Bytes :=
  head.first ++ LF :: (HttpRequest.lineBytes head.lines ++ (head.last ++ [LF]))

/-- Its headers, names in lower case. -/
def headers (head : RequestHead) : QMultiMap := (HttpRequest.headersOf head.lines).1

/-- A new request that has received the head, up to the decision what follows it. -/
def received (settings : Settings) (head : RequestHead) : HttpRequest :=
  { HttpRequest.new settings with
      method := trimmed head.method
      path := head.path
      version := head.version
      headers := head.headers
      currentHeader := (HttpRequest.headersOf head.lines).2
      status := .waitForHeader
      currentSize := head.bytes.length }

end RequestHead

namespace HttpRequest

/-! ### Requests without boundary

The content type decides whether there is a boundary. Without one nothing but the counter and the
announced length is compared with the limit. -/

/-- No content type announces a multipart body. -/
def NotMultipart (headers : QMultiMap) : Prop :=
  ∀ v ∈ headers.values (ascii "content-type"), startsWith v (ascii "multipart/form-data") = false

instance (headers : QMultiMap) : Decidable (NotMultipart headers) := by
  unfold NotMultipart; infer_instance

theorem boundaryOf_notMultipart {headers : QMultiMap} (hm : NotMultipart headers) (b : Bytes) :
    boundaryOf (headers.value (ascii "content-type")) b = b := by
  have hv : startsWith (headers.value (ascii "content-type")) (ascii "multipart/form-data") =
      false := by
    unfold QMultiMap.value
    cases hvs : headers.values (ascii "content-type") with
    | nil => decide
    | cons v vs => exact hm v (by rw [hvs]; exact List.mem_cons_self)
  simp [boundaryOf, hv]

/-- At the end of the headers of a request without boundary the announced length decides. -/
theorem endOfHeaders_plain {r : HttpRequest} (hb : r.boundary = []) (he : r.expectedBodySize = 0)
    (hm : NotMultipart r.headers) :
    r.endOfHeaders =
      { r with
          expectedBodySize := toInt (r.headers.value (ascii "content-length"))
          status :=
            if toInt (r.headers.value (ascii "content-length")) = 0 then .complete
            else if r.maxSize < int32
              (toInt (r.headers.value (ascii "content-length")) + r.currentSize)
              then .abort
            else .waitForBody } := by
  have hlength : (if r.headers.value (ascii "content-length") = [] then (0 : Int)
      else toInt (r.headers.value (ascii "content-length"))) =
      toInt (r.headers.value (ascii "content-length")) := by
    split
    · next h => rw [h]; rfl
    · rfl
  have hann : r.announceBody =
      { r with expectedBodySize := toInt (r.headers.value (ascii "content-length")) } := by
    simp only [announceBody, boundaryOf_notMultipart hm, he, hlength]
  simp only [endOfHeaders, hann, bodyTooLarge, multiPartTooLarge, hb, true_and, ne_eq,
    not_true_eq_false, false_and, if_false]
  split
  · rfl
  · split <;> rfl

/-- Without a multipart content type there is no new boundary. -/
theorem endOfHeaders_boundary {r : HttpRequest} (hm : NotMultipart r.headers) :
    r.endOfHeaders.boundary = r.boundary := by
  have hann : r.announceBody.boundary = r.boundary := boundaryOf_notMultipart hm _
  unfold endOfHeaders
  dsimp only
  split
  · exact hann
  · split
    · exact hann
    · split <;> exact hann

/-- What stays as it is when a line is finished. -/
structure SameLimits (r s : HttpRequest) : Prop where
  boundary : s.boundary = r.boundary
  maxSize : s.maxSize = r.maxSize
  currentSize : s.currentSize = r.currentSize

theorem finishRequestLine_sameLimits (r : HttpRequest) : SameLimits r r.finishRequestLine := by
  unfold finishRequestLine
  split
  · exact ⟨rfl, rfl, rfl⟩
  · dsimp only
    split
    · exact ⟨rfl, rfl, rfl⟩
    · split
      · split <;> exact ⟨rfl, rfl, rfl⟩
      · exact ⟨rfl, rfl, rfl⟩

theorem endOfHeaders_sameLimits {r : HttpRequest} (hm : NotMultipart r.headers) :
    SameLimits r r.endOfHeaders := by
  refine ⟨endOfHeaders_boundary hm, ?_, ?_⟩
  all_goals
    unfold endOfHeaders
    dsimp only
    split
    · rfl
    · split
      · rfl
      · split <;> rfl

/-- A header line changes neither limit nor counter. -/
theorem finishHeaderLine_sameLimits {r : HttpRequest} (hm : NotMultipart r.headers) :
    SameLimits r r.finishHeaderLine := by
  unfold finishHeaderLine
  split
  · exact ⟨rfl, rfl, rfl⟩
  · dsimp only
    split
    · exact ⟨rfl, rfl, rfl⟩
    · split
      · unfold headerContinuation
        split <;> exact ⟨rfl, rfl, rfl⟩
      · have h := endOfHeaders_sameLimits (r := { r with lineBuffer := [] }) hm
        exact ⟨h.boundary, h.maxSize, h.currentSize⟩

/-! ### A head that fits

One call for each line, by induction on the header lines. -/

/-- The header lines of a request, each of them fitting, are read one call each. -/
theorem reads_lines {r : HttpRequest} (h : r.AtLine) (hs : r.status = .waitForHeader)
    {lines : List Bytes} (hline : ∀ x ∈ lines, LF ∉ x) (htext : ∀ x ∈ lines, trimmed x ≠ [])
    (hfit : r.currentSize + (lineBytes lines).length ≤ r.maxSize) {rest b' : Bytes}
    {r' : HttpRequest}
    (htail : Reads
      { r with
          headers :=
  (lines.foldl (fun s x => headerAfter s (trimmed x)) (r.headers, r.currentHeader)).1
          currentHeader :=
            (lines.foldl (fun s x => headerAfter s (trimmed x)) (r.headers, r.currentHeader)).2
          currentSize := r.currentSize + (lineBytes lines).length } rest r' b') :
    Reads r (lineBytes lines ++ rest) r' b' := by
  induction lines generalizing r with
  | nil => simpa [lineBytes] using htail
  | cons x xs ih =>
      obtain ⟨hx, hline'⟩ := List.forall_mem_cons.mp hline
      obtain ⟨htextx, htext'⟩ := List.forall_mem_cons.mp htext
      have hlen := lineBytes_cons_length x xs
      have hfitx : r.currentSize + (x.length + 1) ≤ r.maxSize := by omega
      have hcall := readFromSocket_takeHeader h hs hx htextx hfitx (lineBytes xs ++ rest)
      rw [lineBytes_cons, List.append_assoc, List.cons_append]
      refine Reads.step ⟨by simp, by simp [hs], by simp [hs]⟩ hcall
        (ih (h.takeHeader hfitx) hs hline' htext' ?_ ?_)
      · simp only [takeHeader, takeLine]
        omega
      · have hsum : r.currentSize + (↑x.length + 1) + ↑(lineBytes xs).length =
            r.currentSize + ↑(lineBytes (x :: xs)).length := by omega
        simpa only [takeHeader, takeLine, h.buffer, hsum, List.foldl_cons] using htail

theorem atLine_new (settings : Settings) (h0 : 0 ≤ settings.maxRequestSize)
    (hmax : settings.maxRequestSize < intMax) : (new settings).AtLine :=
  ⟨rfl, rfl, Int.le_refl 0, h0, hmax, settings.maxRequestSize_isInt⟩

/-- **A head that fits is consumed byte by byte**, and then `endOfHeaders` decides. -/
theorem reads_head {settings : Settings} (hmax : settings.maxRequestSize < intMax)
    {head : RequestHead} (hfit : (head.bytes.length : Int) ≤ settings.maxRequestSize)
    (rest : Bytes) {b' : Bytes} {r' : HttpRequest}
    (htail : Reads (head.received settings).endOfHeaders.afterRead rest r' b') :
    Reads (new settings) (head.bytes ++ rest) r' b' := by
  have hlen : (head.bytes.length : Int) =
      (head.first.length + 1) + (lineBytes head.lines).length + (head.last.length + 1) := by
    simp [RequestHead.bytes]
    omega
  have hat := atLine_new settings (by omega) hmax
  -- the request line
  have hfit₁ : (new settings).currentSize + (head.first.length + 1) ≤ (new settings).maxSize := by
    simp only [new]
    omega
  have hcall₁ := readFromSocket_requestLine hat rfl head.first_line hfit₁
    (lineBytes head.lines ++ (head.last ++ LF :: rest))
  rw [finishRequestLine_takeLine head.first_split head.first_http,
    afterRead_within rfl hfit₁ (by simp)] at hcall₁
  have hbytes : head.bytes ++ rest =
      head.first ++ LF :: (lineBytes head.lines ++ (head.last ++ LF :: rest)) := by
    simp [RequestHead.bytes]
  rw [hbytes]
  refine Reads.step ⟨by simp, by simp [new], by simp [new]⟩ hcall₁ ?_
  -- the header lines
  refine reads_lines ⟨rfl, rfl, ?_, hfit₁, hmax, settings.maxRequestSize_isInt⟩ rfl
    head.lines_line head.lines_text ?_ ?_
  · simp only [takeLine, new]
    omega
  · simp only [takeLine, new]
    omega
  -- the blank line
  have hat₃ : ({ (head.received settings) with
      currentSize := (new settings).currentSize + (head.first.length + 1) +
        (lineBytes head.lines).length } : HttpRequest).AtLine :=
    ⟨rfl, rfl, by simp only [new]; omega, by simp only [new, RequestHead.received]; omega, hmax,
      settings.maxRequestSize_isInt⟩
  have hcall₃ := readFromSocket_headerLine hat₃ rfl head.last_line
    (by simp only [new, RequestHead.received]; omega) rest
  have hsize : (new settings).currentSize + (head.first.length + 1) +
      (lineBytes head.lines).length + (head.last.length + 1) = head.bytes.length := by
    simp only [new]
    omega
  rw [finishHeaderLine_blank head.last_blank] at hcall₃
  simp only [takeLine, hsize] at hcall₃
  exact Reads.step ⟨by simp, by simp, by simp⟩ hcall₃ htail

/-! ### A head that does not fit

Some line is the first that exceeds the limit, and the call that reads it aborts the request. The
lines in front of it fit. -/

/-- A call aborts the request when the line does not fit. -/
theorem readFromSocket_too_long {r : HttpRequest} (h : r.AtLine)
    (hs : r.status = .waitForRequest ∨ r.status = .waitForHeader) (hm : NotMultipart r.headers)
    {x : Bytes} (rest : Bytes) (hx : LF ∉ x) (hlong : r.maxSize < r.currentSize + (x.length + 1)) :
    (r.readFromSocket (x ++ LF :: rest)).1.status = .abort := by
  have hsize := appendLine_too_long h rest hx hlong
  have hkeep : SameLimits (r.appendLine (x ++ LF :: rest)).1 (r.readStep (x ++ LF :: rest)).1 := by
    rcases hs with hs | hs
    · simp only [readStep, hs]
      exact finishRequestLine_sameLimits _
    · simp only [readStep, hs]
      exact finishHeaderLine_sameLimits hm
  show (r.readStep (x ++ LF :: rest)).1.afterRead.status = .abort
  apply afterRead_abort
  · rw [hkeep.boundary]
    exact h.boundary
  · rw [hkeep.maxSize, hkeep.currentSize, hsize]
    exact Int.lt_succ _

/-- A negative limit aborts every request at once. -/
theorem readFromSocket_negative (settings : Settings) (hneg : settings.maxRequestSize < 0)
    (b : Bytes) : ((new settings).readFromSocket b).1.status = .abort := by
  have hint : -2147483648 ≤ settings.maxRequestSize := settings.maxRequestSize_isInt.1
  have hread : (new settings).toRead = settings.maxRequestSize + 1 := by
    simp only [toRead, new, Int.sub_zero]
    rw [int32_of_isInt settings.maxRequestSize_isInt, int32_of_isInt ⟨by omega, by omega⟩]
  have hlen := readLine_length_le b (n := settings.maxRequestSize + 1) (by omega)
  have hsize : ((new settings).appendLine b).1.currentSize =
      (readLine b (settings.maxRequestSize + 1)).1.length := by
    rw [← hread] at hlen ⊢
    show int32 (0 + ((readLine b (new settings).toRead).1.length : Int)) = _
    rw [Int.zero_add, int32_of_isInt ⟨by omega, hlen⟩]
  have hkeep := finishRequestLine_sameLimits ((new settings).appendLine b).1
  show ((new settings).appendLine b).1.finishRequestLine.afterRead.status = .abort
  apply afterRead_abort
  · rw [hkeep.boundary]
    rfl
  · rw [hkeep.maxSize, hkeep.currentSize, hsize]
    show settings.maxRequestSize < _
    omega

/-- With the largest possible limit, the room for one byte more overflows: nothing is read. -/
theorem readFromSocket_intMax {settings : Settings} (hmax : settings.maxRequestSize = intMax)
    (b : Bytes) : (new settings).readFromSocket b = (new settings, b) := by
  have hneg : (new settings).toRead = -2147483648 := by
    simp only [toRead, new, hmax]
    decide
  have hread : readLine b (new settings).toRead = ([], b) := readLine_neg (by omega)
  have hzero : int32 0 = 0 := by decide
  have hline : (new settings).appendLine b = (new settings, b) := by
    unfold appendLine
    rw [hread]
    simp [new, hzero]
  have hkeep : (new settings).afterRead = new settings :=
    afterRead_within rfl (by simp only [new, hmax]; decide) (by simp [new])
  show (((new settings).appendLine b).1.finishRequestLine.afterRead,
    ((new settings).appendLine b).2) = _
  rw [hline]
  exact Prod.ext hkeep rfl

/-- So the inner loop of `readHttp` does not end. -/
theorem not_reads_intMax {settings : Settings} (hmax : settings.maxRequestSize = intMax)
    {b b' : Bytes} {r' : HttpRequest} (hb : b ≠ []) : ¬ Reads (new settings) b r' b' := by
  intro hrun
  generalize hr : new settings = r at hrun
  induction hrun with
  | stop hn =>
      subst hr
      exact hn ⟨hb, by simp [new], by simp [new]⟩
  | more _ _ ih =>
      subst hr
      rw [readFromSocket_intMax hmax] at ih
      exact ih hb rfl

/-- A content type that was read stays in the map. -/
theorem notMultipart_of_headerAfter {s : QMultiMap × Bytes} {line : Bytes}
    (hm : NotMultipart (headerAfter s line).1) : NotMultipart s.1 := by
  have hinsert : ∀ k v : Bytes, NotMultipart (s.1.insert k v) → NotMultipart s.1 := by
    intro k v h w hw
    refine h w ?_
    simp only [QMultiMap.values, QMultiMap.insert, List.filter_cons] at hw ⊢
    split
    · exact List.mem_cons_of_mem _ hw
    · exact hw
  unfold headerAfter at hm
  dsimp only at hm
  split at hm
  · exact hinsert _ _ hm
  · split at hm
    · exact hinsert _ _ hm
    · exact hm

theorem notMultipart_of_foldl {lines : List Bytes} {s : QMultiMap × Bytes}
    (hm : NotMultipart (lines.foldl (fun s x => headerAfter s (trimmed x)) s).1) :
    NotMultipart s.1 := by
  induction lines generalizing s with
  | nil => exact hm
  | cons x xs ih => exact notMultipart_of_headerAfter (ih hm)

/-- Header lines of which one, or the blank line after them, does not fit. -/
theorem reads_lines_too_long {r : HttpRequest} (h : r.AtLine) (hs : r.status = .waitForHeader)
    {lines : List Bytes} {last : Bytes} (hline : ∀ x ∈ lines, LF ∉ x)
    (htext : ∀ x ∈ lines, trimmed x ≠ []) (hlast : LF ∉ last)
    (hm : NotMultipart
      (lines.foldl (fun s x => headerAfter s (trimmed x)) (r.headers, r.currentHeader)).1)
    (hlong : r.maxSize < r.currentSize + (lineBytes lines).length + (last.length + 1))
    (rest : Bytes) :
    ∃ r' b', Reads r (lineBytes lines ++ (last ++ LF :: rest)) r' b' ∧ r'.status = .abort := by
  induction lines generalizing r with
  | nil =>
      have habort := readFromSocket_too_long h (.inr hs) hm rest hlast
          (by simpa [lineBytes] using hlong)
      exact ⟨_, _, .more ⟨by simp [lineBytes], by simp [hs], by simp [hs]⟩
        (reads_of_done (.inr habort)), habort⟩
  | cons x xs ih =>
      obtain ⟨hx, hline'⟩ := List.forall_mem_cons.mp hline
      obtain ⟨htextx, htext'⟩ := List.forall_mem_cons.mp htext
      have hm₁ : NotMultipart (headerAfter (r.headers, r.currentHeader) (trimmed x)).1 :=
        notMultipart_of_foldl hm
      have hlen := lineBytes_cons_length x xs
      have hh : r.Hungry (x ++ LF :: (lineBytes xs ++ (last ++ LF :: rest))) :=
        ⟨by simp, by simp [hs], by simp [hs]⟩
      rw [lineBytes_cons, List.append_assoc, List.cons_append]
      by_cases hfitx : r.currentSize + (x.length + 1) ≤ r.maxSize
      · have hcall := readFromSocket_takeHeader h hs hx htextx hfitx
          (lineBytes xs ++ (last ++ LF :: rest))
        have hlong' : (r.takeHeader x).maxSize <
            (r.takeHeader x).currentSize + (lineBytes xs).length + (last.length + 1) := by
          simp only [takeHeader, takeLine]
          omega
        obtain ⟨r', b', hr', habort⟩ := ih (h.takeHeader hfitx) hs hline' htext' hm hlong'
        exact ⟨r', b', Reads.step hh hcall hr', habort⟩
      · have habort := readFromSocket_too_long h (.inr hs) (notMultipart_of_headerAfter hm₁)
          (lineBytes xs ++ (last ++ LF :: rest)) hx (by omega)
        exact ⟨_, _, .more hh (reads_of_done (.inr habort)), habort⟩

/-- **A head that does not fit aborts the request.** -/
theorem reads_head_too_long {settings : Settings} (hmax : settings.maxRequestSize < intMax)
    {head : RequestHead} (hm : NotMultipart head.headers)
    (hlong : settings.maxRequestSize < (head.bytes.length : Int)) (rest : Bytes) :
    ∃ r' b', Reads (new settings) (head.bytes ++ rest) r' b' ∧ r'.status = .abort := by
  have hlen : (head.bytes.length : Int) =
      (head.first.length + 1) + (lineBytes head.lines).length + (head.last.length + 1) := by
    simp [RequestHead.bytes]
    omega
  have hbytes : head.bytes ++ rest =
      head.first ++ LF :: (lineBytes head.lines ++ (head.last ++ LF :: rest)) := by
    simp [RequestHead.bytes]
  have hh : (new settings).Hungry
      (head.first ++ LF :: (lineBytes head.lines ++ (head.last ++ LF :: rest))) :=
    ⟨by simp, by simp [new], by simp [new]⟩
  rw [hbytes]
  by_cases h0 : 0 ≤ settings.maxRequestSize
  · have hat := atLine_new settings h0 hmax
    by_cases hfit : (new settings).currentSize + (head.first.length + 1) ≤ (new settings).maxSize
    · have hcall := readFromSocket_requestLine hat rfl head.first_line hfit
        (lineBytes head.lines ++ (head.last ++ LF :: rest))
      rw [finishRequestLine_takeLine head.first_split head.first_http,
        afterRead_within rfl hfit (by simp)] at hcall
      obtain ⟨r', b', hr', habort⟩ := reads_lines_too_long
        (r := { (new settings).takeLine head.first with
          lineBuffer := []
          method := trimmed head.method
          path := head.path
          version := head.version
          status := .waitForHeader })
        ⟨rfl, rfl, by simp only [takeLine, new]; omega, hfit, hmax, settings.maxRequestSize_isInt⟩
        rfl head.lines_line head.lines_text head.last_line hm
        (by simp only [takeLine, new]; omega) rest
      exact ⟨r', b', Reads.step hh hcall hr', habort⟩
    · have hnone : NotMultipart (new settings).headers := fun v hv => by
        simp [new, QMultiMap.values, QMultiMap.empty] at hv
      have habort := readFromSocket_too_long hat (.inl rfl) hnone
        (lineBytes head.lines ++ (head.last ++ LF :: rest)) head.first_line (by omega)
      exact ⟨_, _, .more hh (reads_of_done (.inr habort)), habort⟩
  · have habort := readFromSocket_negative settings (by omega)
      (head.first ++ LF :: (lineBytes head.lines ++ (head.last ++ LF :: rest)))
    exact ⟨_, _, .more hh (reads_of_done (.inr habort)), habort⟩

end HttpRequest

end QtWebApp
