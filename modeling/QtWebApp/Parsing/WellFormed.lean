import QtWebApp.Parsing.Head
import QtWebApp.Parsing.ContentLength

/-!
# QtWebApp.Parsing.WellFormed

Well-formed requests, as a client sends them, and what the parser makes of one.

A `PlainRequest` carries its own well-formedness: words for method and path, one line for
each header, a body whose length one numeral announces. `reads_request` is the round trip of
a single request: the parser takes exactly its bytes and gives back what was sent.

What a handler sees of a request is compared as a `Message`: the headers as a map with names in
lower case, the path without its parameters, and no cookies among the headers, since the parser
takes them out. A request with a `Connection` header is left out because it says whether another one
follows.
-/

namespace QtWebApp

open Bytes

/-- A header line `name: value` can be made of these. -/
structure IsField (name value : Bytes) : Prop where
  name_ne : name ≠ []
  name_colon : (58 : UInt8) ∉ name
  name_line : LF ∉ name
  name_trimmed : Trimmed name
  value_line : CR ∉ value ∧ LF ∉ value
  value_trimmed : Trimmed value

/-- A word: not empty and free of white space. -/
def IsWord (b : Bytes) : Prop := b ≠ [] ∧ ∀ c ∈ b, isSpace c = false

/-- A multimap that was filled from a list of fields, names in lower case. -/
def fieldMap (fields : List (Bytes × Bytes)) : QMultiMap :=
  ⟨(fields.map fun f => (toLower f.1, f.2)).reverse⟩

/-- A well-formed HTTP/1.1 request without multipart body and without a `Connection` header. -/
structure PlainRequest where
  method : Bytes
  path : Bytes
  fields : List (Bytes × Bytes)
  body : Bytes
  method_word : IsWord method
  path_word : IsWord path
  fields_field : ∀ f ∈ fields, IsField f.1 f.2
  fields_connection : ∀ f ∈ fields, toLower f.1 ≠ ascii "connection"
  fields_plain : HttpRequest.NotMultipart (fieldMap fields)
  /-- One header announces the body, or there is none of either. -/
  fields_length :
    ((fieldMap fields).values (ascii "content-length") = [] ∧ body = []) ∨
      ∃ v, (fieldMap fields).values (ascii "content-length") = [v] ∧
        numeral 10 v = some body.length

/-- The parts of a request that are compared. -/
structure Message where
  method : Bytes
  path : Bytes
  version : Bytes
  headers : QMultiMap
  body : Bytes
  deriving DecidableEq

/-- The parts of a request as a handler sees them. -/
def RequestView.message (view : RequestView) : Message where
  method := view.method
  path := view.path
  version := view.version
  headers := view.headers
  body := view.body

/-- One header line as it is sent, without the line feed. -/
def fieldLine (f : Bytes × Bytes) : Bytes := f.1 ++ ascii ": " ++ f.2 ++ [CR]

namespace PlainRequest

/-- The request line as it is sent, without the line feed. -/
def requestLine (req : PlainRequest) : Bytes :=
  req.method ++ SP :: (req.path ++ SP :: (ascii "HTTP/1.1" ++ [CR]))

/-- The request as it is sent. -/
def bytes (req : PlainRequest) : Bytes :=
  req.requestLine ++ [LF] ++ (req.fields.flatMap fun f => fieldLine f ++ [LF]) ++ CRLF ++ req.body

/-- What was sent: the path ends before the first question mark, cookies are not headers. -/
def message (req : PlainRequest) : Message where
  method := req.method
  path := req.path.takeWhile (· ≠ 63)
  version := ascii "HTTP/1.1"
  headers := (fieldMap req.fields).remove (ascii "cookie")
  body := req.body

end PlainRequest

/-! ### Lines of a well-formed request

The parser trims lines, names and values, and splits at blanks and colons. A field survives that
because its name and value are trimmed and have no line end, and the name no colon. -/

theorem IsWord.not_mem {b : Bytes} (h : IsWord b) {c : UInt8} (hc : isSpace c = true) : c ∉ b := by
  intro hmem
  simp [h.2 c hmem] at hc

theorem IsWord.trimmed {b : Bytes} (h : IsWord b) : Trimmed b := trimmed_of_no_space h.2

theorem fieldLine_noLF {f : Bytes × Bytes} (h : IsField f.1 f.2) : LF ∉ fieldLine f := by
  have hcolon : LF ∉ ascii ": " := by decide
  have hcr : LF ≠ CR := by decide
  simp [fieldLine, h.name_line, h.value_line.2, hcolon, hcr]

/-- The text of a header line, when the value is empty and when it is not. -/
theorem trimmed_fieldLine {f : Bytes × Bytes} (h : IsField f.1 f.2) :
    ∃ pad, trimmed (fieldLine f) = f.1 ++ 58 :: pad ∧ trimmed pad = f.2 := by
  obtain ⟨n, ns, hn⟩ := List.exists_cons_of_ne_nil h.name_ne
  have hhead : ∀ y : Bytes, ∀ c ∈ (f.1 ++ y).head?, isSpace c = false := by
    intro y c hc
    refine h.name_trimmed.1 c ?_
    rw [hn] at hc ⊢
    simpa using hc
  rcases eq_or_ne f.2 [] with hv | hv
  · refine ⟨[], ?_, by rw [hv]; rfl⟩
    have hx : Trimmed (f.1 ++ [58]) := ⟨hhead _, by simp; decide⟩
    have hpad := trimmed_pad (l := []) (r := [SP, CR]) (by simp) hx (by decide)
    rw [← hpad]
    simp [fieldLine, hv, show ascii ": " = [58, SP] from by decide]
  · refine ⟨SP :: f.2, ?_, ?_⟩
    · have hx : Trimmed (f.1 ++ 58 :: SP :: f.2) := by
        refine ⟨hhead _, fun c hc => h.value_trimmed.2 c ?_⟩
        rw [List.getLast?_append, List.getLast?_cons_of_ne_nil (by simp),
          List.getLast?_cons_of_ne_nil hv] at hc
        cases hl : f.2.getLast? with
        | none => exact absurd (List.getLast?_eq_none_iff.mp hl) hv
        | some d => simpa [hl] using hc
      have hpad := trimmed_pad (l := []) (r := [CR]) (by simp) hx (by decide)
      rw [← hpad]
      simp [fieldLine, show ascii ": " = [58, SP] from by decide]
    · simpa using trimmed_pad (l := [SP]) (r := []) (by decide) h.value_trimmed (by simp)

theorem fieldLine_text {f : Bytes × Bytes} (h : IsField f.1 f.2) : trimmed (fieldLine f) ≠ [] := by
  obtain ⟨pad, hline, -⟩ := trimmed_fieldLine h
  rw [hline]
  simp

/-- A header line becomes the field it was made of. -/
theorem headerAfter_fieldLine {f : Bytes × Bytes} (h : IsField f.1 f.2) (s : QMultiMap × Bytes) :
    HttpRequest.headerAfter s (trimmed (fieldLine f)) =
      (s.1.insert (toLower f.1) f.2, toLower f.1) := by
  obtain ⟨pad, hline, hpad⟩ := trimmed_fieldLine h
  have hlen : 0 < f.1.length := List.length_pos_iff.mpr h.name_ne
  have hcolon : indexOf (trimmed (fieldLine f)) [58] 0 = f.1.length := by
    simp [indexOf, hline, Search.find_singleton h.name_colon]
  have hleft : left (trimmed (fieldLine f)) f.1.length = f.1 := by simp [left, hline]
  have hmid : mid (trimmed (fieldLine f)) (f.1.length + 1) = pad := by
    rw [hline]
    simp [mid, show ((f.1.length : Int) + 1).toNat = f.1.length + 1 from by omega]
  unfold HttpRequest.headerAfter
  simp only [hcolon, hleft, hmid, hpad]
  rw [if_pos (by omega)]

/-- The headers of a list of field lines. -/
theorem headersOf_fieldLines {fields : List (Bytes × Bytes)} (h : ∀ f ∈ fields, IsField f.1 f.2)
    (s : QMultiMap × Bytes) :
    ((fields.map fieldLine).foldl (fun s x => HttpRequest.headerAfter s (trimmed x)) s).1 =
      ⟨(fieldMap fields).entries ++ s.1.entries⟩ := by
  induction fields generalizing s with
  | nil => rfl
  | cons f fs ih =>
      rw [List.map_cons, List.foldl_cons, headerAfter_fieldLine (h f (by simp)),
        ih fun g hg => h g (by simp [hg])]
      simp [fieldMap, QMultiMap.insert]

namespace PlainRequest

theorem trimmed_requestLine (req : PlainRequest) :
    trimmed req.requestLine = req.method ++ SP :: (req.path ++ SP :: ascii "HTTP/1.1") := by
  obtain ⟨m, ms, hm⟩ := List.exists_cons_of_ne_nil req.method_word.1
  have hx : Trimmed (req.method ++ SP :: (req.path ++ SP :: ascii "HTTP/1.1")) := by
    refine ⟨fun c hc => req.method_word.2 c ?_, fun c hc => ?_⟩
    · rw [hm] at hc ⊢
      simp only [List.cons_append, List.head?_cons, Option.mem_def, Option.some.injEq] at hc
      simp [hc]
    · have hlast : (req.method ++ SP :: (req.path ++ SP :: ascii "HTTP/1.1")).getLast? =
          some 49 := by
        have hassoc : req.method ++ SP :: (req.path ++ SP :: ascii "HTTP/1.1") =
            (req.method ++ SP :: (req.path ++ SP :: ascii "HTTP/1.")) ++ [49] := by
          simp [show ascii "HTTP/1.1" = ascii "HTTP/1." ++ [49] from by decide]
        rw [hassoc, List.getLast?_concat]
      rw [hlast] at hc
      obtain rfl : 49 = c := by simpa using hc
      decide
  have hpad := trimmed_pad (l := []) (r := [CR]) (by simp) hx (by decide)
  rw [← hpad]
  simp [requestLine]

/-- The request line falls into its three words. -/
theorem split_requestLine (req : PlainRequest) :
    (trimmed req.requestLine).splitOn SP = [req.method, req.path, ascii "HTTP/1.1"] := by
  have hversion : SP ∉ ascii "HTTP/1.1" := by decide
  rw [trimmed_requestLine,
    List.splitOn_append_cons_self_of_not_mem (req.method_word.not_mem (by decide)),
    List.splitOn_append_cons_self_of_not_mem (req.path_word.not_mem (by decide)),
    List.splitOn_eq_singleton hversion]

/-! ### The head of a well-formed request

The lines are those that the parser was fed with before, and so the head is read by what is known of
any head. -/

/-- The head of a well-formed request. -/
def head (req : PlainRequest) : RequestHead where
  first := req.requestLine
  method := req.method
  path := req.path
  version := ascii "HTTP/1.1"
  lines := req.fields.map fieldLine
  last := [CR]
  first_line := by
    have hm : LF ∉ req.method := req.method_word.not_mem (by decide)
    have hp : LF ∉ req.path := req.path_word.not_mem (by decide)
    have hv : LF ∉ SP :: (ascii "HTTP/1.1" ++ [CR]) := by decide
    have hs : LF ≠ SP := by decide
    simp only [requestLine, List.mem_append, List.mem_cons, hm, hp, hs, false_or] at hv ⊢
    exact hv
  first_split := req.split_requestLine
  first_http := RequestHead.ascii_http
  lines_line := by
    intro x hx
    obtain ⟨f, hf, rfl⟩ := List.mem_map.mp hx
    exact fieldLine_noLF (req.fields_field f hf)
  lines_text := by
    intro x hx
    obtain ⟨f, hf, rfl⟩ := List.mem_map.mp hx
    exact fieldLine_text (req.fields_field f hf)
  last_line := RequestHead.blank_line
  last_blank := RequestHead.trimmed_blank

theorem bytes_eq (req : PlainRequest) : req.bytes = req.head.bytes ++ req.body := by
  simp [bytes, head, RequestHead.bytes, HttpRequest.lineBytes, List.flatMap_map]

theorem bytes_length (req : PlainRequest) :
    (req.bytes.length : Int) = req.head.bytes.length + req.body.length := by
  rw [bytes_eq, List.length_append, Int.natCast_add]

@[simp] theorem head_headers (req : PlainRequest) : req.head.headers = fieldMap req.fields := by
  have h := headersOf_fieldLines req.fields_field (.empty, [])
  rw [QMultiMap.empty, List.append_nil] at h
  exact h

/-- The length that the parser expects is the length of the body. -/
theorem toInt_contentLength (req : PlainRequest) (hlen : (req.body.length : Int) ≤ intMax) :
    toInt (req.head.headers.value (ascii "content-length")) = req.body.length := by
  rw [head_headers]
  rcases req.fields_length with ⟨hv, hb⟩ | ⟨v, hv, hn⟩
  · rw [QMultiMap.value_eq_nil_of_values hv, hb]
    rfl
  · rw [QMultiMap.value_of_values_cons hv, toInt_numeral hn, if_pos hlen]

end PlainRequest

/-! ### The round trip of one request

The head, then the body in one piece, since all of it is waiting. At the end the request has what
was sent, and behind it the bytes of the next request are untouched. -/

namespace HttpRequest

/-- The path without the parameters ends before the first question mark. -/
theorem splitQuery_path (path : Bytes) : (splitQuery path).2 = path.takeWhile (· ≠ 63) := by
  by_cases hq : (63 : UInt8) ∈ path
  · obtain ⟨x, y, rfl, hx⟩ := List.eq_append_cons_of_mem hq
    have hwhile : (x ++ 63 :: y).takeWhile (· ≠ 63) = x := by
      rw [List.takeWhile_append_of_pos fun c hc => by simpa using fun e : c = 63 => hx (e ▸ hc)]
      simp
    rw [hwhile]
    simp [splitQuery, indexOf, Search.find_singleton hx, left]
  · have hwhile : path.takeWhile (· ≠ 63) = path :=
      List.takeWhile_eq_self_iff.mpr fun c hc => by simpa using fun e : c = 63 => hq (e ▸ hc)
    rw [hwhile]
    simp [splitQuery, indexOf, Search.find_absent hq]

/-- What a handler sees of a request that was complete before its parameters were decoded. -/
theorem message_decoded (r : HttpRequest) :
    r.decodeRequestParams.extractCookies.view.message =
      { method := r.method
        path := r.path.takeWhile (· ≠ 63)
        version := r.version
        headers := r.headers.remove (ascii "cookie")
        body := r.bodyData } := by
  rw [← splitQuery_path]
  rfl

/-- A request that has received all of a well-formed one. -/
def receivedRequest (settings : Settings) (req : PlainRequest) : HttpRequest :=
  { req.head.received settings with
      expectedBodySize := req.body.length
      currentSize := req.bytes.length
      bodyData := req.body
      status := .complete }

/-- What a handler sees of the request is what was sent. -/
theorem receivedRequest_message (settings : Settings) (req : PlainRequest) :
    (receivedRequest settings req).decodeRequestParams.extractCookies.view.message =
      req.message := by
  rw [message_decoded]
  show Message.mk (trimmed req.method) _ _ (req.head.headers.remove _) _ = _
  rw [trimmed_eq_self req.method_word.trimmed, req.head_headers]
  rfl

section RoundTrip

variable {settings : Settings} (hmax : settings.maxRequestSize < intMax) (req : PlainRequest)
  (hfit : (req.bytes.length : Int) ≤ settings.maxRequestSize)

include hmax hfit

/-- The decision at the end of the head: the announced body fits. -/
theorem endOfHeaders_request :
    (req.head.received settings).endOfHeaders =
      { req.head.received settings with
          expectedBodySize := req.body.length
          status := if (req.body.length : Int) = 0 then .complete else .waitForBody } := by
  have hl : settings.maxRequestSize < 2147483647 := hmax
  have hlen := req.bytes_length
  have hm : NotMultipart req.head.headers := by
    rw [req.head_headers]
    exact req.fields_plain
  have hvalue : toInt ((req.head.received settings).headers.value (ascii "content-length")) =
      req.body.length := req.toInt_contentLength (by rw [intMax]; omega)
  have hsize : ¬ (req.head.received settings).maxSize <
      int32 (req.body.length + (req.head.received settings).currentSize) := by
    simp only [RequestHead.received, new]
    rw [int32_of_isInt ⟨by omega, by omega⟩]
    omega
  rw [endOfHeaders_plain rfl rfl hm, hvalue, if_neg hsize]

/-- The body, when there is one, is taken in one call. -/
theorem reads_body (rest : Bytes) :
    Reads (req.head.received settings).endOfHeaders.afterRead (req.body ++ rest)
      (receivedRequest settings req).decodeRequestParams.extractCookies rest := by
  have hl : settings.maxRequestSize < 2147483647 := hmax
  have hlen := req.bytes_length
  have hend := endOfHeaders_request hmax req hfit
  have hdone : (receivedRequest settings req).afterRead =
      (receivedRequest settings req).decodeRequestParams.extractCookies :=
    afterRead_complete rfl hfit rfl
  by_cases hbody : req.body = []
  · -- without a body the request is complete at the blank line
    have hwhole : (req.head.received settings).endOfHeaders = receivedRequest settings req := by
      rw [hend, receivedRequest, hlen, hbody]
      rfl
    rw [hwhole, hdone, hbody]
    exact reads_of_done (.inl rfl)
  · have hpos : ¬ (req.body.length : Int) = 0 := by
      have := List.length_pos_of_ne_nil hbody
      omega
    rw [if_neg hpos] at hend
    generalize (req.head.received settings).endOfHeaders = r at hend ⊢
    have hwait : r.status = .waitForBody := by rw [hend]
    have hlength : r.expectedBodySize = req.body.length := by rw [hend]
    have hcounted : r.currentSize = req.head.bytes.length := by rw [hend]; rfl
    have hlimit : r.maxSize = settings.maxRequestSize := by rw [hend]; rfl
    have hwhole : r.takeBody (req.body ++ rest) = receivedRequest settings req := by
      rw [takeBody_whole hlength (by omega) (by omega) (hlimit ▸ hmax), hend, receivedRequest, hlen]
      rfl
    have hcall := readFromSocket_plainBody hwait (by rw [hend]; rfl) (by rw [hend]; rfl)
      (by rw [hlength]; exact ⟨by omega, by omega⟩) (req.body ++ rest)
    have hdrop : (req.body ++ rest).drop r.expectedBodySize.toNat = rest := by simp [hlength]
    rw [hwhole, hdone, hdrop] at hcall
    rw [afterRead_within (by rw [hend]; rfl) (by omega) (by simp [hwait])]
    exact Reads.step ⟨by simp [hbody], by simp [hwait], by simp [hwait]⟩ hcall
      (reads_of_done (.inl rfl))

/-- **One request round trip.** The parser takes exactly the bytes of a well-formed request that
fits, and what the handler will see is what was sent. -/
theorem reads_request (rest : Bytes) :
    ∃ r', Reads (new settings) (req.bytes ++ rest) r' rest ∧ r'.status = .complete ∧
      r'.view.message = req.message := by
  refine ⟨_, ?_, rfl, receivedRequest_message settings req⟩
  have hlen := req.bytes_length
  rw [req.bytes_eq, List.append_assoc]
  exact reads_head hmax (by omega) _ (reads_body hmax req hfit rest)

end RoundTrip

end HttpRequest

end QtWebApp
