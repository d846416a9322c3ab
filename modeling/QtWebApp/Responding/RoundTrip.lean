import QtWebApp.Base.Framing
import QtWebApp.Connection.Closing
import QtWebApp.Responding.Output

/-!
# QtWebApp.Responding.RoundTrip

What a client makes of a response.

A request handler may send the body of its response in any number of writes, and the
response chooses its framing at the first of them. `Progress` says what has reached the
socket at any point: nothing, or a header block and the body as far as it was written, or a
whole message that a client decodes to the data of all writes. One call after the other
keeps it so (`Progress.call`), and so do all calls together with the end that `readHttp`
adds (`serve_roundTrip`).

The client is one that follows the standard (`decode`): it reads the header block up to the blank
line, chooses the framing by it, and takes the body from what follows. The bytes are those that the
socket has taken, in whatever blocks.
-/

namespace QtWebApp

open Bytes Framing

/-! ### What a request handler does

The conditions are those that the documentation asks of a request handler: to leave the framing to
the server, and to write nothing after the last part. -/

/-- A call that respects the framing: it sets no framing header and puts no line end into the
header block. -/
def ResponseCall.Plain : ResponseCall → Prop
  | .setHeader name value => OneLine name ∧ OneLine value ∧ fieldName name ∉ framingNames
  | .setStatus _ description => OneLine description
  | .setCookie cookie => OneLine cookie.toByteArray
  | .redirect url => OneLine url
  | _ => True

/-- The data that a call writes. -/
def ResponseCall.data : ResponseCall → Bytes
  | .write data _ => data
  | .redirect _ => ascii "Redirect"
  | _ => []

/-- The call writes. -/
def ResponseCall.Writes : ResponseCall → Prop
  | .write _ _ => True
  | .redirect _ => True
  | _ => False

/-- The call writes the last part. -/
def ResponseCall.Last : ResponseCall → Prop
  | .write _ lastPart => lastPart = true
  | .redirect _ => True
  | _ => False

/-- The last part, if it is written, is the final write. -/
def Orderly : List ResponseCall → Prop
  | [] => True
  | c :: cs => (c.Last → ∀ d ∈ cs, ¬ d.Writes) ∧ Orderly cs

/-- The network takes at least one byte of every block. -/
def Network.Accepts (net : Network) : Prop := ∀ n, net.accept n ≠ none

namespace HttpResponse

/-! ### Writing to the socket

A block may be taken in parts; the loop writes the rest until nothing is left. -/

/-- However the socket splits the writes, all of the data is taken. -/
theorem writeLoop_written {net : Network} (hnet : net.Accepts) {n : Nat} {data : Bytes}
    (hn : data.length ≤ n) {s : TcpSocket} (hopen : s.isOpen = true) :
    (writeLoop net n data s).2.written = s.written ++ data ∧
      (writeLoop net n data s).2.isOpen = true := by
  induction n generalizing data s with
  | zero =>
      obtain rfl : data = [] := List.length_eq_zero_iff.mp (by omega)
      simp [writeLoop, hopen]
  | succ n ih =>
      unfold writeLoop
      split
      · next hmore =>
          obtain ⟨k, hk⟩ := Option.ne_none_iff_exists'.mp (hnet s.writes)
          have hpos := List.length_pos_iff.mpr hmore.2
          simp only [TcpSocket.write, hk]
          have hlen : (data.drop (data.take (k + 1)).length).length ≤ n := by
            rw [List.length_drop, List.length_take]
            omega
          have hrest := ih hlen
            (s := { s with
              writes := s.writes + 1
              written := s.written ++ data.take (k + 1)
              unsent := s.unsent || !(data.take (k + 1)).isEmpty }) hopen
          refine ⟨hrest.1.trans ?_, hrest.2⟩
          have hdrop : data.drop (data.take (k + 1)).length = data.drop (k + 1) := by
            rw [List.length_take]
            rcases Nat.le_total (k + 1) data.length with hle | hle
            · rw [Nat.min_eq_left hle]
            · rw [Nat.min_eq_right hle, List.drop_length, List.drop_eq_nil_of_le hle]
          rw [hdrop]
          show s.written ++ data.take (k + 1) ++ data.drop (k + 1) = s.written ++ data
          rw [List.append_assoc, List.take_append_drop]
      · next hdone =>
          have hnil : data = [] := not_not.mp fun hne => hdone ⟨hopen, hne⟩
          rw [hnil, List.append_nil]
          exact ⟨rfl, hopen⟩

/-- The response `r'` is `r` after writing `data` to the socket. -/
structure Wrote (r : HttpResponse) (data : Bytes) (r' : HttpResponse) : Prop where
  written : r'.socket.written = r.socket.written ++ data
  isOpen : r'.socket.isOpen = true
  headers : r'.headers = r.headers
  cookies : r'.cookies = r.cookies
  statusCode : r'.statusCode = r.statusCode
  statusText : r'.statusText = r.statusText
  chunkedMode : r'.chunkedMode = r.chunkedMode

variable {net : Network}

/-- What is written one after the other. -/
theorem Wrote.trans {r r₁ r₂ : HttpResponse} {a b : Bytes} (h₁ : Wrote r a r₁)
    (h₂ : Wrote r₁ b r₂) :
    Wrote r (a ++ b) r₂ where
  written := by rw [h₂.written, h₁.written, List.append_assoc]
  isOpen := h₂.isOpen
  headers := h₂.headers.trans h₁.headers
  cookies := h₂.cookies.trans h₁.cookies
  statusCode := h₂.statusCode.trans h₁.statusCode
  statusText := h₂.statusText.trans h₁.statusText
  chunkedMode := h₂.chunkedMode.trans h₁.chunkedMode

theorem Wrote.nil {r : HttpResponse} (hopen : r.socket.isOpen = true) : Wrote r [] r :=
  ⟨(List.append_nil _).symm, hopen, rfl, rfl, rfl, rfl, rfl⟩

/-- A block is written as a whole. -/
theorem writeToSocket_wrote (hnet : net.Accepts) {r : HttpResponse} (hopen : r.socket.isOpen = true)
    (data : Bytes) : Wrote r data (r.writeToSocket net data) := by
  obtain ⟨hwritten, hopen'⟩ := writeLoop_written hnet (Nat.le_refl data.length) hopen
  exact ⟨hwritten, hopen', rfl, rfl, rfl, rfl, rfl⟩

/-- What the data of one call looks like on the wire. -/
def encoded (r : HttpResponse) (data : Bytes) : Bytes :=
  if data = [] then [] else if r.chunkedMode then chunk data else data

/-- A part is written as its chunk, or as it is. -/
theorem writeData_wrote (hnet : net.Accepts) {r : HttpResponse} (hopen : r.socket.isOpen = true)
    (data : Bytes) : Wrote r (r.encoded data) (r.writeData net data) := by
  unfold writeData encoded
  split
  · exact .nil hopen
  · split
    · -- size, line end, data and line end are written one after the other
      have h₁ := writeToSocket_wrote hnet hopen (number16 data.length)
      have h₂ := h₁.trans (writeToSocket_wrote hnet h₁.isOpen CRLF)
      have h₃ := h₂.trans (writeToSocket_wrote hnet h₂.isOpen data)
      exact h₃.trans (writeToSocket_wrote hnet h₃.isOpen CRLF)
    · exact writeToSocket_wrote hnet hopen data

/-- The last chunk ends a chunked body. -/
theorem finish_wrote (hnet : net.Accepts) {r : HttpResponse} (hopen : r.socket.isOpen = true) :
    Wrote r (if r.chunkedMode then lastChunk else []) (r.finish net) := by
  have hflush : ∀ r' : HttpResponse, r'.socket.isOpen = true →
      Wrote r' [] { r' with socket := r'.socket.flush net, sentLastPart := true } :=
    fun r' hopen' => ⟨(List.append_nil _).symm, hopen', rfl, rfl, rfl, rfl, rfl⟩
  unfold finish
  dsimp only
  by_cases hmode : r.chunkedMode = true
  · have hlast := writeToSocket_wrote hnet hopen (ascii "0\r\n\r\n")
    rw [if_pos hmode, if_pos hmode]
    have hall := hlast.trans (hflush _ hlast.isOpen)
    rwa [List.append_nil] at hall
  · rw [if_neg hmode, if_neg hmode]
    exact hflush r hopen

/-! ### The header block

A client finds exactly one framing in it, the one by which the body is written. -/

/-- The headers that the server sets itself. -/
def ownNames : List Bytes :=
  [ascii "Connection", ascii "Content-Length", ascii "Transfer-Encoding"]

/-- The status line. -/
def statusLine (r : HttpResponse) : Bytes :=
  ascii "HTTP/1.1 " ++ number r.statusCode ++ ascii " " ++ r.statusText

/-- A header line without its end. -/
def line (name value : Bytes) : Bytes := name ++ 58 :: SP :: value

/-- The header lines of a response. -/
def headerLines (r : HttpResponse) : List Bytes :=
  (r.headers.toList.map fun h => line h.1 h.2) ++
    r.cookies.toList.map fun c => line (ascii "Set-Cookie") c.2.toByteArray

/-- The header block is made of lines. -/
theorem headerBlock_eq (r : HttpResponse) :
    r.headerBlock = block (r.statusLine :: r.headerLines) := by
  have hline : ∀ name value, headerLine name value = line name value ++ CRLF := by
    intro name value
    have hcolon : ascii ": " = [58, SP] := by decide
    simp [headerLine, line, hcolon]
  unfold headerBlock block headerLines
  simp only [hline, List.flatMap_cons, List.flatMap_append, List.flatMap_map, statusLine,
    List.append_assoc]

/-! ### The headers of a response

What the response holds at each moment: of its own headers those that the server has set so far, and
otherwise headers that are a line each. -/

/-- The state of the headers: which framing headers there are, and nothing that would spoil them. -/
structure Clean (close : Bool) (length coding : Option Bytes) (r : HttpResponse) : Prop where
  connection : r.headers[ascii "Connection"]? = if close then some (ascii "close") else none
  length : r.headers[ascii "Content-Length"]? = length
  coding : r.headers[ascii "Transfer-Encoding"]? = coding
  oneLine : ∀ k v, r.headers[k]? = some v → OneLine k ∧ OneLine v
  others : ∀ k v, r.headers[k]? = some v → k ∉ ownNames → fieldName k ∉ framingNames
  cookies : ∀ (k : Bytes) (c : HttpCookie), r.cookies[k]? = some c → OneLine c.toByteArray
  status : OneLine r.statusText
  isOpen : r.socket.isOpen = true

theorem fieldName_line (name value : Bytes) : fieldName (line name value) = fieldName name :=
  fieldName_append _

theorem ownNames_injective : ∀ k ∈ ownNames, ∀ k' ∈ ownNames,
    fieldName k = fieldName k' → k = k' := by
  decide

theorem ownNames_framing : ∀ k ∈ ownNames, fieldName k ∈ framingNames ∧ 58 ∉ k := by decide

/-- A client finds the framing headers, and only those the server has set. -/
theorem lookup_own {close : Bool} {length coding : Option Bytes} {r : HttpResponse}
    (h : Clean close length coding r) {name : Bytes} (hname : name ∈ ownNames) :
    lookup (fieldName name) r.headerLines =
      (r.headers[name]?).map fun v => trimmed (SP :: v) := by
  -- a line with this field is the line of this header
  have honly : ∀ l ∈ r.headerLines, fieldName l = fieldName name →
      ∃ v, r.headers[name]? = some v ∧ l = line name v := by
    intro l hl hfield
    rcases List.mem_append.mp hl with hl | hl
    · obtain ⟨⟨k, v⟩, hkv, rfl⟩ := List.mem_map.mp hl
      have hget := Std.ExtTreeMap.mem_toList_iff_getElem?_eq_some.mp hkv
      rw [fieldName_line] at hfield
      by_cases hown : k ∈ ownNames
      · obtain rfl := ownNames_injective k hown name hname hfield
        exact ⟨v, hget, rfl⟩
      · exact absurd (hfield ▸ (ownNames_framing name hname).1) (h.others k v hget hown)
    · obtain ⟨c, -, rfl⟩ := List.mem_map.mp hl
      rw [fieldName_line] at hfield
      have hcookie : fieldName (ascii "Set-Cookie") ∉ framingNames := by decide
      exact absurd (hfield ▸ (ownNames_framing name hname).1) hcookie
  cases hget : r.headers[name]? with
  | none =>
      refine lookup_none fun l hl hfield => ?_
      obtain ⟨v, hv, -⟩ := honly l hl hfield
      rw [hget] at hv
      cases hv
  | some v =>
      have hmem : line name v ∈ r.headerLines := by
        refine List.mem_append_left _ (List.mem_map.mpr ⟨(name, v), ?_, rfl⟩)
        exact Std.ExtTreeMap.mem_toList_iff_getElem?_eq_some.mpr hget
      rw [lookup_unique hmem (fieldName_line name v) fun l hl hfield => ?_]
      · rw [line, fieldValue_append (ownNames_framing name hname).2]
        rfl
      · obtain ⟨v', hv', rfl⟩ := honly l hl hfield
        rw [hget] at hv'
        cases hv'
        rfl

/-- What a client finds of the two headers that say where the body ends. -/
theorem lookup_framing {close : Bool} {length coding : Option Bytes} {r : HttpResponse}
    (h : Clean close length coding r) :
    lookup (ascii "transfer-encoding") r.headerLines = (coding.map fun v => trimmed (SP :: v)) ∧
      lookup (ascii "content-length") r.headerLines = (length.map fun v => trimmed (SP :: v)) := by
  have hcoding := lookup_own h (show ascii "Transfer-Encoding" ∈ ownNames by decide)
  have hlength := lookup_own h (show ascii "Content-Length" ∈ ownNames by decide)
  have hcodingName : fieldName (ascii "Transfer-Encoding") = ascii "transfer-encoding" := by decide
  have hlengthName : fieldName (ascii "Content-Length") = ascii "content-length" := by decide
  rw [hcodingName, h.coding] at hcoding
  rw [hlengthName, h.length] at hlength
  exact ⟨hcoding, hlength⟩

/-- A chunked body. -/
theorem kind_chunked {close : Bool} {length : Option Bytes} {r : HttpResponse}
    (h : Clean close length (some (ascii "chunked")) r) : kind r.headerLines = some .chunked := by
  have hvalue : toLower (trimmed (SP :: ascii "chunked")) = ascii "chunked" := by decide
  rw [kind, (lookup_framing h).1]
  exact if_pos hvalue

/-- A body of a known length. -/
theorem kind_length {close : Bool} {n : Nat} {r : HttpResponse}
    (h : Clean close (some (number n)) none r) : kind r.headerLines = some (.length n) := by
  rw [kind, (lookup_framing h).1, (lookup_framing h).2]
  show (numeral 10 (trimmed (SP :: number n))).map Kind.length = _
  rw [numeral_number]
  rfl

/-- A body that ends with the connection. -/
theorem kind_untilClose {close : Bool} {r : HttpResponse} (h : Clean close none none r) :
    kind r.headerLines = some .untilClose := by
  rw [kind, (lookup_framing h).1, (lookup_framing h).2]
  rfl

/-- What a header block says to a client about the bytes behind it. -/
def Heads (k : Kind) (head : Bytes) : Prop :=
  ∀ b, decode (head ++ b) = (body k b).map fun p => (k, p.1, p.2)

/-- **The header block** is read as it was meant. -/
theorem heads_headerBlock {close : Bool} {length coding : Option Bytes} {r : HttpResponse}
    (h : Clean close length coding r) {k : Kind} (hk : kind r.headerLines = some k) :
    Heads k r.headerBlock := by
  intro b
  rw [headerBlock_eq]
  have hlineNe : ∀ name value, line name value ≠ [] := by
    intro name value
    simp [line]
  have hline : ∀ {name value}, OneLine name → OneLine value → OneLine (line name value) := by
    intro name value hname hvalue
    have hcolon : line name value = name ++ (ascii ": " ++ value) := by
      simp [line, ascii]
    rw [hcolon]
    simp only [oneLine_append]
    exact ⟨hname, by decide, hvalue⟩
  refine decode_block ⟨?_, ?_⟩ ?_ hk b
  · simp only [statusLine, oneLine_append]
    exact ⟨⟨⟨by decide, number_oneLine _⟩, by decide⟩, h.status⟩
  · simp [statusLine, ascii]
  · intro l hl
    rcases List.mem_append.mp hl with hl | hl
    · obtain ⟨⟨k, v⟩, hkv, rfl⟩ := List.mem_map.mp hl
      obtain ⟨hk, hv⟩ := h.oneLine k v (Std.ExtTreeMap.mem_toList_iff_getElem?_eq_some.mp hkv)
      exact ⟨hline hk hv, hlineNe _ _⟩
    · obtain ⟨⟨k, c⟩, hkc, rfl⟩ := List.mem_map.mp hl
      have hc := h.cookies k c (Std.ExtTreeMap.mem_toList_iff_getElem?_eq_some.mp hkc)
      exact ⟨hline (by decide) hc, hlineNe _ _⟩

/-! ### Changes of the headers

The framing headers are not touched by what a request handler may set. -/

section Clean

variable {close : Bool} {length coding : Option Bytes} {r r' : HttpResponse}

theorem Clean.congr (h : Clean close length coding r) (hheaders : r'.headers = r.headers)
    (hcookies : r'.cookies = r.cookies) (hstatus : r'.statusText = r.statusText)
    (hopen : r'.socket.isOpen = true) : Clean close length coding r' where
  connection := by rw [hheaders]; exact h.connection
  length := by rw [hheaders]; exact h.length
  coding := by rw [hheaders]; exact h.coding
  oneLine := by rw [hheaders]; exact h.oneLine
  others := by rw [hheaders]; exact h.others
  cookies := by rw [hcookies]; exact h.cookies
  status := by rw [hstatus]; exact h.status
  isOpen := hopen

/-- Writing leaves the headers alone. -/
theorem Clean.wrote {data : Bytes} (h : Clean close length coding r) (hw : Wrote r data r') :
    Clean close length coding r' :=
  h.congr hw.headers hw.cookies hw.statusText hw.isOpen

theorem getElem_insert_self (m : QMap Bytes) (k v : Bytes) : (m.insert k v)[k]? = some v := by grind

theorem getElem_insert_ne (m : QMap Bytes) {k k' : Bytes} (v : Bytes) (h : k ≠ k') :
    (m.insert k v)[k']? = m[k']? := by grind

/-- A header under a name that is not one of the server's own. -/
theorem Clean.setHeader (h : Clean close length coding r) {name value : Bytes} (hn : OneLine name)
    (hv : OneLine value) (hname : fieldName name ∉ framingNames) :
    Clean close length coding (r.setHeader name value) := by
  have hne : ∀ k ∈ ownNames, (r.setHeader name value).headers[k]? = r.headers[k]? := fun k hk =>
    getElem_insert_ne _ _ fun he => hname (he ▸ (ownNames_framing k hk).1)
  have hget : ∀ k v', (r.setHeader name value).headers[k]? = some v' →
      (k = name ∧ v' = value) ∨ r.headers[k]? = some v' := by
    intro k v' hk
    by_cases he : name = k
    · subst he
      have hself := getElem_insert_self r.headers name value
      exact .inl ⟨rfl, Option.some.inj (hk.symm.trans hself)⟩
    · exact .inr ((getElem_insert_ne r.headers value he).symm.trans hk)
  refine ⟨?_, ?_, ?_, fun k v' hk => ?_, fun k v' hk hown => ?_, h.cookies, h.status, h.isOpen⟩
  · exact (hne _ (by decide)).trans h.connection
  · exact (hne _ (by decide)).trans h.length
  · exact (hne _ (by decide)).trans h.coding
  · rcases hget k v' hk with ⟨rfl, rfl⟩ | hold
    · exact ⟨hn, hv⟩
    · exact h.oneLine k v' hold
  · rcases hget k v' hk with ⟨rfl, rfl⟩ | hold
    · exact hname
    · exact h.others k v' hold hown

/-- A header of the server's own. -/
theorem Clean.setOwn (h : Clean close length coding r) {name value : Bytes} (hown : name ∈ ownNames)
    (hv : OneLine value) :
    (∀ k v, (r.setHeader name value).headers[k]? = some v → OneLine k ∧ OneLine v) ∧
      ∀ k v, (r.setHeader name value).headers[k]? = some v → k ∉ ownNames →
        fieldName k ∉ framingNames := by
  have hline : ∀ k ∈ ownNames, OneLine k := by decide
  refine ⟨fun k v hk => ?_, fun k v hk hother => ?_⟩
  · by_cases he : name = k
    · subst he
      have hself := getElem_insert_self r.headers name value
      obtain rfl : value = v := Option.some.inj (hself.symm.trans hk)
      exact ⟨hline name hown, hv⟩
    · exact h.oneLine k v ((getElem_insert_ne r.headers value he).symm.trans hk)
  · have he : name ≠ k := fun he => hother (he ▸ hown)
    exact h.others k v ((getElem_insert_ne r.headers value he).symm.trans hk) hother

theorem Clean.setLength (h : Clean close length coding r) (n : Nat) :
    Clean close (some (number n)) coding (r.setHeader (ascii "Content-Length") (number n)) := by
  obtain ⟨hline, hothers⟩ := h.setOwn (show ascii "Content-Length" ∈ ownNames by decide)
    (number_oneLine n)
  exact ⟨(getElem_insert_ne _ _ (by decide)).trans h.connection, getElem_insert_self _ _ _,
    (getElem_insert_ne _ _ (by decide)).trans h.coding, hline, hothers, h.cookies,
    h.status, h.isOpen⟩

theorem Clean.setCoding (h : Clean close length coding r) :
    Clean close length (some (ascii "chunked"))
      (r.setHeader (ascii "Transfer-Encoding") (ascii "chunked")) := by
  obtain ⟨hline, hothers⟩ := h.setOwn (show ascii "Transfer-Encoding" ∈ ownNames by decide)
    (show OneLine (ascii "chunked") by decide)
  exact ⟨(getElem_insert_ne _ _ (by decide)).trans h.connection,
    (getElem_insert_ne _ _ (by decide)).trans h.length, getElem_insert_self _ _ _, hline, hothers,
    h.cookies, h.status, h.isOpen⟩

/-- A cookie is a header line of its own. -/
theorem Clean.setCookie (h : Clean close length coding r) {cookie : HttpCookie}
    (hc : OneLine cookie.toByteArray) : Clean close length coding (r.setCookie cookie) := by
  unfold HttpResponse.setCookie
  split
  · exact h
  · refine ⟨h.connection, h.length, h.coding, h.oneLine, h.others, fun k c hk => ?_,
      h.status, h.isOpen⟩
    by_cases he : cookie.name = k
    · have hself : (r.cookies.insert cookie.name cookie)[k]? = some cookie := by subst he; grind
      obtain rfl : cookie = c := Option.some.inj (hself.symm.trans hk)
      exact hc
    · have hold : (r.cookies.insert cookie.name cookie)[k]? = r.cookies[k]? := by grind
      exact h.cookies k c (hold.symm.trans hk)

/-- The first write looks at the `Connection` header, which only the server sets. -/
theorem Clean.connectionValue (h : Clean close length coding r) :
    equalsFolded r.connectionValue (ascii "close") = close := by
  have hlower : r.headers[ascii "connection"]? = none := by
    cases hget : r.headers[ascii "connection"]? with
    | none => rfl
    | some v =>
        have hname : fieldName (ascii "connection") ∈ framingNames := by decide
        exact absurd hname (h.others _ v hget (by decide))
  rw [HttpResponse.connectionValue, header, Std.ExtTreeMap.getD_eq_getD_getElem?,
    Std.ExtTreeMap.getD_eq_getD_getElem?, h.connection, hlower]
  cases close <;> decide

end Clean

/-! ### The progress of a response

The invariant from the first call to the last. Behind each state stands what the client would read
so far. -/

/-- The headers have been sent and the body is being written. The first argument is the length of
the body when the headers announce it. -/
inductive Stream (close : Bool) (old : Bytes) (data : Bytes) (r : HttpResponse) :
    Option Nat → Prop
  | chunked (head : Bytes) (pieces : List Bytes) (hclose : close = false)
      (clean : Clean close none (some (ascii "chunked")) r) (hmode : r.chunkedMode = true)
      (hhead : Heads .chunked head) (hpieces : ∀ d ∈ pieces, d ≠ [])
      (hwritten : r.socket.written = old ++ (head ++ pieces.flatMap chunk))
      (hdata : data = pieces.flatten) : Stream close old data r none
  | untilClose (head : Bytes) (hclose : close = true) (clean : Clean close none none r)
      (hmode : r.chunkedMode = false) (hhead : Heads .untilClose head)
      (hwritten : r.socket.written = old ++ (head ++ data)) : Stream close old data r none
  | length (head : Bytes) (n : Nat) (clean : Clean close (some (number n)) none r)
      (hmode : r.chunkedMode = false) (hhead : Heads (.length n) head)
      (hwritten : r.socket.written = old ++ (head ++ data)) : Stream close old data r (some n)

/-- The last part has been written: a client decodes the message to the data. -/
structure Done (close : Bool) (old : Bytes) (data : Bytes) (r : HttpResponse)
    (k : Kind) : Prop where
  message : ∃ out, r.socket.written = old ++ out ∧ decode out = some (k, data, [])
  headers : ∃ length coding, Clean close length coding r
  kind : (k = .chunked ∧ close = false) ∨ k = .length data.length ∨ (k = .untilClose ∧ close = true)

/-- How far a response has come. -/
inductive Progress (close : Bool) (old : Bytes) (data : Bytes) (r : HttpResponse) : Prop
  | before (clean : Clean close none none r) (hsent : r.sentHeaders = false)
      (hlast : r.sentLastPart = false) (hmode : r.chunkedMode = false)
      (hwritten : r.socket.written = old) (hdata : data = [])
  | streaming (stream : Stream close old data r none) (hsent : r.sentHeaders = true)
      (hlast : r.sentLastPart = false)
  | done (k : Kind) (done : Done close old data r k) (hlast : r.sentLastPart = true)

section Progress

variable {net : Network} {close : Bool} {old data : Bytes} {r : HttpResponse}
  {announced : Option Nat}

/-- The socket stays open while the body is written. -/
theorem Stream.isOpen (h : Stream close old data r announced) : r.socket.isOpen = true := by
  cases h with
  | chunked _ _ _ clean => exact clean.isOpen
  | untilClose _ _ clean => exact clean.isOpen
  | length _ _ clean => exact clean.isOpen

/-- The data of one more write. -/
theorem Stream.writeData (hnet : net.Accepts) (h : Stream close old data r announced) (d : Bytes) :
    Stream close old (data ++ d) (r.writeData net d) announced := by
  have hwrote := writeData_wrote hnet h.isOpen d
  cases h with
  | chunked head pieces hclose clean hmode hhead hpieces hwritten hdata =>
      have hmode' := hwrote.chunkedMode.trans hmode
      by_cases hd : d = []
      · have hnothing : r.encoded d = [] := if_pos hd
        refine .chunked head pieces hclose (clean.wrote hwrote) hmode' hhead hpieces ?_ ?_
        · rw [hwrote.written, hnothing, List.append_nil, hwritten]
        · rw [hd, List.append_nil, hdata]
      · have hchunk : r.encoded d = chunk d := by rw [encoded, if_neg hd, if_pos hmode]
        refine .chunked head (pieces ++ [d]) hclose (clean.wrote hwrote) hmode' hhead ?_ ?_ ?_
        · intro d' hd'
          rcases List.mem_append.mp hd' with hold | hnew
          · exact hpieces d' hold
          · rwa [List.mem_singleton.mp hnew]
        · rw [hwrote.written, hchunk, hwritten, List.flatMap_append]
          simp [List.append_assoc]
        · rw [hdata]
          simp
  | untilClose head hclose clean hmode hhead hwritten =>
      have hplain : r.encoded d = d := by
        unfold encoded
        rw [hmode]
        split
        · next hd => exact hd.symm
        · rfl
      refine .untilClose head hclose (clean.wrote hwrote) (hwrote.chunkedMode.trans hmode) hhead ?_
      rw [hwrote.written, hplain, hwritten]
      simp [List.append_assoc]
  | length head n clean hmode hhead hwritten =>
      have hplain : r.encoded d = d := by
        unfold encoded
        rw [hmode]
        split
        · next hd => exact hd.symm
        · rfl
      refine .length head n (clean.wrote hwrote) (hwrote.chunkedMode.trans hmode) hhead ?_
      rw [hwrote.written, hplain, hwritten]
      simp [List.append_assoc]

/-- The end of the last part. -/
theorem Stream.finish (hnet : net.Accepts) (h : Stream close old data r announced)
    (hlength : ∀ n, announced = some n → n = data.length) :
    ∃ k, Done close old data (r.finish net) k := by
  have hwrote := finish_wrote hnet h.isOpen
  cases h with
  | chunked head pieces hclose clean hmode hhead hpieces hwritten hdata =>
      refine ⟨.chunked, ⟨head ++ pieces.flatMap chunk ++ lastChunk, ?_, ?_⟩,
        ⟨_, _, clean.wrote hwrote⟩, .inl ⟨rfl, hclose⟩⟩
      · rw [hwrote.written, hwritten, hmode, if_pos rfl]
        simp [List.append_assoc]
      · rw [List.append_assoc, hhead, body_chunked hpieces, hdata]
        rfl
  | untilClose head hclose clean hmode hhead hwritten =>
      refine ⟨.untilClose, ⟨head ++ data, ?_, ?_⟩, ⟨_, _, clean.wrote hwrote⟩,
        .inr (.inr ⟨rfl, hclose⟩)⟩
      · rw [hwrote.written, hwritten, hmode]
        simp
      · rw [hhead]
        rfl
  | length head n clean hmode hhead hwritten =>
      obtain rfl := hlength n rfl
      refine ⟨.length data.length, ⟨head ++ data, ?_, ?_⟩, ⟨_, _, clean.wrote hwrote⟩,
        .inr (.inl rfl)⟩
      · rw [hwrote.written, hwritten, hmode]
        simp
      · rw [hhead, body_length]
        rfl

/-- The first write sends the headers, which announce the framing. -/
theorem Clean.firstWrite (hnet : net.Accepts) (clean : Clean close none none r)
    (hmode : r.chunkedMode = false) (d : Bytes) (lastPart : Bool) :
    Stream close r.socket.written [] ((r.chooseFraming d lastPart).writeHeaders net)
      (if lastPart then some d.length else none) := by
  -- whatever is chosen, the block that is written is that of the response with its new headers
  have hsend : ∀ {length coding} {s : HttpResponse} {k : Kind}, Clean close length coding s →
      kind s.headerLines = some k → s.socket = r.socket →
      Heads k s.headerBlock ∧ Clean close length coding (s.writeHeaders net) ∧
        (s.writeHeaders net).chunkedMode = s.chunkedMode ∧
        (s.writeHeaders net).socket.written = r.socket.written ++ (s.headerBlock ++ []) := by
    intro length coding s k hs hk hsocket
    have hwrote := writeToSocket_wrote hnet hs.isOpen s.headerBlock
    have hwritten := hwrote.written
    rw [hsocket] at hwritten
    have hclean := hs.wrote hwrote
    exact ⟨heads_headerBlock hs hk, hclean.congr rfl rfl rfl hclean.isOpen, hwrote.chunkedMode,
      hwritten.trans (by rw [List.append_nil])⟩
  unfold chooseFraming
  rw [clean.connectionValue]
  cases lastPart with
  | true =>
      have hlength := clean.setLength d.length
      obtain ⟨hhead, hclean, hmode', hwritten⟩ := hsend hlength (kind_length hlength) rfl
      exact .length _ d.length hclean (hmode'.trans hmode) hhead hwritten
  | false =>
      cases hc : close with
      | true =>
          subst hc
          obtain ⟨hhead, hclean, hmode', hwritten⟩ := hsend clean (kind_untilClose clean) rfl
          exact .untilClose _ rfl hclean (hmode'.trans hmode) hhead hwritten
      | false =>
          subst hc
          have hcoding : Clean false none (some (ascii "chunked"))
              { r.setHeader (ascii "Transfer-Encoding") (ascii "chunked") with
                chunkedMode := true } :=
            clean.setCoding.congr rfl rfl rfl clean.isOpen
          obtain ⟨hhead, hclean, hmode', hwritten⟩ := hsend hcoding (kind_chunked hcoding) rfl
          exact .chunked _ [] rfl hclean hmode' hhead (by simp) hwritten rfl

/-- **One write.** -/
theorem Progress.write (hnet : net.Accepts) (h : Progress close old data r)
    (hopen : r.sentLastPart = false) (d : Bytes) (lastPart : Bool) :
    Progress close old (data ++ d) (r.write net d lastPart) ∧
      (r.write net d lastPart).sentLastPart = lastPart := by
  -- the headers have been sent, now or earlier
  have hstream : ∃ announced, Stream close old data (if r.sentHeaders then r
        else (r.chooseFraming d lastPart).writeHeaders net) announced ∧
      (if r.sentHeaders then r
        else (r.chooseFraming d lastPart).writeHeaders net).sentHeaders = true ∧
      (if r.sentHeaders then r
        else (r.chooseFraming d lastPart).writeHeaders net).sentLastPart = false ∧
      ((lastPart = false → announced = none) ∧
        ∀ n, announced = some n → n = (data ++ d).length) := by
    cases h with
    | before clean hsent hlast hmode hwritten hdata =>
        have hfirst := clean.firstWrite hnet hmode d lastPart
        rw [hwritten] at hfirst
        subst hdata
        have hflag : ((r.chooseFraming d lastPart).writeHeaders net).sentLastPart = false := by
          have hsame : (r.chooseFraming d lastPart).sentLastPart = r.sentLastPart := by
            unfold chooseFraming
            split
            · rfl
            · split <;> rfl
          exact hsame.trans hlast
        rw [hsent]
        refine ⟨_, hfirst, rfl, hflag, fun hno => by rw [hno]; rfl, fun n hn => ?_⟩
        cases lastPart with
        | true => exact (Option.some.inj hn).symm
        | false => cases hn
    | streaming stream hsent hlast =>
        rw [hsent]
        exact ⟨none, stream, hsent, hlast, fun _ => rfl, fun n hn => by cases hn⟩
    | done k _ hlast => exact absurd (hlast.symm.trans hopen) (by decide)
  obtain ⟨announced, hstream, hsent, hlast, hnone, hlength⟩ := hstream
  unfold HttpResponse.write
  dsimp only
  generalize (if r.sentHeaders then r else (r.chooseFraming d lastPart).writeHeaders net) = s at *
  obtain ⟨-, hsent', hlast'⟩ := writeData_fields net s d
  have hdata := hstream.writeData hnet d
  cases lastPart with
  | true =>
      obtain ⟨k, hdone⟩ := hdata.finish hnet hlength
      exact ⟨.done k hdone rfl, rfl⟩
  | false =>
      obtain rfl := hnone rfl
      exact ⟨.streaming hdata (hsent'.trans hsent) (hlast'.trans hlast), hlast'.trans hlast⟩

/-- What does not concern the body or the socket leaves the progress as it is. -/
theorem Progress.congr {r' : HttpResponse} (h : Progress close old data r)
    (hclean : ∀ {length coding}, Clean close length coding r → Clean close length coding r')
    (hsent : r'.sentHeaders = r.sentHeaders) (hlast : r'.sentLastPart = r.sentLastPart)
    (hmode : r'.chunkedMode = r.chunkedMode) (hwritten : r'.socket.written = r.socket.written) :
    Progress close old data r' := by
  cases h with
  | before clean hs hl hm hw hd =>
      exact .before (hclean clean) (hsent.trans hs) (hlast.trans hl) (hmode.trans hm)
        (hwritten.trans hw) hd
  | streaming stream hs hl =>
      refine .streaming ?_ (hsent.trans hs) (hlast.trans hl)
      cases stream with
      | chunked head pieces hclose clean hm hhead hpieces hw hdata =>
          exact .chunked head pieces hclose (hclean clean) (hmode.trans hm) hhead hpieces
            (hwritten.trans hw) hdata
      | untilClose head hclose clean hm hhead hw =>
          exact .untilClose head hclose (hclean clean) (hmode.trans hm) hhead (hwritten.trans hw)
  | done k done hl =>
      obtain ⟨⟨out, hout, hdecode⟩, ⟨length, coding, clean⟩, hkind⟩ := done
      exact .done k ⟨⟨out, hwritten.trans hout, hdecode⟩, ⟨length, coding, hclean clean⟩, hkind⟩
        (hlast.trans hl)

/-- A header that is none of the framing. -/
theorem Progress.setHeader (h : Progress close old data r) {name value : Bytes} (hn : OneLine name)
    (hv : OneLine value) (hname : fieldName name ∉ framingNames) :
    Progress close old data (r.setHeader name value) :=
  h.congr (fun clean => clean.setHeader hn hv hname) rfl rfl rfl rfl

/-- A status. -/
theorem Progress.setStatus (h : Progress close old data r) (statusCode : Int) {description : Bytes}
    (hd : OneLine description) : Progress close old data (r.setStatus statusCode description) :=
  h.congr (fun clean => { clean with status := hd }) rfl rfl rfl rfl

/-- **One call of a request handler.** -/
theorem Progress.call (hnet : net.Accepts) (h : Progress close old data r) {c : ResponseCall}
    (hc : c.Plain) (hopen : c.Writes → r.sentLastPart = false) :
    Progress close old (data ++ c.data) (r.call net c) ∧
      ((r.call net c).sentLastPart = true → c.Last ∨ r.sentLastPart = true) := by
  have hnil : data ++ [] = data := List.append_nil data
  cases c with
  | setHeader name value =>
      obtain ⟨hn, hv, hname⟩ := hc
      exact ⟨hnil.symm ▸ h.setHeader hn hv hname, .inr⟩
  | setStatus statusCode description => exact ⟨hnil.symm ▸ h.setStatus statusCode hc, .inr⟩
  | setCookie cookie =>
      have hsame : (r.setCookie cookie).sentHeaders = r.sentHeaders ∧
          (r.setCookie cookie).sentLastPart = r.sentLastPart ∧
          (r.setCookie cookie).chunkedMode = r.chunkedMode ∧
          (r.setCookie cookie).socket = r.socket := by
        unfold HttpResponse.setCookie
        split <;> exact ⟨rfl, rfl, rfl, rfl⟩
      obtain ⟨hsent, hlast, hmode, hsocket⟩ := hsame
      refine ⟨hnil.symm ▸ h.congr (fun clean => clean.setCookie hc) hsent hlast hmode
        (congrArg TcpSocket.written hsocket), ?_⟩
      intro hdone
      exact .inr (hlast.symm.trans hdone)
  | write d lastPart =>
      obtain ⟨hnext, hlast⟩ := h.write hnet (hopen trivial) d lastPart
      refine ⟨hnext, ?_⟩
      intro hdone
      exact .inl (hlast.symm.trans hdone)
  | redirect url =>
      have hstatus := h.setStatus 303 (show OneLine (ascii "See Other") by decide)
      have hlocation := hstatus.setHeader (show OneLine (ascii "Location") by decide) hc (by decide)
      exact ⟨(hlocation.write hnet (hopen trivial) (ascii "Redirect") true).1,
        fun _ => .inl trivial⟩
  | flush =>
      exact ⟨hnil.symm ▸ h.congr (fun clean => { clean with isOpen := clean.isOpen })
        rfl rfl rfl rfl,
        .inr⟩

/-- **All calls of a request handler.** -/
theorem Progress.calls (hnet : net.Accepts) {cs : List ResponseCall} (hcs : ∀ c ∈ cs, c.Plain)
    (horder : Orderly cs) (h : Progress close old data r)
    (hdone : r.sentLastPart = true → ∀ c ∈ cs, ¬ c.Writes) :
    Progress close old (data ++ cs.flatMap ResponseCall.data)
      (cs.foldl (HttpResponse.call net) r) := by
  induction cs generalizing data r with
  | nil => simpa using h
  | cons c cs ih =>
      have hopen : c.Writes → r.sentLastPart = false := by
        intro hwrites
        by_contra hlast
        exact hdone (Bool.not_eq_false _ ▸ hlast) c List.mem_cons_self hwrites
      obtain ⟨hnext, hlast⟩ := h.call hnet (hcs c List.mem_cons_self) hopen
      have hrest := ih (fun d hd => hcs d (List.mem_cons_of_mem c hd)) horder.2 hnext ?_
      · rw [List.flatMap_cons, ← List.append_assoc]
        exact hrest
      · intro hsent d hd
        rcases hlast hsent with hlastCall | hbefore
        · exact horder.1 hlastCall d hd
        · exact hdone hbefore d (List.mem_cons_of_mem c hd)

end Progress

end HttpResponse

namespace HttpConnectionHandler

open HttpResponse

/-! ### From a request to its answer

The response begins as the connection handler makes it, and ends with the last write of the
application or of the handler. -/

/-- The request wants the connection to be closed after the response. -/
def wantsClose (request : HttpRequest) : Bool := closeRequested request || isHttp10 request

/-- A new response has sent nothing. -/
theorem newResponse_progress {h : HttpConnectionHandler} (hopen : h.socket.isOpen = true)
    (request : HttpRequest) :
    Progress (wantsClose request) h.socket.written [] (h.newResponse request) := by
  have hnone : ∀ k : Bytes, (∅ : QMap Bytes)[k]? = none := by intro k; simp
  have hnew : Clean false none none (HttpResponse.new h.socket) := by
    refine ⟨hnone _, hnone _, hnone _, fun k v hk => ?_, fun k v hk => ?_,
      fun k c hk => ?_, ?_, hopen⟩
    · rw [show (HttpResponse.new h.socket).headers[k]? = none from hnone k] at hk
      cases hk
    · rw [show (HttpResponse.new h.socket).headers[k]? = none from hnone k] at hk
      cases hk
    · have hempty : (HttpResponse.new h.socket).cookies[k]? = none := by
        show (∅ : QMap HttpCookie)[k]? = none
        simp
      rw [hempty] at hk
      cases hk
    · show OneLine (ascii "OK")
      decide
  unfold newResponse wantsClose
  dsimp only
  cases closeRequested request || isHttp10 request with
  | false => exact .before hnew rfl rfl rfl rfl rfl
  | true =>
      obtain ⟨hline, hothers⟩ := hnew.setOwn (show ascii "Connection" ∈ ownNames by decide)
        (show OneLine (ascii "close") by decide)
      exact .before ⟨getElem_insert_self _ _ _,
        (getElem_insert_ne _ _ (by decide)).trans hnew.length,
        (getElem_insert_ne _ _ (by decide)).trans hnew.coding, hline, hothers,
        hnew.cookies, hnew.status,
        hopen⟩ rfl rfl rfl rfl rfl

/-- The response once `readHttp` has seen to its end. -/
theorem respond_done {server : Server} {h : HttpConnectionHandler} {request : HttpRequest}
    (hnet : server.network.Accepts) (hopen : h.socket.isOpen = true)
    (hplain : ∀ c ∈ server.service h.served request.view, c.Plain)
    (horder : Orderly (server.service h.served request.view)) :
    ∃ k, Done (wantsClose request) h.socket.written
      ((server.service h.served request.view).flatMap ResponseCall.data)
      (h.respond server request) k := by
  have hstart := newResponse_progress hopen request
  have hfresh : (h.newResponse request).sentLastPart = false := by
    unfold newResponse
    dsimp only
    split <;> rfl
  have hcalls := hstart.calls hnet hplain horder fun hlast =>
    absurd (hlast.symm.trans hfresh) (by decide)
  rw [List.nil_append] at hcalls
  unfold respond
  dsimp only
  split
  · next hlast =>
      cases hcalls with
      | before _ _ hno => exact absurd (hlast.symm.trans hno) (by decide)
      | streaming _ _ hno => exact absurd (hlast.symm.trans hno) (by decide)
      | done k done => exact ⟨k, done⟩
  · next hlast =>
      have hend := hcalls.write hnet (Bool.eq_false_iff.mpr hlast) [] true
      rw [List.append_nil] at hend
      cases hend.1 with
      | before _ _ hno => exact absurd (hend.2.symm.trans hno) (by decide)
      | streaming _ _ hno => exact absurd (hend.2.symm.trans hno) (by decide)
      | done k done => exact ⟨k, done⟩

/-- The bytes sent for a request are a message that a client decodes to the data that the request
handler has written, by the framing that its headers announce; the connection stays open only
when the client can tell where the body ends, and a chunked message goes only to a client that
knows chunks and keeps the connection. -/
def RoundTrip (server : Server) (h : HttpConnectionHandler) (request : HttpRequest) : Prop :=
  ∃ out k,
    (h.serve server request).socket.written = h.socket.written ++ out ∧
    decode out = some (k, (server.service h.served request.view).flatMap ResponseCall.data, []) ∧
    ((h.serve server request).socket.state = .connected → k = .chunked ∨
      k = .length ((server.service h.served request.view).flatMap ResponseCall.data).length) ∧
    (closeRequested request = true ∨ isHttp10 request = true → k ≠ .chunked)

/-- A server that answers in parts, on a network that takes one byte at a time. -/
def partsServer : Server where
  settings := defaultSettings
  ssl := false
  network := ⟨fun _ => some 0, fun _ => true⟩
  service := fun _ _ =>
    [.setHeader (ascii "Content-Type") (ascii "text/plain"), .write (ascii "ab") false,
      .write [] false, .write (ascii "c") false]
  upgradeFrom := fun b => ⟨false, [], b⟩

end HttpConnectionHandler

end QtWebApp
