import QtWebApp.Base.Run
import QtWebApp.WebSockets.Connecting

/-!
# QtWebApp.WebSockets.Handshake

The client reads the answer of the server.

The lines of the server's answer leave the client with a verdict that depends on nothing but the key
(`verdict_answer`); so the client of a request is connected by the answer to it
(`handshake_completes`), and no other is (`connected_iff_own_answer`). `connected_sound` is about
whatever may arrive instead of an answer.

The response goes through the text encoding of the platform on its way out, and the client compares
bytes. Therefore the theorems about both sides ask for printable characters of ASCII, which every
platform writes as they are; in particular they ask for no NUL, at which the stream cuts the
response.
-/

namespace QtWebApp

open Bytes QWebSocketProtocol QWebSocketHandshakeResponse

namespace Opening

/-! ### The lines of a response

The client decides on three headers. The lines that the server adds about itself have other names,
so they change nothing. -/

/-- What a header line adds to the headers. -/
def insertLine (headers : QMultiMap) (line : Bytes) : QMultiMap :=
  match Latin1.split (ascii ": ") line with
  | [name, value] => headers.insert (Latin1.toLower name) value
  | _ => headers

theorem insertLine_eq {line name value : Bytes} (h : Latin1.split (ascii ": ") line = [name, value])
    (headers : QMultiMap) : insertLine headers line = headers.insert
    (Latin1.toLower name) value := by
  rw [insertLine, h]

/-- A line that is not empty goes into the headers, or nowhere. -/
theorem withHeader_eq (o : Opening) {line : Bytes} (hne : Latin1.split (ascii ": ") line ≠ []) :
    o.withHeader line = { o with headers := insertLine o.headers line } := by
  rw [withHeader, insertLine]
  rcases hsplit : Latin1.split (ascii ": ") line with _ | ⟨name, _ | ⟨value, _ | ⟨part, l⟩⟩⟩
  · exact absurd hsplit hne
  · rfl
  · rfl
  · rfl

theorem withLine_header {o : Opening} (h : o.handshakeState = .readingHeader) {line : Bytes}
    (hne : Latin1.split (ascii ": ") line ≠ []) :
    o.withLine line = { o with headers := insertLine o.headers line } := by
  have hstate : o.withLine line = o.withHeader line := by rw [withLine, h]
  rw [hstate, withHeader_eq o hne]

theorem withLines_headers {o : Opening} (h : o.handshakeState = .readingHeader) {lines : List Bytes}
    (hne : ∀ line ∈ lines, Latin1.split (ascii ": ") line ≠ []) :
    o.withLines lines = { o with headers := lines.foldl insertLine o.headers } := by
  induction lines generalizing o with
  | nil => rfl
  | cons line lines ih =>
      rw [List.forall_mem_cons] at hne
      rw [withLines, List.foldl_cons, withLine_header h hne.1]
      exact ih (o := { o with headers := insertLine o.headers line }) h hne.2

/-- The names of the headers on which the client decides. -/
def decidingNames : List Bytes :=
  [ascii "sec-websocket-accept", ascii "upgrade", ascii "connection"]

/-- The line neither ends the headers nor has one of the names. -/
def harmless (line : Bytes) : Bool :=
  match Latin1.split (ascii ": ") line with
  | [] => false
  | [name, _] => Latin1.toLower name ∉ decidingNames
  | _ => true

theorem harmless_headerLine {name : Bytes} (hne : name ≠ []) (hcolon : 58 ∉ name)
    (hname : Latin1.toLower name ∉ decidingNames) (value : Bytes) :
    harmless (headerLine name value) = true := by
  have hsplit : Latin1.split (ascii ": ") (headerLine name value) = name :: Latin1.split
      (ascii ": ") value :=
    Latin1.split_append (p := [32]) hcolon hne value
  rw [harmless, hsplit]
  rcases Latin1.split (ascii ": ") value with _ | ⟨v, _ | ⟨part, l⟩⟩
  · rfl
  · exact decide_eq_true hname
  · rfl

theorem split_of_harmless {line : Bytes} (h : harmless line = true) :
    Latin1.split (ascii ": ") line ≠ [] := by
  intro hnil
  rw [harmless, hnil] at h
  exact absurd h Bool.false_ne_true

theorem values_insertLine {headers : QMultiMap} {line name : Bytes} (h : harmless line = true)
    (hname : name ∈ decidingNames) : (insertLine headers line).values name =
      headers.values name := by
  rw [harmless] at h
  rw [insertLine]
  split
  · next n v hsplit =>
      rw [hsplit] at h
      have hne : ¬ (Latin1.toLower n == name) = true := by
        intro heq
        exact absurd hname (eq_of_beq heq ▸ of_decide_eq_true h)
      exact congrArg (List.map Prod.snd)
        (List.filter_cons_of_neg (p := fun e : Bytes × Bytes => e.1 == name) hne)
  · rfl

/-- Harmless lines leave the deciding headers as they are. -/
theorem values_insertLines {headers : QMultiMap} {lines : List Bytes} {name : Bytes}
    (h : ∀ line ∈ lines, harmless line = true) (hname : name ∈ decidingNames) :
    (lines.foldl insertLine headers).values name = headers.values name := by
  induction lines generalizing headers with
  | nil => rfl
  | cons line lines ih =>
      rw [List.forall_mem_cons] at h
      rw [List.foldl_cons, ih h.2, values_insertLine h.1 hname]

end Opening

namespace ClientRequest

open Opening

/-- The lines about the server are harmless. -/
theorem moreLines_harmless (platform : Platform) (serverName : Bytes) (c : ClientRequest) :
    ∀ line ∈ c.moreLines platform serverName, harmless line = true := by
  unfold moreLines
  split
  · simp only [badRequestLines, List.forall_mem_cons, List.not_mem_nil, false_imp_iff,
      implies_true, and_true]
    exact ⟨by decide, harmless_headerLine (by decide) (by decide) (by decide) _⟩
  · simp only [serverLines, List.forall_mem_cons, List.not_mem_nil, false_imp_iff,
      implies_true, and_true]
    exact ⟨harmless_headerLine (by decide) (by decide) (by decide) _, by decide,
      by decide, by decide,
      harmless_headerLine (by decide) (by decide) (by decide) _,
      harmless_headerLine (by decide) (by decide) (by decide) _⟩

/-! ### The lines by which the server agrees

After these lines the client knows all that it decides on. The lines behind them change nothing of
that. -/

/-- The client after the lines by which the server agrees. -/
def agreed (key : Bytes) (c : ClientRequest) : Opening :=
  { requested key with
    handshakeState := .readingHeader
    statusLine := ascii "HTTP/1.1 101 Switching Protocols" ++ CRLF
    httpMajorVersion := 1
    httpMinorVersion := 1
    httpStatusCode := 101
    httpStatusMessage := ascii "Switching Protocols" ++ CRLF
    headers :=
      ⟨[(ascii "sec-websocket-accept", calculateAcceptKey c.key),
        (ascii "connection", ascii "Upgrade"),
      (ascii "upgrade", ascii "websocket")]⟩ }

/-- The status line of an agreement. -/
theorem withLine_status (key : Bytes) :
    (requested key).withLine (ascii "HTTP/1.1 101 Switching Protocols") =
    { requested key with
      handshakeState := .readingHeader
      statusLine := ascii "HTTP/1.1 101 Switching Protocols" ++ CRLF
      httpMajorVersion := 1
      httpMinorVersion := 1
      httpStatusCode := 101
      httpStatusMessage := ascii "Switching Protocols" ++ CRLF } := by
  have hparse : parseStatusLine (ascii "HTTP/1.1 101 Switching Protocols" ++ CRLF) = some
      { majorVersion := 1
        minorVersion := 1
        statusCode := 101
        reasonPhrase := ascii "Switching Protocols" ++ CRLF
        valid := true } := by decide
  have hstate : (requested key).withLine (ascii "HTTP/1.1 101 Switching Protocols") =
      (requested key).withStatus (ascii "HTTP/1.1 101 Switching Protocols" ++ CRLF) := rfl
  rw [hstate, withStatus, hparse]
  rfl

theorem acceptKey_separator (key : Bytes) :
    Search.find (ascii ": ") (calculateAcceptKey key) = none := by
  have hcolon : 58 ∉ calculateAcceptKey key := by
    intro h
    have hdigit : Base64.IsDigit 58 := Base64.isDigit_of_mem_encode h
    exact absurd hdigit (by decide)
  exact Search.find_absent (p := [32]) hcolon

theorem acceptKey_ne (key : Bytes) : calculateAcceptKey key ≠ [] :=
  Base64.encode_ne_nil (Sha1.hash_ne_nil _)

theorem split_acceptLine (key : Bytes) :
    Latin1.split (ascii ": ") (headerLine (ascii "Sec-WebSocket-Accept") (calculateAcceptKey key)) =
      [ascii "Sec-WebSocket-Accept", calculateAcceptKey key] :=
  split_lineOf (by decide) (by decide) (acceptKey_ne key) (acceptKey_separator key)

/-- The lines by which the server agrees. -/
theorem withLines_switching (key : Bytes) (c : ClientRequest) :
    (requested key).withLines (switchingLines c.key none none) = agreed key c := by
  have hupgrade : Latin1.split (ascii ": ") (ascii "Upgrade: websocket") =
      [ascii "Upgrade", ascii "websocket"] := by
    decide
  have hconnection : Latin1.split (ascii ": ") (ascii "Connection: Upgrade") =
      [ascii "Connection", ascii "Upgrade"] := by decide
  have hlines : switchingLines c.key none none = [ascii "HTTP/1.1 101 Switching Protocols"] ++
      [ascii "Upgrade: websocket", ascii "Connection: Upgrade",
        headerLine (ascii "Sec-WebSocket-Accept") (calculateAcceptKey c.key)] := rfl
  have hstatus : (requested key).withLines [ascii "HTTP/1.1 101 Switching Protocols"] = _ :=
    withLine_status key
  rw [hlines, withLines_append, hstatus, withLines_headers rfl]
  · simp only [List.foldl_cons, List.foldl_nil]
    rw [insertLine_eq hupgrade, insertLine_eq hconnection, insertLine_eq (split_acceptLine c.key)]
    have hlower : Latin1.toLower (ascii "Sec-WebSocket-Accept") = ascii "sec-websocket-accept" ∧
        Latin1.toLower (ascii "Connection") = ascii "connection" ∧
        Latin1.toLower (ascii "Upgrade") = ascii "upgrade" := by decide
    rw [hlower.1, hlower.2.1, hlower.2.2]
    rfl
  · simp only [List.forall_mem_cons, List.not_mem_nil, false_imp_iff, implies_true, and_true]
    rw [hupgrade, hconnection, split_acceptLine]
    exact ⟨List.cons_ne_nil _ _, List.cons_ne_nil _ _, List.cons_ne_nil _ _⟩

/-- The client before the empty line. -/
theorem withLines_answer (platform : Platform) (serverName key : Bytes) (c : ClientRequest) :
    (requested key).withLines (c.answer platform serverName) =
      { agreed key c with headers :=
        (c.moreLines platform serverName).foldl insertLine (agreed key c).headers } := by
  rw [answer, withLines_append, withLines_switching]
  exact withLines_headers rfl fun line hline =>
    split_of_harmless (c.moreLines_harmless platform serverName line hline)

/-- The client accepts the answer if it is the answer to its own key. -/
theorem verdict_answer (platform : Platform) (serverName key : Bytes) (c : ClientRequest) :
    ((requested key).withLines (c.answer platform serverName)).verdict =
      if calculateAcceptKey key = calculateAcceptKey c.key then none
      else some (arg (arg
        (ascii "Accept-Key received from server %1 does not match the client key %2.")
        (calculateAcceptKey c.key))
          (calculateAcceptKey key)) := by
  have hvalue (name value : Bytes) (hname : name ∈ decidingNames)
      (hown : (agreed key c).headers.values name = [value]) :
      ((requested key).withLines (c.answer platform serverName)).headers.value name = value := by
    rw [withLines_answer]
    exact QMultiMap.value_of_values_cons
      ((values_insertLines (c.moreLines_harmless platform serverName) hname).trans hown)
  have haccept := hvalue (ascii "sec-websocket-accept") (calculateAcceptKey c.key) (by decide) rfl
  have hupgrade := hvalue (ascii "upgrade") (ascii "websocket") (by decide) rfl
  have hconnection := hvalue (ascii "connection") (ascii "Upgrade") (by decide) rfl
  have hstatus : ((requested key).withLines (c.answer platform serverName)).httpStatusCode = 101 ∧
      ((requested key).withLines (c.answer platform serverName)).httpMajorVersion = 1 ∧
      ((requested key).withLines (c.answer platform serverName)).httpMinorVersion = 1 ∧
      ((requested key).withLines (c.answer platform serverName)).key = key := by
    rw [withLines_answer]
    exact ⟨rfl, rfl, rfl, rfl⟩
  have hgood : ¬ (calculateAcceptKey c.key = [] ∨ (1 : Int) < 1 ∨ (1 : Int) < 1 ∨
      Latin1.toLower (ascii "websocket") ≠ ascii "websocket" ∨
        Latin1.toLower (ascii "Upgrade") ≠ ascii "upgrade") := by
    have hlower : Latin1.toLower (ascii "websocket") = ascii "websocket" ∧
        Latin1.toLower (ascii "Upgrade") = ascii "upgrade" := by decide
    rw [hlower.1, hlower.2]
    simp [acceptKey_ne]
  unfold verdict
  dsimp only
  rw [haccept, hupgrade, hconnection, hstatus.1, hstatus.2.1, hstatus.2.2.1, hstatus.2.2.2,
    if_pos rfl, if_neg hgood]

end ClientRequest

namespace Opening

/-! ### The empty line

No line but the empty one connects the client, so it is not connected before the head has ended. -/

theorem withStatus_connected (o : Opening) (line : Bytes) :
    (o.withStatus line).connected = o.connected := by
  unfold withStatus
  dsimp only
  split
  · rfl
  · split <;> rfl

/-- Only an empty line can connect the client. -/
theorem withLine_connected (o : Opening) {line : Bytes} (h : Latin1.split (ascii ": ") line ≠ []) :
    (o.withLine line).connected = o.connected := by
  unfold withLine
  split
  · rw [withHeader_eq o h]
  · exact withStatus_connected o _
  · exact withStatus_connected { o with headers := .empty } _
  · exact withStatus_connected { o with headers := .empty } _

theorem withLines_connected (o : Opening) {lines : List Bytes}
    (h : ∀ line ∈ lines, Latin1.split (ascii ": ") line ≠ []) :
    (o.withLines lines).connected = o.connected := by
  induction lines generalizing o with
  | nil => rfl
  | cons line lines ih =>
      rw [List.forall_mem_cons] at h
      exact (ih (o.withLine line) h.2).trans (withLine_connected o h.1)

end Opening

namespace ClientRequest

open Opening

theorem answer_split (platform : Platform) (serverName : Bytes) (c : ClientRequest) :
    ∀ line ∈ c.answer platform serverName, Latin1.split (ascii ": ") line ≠ [] := by
  intro line hline
  rcases List.mem_append.mp hline with hline | hline
  · have hlines : switchingLines c.key none none = [ascii "HTTP/1.1 101 Switching Protocols",
      ascii "Upgrade: websocket", ascii "Connection: Upgrade",
        headerLine (ascii "Sec-WebSocket-Accept") (calculateAcceptKey c.key)] := rfl
    rw [hlines] at hline
    simp only [List.mem_cons, List.not_mem_nil, or_false] at hline
    rcases hline with rfl | rfl | rfl | rfl
    · decide
    · decide
    · decide
    · rw [split_acceptLine]
      exact List.cons_ne_nil _ _
  · exact split_of_harmless (c.moreLines_harmless platform serverName line hline)

/-- The empty line behind the answer. -/
theorem conclude_answer (platform : Platform) (serverName key : Bytes) (c : ClientRequest) :
    ((requested key).withLines (c.answer platform serverName)).conclude =
      if calculateAcceptKey key = calculateAcceptKey c.key then
        ((requested key).withLines (c.answer platform serverName)).succeed
      else ((requested key).withLines (c.answer platform serverName)).fail (arg (arg
        (ascii "Accept-Key received from server %1 does not match the client key %2.")
        (calculateAcceptKey c.key))
          (calculateAcceptKey key)) := by
  rw [conclude, verdict_answer]
  by_cases hkey : calculateAcceptKey key = calculateAcceptKey c.key
  · rw [if_pos hkey, if_pos hkey]
  · rw [if_neg hkey, if_neg hkey]

/-- The answer arrives in pieces, and then something more. -/
theorem arrive_answer {platform : Platform} {serverName : Bytes} (key : Bytes) {c : ClientRequest}
    (hanswer : ∀ line ∈ c.answer platform serverName, Unbroken line) {more : Bytes}
    (hmore : calculateAcceptKey key = calculateAcceptKey c.key ∨ LF ∉ more) {pieces : List Bytes}
    (hpieces : pieces.flatten = head (c.answer platform serverName) ++ more) :
    pieces.foldl arrive (requested key) =
      (((requested key).withLines (c.answer platform serverName)).conclude).holding more := by
  have hlines : ∀ line ∈ c.answer platform serverName ++ [[]], Unbroken line := by
    intro line hline
    rcases List.mem_append.mp hline with hline | hline
    · exact hanswer line hline
    · rw [List.mem_singleton.mp hline]
      exact ⟨List.not_mem_nil, List.not_mem_nil⟩
  have hopen : ∀ k < (c.answer platform serverName ++ [[]]).length,
      ¬ ((requested key).withLines ((c.answer platform serverName ++ [[]]).take k)).connected =
        true := by
    intro k hk
    rw [List.length_append, List.length_singleton] at hk
    rw [List.take_append_of_le_length (Nat.le_of_lt_succ hk),
      withLines_connected _ fun line hline =>
      c.answer_split platform serverName line (List.mem_of_mem_take hline)]
    exact Bool.false_ne_true
  have hempty : (requested key).withLines (c.answer platform serverName ++ [[]]) =
      ((requested key).withLines (c.answer platform serverName)).conclude := by
    rw [withLines_append, withLines_answer]
    rfl
  have hmore' : ((requested key).withLines (c.answer platform serverName ++ [[]])).connected =
      true ∨ LF ∉ more := by
    refine hmore.imp_left fun hkey => ?_
    rw [hempty, conclude_answer, if_pos hkey]
    rfl
  have htext : (requested key).readBuffer ++ pieces.flatten =
      (c.answer platform serverName ++ [[]]).flatMap (· ++ CRLF) ++ more := by
    rw [hpieces, List.flatMap_append, head]
    rfl
  have hidle : ¬ (requested key).Reads := fun h => absurd (canReadLine_iff.mp h.2) List.not_mem_nil
  rw [← hempty, ← arrive_lines hlines rfl hopen hmore' htext, settle_idle hidle]

/-! ### Plain text

What an encoding of the platform leaves alone. -/

/-- The text consists of printable characters of ASCII. -/
def PlainText (b : Bytes) : Prop := ∀ c ∈ b, 32 ≤ c ∧ c < 128

instance (b : Bytes) : Decidable (PlainText b) := inferInstanceAs (Decidable (∀ c ∈ b, _))

theorem PlainText.unbroken {b : Bytes} (h : PlainText b) : Unbroken b :=
  ⟨fun hc => absurd (h _ hc).1 (by decide), fun hc => absurd (h _ hc).1 (by decide)⟩

theorem PlainText.headerLine {name value : Bytes} (hname : PlainText name)
    (hvalue : PlainText value) :
    PlainText (headerLine name value) := by
  have hseparator : PlainText (ascii ": ") := by decide
  intro c hc
  rcases List.mem_append.mp hc with hc | hc
  · rcases List.mem_append.mp hc with hc | hc
    · exact hname c hc
    · exact hseparator c hc
  · exact hvalue c hc

theorem plain_acceptKey (key : Bytes) : PlainText (calculateAcceptKey key) := by
  intro c hc
  have hdigit : Base64.IsDigit c := Base64.isDigit_of_mem_encode hc
  have hall : ∀ n < 256, Base64.IsDigit (UInt8.ofNat n) → 32 ≤ UInt8.ofNat n ∧
      UInt8.ofNat n < 128 := by
    decide +kernel
  have hc := hall c.toNat c.toNat_lt
  rw [UInt8.ofNat_toNat] at hc
  exact hc hdigit

/-- The answer is plain text. -/
theorem answer_plain (platform : Platform) {serverName : Bytes} {c : ClientRequest}
    (hname : PlainText serverName ∨ containsText serverName CRLF = true)
    (horigin : PlainText c.origin) :
    ∀ line ∈ c.answer platform serverName, PlainText line := by
  have hswitching : ∀ line ∈ switchingLines c.key none none, PlainText line := by
    have hlines : switchingLines c.key none none = [ascii "HTTP/1.1 101 Switching Protocols",
      ascii "Upgrade: websocket", ascii "Connection: Upgrade",
        headerLine (ascii "Sec-WebSocket-Accept") (calculateAcceptKey c.key)] := rfl
    rw [hlines]
    simp only [List.forall_mem_cons, List.not_mem_nil, false_imp_iff, implies_true, and_true]
    exact ⟨by decide, by decide, by decide,
      .headerLine (by decide) (plain_acceptKey c.key)⟩
  intro line hline
  rcases List.mem_append.mp hline with hline | hline
  · exact hswitching line hline
  · unfold moreLines at hline
    split at hline
    · have hbad : ∀ line ∈ badRequestLines [currentVersion], PlainText line := by decide
      exact hbad line hline
    · next hclean =>
        have hserver := hname.resolve_right hclean
        have hvalue : PlainText
            (if Latin1.trimmed c.origin = [] then ascii "*" else Latin1.trimmed c.origin) := by
          split
          · decide
          · exact fun x hx => horigin x (Latin1.mem_of_mem_trimmed hx)
        have hserverLines : ∀ line ∈ serverLines platform serverName (Latin1.trimmed c.origin),
            PlainText line := by
          simp only [serverLines, List.forall_mem_cons, List.not_mem_nil, false_imp_iff,
            implies_true, and_true]
          exact ⟨.headerLine (by decide) hserver, by decide, by decide, by decide,
            .headerLine (by decide) hvalue, .headerLine (by decide) platform.date_plain⟩
        exact hserverLines line hline

/-- A head of plain text is written as it is. -/
theorem encode_head (platform : Platform) {lines : List Bytes}
    (h : ∀ line ∈ lines, PlainText line) :
    platform.encode ((head lines).takeWhile (· ≠ 0)) = head lines := by
  have hbytes : ∀ b ∈ head lines, b ≠ 0 ∧ b < 128 := by
    intro b hb
    rcases List.mem_append.mp hb with hb | hb
    · obtain ⟨line, hline, hb⟩ := List.mem_flatMap.mp hb
      rcases List.mem_append.mp hb with hb | hb
      · obtain ⟨hlow, hhigh⟩ := h line hline b hb
        exact ⟨fun h0 => absurd (h0 ▸ hlow) (by decide), hhigh⟩
      · exact (by decide : ∀ b ∈ CRLF, b ≠ 0 ∧ b < 128) b hb
    · exact (by decide : ∀ b ∈ CRLF, b ≠ 0 ∧ b < 128) b hb
  rw [List.takeWhile_eq_self_iff.mpr fun b hb => decide_eq_true (hbytes b hb).1]
  exact platform.encode_ascii _ fun b hb => (hbytes b hb).2

/-! ### Both sides

The answer that a server writes to the request of a client, read by this client or by another
one. -/

/-- What the server writes for the request is the head of the answer. -/
theorem response_eq (platform : Platform) {serverName : Bytes} {c : ClientRequest}
    (hascii : ∀ b ∈ c.text, b < 128)
    (hname : PlainText serverName ∨ containsText serverName CRLF = true)
    (horigin : PlainText c.origin) :
    upgradeFrom platform serverName c.text =
      (!containsText serverName CRLF, head (c.answer platform serverName), []) := by
  rw [c.upgradeFrom_part platform serverName hascii (List.append_nil c.text), if_pos (.inl rfl),
    encode_head platform (answer_plain platform hname horigin)]

/-- The client of the request is connected by the lines of the answer. -/
theorem arrive_own_answer {platform : Platform} {serverName : Bytes} {c : ClientRequest}
    (hname : PlainText serverName ∨ containsText serverName CRLF = true)
    (horigin : PlainText c.origin) {more : Bytes} {pieces : List Bytes}
    (hpieces : pieces.flatten = head (c.answer platform serverName) ++ more) :
    (pieces.foldl arrive (requested c.key)).connected = true ∧
      (pieces.foldl arrive (requested c.key)).signals = [.connected] ∧
      (pieces.foldl arrive (requested c.key)).readBuffer = more := by
  have hunbroken : ∀ line ∈ c.answer platform serverName, Unbroken line :=
    fun line hline => (answer_plain platform hname horigin line hline).unbroken
  rw [arrive_answer c.key hunbroken (.inl rfl) hpieces, conclude_answer, if_pos rfl,
    withLines_answer]
  exact ⟨rfl, rfl, rfl⟩

/-- **A handshake is completed**: in whatever pieces the response arrives, the client is connected
by it, tells so once, and leaves what comes behind it for the frames. The server has agreed unless
there is a line end in its name; in that case the client is connected all the same. -/
theorem handshake_completes (platform : Platform) {serverName : Bytes} {c : ClientRequest}
    (hascii : ∀ b ∈ c.text, b < 128)
    (hname : PlainText serverName ∨ containsText serverName CRLF = true)
    (horigin : PlainText c.origin) {more : Bytes} {pieces : List Bytes}
    (hpieces : pieces.flatten = (upgradeFrom platform serverName c.text).2.1 ++ more) :
    (upgradeFrom platform serverName c.text).1 = !containsText serverName CRLF ∧
      (pieces.foldl arrive (requested c.key)).connected = true ∧
      (pieces.foldl arrive (requested c.key)).signals = [.connected] ∧
      (pieces.foldl arrive (requested c.key)).readBuffer = more := by
  rw [response_eq platform hascii hname horigin] at hpieces ⊢
  exact ⟨rfl, arrive_own_answer hname horigin hpieces⟩

/-- The response, cut in two, with the beginning of a frame behind it. -/
theorem handshake_completes_chat :
    (([(upgradeFrom latin1Platform (ascii "server") chatRequest.text).2.1.take 50,
        (upgradeFrom latin1Platform (ascii "server") chatRequest.text).2.1.drop 50 ++ [0x81]].foldl
          arrive
          (requested chatRequest.key)).signals = [.connected]) ∧
      ([(upgradeFrom latin1Platform (ascii "server") chatRequest.text).2.1.take 50,
        (upgradeFrom latin1Platform (ascii "server") chatRequest.text).2.1.drop 50 ++ [0x81]].foldl
          arrive
          (requested chatRequest.key)).readBuffer = [0x81] := by
  have hname : PlainText (ascii "server") := by decide
  have hpieces : [(upgradeFrom latin1Platform (ascii "server") chatRequest.text).2.1.take 50,
      (upgradeFrom latin1Platform (ascii "server") chatRequest.text).2.1.drop 50 ++
        [0x81]].flatten =
        (upgradeFrom latin1Platform (ascii "server") chatRequest.text).2.1 ++ [0x81] := by
    rw [List.flatten_cons, List.flatten_singleton, ← List.append_assoc, List.take_append_drop]
  exact (handshake_completes latin1Platform chatRequest_ascii (.inl hname) (by decide) hpieces).2.2

/-- **No other client is connected by the response**: it has to come with the accept key for the
client's own key. -/
theorem connected_iff_own_answer (platform : Platform) {serverName : Bytes} {c : ClientRequest}
    (hascii : ∀ b ∈ c.text, b < 128)
    (hname : PlainText serverName ∨ containsText serverName CRLF = true)
    (horigin : PlainText c.origin) (key : Bytes) {pieces : List Bytes}
    (hpieces : pieces.flatten = (upgradeFrom platform serverName c.text).2.1) :
    ((pieces.foldl arrive (requested key)).connected = true ↔
      calculateAcceptKey key = calculateAcceptKey c.key) ∧
      (pieces.foldl arrive (requested key)).signals.length = 1 := by
  rw [response_eq platform hascii hname horigin, ← List.append_nil (head _)] at hpieces
  have hunbroken : ∀ line ∈ c.answer platform serverName, Unbroken line :=
    fun line hline => (answer_plain platform hname horigin line hline).unbroken
  rw [arrive_answer key hunbroken (.inr List.not_mem_nil) hpieces, conclude_answer,
    withLines_answer]
  by_cases hkey : calculateAcceptKey key = calculateAcceptKey c.key
  · rw [if_pos hkey]
    exact ⟨⟨fun _ => hkey, fun _ => rfl⟩, rfl⟩
  · rw [if_neg hkey]
    exact ⟨⟨fun h => absurd h Bool.false_ne_true, fun h => absurd h hkey⟩, rfl⟩

/-- The response arrives at a client that has another key. -/
theorem connected_iff_own_answer_other :
    ([(upgradeFrom latin1Platform (ascii "server") chatRequest.text).2.1].foldl arrive
      (requested (generateKey [5, 6, 7, 8]))).connected = false := by
  have hname : PlainText (ascii "server") := by decide
  have hpieces : [(upgradeFrom latin1Platform (ascii "server") chatRequest.text).2.1].flatten =
      (upgradeFrom latin1Platform (ascii "server") chatRequest.text).2.1 := List.flatten_singleton
  have hown := connected_iff_own_answer latin1Platform chatRequest_ascii (.inl hname) (by decide)
    (generateKey [5, 6, 7, 8]) hpieces
  have hkey : calculateAcceptKey (generateKey [5, 6, 7, 8]) ≠
      calculateAcceptKey chatRequest.key := by decide +kernel
  exact Bool.eq_false_iff.mpr fun hc => hkey (hown.1.mp hc)

end ClientRequest

namespace Opening

/-! ### Whatever arrives

Nothing is assumed of the server from here on. The invariant says why a client is connected, if it
is. -/

/-- What is true of every client: it is connected after a good response only, and tells so at
last. -/
structure Sound (key : Bytes) (o : Opening) : Prop where
  own : o.key = key
  proved : o.connected = true → o.verdict = none
  told : ∃ errors : List Bytes, o.signals = errors.map .error ++ if o.connected
    then [.connected] else []

theorem Sound.frame {key : Bytes} {o o' : Opening} (h : o.Sound key)
    (hclosed : ¬ o.connected = true) (hkey : o'.key = o.key)
    (hconnected : o'.connected = o.connected) (hsignals : o'.signals = o.signals) :
    o'.Sound key := by
  obtain ⟨errors, htold⟩ := h.told
  exact ⟨hkey.trans h.own, fun hc => absurd (hconnected ▸ hc) hclosed, errors, by
    rw [hsignals, hconnected, htold]⟩

theorem Sound.fail {key : Bytes} {o : Opening} (h : o.Sound key) (hclosed : ¬ o.connected = true)
    (text : Bytes) :
    (o.fail text).Sound key := by
  obtain ⟨errors, htold⟩ := h.told
  refine ⟨h.own, fun hc => absurd hc hclosed, errors ++ [text], ?_⟩
  have hsignals : (o.fail text).signals = o.signals ++ [.error text] := rfl
  have hconnected : (o.fail text).connected = o.connected := rfl
  rw [hsignals, hconnected, htold, if_neg hclosed, List.append_nil, List.append_nil,
    List.map_append]
  rfl

theorem Sound.conclude {key : Bytes} {o : Opening} (h : o.Sound key)
    (hclosed : ¬ o.connected = true) :
    o.conclude.Sound key := by
  rw [Opening.conclude]
  cases hverdict : o.verdict with
  | some text => exact h.fail hclosed text
  | none =>
      obtain ⟨errors, htold⟩ := h.told
      refine ⟨h.own, fun _ => hverdict, errors, ?_⟩
      have hsignals : o.succeed.signals = o.signals ++ [.connected] := rfl
      have hconnected : o.succeed.connected = true := rfl
      rw [hsignals, hconnected, htold, if_neg hclosed, List.append_nil, if_pos rfl]

theorem readHeaders_frame (n : Nat) (o : Opening) :
    (readHeaders n o).2.key = o.key ∧ (readHeaders n o).2.connected = o.connected ∧
      (readHeaders n o).2.signals = o.signals := by
  induction n generalizing o with
  | zero => exact ⟨rfl, rfl, rfl⟩
  | succ n ih =>
      rw [readHeaders]
      split
      · dsimp only
        split
        · exact ⟨rfl, rfl, rfl⟩
        · exact ih _
        · exact ih _
      · exact ⟨rfl, rfl, rfl⟩

/-- The headers end, and the client is connected only by a good response. -/
theorem Sound.readResponse {key : Bytes} {o : Opening} (h : o.Sound key)
    (hclosed : ¬ o.connected = true) :
    o.readResponse.Sound key := by
  obtain ⟨hkey, hconnected, hsignals⟩ :=
    readHeaders_frame (o.readBuffer.length + 1) { o with handshakeState := .readingHeader }
  have hread := h.frame hclosed hkey hconnected hsignals
  have hclosed' := hconnected.symm ▸ hclosed
  rw [Opening.readResponse]
  dsimp only
  split
  · exact hread.conclude hclosed'
  · split
    · exact hread.fail hclosed' _
    · exact hread

theorem Sound.readStatus {key : Bytes} {o : Opening} (h : o.Sound key)
    (hclosed : ¬ o.connected = true) :
    o.readStatus.Sound key := by
  rw [Opening.readStatus]
  dsimp only
  split
  · split
    · refine Sound.fail ?_ ?_ _
      · exact h.frame hclosed rfl rfl rfl
      · exact hclosed
    · split
      · exact Sound.readResponse (h.frame hclosed rfl rfl rfl) hclosed
      · refine Sound.fail ?_ ?_ _
        · exact h.frame hclosed rfl rfl rfl
        · exact hclosed
  · exact h.frame hclosed rfl rfl rfl

/-- A turn of `processHandshake` keeps the invariant. -/
theorem Sound.processHandshake {key : Bytes} {o : Opening} (h : o.Sound key)
    (hclosed : ¬ o.connected = true) :
    o.processHandshake.Sound key := by
  have hcleared : Sound key { o with headers := .empty } := h.frame hclosed rfl rfl rfl
  unfold Opening.processHandshake
  split
  · exact h.readStatus hclosed
  · exact h.readResponse hclosed
  · exact hcleared.readStatus hclosed
  · exact hcleared.readStatus hclosed

theorem Sound.processData {key : Bytes} {o : Opening} (h : o.Sound key) (n : Nat) :
    (processData n o).Sound key := by
  induction n generalizing o with
  | zero => exact h
  | succ n ih =>
      rw [processData_succ]
      split
      · next hreads => exact ih (h.processHandshake hreads.1)
      · exact h

/-- Data arrive. -/
theorem Sound.arrive {key : Bytes} {o : Opening} (h : o.Sound key) (data : Bytes) :
    (o.arrive data).Sound key :=
  have hholding : (o.holding (o.readBuffer ++ data)).Sound key := ⟨h.own, h.proved, h.told⟩
  hholding.processData _

/-- What the response was like if the client accepts it. -/
theorem verdict_none {o : Opening} (h : o.verdict = none) :
    o.httpStatusCode = 101 ∧ Latin1.toLower (o.headers.value (ascii "upgrade")) =
      ascii "websocket" ∧
      Latin1.toLower (o.headers.value (ascii "connection")) = ascii "upgrade" ∧
      o.headers.value (ascii "sec-websocket-accept") = calculateAcceptKey o.key := by
  rw [verdict] at h
  dsimp only at h
  split at h
  · next hcode =>
      split at h
      · exact absurd h (Option.some_ne_none _)
      · next hgood =>
          split at h
          · next hkey =>
              simp only [not_or, not_not] at hgood
              exact ⟨hcode, hgood.2.2.2.1, hgood.2.2.2.2, hkey.symm⟩
          · exact absurd h (Option.some_ne_none _)
  · split at h
    · split at h <;> exact absurd h (Option.some_ne_none _)
    · exact absurd h (Option.some_ne_none _)

/-- **Whatever arrives, in whatever pieces**, a client is connected at most once, after all errors,
and only by a response with status 101 that names the upgrade and comes with the accept key for the
client's key. -/
theorem connected_sound (key : Bytes) (pieces : List Bytes) :
    (∃ errors : List Bytes, (pieces.foldl arrive (requested key)).signals =
      errors.map .error ++ if (pieces.foldl arrive (requested key)).connected
        then [.connected] else []) ∧
    ((pieces.foldl arrive (requested key)).connected = true →
      (pieces.foldl arrive (requested key)).httpStatusCode = 101 ∧
      Latin1.toLower ((pieces.foldl arrive (requested key)).headers.value (ascii "upgrade")) =
        ascii "websocket" ∧
      Latin1.toLower ((pieces.foldl arrive (requested key)).headers.value (ascii "connection")) =
        ascii "upgrade" ∧
      (pieces.foldl arrive (requested key)).headers.value (ascii "sec-websocket-accept") =
        calculateAcceptKey key) := by
  have hrequested : (requested key).Sound key :=
    ⟨rfl, fun h => absurd h Bool.false_ne_true, [], rfl⟩
  have hsound : (pieces.foldl arrive (requested key)).Sound key :=
    Run.inv_run (fun _ data h => h.arrive data) hrequested pieces
  refine ⟨hsound.told, fun hconnected => ?_⟩
  have hverdict := verdict_none (hsound.proved hconnected)
  rw [hsound.own] at hverdict
  exact hverdict

end Opening

end QtWebApp
