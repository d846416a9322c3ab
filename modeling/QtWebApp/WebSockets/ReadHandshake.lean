import QtWebApp.WebSockets.Opening

/-!
# QtWebApp.WebSockets.ReadHandshake

The request of a client is what the server reads.

`head` is the text of some lines and the empty line behind them. `readHandshake_part` says what the
server makes of a head whose headers are `PlainHeader`s; `createHandShakeRequest` makes such a head.

The server reads what has arrived in one call and does not come back for more. So there is nothing
to say about pieces here, but all the more about a request of which a part is missing: it is
invalid, unless all that is missing is the line feed at the very end.

`ClientRequest` collects what has to be true of a request in order that it is read as it was
written: lines and headers within the limits of the server, no line ends inside them, no ": " in a
value, and no header of the application with a name that the server looks at. The source checks some
of this when the request is made, and leaves the rest to its caller.
-/

namespace QtWebApp

open Bytes QWebSocketProtocol

/-- The text of a head: its lines, and the empty line. -/
def head (lines : List Bytes) : Bytes := lines.flatMap (· ++ CRLF) ++ CRLF

theorem head_cons (line : Bytes) (lines : List Bytes) :
    head (line :: lines) = line ++ CRLF ++ head lines := by
  rw [head, List.flatMap_cons, List.append_assoc]
  rfl

/-- A list of lines that ends with a line end is the text of a head. -/
theorem joinLines_head (lines : List Bytes) : joinLines (lines ++ [CRLF]) = head lines := by
  induction lines with
  | nil => exact List.intercalate_singleton
  | cons line lines ih =>
      rw [head_cons, ← ih, joinLines, List.cons_append, List.intercalate_cons_of_ne_nil (by simp)]
      rfl

theorem not_containsText {b : Bytes} (h : CR ∉ b) : containsText b CRLF = false := by
  have hno : ¬ containsText b CRLF = true := fun hc =>
    h ((containsText_iff.mp hc).subset (List.mem_cons_self ..))
  simpa using hno

/-- A part of a text from its beginning has the first line, or it misses something of it. -/
theorem part_of_line {line b missing text : Bytes} (h : b ++ missing = line ++ CRLF ++ text) :
    (∃ b', b = line ++ CRLF ++ b' ∧ b' ++ missing = text) ∨
      ∃ a, a ≠ [] ∧ b ++ a = line ++ CRLF ∧ missing = a ++ text := by
  rcases List.append_eq_append_iff.mp h with ⟨a, hline, hmissing⟩ | ⟨b', hb, htext⟩
  · by_cases ha : a = []
    · rw [ha, List.append_nil] at hline
      rw [ha, List.nil_append] at hmissing
      exact .inl ⟨[], by rw [hline, List.append_nil], hmissing⟩
    · exact .inr ⟨a, ha, hline.symm, hmissing⟩
  · exact .inl ⟨b', hb, htext.symm⟩

/-- More than one character is missing. -/
theorem much_missing {a : Bytes} (ha : a ≠ []) (lines : List Bytes) :
    ¬ (a ++ head lines = [] ∨ a ++ head lines = [LF]) := by
  have hpos := List.length_pos_iff.mpr ha
  rintro (h | h) <;>
    · have hlen := congrArg List.length h
      simp only [head, List.length_append, List.length_cons, List.length_nil] at hlen
      omega

/-- A header that is read as it was written. -/
structure PlainHeader (header : Bytes × Bytes) : Prop where
  name_ne : header.1 ≠ []
  name_colon : 58 ∉ header.1
  name_cr : CR ∉ header.1
  value_ne : header.2 ≠ []
  value_separator : Search.find (ascii ": ") header.2 = none
  value_cr : CR ∉ header.2
  short : header.1.length + 2 + header.2.length ≤ maxHeaderLineLength

/-- The line of a header. -/
def lineOf (header : Bytes × Bytes) : Bytes := header.1 ++ ascii ": " ++ header.2

/-- The line of a header falls into its name and its value. -/
theorem split_lineOf {name value : Bytes} (hne : name ≠ []) (hcolon : 58 ∉ name)
    (hvalue : value ≠ []) (hseparator : Search.find (ascii ": ") value = none) :
    Latin1.split (ascii ": ") (lineOf (name, value)) = [name, value] := by
  have hsplit : Latin1.split (ascii ": ") (name ++ ascii ": " ++ value) = name :: Latin1.split
      (ascii ": ") value :=
    Latin1.split_append (p := [32]) hcolon hne value
  rw [lineOf, hsplit, Latin1.split_of_none hseparator hvalue]

namespace QWebSocketHandshakeRequest

/-! ### Lines

How the reader takes the lines of a head, whole or cut off. -/

/-- A line ends at the carriage return. -/
theorem readLineFrom_line {max : Nat} {acc line : Bytes} (hcr : CR ∉ line)
    (hshort : acc.length + line.length ≤ max) (rest : Bytes) :
    readLineFrom max acc (line ++ CR :: rest) = (some (acc ++ line), rest.drop 1) := by
  induction line generalizing acc with
  | nil =>
      rw [List.append_nil]
      exact if_pos rfl
  | cons c line ih =>
      have hc : c ≠ CR := fun h => hcr (h ▸ List.mem_cons_self)
      rw [List.length_cons] at hshort
      rw [List.cons_append, readLineFrom, if_neg hc, if_neg (by omega),
        ih (fun h => hcr (List.mem_cons_of_mem c h))
          (by simp only [List.length_append, List.length_singleton]; omega),
        List.append_assoc, List.singleton_append]

/-- A line that is not finished is taken as it is. -/
theorem readLineFrom_open {max : Nat} {acc b : Bytes} (hcr : CR ∉ b)
    (hshort : acc.length + b.length ≤ max) :
    readLineFrom max acc b = (if acc ++ b = [] then none else some (acc ++ b), []) := by
  induction b generalizing acc with
  | nil =>
      rw [List.append_nil]
      rfl
  | cons c b ih =>
      have hc : c ≠ CR := fun h => hcr (h ▸ List.mem_cons_self)
      rw [List.length_cons] at hshort
      rw [readLineFrom, if_neg hc, if_neg (by omega), ih (fun h => hcr (List.mem_cons_of_mem c h))
        (by simp only [List.length_append, List.length_singleton]; omega), List.append_assoc,
        List.singleton_append]

/-- The line feed behind it is eaten. -/
theorem readLine_line {max : Nat} {line : Bytes} (hcr : CR ∉ line) (hshort : line.length ≤ max)
    (rest : Bytes) : readLine max (line ++ CRLF ++ rest) = (some line, rest) := by
  rw [List.append_assoc]
  exact readLineFrom_line hcr (by simpa using hshort) (LF :: rest)

/-- What is read of a line of which the end is missing, or the last character of it. -/
theorem readLine_unfinished {max : Nat} {line b a : Bytes} (hne : line ≠ []) (hcr : CR ∉ line)
    (hshort : line.length ≤ max) (ha : a ≠ []) (hb : b ++ a = line ++ CRLF) :
    readLine max b = (none, []) ∨ ∃ l, l ≠ [] ∧ readLine max b = (some l, []) := by
  have hopen {b : Bytes} (hb : b <+: line) :
      readLine max b = (none, []) ∨ ∃ l, l ≠ [] ∧ readLine max b = (some l, []) := by
    have hread : readLine max b = (if [] ++ b = [] then none else some ([] ++ b), []) :=
      readLineFrom_open (fun h => hcr (hb.subset h)) (by simpa using hb.length_le.trans hshort)
    rw [List.nil_append] at hread
    by_cases hnil : b = []
    · exact .inl (by rw [hread, if_pos hnil])
    · exact .inr ⟨b, hnil, by rw [hread, if_neg hnil]⟩
  rcases List.append_eq_append_iff.mp hb with ⟨d, hline, -⟩ | ⟨d, rfl, hd⟩
  · exact hopen ⟨d, hline.symm⟩
  · match d, hd with
    | [], _ => exact hopen (by rw [List.append_nil])
    | [c], hd =>
        obtain ⟨rfl, -⟩ := List.cons.inj hd
        exact .inr ⟨line, hne, readLineFrom_line hcr (by simpa using hshort) []⟩
    | c :: c' :: d, hd =>
        have hlen := congrArg List.length hd
        have hpos := List.length_pos_iff.mpr ha
        simp only [List.length_append, List.length_cons, List.length_nil] at hlen
        omega

/-! ### Header lines

The header lines are read one after the other. A head of which more than the last character is
missing is not read at all. -/

/-- The headers, inserted one after the other. -/
def insertAll (headers : QMultiMap) (l : List (Bytes × Bytes)) : QMultiMap :=
  l.foldl (fun headers header => headers.insert (Latin1.toLower header.1) header.2) headers

/-- Headers without an empty line are none. -/
theorem readHeaders_unfinished {maxHeaderLineLength maxHeaders n : Nat} {b : Bytes}
    {headers : QMultiMap} (hb : readLine maxHeaderLineLength b = (none, []) ∨
      ∃ l, l ≠ [] ∧ readLine maxHeaderLineLength b = (some l, [])) :
    readHeaders maxHeaderLineLength maxHeaders (n + 1) b headers = (none, []) := by
  have hnil (n : Nat) (headers : QMultiMap) :
      readHeaders maxHeaderLineLength maxHeaders n [] headers = (none, []) := by
    cases n <;> rfl
  rcases hb with hnone | ⟨l, hl, hsome⟩
  · rw [readHeaders, hnone]
  · obtain ⟨c, l', rfl⟩ := List.exists_cons_of_ne_nil hl
    rw [readHeaders, hsome]
    dsimp only
    split
    · rw [hnil, ite_self]
    · rfl

/-- **A part of the headers from their beginning**: it is read if nothing is missing, or only the
last character. -/
theorem readHeaders_part {l : List (Bytes × Bytes)} (hplain : ∀ header ∈ l, PlainHeader header)
    {headers : QMultiMap} (hfew : headers.entries.length + l.length ≤ maxHeaderLines)
    {b missing : Bytes} (hb : b ++ missing = head (l.map lineOf)) {n : Nat} (hn : b.length < n) :
    readHeaders maxHeaderLineLength maxHeaderLines n b headers =
      (if missing = [] ∨ missing = [LF] then some (insertAll headers l) else none, []) := by
  obtain ⟨n, rfl⟩ := Nat.exists_eq_succ_of_ne_zero
      (Nat.ne_of_gt (Nat.lt_of_le_of_lt (Nat.zero_le _) hn))
  induction l generalizing n headers b with
  | nil =>
      match b, hb with
      | [], hb =>
          rw [List.nil_append] at hb
          rw [hb]
          rfl
      | [_], hb =>
          obtain ⟨rfl, rfl⟩ := List.cons.inj hb
          rfl
      | [c, d], hb =>
          obtain ⟨hc, hb⟩ := List.cons.inj hb
          obtain ⟨hd, hmissing⟩ := List.cons.inj hb
          rw [hc, hd, show missing = [] from hmissing]
          rfl
      | _ :: _ :: _ :: _, hb => exact absurd (congrArg List.length hb) (by simp [head])
  | cons header l ih =>
      rw [List.forall_mem_cons] at hplain
      obtain ⟨hheader, hl⟩ := hplain
      obtain ⟨name, value⟩ := header
      rw [List.length_cons] at hfew
      have hcr : CR ∉ lineOf (name, value) := by
        simp only [lineOf, List.mem_append, not_or]
        exact ⟨⟨hheader.name_cr, by decide⟩, hheader.value_cr⟩
      have hshort : (lineOf (name, value)).length ≤ maxHeaderLineLength := by
        have htwo : (ascii ": ").length = 2 := rfl
        simpa only [lineOf, List.length_append, htwo] using hheader.short
      have hne : lineOf (name, value) ≠ [] := by
        obtain ⟨c, name', hname⟩ := List.exists_cons_of_ne_nil hheader.name_ne
        rw [show name = c :: name' from hname]
        exact List.cons_ne_nil _ _
      rw [List.map_cons, head_cons] at hb
      rcases part_of_line hb with ⟨b, rfl, hrest⟩ | ⟨a, ha, hline, rfl⟩
      · obtain ⟨c, line, hc⟩ := List.exists_cons_of_ne_nil hne
        have hsplit := split_lineOf hheader.name_ne hheader.name_colon hheader.value_ne
            hheader.value_separator
        rw [readHeaders, readLine_line hcr hshort]
        rw [hc] at hsplit ⊢
        dsimp only
        rw [hsplit]
        dsimp only
        have hcount : (headers.insert (Latin1.toLower name) value).entries.length =
            headers.entries.length + 1 := rfl
        rw [if_neg (by omega)]
        have hshorter : b.length < n := by
          simp only [List.length_append, List.length_cons] at hn
          omega
        obtain ⟨n, rfl⟩ := Nat.exists_eq_succ_of_ne_zero
            (Nat.ne_of_gt (Nat.lt_of_le_of_lt (Nat.zero_le _) hshorter))
        exact ih hl (by omega) hrest n hshorter
      · rw [readHeaders_unfinished (readLine_unfinished hne hcr hshort ha hline),
          if_neg (much_missing ha _)]

/-- The header has this name. -/
def named (name : Bytes) (header : Bytes × Bytes) : Bool := Latin1.toLower header.1 == name

theorem values_insert (headers : QMultiMap) (header : Bytes × Bytes) (name : Bytes) :
    (headers.insert (Latin1.toLower header.1) header.2).values name =
      ([header].filter (named name)).map Prod.snd ++ headers.values name := by
  show (((Latin1.toLower header.1, header.2) :: headers.entries).filter fun e =>
    e.1 == name).map Prod.snd = _
  rw [List.filter_cons, List.filter_singleton]
  split
  · next h => rw [show named name header = true from h]; rfl
  · next h => rw [show named name header = false from Bool.eq_false_iff.mpr h]; rfl

/-- Of several headers of one name, the last one comes first. -/
theorem values_insertAll (headers : QMultiMap) (l : List (Bytes × Bytes)) (name : Bytes) :
    (insertAll headers l).values name = ((l.filter (named name)).map Prod.snd).reverse ++
      headers.values name := by
  induction l generalizing headers with
  | nil => rfl
  | cons header l ih =>
      rw [insertAll, List.foldl_cons, ← insertAll, ih, values_insert, ← List.append_assoc,
        ← List.singleton_append (l := l), List.filter_append, List.map_append, List.reverse_append]
      congr 2
      rw [List.filter_singleton]
      cases named name header <;> rfl

end QWebSocketHandshakeRequest

/-! ### The request of a client

What `createHandShakeRequest` writes for the request is a head: its request line, and one line for
each header that has a value. -/

/-- A header that is left out if it has no value. -/
def optional (name value : Bytes) : List (Bytes × Bytes) :=
  if value = [] then [] else [(name, value)]

/-- The names of the headers that the server looks at. -/
def handshakeNames : List Bytes :=
  [ascii "host", ascii "upgrade", ascii "connection", ascii "sec-websocket-key", ascii "origin",
    ascii "sec-websocket-version"]

/-- What a client asks for: a request that is read as it was written. -/
structure ClientRequest where
  resourceName : Bytes
  host : Bytes
  origin : Bytes
  extensions : Bytes
  protocols : Bytes
  masks : List UInt32
  headers : List (Bytes × Bytes)
  resourceName_ne : resourceName ≠ []
  resourceName_plain : ∀ c ∈ resourceName, c ≠ SP ∧ c ≠ CR
  resourceName_short : resourceName.length + 13 ≤ maxHeaderLineLength
  host_named : host.takeWhile (· ≠ 58) ≠ []
  host_plain : PlainHeader (ascii "Host", host)
  masks_four : masks.length = 4
  origin_plain : origin ≠ [] → PlainHeader (ascii "Origin", origin)
  extensions_plain : extensions ≠ [] → PlainHeader (ascii "Sec-WebSocket-Extensions", extensions)
  protocols_plain : protocols ≠ [] → PlainHeader (ascii "Sec-WebSocket-Protocol", protocols)
  headers_plain : ∀ header ∈ headers, PlainHeader header ∧ Latin1.toLower header.1 ∉ handshakeNames
  headers_few : headers.length ≤ 92

namespace ClientRequest

open QWebSocketHandshakeRequest

/-- The key of the client. -/
def key (c : ClientRequest) : Bytes := generateKey c.masks

/-- The request line. -/
def requestLine (c : ClientRequest) : Bytes := ascii "GET " ++ c.resourceName ++ ascii " HTTP/1.1"

/-- The headers, in their order. -/
def allHeaders (c : ClientRequest) : List (Bytes × Bytes) :=
  [(ascii "Host", c.host), (ascii "Upgrade", ascii "websocket"),
    (ascii "Connection", ascii "Upgrade"),
    (ascii "Sec-WebSocket-Key", c.key)] ++
  optional (ascii "Origin") c.origin ++
  [(ascii "Sec-WebSocket-Version", ascii "13")] ++
  optional (ascii "Sec-WebSocket-Extensions") c.extensions ++
  optional (ascii "Sec-WebSocket-Protocol") c.protocols ++ c.headers

/-- What the client writes. -/
def text (c : ClientRequest) : Bytes :=
  createHandShakeRequest c.resourceName c.host c.origin c.extensions c.protocols c.key c.headers

theorem map_optional (name value : Bytes) : (optional name value).map lineOf =
    if value = [] then [] else [name ++ ascii ": " ++ value] := by
  unfold optional
  split <;> rfl

theorem cr_of_optional {name value : Bytes} (h : value ≠ [] → PlainHeader (name, value)) :
    CR ∉ value := by
  by_cases hne : value = []
  · rw [hne]
    exact List.not_mem_nil
  · exact (h hne).value_cr

/-- **The request is a head.** -/
theorem text_eq (c : ClientRequest) : c.text = head (c.requestLine :: c.allHeaders.map lineOf) := by
  have hresource : CR ∉ c.resourceName := fun h => (c.resourceName_plain _ h).2 rfl
  have hclean : ¬ (containsText c.resourceName CRLF ∨ containsText c.host CRLF ∨
      containsText c.origin CRLF ∨
      containsText c.extensions CRLF ∨ containsText c.protocols CRLF) := by
    rw [not_containsText hresource, not_containsText c.host_plain.value_cr,
      not_containsText (cr_of_optional c.origin_plain),
      not_containsText (cr_of_optional c.extensions_plain),
      not_containsText (cr_of_optional c.protocols_plain)]
    decide
  rw [text, createHandShakeRequest, if_neg hclean, ← joinLines_head]
  simp only [allHeaders, List.map_append, map_optional, List.map_cons, List.map_nil, requestLine]
  rfl

/-! ### The headers that the server finds

The server looks up six names. For each of them it finds what the client has put there, whatever
else the application has added. -/

/-- The headers as the server has read them. -/
def received (c : ClientRequest) : QMultiMap := insertAll .empty c.allHeaders

/-- The headers in front of the origin. -/
def firstHeaders (c : ClientRequest) : List (Bytes × Bytes) :=
  [(ascii "Host", c.host), (ascii "Upgrade", ascii "websocket"),
    (ascii "Connection", ascii "Upgrade"),
    (ascii "Sec-WebSocket-Key", c.key)]

/-- The header behind the origin. -/
def versionHeader : Bytes × Bytes := (ascii "Sec-WebSocket-Version", ascii "13")

theorem filter_headers (c : ClientRequest) {name : Bytes} (h : name ∈ handshakeNames) :
    c.headers.filter (named name) = [] := by
  rw [List.filter_eq_nil_iff]
  intro header hheader hnamed
  exact (c.headers_plain header hheader).2 (eq_of_beq hnamed ▸ h)

theorem filter_optional {name name' : Bytes} (value : Bytes) (h : Latin1.toLower name' ≠ name) :
    (optional name' value).filter (named name) = [] := by
  rw [List.filter_eq_nil_iff]
  unfold optional
  split
  · exact fun _ hnil => absurd hnil List.not_mem_nil
  · intro header hheader
    rw [List.mem_singleton.mp hheader]
    simpa [named] using h

/-- Extensions, protocols and the headers of the application have none of the names. -/
theorem values_received (c : ClientRequest) {name : Bytes} (h : name ∈ handshakeNames) :
    c.received.values name = (((c.firstHeaders ++ optional (ascii "Origin") c.origin ++
      [versionHeader]).filter (named name)).map Prod.snd).reverse := by
  have hother : ∀ other ∈ [ascii "Sec-WebSocket-Extensions", ascii "Sec-WebSocket-Protocol"],
      Latin1.toLower other ∉ handshakeNames := by decide
  have hextensions : Latin1.toLower (ascii "Sec-WebSocket-Extensions") ≠ name :=
    fun he => hother _ List.mem_cons_self (he ▸ h)
  have hprotocols : Latin1.toLower (ascii "Sec-WebSocket-Protocol") ≠ name :=
    fun he => hother _ (List.mem_cons_of_mem _ List.mem_cons_self) (he ▸ h)
  have hnone : QMultiMap.empty.values name = [] := rfl
  rw [received, values_insertAll, hnone, List.append_nil, allHeaders, List.filter_append,
    List.filter_append,
    List.filter_append, filter_optional _ hextensions, filter_optional _ hprotocols,
    c.filter_headers h,
    List.append_nil, List.append_nil, List.append_nil]
  rfl

/-- Of the names that the server looks at, only the own headers of the client count. -/
theorem values_own (c : ClientRequest) {name : Bytes} (h : name ∈ handshakeNames)
    (hne : name ≠ ascii "origin") :
    c.received.values name =
      (((c.firstHeaders ++ [versionHeader]).filter (named name)).map Prod.snd).reverse := by
  have horigin : Latin1.toLower (ascii "Origin") = ascii "origin" := by decide
  rw [c.values_received h, List.filter_append, List.filter_append,
    filter_optional _ (horigin ▸ hne.symm), List.append_nil, ← List.filter_append]

theorem values_upgrade (c : ClientRequest) :
    c.received.values (ascii "upgrade") = [ascii "websocket"] :=
  c.values_own (by decide) (by decide)

theorem values_connection (c : ClientRequest) :
    c.received.values (ascii "connection") = [ascii "Upgrade"] :=
  c.values_own (by decide) (by decide)

theorem values_host (c : ClientRequest) : c.received.values (ascii "host") = [c.host] :=
  c.values_own (by decide) (by decide)

theorem values_key (c : ClientRequest) : c.received.values (ascii "sec-websocket-key") = [c.key] :=
  c.values_own (by decide) (by decide)

theorem values_version (c : ClientRequest) :
    c.received.values (ascii "sec-websocket-version") = [ascii "13"] :=
  c.values_own (by decide) (by decide)

theorem value_origin (c : ClientRequest) : c.received.value (ascii "origin") = c.origin := by
  rw [QMultiMap.value, c.values_received (by decide), optional]
  split
  · next h =>
      rw [h]
      rfl
  · rfl

/-! ### The server reads the request

The headers pass every check of `evaluate`, and the request that comes out has the fields of the
client. -/

theorem length_key (c : ClientRequest) : c.key.length = 24 := by
  have hbytes : (c.masks.flatMap fun m => (toBigEndian 4 m.toNat).reverse).length =
      c.masks.length * 4 := by
    rw [List.length_flatMap]
    simp [length_toBigEndian]
  rw [key, generateKey, Base64.length_encode, hbytes, c.masks_four]

theorem isDigit_key (c : ClientRequest) {b : UInt8} (hb : b ∈ c.key) : Base64.IsDigit b :=
  Base64.isDigit_of_mem_encode hb

/-- A key is Base64. -/
theorem key_plain (c : ClientRequest) : PlainHeader (ascii "Sec-WebSocket-Key", c.key) where
  name_ne := show ascii "Sec-WebSocket-Key" ≠ [] by decide
  name_colon := show 58 ∉ ascii "Sec-WebSocket-Key" by decide
  name_cr := show CR ∉ ascii "Sec-WebSocket-Key" by decide
  value_ne := by
    intro h
    have hlen := c.length_key
    rw [show c.key = [] from h] at hlen
    exact absurd hlen (by decide)
  value_separator := Search.find_absent (p := [32]) fun h => absurd (c.isDigit_key h) (by decide)
  value_cr := fun h => absurd (c.isDigit_key h) (by decide)
  short := by
    rw [c.length_key]
    show (ascii "Sec-WebSocket-Key").length + 2 + 24 ≤ maxHeaderLineLength
    decide

theorem optional_plain {name value : Bytes} (h : value ≠ [] → PlainHeader (name, value)) :
    ∀ header ∈ optional name value, PlainHeader header := by
  unfold optional
  split
  · exact fun _ hnil => absurd hnil List.not_mem_nil
  · next hne =>
      intro header hheader
      rw [List.mem_singleton.mp hheader]
      exact h hne

/-- Every header of the request is read as it was written. -/
theorem allHeaders_plain (c : ClientRequest) : ∀ header ∈ c.allHeaders, PlainHeader header := by
  have hupgrade : PlainHeader (ascii "Upgrade", ascii "websocket") := by
    constructor <;> decide
  have hconnection : PlainHeader (ascii "Connection", ascii "Upgrade") := by
    constructor <;> decide
  have hversion : PlainHeader (ascii "Sec-WebSocket-Version", ascii "13") := by
    constructor <;> decide
  intro header hheader
  simp only [allHeaders, List.mem_append] at hheader
  rcases hheader with ((((hfirst | horigin) | hv) | hextensions) | hprotocols) | hown
  · simp only [List.mem_cons, List.not_mem_nil, or_false] at hfirst
    rcases hfirst with rfl | rfl | rfl | rfl
    · exact c.host_plain
    · exact hupgrade
    · exact hconnection
    · exact c.key_plain
  · exact optional_plain c.origin_plain header horigin
  · rw [List.mem_singleton.mp hv]
    exact hversion
  · exact optional_plain c.extensions_plain header hextensions
  · exact optional_plain c.protocols_plain header hprotocols
  · exact (c.headers_plain header hown).1

theorem length_optional (name value : Bytes) : (optional name value).length ≤ 1 := by
  unfold optional
  split
  · exact Nat.zero_le 1
  · exact le_refl 1

/-- There are not too many headers. -/
theorem length_allHeaders (c : ClientRequest) : c.allHeaders.length ≤ maxHeaderLines := by
  have horigin := length_optional (ascii "Origin") c.origin
  have hextensions := length_optional (ascii "Sec-WebSocket-Extensions") c.extensions
  have hprotocols := length_optional (ascii "Sec-WebSocket-Protocol") c.protocols
  have hfew := c.headers_few
  simp only [allHeaders, maxHeaderLines, List.length_append, List.length_cons, List.length_nil]
  omega

/-! ### The request as it is read

The fields of the request that the server has in the end, each of them from the headers above. -/

/-- The request as the server reads it. -/
def read (c : ClientRequest) : QWebSocketHandshakeRequest where
  isValid := true
  headers := c.received
  versions := [.version13]
  key := c.key
  origin := c.origin
  protocols := (listed c.received (ascii "sec-websocket-protocol")).map Latin1.trimmed
  extensions := (listed c.received (ascii "sec-websocket-extensions")).map Latin1.trimmed

/-- The client offers the one version that the server knows. -/
theorem readVersions_received (c : ClientRequest) :
    readVersions c.received = some [.version13] := by
  have hlisted : listed c.received (ascii "sec-websocket-version") = [ascii "13"] := by
    rw [listed, c.values_version]
    decide
  rw [readVersions, hlisted]
  decide +kernel

/-- The server finds the host in its header. -/
theorem hostName_ne (platform : Platform) (c : ClientRequest) :
    hostName platform c.resourceName c.received ≠ [] := by
  have hhost : c.received.value (ascii "host") = c.host :=
    QMultiMap.value_of_values_cons c.values_host
  rw [hostName, hhost]
  split
  · exact c.host_named
  · exact c.host_plain.value_ne

/-- **The request passes all checks.** -/
theorem evaluate_received (platform : Platform) (c : ClientRequest) :
    evaluate platform (ascii "GET") c.resourceName true c.received = c.read := by
  have hkey : c.received.value (ascii "sec-websocket-key") = c.key :=
    QMultiMap.value_of_values_cons c.values_key
  have hupgrade : c.received.value (ascii "upgrade") = ascii "websocket" :=
    QMultiMap.value_of_values_cons c.values_upgrade
  have hconnection : c.received.value (ascii "connection") = ascii "Upgrade" :=
    QMultiMap.value_of_values_cons c.values_connection
  have hkeyNe : c.key ≠ [] := c.key_plain.value_ne
  have hasks : ascii "upgrade" ∈
      ((Latin1.split (ascii ",") (ascii "Upgrade")).map Latin1.trimmed).map
      Latin1.toLower := by decide
  have hlower : Latin1.toLower (ascii "websocket") = ascii "websocket" := by decide
  have hgood : ¬ (hostName platform c.resourceName c.received = [] ∨ c.resourceName = [] ∨
      [Version.version13] = [] ∨
      c.key = [] ∨ ascii "GET" ≠ ascii "GET" ∨ ¬ true ∨
        Latin1.toLower (ascii "websocket") ≠ ascii "websocket" ∨
      ascii "upgrade" ∉ ((Latin1.split (ascii ",") (ascii "Upgrade")).map Latin1.trimmed).map
        Latin1.toLower) := by
    simp only [c.hostName_ne platform, c.resourceName_ne, hkeyNe, hlower, hasks,
      List.cons_ne_nil, ne_eq, not_true, not_false_eq_true, or_self]
  rw [evaluate, c.readVersions_received]
  dsimp only
  rw [hkey, hupgrade, hconnection, if_neg hgood, c.value_origin]
  rfl

/-- The request line has three words. -/
theorem split_requestLine (c : ClientRequest) :
    Latin1.split [SP] c.requestLine = [ascii "GET", c.resourceName, ascii "HTTP/1.1"] := by
  have hresource : SP ∉ c.resourceName := fun h => (c.resourceName_plain _ h).1 rfl
  have hline : c.requestLine = ascii "GET" ++ [SP] ++
      (c.resourceName ++ [SP] ++ ascii "HTTP/1.1") := by
    rw [requestLine, show ascii "GET " = ascii "GET" ++ [SP] from rfl,
      show ascii " HTTP/1.1" = [SP] ++ ascii "HTTP/1.1" from rfl]
    simp only [List.append_assoc]
  have hprotocol : Latin1.split [SP] (ascii "HTTP/1.1") = [ascii "HTTP/1.1"] := by decide
  rw [hline, Latin1.split_append (p := []) (by decide) (by decide),
    Latin1.split_append (p := []) hresource c.resourceName_ne, hprotocol]

theorem requestLine_cr (c : ClientRequest) : CR ∉ c.requestLine := by
  simp only [requestLine, List.mem_append, not_or]
  exact ⟨⟨by decide, fun h => (c.resourceName_plain _ h).2 rfl⟩, by decide⟩

theorem requestLine_short (c : ClientRequest) : c.requestLine.length ≤ maxHeaderLineLength := by
  have hlen := c.resourceName_short
  have hrest : (ascii "GET ").length + (ascii " HTTP/1.1").length = 13 := by decide
  simp only [requestLine, List.length_append]
  omega

theorem requestLine_ne (c : ClientRequest) : c.requestLine ≠ [] := List.cons_ne_nil _ _

/-- **The server reads the request that the client has made.** Of a part of it from its beginning
it makes nothing, unless no more than the last character is missing. -/
theorem readHandshake_part (platform : Platform) (c : ClientRequest)
    (hascii : ∀ b ∈ c.text, b < 128) {b missing : Bytes} (hb : b ++ missing = c.text) :
    readHandshake platform maxHeaderLineLength maxHeaderLines b =
      (if missing = [] ∨ missing = [LF] then c.read else clear, []) := by
  have hdecode : platform.decode b = b :=
    platform.decode_ascii b fun x hx => hascii x (hb ▸ List.mem_append_left _ hx)
  have hversion : platform.atLeast11 ((ascii "HTTP/1.1").drop 5) = some true :=
    platform.atLeast11_eq
  rw [readHandshake, hdecode]
  rw [c.text_eq, head_cons] at hb
  rcases part_of_line hb with ⟨b, rfl, hrest⟩ | ⟨a, ha, hline, rfl⟩
  · have hfuel : b.length < (c.requestLine ++ CRLF ++ b).length + 1 := by
      rw [List.length_append]
      omega
    have hfew : QMultiMap.empty.entries.length + c.allHeaders.length ≤ maxHeaderLines := by
      rw [show QMultiMap.empty.entries.length = 0 from rfl, Nat.zero_add]
      exact c.length_allHeaders
    have hheaders := readHeaders_part c.allHeaders_plain hfew hrest hfuel
    rw [readLine_line c.requestLine_cr c.requestLine_short]
    dsimp only
    rw [c.split_requestLine]
    dsimp only
    rw [hversion]
    dsimp only
    rw [hheaders]
    by_cases hmissing : missing = [] ∨ missing = [LF]
    · rw [if_pos hmissing, if_pos hmissing]
      exact congrArg (·, []) (c.evaluate_received platform)
    · rw [if_neg hmissing, if_neg hmissing]
  · rw [if_neg (much_missing ha _)]
    rcases readLine_unfinished c.requestLine_ne c.requestLine_cr c.requestLine_short ha hline
      with h | ⟨l, hl, h⟩
    · rw [h]
    · rw [h]
      dsimp only
      have hempty : readLine maxHeaderLineLength [] = (none, []) := rfl
      split
      · split
        · rfl
        · rw [readHeaders_unfinished (.inl hempty)]
      · rfl

end ClientRequest

/-! ### A client and a platform

A request with all headers, on a platform that a witness can compute. -/

/-- A platform on which texts are encoded in Latin-1. -/
def latin1Platform : Platform where
  decode := id
  encode := id
  isRelative b := b.head? = some 47
  atLeast11 b := if b = ascii "1.1" then some true else if b = ascii "1.0" then some false else none
  toList := id
  date := ascii "Thu, 01 Jan 2015 00:00:00 GMT"
  decode_ascii _ _ := rfl
  encode_ascii _ _ := rfl
  atLeast11_eq := if_pos rfl
  toList_perm := List.Perm.refl
  date_plain := by decide

/-- A client that asks for a chat. -/
def chatRequest : ClientRequest where
  resourceName := ascii "/chat"
  host := ascii "example.com:80"
  origin := ascii "http://example.com"
  extensions := []
  protocols := []
  masks := [1, 2, 3, 4]
  headers := [(ascii "User-Agent", ascii "client")]
  resourceName_ne := by decide
  resourceName_plain := by decide
  resourceName_short := by decide
  host_named := by decide
  host_plain := by constructor <;> decide
  masks_four := rfl
  origin_plain _ := by constructor <;> decide
  extensions_plain h := absurd rfl h
  protocols_plain h := absurd rfl h
  headers_plain := by
    intro header hheader
    rw [List.mem_singleton.mp hheader]
    exact ⟨by constructor <;> decide, by decide⟩
  headers_few := by decide

theorem chatRequest_ascii : ∀ b ∈ chatRequest.text, b < 128 := by decide +kernel

/-- **The round trip of a request**: of a part of the text from its beginning the server reads the
key, the origin, the version and the headers that the client has written, all values of a name, the
last one first, if no more than the last character is missing, and otherwise it finds the request
invalid. -/
theorem ClientRequest.request_round_trip (platform : Platform) (c : ClientRequest)
    (hascii : ∀ b ∈ c.text, b < 128) {b missing : Bytes} (hb : b ++ missing = c.text)
    {request : QWebSocketHandshakeRequest} {rest : Bytes}
    (hread : QWebSocketHandshakeRequest.readHandshake platform maxHeaderLineLength
      maxHeaderLines b =
      (request, rest)) :
    rest = [] ∧ (request.isValid = true ↔ missing = [] ∨ missing = [LF]) ∧
      (request.isValid = true → request.key = c.key ∧ request.origin = c.origin ∧
        request.versions = [.version13] ∧
        ∀ name, request.headers.values name =
          ((c.allHeaders.filter (QWebSocketHandshakeRequest.named name)).map
            Prod.snd).reverse) := by
  rw [c.readHandshake_part platform hascii hb] at hread
  obtain ⟨rfl, rfl⟩ := Prod.mk.inj hread
  refine ⟨rfl, ?_⟩
  by_cases hmissing : missing = [] ∨ missing = [LF]
  · rw [if_pos hmissing]
    refine ⟨⟨fun _ => hmissing, fun _ => rfl⟩, fun _ => ⟨rfl, rfl, rfl, fun name => ?_⟩⟩
    show c.received.values name = _
    rw [received, QWebSocketHandshakeRequest.values_insertAll]
    exact List.append_nil _
  · rw [if_neg hmissing]
    exact ⟨⟨fun h => absurd h Bool.false_ne_true, fun h => absurd h hmissing⟩, fun h =>
      absurd h Bool.false_ne_true⟩

/-- Half of a request. -/
theorem ClientRequest.request_round_trip_half :
    (QWebSocketHandshakeRequest.readHandshake latin1Platform maxHeaderLineLength maxHeaderLines
      (chatRequest.text.take 60)).1.isValid = false := by
  have hhalf := (chatRequest.request_round_trip latin1Platform chatRequest_ascii
      (List.take_append_drop 60 _)
    (Prod.mk.eta).symm).2.1
  exact Bool.eq_false_iff.mpr fun h => absurd (hhalf.mp h) (by decide)

end QtWebApp
