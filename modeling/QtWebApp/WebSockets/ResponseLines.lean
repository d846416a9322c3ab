import Mathlib.Data.List.Dedup
import QtWebApp.WebSockets.ReadHandshake

/-!
# QtWebApp.WebSockets.ResponseLines

What the server writes in answer to a handshake.

A header that has been read has no carriage return, so the origin, which the server sends back, ends
no line of the response (`response_lines`). A line feed can be in it.

The server's own name, protocols and extensions do not come from the client: in the program the name
is a constant, and the lists are empty. Here they are assumed to hold no line end. What is shown
about the response holds of its text before it is encoded.
-/

namespace QtWebApp

open Bytes QWebSocketProtocol

namespace QWebSocketHandshakeRequest

/-! ### What has been read has no carriage return

The reader ends a line at a carriage return, and only there. So no value that it returns has one. -/

theorem readLineFrom_cr {max : Nat} {acc stream line rest : Bytes} (hacc : CR ∉ acc)
    (h : readLineFrom max acc stream = (some line, rest)) : CR ∉ line := by
  induction stream generalizing acc with
  | nil =>
      rw [readLineFrom] at h
      split at h
      · exact absurd (Prod.mk.inj h).1.symm (Option.some_ne_none _)
      · exact Option.some.inj (Prod.mk.inj h).1 ▸ hacc
  | cons c stream ih =>
      rw [readLineFrom] at h
      split at h
      · exact Option.some.inj (Prod.mk.inj h).1 ▸ hacc
      · next hc =>
          split at h
          · exact absurd (Prod.mk.inj h).1.symm (Option.some_ne_none _)
          · refine ih ?_ h
            rw [List.mem_append, List.mem_singleton, not_or]
            exact ⟨hacc, Ne.symm hc⟩

/-- No value of a header that was read has a carriage return. -/
theorem readHeaders_cr {maxHeaderLineLength maxHeaders n : Nat} {stream rest : Bytes}
    {headers result : QMultiMap} (hheaders : ∀ e ∈ headers.entries, CR ∉ e.2)
    (h : readHeaders maxHeaderLineLength maxHeaders n stream headers = (some result, rest)) :
    ∀ e ∈ result.entries, CR ∉ e.2 := by
  induction n generalizing stream headers with
  | zero => exact absurd (Prod.mk.inj h).1.symm (Option.some_ne_none _)
  | succ n ih =>
      rw [readHeaders] at h
      split at h
      · exact absurd (Prod.mk.inj h).1.symm (Option.some_ne_none _)
      · exact Option.some.inj (Prod.mk.inj h).1 ▸ hheaders
      · next line _ _ hline =>
          have hcr : CR ∉ line := readLineFrom_cr List.not_mem_nil hline
          split at h
          · next name value _ hsplit =>
              dsimp only at h
              split at h
              · exact absurd (Prod.mk.inj h).1.symm (Option.some_ne_none _)
              · refine ih (fun e he => ?_) h
                rcases List.mem_cons.mp he with rfl | he
                · have hpart : value ∈ Latin1.split (ascii ": ") line := by
                    rw [hsplit]
                    exact List.mem_cons_of_mem _ List.mem_cons_self
                  exact fun hc => hcr (Latin1.mem_of_mem_split hpart hc)
                · exact hheaders e he
          · exact absurd (Prod.mk.inj h).1.symm (Option.some_ne_none _)

theorem value_cr {headers : QMultiMap} (h : ∀ e ∈ headers.entries, CR ∉ e.2) (name : Bytes) :
    CR ∉ headers.value name := by
  rw [QMultiMap.value]
  cases hvalues : headers.values name with
  | nil => exact List.not_mem_nil
  | cons value l =>
      have hmem : value ∈ headers.values name := hvalues ▸ List.mem_cons_self
      obtain ⟨e, he, rfl⟩ := List.mem_map.mp hmem
      exact h e (List.mem_of_mem_filter he)

/-- The origin is such a value. -/
theorem evaluate_origin (platform : Platform) (verb resourceName : Bytes) (atLeast11 : Bool)
    {headers : QMultiMap} (h : ∀ e ∈ headers.entries, CR ∉ e.2) :
    CR ∉ (evaluate platform verb resourceName atLeast11 headers).origin := by
  unfold evaluate
  split
  · exact List.not_mem_nil
  · dsimp only
    split
    · exact List.not_mem_nil
    · exact value_cr h _

/-- **The origin has no carriage return**, whatever has arrived. -/
theorem origin_cr (platform : Platform) (maxHeaderLineLength maxHeaders : Nat) (data : Bytes) :
    CR ∉ (readHandshake platform maxHeaderLineLength maxHeaders data).1.origin := by
  unfold readHandshake
  dsimp only
  split
  · exact List.not_mem_nil
  · split
    · split
      · exact List.not_mem_nil
      · split
        · exact List.not_mem_nil
        · next hheaders =>
            exact evaluate_origin platform _ _ _
              (readHeaders_cr (fun _ he => absurd he List.not_mem_nil) hheaders)
    · exact List.not_mem_nil

end QWebSocketHandshakeRequest

namespace QWebSocketHandshakeResponse

/-! ### The lines of the response

Every line but those about the server is made of constants, numbers and Base64. -/

/-- The text ends no line. -/
def Unbroken (b : Bytes) : Prop := CR ∉ b ∧ LF ∉ b

instance (b : Bytes) : Decidable (Unbroken b) := inferInstanceAs (Decidable (_ ∧ _))

theorem Unbroken.append {a b : Bytes} (ha : Unbroken a) (hb : Unbroken b) : Unbroken (a ++ b) :=
  ⟨fun h => (List.mem_append.mp h).elim ha.1 hb.1, fun h => (List.mem_append.mp h).elim ha.2 hb.2⟩

theorem Unbroken.headerLine {name value : Bytes} (hname : Unbroken name) (hvalue : Unbroken value) :
    Unbroken (headerLine name value) := (hname.append (by decide)).append hvalue

theorem unbroken_number (n : Int) : Unbroken (number n) := by
  constructor
  · intro h
    rcases number_bytes n _ h with hc | ⟨hc, -⟩
    · exact absurd hc (by decide)
    · exact absurd hc (by decide)
  · intro h
    rcases number_bytes n _ h with hc | ⟨hc, -⟩
    · exact absurd hc (by decide)
    · exact absurd hc (by decide)

theorem unbroken_intercalate {sep : Bytes} {l : List Bytes} (hsep : Unbroken sep)
    (hl : ∀ b ∈ l, Unbroken b) :
    Unbroken (sep.intercalate l) := by
  induction l with
  | nil => exact ⟨List.not_mem_nil, List.not_mem_nil⟩
  | cons b l ih =>
      rw [List.forall_mem_cons] at hl
      cases l with
      | nil => exact (List.intercalate_singleton : sep.intercalate [b] = b).symm ▸ hl.1
      | cons c l =>
          rw [List.intercalate_cons_of_ne_nil (List.cons_ne_nil c l)]
          exact (hl.1.append hsep).append (ih hl.2)

/-- The accept key is Base64. -/
theorem unbroken_acceptKey (key : Bytes) : Unbroken (calculateAcceptKey key) :=
  ⟨fun h => absurd (Base64.isDigit_of_mem_encode h) (by decide),
    fun h => absurd (Base64.isDigit_of_mem_encode h) (by decide)⟩

/-- The lines of a refusal. -/
theorem badRequestLines_unbroken (versions : List Version) :
    ∀ line ∈ badRequestLines versions, Unbroken line := by
  have hversions : Unbroken ((ascii ", ").intercalate (versions.map fun v => number v.toInt)) := by
    refine unbroken_intercalate (by decide) fun b hb => ?_
    obtain ⟨v, -, rfl⟩ := List.mem_map.mp hb
    exact unbroken_number v.toInt
  simp only [badRequestLines, List.forall_mem_cons, List.not_mem_nil, false_imp_iff,
    implies_true, and_true]
  exact ⟨by decide, .headerLine (by decide) hversions⟩

theorem mem_matching {platform : Platform} {supported requested : List Bytes} {b : Bytes}
    (h : b ∈ matching platform supported requested) : b ∈ supported :=
  List.mem_of_mem_filter (List.mem_dedup.mp ((platform.toList_perm _).subset h))

/-- The lines by which the server agrees. -/
theorem switchingLines_unbroken (key : Bytes) {protocol extension : Option Bytes}
    (hprotocol : ∀ b ∈ protocol, Unbroken b) (hextension : ∀ b ∈ extension, Unbroken b) :
    ∀ line ∈ switchingLines key protocol extension, Unbroken line := by
  have hvalue {name : Bytes} (hname : Unbroken name) {o : Option Bytes} (ho : ∀ b ∈ o, Unbroken b) :
      ∀ line ∈ (o.map (headerLine name)).toList, Unbroken line := by
    intro line hline
    obtain ⟨b, hb, rfl⟩ := Option.map_eq_some_iff.mp (Option.mem_toList.mp hline)
    exact hname.headerLine (ho b hb)
  intro line hline
  rw [switchingLines, List.mem_append, List.mem_append] at hline
  rcases hline with (hline | hline) | hline
  · simp only [List.mem_cons, List.not_mem_nil, or_false] at hline
    rcases hline with rfl | rfl | rfl | rfl
    · decide
    · decide
    · decide
    · exact .headerLine (by decide) (unbroken_acceptKey key)
  · exact hvalue (by decide) hprotocol line hline
  · exact hvalue (by decide) hextension line hline

theorem Unbroken.absurd_mem {b : Bytes} {c : UInt8} (hb : Unbroken b) (hc : c = CR ∨ c = LF) :
    c ∉ b := by
  rcases hc with rfl | rfl
  · exact hb.1
  · exact hb.2

/-- What ends a line in the lines about the server has come with the origin. -/
theorem mem_origin_of_serverLines {platform : Platform} {serverName origin line : Bytes} {c : UInt8}
    (hname : Unbroken serverName) (hc : c = CR ∨ c = LF)
    (hline : line ∈ serverLines platform serverName origin) (h : c ∈ line) : c ∈ origin := by
  have hdate : Unbroken platform.date :=
    ⟨fun h => absurd (platform.date_plain _ h).1 (by decide), fun h =>
      absurd (platform.date_plain _ h).1 (by decide)⟩
  have hother {b : Bytes} (hb : Unbroken b) (h : c ∈ b) : c ∈ origin := absurd h (hb.absurd_mem hc)
  simp only [serverLines, List.mem_cons, List.not_mem_nil, or_false] at hline
  rcases hline with rfl | rfl | rfl | rfl | rfl | rfl
  · exact hother (.headerLine (by decide) hname) h
  · exact hother (by decide) h
  · exact hother (by decide) h
  · exact hother (by decide) h
  · rw [headerLine, List.mem_append] at h
    rcases h with h | h
    · exact hother (by decide) h
    · split at h
      · exact hother (by decide) h
      · exact h
  · exact hother (.headerLine (by decide) hdate) h

theorem mem_serverLines_of_origin {platform : Platform} {serverName origin : Bytes} {c : UInt8}
    (h : c ∈ origin) :
    ∃ line ∈ serverLines platform serverName origin, c ∈ line := by
  refine ⟨headerLine (ascii "Access-Control-Allow-Origin") origin, ?_, List.mem_append_right _ h⟩
  rw [serverLines, if_neg (List.ne_nil_of_mem h)]
  simp only [List.mem_cons, true_or, or_true]

/-- The response is put together as a head. -/
theorem finish_response (r : QWebSocketHandshakeResponse) (lines : List Bytes) :
    (r.finish lines).response = head lines := joinLines_head lines

/-- An origin without carriage return passes the check of the source. -/
theorem not_containsText_trimmed {origin : Bytes} (h : CR ∉ origin) :
    containsText (Latin1.trimmed origin) CRLF = false :=
  not_containsText fun hc => h (Latin1.mem_of_mem_trimmed hc)

/-- **The response is one head**, whatever the client has sent: no line of it is broken by a
carriage return. A line feed is in it exactly if the server agrees and the origin has one. -/
theorem response_lines (platform : Platform) {request : QWebSocketHandshakeRequest}
    {serverName : Bytes} (isOriginAllowed : Bool) (versions : List Version)
    {protocols extensions : List Bytes} (hname : Unbroken serverName)
    (hprotocols : ∀ b ∈ protocols, Unbroken b) (hextensions : ∀ b ∈ extensions, Unbroken b)
    (horigin : CR ∉ request.origin) :
    ∃ lines, (getHandshakeResponse platform request serverName isOriginAllowed versions protocols
        extensions).response = head lines ∧
      (∀ line ∈ lines, CR ∉ line) ∧
      ((∃ line ∈ lines, LF ∈ line) ↔
        (getHandshakeResponse platform request serverName isOriginAllowed versions protocols
          extensions).canUpgrade = true ∧ LF ∈ Latin1.trimmed request.origin) := by
  have hrefused {lines : List Bytes} (hlines : ∀ line ∈ lines, Unbroken line) :
      (∀ line ∈ lines, CR ∉ line) ∧ ((∃ line ∈ lines, LF ∈ line) ↔
        (false = true ∧ LF ∈ Latin1.trimmed request.origin)) := by
    refine ⟨fun line hline => (hlines line hline).1, ?_⟩
    simp only [Bool.false_eq_true, false_and, iff_false, not_exists, not_and]
    exact fun line hline => (hlines line hline).2
  have hnewline : ¬ (containsText (Latin1.trimmed request.origin) CRLF ||
      containsText serverName CRLF) := by
    rw [not_containsText_trimmed horigin, not_containsText hname.1]
    decide
  rw [getHandshakeResponse]
  dsimp only
  split
  · exact ⟨_, finish_response _ _, hrefused (by decide)⟩
  · split
    · split
      · exact ⟨_, finish_response _ _, hrefused (badRequestLines_unbroken versions)⟩
      · refine ⟨_, finish_response _ _, ?_⟩
        have hswitching : ∀ line ∈ switchingLines request.key
            (matching platform protocols request.protocols).head?
            (matching platform extensions request.extensions).head?, Unbroken line :=
          switchingLines_unbroken request.key
            (fun b hb => hprotocols b (mem_matching (List.mem_of_mem_head? hb)))
            (fun b hb => hextensions b (mem_matching (List.mem_of_mem_head? hb)))
        have horigin' : CR ∉ Latin1.trimmed request.origin :=
          fun hc => horigin (Latin1.mem_of_mem_trimmed hc)
        constructor
        · intro line hline hc
          rcases List.mem_append.mp hline with hline | hline
          · exact (hswitching line hline).1 hc
          · exact horigin' (mem_origin_of_serverLines hname (.inl rfl) hline hc)
        · constructor
          · rintro ⟨line, hline, hc⟩
            rcases List.mem_append.mp hline with hline | hline
            · exact absurd hc (hswitching line hline).2
            · exact ⟨rfl, mem_origin_of_serverLines hname (.inr rfl) hline hc⟩
          · rintro ⟨-, hc⟩
            obtain ⟨line, hline, hc⟩ := mem_serverLines_of_origin hc
            exact ⟨line, List.mem_append_right _ hline, hc⟩
    · exact ⟨_, finish_response _ _, hrefused (badRequestLines_unbroken versions)⟩

end QWebSocketHandshakeResponse

namespace QWebSocketHandshakeResponse

/-- **No response splitting.** Whatever a client sends, the response to it is one head, no line of
which has a carriage return. A line feed is in it exactly if the server agrees and there is one in
the origin, where the client may have put it. -/
theorem answer_lines (platform : Platform) {serverName : Bytes} (isOriginAllowed : Bool)
    (versions : List Version) {protocols extensions : List Bytes} (hname : Unbroken serverName)
    (hprotocols : ∀ b ∈ protocols, Unbroken b) (hextensions : ∀ b ∈ extensions, Unbroken b)
    (maxHeaderLineLength maxHeaders : Nat) (data : Bytes) {request : QWebSocketHandshakeRequest}
    (hrequest : request =
      (QWebSocketHandshakeRequest.readHandshake platform maxHeaderLineLength maxHeaders data).1) :
    ∃ lines, (getHandshakeResponse platform request serverName isOriginAllowed versions protocols
        extensions).response = head lines ∧
      (∀ line ∈ lines, CR ∉ line) ∧
      ((∃ line ∈ lines, LF ∈ line) ↔
        (getHandshakeResponse platform request serverName isOriginAllowed versions protocols
          extensions).canUpgrade = true ∧ LF ∈ Latin1.trimmed request.origin) := by
  subst hrequest
  exact response_lines platform isOriginAllowed versions hname hprotocols hextensions
    (QWebSocketHandshakeRequest.origin_cr platform maxHeaderLineLength maxHeaders data)

/-- A request with a line feed in its origin. -/
def forgingRequest : Bytes :=
  ascii "GET / HTTP/1.1" ++ CRLF ++ ascii "Host: a" ++ CRLF ++ ascii "Upgrade: websocket" ++ CRLF ++
    ascii "Connection: Upgrade" ++ CRLF ++ ascii "Sec-WebSocket-Key: AQIDBA==" ++ CRLF ++
    ascii "Sec-WebSocket-Version: 13" ++ CRLF ++ ascii "Origin: b" ++ [LF] ++
      ascii "Set-Cookie: c" ++ CRLF ++ CRLF

/-- A line feed in the origin goes into the response, where a reader that takes it for a line end
finds a header of the client. -/
theorem answer_lines_forged :
    ∃ lines, (getHandshakeResponse latin1Platform
      (QWebSocketHandshakeRequest.readHandshake latin1Platform
        maxHeaderLineLength maxHeaderLines forgingRequest).1 (ascii "server") true
          [currentVersion] [] []).response = head lines ∧
      (∀ line ∈ lines, CR ∉ line) ∧ ∃ line ∈ lines, LF ∈ line := by
  have hname : Unbroken (ascii "server") := by decide
  have hnone : ∀ b ∈ ([] : List Bytes), Unbroken b := by decide
  obtain ⟨lines, hlines, hcr, hlf⟩ := answer_lines latin1Platform true
      [currentVersion] hname hnone hnone
    maxHeaderLineLength maxHeaderLines forgingRequest rfl
  exact ⟨lines, hlines, hcr, hlf.mpr (by decide +kernel)⟩

end QWebSocketHandshakeResponse

namespace ClientRequest

open QWebSocketHandshakeRequest QWebSocketHandshakeResponse

/-! ### The answer to the request of a client

What `upgradeFrom` writes for a request that has arrived as a whole, and that it writes nothing for
a part of it. -/

/-- The lines of the response after those by which the server agrees. -/
def moreLines (platform : Platform) (serverName : Bytes) (c : ClientRequest) : List Bytes :=
  if containsText serverName CRLF then badRequestLines [currentVersion]
  else serverLines platform serverName (Latin1.trimmed c.origin)

/-- The lines of the response to the request. -/
def answer (platform : Platform) (serverName : Bytes) (c : ClientRequest) : List Bytes :=
  switchingLines c.key none none ++ c.moreLines platform serverName

theorem origin_noCr (c : ClientRequest) : CR ∉ c.origin := cr_of_optional c.origin_plain

/-- The server agrees with the request of a client. -/
theorem getHandshakeResponse_read (platform : Platform) (serverName : Bytes) (c : ClientRequest) :
    (getHandshakeResponse platform c.read serverName true [currentVersion] [] []).response =
        head (c.answer platform serverName) ∧
      (getHandshakeResponse platform c.read serverName true [currentVersion] [] []).canUpgrade =
        !containsText serverName CRLF := by
  have hnone (requested : List Bytes) : matching platform [] requested = [] :=
    List.eq_nil_of_length_eq_zero (platform.toList_perm _).length_eq
  have hversions : (c.read.versions.filter fun v => v ∈ [currentVersion]) ≠ [] :=
    show ([Version.version13].filter fun v => v ∈ [currentVersion]) ≠ [] by decide
  have hallowed : ¬ ¬ (true : Bool) = true := by decide
  have hvalid : c.read.isValid = true := rfl
  have horigin : containsText (Latin1.trimmed c.read.origin) CRLF = false :=
    not_containsText_trimmed c.origin_noCr
  rw [getHandshakeResponse, if_neg hallowed, if_pos hvalid, if_neg hversions, hnone, hnone,
    answer, moreLines]
  dsimp only
  rw [horigin, Bool.false_or]
  cases containsText serverName CRLF
  · exact ⟨finish_response _ _, rfl⟩
  · exact ⟨finish_response _ _, rfl⟩

/-- Who has used up all characters of a text has taken all of it from the device. -/
theorem leftInDevice_nil (platform : Platform) {data : Bytes} (hascii : ∀ c ∈ data, c < 128) :
    leftInDevice platform data [] = [] := by
  unfold leftInDevice blocksTaken
  dsimp only
  rw [platform.decode_ascii data hascii, List.length_nil, Nat.sub_zero]
  refine List.drop_eq_nil_of_le ?_
  rcases hfind : (List.range (data.length / streamBlock + 1)).find? _ with - | k
  · have hblocks := Nat.lt_div_mul_add (a := data.length) (b := streamBlock) (by decide)
    rw [Option.getD_none, Nat.add_mul]
    omega
  · have henough := List.find?_some hfind
    rw [decide_eq_true_iff, platform.decode_ascii _ fun c hc => hascii c (List.mem_of_mem_take hc),
      List.length_take] at henough
    rw [Option.getD_some]
    omega

/-- **What the server does with a part of the request**: it answers if nothing is missing, or only
the last character, and it takes everything from the socket. -/
theorem upgradeFrom_part (platform : Platform) (serverName : Bytes) (c : ClientRequest)
    (hascii : ∀ b ∈ c.text, b < 128) {b missing : Bytes} (hb : b ++ missing = c.text) :
    upgradeFrom platform serverName b =
      if missing = [] ∨ missing = [LF] then
        (!containsText serverName CRLF,
          platform.encode ((head (c.answer platform serverName)).takeWhile (· ≠ 0)), [])
      else (false, [], []) := by
  have hleft : leftInDevice platform b [] = [] :=
    leftInDevice_nil platform fun x hx => hascii x (hb ▸ List.mem_append_left _ hx)
  obtain ⟨hresponse, hupgrade⟩ := c.getHandshakeResponse_read platform serverName
  rw [upgradeFrom, c.readHandshake_part platform hascii hb]
  dsimp only
  rw [hleft]
  by_cases hmissing : missing = [] ∨ missing = [LF]
  · have hvalid : c.read.isValid = true := rfl
    rw [if_pos hmissing, if_pos hmissing, if_pos hvalid, hupgrade, written, hresponse]
  · have hinvalid : ¬ clear.isValid = true := by decide
    rw [if_neg hmissing, if_neg hmissing, if_neg hinvalid]

end ClientRequest

end QtWebApp
