import QtWebApp.WebSockets.ResponseLines

/-!
# QtWebApp.WebSockets.Connecting

The client reads the response to its handshake.

It is said line by line what a client does (`withLine`), and shown that this is what the loops of
`processData` come to, however the response is cut into pieces (`arrive_lines`).

The loops of the source stop where the buffer has no line left and go on when more arrives, so what
they do depends on how the response is cut. The other description reads one line at a time and has
no buffer. They agree as long as no line of the response is broken inside, which the lines of a
server are not.
-/

namespace QtWebApp

open Bytes QWebSocketProtocol QWebSocketHandshakeResponse

namespace Opening

/-! ### The loops take something every time

Each turn of each loop takes at least one byte of the buffer, so the fuel that the model gives them
is never used up, and how much of it there is makes no difference. -/

/-- Reading a line takes something. -/
theorem length_readLine {b : Bytes} (h : b ≠ []) : (readLine b).2.length < b.length := by
  induction b with
  | nil => exact absurd rfl h
  | cons c b ih =>
      rw [readLine]
      split
      · exact Nat.lt_succ_of_le ((List.drop_sublist 1 b).length_le)
      · by_cases hb : b = []
        · rw [hb]
          exact Nat.zero_lt_one
        · exact Nat.lt_succ_of_lt (ih hb)

theorem canReadLine_iff {o : Opening} : o.canReadLine = true ↔ LF ∈ o.readBuffer :=
  decide_eq_true_iff

theorem ne_nil_of_canReadLine {o : Opening} (h : o.canReadLine = true) : o.readBuffer ≠ [] :=
  List.ne_nil_of_mem (canReadLine_iff.mp h)

/-- How the loop over the header lines goes on. -/
theorem readHeaders_fuel {n m : Nat} {o : Opening} (hn : o.readBuffer.length < n)
    (hm : o.readBuffer.length < m) :
    readHeaders n o = readHeaders m o := by
  induction n generalizing m o with
  | zero => exact absurd hn (Nat.not_lt_zero _)
  | succ n ih =>
      obtain ⟨m, rfl⟩ := Nat.exists_eq_succ_of_ne_zero
          (Nat.ne_of_gt (Nat.lt_of_le_of_lt (Nat.zero_le _) hm))
      rw [readHeaders, readHeaders]
      split
      · next h =>
          have hlen := length_readLine (ne_nil_of_canReadLine h)
          dsimp only
          split
          · rfl
          · exact ih (Nat.lt_of_lt_of_le hlen (Nat.le_of_lt_succ hn))
              (Nat.lt_of_lt_of_le hlen (Nat.le_of_lt_succ hm))
          · exact ih (Nat.lt_of_lt_of_le hlen (Nat.le_of_lt_succ hn))
              (Nat.lt_of_lt_of_le hlen (Nat.le_of_lt_succ hm))
      · rfl

theorem readHeaders_length (n : Nat) (o : Opening) :
    (readHeaders n o).2.readBuffer.length ≤ o.readBuffer.length := by
  induction n generalizing o with
  | zero => exact le_refl _
  | succ n ih =>
      rw [readHeaders]
      split
      · next h =>
          have hlen := length_readLine (ne_nil_of_canReadLine h)
          dsimp only
          split
          · exact Nat.le_of_lt hlen
          · exact (ih _).trans (Nat.le_of_lt hlen)
          · exact (ih _).trans (Nat.le_of_lt hlen)
      · exact le_refl _

theorem readHeaders_length_lt {n : Nat} {o : Opening} (h : o.canReadLine = true) :
    (readHeaders (n + 1) o).2.readBuffer.length < o.readBuffer.length := by
  have hlen := length_readLine (ne_nil_of_canReadLine h)
  rw [readHeaders, if_pos h]
  dsimp only
  split
  · exact hlen
  · exact Nat.lt_of_le_of_lt (readHeaders_length n _) hlen
  · exact Nat.lt_of_le_of_lt (readHeaders_length n _) hlen

theorem readBuffer_readResponse (o : Opening) : o.readResponse.readBuffer =
    (readHeaders (o.readBuffer.length + 1)
      { o with handshakeState := .readingHeader }).2.readBuffer := by
  rw [readResponse]
  dsimp only
  split
  · split <;> rfl
  · split <;> rfl

/-- So does the status line, whatever becomes of it. -/
theorem readStatus_length {o : Opening} (h : o.canReadLine = true) :
    o.readStatus.readBuffer.length < o.readBuffer.length := by
  have hne := ne_nil_of_canReadLine h
  have hlen : (lineUpTo o.readBuffer.length o.readBuffer).2.length < o.readBuffer.length := by
    have hsplit := congrArg List.length (lineUpTo_append o.readBuffer.length o.readBuffer)
    have hpos := List.length_pos_iff.mpr (lineUpTo_ne_nil hne (List.length_pos_iff.mpr hne))
    rw [List.length_append] at hsplit
    omega
  have hline : canReadLine { o with handshakeState := .readingStatus } = true := h
  rw [readStatus]
  dsimp only
  rw [if_pos hline]
  split
  · exact hlen
  · split
    · rw [readBuffer_readResponse]
      exact Nat.lt_of_le_of_lt (readHeaders_length _ _) hlen
    · exact hlen

/-- And so does a turn of `processHandshake`, in each of its states. -/
theorem processHandshake_length {o : Opening} (h : o.canReadLine = true) :
    o.processHandshake.readBuffer.length < o.readBuffer.length := by
  have hheaders : o.readResponse.readBuffer.length < o.readBuffer.length := by
    rw [readBuffer_readResponse]
    exact readHeaders_length_lt (o := { o with handshakeState := .readingHeader }) h
  unfold processHandshake
  split
  · exact readStatus_length h
  · exact hheaders
  · exact readStatus_length (o := { o with headers := .empty }) h
  · exact readStatus_length (o := { o with headers := .empty }) h

/-! ### The outer loop

It goes on as long as there is a line and the client is not connected. What it does is determined by
the buffer, and `settle` is what it does with enough fuel. -/

/-- The client goes on reading. -/
def Reads (o : Opening) : Prop := ¬ o.connected = true ∧ o.canReadLine = true

instance (o : Opening) : Decidable o.Reads := inferInstanceAs (Decidable (_ ∧ _))

theorem processData_succ (n : Nat) (o : Opening) :
    processData (n + 1) o = if o.Reads then processData n o.processHandshake else o := by
  rw [processData]
  by_cases h : o.Reads
  · rw [if_pos h, if_pos ⟨ne_nil_of_canReadLine h.2, h.1, h.2⟩]
  · rw [if_neg h, if_neg fun hc => h ⟨hc.2.1, hc.2.2⟩]

/-- The client leaves alone what it cannot read. -/
theorem processData_idle {o : Opening} (h : ¬ o.Reads) (n : Nat) : processData n o = o := by
  cases n with
  | zero => rfl
  | succ n => rw [processData_succ, if_neg h]

/-- It does not matter how often the loop may run, if that is enough. -/
theorem processData_fuel {n m : Nat} {o : Opening} (hn : o.readBuffer.length ≤ n)
    (hm : o.readBuffer.length ≤ m) :
    processData n o = processData m o := by
  induction n generalizing m o with
  | zero =>
      have hnil : o.readBuffer = [] := List.eq_nil_of_length_eq_zero (Nat.le_zero.mp hn)
      have hidle : ¬ o.Reads := fun h => ne_nil_of_canReadLine h.2 hnil
      rw [processData_idle hidle, processData_idle hidle]
  | succ n ih =>
      by_cases hreads : o.Reads
      · have hlen := processHandshake_length hreads.2
        obtain ⟨m, rfl⟩ := Nat.exists_eq_succ_of_ne_zero (show m ≠ 0 by omega)
        rw [processData_succ, processData_succ, if_pos hreads, if_pos hreads]
        exact ih (by omega) (by omega)
      · rw [processData_idle hreads, processData_idle hreads]

/-- The client reads what is there. -/
def settle (o : Opening) : Opening := processData o.readBuffer.length o

theorem processData_eq_settle {n : Nat} {o : Opening} (h : o.readBuffer.length ≤ n) :
    processData n o = o.settle :=
  processData_fuel h (le_refl _)

theorem settle_idle {o : Opening} (h : ¬ o.Reads) : o.settle = o := processData_idle h _

/-- A turn of the loop. -/
theorem settle_reads {o : Opening} (h : o.Reads) : o.settle = o.processHandshake.settle := by
  have hlen := processHandshake_length h.2
  obtain ⟨n, hn⟩ := Nat.exists_eq_succ_of_ne_zero (show o.readBuffer.length ≠ 0 by omega)
  rw [settle, hn, processData_succ, if_pos h]
  exact processData_eq_settle (by omega)

/-! ### The client, line by line

What a line does to the client, with the buffer taken out. The empty line is the one that ends the
handshake, well or not. -/

/-- With something else in the buffer. -/
def holding (o : Opening) (b : Bytes) : Opening := { o with readBuffer := b }

/-- All headers have been read. -/
def conclude (o : Opening) : Opening :=
  match o.verdict with
  | none => o.succeed
  | some errorDescription => o.fail errorDescription

/-- A status line has been read. -/
def withStatus (o : Opening) (statusLine : Bytes) : Opening :=
  let o := { o with
    handshakeState := .readingStatus
    statusLine := statusLine }
  match parseStatusLine statusLine with
  | none => o.fail (invalidStatusLine statusLine)
  | some status =>
      let o := { o with
        httpMajorVersion := status.majorVersion
        httpMinorVersion := status.minorVersion
        httpStatusCode := status.statusCode
        httpStatusMessage := status.reasonPhrase }
      if status.valid then { o with handshakeState := .readingHeader }
      else o.fail (invalidStatusLine statusLine)

/-- A header line has been read. -/
def withHeader (o : Opening) (headerLine : Bytes) : Opening :=
  match Latin1.split (ascii ": ") headerLine with
  | [] => o.conclude
  | [name, value] => { o with headers := o.headers.insert (Latin1.toLower name) value }
  | _ => o

/-- A line has been read. -/
def withLine (o : Opening) (line : Bytes) : Opening :=
  match o.handshakeState with
  | .readingHeader => o.withHeader line
  | .readingStatus => o.withStatus (line ++ CRLF)
  | .nothingDone | .allDone => { o with headers := .empty }.withStatus (line ++ CRLF)

@[simp] theorem holding_readBuffer (o : Opening) (b : Bytes) : (o.holding b).readBuffer = b := rfl

@[simp] theorem holding_holding (o : Opening) (a b : Bytes) :
    (o.holding a).holding b = o.holding b := rfl

theorem holding_self (o : Opening) : o.holding o.readBuffer = o := rfl

theorem withHeader_holding (o : Opening) (line b : Bytes) :
    (o.holding b).withHeader line = (o.withHeader line).holding b := by
  unfold withHeader
  split
  · have hverdict : (o.holding b).verdict = o.verdict := rfl
    rw [conclude, conclude, hverdict]
    cases o.verdict <;> rfl
  · rfl
  · rfl

theorem withStatus_holding (o : Opening) (line b : Bytes) :
    (o.holding b).withStatus line = (o.withStatus line).holding b := by
  unfold withStatus
  dsimp only
  split
  · rfl
  · split <;> rfl

/-- What a line does is independent of the buffer. -/
theorem withLine_holding (o : Opening) (line b : Bytes) :
    (o.holding b).withLine line = (o.withLine line).holding b := by
  have hstate : (o.holding b).handshakeState = o.handshakeState := rfl
  rw [withLine, withLine, hstate]
  cases o.handshakeState
  · exact withStatus_holding { o with headers := .empty } _ _
  · exact withStatus_holding o _ _
  · exact withHeader_holding o _ _
  · exact withStatus_holding { o with headers := .empty } _ _

theorem readLine_line {line : Bytes} (hcr : CR ∉ line) (rest : Bytes) :
    readLine (line ++ CRLF ++ rest) = (line, rest) := by
  induction line with
  | nil => rfl
  | cons c line ih =>
      have hc : c ≠ CR := fun h => hcr (h ▸ List.mem_cons_self)
      rw [List.cons_append, List.cons_append, readLine, if_neg hc, ih fun h =>
        hcr (List.mem_cons_of_mem c h)]

theorem canReadLine_line (o : Opening) (line rest : Bytes) :
    (o.holding (line ++ CRLF ++ rest)).canReadLine = true := by
  rw [canReadLine_iff, holding_readBuffer, List.mem_append, List.mem_append]
  exact .inl (.inr (List.mem_cons_of_mem _ List.mem_cons_self))

/-! ### A line at the front

The loops read the first line of the buffer and then do what they would do with the rest alone. -/

/-- What comes after the loop over the header lines. -/
def afterHeaders (r : Bool × Opening) : Opening :=
  if r.1 then r.2.conclude
  else if ¬ r.2.socketConnected then
    r.2.fail (ascii "QWebSocketPrivate::processHandshake: Connection closed while reading header.")
  else r.2

theorem readResponse_eq {o : Opening} (h : o.handshakeState = .readingHeader) :
    o.readResponse = afterHeaders (readHeaders (o.readBuffer.length + 1) o) := by
  have hstate : { o with handshakeState := .readingHeader } = o := by rw [← h]
  rw [readResponse, hstate]
  rfl

/-- Reading the header lines that are there is what the client does in any case. -/
theorem settle_readResponse {o : Opening} (h : o.handshakeState = .readingHeader)
    (hclosed : ¬ o.connected = true) (hsocket : o.socketConnected = true) :
    o.readResponse.settle = o.settle := by
  by_cases hline : o.canReadLine = true
  · rw [settle_reads ⟨hclosed, hline⟩, processHandshake, h]
  · have hnone : readHeaders (o.readBuffer.length + 1) o = (false, o) := by
      rw [readHeaders, if_neg hline]
    rw [readResponse_eq h, hnone, afterHeaders, if_neg Bool.false_ne_true,
      if_neg (not_not_intro hsocket)]

/-- A header line that has arrived. -/
theorem readResponse_line {o : Opening} (h : o.handshakeState = .readingHeader)
    (hclosed : ¬ o.connected = true) (hsocket : o.socketConnected = true) {line : Bytes}
    (hcr : CR ∉ line) (rest : Bytes) :
    (o.holding (line ++ CRLF ++ rest)).readResponse.settle =
      ((o.withHeader line).holding rest).settle := by
  have hlen : rest.length < (line ++ CRLF ++ rest).length := by
    simp only [List.length_append, List.length_cons]
    omega
  have hstate : (o.holding (line ++ CRLF ++ rest)).handshakeState = .readingHeader := h
  have hnext (u : Opening) (hu : u.handshakeState = .readingHeader)
      (hclosedU : ¬ u.connected = true)
      (hsocketU : u.socketConnected = true) :
      (afterHeaders (readHeaders (line ++ CRLF ++ rest).length (u.holding rest))).settle =
        (u.holding rest).settle := by
    rw [readHeaders_fuel (m := rest.length + 1) hlen (Nat.lt_succ_self _)]
    exact (congrArg settle (readResponse_eq (o := u.holding rest) hu)).symm.trans
      (settle_readResponse (o := u.holding rest) hu hclosedU hsocketU)
  rw [readResponse_eq hstate, readHeaders, if_pos (canReadLine_line o line rest),
    holding_readBuffer, readLine_line hcr, ← withHeader_holding, withHeader]
  dsimp only
  rcases Latin1.split (ascii ": ") line with _ | ⟨name, _ | ⟨value, _ | ⟨part, l⟩⟩⟩
  · rfl
  · exact hnext o h hclosed hsocket
  · exact hnext { o with headers := o.headers.insert (Latin1.toLower name) value } h hclosed hsocket
  · exact hnext o h hclosed hsocket

/-- A status line that has arrived. -/
theorem readStatus_line {o : Opening} (hclosed : ¬ o.connected = true)
    (hsocket : o.socketConnected = true) {line : Bytes} (hline : Unbroken line) (rest : Bytes) :
    (o.holding (line ++ CRLF ++ rest)).readStatus.settle =
      ((o.withStatus (line ++ CRLF)).holding rest).settle := by
  have hread : lineUpTo (line ++ CRLF ++ rest).length (line ++ CRLF ++ rest) =
      (line ++ CRLF, rest) := by
    have htext : line ++ CRLF ++ rest = (line ++ [CR]) ++ LF :: rest := by
      rw [List.append_assoc, List.append_assoc]
      rfl
    have hlf : LF ∉ line ++ [CR] := by
      rw [List.mem_append, not_or]
      exact ⟨hline.2, by decide⟩
    have hlt : (line ++ [CR]).length < (line ++ CRLF ++ rest).length := by
      simp only [List.length_append, List.length_cons, List.length_nil]
      omega
    rw [htext] at hlt ⊢
    rw [lineUpTo_line hlf hlt, List.append_assoc]
    rfl
  have hcan : canReadLine
      { o.holding (line ++ CRLF ++ rest) with handshakeState := .readingStatus } = true :=
    canReadLine_line o line rest
  rw [readStatus]
  dsimp only
  rw [if_pos hcan, holding_readBuffer, hread, ← withStatus_holding, withStatus]
  dsimp only
  cases parseStatusLine (line ++ CRLF) with
  | none => rfl
  | some status =>
      dsimp only
      by_cases hvalid : status.valid = true
      · rw [if_pos hvalid, if_pos hvalid]
        exact settle_readResponse (o := { o.holding rest with
          handshakeState := .readingHeader
          statusLine := line ++ CRLF
          httpMajorVersion := status.majorVersion
          httpMinorVersion := status.minorVersion
          httpStatusCode := status.statusCode
          httpStatusMessage := status.reasonPhrase }) rfl hclosed hsocket
      · rw [if_neg hvalid, if_neg hvalid]
        rfl

/-- **The client reads one line after the other.** -/
theorem settle_line {o : Opening} (hclosed : ¬ o.connected = true)
    (hsocket : o.socketConnected = true) {line : Bytes} (hline : Unbroken line) (rest : Bytes) :
    (o.holding (line ++ CRLF ++ rest)).settle = ((o.withLine line).holding rest).settle := by
  have hreads : (o.holding (line ++ CRLF ++ rest)).Reads := ⟨hclosed, canReadLine_line o line rest⟩
  have hstate : (o.holding (line ++ CRLF ++ rest)).handshakeState = o.handshakeState := rfl
  rw [settle_reads hreads, processHandshake, withLine, hstate]
  cases h : o.handshakeState with
  | nothingDone =>
      exact readStatus_line (o := { o with headers := .empty }) hclosed hsocket hline rest
  | readingStatus => exact readStatus_line hclosed hsocket hline rest
  | readingHeader => exact readResponse_line h hclosed hsocket hline.1 rest
  | allDone => exact readStatus_line (o := { o with headers := .empty }) hclosed hsocket hline rest

/-! ### The response in pieces

By induction on the pieces, and within a piece on the lines that it completes. -/

/-- Lines have been read. -/
def withLines (o : Opening) (lines : List Bytes) : Opening := lines.foldl withLine o

/-- What has arrived is read as far as it goes. -/
theorem arrive_eq (o : Opening) (data : Bytes) :
    o.arrive data = (o.holding (o.readBuffer ++ data)).settle :=
  processData_eq_settle (o := o.holding (o.readBuffer ++ data)) (le_of_eq List.length_append)

theorem withLines_append (o : Opening) (lines more : List Bytes) :
    o.withLines (lines ++ more) = (o.withLines lines).withLines more := List.foldl_append

theorem withLines_holding (o : Opening) (lines : List Bytes) (b : Bytes) :
    (o.holding b).withLines lines = (o.withLines lines).holding b := by
  induction lines generalizing o with
  | nil => rfl
  | cons line lines ih =>
      rw [withLines, withLines, List.foldl_cons, List.foldl_cons, withLine_holding]
      exact ih _

@[simp] theorem withHeader_socketConnected (o : Opening) (line : Bytes) :
    (o.withHeader line).socketConnected = o.socketConnected := by
  unfold withHeader
  split
  · rw [conclude]
    cases o.verdict <;> rfl
  · rfl
  · rfl

@[simp] theorem withStatus_socketConnected (o : Opening) (line : Bytes) :
    (o.withStatus line).socketConnected = o.socketConnected := by
  unfold withStatus
  dsimp only
  split
  · rfl
  · split <;> rfl

@[simp] theorem withLine_socketConnected (o : Opening) (line : Bytes) :
    (o.withLine line).socketConnected = o.socketConnected := by
  unfold withLine
  split
  · exact withHeader_socketConnected o line
  · exact withStatus_socketConnected o _
  · exact withStatus_socketConnected { o with headers := .empty } _
  · exact withStatus_socketConnected { o with headers := .empty } _

/-- A client that is connected, or that has no line to read, keeps what arrives. -/
theorem arrive_idle {pieces : List Bytes} {o : Opening}
    (h : o.connected = true ∨ LF ∉ o.readBuffer ++ pieces.flatten) :
    pieces.foldl arrive o.settle = o.holding (o.readBuffer ++ pieces.flatten) := by
  induction pieces generalizing o with
  | nil =>
      have hidle : ¬ o.Reads := by
        rintro ⟨hclosed, hline⟩
        rcases h with h | h
        · exact hclosed h
        · exact h (List.mem_append_left _ (canReadLine_iff.mp hline))
      rw [List.foldl_nil, settle_idle hidle, List.flatten_nil, List.append_nil, holding_self]
  | cons piece pieces ih =>
      have hidle : ¬ o.Reads := by
        rintro ⟨hclosed, hline⟩
        rcases h with h | h
        · exact hclosed h
        · exact h (List.mem_append_left _ (canReadLine_iff.mp hline))
      rw [List.flatten_cons, ← List.append_assoc] at h ⊢
      rw [List.foldl_cons, settle_idle hidle, arrive_eq]
      exact ih (o := o.holding (o.readBuffer ++ piece)) h

/-- Of a line that has not arrived as a whole no line feed has arrived. -/
theorem unfinished_line {line b a : Bytes} (hline : Unbroken line) (ha : a ≠ [])
    (h : b ++ a = line ++ CRLF) :
    LF ∉ b := by
  obtain ⟨a', c, rfl⟩ := List.eq_nil_or_concat a |>.resolve_left ha
  have hinit : b ++ a' = line ++ [CR] := by
    have hlast : b ++ a' ++ [c] = line ++ [CR] ++ [LF] := by
      rw [List.append_assoc, ← List.concat_eq_append, h, List.append_assoc]
      rfl
    exact (List.append_inj' hlast rfl).1
  intro hb
  have hmem : LF ∈ line ++ [CR] := hinit ▸ List.mem_append_left a' hb
  rcases List.mem_append.mp hmem with hmem | hmem
  · exact hline.2 hmem
  · exact absurd hmem (by decide)

/-- One line of what is still to arrive. -/
theorem arrive_line {line : Bytes} (hline : Unbroken line) {o : Opening}
    (hclosed : ¬ o.connected = true) (hsocket : o.socketConnected = true) {rest : Bytes}
    {pieces : List Bytes} (hpieces : o.readBuffer ++ pieces.flatten = line ++ CRLF ++ rest) :
    ∃ (b : Bytes) (pieces' : List Bytes), b ++ pieces'.flatten = rest ∧
      pieces.foldl arrive o.settle = pieces'.foldl arrive ((o.withLine line).holding b).settle := by
  induction pieces generalizing o with
  | nil =>
      rw [List.flatten_nil, List.append_nil] at hpieces
      refine ⟨rest, [], List.append_nil rest, ?_⟩
      rw [List.foldl_nil, List.foldl_nil, ← settle_line hclosed hsocket hline,
        ← hpieces, holding_self]
  | cons piece pieces ih =>
      rcases part_of_line hpieces with ⟨b, hb, hrest⟩ | ⟨a, ha, hunfinished, -⟩
      · refine ⟨b, piece :: pieces, hrest, ?_⟩
        rw [← settle_line hclosed hsocket hline, ← hb, holding_self]
      · have hidle : ¬ o.Reads := fun h => unfinished_line hline ha hunfinished
            (canReadLine_iff.mp h.2)
        rw [List.flatten_cons, ← List.append_assoc] at hpieces
        obtain ⟨b, pieces', hrest, hread⟩ :=
          ih (o := o.holding (o.readBuffer ++ piece)) hclosed hsocket hpieces
        refine ⟨b, pieces', hrest, ?_⟩
        rw [List.foldl_cons, settle_idle hidle, arrive_eq, hread, withLine_holding, holding_holding]

/-- **However it is cut into pieces, the client reads what arrives line by line**, as long as it is
not connected; what is left then stays in the buffer. -/
theorem arrive_lines {lines : List Bytes} (hlines : ∀ line ∈ lines, Unbroken line) {o : Opening}
    (hsocket : o.socketConnected = true)
    (hopen : ∀ k < lines.length, ¬ (o.withLines (lines.take k)).connected = true) {more : Bytes}
    (hmore : (o.withLines lines).connected = true ∨ LF ∉ more) {pieces : List Bytes}
    (hpieces : o.readBuffer ++ pieces.flatten = lines.flatMap (· ++ CRLF) ++ more) :
    pieces.foldl arrive o.settle = (o.withLines lines).holding more := by
  induction lines generalizing o pieces with
  | nil =>
      rw [List.flatMap_nil, List.nil_append] at hpieces
      rw [arrive_idle (hpieces ▸ hmore), hpieces]
      rfl
  | cons line lines ih =>
      rw [List.forall_mem_cons] at hlines
      rw [List.flatMap_cons, List.append_assoc] at hpieces
      have hclosed : ¬ o.connected = true := hopen 0 (Nat.zero_lt_succ _)
      obtain ⟨b, pieces', hrest, hread⟩ := arrive_line hlines.1 hclosed hsocket hpieces
      have hopen' : ∀ k < lines.length,
          ¬ (((o.withLine line).holding b).withLines (lines.take k)).connected = true := by
        intro k hk
        rw [withLines_holding]
        exact hopen (k + 1) (Nat.succ_lt_succ hk)
      have hmore' : (((o.withLine line).holding b).withLines lines).connected =
          true ∨ LF ∉ more := by
        rw [withLines_holding]
        exact hmore
      rw [hread, ih hlines.2 (o := (o.withLine line).holding b)
        ((withLine_socketConnected o line).trans hsocket) hopen'
        hmore' hrest, withLines_holding]
      rfl

end Opening

end QtWebApp
