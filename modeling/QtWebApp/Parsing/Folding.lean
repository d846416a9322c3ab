import QtWebApp.Parsing.Lines

/-!
# QtWebApp.Parsing.Folding

**Folded headers.** A header may go on in further lines, which have no colon. For each of them
the parser joins the line to the latest value of the header, but stores the result with
`QMultiMap::insert`, beside the value that was there.

`LogicalHeader` is a header with its lines, `ReadsLines` the calls that read lines which have
arrived whole. `readsLines_entries` says what the header map is afterwards: an entry for each
line, the value as it was after that line. So every header has one entry with its joined value
exactly when no header was folded (`joinedOnce_iff`).

`insert` puts the new entry beside the old one and in front of it. So a lookup finds the longest
value, and nobody notices until somebody asks for all values of the name.
-/

namespace QtWebApp

open Bytes

/-- A header as it is sent: a line with a name and a value, and the lines that continue it. -/
structure LogicalHeader where
  first : Bytes
  continuations : List Bytes
  first_line : LF ∉ first
  first_colon : 0 < (trimmed first).indexOf [58] 0
  continuations_line : ∀ c ∈ continuations, LF ∉ c
  continuations_text : ∀ c ∈ continuations, trimmed c ≠ [] ∧ 58 ∉ trimmed c

namespace LogicalHeader

/-- The name, in lower case as the parser stores it. -/
def name (h : LogicalHeader) : Bytes :=
  toLower ((trimmed h.first).left ((trimmed h.first).indexOf [58] 0))

/-- The value on the first line. -/
def value (h : LogicalHeader) : Bytes :=
  trimmed ((trimmed h.first).mid ((trimmed h.first).indexOf [58] 0 + 1))

/-- The whole value: that of the first line and the continuations, with blanks between them. -/
def joined (h : LogicalHeader) : Bytes :=
  (ascii " ").intercalate (h.value :: h.continuations.map trimmed)

/-- The lines of the header. -/
def lines (h : LogicalHeader) : List Bytes := h.first :: h.continuations

theorem lines_text (h : LogicalHeader) : ∀ x ∈ h.lines, trimmed x ≠ [] := by
  intro x hx
  rcases List.mem_cons.mp hx with rfl | hx
  · intro hnil
    have hcolon := h.first_colon
    simp [hnil, indexOf, Search.find] at hcolon
  · exact (h.continuations_text x hx).1

/-- A value with the continuations joined to it one after the other, after each of its lines. -/
def stages : Bytes → List Bytes → List Bytes
  | v, [] => [v]
  | v, c :: cs => v :: stages (v ++ ascii " " ++ trimmed c) cs

/-- The entries that the lines of the header make, in the order in which they are inserted. -/
def entries (h : LogicalHeader) : List (Bytes × Bytes) :=
  (stages h.value h.continuations).map fun v => (h.name, v)

@[simp] theorem stages_length (v : Bytes) (cs : List Bytes) :
    (stages v cs).length = cs.length + 1 := by
  induction cs generalizing v with
  | nil => rfl
  | cons c cs ih => simp [stages, ih]

/-- A header on one line makes one entry, with its whole value. -/
theorem entries_unfolded {h : LogicalHeader} (hc : h.continuations = []) :
    h.entries = [(h.name, h.joined)] := by
  simp [entries, joined, hc, stages]

/-- As many entries as headers: every header made just one. -/
theorem unfolded_of_length {headers : List LogicalHeader}
    (hlen : (headers.flatMap entries).length = headers.length) :
    ∀ h ∈ headers, h.continuations = [] := by
  have hle : ∀ hs : List LogicalHeader, hs.length ≤ (hs.flatMap entries).length := by
    intro hs
    induction hs with
    | nil => simp
    | cons h hs ih =>
        simp only [List.flatMap_cons, List.length_append, List.length_cons, entries,
          List.length_map, stages_length] at ih ⊢
        omega
  induction headers with
  | nil => simp
  | cons h headers ih =>
      have hrest := hle headers
      simp only [List.flatMap_cons, List.length_append, List.length_cons, entries, List.length_map,
        stages_length] at hlen hrest
      intro h' hh'
      rcases List.mem_cons.mp hh' with rfl | hh'
      · exact List.length_eq_zero_iff.mp (by omega)
      · exact ih (by omega) h' hh'

end LogicalHeader

namespace HttpRequest

/-! ### Lines that arrive whole

One call for each line, and none of them ends the request. -/

/-- Calls of `readFromSocket` that read one header line each: the line is waiting as a whole
when the call is made, and it is what the call takes. -/
inductive ReadsLines : HttpRequest → List Bytes → HttpRequest → Prop
  | nil (r) : ReadsLines r [] r
  | cons {r x rest r₁ xs r'} : r.status = .waitForHeader →
      r.readFromSocket (x ++ LF :: rest) = (r₁, rest) → ReadsLines r₁ xs r' →
      ReadsLines r (x :: xs) r'

/-- The checks after a header line leave what it made. -/
theorem afterRead_waiting {r : HttpRequest} (hs : r.status = .waitForHeader) :
    r.afterRead.lineBuffer = r.lineBuffer ∧
      (r.afterRead.headers, r.afterRead.currentHeader) = (r.headers, r.currentHeader) := by
  unfold afterRead
  by_cases htoo : r.receivedTooMuch
  · simp [htoo]
  · simp [htoo, hs]

/-- What a call does to the headers when it takes a whole line that is not blank. -/
theorem readFromSocket_whole {r r₁ : HttpRequest} {x rest : Bytes} (hs : r.status = .waitForHeader)
    (hbuffer : r.lineBuffer = []) (hx : trimmed x ≠ [])
    (hcall : r.readFromSocket (x ++ LF :: rest) = (r₁, rest)) :
    r₁.lineBuffer = [] ∧
      (r₁.headers, r₁.currentHeader) = headerAfter (r.headers, r.currentHeader) (trimmed x) := by
  have hrest : (readLine (x ++ LF :: rest) r.toRead).2 = rest := by
    have h := congrArg Prod.snd hcall
    simpa only [readFromSocket, readStep, hs, readHeader, appendLine] using h
  have hdata : (readLine (x ++ LF :: rest) r.toRead).1 = x ++ [LF] := by
    have hall := readLine_append (x ++ LF :: rest) r.toRead
    rw [hrest] at hall
    exact List.append_cancel_right (hall.trans (by simp : _ = x ++ [LF] ++ rest))
  obtain ⟨s, hline, hheaders, hcurrent, hstatus⟩ : ∃ s : HttpRequest,
      (r.appendLine (x ++ LF :: rest)).1 = s.takeLine x ∧
      s.headers = r.headers ∧ s.currentHeader = r.currentHeader ∧ s.status = .waitForHeader := by
    refine ⟨{ r with
      currentSize := int32 (r.currentSize + (x.length + 1)) - (x.length + 1) }, ?_, rfl, rfl, hs⟩
    simp [appendLine, hdata, hbuffer, takeLine]
  have hfirst : (s.takeLine x).finishHeaderLine.afterRead = r₁ := by
    have h := congrArg Prod.fst hcall
    simpa only [readFromSocket, readStep, hs, readHeader, hline] using h
  have hafter := afterRead_waiting (r := (s.takeLine x).finishHeaderLine)
    (by rw [finishHeaderLine_takeLine hx]; exact hstatus)
  rw [hfirst, finishHeaderLine_takeLine hx, takeHeader_headers, hheaders, hcurrent] at hafter
  exact hafter

/-- Header lines that fit are read when they arrive. -/
theorem readsLines_of_fit {r : HttpRequest} (h : r.AtLine) (hs : r.status = .waitForHeader)
    {lines : List Bytes} (hline : ∀ x ∈ lines, LF ∉ x) (htext : ∀ x ∈ lines, trimmed x ≠ [])
    (hfit : r.currentSize + (lineBytes lines).length ≤ r.maxSize) :
    ∃ r', ReadsLines r lines r' := by
  induction lines generalizing r with
  | nil => exact ⟨r, .nil r⟩
  | cons x xs ih =>
      obtain ⟨hx, hline'⟩ := List.forall_mem_cons.mp hline
      obtain ⟨htextx, htext'⟩ := List.forall_mem_cons.mp htext
      have hlen := lineBytes_cons_length x xs
      have hfitx : r.currentSize + (x.length + 1) ≤ r.maxSize := by omega
      have hfit' : (r.takeHeader x).currentSize + (lineBytes xs).length ≤
          (r.takeHeader x).maxSize := by
        simp only [takeHeader, takeLine]
        omega
      obtain ⟨r', hr'⟩ := ih (h.takeHeader hfitx) hs hline' htext' hfit'
      exact ⟨r', .cons hs (readFromSocket_takeHeader h hs hx htextx hfitx []) hr'⟩

/-- Reading lines is `headerAfter` for each of them. -/
theorem ReadsLines.headers_eq {r r' : HttpRequest} {lines : List Bytes} (h : ReadsLines r lines r')
    (hbuffer : r.lineBuffer = []) (htext : ∀ x ∈ lines, trimmed x ≠ []) :
    (r'.headers, r'.currentHeader) =
      lines.foldl (fun s x => headerAfter s (trimmed x)) (r.headers, r.currentHeader) := by
  induction h with
  | nil => rfl
  | cons hs hcall hrest ih =>
      obtain ⟨hbuffer', hstep⟩ := readFromSocket_whole hs hbuffer (htext _ List.mem_cons_self) hcall
      rw [ih hbuffer' fun x hx => htext x (List.mem_cons_of_mem _ hx), hstep]
      rfl

/-! ### The header map

The lines of a header, and then the headers of a block, as folds over the map. -/

/-- The lines that continue a header add its stages, one after the other. -/
theorem foldl_continuations (k v : Bytes) (es : List (Bytes × Bytes)) {cs : List Bytes}
    (hcs : ∀ c ∈ cs, trimmed c ≠ [] ∧ 58 ∉ trimmed c) :
    cs.foldl (fun s x => headerAfter s (trimmed x)) (⟨(k, v) :: es⟩, k) =
      (⟨((LogicalHeader.stages v cs).map fun v => (k, v)).reverse ++ es⟩, k) := by
  induction cs generalizing v es with
  | nil => rfl
  | cons c cs ih =>
      have hcolon : (trimmed c).indexOf [58] 0 = -1 := by
        simp [indexOf, Search.find_absent (hcs c List.mem_cons_self).2]
      have hstep : headerAfter (⟨(k, v) :: es⟩, k) (trimmed c) =
          (⟨(k, v ++ ascii " " ++ trimmed c) :: (k, v) :: es⟩, k) := by
        simp [headerAfter, hcolon, QMultiMap.contains, QMultiMap.insert, QMultiMap.value,
          QMultiMap.values]
      rw [List.foldl_cons, hstep, ih _ _ fun c hc => hcs c (List.mem_cons_of_mem _ hc)]
      simp [LogicalHeader.stages]

/-- A header with all its lines adds its entries. -/
theorem foldl_header (h : LogicalHeader) (s : QMultiMap × Bytes) :
    h.lines.foldl (fun s x => headerAfter s (trimmed x)) s =
      (⟨h.entries.reverse ++ s.1.entries⟩, h.name) := by
  have hfirst : headerAfter s (trimmed h.first) = (⟨(h.name, h.value) :: s.1.entries⟩, h.name) :=
    if_pos h.first_colon
  rw [LogicalHeader.lines, List.foldl_cons, hfirst,
    foldl_continuations _ _ _ h.continuations_text]
  rfl

theorem foldl_headers (headers : List LogicalHeader) (s : QMultiMap × Bytes) :
    ((headers.flatMap LogicalHeader.lines).foldl
      (fun s x => headerAfter s (trimmed x)) s).1.entries =
      (headers.flatMap LogicalHeader.entries).reverse ++ s.1.entries := by
  induction headers generalizing s with
  | nil => rfl
  | cons h headers ih =>
      rw [List.flatMap_cons, List.foldl_append, ih, foldl_header]
      simp

/-- **The header map after a block of headers** has an entry for each line. -/
theorem readsLines_entries {r r' : HttpRequest} {headers : List LogicalHeader}
    (hempty : r.headers = .empty) (hbuffer : r.lineBuffer = [])
    (hrun : ReadsLines r (headers.flatMap LogicalHeader.lines) r') :
    r'.headers.entries = (headers.flatMap LogicalHeader.entries).reverse := by
  have htext : ∀ x ∈ headers.flatMap LogicalHeader.lines, trimmed x ≠ [] := by
    intro x hx
    obtain ⟨h, -, hline⟩ := List.mem_flatMap.mp hx
    exact h.lines_text x hline
  have hfold := congrArg Prod.fst (hrun.headers_eq hbuffer htext)
  rw [show r'.headers = _ from hfold, foldl_headers, hempty]
  exact List.append_nil _

/-- The header map shows every header once, with its whole value. -/
structure JoinedOnce (headers : List LogicalHeader) (r : HttpRequest) : Prop where
  getHeaderMap : r.getHeaderMap.entries.Perm (headers.map fun h => (h.name, h.joined))
  getHeaders : ∀ name, r.getHeaders name =
    ((headers.filter fun h => h.name == toLower name).map LogicalHeader.joined).reverse

/-- **Folded headers.** Every header has one entry with its joined value exactly when none of them
goes on in a further line. -/
theorem joinedOnce_iff {r r' : HttpRequest} {headers : List LogicalHeader}
    (hempty : r.headers = .empty) (hbuffer : r.lineBuffer = [])
    (hrun : ReadsLines r (headers.flatMap LogicalHeader.lines) r') :
    JoinedOnce headers r' ↔ ∀ h ∈ headers, h.continuations = [] := by
  have hentries := readsLines_entries hempty hbuffer hrun
  constructor
  · intro hjoined
    have hlen := hjoined.getHeaderMap.length_eq
    rw [getHeaderMap, hentries, List.length_reverse, List.length_map] at hlen
    exact LogicalHeader.unfolded_of_length hlen
  · intro hunfolded
    have hall : headers.flatMap LogicalHeader.entries = headers.map fun h =>
      (h.name, h.joined) := by
      rw [← List.flatMap_singleton' (headers.map _), List.flatMap_map]
      exact List.flatMap_congr fun h hh => LogicalHeader.entries_unfolded (hunfolded h hh)
    refine ⟨?_, fun name => ?_⟩
    · rw [getHeaderMap, hentries, hall]
      exact List.reverse_perm _
    · rw [getHeaders, QMultiMap.values, hentries, hall, List.filter_reverse, List.map_reverse,
        List.filter_map, List.map_map]
      rfl

/-- A new request that has received a request line. -/
theorem firstLine_read :
    let r := ((new defaultSettings).readFromSocket (ascii "GET / HTTP/1.1\r\n")).1
    r.headers = .empty ∧ r.lineBuffer = [] ∧ r.status = .waitForHeader ∧ r.AtLine :=
  ⟨rfl, by decide, by decide, by decide, by decide, by decide, by decide, by decide, by decide⟩

/-- `X: a` on one line and `X: b` on another are two headers of one name. -/
theorem joinedOnce_iff_twice :
    let r := ((new defaultSettings).readFromSocket (ascii "GET / HTTP/1.1\r\n")).1
    let headers : List LogicalHeader :=
      [⟨ascii "X: a\r", [], by decide, by decide, by simp, by simp⟩,
        ⟨ascii "X: b\r", [], by decide, by decide, by simp, by simp⟩]
    ∃ r', ReadsLines r (headers.flatMap LogicalHeader.lines) r' ∧ JoinedOnce headers r' := by
  intro r headers
  obtain ⟨hempty, hbuffer, hs, hat⟩ := firstLine_read
  obtain ⟨r', hrun⟩ := readsLines_of_fit hat hs
      (by decide : ∀ x ∈ headers.flatMap LogicalHeader.lines, LF ∉ x)
    (by decide) (by decide)
  exact ⟨r', hrun, (joinedOnce_iff hempty hbuffer hrun).mpr (by simp [headers])⟩

/-- A folded header is seen twice, the first time without its second line. -/
theorem partial_value_visible :
    let r := ((new defaultSettings).readFromSocket (ascii "GET / HTTP/1.1\r\n")).1
    let h : LogicalHeader :=
      ⟨ascii "X: a\r", [ascii " b\r"], by decide, by decide, by decide, by decide⟩
    ∃ r', ReadsLines r h.lines r' ∧ r'.getHeaders (ascii "X") = [ascii "a b", ascii "a"] ∧
      ¬ JoinedOnce [h] r' := by
  intro r h
  obtain ⟨hempty, hbuffer, hs, hat⟩ := firstLine_read
  obtain ⟨r', hrun⟩ := readsLines_of_fit hat hs (by decide : ∀ x ∈ h.lines, LF ∉ x) (by decide)
    (by decide)
  have hentries : r'.headers.entries = h.entries.reverse := by
    have hlines : [h].flatMap LogicalHeader.lines = h.lines := by simp
    rw [readsLines_entries hempty hbuffer (hlines ▸ hrun : ReadsLines r ([h].flatMap _) r'),
      List.flatMap_singleton]
  refine ⟨r', hrun, ?_, fun hjoined => ?_⟩
  · rw [getHeaders, QMultiMap.values, hentries]
    decide
  · have hlen := hjoined.getHeaderMap.length_eq
    rw [getHeaderMap, hentries] at hlen
    exact absurd hlen (by decide)

end HttpRequest

end QtWebApp
