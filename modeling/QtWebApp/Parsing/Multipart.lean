import QtWebApp.HttpServer.HttpRequest

/-!
# QtWebApp.Parsing.Multipart

Multipart bodies.

`parseMultiPartFile` reads the body line by line, long lines in blocks: it collects the names
in the header lines of a part, then the lines of its data, always two bytes too many, until
a line starts with the boundary. What it makes of the standard encoding of a list of parts
(`encode`) is known for all parts (`parseMultiPartFile_encode`), and it is what was sent
except for one thing: the search for ` filename="` can hit the name of the part
(`roundTrips_iff`).

Most of the work is about lines. A line of the content may be longer than the block that is read at
once, and then its pieces must not look like a boundary, either; the lines of an encoding are found
again by `linesOf`, which reads a file as the loop of the source does.
-/

namespace QtWebApp

open Bytes

namespace HttpRequest

/-! ### Quoted values

The search for a key is a search in the whole line, so it may find the key in a place where it is
not one. -/

/-- The quotation mark. -/
abbrev QUOTE : UInt8 := 34

/-- `quotedValue` without positions. -/
theorem quotedValue_eq (line key old : Bytes) :
    quotedValue line key old =
      match Search.find key line with
      | none => old
      | some k =>
          match Search.find [QUOTE] (line.drop (k + key.length)) with
          | none => old
          | some i => (line.drop (k + key.length)).take i := by
  have hquote : ascii "\"" = [QUOTE] := by decide
  unfold quotedValue
  simp only [hquote, indexOf, Int.toNat_zero, List.drop_zero, Int.natCast_zero, Int.zero_add]
  cases hfind : Search.find key line with
  | none =>
      rw [if_neg fun h => absurd h.1 (by decide)]
  | some k =>
      have hpos : ((k : Int) + (key.length : Int)).toNat = k + key.length := by omega
      simp only [hpos]
      cases hstop : Search.find [QUOTE] (line.drop (k + key.length)) with
      | none =>
          dsimp only
          rw [if_neg (by omega)]
      | some i =>
          have hlen : ((((k + key.length : Nat) : Int) + (i : Int)) - (k : Int) -
              (key.length : Int)).toNat =
              i := by omega
          dsimp only
          rw [if_pos ⟨by omega, by omega⟩, midLen, hpos, hlen]

/-- The value behind the next quotation mark. -/
theorem quotedValue_found {q x value y old : Bytes} (hq : QUOTE ∉ q) (hx : QUOTE ∉ x)
    (hend : q <:+ x) (hv : QUOTE ∉ value) :
    quotedValue (x ++ QUOTE :: (value ++ QUOTE :: y)) (q ++ [QUOTE]) old = value := by
  have hle := hend.length_le
  have hdrop : (x ++ QUOTE :: (value ++ QUOTE :: y)).drop
      (x.length - q.length + (q ++ [QUOTE]).length) =
      value ++ QUOTE :: y := by
    have hpos : x.length - q.length + (q ++ [QUOTE]).length = x.length + 1 := by
      rw [List.length_append, List.length_singleton]
      omega
    rw [hpos, List.drop_append]
    simp
  rw [quotedValue_eq, Search.find_delimited hq hx, if_pos hend]
  dsimp only
  rw [hdrop, Search.find_singleton hv]
  dsimp only
  rw [List.take_left]

/-- What stands before the next quotation mark is no concern when the key is not there. -/
theorem quotedValue_skip {q x y old : Bytes} (hq : QUOTE ∉ q) (hx : QUOTE ∉ x) (hend : ¬ q <:+ x) :
    quotedValue (x ++ QUOTE :: y) (q ++ [QUOTE]) old = quotedValue y (q ++ [QUOTE]) old := by
  rw [quotedValue_eq, quotedValue_eq, Search.find_delimited hq hx, if_neg hend]
  cases Search.find (q ++ [QUOTE]) y with
  | none => rfl
  | some k =>
      have hdrop : (x ++ QUOTE :: y).drop (k + (x.length + 1) + (q ++ [QUOTE]).length) =
          y.drop (k + (q ++ [QUOTE]).length) := by
        have hpos : k + (x.length + 1) + (q ++ [QUOTE]).length =
            (x ++ [QUOTE]).length + (k + (q ++ [QUOTE]).length) := by
          simp only [List.length_append, List.length_singleton]
          omega
        have hsplit : x ++ QUOTE :: y = (x ++ [QUOTE]) ++ y := by simp
        rw [hpos, hsplit, List.drop_append, List.drop_eq_nil_of_le (by omega), List.nil_append,
          Nat.add_sub_cancel_left]
      simp only [Option.map_some]
      rw [hdrop]

/-! ### The parts that are sent

What a client may send. A name has no quotation mark, a line fits into a block, and the content does
not have the boundary in it. -/

/-- A part of a form: a field, or a file when there is a file name. -/
structure Part where
  name : Bytes
  filename : Option Bytes
  /-- Header lines after the `Content-Disposition`. -/
  headers : List Bytes
  content : Bytes
  deriving DecidableEq, Repr

namespace Part

/-- The `Content-Disposition` line of a part, cut at its quotation marks. -/
def disposition (p : Part) : Bytes :=
  ascii "Content-Disposition: form-data; name=" ++ QUOTE :: (p.name ++ QUOTE ::
    match p.filename with
    | none => []
    | some f => ascii "; filename=" ++ QUOTE :: (f ++ [QUOTE]))

/-- A part behind its boundary line: header lines, blank line, content. -/
def body (p : Part) : Bytes :=
  (p.disposition :: p.headers).flatMap (· ++ CRLF) ++ CRLF ++ p.content ++ CRLF

/-- A text for a name: not empty, without quotation marks and control characters. -/
def IsName (b : Bytes) : Prop := b ≠ [] ∧ ∀ c ∈ b, c ≠ QUOTE ∧ 32 ≤ c ∧ c ≠ 127

/-- A line, with its end, is read in one piece. -/
def Fits (l : Bytes) : Prop := LF ∉ l ∧ l.length + 2 ≤ 65536

instance (b : Bytes) : Decidable (IsName b) := by unfold IsName; infer_instance
instance (l : Bytes) : Decidable (Fits l) := by unfold Fits; infer_instance

/-- The value of the parameter that a part should become. -/
def value (p : Part) : Bytes := p.filename.getD p.content

/-- A part that can be sent with a boundary. -/
structure Valid (boundary : Bytes) (p : Part) : Prop where
  name : IsName p.name
  filename : ∀ f ∈ p.filename, IsName f
  disposition : p.disposition.length + 2 ≤ 65536
  headers : ∀ l ∈ p.headers, Fits l ∧ trimmed l ≠ [] ∧
    ¬ ascii "Content-Disposition:" <+: trimmed l
  content : ¬ ascii "--" ++ boundary <:+: p.content

instance (boundary : Bytes) (p : Part) : Decidable (p.Valid boundary) :=
  decidable_of_iff
    (IsName p.name ∧ (∀ f ∈ p.filename, IsName f) ∧ p.disposition.length + 2 ≤ 65536 ∧
      (∀ l ∈ p.headers, Fits l ∧ trimmed l ≠ [] ∧ ¬ ascii "Content-Disposition:" <+: trimmed l) ∧
      ¬ ascii "--" ++ boundary <:+: p.content)
    ⟨fun h => ⟨h.1, h.2.1, h.2.2.1, h.2.2.2.1, h.2.2.2.2⟩, fun h => ⟨h.1, h.2, h.3, h.4, h.5⟩⟩

end Part

/-- A boundary. -/
structure IsBoundary (boundary : Bytes) : Prop where
  nonempty : boundary ≠ []
  noCR : CR ∉ boundary
  noLF : LF ∉ boundary
  notDashes : ∃ c ∈ boundary, c ≠ 45
  fits : boundary.length + 6 ≤ 65536

instance (boundary : Bytes) : Decidable (IsBoundary boundary) :=
  decidable_of_iff
    (boundary ≠ [] ∧ CR ∉ boundary ∧ LF ∉ boundary ∧ (∃ c ∈ boundary, c ≠ 45) ∧
      boundary.length + 6 ≤ 65536)
    ⟨fun h => ⟨h.1, h.2.1, h.2.2.1, h.2.2.2.1, h.2.2.2.2⟩, fun h => ⟨h.1, h.2, h.3, h.4, h.5⟩⟩

/-- The line that separates parts. -/
def boundaryLine (boundary : Bytes) : Bytes := ascii "--" ++ boundary

/-- The standard encoding of a list of parts. -/
def encode (boundary : Bytes) (parts : List Part) : Bytes :=
  parts.flatMap (fun p => boundaryLine boundary ++ CRLF ++ p.body) ++
    (boundaryLine boundary ++ ascii "--" ++ CRLF)

/-! ### The names of a part

Both names are searched in the `Content-Disposition` line. The key of the name is found where it
should be; the key of the file name may be found too early. -/

/-- The file name that is read: when the name of the part ends with ` filename=`, its closing
quotation mark completes the search key, and the value is what follows up to the next one. -/
def Part.readFilename (p : Part) : Option Bytes :=
  p.filename.map fun f => if ascii " filename=" <:+ p.name then ascii "; filename=" else f

theorem Part.IsName.noQuote {b : Bytes} (h : Part.IsName b) : QUOTE ∉ b := fun hmem =>
  (h.2 QUOTE hmem).1 rfl

theorem Part.IsName.noLF {b : Bytes} (h : Part.IsName b) : LF ∉ b := fun hmem =>
  absurd (h.2 LF hmem).2.1 (by decide)

/-- The two keys that are searched for. -/
theorem keys_quote : ascii " name=\"" = ascii " name=" ++ [QUOTE] ∧
    ascii " filename=\"" = ascii " filename=" ++ [QUOTE] := by decide

/-- The name of a part is found. -/
theorem quotedValue_name {boundary : Bytes} {p : Part} (h : p.Valid boundary) :
    quotedValue p.disposition (ascii " name=\"") [] = p.name := by
  rw [keys_quote.1, Part.disposition]
  exact quotedValue_found (by decide) (by decide) (by decide) h.name.noQuote

/-- The file name that is found. -/
theorem quotedValue_filename {boundary : Bytes} {p : Part} (h : p.Valid boundary) :
    quotedValue p.disposition (ascii " filename=\"") [] = p.readFilename.getD [] := by
  have hq : QUOTE ∉ ascii " filename=" := by decide
  rw [keys_quote.2, Part.disposition, Part.readFilename,
    quotedValue_skip hq (by decide) (by decide)]
  cases hf : p.filename with
  | none =>
      -- a field: at most the name hits, and then no quotation mark follows
      by_cases hend : ascii " filename=" <:+ p.name
      · have hle := hend.length_le
        rw [quotedValue_eq, Search.find_delimited hq h.name.noQuote, if_pos hend]
        have hdrop : (p.name ++ [QUOTE]).drop (p.name.length - (ascii " filename=").length +
            (ascii " filename=" ++ [QUOTE]).length) = [] := by
          refine List.drop_eq_nil_of_le ?_
          simp only [List.length_append, List.length_singleton]
          omega
        dsimp only
        rw [hdrop]
        rfl
      · rw [quotedValue_skip hq h.name.noQuote hend]
        rfl
  | some f =>
      have hfile := h.filename f hf
      by_cases hend : ascii " filename=" <:+ p.name
      · have hvalue : quotedValue
            (p.name ++ QUOTE :: (ascii "; filename=" ++ QUOTE :: (f ++ [QUOTE])))
            (ascii " filename=" ++ [QUOTE]) [] = ascii "; filename=" :=
          quotedValue_found hq h.name.noQuote hend (by decide)
        simp only [Option.map_some, hend, if_true, Option.getD_some]
        exact hvalue
      · rw [quotedValue_skip hq h.name.noQuote hend]
        simp only [Option.map_some, hend, if_false, Option.getD_some]
        exact quotedValue_found hq (by decide) (by decide) hfile.noQuote

/-! ### The lines of the file

A text is cut at its line feeds, and a long line at every block. -/

/-- All lines of a file. -/
def linesOf (file : Bytes) : List Bytes := fileLines file.length file

theorem fileLines_fuel {n m : Nat} {file : Bytes} (hn : file.length ≤ n) (hm : file.length ≤ m) :
    fileLines n file = fileLines m file := by
  induction n generalizing m file with
  | zero =>
      obtain rfl : file = [] := List.length_eq_zero_iff.mp (by omega)
      cases m <;> rfl
  | succ n ih =>
      cases file with
      | nil => cases m <;> rfl
      | cons c cs =>
          obtain ⟨m, rfl⟩ : ∃ k, m = k + 1 := ⟨m - 1, by simp at hm; omega⟩
          have hsplit := congrArg List.length (lineUpTo_append 65536 (c :: cs))
          have hne := List.length_pos_iff.mpr
              (lineUpTo_ne_nil (n := 65536) (List.cons_ne_nil c cs) (by omega))
          rw [List.length_append] at hsplit
          rw [fileLines, fileLines, ih (m := m) (by omega) (by omega)]

/-- The lines of a file: the first one and those of the rest. -/
theorem linesOf_read {file : Bytes} (hf : file ≠ []) :
    linesOf file = (lineUpTo 65536 file).1 :: linesOf (lineUpTo 65536 file).2 := by
  obtain ⟨c, cs, rfl⟩ := List.exists_cons_of_ne_nil hf
  have hsplit := congrArg List.length (lineUpTo_append 65536 (c :: cs))
  have hne := List.length_pos_iff.mpr
      (lineUpTo_ne_nil (n := 65536) (List.cons_ne_nil c cs) (by omega))
  rw [List.length_append, List.length_cons] at hsplit
  have hfuel := fileLines_fuel (n := cs.length)
      (show (lineUpTo 65536 (c :: cs)).2.length ≤ _ by omega)
    (Nat.le_refl _)
  rw [linesOf, List.length_cons, fileLines, linesOf, hfuel]

/-- A line that fits is a line of the file. -/
theorem linesOf_line {l : Bytes} (hl : Part.Fits l) (rest : Bytes) :
    linesOf (l ++ CRLF ++ rest) = (l ++ CRLF) :: linesOf rest := by
  have hsplit : l ++ CRLF ++ rest = (l ++ [CR]) ++ LF :: rest := by simp
  have hlf : LF ∉ l ++ [CR] := by
    rw [List.mem_append, not_or]
    exact ⟨hl.1, by decide⟩
  have hread : lineUpTo 65536 (l ++ [CR] ++ LF :: rest) = (l ++ [CR] ++ [LF], rest) := by
    refine lineUpTo_line hlf ?_
    have hfits := hl.2
    rw [List.length_append, List.length_singleton]
    omega
  rw [linesOf_read (by simp), hsplit, hread]
  simp

/-- A text that ends with a line feed comes in pieces, none of which reaches beyond it. -/
theorem linesOf_text (n : Nat) (x rest : Bytes) (hn : x.length < n) :
    ∃ pieces, linesOf (x ++ LF :: rest) = pieces ++ linesOf rest ∧ pieces.flatten = x ++ [LF] ∧
      pieces ≠ [] ∧ ∀ d ∈ pieces, d <:+: x ++ [LF] := by
  induction n generalizing x with
  | zero => omega
  | succ n ih =>
      have hstop := lineUpTo_stop 65536 x rest
      have hparts := lineUpTo_append 65536 (x ++ [LF])
      have hfirst : (lineUpTo 65536 (x ++ [LF])).1 ≠ [] := lineUpTo_ne_nil (by simp) (by omega)
      rw [linesOf_read (by simp), hstop]
      generalize (lineUpTo 65536 (x ++ [LF])).1 = d at hparts hfirst ⊢
      generalize (lineUpTo 65536 (x ++ [LF])).2 = y at hparts ⊢
      rcases List.eq_nil_or_concat y with rfl | ⟨z, c, rfl⟩
      · refine ⟨[d], rfl, by simpa using hparts, by simp, fun d' hd' => ?_⟩
        rw [List.mem_singleton.mp hd', ← hparts, List.append_nil]
      · -- what is left still ends with the line feed
        obtain ⟨hx, hc⟩ : d ++ z = x ∧ c = LF := by
          rw [List.concat_eq_append, ← List.append_assoc] at hparts
          have := List.append_inj' hparts rfl
          exact ⟨this.1, by simpa using this.2⟩
        subst hc
        have hlen : z.length < n := by
          have hpos := List.length_pos_iff.mpr hfirst
          rw [← hx, List.length_append] at hn
          omega
        obtain ⟨pieces, hlines, hflat, -, hinside⟩ := ih z hlen
        refine ⟨d :: pieces, ?_, ?_, by simp, fun d' hd' => ?_⟩
        · dsimp only
          rw [List.concat_eq_append, List.append_assoc, List.singleton_append, hlines]
          rfl
        · rw [List.flatten_cons, hflat, ← hx, List.append_assoc]
        · rw [← hx, List.append_assoc]
          rcases List.mem_cons.mp hd' with rfl | hmem
          · exact (List.prefix_append _ _).isInfix
          · exact (hinside d' hmem).trans (List.suffix_append _ _).isInfix

/-! ### The headers of a part

The loop over the header lines ends at the blank one. -/

/-- The names that are read for a part. -/
def Part.names (p : Part) : PartNames := ⟨p.name, p.readFilename.getD []⟩

theorem disposition_fits {boundary : Bytes} {p : Part} (h : p.Valid boundary) :
    Part.Fits p.disposition := by
  refine ⟨?_, h.disposition⟩
  have hname := h.name.noLF
  have hfile : ∀ f, p.filename = some f → LF ∉ f := fun f hf => (h.filename f hf).noLF
  unfold Part.disposition
  cases hf : p.filename with
  | none =>
      simp only [List.mem_append, List.mem_cons, List.not_mem_nil, not_or]
      exact ⟨by decide, by decide, hname, by decide, not_false⟩
  | some f =>
      simp only [List.mem_append, List.mem_cons, List.not_mem_nil, not_or]
      exact ⟨by decide, by decide, hname, by decide, by decide, by decide, hfile f hf, by decide,
        not_false⟩

theorem trimmed_disposition (p : Part) : trimmed (p.disposition ++ CRLF) = p.disposition := by
  rw [trimmed_append_space (by decide)]
  refine trimmed_eq_self ⟨?_, ?_⟩
  · intro c hc
    have hfirst : p.disposition.head? = some 67 := rfl
    rw [hfirst] at hc
    obtain rfl := Option.some.inj hc
    decide
  · intro c hc
    have hend : ∃ t, p.disposition = t ++ [QUOTE] := by
      unfold Part.disposition
      cases p.filename with
      | none => exact ⟨ascii "Content-Disposition: form-data; name=" ++ QUOTE :: p.name, by simp⟩
      | some f =>
          exact ⟨ascii "Content-Disposition: form-data; name=" ++ QUOTE :: (p.name ++ QUOTE ::
            (ascii "; filename=" ++ QUOTE :: f)), by simp⟩
    obtain ⟨t, ht⟩ := hend
    rw [ht, List.getLast?_concat] at hc
    obtain rfl := Option.some.inj hc
    decide

/-- The `Content-Disposition` line gives the names. -/
theorem disposition_names {boundary : Bytes} {p : Part} (h : p.Valid boundary) :
    disposition p.disposition ⟨[], []⟩ = p.names := by
  have hform : p.disposition.containsText (ascii "form-data") = true := by
    refine containsText_iff.mpr ?_
    have hin : ascii "form-data" <:+: ascii "Content-Disposition: form-data; name=" := by decide
    exact hin.trans (List.prefix_append _ _).isInfix
  rw [HttpRequest.disposition, if_pos hform, quotedValue_name h, quotedValue_filename h]
  rfl

/-- A line that says nothing about the part is passed over. -/
theorem readPartHeaders_skip {l : Bytes} (hne : trimmed l ≠ [])
    (hno : ¬ ascii "Content-Disposition:" <+: trimmed l) (ls : List Bytes) (p : PartNames) :
    readPartHeaders ((l ++ CRLF) :: ls) p = readPartHeaders ls p := by
  have htrim : trimmed (l ++ CRLF) = trimmed l := trimmed_append_space (by decide)
  have hstart : ¬ (trimmed l).startsWith (ascii "Content-Disposition:") = true :=
    fun hs => hno (startsWith_iff.mp hs)
  simp only [readPartHeaders, htrim, hstart, hne, Bool.false_eq_true, if_false]

/-- The header lines of a part change neither name. -/
theorem readPartHeaders_headers {boundary : Bytes} {p : Part} (h : p.Valid boundary) {rest : Bytes}
    (ls : List Bytes) (hls : ∀ l ∈ ls, l ∈ p.headers) (names : PartNames) :
    readPartHeaders (linesOf (ls.flatMap (· ++ CRLF) ++ (CRLF ++ rest))) names =
      (names, linesOf rest) := by
  induction ls with
  | nil =>
      have hblank := linesOf_line (l := []) ⟨by simp, by simp⟩ rest
      have htrim : trimmed CRLF = [] := by decide
      have hstart : ¬ startsWith ([] : Bytes) (ascii "Content-Disposition:") = true := by decide
      rw [List.nil_append] at hblank
      rw [List.flatMap_nil, List.nil_append, hblank]
      simp only [readPartHeaders, htrim, hstart, Bool.false_eq_true, if_true, if_false]
  | cons l ls ih =>
      obtain ⟨hfits, hne, hno⟩ := h.headers l (hls l List.mem_cons_self)
      rw [List.flatMap_cons, List.append_assoc, linesOf_line hfits, readPartHeaders_skip hne hno]
      exact ih fun l' hl' => hls l' (List.mem_cons_of_mem l hl')

/-- **The headers of a part** give its names and end at the blank line. -/
theorem readPartHeaders_part {boundary : Bytes} {p : Part} (h : p.Valid boundary) (rest : Bytes) :
    readPartHeaders (linesOf (p.body ++ rest)) ⟨[], []⟩ =
      (p.names, linesOf (p.content ++ CRLF ++ rest)) := by
  have hbody : p.body ++ rest = p.disposition ++ CRLF ++
      (p.headers.flatMap (· ++ CRLF) ++ (CRLF ++ (p.content ++ CRLF ++ rest))) := by
    simp [Part.body, List.append_assoc]
  have hstart : p.disposition.startsWith (ascii "Content-Disposition:") = true := by
    refine startsWith_iff.mpr ?_
    have hprefix : ascii "Content-Disposition:" <+:
        ascii "Content-Disposition: form-data; name=" := by
      decide
    exact hprefix.trans (List.prefix_append _ _)
  rw [hbody, linesOf_line (disposition_fits h)]
  simp only [readPartHeaders, trimmed_disposition, hstart, if_true, disposition_names h]
  exact readPartHeaders_headers h p.headers (fun _ hl => hl) p.names

/-! ### The data of a part

The data ends where a line starts with the boundary. Two bytes are cut off then: the line end in
front of the boundary line is not part of the data. -/

/-- Lines of a field are collected. -/
theorem readPartData_field {p : PartNames} (hp : p.fileName = [] ∧ p.fieldName ≠ [])
    (pieces : List Bytes) (ls : List Bytes) (fieldValue : Bytes) (uploadedFile : Option Nat)
    (r : HttpRequest) (hno : ∀ d ∈ pieces, ¬ boundaryLine r.boundary <+: d) :
    ∃ size, readPartData p (pieces ++ ls) fieldValue uploadedFile r =
      readPartData p ls (fieldValue ++ pieces.flatten) uploadedFile
        { r with currentSize := size } := by
  induction pieces generalizing fieldValue r with
  | nil => exact ⟨r.currentSize, by simp⟩
  | cons d pieces ih =>
      have hstart : ¬ d.startsWith (ascii "--" ++ r.boundary) = true := fun hs =>
        hno d List.mem_cons_self (startsWith_iff.mp hs)
      obtain ⟨size, hrest⟩ := ih (fieldValue ++ d)
        { r with currentSize := int32 (r.currentSize + d.length) }
        fun d' hd' => hno d' (List.mem_cons_of_mem d hd')
      refine ⟨size, ?_⟩
      rw [List.cons_append, readPartData, if_neg hstart, if_pos hp, hrest, List.flatten_cons,
        List.append_assoc]

theorem modify_last (files : List Bytes) (file : Bytes) (f : Bytes → Bytes) :
    (files ++ [file]).modify files.length f = files ++ [f file] := by
  induction files with
  | nil => rfl
  | cons x files ih =>
      rw [List.cons_append, List.length_cons, List.modify_succ_cons, ih, List.cons_append]

/-- Lines of a file are appended to it. -/
theorem readPartData_file {p : PartNames} (hp : p.fileName ≠ [] ∧ p.fieldName ≠ [])
    (pieces : List Bytes) (ls : List Bytes) (i : Nat) (r : HttpRequest)
    (hno : ∀ d ∈ pieces, ¬ boundaryLine r.boundary <+: d) (files : List Bytes) (file : Bytes)
    (hfiles : r.tempFiles = files ++ [file]) (hi : i = files.length) :
    readPartData p (pieces ++ ls) [] (some i) r =
      readPartData p ls [] (some i) { r with tempFiles := files ++ [file ++ pieces.flatten] } := by
  induction pieces generalizing r file with
  | nil =>
      rw [List.nil_append, List.flatten_nil, List.append_nil, ← hfiles]
  | cons d pieces ih =>
      have hstart : ¬ d.startsWith (ascii "--" ++ r.boundary) = true := fun hs =>
        hno d List.mem_cons_self (startsWith_iff.mp hs)
      have hfield : ¬ (p.fileName = [] ∧ p.fieldName ≠ []) := fun h => hp.1 h.1
      have hmodify : r.tempFiles.modify i (· ++ d) = files ++ [file ++ d] := by
        rw [hfiles, hi, modify_last]
      have hrest := ih { r with tempFiles := files ++ [file ++ d] }
        (fun d' hd' => hno d' (List.mem_cons_of_mem d hd')) (file ++ d) rfl
      rw [List.append_assoc] at hrest
      rw [List.cons_append, readPartData, if_neg hstart, if_neg hfield, if_pos hp,
        List.flatten_cons]
      simp only [writeUpload, hmodify]
      exact hrest

/-- The two bytes too many. -/
theorem dropTwo_text (b : Bytes) : dropTwo (b ++ CRLF) = b := by
  unfold dropTwo
  rw [if_neg (by simp), List.length_append]
  simp

/-- The value of the parameter that a part becomes. -/
def Part.readValue (p : Part) : Bytes := p.readFilename.getD p.content

/-- A part has been added to a request. -/
structure Added (r : HttpRequest) (p : Part) (r' : HttpRequest) : Prop where
  boundary : r'.boundary = r.boundary
  parameters : r'.parameters = r.parameters.insert p.name p.readValue
  field : p.filename = none → r'.uploadedFiles = r.uploadedFiles ∧ r'.tempFiles = r.tempFiles
  file : ∀ f, p.filename = some f →
    r'.uploadedFiles = r.uploadedFiles.insert p.name (some r.tempFiles.length) ∧
      r'.tempFiles = r.tempFiles ++ [p.content]

/-- No piece of the content starts like a boundary line. -/
theorem not_boundary_piece {boundary : Bytes} (hb : IsBoundary boundary) {p : Part}
    (h : p.Valid boundary) {d : Bytes} (hd : d <:+: p.content ++ [CR] ++ [LF]) :
    ¬ boundaryLine boundary <+: d := by
  intro hprefix
  have hne : boundaryLine boundary ≠ [] := by simp [boundaryLine, ascii]
  have hcr : CR ∉ boundaryLine boundary := by
    rw [boundaryLine, List.mem_append, not_or]
    exact ⟨by decide, hb.noCR⟩
  have hlf : LF ∉ boundaryLine boundary := by
    rw [boundaryLine, List.mem_append, not_or]
    exact ⟨by decide, hb.noLF⟩
  have hin := hprefix.isInfix.trans hd
  exact h.content (infix_of_infix_concat hcr hne (infix_of_infix_concat hlf hne hin))

theorem Part.readFilename_some {boundary : Bytes} {p : Part} (h : p.Valid boundary) {f : Bytes}
    (hf : p.filename = some f) : ∃ f', p.readFilename = some f' ∧ f' ≠ [] := by
  unfold Part.readFilename
  rw [hf]
  by_cases hend : ascii " filename=" <:+ p.name
  · exact ⟨ascii "; filename=", congrArg some (if_pos hend), by decide⟩
  · exact ⟨f, congrArg some (if_neg hend), (h.filename f hf).1⟩

/-- The boundary line ends the part. -/
theorem readPartData_end (names : PartNames) (boundary tail : Bytes) (lines : List Bytes)
    (fieldValue : Bytes) (uploadedFile : Option Nat) {s : HttpRequest}
    (hs : s.boundary = boundary) :
    readPartData names ((boundaryLine boundary ++ tail ++ CRLF) :: lines) fieldValue
      uploadedFile s =
      (s.finishPart names fieldValue uploadedFile,
        (boundaryLine boundary ++ tail ++ CRLF).containsText (boundary ++ ascii "--"), lines) := by
  have hstart : (boundaryLine boundary ++ tail ++ CRLF).startsWith (ascii "--" ++ s.boundary) =
      true := by
    rw [hs]
    refine startsWith_iff.mpr ?_
    rw [List.append_assoc]
    exact List.prefix_append _ _
  rw [readPartData, if_pos hstart, hs]

section PartData

variable {boundary : Bytes} {p : Part} {r : HttpRequest} (hr : r.boundary = boundary)
  {pieces : List Bytes} (hcontent : pieces.flatten = p.content ++ CRLF)
  (hno : ∀ d ∈ pieces, ¬ boundaryLine r.boundary <+: d) (hname : p.names.fieldName ≠ [])
  (tail : Bytes) (lines : List Bytes)

include hr hcontent hno hname

/-- A part without file name becomes a parameter. -/
theorem readPartData_parameter (hf : p.filename = none) :
    ∃ r', readPartData p.names (pieces ++ (boundaryLine boundary ++ tail ++ CRLF) :: lines)
      [] none r =
        (r', (boundaryLine boundary ++ tail ++ CRLF).containsText (boundary ++ ascii "--"), lines) ∧
      Added r p r' := by
  have hread : p.readFilename = none := by rw [Part.readFilename, hf]; rfl
  have hfield : p.names.fileName = [] ∧ p.names.fieldName ≠ [] := by
    refine ⟨?_, hname⟩
    rw [Part.names, hread]
    rfl
  obtain ⟨size, hdata⟩ := readPartData_field hfield pieces
    ((boundaryLine boundary ++ tail ++ CRLF) :: lines) [] none r hno
  have hr' : ({ r with currentSize := size } : HttpRequest).boundary = boundary := hr
  rw [hdata, readPartData_end _ _ _ _ _ _ hr', List.nil_append, hcontent]
  refine ⟨_, rfl, ?_⟩
  unfold finishPart
  rw [if_pos hfield, dropTwo_text]
  refine ⟨rfl, ?_, fun _ => ⟨rfl, rfl⟩, fun f hf' => ?_⟩
  · rw [Part.readValue, hread]
    rfl
  · rw [hf] at hf'
    cases hf'

/-- A part with a file name becomes a file, which the first line of its data creates. -/
theorem readPartData_upload (hne : pieces ≠ []) {f f' : Bytes} (hf : p.filename = some f)
    (hread : p.readFilename = some f') (hf' : f' ≠ []) :
    ∃ r', readPartData p.names (pieces ++ (boundaryLine boundary ++ tail ++ CRLF) :: lines)
      [] none r =
        (r', (boundaryLine boundary ++ tail ++ CRLF).containsText (boundary ++ ascii "--"), lines) ∧
      Added r p r' := by
  have hfile : p.names.fileName ≠ [] ∧ p.names.fieldName ≠ [] := by
    refine ⟨?_, hname⟩
    rw [Part.names, hread]
    exact hf'
  have hfield : ¬ (p.names.fileName = [] ∧ p.names.fieldName ≠ []) := fun hx => hfile.1 hx.1
  obtain ⟨d, pieces, rfl⟩ := List.exists_cons_of_ne_nil hne
  obtain ⟨hnod, hno'⟩ := List.forall_mem_cons.mp hno
  have hstart : ¬ d.startsWith (ascii "--" ++ r.boundary) = true := fun hs =>
    hnod (startsWith_iff.mp hs)
  have hfirst := readPartData_file hfile pieces ((boundaryLine boundary ++ tail ++ CRLF) :: lines)
    r.tempFiles.length { r with tempFiles := r.tempFiles ++ [d] } hno' r.tempFiles d rfl rfl
  have hr' : ({ r with tempFiles := r.tempFiles ++ [p.content ++ CRLF] } : HttpRequest).boundary =
    boundary := hr
  rw [List.cons_append, readPartData, if_neg hstart, if_neg hfield, if_pos hfile]
  simp only [writeUpload]
  rw [List.flatten_cons] at hcontent
  rw [hcontent] at hfirst
  rw [hfirst, readPartData_end _ _ _ _ _ _ hr']
  refine ⟨_, rfl, ?_⟩
  have hmodify : (r.tempFiles ++ [p.content ++ CRLF]).modify r.tempFiles.length dropTwo =
      r.tempFiles ++ [p.content] := by
    rw [modify_last, dropTwo_text]
  unfold finishPart
  rw [if_neg hfield, if_pos hfile]
  refine ⟨rfl, ?_, fun hn => ?_, fun _ _ => ⟨rfl, hmodify⟩⟩
  · rw [Part.readValue, Part.names, hread]
    rfl
  · rw [hf] at hn
    cases hn

end PartData

/-- **The data of a part**: up to the next boundary line it becomes a parameter or a file. -/
theorem readPartData_part {boundary : Bytes} (hb : IsBoundary boundary) {p : Part}
    (h : p.Valid boundary) {r : HttpRequest} (hr : r.boundary = boundary) {tail : Bytes}
    (htail : Part.Fits (boundaryLine boundary ++ tail)) (rest : Bytes) :
    ∃ r', readPartData p.names (linesOf (p.content ++ CRLF ++
        (boundaryLine boundary ++ tail ++ CRLF ++ rest))) [] none r =
        (r', (boundaryLine boundary ++ tail ++ CRLF).containsText (boundary ++ ascii "--"),
          linesOf rest) ∧ Added r p r' := by
  obtain ⟨pieces, hlines, hflat, hne, hinside⟩ := linesOf_text _ (p.content ++ [CR])
    (boundaryLine boundary ++ tail ++ CRLF ++ rest) (Nat.lt_succ_self _)
  have hsplit : p.content ++ CRLF ++ (boundaryLine boundary ++ tail ++ CRLF ++ rest) =
      p.content ++ [CR] ++ LF :: (boundaryLine boundary ++ tail ++ CRLF ++ rest) := by simp
  have hcontent : pieces.flatten = p.content ++ CRLF := by rw [hflat]; simp
  have hno : ∀ d ∈ pieces, ¬ boundaryLine r.boundary <+: d := fun d hd =>
    hr.symm ▸ not_boundary_piece hb h (hinside d hd)
  have hname : p.names.fieldName ≠ [] := h.name.1
  rw [hsplit, hlines, linesOf_line htail]
  cases hf : p.filename with
  | none => exact readPartData_parameter hr hcontent hno hname tail (linesOf rest) hf
  | some f =>
      obtain ⟨f', hread, hf'⟩ := Part.readFilename_some h hf
      exact readPartData_upload hr hcontent hno hname tail (linesOf rest) hne hf hread hf'

/-! ### All parts

The parts follow one another, and the last boundary line ends the loop. It is the only one that ends
with two more dashes. -/

/-- A text that commutes with two dashes is made of dashes. -/
theorem dashes_of_commute (n : Nat) (b : Bytes) (hn : b.length ≤ n)
    (h : b ++ ascii "--" = ascii "--" ++ b) : ∀ c ∈ b, c = 45 := by
  have hdashes : ascii "--" = [45, 45] := by decide
  induction n using Nat.strongRecOn generalizing b with
  | _ n ih =>
      rw [hdashes] at h
      match b with
      | [] => simp
      | [a] =>
          simp only [List.cons_append, List.nil_append, List.cons.injEq] at h
          simp [h.1]
      | a :: a' :: b =>
          simp only [List.cons_append, List.nil_append, List.cons.injEq] at h
          obtain ⟨rfl, rfl, hrest⟩ := h
          rw [List.length_cons, List.length_cons] at hn
          have hb := ih b.length (by omega) b (Nat.le_refl _) (by rw [hdashes]; exact hrest)
          intro c hc
          rcases List.mem_cons.mp hc with rfl | hc
          · rfl
          · rcases List.mem_cons.mp hc with rfl | hc
            · rfl
            · exact hb c hc

/-- Only the last boundary line is taken for the last one. -/
theorem boundaryLine_last {boundary : Bytes} (hb : IsBoundary boundary) :
    (boundaryLine boundary ++ [] ++ CRLF).containsText (boundary ++ ascii "--") = false ∧
      (boundaryLine boundary ++ ascii "--" ++ CRLF).containsText (boundary ++ ascii "--") =
        true := by
  refine ⟨?_, ?_⟩
  · refine Bool.eq_false_iff.mpr fun hc => ?_
    have hin := containsText_iff.mp hc
    have hne : boundary ++ ascii "--" ≠ [] := by simp [ascii]
    have hcr : CR ∉ boundary ++ ascii "--" := by
      rw [List.mem_append, not_or]
      exact ⟨hb.noCR, by decide⟩
    have hlf : LF ∉ boundary ++ ascii "--" := by
      rw [List.mem_append, not_or]
      exact ⟨hb.noLF, by decide⟩
    have hsplit : boundaryLine boundary ++ [] ++ CRLF =
        boundaryLine boundary ++ [CR] ++ [LF] := by simp
    rw [hsplit] at hin
    have hwhole := infix_of_infix_concat hcr hne (infix_of_infix_concat hlf hne hin)
    have hlen : (boundary ++ ascii "--").length = (boundaryLine boundary).length := by
      simp only [boundaryLine, List.length_append]
      omega
    -- the two texts have the same length, so the boundary consists of dashes
    have heq := hwhole.eq_of_length hlen
    obtain ⟨c, hc, hdash⟩ := hb.notDashes
    exact hdash (dashes_of_commute _ boundary (Nat.le_refl _) heq c hc)
  · refine containsText_iff.mpr ⟨ascii "--", CRLF, ?_⟩
    simp [boundaryLine, List.append_assoc]

theorem boundaryLine_fits {boundary : Bytes} (hb : IsBoundary boundary) :
    Part.Fits (boundaryLine boundary ++ []) ∧ Part.Fits (boundaryLine boundary ++ ascii "--") := by
  have hfits := hb.fits
  have htwo : (ascii "--").length = 2 := by decide
  have hlf : LF ∉ ascii "--" := by decide
  refine ⟨⟨?_, ?_⟩, ⟨?_, ?_⟩⟩
  · simp [boundaryLine, hb.noLF, hlf]
  · simp only [boundaryLine, List.length_append, htwo, List.length_nil]
    omega
  · simp [boundaryLine, hb.noLF, hlf]
  · simp only [boundaryLine, List.length_append, htwo]
    omega

/-- The first boundary line is passed over as a header line. -/
theorem readPartHeaders_boundary {boundary : Bytes} (ls : List Bytes) (p : PartNames) :
    readPartHeaders ((boundaryLine boundary ++ CRLF) :: ls) p = readPartHeaders ls p := by
  have hcons : boundaryLine boundary = 45 :: (45 :: boundary) := by
    have hdashes : ascii "--" = [45, 45] := by decide
    rw [boundaryLine, hdashes]
    rfl
  have htrim := trimmed_cons (c := 45) (by decide) (45 :: boundary)
  refine readPartHeaders_skip ?_ ?_ ls p
  · rw [hcons, htrim]
    exact List.cons_ne_nil _ _
  · rw [hcons, htrim]
    intro hprefix
    have hhead : ascii "Content-Disposition:" =
        67 :: (ascii "Content-Disposition:").tail := by decide
    rw [hhead, List.cons_prefix_cons] at hprefix
    exact absurd hprefix.1 (by decide)

/-- The content of the last file part with a name. -/
def lastFile (name : Bytes) (parts : List Part) : Option Bytes :=
  ((parts.filter fun p => p.filename.isSome && p.name == name).getLast?).map Part.content

theorem lastFile_cons (name : Bytes) (p : Part) (parts : List Part) :
    lastFile name (p :: parts) =
      match lastFile name parts with
      | some content => some content
      | none => if p.filename.isSome && p.name == name then some p.content else none := by
  unfold lastFile
  rw [List.filter_cons]
  split
  · rw [List.getLast?_cons]
    cases (parts.filter fun p => p.filename.isSome && p.name == name).getLast? <;> rfl
  · cases (parts.filter fun p => p.filename.isSome && p.name == name).getLast? <;> rfl

/-- A list of parts has been added to a request. -/
structure AddedAll (r : HttpRequest) (parts : List Part) (r' : HttpRequest) : Prop where
  parameters : r'.parameters = parts.foldl (fun m p => m.insert p.name p.readValue) r.parameters
  files : r.tempFiles <+: r'.tempFiles
  uploads : ∀ name, match lastFile name parts with
    | some content => ∃ i, r'.uploadedFiles[name]? = some (some i) ∧ r'.tempFiles[i]? = some content
    | none => r'.uploadedFiles[name]? = r.uploadedFiles[name]?

theorem AddedAll.nil (r : HttpRequest) : AddedAll r [] r :=
  ⟨rfl, List.prefix_refl _, fun _ => rfl⟩

theorem AddedAll.cons {r r₁ r' : HttpRequest} {p : Part} {parts : List Part} (h : Added r p r₁)
    (hs : AddedAll r₁ parts r') : AddedAll r (p :: parts) r' := by
  refine ⟨?_, ?_, fun name => ?_⟩
  · rw [hs.parameters, h.parameters]
    rfl
  · refine List.IsPrefix.trans ?_ hs.files
    cases hf : p.filename with
    | none => rw [(h.field hf).2]
    | some f =>
        rw [(h.file f hf).2]
        exact List.prefix_append _ _
  · have hrest := hs.uploads name
    rw [lastFile_cons]
    cases hlast : lastFile name parts with
    | some content =>
        rw [hlast] at hrest
        exact hrest
    | none =>
        rw [hlast] at hrest
        dsimp only at hrest ⊢
        cases hf : p.filename with
        | none =>
            rw [(h.field hf).1] at hrest
            exact hrest
        | some f =>
            obtain ⟨huploads, hfiles⟩ := h.file f hf
            rw [huploads] at hrest
            by_cases hname : p.name = name
            · -- the file of this part is the last one of that name, and it stays as it is
              subst hname
              have hself : (r.uploadedFiles.insert p.name (some r.tempFiles.length))[p.name]? =
                  some (some r.tempFiles.length) := by grind
              simp only [Option.isSome_some, Bool.true_and, beq_self_eq_true, if_true]
              refine ⟨r.tempFiles.length, hrest.trans hself, ?_⟩
              have hget : r₁.tempFiles[r.tempFiles.length]? = some p.content := by
                rw [hfiles]
                simp
              obtain ⟨t, ht⟩ := hs.files
              have hlt : r.tempFiles.length < r₁.tempFiles.length := by
                rw [hfiles, List.length_append, List.length_singleton]
                omega
              rw [← ht, List.getElem?_append_left hlt, hget]
            · have hother : (r.uploadedFiles.insert p.name (some r.tempFiles.length))[name]? =
                  r.uploadedFiles[name]? := by grind
              simp only [Option.isSome_some, Bool.true_and, beq_eq_false_iff_ne.mpr hname,
                Bool.false_eq_true, if_false]
              exact hrest.trans hother

/-- An encoding begins with its first part. -/
theorem encode_cons (boundary : Bytes) (p : Part) (parts : List Part) :
    encode boundary (p :: parts) = boundaryLine boundary ++ CRLF ++
      (p.body ++ encode boundary parts) := by
  simp [encode, List.append_assoc]

/-- Every part has a line. -/
theorem linesOf_encode_length {boundary : Bytes} (hb : IsBoundary boundary) (parts : List Part) :
    parts.length < (linesOf (encode boundary parts)).length := by
  induction parts with
  | nil =>
      rw [linesOf_read (by simp [encode])]
      exact Nat.succ_pos _
  | cons p parts ih =>
      have hfit := (boundaryLine_fits hb).1
      rw [List.append_nil] at hfit
      have hbody : p.body ++ encode boundary parts =
          ((p.disposition :: p.headers).flatMap (· ++ CRLF) ++ CRLF ++ p.content ++ [CR]) ++
            LF :: encode boundary parts := by
        simp [Part.body, List.append_assoc]
      obtain ⟨pieces, hlines, -, -, -⟩ := linesOf_text _
        ((p.disposition :: p.headers).flatMap (· ++ CRLF) ++ CRLF ++ p.content ++ [CR])
        (encode boundary parts) (Nat.lt_succ_self _)
      rw [encode_cons, linesOf_line hfit, hbody, hlines, List.length_cons, List.length_cons,
        List.length_append]
      omega

/-- **The loop over the parts**: the induction is on the parts that follow. -/
theorem readParts_parts {boundary : Bytes} (hb : IsBoundary boundary) (parts : List Part) (p : Part)
    (hp : ∀ q ∈ p :: parts, q.Valid boundary) (ls : List Bytes) (r : HttpRequest)
    (hr : r.boundary = boundary)
    (hls : ∃ l ls', ls = l :: ls') (n : Nat) (hn : parts.length < n)
    (hread : readPartHeaders ls ⟨[], []⟩ =
      (p.names, linesOf (p.content ++ CRLF ++ encode boundary parts))) :
    AddedAll r (p :: parts) (readParts n ls r) := by
  induction parts generalizing p ls r n with
  | nil =>
      obtain ⟨m, rfl⟩ : ∃ m, n = m + 1 := ⟨n - 1, by omega⟩
      obtain ⟨l, ls', rfl⟩ := hls
      obtain ⟨r', hdata, hadded⟩ := readPartData_part hb (hp p List.mem_cons_self) hr
        (boundaryLine_fits hb).2 []
      rw [List.append_nil] at hdata
      have hend : encode boundary [] = boundaryLine boundary ++ ascii "--" ++
          CRLF := by simp [encode]
      rw [hend] at hread
      rw [readParts, hread]
      dsimp only
      rw [hdata, (boundaryLine_last hb).2]
      exact .cons hadded (.nil _)
  | cons q parts ih =>
      obtain ⟨m, rfl⟩ : ∃ m, n = m + 1 := ⟨n - 1, by omega⟩
      obtain ⟨l, ls', rfl⟩ := hls
      rw [List.length_cons] at hn
      obtain ⟨r', hdata, hadded⟩ := readPartData_part hb (hp p List.mem_cons_self) hr
        (boundaryLine_fits hb).1 (q.body ++ encode boundary parts)
      have hnext : encode boundary (q :: parts) =
          boundaryLine boundary ++ [] ++ CRLF ++ (q.body ++ encode boundary parts) := by
        rw [encode_cons, List.append_nil]
      rw [hnext] at hread
      rw [readParts, hread]
      dsimp only
      rw [hdata, (boundaryLine_last hb).1]
      have hq : q.Valid boundary := hp q (by simp)
      have hbody : q.body ++ encode boundary parts ≠ [] := by simp [Part.body]
      refine .cons hadded (ih q (fun q' hq' => hp q' (List.mem_cons_of_mem p hq')) _ r'
        (hadded.boundary.trans hr) ⟨_, _, linesOf_read hbody⟩ m (by omega)
        (readPartHeaders_part hq _))

/-- **What `parseMultiPartFile` makes of the encoding of a list of parts.** -/
theorem parseMultiPartFile_encode {boundary : Bytes} (hb : IsBoundary boundary) {parts : List Part}
    (hne : parts ≠ []) (hp : ∀ p ∈ parts, p.Valid boundary) {r : HttpRequest}
    (hr : r.boundary = boundary) (hfile : r.tempFile = some (encode boundary parts)) :
    AddedAll r parts r.parseMultiPartFile := by
  obtain ⟨p, parts, rfl⟩ := List.exists_cons_of_ne_nil hne
  have hfits : Part.Fits (boundaryLine boundary) := by
    have hfit := (boundaryLine_fits hb).1
    rwa [List.append_nil] at hfit
  have hlines : linesOf (encode boundary (p :: parts)) =
      (boundaryLine boundary ++ CRLF) :: linesOf (p.body ++ encode boundary parts) := by
    rw [encode_cons, linesOf_line hfits]
  have hcount := linesOf_encode_length hb (p :: parts)
  unfold parseMultiPartFile
  rw [hfile, Option.getD_some]
  exact readParts_parts hb parts p hp _ r hr ⟨_, _, hlines⟩ _ (Nat.lt_of_succ_lt hcount) (by
    show readPartHeaders (linesOf (encode boundary (p :: parts))) ⟨[], []⟩ = _
    rw [hlines, readPartHeaders_boundary]
    exact readPartHeaders_part (hp p List.mem_cons_self) _)

/-! ### The round trip

A part comes back as it was sent if its file name does. -/

/-- The parameters have received exactly the parts, in order, and each file part can be found with
exactly its content under its name, the last one of that name. -/
def RoundTrips (r : HttpRequest) (parts : List Part) : Prop :=
  r.parseMultiPartFile.parameters = parts.foldl (fun m p => m.insert p.name p.value) r.parameters ∧
    ∀ name, match lastFile name parts with
      | some content => ∃ i, r.parseMultiPartFile.uploadedFiles[name]? = some (some i) ∧
          r.parseMultiPartFile.tempFiles[i]? = some content
      | none => r.parseMultiPartFile.uploadedFiles[name]? = r.uploadedFiles[name]?

/-- The parameters of two lists are the same only if they agree one by one. -/
theorem foldl_insert_inj {f g : Part → Bytes} (parts : List Part) (m m' : QMultiMap)
    (hm : m.entries.length = m'.entries.length) :
    parts.foldl (fun m p => m.insert p.name (f p)) m =
      parts.foldl (fun m p => m.insert p.name (g p)) m' ↔
      m = m' ∧ ∀ p ∈ parts, f p = g p := by
  induction parts generalizing m m' with
  | nil => simp
  | cons p parts ih =>
      have hlen : (m.insert p.name (f p)).entries.length =
          (m'.insert p.name (g p)).entries.length := by
        simp [QMultiMap.insert, hm]
      have hhead : m.insert p.name (f p) = m'.insert p.name (g p) ↔ f p = g p ∧ m = m' := by
        simp only [QMultiMap.insert, QMultiMap.mk.injEq, List.cons.injEq, Prod.mk.injEq, true_and]
        rw [← QMultiMap.mk.injEq]
      rw [List.foldl_cons, List.foldl_cons, ih _ _ hlen, hhead]
      simp only [List.mem_cons, forall_eq_or_imp]
      tauto

/-- A file name is read back unless the name of the part hides it. -/
theorem Part.readValue_eq_iff (p : Part) :
    p.readValue = p.value ↔
      ∀ f ∈ p.filename, ascii " filename=" <:+ p.name → f = ascii "; filename=" := by
  unfold Part.readValue Part.value Part.readFilename
  cases hf : p.filename with
  | none => simp
  | some f =>
      by_cases hend : ascii " filename=" <:+ p.name
      · simp [hend, eq_comm]
      · simp [hend]

/-- **The multipart round trip** succeeds exactly when no file part has a name that ends with
` filename=`, the file name `; filename=` apart. -/
theorem roundTrips_iff {boundary : Bytes} (hb : IsBoundary boundary) {parts : List Part}
    (hne : parts ≠ []) (hp : ∀ p ∈ parts, p.Valid boundary) {r : HttpRequest}
    (hr : r.boundary = boundary) (hfile : r.tempFile = some (encode boundary parts)) :
    RoundTrips r parts ↔
      ∀ p ∈ parts, ∀ f ∈ p.filename, ascii " filename=" <:+ p.name → f = ascii "; filename=" := by
  have hadded := parseMultiPartFile_encode hb hne hp hr hfile
  have hparameters : r.parseMultiPartFile.parameters =
      parts.foldl (fun m p => m.insert p.name p.value) r.parameters ↔
        ∀ p ∈ parts, p.readValue = p.value := by
    rw [hadded.parameters, foldl_insert_inj parts _ _ rfl]
    exact ⟨fun h => h.2, fun h => ⟨rfl, h⟩⟩
  have hvalues : (∀ p ∈ parts, p.readValue = p.value) ↔
      ∀ p ∈ parts, ∀ f ∈ p.filename, ascii " filename=" <:+ p.name → f = ascii "; filename=" :=
    forall₂_congr fun p _ => p.readValue_eq_iff
  constructor
  · intro hround
    exact hvalues.mp (hparameters.mp hround.1)
  · intro hnames
    exact ⟨hparameters.mpr (hvalues.mpr hnames), hadded.uploads⟩

/-- A request that has received the encoding of some parts. -/
def receivedParts (boundary : Bytes) (parts : List Part) : HttpRequest :=
  { HttpRequest.new defaultSettings with
      boundary := boundary
      tempFile := some (encode boundary parts) }

/-- A field and a file. -/
def formParts : List Part :=
  [⟨ascii "title", none, [], ascii "a\r\nb\r\n"⟩,
    ⟨ascii "doc", some (ascii "a.txt"), [ascii "Content-Type: text/plain"], []⟩]

theorem xyz_isBoundary : IsBoundary (ascii "xyz") := by decide

theorem roundTrips_form : RoundTrips (receivedParts (ascii "xyz") formParts) formParts :=
  (roundTrips_iff xyz_isBoundary (by decide) (by decide +kernel) rfl rfl).mpr (by decide)

/-- A file in a field the name of which ends with ` filename=`. -/
def hiddenParts : List Part := [⟨ascii "doc filename=", some (ascii "a.txt"), [], []⟩]

/-- **The name of a part can hide its file name**: the file is filed under the name
`; filename=`. -/
theorem not_roundTrips_hidden : ¬ RoundTrips
    (receivedParts (ascii "xyz") hiddenParts) hiddenParts := by
  intro hround
  have hadded : AddedAll (receivedParts (ascii "xyz") hiddenParts) hiddenParts _ :=
    parseMultiPartFile_encode xyz_isBoundary (by decide) (by decide +kernel) rfl rfl
  have hsame := hadded.parameters.symm.trans hround.1
  revert hsame
  decide +kernel

end HttpRequest

end QtWebApp
