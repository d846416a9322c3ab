import QtWebApp.Base.Number

/-!
# QtWebApp.Base.Framing

How the receiver of an HTTP message finds its body.

A message is a start line and header lines, each ended by CRLF, an empty line and the body.
The header fields say where the body ends: a chunked body ends with its last chunk, a body
with a length after that many bytes, and any other one at the end of the connection
(`decode`). The receiver knows nothing of the sender; `chunk` and `block` are the two
things a sender writes that it reads back (`chunks_flatMap`, `headLines_block`).
-/

namespace QtWebApp

open Bytes

namespace Framing

/-! ### Lines

A line ends with CRLF, and nothing else ends it. The empty line ends the head. -/

/-- The text up to the first CRLF, and what follows that. -/
def splitLine : Bytes → Option (Bytes × Bytes)
  | [] => none
  | [_] => none
  | c :: d :: rest =>
      if c = CR ∧ d = LF then some ([], rest)
      else (splitLine (d :: rest)).map fun p => (c :: p.1, p.2)

/-- The lines up to an empty one, and what follows that. -/
def headLines : Nat → Bytes → Option (List Bytes × Bytes)
  | 0, _ => none
  | n + 1, b =>
      match splitLine b with
      | none => none
      | some ([], rest) => some ([], rest)
      | some (line, rest) => (headLines n rest).map fun p => (line :: p.1, p.2)

/-- A text that has no line end in it. -/
def OneLine (b : Bytes) : Prop := CR ∉ b ∧ LF ∉ b

instance (b : Bytes) : Decidable (OneLine b) := by unfold OneLine; infer_instance

@[simp] theorem oneLine_append {a b : Bytes} : OneLine (a ++ b) ↔ OneLine a ∧ OneLine b := by
  simp only [OneLine, List.mem_append, not_or]
  tauto

/-- A line is read back. -/
theorem splitLine_line {l : Bytes} (hl : CR ∉ l) (rest : Bytes) :
    splitLine (l ++ CRLF ++ rest) = some (l, rest) := by
  induction l with
  | nil => simp [splitLine]
  | cons c l ih =>
      have hc : c ≠ CR := fun he => hl (by simp [he])
      have hrest := ih fun hmem => hl (List.mem_cons_of_mem c hmem)
      obtain ⟨d, t, ht⟩ : ∃ d t, l ++ CRLF ++ rest = d :: t := by
        cases l with
        | nil => exact ⟨_, _, rfl⟩
        | cons d t => exact ⟨d, _, rfl⟩
      rw [ht] at hrest
      rw [List.cons_append, List.cons_append, ht, splitLine, if_neg fun h => hc h.1, hrest]
      rfl

/-- A block of lines, as it is sent. -/
def block (lines : List Bytes) : Bytes := lines.flatMap (· ++ CRLF) ++ CRLF

/-- **A block of lines is read back.** -/
theorem headLines_block {lines : List Bytes} (hl : ∀ l ∈ lines, OneLine l ∧ l ≠ []) (rest : Bytes)
    {n : Nat} (hn : lines.length < n) : headLines n (block lines ++ rest) = some (lines, rest) := by
  induction lines generalizing n with
  | nil =>
      obtain ⟨m, rfl⟩ : ∃ m, n = m + 1 := ⟨n - 1, by omega⟩
      have hline := splitLine_line (l := []) (by simp) rest
      rw [List.nil_append] at hline
      rw [headLines, block, List.flatMap_nil, List.nil_append, hline]
  | cons l lines ih =>
      obtain ⟨m, rfl⟩ : ∃ m, n = m + 1 := ⟨n - 1, by omega⟩
      rw [List.length_cons] at hn
      obtain ⟨hone, hne⟩ := hl l List.mem_cons_self
      have hrest := ih (fun l' hl' => hl l' (List.mem_cons_of_mem l hl')) (n := m) (by omega)
      have hblock : block (l :: lines) ++ rest = l ++ CRLF ++ (block lines ++ rest) := by
        simp [block, List.append_assoc]
      rw [hblock, headLines, splitLine_line hone.1]
      cases l with
      | nil => exact absurd rfl hne
      | cons c l =>
          dsimp only
          rw [hrest]
          rfl

/-! ### Header fields

The name of a field is compared without its case, and only the first field of a name counts. -/

/-- The name of the field in a header line: the text before the first colon. -/
def fieldName (line : Bytes) : Bytes := toLower (trimmed (line.takeWhile (· ≠ 58)))

/-- The value of the field in a header line: the text after the first colon. -/
def fieldValue (line : Bytes) : Bytes := trimmed ((line.dropWhile (· ≠ 58)).drop 1)

/-- The value of the first field with a name. -/
def lookup (name : Bytes) (lines : List Bytes) : Option Bytes :=
  (lines.find? fun l => fieldName l = name).map fieldValue

/-- How a message shows the end of its body. -/
inductive Kind
  | chunked
  | length (n : Nat)
  | untilClose
  deriving DecidableEq, Repr

/-- What the header lines say about the body. -/
def kind (lines : List Bytes) : Option Kind :=
  match lookup (ascii "transfer-encoding") lines with
  | some v => if toLower v = ascii "chunked" then some .chunked else none
  | none =>
      match lookup (ascii "content-length") lines with
      | some v => (numeral 10 v).map .length
      | none => some .untilClose

/-- The name of a field is what stands before the colon. -/
theorem fieldName_append {name : Bytes} (rest : Bytes) :
    fieldName (name ++ 58 :: rest) = fieldName name := by
  have htake : (name ++ 58 :: rest).takeWhile (· ≠ 58) = name.takeWhile (· ≠ 58) := by
    induction name with
    | nil => rfl
    | cons c name ih =>
        simp only [List.cons_append, List.takeWhile_cons]
        split
        · rw [ih]
        · rfl
  rw [fieldName, htake, fieldName]

theorem fieldValue_append {name : Bytes} (hname : 58 ∉ name) (rest : Bytes) :
    fieldValue (name ++ 58 :: rest) = trimmed rest := by
  have hdrop : (name ++ 58 :: rest).dropWhile (· ≠ 58) = 58 :: rest := by
    rw [List.dropWhile_append, List.dropWhile_eq_nil_iff.mpr]
    · rfl
    · intro c hc
      have hne : c ≠ 58 := fun he => hname (he ▸ hc)
      simpa using hne
  rw [fieldValue, hdrop, List.drop_one, List.tail_cons]

/-- The only line with a name is the one that is found. -/
theorem lookup_unique {lines : List Bytes} {name l : Bytes} (hl : l ∈ lines)
    (hname : fieldName l = name) (honly : ∀ l' ∈ lines, fieldName l' = name → l' = l) :
    lookup name lines = some (fieldValue l) := by
  cases hfind : lines.find? fun l => fieldName l = name with
  | none => exact absurd (by simpa using hname) (List.find?_eq_none.mp hfind l hl)
  | some l' =>
      have hmem := List.mem_of_find?_eq_some hfind
      have hname' : fieldName l' = name := by simpa using List.find?_some hfind
      rw [lookup, hfind, honly l' hmem hname']
      rfl

theorem lookup_none {lines : List Bytes} {name : Bytes} (h : ∀ l ∈ lines, fieldName l ≠ name) :
    lookup name lines = none := by
  have hfind : lines.find? (fun l => fieldName l = name) = none :=
    List.find?_eq_none.mpr fun l hl => by simpa using h l hl
  rw [lookup, hfind]
  rfl

/-! ### Chunks

A chunk begins with its length in hexadecimal digits. A chunk without data ends the body, and so no
piece of a body may be empty. -/

/-- Read chunks up to the last one, the data of which is empty. -/
def chunks : Nat → Bytes → Option (Bytes × Bytes)
  | 0, _ => none
  | n + 1, b =>
      match splitLine b with
      | none => none
      | some (size, rest) =>
          match numeral 16 size with
          | none => none
          | some len =>
              if (rest.drop len).take 2 ≠ CRLF then none
              else if len = 0 then some ([], rest.drop 2)
              else (chunks n (rest.drop (len + 2))).map fun p => (rest.take len ++ p.1, p.2)

/-- A chunk, as it is sent. -/
def chunk (d : Bytes) : Bytes := number16 d.length ++ CRLF ++ d ++ CRLF

/-- The last chunk. -/
def lastChunk : Bytes := ascii "0" ++ CRLF ++ CRLF

/-- The digits of a number stand on one line. -/
theorem digitBytes_oneLine {base : Nat} (hb : 2 ≤ base) (hb' : base ≤ 16) (n : Nat) :
    OneLine (digitBytes base n) := by
  have hplain : ∀ c ∈ digitBytes base n, c ≠ CR ∧ c ≠ LF := by
    intro c hc
    have hdigit := digitVal_of_numeral (numeral_digitBytes hb hb' n) c hc
    exact (digit_plain (digit_of_base_le hb' hdigit)).2.2.2.2
  exact ⟨fun hmem => (hplain CR hmem).1 rfl, fun hmem => (hplain LF hmem).2 rfl⟩

/-- **Chunks are read back.** -/
theorem chunks_flatMap {pieces : List Bytes} (hp : ∀ d ∈ pieces, d ≠ []) (rest : Bytes) {n : Nat}
    (hn : pieces.length < n) :
    chunks n (pieces.flatMap chunk ++ lastChunk ++ rest) = some (pieces.flatten, rest) := by
  induction pieces generalizing n with
  | nil =>
      obtain ⟨m, rfl⟩ : ∃ m, n = m + 1 := ⟨n - 1, by omega⟩
      have hline := splitLine_line (l := ascii "0") (by decide) (CRLF ++ rest)
      have hzero : numeral 16 (ascii "0") = some 0 := by decide
      rw [List.flatMap_nil, List.nil_append, lastChunk,
        List.append_assoc (ascii "0" ++ CRLF), chunks, hline]
      dsimp only
      rw [hzero]
      rfl
  | cons d pieces ih =>
      obtain ⟨m, rfl⟩ : ∃ m, n = m + 1 := ⟨n - 1, by omega⟩
      rw [List.length_cons] at hn
      have hd : d ≠ [] := hp d List.mem_cons_self
      have hrest := ih (fun d' hd' => hp d' (List.mem_cons_of_mem d hd')) (n := m) (by omega)
      generalize hb : pieces.flatMap chunk ++ lastChunk ++ rest = b at hrest
      have hbytes : (d :: pieces).flatMap chunk ++ lastChunk ++ rest =
          number16 d.length ++ CRLF ++ (d ++ (CRLF ++ b)) := by
        simp [← hb, chunk, List.append_assoc]
      have hone : OneLine (number16 d.length) := digitBytes_oneLine (by omega) (by omega) _
      have hline := splitLine_line hone.1 (d ++ (CRLF ++ b))
      have hsize : numeral 16 (number16 d.length) = some d.length :=
        numeral_digitBytes (by omega) (by omega) _
      have hlen : d.length ≠ 0 := fun h0 => hd (List.length_eq_zero_iff.mp h0)
      have hend : (d ++ (CRLF ++ b)).drop (d.length + 2) = b := by simp
      have hcrlf : ((d ++ (CRLF ++ b)).drop d.length).take 2 = CRLF := by simp
      rw [hbytes, chunks, hline]
      dsimp only
      rw [hsize]
      dsimp only
      rw [if_neg (not_not.mpr hcrlf), if_neg hlen, hend, List.take_left, hrest]
      rfl

/-- A decimal number stands on one line. -/
theorem number_oneLine (n : Int) : OneLine (number n) := by
  have hdigits : OneLine (digitBytes 10 n.natAbs) := digitBytes_oneLine (by omega) (by omega) _
  unfold number
  split
  · exact ⟨fun hmem => (List.mem_cons.mp hmem).elim (by decide) hdigits.1,
      fun hmem => (List.mem_cons.mp hmem).elim (by decide) hdigits.2⟩
  · exact hdigits

/-- A length is read back from the header that announces it. -/
theorem numeral_number (n : Nat) : numeral 10 (trimmed (SP :: number n)) = some n := by
  have hnumber : number (n : Int) = digitBytes 10 n := by
    rw [number, if_neg (by omega), Int.natAbs_natCast]
  have hnumeral : numeral 10 (digitBytes 10 n) = some n :=
    numeral_digitBytes (by omega) (by omega) n
  have hspace : ∀ c ∈ digitBytes 10 n, isSpace c = false := fun c hc =>
    (digit_plain (digit_of_base_le (by omega) (digitVal_of_numeral hnumeral c hc))).2.1
  have htrim := trimmed_pad (l := [SP]) (r := []) (by decide) (trimmed_of_no_space hspace) (by simp)
  rw [List.append_nil, List.singleton_append] at htrim
  rw [hnumber, htrim, hnumeral]

/-! ### Messages

The two ways of sending a body are read back: in chunks, and with the length announced. -/

/-- The body of a message and the bytes left over. -/
def body (k : Kind) (b : Bytes) : Option (Bytes × Bytes) :=
  match k with
  | .chunked => chunks (b.length + 1) b
  | .length n => if n ≤ b.length then some (b.take n, b.drop n) else none
  | .untilClose => some (b, [])

/-- What a receiver makes of the bytes of one message: how it is framed, the body, and the bytes
left over. -/
def decode (b : Bytes) : Option (Kind × Bytes × Bytes) :=
  match headLines (b.length + 1) b with
  | none => none
  | some (lines, rest) =>
      match kind (lines.drop 1) with
      | none => none
      | some k => (body k rest).map fun p => (k, p.1, p.2)

/-- A message whose head is a block of lines. -/
theorem decode_block {start : Bytes} {lines : List Bytes} (hs : OneLine start ∧ start ≠ [])
    (hl : ∀ l ∈ lines, OneLine l ∧ l ≠ []) {k : Kind} (hk : kind lines = some k) (b : Bytes) :
    decode (block (start :: lines) ++ b) = (body k b).map fun p => (k, p.1, p.2) := by
  have hall : ∀ l ∈ start :: lines, OneLine l ∧ l ≠ [] := by
    intro l hmem
    rcases List.mem_cons.mp hmem with rfl | hmem
    · exact hs
    · exact hl l hmem
  have hlen : (start :: lines).length < (block (start :: lines) ++ b).length + 1 := by
    have hcount : ∀ ls : List Bytes, ls.length ≤ (ls.flatMap (· ++ CRLF)).length := by
      intro ls
      induction ls with
      | nil => exact Nat.le_refl _
      | cons l ls ih =>
          rw [List.flatMap_cons, List.length_append, List.length_append, List.length_cons]
          have htwo : (CRLF : Bytes).length = 2 := rfl
          omega
    have hthis := hcount (start :: lines)
    rw [block, List.length_append, List.length_append]
    omega
  rw [decode, headLines_block hall b hlen]
  dsimp only
  rw [List.drop_one, List.tail_cons, hk]

/-- A chunked body is read back, and nothing is left over. -/
theorem body_chunked {pieces : List Bytes} (hp : ∀ d ∈ pieces, d ≠ []) :
    body .chunked (pieces.flatMap chunk ++ lastChunk) = some (pieces.flatten, []) := by
  have hlen : pieces.length ≤ (pieces.flatMap chunk).length := by
    clear hp
    induction pieces with
    | nil => exact Nat.le_refl _
    | cons d pieces ih =>
        have htwo : 2 ≤ (chunk d).length := by
          rw [chunk, List.length_append]
          exact Nat.le_add_left 2 _
        rw [List.flatMap_cons, List.length_append, List.length_cons]
        omega
  have hread := chunks_flatMap hp [] (n := (pieces.flatMap chunk ++ lastChunk).length + 1)
    (by rw [List.length_append]; omega)
  rw [List.append_nil] at hread
  exact hread

/-- A body with its length is read back, and nothing is left over. -/
theorem body_length (b : Bytes) : body (.length b.length) b = some (b, []) := by
  rw [body, if_pos (Nat.le_refl _), List.take_length, List.drop_length]

end Framing

end QtWebApp
