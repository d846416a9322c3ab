import QtWebApp.Base.QString

/-!
# QtWebApp.Base.Utf8

UTF-8, and a decoder that gets a text in pieces.

A code point is a `Nat`; `bytesOf` and `utf16` are its two encodings. `convertToUnicode` is the
decoder of `QTextCodec`: it keeps the bytes of a character that is not complete in a
`ConverterState` and takes them up when the next piece arrives. `decode` is what it should do, on
the whole text at once; `convertToUnicode_eq` says that it does, unless an empty piece arrives in
the middle of a character.
-/

namespace QtWebApp

namespace Utf8

/-! ### Code points

A scalar value has one encoding of each kind. -/

/-- A code point that is not half of a surrogate pair. -/
def IsScalar (uc : Nat) : Prop := uc < 0xD800 ∨ (0xE000 ≤ uc ∧ uc ≤ 0x10FFFF)

instance (uc : Nat) : Decidable (IsScalar uc) := inferInstanceAs (Decidable (_ ∨ _))

/-- The code units of a code point. -/
def utf16 (uc : Nat) : QString :=
  if uc < 0x10000 then [UInt16.ofNat uc]
  else [UInt16.ofNat (0xD7C0 + uc / 1024), UInt16.ofNat (0xDC00 + uc % 1024)]

/-- The UTF-8 bytes of a code point. -/
def bytesOf (uc : Nat) : Bytes :=
  if uc < 0x80 then [UInt8.ofNat uc]
  else if uc < 0x800 then [UInt8.ofNat (0xC0 + uc / 64), UInt8.ofNat (0x80 + uc % 64)]
  else if uc < 0x10000 then
    [UInt8.ofNat (0xE0 + uc / 4096), UInt8.ofNat (0x80 + uc / 64 % 64),
      UInt8.ofNat (0x80 + uc % 64)]
  else
    [UInt8.ofNat (0xF0 + uc / 262144), UInt8.ofNat (0x80 + uc / 4096 % 64),
      UInt8.ofNat (0x80 + uc / 64 % 64), UInt8.ofNat (0x80 + uc % 64)]

/-! ### The first character of a text

Too long encodings, surrogates and numbers beyond the last code point are no characters. -/

/-- What stands at the front of a text: no character, the beginning of one, or a character that
goes on for some bytes after the first one. -/
inductive Front
  | error
  | endOfString
  | char (uc n : Nat)
  deriving DecidableEq, Repr

/-- How many bytes a character has after this first one; `none` if no character begins so. -/
def needed (b : UInt8) : Option Nat :=
  if b < 0x80 then some 0
  -- 0xC0 and 0xC1 could only begin a sequence that is longer than necessary
  else if b ≤ 0xC1 then none
  else if b < 0xE0 then some 1
  else if b < 0xF0 then some 2
  else if b < 0xF5 then some 3
  else none

/-- A byte inside a character. -/
def isContinuationByte (b : UInt8) : Bool := 0x80 ≤ b && b < 0xC0

/-- The bits of the code point in the first byte. -/
def leadBits (n : Nat) (b : UInt8) : Nat :=
  match n with
  | 0 => b.toNat
  | 1 => b.toNat % 32
  | 2 => b.toNat % 16
  | _ => b.toNat % 8

/-- The code point that the bits of a sequence make. -/
def codePoint (n : Nat) (b : UInt8) (tail : Bytes) : Nat :=
  tail.foldl (fun uc c => uc * 64 + c.toNat % 64) (leadBits n b)

/-- The smallest code point that needs this many bytes after the first one. -/
def minimum : Nat → Nat
  | 0 => 0
  | 1 => 0x80
  | 2 => 0x800
  | _ => 0x10000

/-- The character that begins with the byte `b`. -/
def front (b : UInt8) (src : Bytes) : Front :=
  match needed b with
  | none => .error
  | some n =>
      -- a sequence may be wrong before it is complete
      if (src.take n).all isContinuationByte = false then .error
      else if src.length < n then .endOfString
      else if minimum n ≤ codePoint n b (src.take n) ∧ IsScalar (codePoint n b (src.take n)) then
        .char (codePoint n b (src.take n)) n
      else .error

/-! ### The decoder

It has to go on after a character that was cut in two, and it counts what is not UTF-8 instead of
stopping there. -/

/-- `QTextCodec::ConverterState`: the bytes of a character that is not complete, and how many
times the text was not UTF-8. -/
structure ConverterState where
  remaining : Bytes
  invalidChars : Nat
  deriving DecidableEq, Repr

/-- The state of a converter that has seen nothing. -/
def ConverterState.new : ConverterState := ⟨[], 0⟩

/-- Decode a text, some bytes of which were read already. What is not UTF-8 becomes a null
character. -/
def decodeFrom : Nat → Bytes → QString × ConverterState
  | _, [] => ([], .new)
  | k + 1, _ :: src => decodeFrom k src
  | 0, b :: src =>
      match front b src with
      | .error =>
          let (text, state) := decodeFrom 0 src
          (0 :: text, { state with invalidChars := state.invalidChars + 1 })
      | .endOfString => ([], ⟨b :: src, 0⟩)
      | .char uc n =>
          let (text, state) := decodeFrom n src
          (utf16 uc ++ text, state)

/-- `QTextCodec::toUnicode` with a state, for UTF-8. -/
def convertToUnicode (chars : Bytes) (state : ConverterState) : QString × ConverterState :=
  match state.remaining with
  | [] =>
      let (text, state') := decodeFrom 0 chars
      (text, { state' with invalidChars := state.invalidChars + state'.invalidChars })
  | b :: begun =>
      let copied := chars.take (4 - state.remaining.length)
      let failed :=
        let (text, state') := decodeFrom 0 chars
        (0 :: text, { state' with invalidChars := state.invalidChars + 1 + state'.invalidChars })
      match front b (begun ++ copied) with
      | .error => failed
      | .endOfString =>
          -- an empty piece ends the character that was begun
          if chars = [] then failed else ([], { state with remaining := state.remaining ++ copied })
      | .char uc n =>
          let (text, state') := decodeFrom (n - begun.length) chars
          (utf16 uc ++ text, { state' with invalidChars :=
            state.invalidChars + state'.invalidChars })

/-! ### The encoder

A text may have lone surrogates. They have no encoding, and Qt writes a question mark for each of
them. -/

/-- `QChar::isSurrogate`. -/
def isSurrogate (u : UInt16) : Bool := 0xD800 ≤ u && u < 0xE000

/-- `QChar::isHighSurrogate`. -/
def isHighSurrogate (u : UInt16) : Bool := 0xD800 ≤ u && u < 0xDC00

/-- `QChar::isLowSurrogate`. -/
def isLowSurrogate (u : UInt16) : Bool := 0xDC00 ≤ u && u < 0xE000

/-- `QChar::surrogateToUcs4`. -/
def surrogateToUcs4 (high low : UInt16) : Nat :=
  0x10000 + (high.toNat - 0xD800) * 1024 + (low.toNat - 0xDC00)

/-- The code point of a unit that is no half of a pair; a question mark for a lone surrogate. -/
def single (u : UInt16) : Nat := if isSurrogate u then 63 else u.toNat

/-- The code points of a text. -/
def codePoints : QString → List Nat
  | [] => []
  | [u] => [single u]
  | u :: v :: rest =>
      if isHighSurrogate u && isLowSurrogate v then surrogateToUcs4 u v :: codePoints rest
      else single u :: codePoints (v :: rest)

/-- `QString::toUtf8`. -/
def toUtf8 (s : QString) : Bytes := (codePoints s).flatMap bytesOf

/-- A text with a question mark for every lone surrogate. -/
def scrub (s : QString) : QString := (codePoints s).flatMap utf16

/-! ### What the decoder should do

`decode` has no state. Either the text is UTF-8, up to the beginning of a character at its end, or
it is not. -/

/-- The text of the characters, and the beginning of one more; `none` for what is not UTF-8. -/
def decode (b : Bytes) : Option (QString × Bytes) :=
  if (decodeFrom 0 b).2.invalidChars = 0
    then some ((decodeFrom 0 b).1, (decodeFrom 0 b).2.remaining)
  else none

/-- More text in front. -/
def prepend (t : QString) (p : QString × Bytes) : QString × Bytes := (t ++ p.1, p.2)

theorem decodeFrom_drop (n : Nat) (b : Bytes) : decodeFrom n b = decodeFrom 0 (b.drop n) := by
  induction b generalizing n with
  | nil => cases n <;> rfl
  | cons c src ih =>
      cases n with
      | zero => rfl
      | succ k =>
          rw [decodeFrom, ih k]
          rfl

@[simp] theorem decode_nil : decode [] = some ([], []) := rfl

theorem decode_error {b : UInt8} {src : Bytes} (h : front b src = .error) :
    decode (b :: src) = none := by
  unfold decode
  rw [decodeFrom, h]
  exact if_neg (Nat.succ_ne_zero _)

theorem decode_endOfString {b : UInt8} {src : Bytes} (h : front b src = .endOfString) :
    decode (b :: src) = some ([], b :: src) := by
  unfold decode
  rw [decodeFrom, h]
  rfl

theorem decode_char {b : UInt8} {src : Bytes} {uc n : Nat} (h : front b src = .char uc n) :
    decode (b :: src) = (decode (src.drop n)).map (prepend (utf16 uc)) := by
  unfold decode
  rw [decodeFrom, h, ← decodeFrom_drop]
  dsimp only
  split <;> rfl

/-! ### One character

What stands at the front of a text is decided by its first bytes, and more text behind it does not
change that, unless the character was not complete. -/

theorem ofNat_eq {x : Nat} {b : UInt8} (h : x = b.toNat) : UInt8.ofNat x = b := by
  rw [h, UInt8.ofNat_toNat]

theorem isContinuationByte_iff {c : UInt8} :
    isContinuationByte c = true ↔ 0x80 ≤ c.toNat ∧ c.toNat < 0xC0 := by
  rw [isContinuationByte, Bool.and_eq_true, decide_eq_true_iff, decide_eq_true_iff,
    UInt8.le_iff_toNat_le, UInt8.lt_iff_toNat_lt]
  exact Iff.rfl

/-- The first bytes that a sequence of each length can have. -/
theorem needed_eq_some {b : UInt8} {n : Nat} : needed b = some n ↔
    (n = 0 ∧ b.toNat < 0x80) ∨ (n = 1 ∧ 0xC2 ≤ b.toNat ∧ b.toNat < 0xE0) ∨
      (n = 2 ∧ 0xE0 ≤ b.toNat ∧ b.toNat < 0xF0) ∨ (n = 3 ∧ 0xF0 ≤ b.toNat ∧ b.toNat < 0xF5) := by
  have h80 : (b < 0x80) = (b.toNat < 0x80) := rfl
  have hC1 : (b ≤ 0xC1) = (b.toNat ≤ 0xC1) := rfl
  have hE0 : (b < 0xE0) = (b.toNat < 0xE0) := rfl
  have hF0 : (b < 0xF0) = (b.toNat < 0xF0) := rfl
  have hF5 : (b < 0xF5) = (b.toNat < 0xF5) := rfl
  unfold needed
  simp only [h80, hC1, hE0, hF0, hF5]
  split_ifs <;> grind

/-- A character at the front of a text: its bytes are there, and they make its code point. -/
theorem front_eq_char {b : UInt8} {src : Bytes} {uc n : Nat} : front b src = .char uc n ↔
    needed b = some n ∧ (src.take n).all isContinuationByte = true ∧ n ≤ src.length ∧
      codePoint n b (src.take n) = uc ∧ minimum n ≤ uc ∧ IsScalar uc := by
  unfold front
  cases hn : needed b with
  | none => simp
  | some m =>
      dsimp only
      split_ifs with hall hlen hgood
      · refine ⟨(by intro h; cases h), fun h => ?_⟩
        cases h.1
        rw [hall] at h
        exact absurd h.2.1 Bool.false_ne_true
      · refine ⟨(by intro h; cases h), fun h => ?_⟩
        cases h.1
        omega
      · simp only [Front.char.injEq, Option.some.injEq]
        constructor
        · rintro ⟨rfl, rfl⟩
          exact ⟨rfl, by simpa using hall, by omega, rfl, hgood⟩
        · rintro ⟨rfl, -, -, rfl, -⟩
          exact ⟨rfl, rfl⟩
      · refine ⟨(by intro h; cases h), fun h => ?_⟩
        cases h.1
        rw [h.2.2.2.1] at hgood
        exact absurd h.2.2.2.2 hgood

/-- A character stays what it is when more text comes. -/
theorem front_char_append {b : UInt8} {src : Bytes} {uc n : Nat} (h : front b src = .char uc n)
    (more : Bytes) : front b (src ++ more) = .char uc n := by
  obtain ⟨hn, hall, hlen, huc, hgood⟩ := front_eq_char.mp h
  have htake : (src ++ more).take n = src.take n := List.take_append_of_le_length hlen
  refine front_eq_char.mpr ⟨hn, htake ▸ hall, ?_, htake ▸ huc, hgood⟩
  rw [List.length_append]
  omega

/-- What is no character does not become one. -/
theorem front_error_append {b : UInt8} {src : Bytes} (h : front b src = .error) (more : Bytes) :
    front b (src ++ more) = .error := by
  unfold front at h ⊢
  cases hn : needed b with
  | none => rfl
  | some n =>
      rw [hn] at h
      dsimp only at h ⊢
      split_ifs at h with hall hlen hgood
      · -- a byte that is there already is wrong
        rw [if_pos]
        rw [List.take_append, List.all_append, hall, Bool.false_and]
      · have htake : (src ++ more).take n = src.take n := List.take_append_of_le_length (by omega)
        have hmore : ¬ (src ++ more).length < n := by
          rw [List.length_append]
          omega
        rw [htake, if_neg hall, if_neg hmore, if_neg hgood]

/-- What is begun are too few bytes that could go on. -/
theorem front_eq_endOfString {b : UInt8} {src : Bytes} : front b src = .endOfString ↔
    ∃ n, needed b = some n ∧ src.all isContinuationByte = true ∧ src.length < n := by
  unfold front
  cases hn : needed b with
  | none => simp
  | some n =>
      dsimp only
      split_ifs with hall hlen hgood
      · refine ⟨(by intro h; cases h), ?_⟩
        rintro ⟨m, hm, hsrc, hlen⟩
        cases hm
        rw [List.take_of_length_le (by omega), hsrc] at hall
        cases hall
      · refine ⟨fun _ => ⟨n, rfl, ?_, hlen⟩, fun _ => rfl⟩
        rwa [List.take_of_length_le (by omega), Bool.not_eq_false] at hall
      · refine ⟨(by intro h; cases h), ?_⟩
        rintro ⟨m, hm, -, hlt⟩
        cases hm
        exact absurd hlt hlen
      · refine ⟨(by intro h; cases h), ?_⟩
        rintro ⟨m, hm, -, hlt⟩
        cases hm
        exact absurd hlt hlen

/-- A character is read from its own bytes. -/
theorem bytesOf_of_front {b : UInt8} {src : Bytes} {uc n : Nat} (h : front b src = .char uc n) :
    bytesOf uc = b :: src.take n := by
  obtain ⟨hn, hall, hlen, huc, hmin, -⟩ := front_eq_char.mp h
  have htake : (src.take n).length = n := List.length_take_of_le hlen
  generalize src.take n = tail at hall huc htake
  have hb := UInt8.toNat_lt b
  rcases needed_eq_some.mp hn with ⟨rfl, hb⟩ | ⟨rfl, hb1, hb2⟩ | ⟨rfl, hb1, hb2⟩ | ⟨rfl, hb1, hb2⟩
  · match tail, htake with
    | [], _ =>
      have hcode : b.toNat = uc := huc
      rw [bytesOf, if_pos (by omega), ofNat_eq hcode.symm]
  · match tail, htake with
    | [c], _ =>
      have hc := isContinuationByte_iff.mp (List.all_eq_true.mp hall c (by simp))
      have hcode : b.toNat % 32 * 64 + c.toNat % 64 = uc := huc
      have hmin : 0x80 ≤ uc := hmin
      rw [bytesOf, if_neg (by omega), if_pos (by omega), ofNat_eq (b := b) (by omega),
        ofNat_eq (b := c) (by omega)]
  · match tail, htake with
    | [c, d], _ =>
      have hc := isContinuationByte_iff.mp (List.all_eq_true.mp hall c (by simp))
      have hd := isContinuationByte_iff.mp (List.all_eq_true.mp hall d (by simp))
      have hcode : (b.toNat % 16 * 64 + c.toNat % 64) * 64 + d.toNat % 64 = uc := huc
      have hmin : 0x800 ≤ uc := hmin
      rw [bytesOf, if_neg (by omega), if_neg (by omega), if_pos (by omega),
        ofNat_eq (b := b) (by omega), ofNat_eq (b := c) (by omega), ofNat_eq (b := d) (by omega)]
  · match tail, htake with
    | [c, d, e], _ =>
      have hc := isContinuationByte_iff.mp (List.all_eq_true.mp hall c (by simp))
      have hd := isContinuationByte_iff.mp (List.all_eq_true.mp hall d (by simp))
      have he := isContinuationByte_iff.mp (List.all_eq_true.mp hall e (by simp))
      have hcode : ((b.toNat % 8 * 64 + c.toNat % 64) * 64 + d.toNat % 64) * 64 +
          e.toNat % 64 = uc :=
        huc
      have hmin : 0x10000 ≤ uc := hmin
      rw [bytesOf, if_neg (by omega), if_neg (by omega), if_neg (by omega),
        ofNat_eq (b := b) (by omega),
        ofNat_eq (b := c) (by omega), ofNat_eq (b := d) (by omega), ofNat_eq (b := e) (by omega)]

theorem toNat_ofNat_lt {x : Nat} (h : x < 256) : (UInt8.ofNat x).toNat = x := by
  rw [UInt8.toNat_ofNat']
  omega

theorem isContinuationByte_ofNat (x : Nat) :
    isContinuationByte (UInt8.ofNat (0x80 + x % 64)) = true := by
  rw [isContinuationByte_iff, toNat_ofNat_lt (by omega)]
  omega

/-- The bytes of a character are read as that character. -/
theorem front_bytesOf {uc : Nat} (h : IsScalar uc) : ∃ b tail, bytesOf uc = b :: tail ∧
    ∀ rest, front b (tail ++ rest) = .char uc tail.length := by
  have hle : uc ≤ 0x10FFFF := by
    unfold IsScalar at h
    omega
  unfold bytesOf
  split_ifs with h1 h2 h3
  · refine ⟨_, _, rfl, fun rest => front_eq_char.mpr ⟨?_, rfl, Nat.zero_le _, ?_, Nat.zero_le _, h⟩⟩
    · rw [needed_eq_some, toNat_ofNat_lt (by omega)]
      exact .inl ⟨rfl, h1⟩
    · exact toNat_ofNat_lt (by omega)
  · refine ⟨_, _, rfl, fun rest => front_eq_char.mpr ?_⟩
    rw [List.take_left]
    refine ⟨?_, ?_, by simp, ?_, show 0x80 ≤ uc by omega, h⟩
    · rw [needed_eq_some, toNat_ofNat_lt (by omega), List.length_singleton]
      omega
    · simp only [List.all_cons, List.all_nil, isContinuationByte_ofNat, Bool.and_self]
    · show (UInt8.ofNat _).toNat % 32 * 64 + (UInt8.ofNat _).toNat % 64 = uc
      rw [toNat_ofNat_lt (by omega), toNat_ofNat_lt (by omega)]
      omega
  · refine ⟨_, _, rfl, fun rest => front_eq_char.mpr ?_⟩
    rw [List.take_left]
    refine ⟨?_, ?_, by simp, ?_, show 0x800 ≤ uc by omega, h⟩
    · rw [needed_eq_some, toNat_ofNat_lt (by omega), List.length_cons, List.length_singleton]
      omega
    · simp only [List.all_cons, List.all_nil, isContinuationByte_ofNat, Bool.and_self]
    · show ((UInt8.ofNat _).toNat % 16 * 64 + (UInt8.ofNat _).toNat % 64) * 64 +
        (UInt8.ofNat _).toNat % 64 = uc
      rw [toNat_ofNat_lt (by omega), toNat_ofNat_lt (by omega), toNat_ofNat_lt (by omega)]
      omega
  · refine ⟨_, _, rfl, fun rest => front_eq_char.mpr ?_⟩
    rw [List.take_left]
    refine ⟨?_, ?_, by simp, ?_, show 0x10000 ≤ uc by omega, h⟩
    · rw [needed_eq_some, toNat_ofNat_lt (by omega), List.length_cons, List.length_cons,
        List.length_singleton]
      omega
    · simp only [List.all_cons, List.all_nil, isContinuationByte_ofNat, Bool.and_self]
    · show (((UInt8.ofNat _).toNat % 8 * 64 + (UInt8.ofNat _).toNat % 64) * 64 +
        (UInt8.ofNat _).toNat % 64) * 64 + (UInt8.ofNat _).toNat % 64 = uc
      rw [toNat_ofNat_lt (by omega), toNat_ofNat_lt (by omega), toNat_ofNat_lt (by omega),
        toNat_ofNat_lt (by omega)]
      omega

/-! ### Texts in pieces

By `decode_append` a text may be cut anywhere, if what is left over of the first piece is put in
front of the second one. That is what the decoder does. -/

theorem prepend_prepend (t u : QString) (p : QString × Bytes) :
    prepend t (prepend u p) = prepend (t ++ u) p := by
  rw [prepend, prepend, prepend, List.append_assoc]

/-- **A text in two pieces.** What the first one leaves over is read with the second one. -/
theorem decode_append (a b : Bytes) :
    decode (a ++ b) = (decode a).bind fun p => (decode (p.2 ++ b)).map (prepend p.1) := by
  induction hlen : a.length using Nat.strongRecOn generalizing a with
  | _ k ih =>
      cases a with
      | nil =>
          rw [decode_nil, Option.bind_some]
          exact Option.map_id'.symm
      | cons c src =>
          cases hfront : front c src with
          | error =>
              rw [decode_error hfront, List.cons_append, decode_error (front_error_append hfront b)]
              rfl
          | endOfString =>
              rw [decode_endOfString hfront, Option.bind_some]
              exact Option.map_id'.symm
          | char uc n =>
              have hn : n ≤ src.length := (front_eq_char.mp hfront).2.2.1
              have hdrop : (src ++ b).drop n = src.drop n ++ b := List.drop_append_of_le_length hn
              have hrec := ih (src.drop n).length
                (by rw [← hlen, List.length_drop, List.length_cons]; omega) (src.drop n) rfl
              rw [List.cons_append, decode_char (front_char_append hfront b),
                decode_char hfront, hdrop, hrec]
              cases decode (src.drop n) with
              | none => rfl
              | some p =>
                  rw [Option.bind_some, Option.map_some, Option.bind_some, Option.map_map]
                  refine congrArg (Option.map · _) (funext fun q => ?_)
                  exact prepend_prepend _ _ _

/-- What is left over is the beginning of a character, or nothing. -/
theorem decode_rest {a r : Bytes} {t : QString} (h : decode a = some (t, r)) :
    decode r = some ([], r) := by
  induction hlen : a.length using Nat.strongRecOn generalizing a t with
  | _ k ih =>
      cases a with
      | nil =>
          rw [decode_nil] at h
          cases h
          rfl
      | cons c src =>
          cases hfront : front c src with
          | error =>
              rw [decode_error hfront] at h
              cases h
          | endOfString =>
              rw [decode_endOfString hfront] at h
              cases h
              exact decode_endOfString hfront
          | char uc n =>
              rw [decode_char hfront] at h
              obtain ⟨⟨t', r'⟩, hrest, heq⟩ := Option.map_eq_some_iff.mp h
              cases heq
              exact ih (src.drop n).length
                (by rw [← hlen, List.length_drop, List.length_cons]; omega) hrest rfl

/-- A text has no more code units than bytes. -/
theorem decode_length {a r : Bytes} {t : QString} (h : decode a = some (t, r)) :
    t.length + r.length ≤ a.length := by
  induction hlen : a.length using Nat.strongRecOn generalizing a t with
  | _ k ih =>
      cases a with
      | nil =>
          rw [decode_nil] at h
          cases h
          exact Nat.zero_le _
      | cons c src =>
          rw [List.length_cons] at hlen
          cases hfront : front c src with
          | error =>
              rw [decode_error hfront] at h
              cases h
          | endOfString =>
              rw [decode_endOfString hfront] at h
              cases h
              simp only [List.length_nil, List.length_cons]
              omega
          | char uc n =>
              rw [decode_char hfront] at h
              obtain ⟨⟨t', r'⟩, hrest, heq⟩ := Option.map_eq_some_iff.mp h
              cases heq
              have hrec : t'.length + r'.length ≤ (src.drop n).length :=
                ih (src.drop n).length (by rw [List.length_drop]; omega) hrest rfl
              obtain ⟨hneed, -, hn, -, hmin, -⟩ := front_eq_char.mp hfront
              rw [List.length_drop] at hrec
              -- two code units stand for four bytes
              have hunits : (utf16 uc).length ≤ 1 + n := by
                unfold utf16
                split_ifs with hsmall
                · exact Nat.le_add_right 1 n
                · have hcode := bytesOf_of_front hfront
                  rw [bytesOf, if_neg (by omega), if_neg (by omega), if_neg hsmall] at hcode
                  have hcount := congrArg List.length hcode
                  simp only [List.length_cons, List.length_nil,
                    List.length_take_of_le hn] at hcount ⊢
                  omega
              show (utf16 uc ++ t').length + r'.length ≤ k
              rw [List.length_append]
              omega

/-- A state between two pieces of a text: nothing was invalid, and what is kept is the beginning of
a character. -/
def ConverterState.Pending (state : ConverterState) : Prop :=
  state.invalidChars = 0 ∧ decode state.remaining = some ([], state.remaining)

theorem ConverterState.pending_new : ConverterState.new.Pending := ⟨rfl, rfl⟩

/-- What is kept is short. -/
theorem pending_cases {b : UInt8} {begun : Bytes}
    (h : decode (b :: begun) = some ([], b :: begun)) :
    front b begun = .endOfString ∧ begun.length < 3 := by
  cases hfront : front b begun with
  | error =>
      rw [decode_error hfront] at h
      cases h
  | endOfString =>
      obtain ⟨n, hn, -, hlen⟩ := front_eq_endOfString.mp hfront
      have hthree := needed_eq_some.mp hn
      exact ⟨rfl, by omega⟩
  | char uc n =>
      rw [decode_char hfront] at h
      obtain ⟨⟨t, r⟩, -, heq⟩ := Option.map_eq_some_iff.mp h
      have htext : utf16 uc ++ t = [] := congrArg Prod.fst heq
      have hunits := congrArg List.length (List.append_eq_nil_iff.mp htext).1
      unfold utf16 at hunits
      split at hunits <;> cases hunits

theorem decode_eq_some {b : Bytes} {p : QString × Bytes} :
    decode b = some p ↔ decodeFrom 0 b = (p.1, ⟨p.2, 0⟩) := by
  unfold decode
  constructor
  · intro h
    split_ifs at h with hvalid
    cases h
    exact Prod.ext rfl (congrArg (ConverterState.mk (decodeFrom 0 b).2.remaining) hvalid)
  · intro h
    rw [h]
    rfl

theorem decode_eq_none {b : Bytes} : decode b = none ↔ (decodeFrom 0 b).2.invalidChars ≠ 0 := by
  unfold decode
  split_ifs with hvalid <;> simp [hvalid]

/-- **The decoder.** A piece of a text leads to the text of the characters that are complete, or is
found to be invalid. An empty piece must not come in the middle of a character. -/
theorem convertToUnicode_eq {state : ConverterState} (hst : state.Pending) {chars : Bytes}
    (hne : chars ≠ [] ∨ state.remaining = []) :
    match decode (state.remaining ++ chars) with
    | some (t, r) => convertToUnicode chars state = (t, ⟨r, 0⟩)
    | none => (convertToUnicode chars state).2.invalidChars ≠ 0 := by
  obtain ⟨remaining, invalid⟩ := state
  obtain ⟨hinvalid, hkept⟩ := hst
  dsimp only at hinvalid hkept hne ⊢
  subst hinvalid
  cases remaining with
  | nil =>
      rw [List.nil_append]
      cases hdec : decode chars with
      | none => simpa [convertToUnicode] using decode_eq_none.mp hdec
      | some p =>
          obtain ⟨t, r⟩ := p
          simp [convertToUnicode, decode_eq_some.mp hdec]
  | cons b begun =>
      have hchars : chars ≠ [] := hne.resolve_right (List.cons_ne_nil b begun)
      obtain ⟨hbegun, hshort⟩ := pending_cases hkept
      have hsplit : begun ++ chars =
          begun ++ chars.take (4 - (b :: begun).length) ++ chars.drop
            (4 - (b :: begun).length) := by
        rw [List.append_assoc, List.take_append_drop]
      cases hfront : front b (begun ++ chars.take (4 - (b :: begun).length)) with
      | error =>
          have hall := front_error_append hfront (chars.drop (4 - (b :: begun).length))
          rw [← hsplit] at hall
          rw [List.cons_append, decode_error hall]
          unfold convertToUnicode
          dsimp only
          rw [hfront]
          dsimp only
          omega
      | endOfString =>
          -- four bytes are enough for any character: all of the piece was copied
          obtain ⟨n, hn, hall, hlen⟩ := front_eq_endOfString.mp hfront
          have hthree := needed_eq_some.mp hn
          rw [List.length_append, List.length_take, List.length_cons] at hlen
          have hcopied : chars.take (4 - (b :: begun).length) = chars :=
            List.take_of_length_le (by rw [List.length_cons]; omega)
          rw [hcopied] at hfront
          rw [List.cons_append, decode_endOfString hfront]
          unfold convertToUnicode
          dsimp only
          rw [hcopied, hfront]
          exact if_neg hchars
      | char uc n =>
          have hall := front_char_append hfront (chars.drop (4 - (b :: begun).length))
          rw [← hsplit] at hall
          -- the character was not complete before
          have hlonger : begun.length < n := by
            obtain ⟨m, hm, -, hlen⟩ := front_eq_endOfString.mp hbegun
            have hneed := (front_eq_char.mp hfront).1
            rw [hm] at hneed
            cases hneed
            exact hlen
          have hdrop : (begun ++ chars).drop n = chars.drop (n - begun.length) := by
            rw [List.drop_append, List.drop_eq_nil_of_le (by omega), List.nil_append]
          rw [List.cons_append, decode_char hall, hdrop]
          cases hrest : decode (chars.drop (n - begun.length)) with
          | none =>
              have hbad := decode_eq_none.mp hrest
              rw [← decodeFrom_drop] at hbad
              unfold convertToUnicode
              dsimp only
              rw [hfront]
              simpa using hbad
          | some p =>
              have hgood := decode_eq_some.mp hrest
              rw [← decodeFrom_drop] at hgood
              unfold convertToUnicode
              dsimp only
              rw [hfront]
              dsimp only
              rw [hgood]
              rfl

/-! ### Round trips

In both directions: a text that was encoded, and bytes that were decoded without anything being
wrong. -/

/-- The bytes of code points are decoded to the text of the code points. -/
theorem decode_flatMap_bytesOf {cps : List Nat} (h : ∀ uc ∈ cps, IsScalar uc) :
    decode (cps.flatMap bytesOf) = some (cps.flatMap utf16, []) := by
  induction cps with
  | nil => rfl
  | cons uc cps ih =>
      obtain ⟨b, tail, hbytes, hfront⟩ := front_bytesOf (h uc List.mem_cons_self)
      have hrest := ih fun c hc => h c (List.mem_cons_of_mem uc hc)
      rw [List.flatMap_cons, hbytes, List.cons_append, decode_char (hfront _),
        List.drop_left, hrest]
      rfl

theorem surrogate_iff {u : UInt16} : isSurrogate u = true ↔
    0xD800 ≤ u.toNat ∧ u.toNat < 0xE000 := by
  rw [isSurrogate, Bool.and_eq_true, decide_eq_true_iff, decide_eq_true_iff, UInt16.le_iff_toNat_le,
    UInt16.lt_iff_toNat_lt]
  exact Iff.rfl

theorem highSurrogate_iff {u : UInt16} :
    isHighSurrogate u = true ↔ 0xD800 ≤ u.toNat ∧ u.toNat < 0xDC00 := by
  rw [isHighSurrogate, Bool.and_eq_true, decide_eq_true_iff, decide_eq_true_iff,
    UInt16.le_iff_toNat_le, UInt16.lt_iff_toNat_lt]
  exact Iff.rfl

theorem lowSurrogate_iff {u : UInt16} :
    isLowSurrogate u = true ↔ 0xDC00 ≤ u.toNat ∧ u.toNat < 0xE000 := by
  rw [isLowSurrogate, Bool.and_eq_true, decide_eq_true_iff, decide_eq_true_iff,
    UInt16.le_iff_toNat_le, UInt16.lt_iff_toNat_lt]
  exact Iff.rfl

theorem single_scalar (u : UInt16) : IsScalar (single u) := by
  have hu := UInt16.toNat_lt u
  unfold single IsScalar
  split
  · omega
  · next h =>
      rw [surrogate_iff] at h
      omega

/-- The code points of a text are scalar: lone surrogates were replaced. -/
theorem codePoints_scalar (s : QString) : ∀ uc ∈ codePoints s, IsScalar uc := by
  fun_induction codePoints s with
  | case1 => simp
  | case2 u => simpa using single_scalar u
  | case3 u v rest h ih =>
      intro uc huc
      rcases List.mem_cons.mp huc with hpair | huc
      · rw [Bool.and_eq_true, highSurrogate_iff, lowSurrogate_iff] at h
        unfold surrogateToUcs4 at hpair
        unfold IsScalar
        omega
      · exact ih uc huc
  | case4 u v rest h ih =>
      intro uc huc
      rcases List.mem_cons.mp huc with rfl | huc
      · exact single_scalar u
      · exact ih uc huc

/-- **Text to bytes and back**: only lone surrogates are lost. -/
theorem decode_toUtf8 (s : QString) : decode (toUtf8 s) = some (scrub s, []) :=
  decode_flatMap_bytesOf (codePoints_scalar s)

theorem toNat_ofNat_lt16 {x : Nat} (h : x < 65536) : (UInt16.ofNat x).toNat = x := by
  rw [UInt16.toNat_ofNat']
  omega

/-- The code points that a text was made of are found in it. -/
theorem codePoints_cons {uc : Nat} (h : IsScalar uc) (s : QString) :
    codePoints (utf16 uc ++ s) = uc :: codePoints s := by
  unfold IsScalar at h
  unfold utf16
  split_ifs with hsmall
  · have hnat : (UInt16.ofNat uc).toNat = uc := toNat_ofNat_lt16 (by omega)
    have hnot : ¬ isSurrogate (UInt16.ofNat uc) = true := by
      rw [surrogate_iff, hnat]
      omega
    have hsingle : single (UInt16.ofNat uc) = uc := by
      rw [single, if_neg hnot, hnat]
    cases s with
    | nil => exact congrArg (List.cons · []) hsingle
    | cons v rest =>
        have hhigh : ¬ (isHighSurrogate (UInt16.ofNat uc) && isLowSurrogate v) = true := by
          rw [Bool.and_eq_true, highSurrogate_iff, hnat]
          omega
        rw [List.singleton_append, codePoints, if_neg hhigh, hsingle]
  · have hhigh : (UInt16.ofNat (0xD7C0 + uc / 1024)).toNat = 0xD7C0 + uc / 1024 :=
      toNat_ofNat_lt16 (by omega)
    have hlow : (UInt16.ofNat (0xDC00 + uc % 1024)).toNat = 0xDC00 + uc % 1024 :=
      toNat_ofNat_lt16 (by omega)
    have hpair : (isHighSurrogate (UInt16.ofNat (0xD7C0 + uc / 1024)) &&
        isLowSurrogate (UInt16.ofNat (0xDC00 + uc % 1024))) = true := by
      rw [Bool.and_eq_true, highSurrogate_iff, lowSurrogate_iff, hhigh, hlow]
      omega
    have hcode : surrogateToUcs4 (UInt16.ofNat (0xD7C0 + uc / 1024))
        (UInt16.ofNat (0xDC00 + uc % 1024)) = uc := by
      unfold surrogateToUcs4
      omega
    rw [List.cons_append, List.singleton_append, codePoints, if_pos hpair, hcode]

theorem codePoints_flatMap {l : List Nat} (h : ∀ uc ∈ l, IsScalar uc) :
    codePoints (l.flatMap utf16) = l := by
  induction l with
  | nil => rfl
  | cons uc l ih =>
      rw [List.forall_mem_cons] at h
      rw [List.flatMap_cons, codePoints_cons h.1, ih h.2]

/-- A scrubbed text has no lone surrogates. -/
theorem scrub_scrub (s : QString) : scrub (scrub s) = scrub s :=
  congrArg (List.flatMap utf16) (codePoints_flatMap (codePoints_scalar s))

/-- **Bytes to text and back.** What was decoded completely is encoded to the same bytes. -/
theorem toUtf8_decode {b : Bytes} {t : QString} (h : decode b = some (t, [])) : toUtf8 t = b := by
  induction hlen : b.length using Nat.strongRecOn generalizing b t with
  | _ k ih =>
      cases b with
      | nil =>
          rw [decode_nil] at h
          cases h
          rfl
      | cons c src =>
          rw [List.length_cons] at hlen
          cases hfront : front c src with
          | error =>
              rw [decode_error hfront] at h
              cases h
          | endOfString =>
              rw [decode_endOfString hfront] at h
              cases h
          | char uc n =>
              rw [decode_char hfront] at h
              obtain ⟨⟨t', r'⟩, hrest, heq⟩ := Option.map_eq_some_iff.mp h
              obtain ⟨rfl, rfl⟩ := Prod.mk.inj heq
              have hrec : toUtf8 t' = src.drop n :=
                ih (src.drop n).length (by rw [List.length_drop]; omega) hrest rfl
              obtain ⟨-, -, -, -, -, hscalar⟩ := front_eq_char.mp hfront
              show (codePoints (utf16 uc ++ t')).flatMap bytesOf = c :: src
              rw [codePoints_cons hscalar, List.flatMap_cons, bytesOf_of_front hfront,
                List.cons_append]
              show c :: (src.take n ++ toUtf8 t') = c :: src
              rw [hrec, List.take_append_drop]

end Utf8

end QtWebApp
