import QtWebApp.Base.Loop
import QtWebApp.HttpServer.HttpRequest

/-!
# QtWebApp.Parsing.Decoding

What `urlDecode` makes of a text, well-formed or not.

The decoder works in one buffer, in which the part before the position of the search is decoded and
the part behind it is not; no decoded byte is looked at again. So it is a pass from left to right
(`decodePass`), whatever the number parser answers. The reference is such a pass, too
(`percentDecode`), which asks for two hex digits. The number parser tolerates a blank or a sign in
front of a single digit, the end of the text, and a NUL behind it (`Misread`), and that is all in
which the two differ.

The loop of the source always goes on to the next percent sign behind the one it has looked at, so
it ends for every text.
-/

namespace QtWebApp

open Bytes

/-- The buffer of `urlDecode` before the loop: plus signs stand for blanks. -/
def plus (c : UInt8) : UInt8 := if c = 43 then SP else c

/-! ### Searching for a byte

`indexOf` for a single byte, from a position on. -/

/-- The search for a byte goes on behind another one. -/
theorem indexOf_skip {c d : UInt8} (hne : d ≠ c) (pre rest : Bytes) :
    (pre ++ d :: rest).indexOf [c] pre.length =
      (pre ++ [d] ++ rest).indexOf [c] (pre ++ [d]).length := by
  have hdrop : (pre ++ d :: rest).drop pre.length = d :: rest := by simp
  have hdrop' : (pre ++ [d] ++ rest).drop (pre ++ [d]).length = rest := by simp
  have hfind : Search.find [c] (d :: rest) = (Search.find [c] rest).map (· + 1) := by
    simp [Search.find, Ne.symm hne]
  rw [indexOf, indexOf, Int.toNat_natCast, Int.toNat_natCast, hdrop, hdrop', hfind]
  cases Search.find [c] rest with
  | none => rfl
  | some i =>
      simp only [Option.map_some, List.length_append, List.length_singleton]
      omega

theorem indexOf_here (c : UInt8) (pre rest : Bytes) :
    (pre ++ c :: rest).indexOf [c] pre.length = pre.length := by
  simp [indexOf, Search.find]

theorem indexOf_end (c : UInt8) (pre : Bytes) : pre.indexOf [c] pre.length = -1 := by
  simp [indexOf, Search.find]

namespace HttpRequest

/-! ### One pass from left to right

The text in front of the position is decoded. The loop finds the next percent sign, replaces three
bytes by one or goes past it. -/

/-- What the loop of `urlDecode` makes of the text behind the position of the search, the first
bytes of which may be gone with an escape. -/
def decodePass : Nat → Bytes → Bytes
  | _, [] => []
  | skip + 1, _ :: cs => decodePass skip cs
  | 0, c :: cs =>
      if c = 37 then
        match toIntOk 16 (cs.take 2) with
        | some byte => UInt8.ofInt byte :: decodePass 2 cs
        | none => c :: decodePass 0 cs
      else c :: decodePass 0 cs

theorem decodePass_skip (skip : Nat) (cs : Bytes) :
    decodePass skip cs = decodePass 0 (cs.drop skip) := by
  induction cs generalizing skip with
  | nil => cases skip <;> rfl
  | cons c cs ih =>
      cases skip with
      | zero => rfl
      | succ skip => exact ih skip

/-- **The invariant of the decoder**: what stands before the position of the search is decoded, and
what stands behind it is still as it was. -/
theorem decode_loop {n : Nat} {rest : Bytes} (hn : rest.length < n) (pre : Bytes) :
    urlDecodeLoop n (pre ++ rest) ((pre ++ rest).indexOf [37] pre.length) =
      pre ++ decodePass 0 rest := by
  -- a percent sign takes one turn of the loop, the search skips the other bytes
  induction n generalizing rest pre with
  | zero => exact absurd hn (Nat.not_lt_zero _)
  | succ n ih =>
      induction rest generalizing pre with
      | nil =>
          rw [List.append_nil, indexOf_end, urlDecodeLoop, if_pos (by decide), decodePass,
            List.append_nil]
      | cons c cs ihcs =>
          rw [List.length_cons] at hn
          by_cases hc : c = 37
          · subst hc
            have hbehind : (pre.length : Int) + 1 = ((pre ++ [37]).length : Nat) := by simp
            -- what stands behind the percent sign
            have hdigits : (pre ++ 37 :: cs).midLen (pre.length + 1) 2 = cs.take 2 := by
              have hpos : ((pre.length : Int) + 1).toNat = pre.length + 1 := by omega
              rw [midLen, hpos]
              simp
            rw [indexOf_here, urlDecodeLoop, if_neg (by omega), decodePass, if_pos rfl, hdigits]
            cases toIntOk 16 (cs.take 2) with
            | none =>
                have hshort : cs.length < n := by omega
                dsimp only
                rw [List.append_cons, hbehind, ih hshort (pre ++ [37]), ← List.append_cons]
            | some byte =>
                have hleft : (pre ++ 37 :: cs).left pre.length = pre := by simp [left]
                have hmid : (pre ++ 37 :: cs).mid (pre.length + 3) = cs.drop 2 := by
                  have hpos : ((pre.length : Int) + 3).toNat = pre.length + 3 := by omega
                  rw [mid, hpos]
                  simp
                have hnext : (pre.length : Int) + 1 =
                    ((pre ++ [UInt8.ofInt byte]).length : Nat) := by simp
                have hshort : (cs.drop 2).length < n := by
                  rw [List.length_drop]
                  omega
                dsimp only
                rw [hleft, hmid, hnext, ih hshort (pre ++ [UInt8.ofInt byte]), decodePass_skip 2,
                  ← List.append_cons]
          · have hshort : cs.length < n + 1 := by omega
            rw [indexOf_skip hc, List.append_cons, ihcs hshort (pre ++ [c]), decodePass, if_neg hc,
              ← List.append_cons]

/-- **`urlDecode` is one pass** over the text in which plus signs are blanks. -/
theorem urlDecode_eq_pass (source : Bytes) : urlDecode source = decodePass 0 (source.map plus) :=
  decode_loop (Nat.lt_succ_self _) []

/-! ### What the number parser takes for a byte

`toInt` with base 16 is made for numbers that people write: it skips blanks, takes a sign, and stops
at a NUL. -/

theorem digitVal_lt {c : UInt8} {d : Nat} (h : digitVal 16 c = some d) : d < 16 := by
  rw [digitVal] at h
  obtain ⟨hlt, heq⟩ := Option.ite_none_right_eq_some.mp h
  exact Option.some.inj heq ▸ hlt

/-- A digit is as large as the parser wants. -/
theorem toIntOk_of_signed {b : Bytes} {n : Int}
    (h : signed 16 ((b.takeWhile (· != 0)).dropWhile isSpace) = some n) (hn : IsInt n) :
    toIntOk 16 b = some n := by
  rw [toIntOk, h]
  simp [Option.filter, hn]

theorem toIntOk_of_signed_none {b : Bytes}
    (h : signed 16 ((b.takeWhile (· != 0)).dropWhile isSpace) = none) : toIntOk 16 b = none := by
  rw [toIntOk, h]
  rfl

theorem numeral_single (c : UInt8) : numeral 16 [c] = digitVal 16 c := by
  cases hd : digitVal 16 c with
  | none => simp [numeral, digitsFrom, hd]
  | some d => simp [numeral, digitsFrom, hd]

theorem signed_minus (cs : Bytes) :
    signed 16 (45 :: cs) = (numeral 16 cs).map fun n : Nat => -(n : Int) := by
  rw [signed]
  cases numeral 16 cs <;> rfl

theorem signed_plus (cs : Bytes) :
    signed 16 (43 :: cs) = (numeral 16 cs).map fun n : Nat => (n : Int) := by
  rw [signed]
  cases numeral 16 cs <;> rfl

theorem signed_digits {c : UInt8} (hc : c ≠ 45 ∧ c ≠ 43) (cs : Bytes) :
    signed 16 (c :: cs) = (numeral 16 (c :: cs)).map fun n : Nat => (n : Int) := by
  unfold signed
  split
  · next heq => exact absurd (List.cons.inj heq).1 hc.1
  · next heq => exact absurd (List.cons.inj heq).1 hc.2
  · cases numeral 16 (c :: cs) <;> rfl

/-- A sign alone is not a number. -/
theorem signed_single (c : UInt8) : signed 16 [c] = (digitVal 16 c).map
    fun d : Nat => (d : Int) := by
  by_cases hminus : c = 45
  · subst hminus
    rfl
  by_cases hplus : c = 43
  · subst hplus
    rfl
  rw [signed_digits ⟨hminus, hplus⟩, numeral_single]

theorem toIntOk_single (c : UInt8) : toIntOk 16 [c] = (digitVal 16 c).map
    fun d : Nat => (d : Int) := by
  cases hd : digitVal 16 c with
  | none =>
      refine toIntOk_of_signed_none ?_
      by_cases hnul : c = 0
      · subst hnul
        rfl
      · by_cases hspace : isSpace c = true
        · simp [hnul, hspace, signed, numeral]
        · simp [hnul, hspace, signed_single, hd]
  | some d =>
      obtain ⟨hnul, hspace, -⟩ := digit_plain (c := c) (by rw [hd]; rfl)
      have hlt := digitVal_lt hd
      have hrange : IsInt (d : Int) := ⟨by omega, by omega⟩
      refine toIntOk_of_signed ?_ hrange
      simp [hnul, hspace, signed_single, hd]

/-- Behind a sign the parser wants digits. -/
theorem toIntOk_sign {a : UInt8} (ha : a ≠ 0 ∧ isSpace a = false) {f : Nat → Int}
    (hf : ∀ d < 16, IsInt (f d)) (hsigned : ∀ cs, signed 16 (a :: cs) = (numeral 16 cs).map f)
    (b : UInt8) : toIntOk 16 [a, b] = (digitVal 16 b).map f := by
  by_cases hnul : b = 0
  · subst hnul
    refine toIntOk_of_signed_none ?_
    simp [ha, hsigned, numeral]
  · cases hd : digitVal 16 b with
    | none =>
        refine toIntOk_of_signed_none ?_
        simp [ha, hnul, hsigned, numeral_single, hd]
    | some d =>
        refine toIntOk_of_signed ?_ (hf d (digitVal_lt hd))
        simp [ha, hnul, hsigned, numeral_single, hd]

/-- Without sign, white space and NUL there have to be two digits. -/
theorem toIntOk_plain {a b : UInt8} (hsign : a ≠ 45 ∧ a ≠ 43) (hspace : isSpace a = false)
    (hb : b ≠ 0) : toIntOk 16 [a, b] =
      (digitVal 16 a).bind fun h => (digitVal 16 b).map fun l => ((h * 16 + l : Nat) : Int) := by
  by_cases hnul : a = 0
  · subst hnul
    rfl
  have htext : ([a, b].takeWhile (· != 0)).dropWhile isSpace = [a, b] := by simp [hnul, hb, hspace]
  have hsigned := signed_digits hsign [b]
  cases hh : digitVal 16 a with
  | none =>
      refine toIntOk_of_signed_none ?_
      rw [htext, hsigned]
      simp [numeral, digitsFrom, hh]
  | some h =>
      cases hl : digitVal 16 b with
      | none =>
          refine toIntOk_of_signed_none ?_
          rw [htext, hsigned]
          simp [numeral, digitsFrom, hh, hl]
      | some l =>
          have hhlt := digitVal_lt hh
          have hllt := digitVal_lt hl
          have hrange : IsInt ((h * 16 + l : Nat) : Int) := ⟨by omega, by omega⟩
          refine toIntOk_of_signed ?_ hrange
          rw [htext, hsigned]
          simp [numeral, digitsFrom, hh, hl]

/-- **Two bytes behind a percent sign**, as the number parser reads them. -/
theorem toIntOk_pair (a b : UInt8) :
    toIntOk 16 [a, b] =
      if isSpace a = true ∨ a = 43 then (digitVal 16 b).map fun d : Nat => (d : Int)
      else if a = 45 then (digitVal 16 b).map fun d : Nat => -(d : Int)
      else if b = 0 then (digitVal 16 a).map fun d : Nat => (d : Int)
      else (digitVal 16 a).bind fun h =>
        (digitVal 16 b).map fun l : Nat => ((h * 16 + l : Nat) : Int) := by
  have hpos : ∀ d : Nat, d < 16 → IsInt (d : Int) := fun d hd => ⟨by omega, by omega⟩
  have hneg : ∀ d : Nat, d < 16 → IsInt (-(d : Int)) := fun d hd => ⟨by omega, by omega⟩
  by_cases hspace : isSpace a = true
  · -- white space is left out
    have hnul : a ≠ 0 := by
      rintro rfl
      cases hspace
    have hskip : toIntOk 16 [a, b] = toIntOk 16 [b] := by
      have hcut : [a, b].takeWhile (· != 0) = a :: [b].takeWhile (· != 0) := by simp [hnul]
      rw [toIntOk, toIntOk, hcut, List.dropWhile_cons, if_pos hspace]
    rw [if_pos (.inl hspace), hskip, toIntOk_single]
  by_cases hplus : a = 43
  · subst hplus
    rw [if_pos (.inr rfl)]
    exact toIntOk_sign ⟨by decide, by decide⟩ hpos signed_plus b
  rw [if_neg (not_or.mpr ⟨hspace, hplus⟩)]
  by_cases hminus : a = 45
  · subst hminus
    rw [if_pos rfl]
    exact toIntOk_sign ⟨by decide, by decide⟩ hneg signed_minus b
  rw [if_neg hminus]
  by_cases hnul : b = 0
  · -- a NUL ends the text
    subst hnul
    have hcut : [a, 0].takeWhile (· != 0) = [a].takeWhile (· != 0) := by simp [List.takeWhile]
    rw [if_pos rfl, ← toIntOk_single, toIntOk, toIntOk, hcut]
  rw [if_neg hnul]
  exact toIntOk_plain ⟨hminus, hplus⟩ (Bool.eq_false_iff.mpr hspace) hnul

/-- A digit, after the plus signs were replaced. -/
theorem digitVal_plus (c : UInt8) : digitVal 16 (plus c) = digitVal 16 c := by
  unfold plus
  split
  · next hc =>
      subst hc
      rfl
  · rfl

/-- A sign or a blank: replacing the plus signs makes no difference to the parser. -/
theorem toIntOk_plus (t : Bytes) : toIntOk 16 ((t.map plus).take 2) = toIntOk 16 (t.take 2) := by
  match t with
  | [] => rfl
  | [a] =>
      show toIntOk 16 [plus a] = toIntOk 16 [a]
      rw [toIntOk_single, toIntOk_single, digitVal_plus]
  | a :: b :: rest =>
      show toIntOk 16 [plus a, plus b] = toIntOk 16 [a, b]
      have hnul : plus b = 0 ↔ b = 0 := by
        unfold plus
        split
        · next hb => exact iff_of_false (by decide) (by rw [hb]; decide)
        · exact Iff.rfl
      simp only [toIntOk_pair, digitVal_plus, hnul]
      by_cases ha : a = 43
      · subst ha
        rfl
      · rw [plus, if_neg ha]

/-! ### The reference decoder

Decoding as it is meant. The two are compared percent sign by percent sign. -/

/-- The byte that two hex digits denote. -/
def hexByte (hi lo : UInt8) : Option UInt8 :=
  (digitVal 16 hi).bind fun h => (digitVal 16 lo).map fun l => UInt8.ofNat (h * 16 + l)

/-- Plus signs are blanks, a percent sign and two hex digits are the byte they denote, and all other
bytes are copied. -/
def percentDecode : Bytes → Bytes
  | 37 :: hi :: lo :: rest =>
      match hexByte hi lo with
      | some c => c :: percentDecode rest
      | none => 37 :: percentDecode (hi :: lo :: rest)
  | c :: rest => plus c :: percentDecode rest
  | [] => []

/-- What stands behind a percent sign is not two hex digits, but the number parser takes it for a
byte: a single digit at the end of the text, behind a blank or a sign, or in front of a NUL. -/
def Misread : Bytes → Prop
  | a :: b :: _ =>
      ((isSpace a = true ∨ a = 43 ∨ a = 45) ∧ (digitVal 16 b).isSome) ∨
        ((digitVal 16 a).isSome ∧ b = 0)
  | [a] => (digitVal 16 a).isSome
  | [] => False

instance Misread.instDecidable : (t : Bytes) → Decidable (Misread t)
  | a :: b :: _ => inferInstanceAs (Decidable
      (((isSpace a = true ∨ a = 43 ∨ a = 45) ∧ (digitVal 16 b).isSome) ∨
        ((digitVal 16 a).isSome ∧ b = 0)))
  | [a] => inferInstanceAs (Decidable ((digitVal 16 a).isSome = true))
  | [] => inferInstanceAs (Decidable False)

/-- No percent sign of a text has such a thing behind it. -/
def WellRead (source : Bytes) : Prop := ∀ t, 37 :: t <:+ source → ¬ Misread t

theorem wellRead_cons {c : UInt8} {t : Bytes} :
    WellRead (c :: t) ↔ (c = 37 → ¬ Misread t) ∧ WellRead t := by
  constructor
  · intro h
    refine ⟨fun hc => h t (by rw [hc]), fun t' ht' => h t' (ht'.trans (List.suffix_cons c t))⟩
  · rintro ⟨hhere, hrest⟩ t' ht'
    rcases List.suffix_cons_iff.mp ht' with heq | hin
    · obtain ⟨rfl, rfl⟩ := List.cons.inj heq
      exact hhere rfl
    · exact hrest t' hin

theorem wellRead_nil : WellRead [] := fun _ ht =>
    absurd (List.suffix_nil.mp ht) (List.cons_ne_nil _ _)

instance WellRead.instDecidable : (source : Bytes) → Decidable (WellRead source)
  | [] => .isTrue wellRead_nil
  | _ :: t => @decidable_of_iff' _ _ wellRead_cons
      (@instDecidableAnd _ _ _ (WellRead.instDecidable t))

/-- A percent sign in the pass. -/
theorem decodePass_percent (t : Bytes) : decodePass 0 ((37 :: t).map plus) =
    match toIntOk 16 (t.take 2) with
    | some byte => UInt8.ofInt byte :: decodePass 0 ((t.drop 2).map plus)
    | none => 37 :: decodePass 0 (t.map plus) := by
  have hpercent : plus 37 = 37 := by decide
  rw [List.map_cons, hpercent, decodePass, if_pos rfl, decodePass_skip 2,
    toIntOk_plus, List.map_drop]

/-- Two hex digits are read as the byte they denote, and not misread. -/
theorem toIntOk_hexByte {hi lo c : UInt8} (h : hexByte hi lo = some c) (rest : Bytes) :
    (∃ byte, toIntOk 16 [hi, lo] = some byte ∧ UInt8.ofInt byte = c) ∧
      ¬ Misread (hi :: lo :: rest) := by
  obtain ⟨v, hhi, htail⟩ := Option.bind_eq_some_iff.mp h
  obtain ⟨w, hlo, rfl⟩ := Option.map_eq_some_iff.mp htail
  obtain ⟨-, hspace, hplus, hminus, -⟩ := digit_plain (c := hi) (by rw [hhi]; rfl)
  obtain ⟨hnul, -⟩ := digit_plain (c := lo) (by rw [hlo]; rfl)
  refine ⟨⟨((v * 16 + w : Nat) : Int), ?_, ?_⟩, ?_⟩
  · rw [toIntOk_plain ⟨hminus, hplus⟩ hspace hnul, hhi, hlo]
    rfl
  · have hhlt := digitVal_lt hhi
    have hllt := digitVal_lt hlo
    have hrange : (((v * 16 + w : Nat) : Int) % 2 ^ 8).toNat = v * 16 + w := by omega
    rw [UInt8.ofInt, hrange]
  · rintro (⟨hsign, -⟩ | ⟨-, hzero⟩)
    · rcases hsign with hsign | hsign | hsign
      · exact absurd (hsign.symm.trans hspace) (by decide)
      · exact hplus hsign
      · exact hminus hsign
    · exact hnul hzero

theorem small_byte {d : Nat} (hd : d < 16) : UInt8.ofInt d ≠ 37 ∧ UInt8.ofInt (-d) ≠ 37 := by
  have key : ∀ d < 16, UInt8.ofInt (d : Nat) ≠ 37 ∧ UInt8.ofInt (-(d : Nat)) ≠ 37 := by decide
  exact key d hd

/-- What is misread is a small number, or the negative of one. -/
theorem toIntOk_misread {t : Bytes} (h : Misread t) :
    ∃ byte, toIntOk 16 (t.take 2) = some byte ∧ UInt8.ofInt byte ≠ 37 := by
  match t with
  | [] => exact absurd h id
  | [a] =>
      obtain ⟨d, hd⟩ := Option.isSome_iff_exists.mp h
      refine ⟨d, ?_, (small_byte (digitVal_lt hd)).1⟩
      show toIntOk 16 [a] = some (d : Int)
      rw [toIntOk_single, hd]
      rfl
  | a :: b :: rest =>
      show ∃ byte, toIntOk 16 [a, b] = some byte ∧ UInt8.ofInt byte ≠ 37
      rw [toIntOk_pair]
      rcases h with ⟨hsign, hdigit⟩ | ⟨hdigit, rfl⟩
      · obtain ⟨d, hd⟩ := Option.isSome_iff_exists.mp hdigit
        have hsmall := small_byte (digitVal_lt hd)
        rw [hd]
        by_cases hblank : isSpace a = true ∨ a = 43
        · exact ⟨d, if_pos hblank, hsmall.1⟩
        · have hminus : a = 45 := by
            rcases hsign with hsign | hsign | hsign
            · exact absurd (.inl hsign) hblank
            · exact absurd (.inr hsign) hblank
            · exact hsign
          exact ⟨-d, (if_neg hblank).trans (if_pos hminus), hsmall.2⟩
      · obtain ⟨d, hd⟩ := Option.isSome_iff_exists.mp hdigit
        obtain ⟨-, hspace, hplus, hminus, -⟩ := digit_plain hdigit
        refine ⟨d, ?_, (small_byte (digitVal_lt hd)).1⟩
        rw [if_neg (not_or.mpr ⟨Bool.eq_false_iff.mp hspace, hplus⟩), if_neg hminus, if_pos rfl, hd]
        rfl

/-- All else is no number. -/
theorem toIntOk_malformed {t : Bytes} (hmisread : ¬ Misread t)
    (hdigits : ∀ hi lo rest, t = hi :: lo :: rest → hexByte hi lo = none) :
    toIntOk 16 (t.take 2) = none := by
  match t with
  | [] => rfl
  | [a] =>
      have hnone : digitVal 16 a = none := Option.not_isSome_iff_eq_none.mp hmisread
      show toIntOk 16 [a] = none
      rw [toIntOk_single, hnone]
      rfl
  | a :: b :: rest =>
      have hbyte := hdigits a b rest rfl
      have hnone : ∀ c : UInt8, ¬ (digitVal 16 c).isSome → digitVal 16 c = none :=
        fun c hc => Option.not_isSome_iff_eq_none.mp hc
      obtain ⟨hsign, hnul⟩ := not_or.mp hmisread
      show toIntOk 16 [a, b] = none
      rw [toIntOk_pair]
      by_cases hblank : isSpace a = true ∨ a = 43
      · have hb := hnone b fun hb => hsign ⟨hblank.imp id .inl, hb⟩
        rw [if_pos hblank, hb]
        rfl
      rw [if_neg hblank]
      by_cases hminus : a = 45
      · have hb := hnone b fun hb => hsign ⟨.inr (.inr hminus), hb⟩
        rw [if_pos hminus, hb]
        rfl
      rw [if_neg hminus]
      by_cases hzero : b = 0
      · have ha := hnone a fun ha => hnul ⟨ha, hzero⟩
        rw [if_pos hzero, ha]
        rfl
      rw [if_neg hzero]
      unfold hexByte at hbyte
      cases ha : digitVal 16 a with
      | none => rfl
      | some h =>
          rw [ha, Option.bind_some, Option.map_eq_none_iff] at hbyte
          rw [Option.bind_some, hbyte]
          rfl

/-- Neither of two hex digits is a percent sign. -/
theorem wellRead_escape {hi lo c : UInt8} (h : hexByte hi lo = some c) (rest : Bytes) :
    WellRead (37 :: hi :: lo :: rest) ↔ WellRead rest := by
  obtain ⟨-, hread⟩ := toIntOk_hexByte h rest
  have hhi : hi ≠ 37 := by
    rintro rfl
    cases h
  have hlo : lo ≠ 37 := by
    rintro rfl
    obtain ⟨v, -, hnone⟩ := Option.bind_eq_some_iff.mp h
    cases hnone
  simp only [wellRead_cons, hread, hhi, hlo, false_implies, true_and,
    not_false_eq_true, implies_true]

/-- A percent sign without two hex digits: the two differ at it, or behind it. -/
theorem decodePass_malformed {t : Bytes}
    (hdigits : ∀ hi lo rest, t = hi :: lo :: rest → hexByte hi lo = none)
    (ih : decodePass 0 (t.map plus) = percentDecode t ↔ WellRead t) :
    decodePass 0 ((37 :: t).map plus) = 37 :: percentDecode t ↔ WellRead (37 :: t) := by
  rw [decodePass_percent, wellRead_cons]
  by_cases hmisread : Misread t
  · obtain ⟨byte, hbyte, hne⟩ := toIntOk_misread hmisread
    rw [hbyte]
    exact iff_of_false (fun heq => hne (List.cons.inj heq).1) fun hread => hread.1 rfl hmisread
  · rw [toIntOk_malformed hmisread hdigits]
    simp only [List.cons.injEq, true_and, ih, hmisread, not_false_eq_true, implies_true]

/-- **The decoder and the reference differ** exactly where the number parser is more tolerant. -/
theorem decodePass_eq_iff (source : Bytes) :
    decodePass 0 (source.map plus) = percentDecode source ↔ WellRead source := by
  fun_induction percentDecode source with
  | case1 hi lo rest c hbyte ih =>
      obtain ⟨⟨byte, hparsed, rfl⟩, -⟩ := toIntOk_hexByte hbyte rest
      have hdigits : (hi :: lo :: rest).take 2 = [hi, lo] := rfl
      rw [decodePass_percent, hdigits, hparsed, wellRead_escape hbyte]
      simp only [List.cons.injEq, true_and]
      exact ih
  | case2 hi lo rest hbyte ih =>
      refine decodePass_malformed (fun hi' lo' rest' heq => ?_) ih
      cases heq
      exact hbyte
  | case3 c rest hother ih =>
      by_cases hc : c = 37
      · subst hc
        exact decodePass_malformed (fun hi lo rest' heq => absurd heq (hother hi lo rest' rfl)) ih
      · have hplus : plus c ≠ 37 := by
          unfold plus
          split
          · decide
          · exact hc
        rw [List.map_cons, decodePass, if_neg hplus, wellRead_cons]
        simp only [List.cons.injEq, true_and, hc, false_implies]
        exact ih
  | case4 => exact iff_of_true rfl wellRead_nil

/-! ### The loop ends

Each turn moves on in the text or makes it shorter. -/

/-- One turn of the loop over the percent signs of a text. -/
def decodeTurn (s : Bytes × Int) : Option (Turn (Bytes × Int)) :=
  if s.2 < 0 then some (.leave s)
  else
    let buffer : Bytes := match toIntOk 16 (s.1.midLen (s.2 + 1) 2) with
      | some byte => s.1.left s.2 ++ [UInt8.ofInt byte] ++ s.1.mid (s.2 + 3)
      | none => s.1
    some (.again (buffer, buffer.indexOf [37] (s.2 + 1)))

/-- What is found is in the text, behind the start of the search. -/
theorem indexOf_byte_bounds (b : Bytes) (c : UInt8) (start : Int) (hstart : 0 ≤ start) :
    b.indexOf [c] start < 0 ∨ (start ≤ b.indexOf [c] start ∧ b.indexOf [c] start < b.length) := by
  unfold indexOf
  cases hfound : Search.find [c] (b.drop start.toNat) with
  | none => exact .inl (Int.negSucc_lt_zero 0)
  | some i =>
      have hlt : i < (b.drop start.toNat).length := by
        generalize b.drop start.toNat = tail at hfound
        induction tail generalizing i with
        | nil => simp [Search.find] at hfound
        | cons d tail ih =>
            unfold Search.find at hfound
            split at hfound
            · obtain rfl := Option.some.inj hfound
              exact Nat.zero_lt_succ _
            · obtain ⟨j, hj, rfl⟩ := Option.map_eq_some_iff.mp hfound
              exact Nat.succ_lt_succ (ih j hj)
      rw [List.length_drop] at hlt
      dsimp only
      omega

/-- **The loop of `urlDecode` ends**: the search goes on behind the last percent sign in a text that
does not get longer. -/
theorem decode_ends (n : Nat) {buffer : Bytes} {percentChar : Int} (hn : 0 < n)
    (hin : percentChar < buffer.length)
    (hfuel : 0 ≤ percentChar → buffer.length - percentChar < n) :
    ∃ stop, Loop.Ends (fun _ => decodeTurn) (buffer, percentChar)
      (urlDecodeLoop n buffer percentChar, stop) := by
  have hmono := Loop.mono_const decodeTurn
  induction n generalizing buffer percentChar with
  | zero => exact absurd hn (Nat.lt_irrefl 0)
  | succ n ih =>
      by_cases hnone : percentChar < 0
      · rw [urlDecodeLoop, if_pos hnone]
        exact ⟨percentChar, .leave (k := 0) hmono (if_pos hnone)⟩
      · have hleft := hfuel (Int.not_lt.mp hnone)
        obtain ⟨next, hlen, hturn, hloop⟩ : ∃ next : Bytes, next.length ≤ buffer.length ∧
            decodeTurn (buffer, percentChar) =
              some (.again (next, next.indexOf [37] (percentChar + 1))) ∧
            urlDecodeLoop (n + 1) buffer percentChar =
              urlDecodeLoop n next (next.indexOf [37] (percentChar + 1)) := by
          rw [decodeTurn, if_neg hnone, urlDecodeLoop, if_neg hnone]
          cases toIntOk 16 (buffer.midLen (percentChar + 1) 2) with
          | none => exact ⟨buffer, Nat.le_refl _, rfl, rfl⟩
          | some byte =>
              refine ⟨_, ?_, rfl, rfl⟩
              simp only [left, mid, List.length_append, List.length_take, List.length_drop,
                List.length_singleton]
              omega
        have hbounds := indexOf_byte_bounds next 37 (percentChar + 1) (by omega)
        obtain ⟨stop, hends⟩ := @ih next (next.indexOf [37] (percentChar + 1)) (by omega) (by omega)
          (by omega)
        rw [hloop]
        exact ⟨stop, .again (k := 0) hmono hturn hends⟩

theorem urlDecode_ends (source : Bytes) :
    ∃ stop, Loop.Ends (fun _ => decodeTurn) (source.map plus, indexOf (source.map plus) [37] 0)
      (urlDecode source, stop) := by
  have hbounds := indexOf_byte_bounds (source.map plus) 37 0 (Int.le_refl 0)
  exact decode_ends ((source.map plus).length + 1) (Nat.zero_lt_succ _) (by omega) (by omega)

/-! ### Every text

What the passes say, for the function of the source. -/

/-- **`urlDecode` and the reference**: for every text the loop ends, and its result is that of the
reference exactly when no percent sign has something behind it that is misread. -/
theorem urlDecode_eq_iff (source : Bytes) :
    (∃ stop, Loop.Ends (fun _ => decodeTurn) (source.map plus, indexOf (source.map plus) [37] 0)
      (urlDecode source, stop)) ∧ (urlDecode source = percentDecode source ↔ WellRead source) := by
  refine ⟨urlDecode_ends source, ?_⟩
  rw [urlDecode_eq_pass]
  exact decodePass_eq_iff source

/-- Percent signs without digits are copied, and no decoded one is looked at again. -/
example : WellRead (ascii "100%, %zz %2541+%") ∧
    urlDecode (ascii "100%, %zz %2541+%") = ascii "100%, %zz %41 %" := by decide

/-- **Escapes with one digit are decoded**: at the end of the text, behind a minus sign, and behind
a plus sign, which is a blank by then. -/
theorem not_urlDecode_eq :
    urlDecode (ascii "100%4") = ascii "100" ++ [4] ∧ urlDecode (ascii "%-1") = [255] ∧
      urlDecode (ascii "%+5") = [5] ∧ ¬ ∀ source, urlDecode source = percentDecode source := by
  refine ⟨by decide, by decide, by decide, fun hall => ?_⟩
  exact absurd (hall (ascii "100%4")) (by decide)

end HttpRequest

end QtWebApp
