import Mathlib.Data.List.Forall2
import QtWebApp.Parsing.Decoding

/-!
# QtWebApp.Parsing.Parameters

Parameters in the form encoding, from the URL and from the body.

An encoding is a relation (`FormEncoded`), since the same byte may be written in several ways. What
an encoder writes is read by the decoder as by the reference, and the reference undoes it.

The pairs are inserted in the order in which they were sent, the parameters of the URL first.
`insert` on a multimap keeps all of them, so two pairs with one name are both found.
-/

namespace QtWebApp

open Bytes HttpRequest

/-! ### The encoding

An encoder may write a byte in hex although it need not. What it writes never has a byte that
splitting or trimming would take away. -/

/-- The characters that stand for themselves: letters, digits, and `-._~`. -/
def unreserved (c : UInt8) : Bool :=
  (48 ≤ c && c ≤ 57) || (65 ≤ c && c ≤ 90) || (97 ≤ c && c ≤ 122) ||
    c == 45 || c == 46 || c == 95 || c == 126

/-- A text and one of its encodings. -/
inductive FormEncoded : Bytes → Bytes → Prop
  | nil : FormEncoded [] []
  | plain {c : UInt8} {text code : Bytes} (hc : unreserved c = true) (h : FormEncoded text code) :
      FormEncoded (c :: text) (c :: code)
  /-- A blank may be written as `+`. -/
  | blank {text code : Bytes} (h : FormEncoded text code) : FormEncoded (SP :: text) (43 :: code)
  /-- A percent sign and two hex digits, of either case. -/
  | escaped {c hi lo : UInt8} {text code : Bytes} (hhi : digitVal 16 hi = some (c.toNat / 16))
      (hlo : digitVal 16 lo = some (c.toNat % 16)) (h : FormEncoded text code) :
      FormEncoded (c :: text) (37 :: hi :: lo :: code)

/-- A pair of name and value, joined with `=`. -/
inductive PairEncoded : Bytes × Bytes → Bytes → Prop
  | intro {name value nameCode valueCode : Bytes} (hname : FormEncoded name nameCode)
      (hvalue : FormEncoded value valueCode) :
      PairEncoded (name, value) (nameCode ++ 61 :: valueCode)

/-- A list of pairs, joined with `&`. -/
inductive QueryEncoded (pairs : List (Bytes × Bytes)) : Bytes → Prop
  | intro {parts : List Bytes} (h : List.Forall₂ PairEncoded pairs parts) :
      QueryEncoded pairs ([38].intercalate parts)

/-- A byte that neither splitting nor trimming takes away. -/
def Solid (c : UInt8) : Prop := isSpace c = false ∧ c ≠ 38 ∧ c ≠ 61

instance (c : UInt8) : Decidable (Solid c) := by unfold Solid; infer_instance

theorem solid_unreserved {c : UInt8} (h : unreserved c = true) : Solid c ∧ c ≠ 37 ∧ c ≠ 43 := by
  have key : ∀ n < 256, unreserved (UInt8.ofNat n) = true →
      Solid (UInt8.ofNat n) ∧ UInt8.ofNat n ≠ 37 ∧ UInt8.ofNat n ≠ 43 := by decide +kernel
  rw [← UInt8.ofNat_toNat (x := c)] at h ⊢
  exact key c.toNat (UInt8.toNat_lt c) h

theorem solid_digit {c : UInt8} {d : Nat} (h : digitVal 16 c = some d) : Solid c := by
  simp only [digitVal, Solid, isSpace] at h ⊢
  grind

namespace FormEncoded

variable {text code : Bytes}

theorem solid (h : FormEncoded text code) : ∀ c ∈ code, Solid c := by
  induction h with
  | nil => intro c hc; cases hc
  | plain hc _ ih =>
      intro d hd
      rcases List.mem_cons.mp hd with rfl | hd
      · exact (solid_unreserved hc).1
      · exact ih d hd
  | blank _ ih =>
      intro d hd
      rcases List.mem_cons.mp hd with rfl | hd
      · exact ⟨by decide, by decide, by decide⟩
      · exact ih d hd
  | escaped hhi hlo _ ih =>
      intro d hd
      simp only [List.mem_cons] at hd
      rcases hd with rfl | rfl | rfl | hd
      · exact ⟨by decide, by decide, by decide⟩
      · exact solid_digit hhi
      · exact solid_digit hlo
      · exact ih d hd

theorem trimmed_eq (h : FormEncoded text code) : trimmed code = code :=
  trimmed_eq_self (trimmed_of_no_space fun c hc => (h.solid c hc).1)

end FormEncoded

/-! ### Decoding

The reference undoes the encoding, and the decoder agrees with the reference where every percent
sign has two digits behind it. -/

theorem hexByte_digits {hi lo c : UInt8} (hhi : digitVal 16 hi = some (c.toNat / 16))
    (hlo : digitVal 16 lo = some (c.toNat % 16)) : hexByte hi lo = some c := by
  have hvalue : c.toNat / 16 * 16 + c.toNat % 16 = c.toNat := by omega
  rw [hexByte, hhi, Option.bind_some, hlo, Option.map_some, hvalue, UInt8.ofNat_toNat]

theorem FormEncoded.percentDecode_eq {text code : Bytes} (h : FormEncoded text code) :
    percentDecode code = text := by
  induction h with
  | nil => rfl
  | plain hc _ ih =>
      obtain ⟨-, hpercent, hplus⟩ := solid_unreserved hc
      rw [percentDecode, plus, if_neg hplus, ih]
      exact fun _ _ _ heq _ => hpercent heq
  | blank _ ih =>
      rw [percentDecode, plus, if_pos rfl, ih]
      exact fun _ _ _ heq _ => absurd heq (by decide)
  | escaped hhi hlo _ ih => rw [percentDecode, hexByte_digits hhi hlo, ih]

/-- An encoder writes two digits behind every percent sign. -/
theorem FormEncoded.wellRead {text code : Bytes} (h : FormEncoded text code) : WellRead code := by
  induction h with
  | nil => exact wellRead_nil
  | plain hc _ ih => exact wellRead_cons.mpr ⟨fun heq => absurd heq (solid_unreserved hc).2.1, ih⟩
  | blank _ ih => exact wellRead_cons.mpr ⟨fun heq => absurd heq (by decide), ih⟩
  | escaped hhi hlo _ ih => exact (wellRead_escape (hexByte_digits hhi hlo) _).mpr ih

/-- **Decoding undoes the encoding.** -/
theorem FormEncoded.urlDecode_eq {text code : Bytes} (h : FormEncoded text code) :
    urlDecode code = text := by
  rw [urlDecode_eq_pass, (decodePass_eq_iff code).mpr h.wellRead, h.percentDecode_eq]

/-! ### Pairs and lists of pairs

A list is split at `&`, a pair at `=`. Both characters are encoded inside names and values. -/

theorem PairEncoded.noAmpersand {pair : Bytes × Bytes} {part : Bytes} (h : PairEncoded pair part) :
    (38 : UInt8) ∉ part := by
  cases h with
  | intro hname hvalue =>
      intro hmem
      rcases List.mem_append.mp hmem with hmem | hmem
      · exact (hname.solid 38 hmem).2.1 rfl
      · rcases List.mem_cons.mp hmem with heq | hmem
        · exact absurd heq (by decide)
        · exact (hvalue.solid 38 hmem).2.1 rfl

/-- A pair is inserted as it was before the encoding. -/
theorem PairEncoded.insertParameter_eq {pair : Bytes × Bytes} {part : Bytes}
    (h : PairEncoded pair part) (parameters : QMultiMap) :
    insertParameter parameters part = parameters.insert pair.1 pair.2 := by
  cases h with
  | @intro name value nameCode valueCode hname hvalue =>
      have hfree : (61 : UInt8) ∉ nameCode := fun hmem => (hname.solid 61 hmem).2.2 rfl
      have hequals : (nameCode ++ 61 :: valueCode).indexOf [61] 0 = nameCode.length := by
        simp [indexOf, Search.find_singleton hfree]
      have hleft : (nameCode ++ 61 :: valueCode).left nameCode.length = nameCode := by simp [left]
      have hmid : (nameCode ++ 61 :: valueCode).mid (nameCode.length + 1) = valueCode := by
        have hpos : ((nameCode.length : Int) + 1).toNat = nameCode.length + 1 := by omega
        rw [mid, hpos]
        simp
      rw [insertParameter, hequals, if_pos (by omega), hleft, hmid, hname.trimmed_eq,
        hvalue.trimmed_eq, hname.urlDecode_eq, hvalue.urlDecode_eq]

theorem insertParameters_eq {pairs : List (Bytes × Bytes)} {parts : List Bytes}
    (h : List.Forall₂ PairEncoded pairs parts) (parameters : QMultiMap) :
    (parts.foldl insertParameter parameters).entries = pairs.reverse ++ parameters.entries := by
  induction h generalizing parameters with
  | nil => rfl
  | @cons pair part pairs parts hpair h ih =>
      rw [List.foldl_cons, hpair.insertParameter_eq, ih, List.reverse_cons, List.append_assoc]
      rfl

theorem noAmpersand {pairs : List (Bytes × Bytes)} {parts : List Bytes}
    (h : List.Forall₂ PairEncoded pairs parts) : ∀ part ∈ parts, (38 : UInt8) ∉ part := by
  induction h with
  | nil => intro part hmem; cases hmem
  | cons hpair h ih =>
      intro part hmem
      rcases List.mem_cons.mp hmem with rfl | hmem
      · exact hpair.noAmpersand
      · exact ih part hmem

/-- The parts are found again when they were joined; no parts leave an empty text, which inserts
nothing. -/
theorem QueryEncoded.foldl_splitOn {pairs : List (Bytes × Bytes)} {query : Bytes}
    (h : QueryEncoded pairs query) (parameters : QMultiMap) :
    ((query.splitOn 38).foldl insertParameter parameters).entries =
      pairs.reverse ++ parameters.entries := by
  cases h with
  | @intro parts h =>
      by_cases hnil : parts = []
      · subst hnil
        cases h
        rfl
      · rw [List.splitOn_intercalate 38 (noAmpersand h) hnil, insertParameters_eq h]

/-- The text of some pairs is empty only when there are no pairs. -/
theorem QueryEncoded.eq_nil_iff {pairs : List (Bytes × Bytes)} {query : Bytes}
    (h : QueryEncoded pairs query) : query = [] ↔ pairs = [] := by
  cases h with
  | intro h =>
      cases h with
      | nil => exact iff_of_true rfl rfl
      | @cons pair part pairs parts hpair h =>
          cases hpair with
          | @intro name value nameCode valueCode hname hvalue =>
              refine iff_of_false ?_ (List.cons_ne_nil _ _)
              cases parts <;> simp

/-! ### The round trip

The part of the path behind the question mark is a list of pairs, and so is the body of a form. -/

theorem splitQuery_eq {path : Bytes} (hpath : (63 : UInt8) ∉ path) (query : Bytes) :
    splitQuery (path ++ 63 :: query) = (query, path) := by
  have hmark : (path ++ 63 :: query).indexOf [63] 0 = path.length := by
    simp [indexOf, Search.find_singleton hpath]
  have hleft : (path ++ 63 :: query).left path.length = path := by simp [left]
  have hmid : (path ++ 63 :: query).mid (path.length + 1) = query := by
    have hpos : ((path.length : Int) + 1).toNat = path.length + 1 := by omega
    rw [mid, hpos]
    simp
  rw [splitQuery, hmark, if_pos (by omega), hleft, hmid]

/-- Whether there are pairs in the URL, in the body, or in both, all of them are inserted. -/
theorem withBodyParameters_entries {r : HttpRequest} {Q B : List (Bytes × Bytes)} {query : Bytes}
    (hQ : QueryEncoded Q query) (hB : QueryEncoded B r.bodyData)
    (htype : r.headers.value (ascii "content-type") = [] ∨
      (r.headers.value (ascii "content-type")).startsWith
        (ascii "application/x-www-form-urlencoded") = true) :
    (((r.withBodyParameters query).splitOn 38).foldl insertParameter r.parameters).entries =
      (Q ++ B).reverse ++ r.parameters.entries := by
  rw [withBodyParameters, List.reverse_append, List.append_assoc]
  by_cases hbody : r.bodyData = []
  · rw [if_neg fun h => h.1 hbody, hB.eq_nil_iff.mp hbody]
    exact hQ.foldl_splitOn r.parameters
  · rw [if_pos ⟨hbody, htype⟩]
    by_cases hquery : query = []
    · rw [if_neg (not_not_intro hquery), hQ.eq_nil_iff.mp hquery, List.reverse_nil,
        List.append_nil]
      exact hB.foldl_splitOn r.parameters
    · rw [if_pos hquery, List.append_assoc, List.singleton_append, List.splitOn_append_cons_self,
        List.foldl_append, hB.foldl_splitOn, hQ.foldl_splitOn]

/-- **Parameters round trip.** The pairs encoded behind the question mark and those encoded in the
body are inserted in this order, whatever bytes they are made of; what was there before is older. -/
theorem decodeRequestParams_encoded (r : HttpRequest) {path query : Bytes}
    {Q B : List (Bytes × Bytes)} (hpath : (63 : UInt8) ∉ path) (hr : r.path = path ++ 63 :: query)
    (hQ : QueryEncoded Q query) (hB : QueryEncoded B r.bodyData)
    (htype : r.headers.value (ascii "content-type") = [] ∨
      (r.headers.value (ascii "content-type")).startsWith
        (ascii "application/x-www-form-urlencoded") = true) :
    r.decodeRequestParams.path = path ∧
      r.decodeRequestParams.parameters.entries = (Q ++ B).reverse ++ r.parameters.entries ∧
      (∀ name, r.decodeRequestParams.getParameters name =
        (((Q ++ B).filter fun e => e.1 == name).map Prod.snd).reverse ++ r.getParameters name) ∧
      ∀ before name value after, Q ++ B = before ++ (name, value) :: after →
        (∀ e ∈ after, e.1 ≠ name) → r.decodeRequestParams.getParameter name = value := by
  have hdecoded : r.decodeRequestParams =
      { r with
          path := path
          parameters := ((r.withBodyParameters query).splitOn 38).foldl insertParameter
            r.parameters } := by
    rw [decodeRequestParams, hr, splitQuery_eq hpath]
  have hentries : r.decodeRequestParams.parameters.entries =
      (Q ++ B).reverse ++ r.parameters.entries := by
    rw [hdecoded]
    exact withBodyParameters_entries hQ hB htype
  have hvalues : ∀ name, r.decodeRequestParams.getParameters name =
      (((Q ++ B).filter fun e => e.1 == name).map Prod.snd).reverse ++ r.getParameters name := by
    intro name
    rw [getParameters, getParameters, QMultiMap.values, QMultiMap.values, hentries,
      List.filter_append, List.map_append, List.filter_reverse, List.map_reverse]
  refine ⟨by rw [hdecoded], hentries, hvalues, fun before name value after hsplit hlast => ?_⟩
  have hnone : after.filter (fun e => e.1 == name) = [] :=
    List.filter_eq_nil_iff.mpr fun e he => by simpa using hlast e he
  have hnewest := hvalues name
  rw [hsplit, List.filter_append, List.filter_cons_of_pos (by simp), hnone, List.map_append,
    List.reverse_append, List.append_assoc] at hnewest
  exact QMultiMap.value_of_values_cons hnewest

/-- A request for `/a?%26=+%3d` with the body `%26=%00`, as a browser sends it that writes no
`Content-Type`. -/
theorem decodeRequestParams_encoded_nul :
    let r : HttpRequest := { new defaultSettings with
      path := ascii "/a?%26=+%3d"
      bodyData := ascii "%26=%00" }
    r.decodeRequestParams.path = ascii "/a" ∧
      r.decodeRequestParams.getParameters (ascii "&") = [[0], [SP, 61]] := by
  intro r
  have hampersand : FormEncoded (ascii "&") (ascii "%26") :=
    .escaped (by decide) (by decide) .nil
  have hblank : FormEncoded [SP, 61] (ascii "+%3d") :=
    .blank (.escaped (by decide) (by decide) .nil)
  have hnul : FormEncoded [0] (ascii "%00") := .escaped (by decide) (by decide) .nil
  have hQ : QueryEncoded [(ascii "&", [SP, 61])]
      ([38].intercalate [ascii "%26" ++ 61 :: ascii "+%3d"]) :=
    .intro (.cons (.intro hampersand hblank) .nil)
  have hB : QueryEncoded [(ascii "&", [0])] ([38].intercalate [ascii "%26" ++ 61 :: ascii "%00"]) :=
    .intro (.cons (.intro hampersand hnul) .nil)
  have hpath : (63 : UInt8) ∉ ascii "/a" := by decide
  have hdecoded := decodeRequestParams_encoded r hpath rfl hQ hB (.inl rfl)
  exact ⟨hdecoded.1, hdecoded.2.2.1 (ascii "&")⟩

end QtWebApp
