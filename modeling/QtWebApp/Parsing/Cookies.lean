import Mathlib.Data.List.Forall2
import QtWebApp.HttpServer.HttpRequest

/-!
# QtWebApp.Parsing.Cookies

**Cookie texts.** `splitCSV` drops the double quotes while it looks for semicolons. What it
makes of a text is described from the other side: `Scanned code text` says that the scanner
takes the bytes `code` and keeps `text` of them, `splitCSV_joined` is its answer on codes
joined with semicolons.

A `Cookie` header and the text of a `Set-Cookie` header are both such joined codes, so the
parsing of requests and the round trip of `HttpCookie` rest on the same lemma.

For `HttpCookie` the round trip goes wrong in one place: a flag stands in the text without `=`, and
the reader takes such a part for a value without a name.
-/

namespace QtWebApp

open Bytes

namespace HttpCookie

/-! ### The scanner

What is scanned is a list of pieces, plain or in quotes. The scanner is in its initial state between
any two of them. -/

/-- Outside quotes the scanner takes `code` and keeps `text` of it, whatever follows. -/
def Scanned (code text : Bytes) : Prop :=
  ∀ rest buffer list, splitCSVLoop (code ++ rest) false buffer list =
    splitCSVLoop rest false (buffer ++ text) list

theorem Scanned.append {code text code' text' : Bytes} (h : Scanned code text)
    (h' : Scanned code' text') : Scanned (code ++ code') (text ++ text') := by
  intro rest buffer list
  rw [List.append_assoc, h, h', List.append_assoc]

/-- Text without quotes and semicolons is kept. -/
theorem scanned_plain {code : Bytes} (hquote : 34 ∉ code) (hsemi : 59 ∉ code) :
    Scanned code code := by
  intro rest buffer list
  induction code generalizing buffer with
  | nil => simp
  | cons c cs ih =>
      have hc : c ≠ 34 ∧ c ≠ 59 := ⟨fun e => hquote (by simp [e]), fun e => hsemi (by simp [e])⟩
      rw [List.cons_append, splitCSVLoop, if_neg hc.1, if_neg hc.2,
        ih (fun h => hquote (List.mem_cons_of_mem c h)) (fun h => hsemi (List.mem_cons_of_mem c h)),
        List.append_assoc, List.singleton_append]

/-- Inside quotes everything is kept up to the closing one. -/
theorem splitCSVLoop_quoted {code : Bytes} (hquote : 34 ∉ code) (rest buffer : Bytes)
    (list : List Bytes) : splitCSVLoop (code ++ 34 :: rest) true buffer list =
      splitCSVLoop rest false (buffer ++ code) list := by
  induction code generalizing buffer with
  | nil => simp [splitCSVLoop]
  | cons c cs ih =>
      have hc : c ≠ 34 := fun e => hquote (by simp [e])
      rw [List.cons_append, splitCSVLoop, if_neg hc,
        ih (fun h => hquote (List.mem_cons_of_mem c h)), List.append_assoc, List.singleton_append]

/-- Quoted text is kept without its quotes, semicolons included. -/
theorem scanned_quoted {text : Bytes} (hquote : 34 ∉ text) : Scanned (34 :: text ++ [34]) text := by
  intro rest buffer list
  rw [List.cons_append, List.cons_append, splitCSVLoop, if_pos rfl, List.append_assoc,
    List.singleton_append, splitCSVLoop_quoted hquote]

/-- **Codes joined with semicolons are split again**, and empty parts are left out. -/
theorem splitCSV_joined {codes texts : List Bytes} (h : List.Forall₂ Scanned codes texts) :
    splitCSV ([59].intercalate codes) = (texts.map trimmed).filter (· ≠ []) := by
  have hend : ∀ (buffer : Bytes) (list : List Bytes),
      (if trimmed buffer = [] then list else list ++ [trimmed buffer]) =
        list ++ [trimmed buffer].filter (· ≠ []) := by
    intro buffer list
    by_cases hnil : trimmed buffer = [] <;> simp [hnil]
  suffices hloop : ∀ list, splitCSVLoop ([59].intercalate codes) false [] list =
      list ++ (texts.map trimmed).filter (· ≠ []) from hloop []
  induction h with
  | nil => intro list; simp [List.intercalate, splitCSVLoop, trimmed]
  | @cons code text codes texts hcode htexts ih =>
      intro list
      cases htexts with
      | nil =>
          have hscan := hcode [] [] list
          rw [List.append_nil, List.nil_append] at hscan
          rw [List.intercalate_singleton, hscan, splitCSVLoop, hend]
          rfl
      | cons hcode' hrest =>
          -- the semicolon ends the part, and the scanner starts the next one afresh
          rw [List.intercalate_cons_cons, List.append_assoc, hcode, List.nil_append,
            List.singleton_append, splitCSVLoop, if_neg (by decide), if_pos rfl, hend, ih,
            List.append_assoc, ← List.filter_append, List.singleton_append]
          rfl

/-! ### One part

A part is cut at the first `=`, and both sides are trimmed. Without one it is all value. -/

/-- A part with a name in front of the first `=`. -/
theorem splitPair_pair {name value : Bytes} (hne : name ≠ []) (hname : Trimmed name)
    (hequals : 61 ∉ name) (hvalue : Trimmed value) :
    splitPair (name ++ 61 :: value) = (name, value) := by
  have hlen : 0 < name.length := List.length_pos_of_ne_nil hne
  have hposi : (name ++ 61 :: value).indexOf [61] 0 = name.length := by
    simp [indexOf, Search.find_singleton hequals]
  have hleft : (name ++ 61 :: value).left name.length = name := by simp [left]
  have hmid : (name ++ 61 :: value).mid (name.length + 1) = value := by
    have hnat : ((name.length : Int) + 1).toNat = name.length + 1 := by omega
    simp [mid, hnat]
  unfold splitPair
  rw [hposi]
  simp only [ne_eq, show (name.length : Int) ≠ 0 by omega, not_false_eq_true, if_true, hleft, hmid,
    trimmed_eq_self hname, trimmed_eq_self hvalue]

/-- A part without `=` is taken for a value. -/
theorem splitPair_flag {part : Bytes} (hequals : 61 ∉ part) :
    splitPair part = ([], trimmed part) := by
  have hposi : part.indexOf [61] 0 = -1 := by
    simp [indexOf, Search.find_absent hequals]
  unfold splitPair
  rw [hposi]
  simp [left, mid, trimmed]

theorem trimmed_pair {name value : Bytes} (hne : name ≠ []) (hname : Trimmed name)
    (hvalue : Trimmed value) : Trimmed (name ++ 61 :: value) := by
  refine ⟨?_, ?_⟩
  · rw [List.head?_append_of_ne_nil name hne]
    exact hname.1
  · intro c hc
    rw [List.getLast?_append_of_ne_nil name (by simp)] at hc
    cases value with
    | nil => simp at hc; subst hc; rfl
    | cons d ds => exact hvalue.2 c (by simpa using hc)

/-! ### Cookies of a request

A later cookie of the same name replaces the earlier one, since the map has one value for each
name. -/

/-- White space only. -/
def Blank (b : Bytes) : Prop := ∀ c ∈ b, isSpace c = true

instance (b : Bytes) : Decidable (Blank b) := decidableForallMem b _

/-- A cookie that can be written into a `Cookie` header. -/
structure Writable (c : Bytes × Bytes) : Prop where
  name_ne : c.1 ≠ []
  name_trimmed : Trimmed c.1
  no_equals : 61 ∉ c.1
  no_semicolon : 59 ∉ c.1
  no_quote : 34 ∉ c.1
  value_trimmed : Trimmed c.2
  value_no_quote : 34 ∉ c.2

/-- What may stand between the semicolons for a cookie: the value plain or in quotes, and white
space around it all. A quoted value may have semicolons. -/
inductive Written : Bytes × Bytes → Bytes → Prop
  | plain {l r name value : Bytes} (hl : Blank l) (hr : Blank r) (hvalue : 59 ∉ value) :
      Written (name, value) (l ++ (name ++ 61 :: value) ++ r)
  | quoted {l r name value : Bytes} (hl : Blank l) (hr : Blank r) :
      Written (name, value) (l ++ (name ++ 61 :: (34 :: value ++ [34])) ++ r)

theorem scanned_blank {b : Bytes} (h : Blank b) : Scanned b b :=
  scanned_plain (fun hmem => absurd (h 34 hmem) (by decide)) fun hmem =>
    absurd (h 59 hmem) (by decide)

/-- However a cookie is written, the scanner keeps its name and its value. -/
theorem Written.scanned {c : Bytes × Bytes} {code : Bytes} (hc : Writable c) (h : Written c code) :
    ∃ text, Scanned code text ∧ trimmed text = c.1 ++ 61 :: c.2 := by
  have htrimmed := trimmed_pair hc.name_ne hc.name_trimmed hc.value_trimmed
  have hname : Scanned (c.1 ++ [61]) (c.1 ++ [61]) := by
    refine scanned_plain ?_ ?_
    · simpa using hc.no_quote
    · simpa using hc.no_semicolon
  cases h with
  | @plain l r name value hl hr hvalue =>
      have hpair := hname.append (scanned_plain hc.value_no_quote hvalue)
      simp only [List.append_assoc, List.singleton_append] at hpair
      exact ⟨_, ((scanned_blank hl).append hpair).append (scanned_blank hr),
        trimmed_pad hl htrimmed hr⟩
  | @quoted l r name value hl hr =>
      have hpair := hname.append (scanned_quoted hc.value_no_quote)
      simp only [List.append_assoc, List.singleton_append] at hpair
      exact ⟨_, ((scanned_blank hl).append hpair).append (scanned_blank hr),
        trimmed_pad hl htrimmed hr⟩

/-- The parts of a `Cookie` header are its cookies. -/
theorem splitCSV_written {cookies : List (Bytes × Bytes)} {codes : List Bytes}
    (hc : ∀ c ∈ cookies, Writable c) (hw : List.Forall₂ Written cookies codes) :
    splitCSV ([59].intercalate codes) = cookies.map fun c => c.1 ++ 61 :: c.2 := by
  obtain ⟨texts, hscan, htexts⟩ : ∃ texts, List.Forall₂ Scanned codes texts ∧
      texts.map trimmed = cookies.map fun c => c.1 ++ 61 :: c.2 := by
    induction hw with
    | nil => exact ⟨[], .nil, rfl⟩
    | cons hhead htail ih =>
        obtain ⟨text, hscan, htext⟩ := hhead.scanned (hc _ List.mem_cons_self)
        obtain ⟨texts, hscans, htexts⟩ := ih fun c hmem => hc c (List.mem_cons_of_mem _ hmem)
        exact ⟨text :: texts, .cons hscan hscans, by simp [htext, htexts]⟩
  rw [splitCSV_joined hscan, htexts, List.filter_eq_self]
  intro part hpart
  obtain ⟨c, -, rfl⟩ := List.mem_map.mp hpart
  simp

end HttpCookie

/-- The value that the last of the cookies of a name has. -/
def lastValue (cookies : List (Bytes × Bytes)) (name : Bytes) : Option Bytes :=
  ((cookies.filter fun c => c.1 == name).getLast?).map Prod.snd

/-- Inserting cookies one after the other leaves the last value of every name. -/
theorem insert_cookies (cookies : List (Bytes × Bytes)) (m : QMap Bytes) (name : Bytes) :
    (cookies.foldl (fun m c => m.insert c.1 c.2) m)[name]? =
      (lastValue cookies name).or m[name]? := by
  induction cookies using List.reverseRecOn with
  | nil => simp [lastValue]
  | append_singleton cookies c ih =>
      rw [List.foldl_append, List.foldl_cons, List.foldl_nil, Std.ExtTreeMap.getElem?_insert, ih]
      by_cases hname : c.1 = name
      · simp [lastValue, List.filter_append, hname]
      · have hcompare : ¬ compare c.1 name = .eq := fun h => hname (Std.LawfulEqCmp.eq_of_compare h)
        simp [lastValue, List.filter_append, hname, hcompare]

namespace HttpRequest

open HttpCookie

/-- **The cookies of a request.** However the cookies are written into the `Cookie` header, each
name gets the value of its last occurrence, and of the headers only that one goes. -/
theorem extractCookies_written (r : HttpRequest) {cookies : List (Bytes × Bytes)}
    {codes : List Bytes} (hc : ∀ c ∈ cookies, Writable c) (hw : List.Forall₂ Written cookies codes)
    (hheader : r.headers.values (ascii "cookie") = [[59].intercalate codes]) :
    (∀ name, r.extractCookies.cookies[name]? = (lastValue cookies name).or r.cookies[name]?) ∧
    r.extractCookies.headers.values (ascii "cookie") = [] ∧
    ∀ name, name ≠ ascii "cookie" → r.extractCookies.headers.values name =
      r.headers.values name := by
  refine ⟨fun name => ?_, ?_, fun name hname => ?_⟩
  · have hpairs : cookies.map (fun c => HttpCookie.splitPair (c.1 ++ 61 :: c.2)) = cookies := by
      refine (List.map_congr_left fun c hmem => ?_).trans (List.map_id cookies)
      have h := hc c hmem
      exact splitPair_pair h.name_ne h.name_trimmed h.no_equals h.value_trimmed
    rw [extractCookies, hheader, List.flatMap_singleton, splitCSV_written hc hw, ← insert_cookies]
    conv_rhs => rw [← hpairs]
    rw [List.foldl_map, List.foldl_map]
  · exact QMultiMap.values_remove_self _ _
  · exact QMultiMap.values_remove_of_ne _ hname

/-- A repeated name, an empty value, and a quoted value with a semicolon and an equals sign in
it. -/
theorem extractCookies_written_three :
    let r := (HttpRequest.new defaultSettings).headerField
      (ascii "Cookie: a=1; b=\"x;y=\" ;a=") 6
    r.extractCookies.cookies[ascii "a"]? = some [] ∧
      r.extractCookies.cookies[ascii "b"]? = some (ascii "x;y=") ∧
      r.extractCookies.headers.values (ascii "cookie") = [] := by
  intro r
  have h := @extractCookies_written r
    [(ascii "a", ascii "1"), (ascii "b", ascii "x;y="), (ascii "a", [])]
    [ascii "a=1", ascii " b=\"x;y=\" ", ascii "a="]
    (by
      intro c hc
      simp only [List.mem_cons, List.not_mem_nil, or_false] at hc
      rcases hc with rfl | rfl | rfl
        <;> exact ⟨by decide, by decide, by decide, by decide, by decide,
        by decide, by decide⟩)
    (.cons (.plain (l := []) (r := []) (by decide) (by decide) (by decide))
      (.cons (.quoted (l := [32]) (r := [32]) (by decide) (by decide))
        (.cons (.plain (l := []) (r := []) (by decide) (by decide) (by decide)) .nil)))
    (by decide)
  refine ⟨?_, ?_, h.2.1⟩
  · rw [h.1, show lastValue _ (ascii "a") = some [] by decide]
    rfl
  · rw [h.1, show lastValue _ (ascii "b") = some (ascii "x;y=") by decide]
    rfl

end HttpRequest

namespace HttpCookie

/-! ### The text of a cookie

The writer leaves out what is empty or 0, and it escapes nothing. So the texts have to be free of
the characters that it uses itself. -/

/-- The names that `setField` knows. -/
def attributeNames : List Bytes :=
  [ascii "Comment", ascii "Domain", ascii "Max-Age", ascii "Path", ascii "Secure", ascii "HttpOnly",
    ascii "Version"]

/-- A text that can stand in a cookie as it is. -/
def PlainText (b : Bytes) : Prop := Trimmed b ∧ 59 ∉ b ∧ 34 ∉ b

instance (b : Bytes) : Decidable (PlainText b) :=
  inferInstanceAs (Decidable (Trimmed b ∧ 59 ∉ b ∧ 34 ∉ b))

/-- A cookie of the constructor with all attributes whose texts can be written. -/
structure Printable (c : HttpCookie) : Prop where
  built : c = .new c.name c.value c.maxAge c.path c.comment c.domain c.secure c.httpOnly
  maxAge_isInt : IsInt c.maxAge
  name_ne : c.name ≠ []
  no_equals : 61 ∉ c.name
  name_plain : PlainText c.name
  name_free : c.name ∉ attributeNames
  value_plain : PlainText c.value
  comment_plain : PlainText c.comment
  domain_plain : PlainText c.domain
  path_plain : PlainText c.path

/-- A part of a cookie text with a name, left out when the value is empty. -/
def optionalPart (name value : Bytes) : List Bytes :=
  if value = [] then [] else [name ++ 61 :: value]

/-- The age as it is written; 0 stands for no age. -/
def ageText (maxAge : Int) : Bytes := if maxAge = 0 then [] else number maxAge

/-- The parts that follow name and value in the text of a cookie. -/
def attributes (c : HttpCookie) : List Bytes :=
  optionalPart (ascii "Comment") c.comment ++ optionalPart (ascii "Domain") c.domain
    ++ optionalPart (ascii "Max-Age") (ageText c.maxAge)
    ++ optionalPart (ascii "Path") c.path ++ (if c.secure then [ascii "Secure"] else [])
    ++ (if c.httpOnly then [ascii "HttpOnly"] else [])
    ++ optionalPart (ascii "Version") (number c.version)

theorem number_ne_nil (n : Int) : number n ≠ [] := by
  have hdigits : digitBytes 10 n.natAbs ≠ [] :=
    numeral_ne_nil (numeral_digitBytes (by omega) (by omega) n.natAbs)
  unfold number
  split <;> simp [hdigits]

theorem number_plainText (n : Int) : PlainText (number n) := by
  have hbytes : ∀ c ∈ number n, isSpace c = false ∧ c ≠ 59 ∧ c ≠ 34 := by
    intro c hc
    rcases number_bytes n c hc with rfl | ⟨hge, hle⟩
    · decide
    · have hge' : 48 ≤ c.toNat := hge
      have hle' : c.toNat ≤ 57 := hle
      have hne : ∀ d : UInt8, d.toNat < 48 ∨ 57 < d.toNat → c ≠ d := fun d hd e => by subst e; omega
      refine ⟨?_, hne 59 (by decide), hne 34 (by decide)⟩
      simp [isSpace, hne 32 (by decide), UInt8.le_iff_toNat_le]
      omega
  exact ⟨trimmed_of_no_space fun c hc => (hbytes c hc).1, fun hc => (hbytes 59 hc).2.1 rfl,
    fun hc => (hbytes 34 hc).2.2 rfl⟩

theorem ageText_eq_nil {n : Int} : ageText n = [] ↔ n = 0 := by
  unfold ageText
  split <;> simp_all [number_ne_nil]

theorem ageText_plain (n : Int) : PlainText (ageText n) := by
  unfold ageText
  split
  · decide
  · exact number_plainText n

theorem toInt_ageText {n : Int} (h : IsInt n) (hne : ageText n ≠ []) : toInt (ageText n) = n := by
  rw [ageText, if_neg fun hzero => hne (ageText_eq_nil.mpr hzero), toInt_number h]

/-- A cookie text is its name and value and its attributes, joined with semicolons. -/
theorem toByteArray_joined (c : HttpCookie) :
    c.toByteArray =
      [59].intercalate ((c.name ++ 61 :: c.value) :: c.attributes.map (32 :: ·)) := by
  have hjoin : ∀ (part : Bytes) (parts : List Bytes),
      [59].intercalate (part :: parts.map (32 :: ·)) = part ++ parts.flatMap fun p =>
        59 :: 32 :: p := by
    intro part parts
    induction parts generalizing part with
    | nil => simp
    | cons p ps ih => rw [List.map_cons, List.intercalate_cons_cons, ih]; simp
  have hoptional : ∀ (name key : Bytes) {value : Bytes}, key = 59 :: 32 :: (name ++ [61]) →
      (optionalPart name value).flatMap (fun p => 59 :: 32 :: p) =
        if value = [] then [] else key ++ value := by
    rintro name _ value rfl
    unfold optionalPart
    split <;> simp
  have hflag : ∀ (name key : Bytes) {flag : Bool}, key = 59 :: 32 :: name →
      (if flag then [name] else []).flatMap (fun p => 59 :: 32 :: p) = if flag
        then key else [] := by
    rintro name _ flag rfl
    cases flag <;> simp
  have hage : (if ageText c.maxAge = [] then [] else ascii "; Max-Age=" ++ ageText c.maxAge) =
      if c.maxAge = 0 then [] else ascii "; Max-Age=" ++ number c.maxAge := by
    simp only [ageText_eq_nil]
    split
    · rfl
    · next hne => rw [ageText, if_neg hne]
  rw [hjoin, attributes]
  simp only [List.flatMap_append]
  rw [hoptional (ascii "Comment") (ascii "; Comment=") rfl,
    hoptional (ascii "Domain") (ascii "; Domain=") rfl,
    hoptional (ascii "Max-Age") (ascii "; Max-Age=") rfl,
    hoptional (ascii "Path") (ascii "; Path=") rfl,
    hflag (ascii "Secure") (ascii "; Secure") rfl,
    hflag (ascii "HttpOnly") (ascii "; HttpOnly") rfl,
    hoptional (ascii "Version") (ascii "; Version=") rfl, hage, if_neg (number_ne_nil _)]
  unfold toByteArray
  simp only [List.append_assoc]
  rfl

/-! ### Reading the text again

The reader goes through the parts and sets a field for each name that it knows. -/

/-- Plain parts are found again, whatever cookie they belong to. -/
theorem splitCSV_parts {first : Bytes} {parts : List Bytes}
    (h : ∀ p ∈ first :: parts, p ≠ [] ∧ PlainText p) :
    splitCSV ([59].intercalate (first :: parts.map (32 :: ·))) = first :: parts := by
  have hscan : ∀ p ∈ first :: parts, Scanned p p := fun p hp =>
    scanned_plain (h p hp).2.2.2 (h p hp).2.2.1
  have hparts : List.Forall₂ Scanned (parts.map (32 :: ·)) (parts.map (32 :: ·)) := by
    refine List.forall₂_same.mpr fun code hcode => ?_
    obtain ⟨p, hp, rfl⟩ := List.mem_map.mp hcode
    have hblank : Scanned [32] [32] := scanned_plain (by decide) (by decide)
    exact hblank.append (hscan p (List.mem_cons_of_mem _ hp))
  have htrimmed : ∀ p ∈ parts, trimmed (32 :: p) = p := by
    intro p hp
    have hplain := (h p (List.mem_cons_of_mem _ hp)).2.1
    simpa using trimmed_pad (l := [32]) (r := []) (by decide) hplain (by simp)
  rw [splitCSV_joined (.cons (hscan first List.mem_cons_self) hparts), List.map_cons,
    trimmed_eq_self (h first List.mem_cons_self).2.1, List.map_map,
    (List.map_congr_left htrimmed : parts.map (trimmed ∘ (32 :: ·)) = parts.map id), List.map_id,
    List.filter_eq_self]
  exact fun p hp => by simpa using (h p hp).1

theorem plainText_pair {name value : Bytes} (hne : name ≠ []) (hname : PlainText name)
    (hvalue : PlainText value) : PlainText (name ++ 61 :: value) := by
  refine ⟨trimmed_pair hne hname.1 hvalue.1, ?_, ?_⟩
  · simpa using ⟨hname.2.1, hvalue.2.1⟩
  · simpa using ⟨hname.2.2, hvalue.2.2⟩

/-- Every part of a printable cookie is plain. -/
theorem Printable.parts_plain {c : HttpCookie} (h : Printable c) :
    ∀ p ∈ (c.name ++ 61 :: c.value) :: c.attributes, p ≠ [] ∧ PlainText p := by
  have hoptional : ∀ {name value p : Bytes}, name ≠ [] → PlainText name → PlainText value →
      p ∈ optionalPart name value → p ≠ [] ∧ PlainText p := by
    intro name value p hne hname hvalue hp
    unfold optionalPart at hp
    split at hp
    · exact absurd hp List.not_mem_nil
    · rw [List.mem_singleton.mp hp]
      exact ⟨by simp, plainText_pair hne hname hvalue⟩
  have hflag : ∀ {name p : Bytes} {flag : Bool}, name ≠ [] → PlainText name →
      p ∈ (if flag then [name] else []) → p ≠ [] ∧ PlainText p := by
    intro name p flag hne hname hp
    cases flag with
    | false => exact absurd hp List.not_mem_nil
    | true =>
        rw [if_pos rfl] at hp
        rw [List.mem_singleton.mp hp]
        exact ⟨hne, hname⟩
  intro p hp
  simp only [attributes, List.mem_cons, List.mem_append] at hp
  rcases hp with rfl | (((((hp | hp) | hp) | hp) | hp) | hp) | hp
  · exact ⟨by simp, plainText_pair h.name_ne h.name_plain h.value_plain⟩
  · exact hoptional (by decide) (by decide) h.comment_plain hp
  · exact hoptional (by decide) (by decide) h.domain_plain hp
  · exact hoptional (by decide) (by decide) (ageText_plain _) hp
  · exact hoptional (by decide) (by decide) h.path_plain hp
  · exact hflag (by decide) (by decide) hp
  · exact hflag (by decide) (by decide) hp
  · exact hoptional (by decide) (by decide) (number_plainText _) hp

/-- A part with a name sets the field of this name. -/
theorem readPart_pair (c : HttpCookie) {name value : Bytes} (hne : name ≠ []) (hname : Trimmed name)
    (hequals : 61 ∉ name) (hvalue : Trimmed value) :
    c.readPart (name ++ 61 :: value) = c.setField name value := by
  rw [readPart, splitPair_pair hne hname hequals hvalue]

/-- A part without `=` has the empty name, and is ignored when the cookie has its name. -/
theorem readPart_flag {c : HttpCookie} (hc : c.name ≠ []) {part : Bytes} (hequals : 61 ∉ part) :
    c.readPart part = c := by
  rw [readPart, splitPair_flag hequals]
  simp [setField, hc, ascii]

/-- Reading an attribute that may be left out: an empty value is what the cookie has already, any
other one is set. -/
theorem foldl_optionalPart {c c' : HttpCookie} {name value : Bytes} (hne : name ≠ [])
    (hname : Trimmed name) (hequals : 61 ∉ name) (hvalue : Trimmed value)
    (hempty : value = [] → c = c') (hset : value ≠ [] → c.setField name value = c') :
    (optionalPart name value).foldl readPart c = c' := by
  unfold optionalPart
  split
  · next hnil => exact hempty hnil
  · next hsome => exact (readPart_pair c hne hname hequals hvalue).trans (hset hsome)

/-- Reading a flag that was written or left out. -/
theorem foldl_flag (c : HttpCookie) (flag : Bool) (part : Bytes) (hc : c.name ≠ [])
    (hequals : 61 ∉ part) : (if flag then [part] else []).foldl readPart c = c := by
  cases flag with
  | false => rfl
  | true => exact readPart_flag hc hequals

/-- **What is read from the text of a cookie.** Everything comes back but the two flags: `Secure`
and `HttpOnly` are parts without `=`, which are not recognised. -/
theorem ofSource_toByteArray {c : HttpCookie} (h : Printable c) (unset : Bool) :
    ofSource unset c.toByteArray = { c with secure := false, httpOnly := unset } := by
  have hfirst : (empty unset).readPart (c.name ++ 61 :: c.value) =
      { empty unset with name := c.name, value := c.value } := by
    have hother := h.name_free
    simp only [attributeNames, List.mem_cons, List.not_mem_nil, or_false, not_or] at hother
    rw [readPart_pair _ h.name_ne h.name_plain.1 h.no_equals h.value_plain.1]
    simp only [setField, hother, if_false, empty, if_true]
  have hcomment : ∀ s : HttpCookie, s.comment = [] →
      (optionalPart (ascii "Comment") c.comment).foldl readPart s =
        { s with comment := c.comment } :=
    fun s hs => foldl_optionalPart (by decide) (by decide) (by decide) h.comment_plain.1
      (fun hnil => by rw [hnil, ← hs]) fun _ => rfl
  have hdomain : ∀ s : HttpCookie, s.domain = [] →
      (optionalPart (ascii "Domain") c.domain).foldl readPart s = { s with domain := c.domain } :=
    fun s hs => foldl_optionalPart (by decide) (by decide) (by decide) h.domain_plain.1
      (fun hnil => by rw [hnil, ← hs]) fun _ => rfl
  have hage : ∀ s : HttpCookie, s.maxAge = 0 →
      (optionalPart (ascii "Max-Age") (ageText c.maxAge)).foldl readPart s =
        { s with maxAge := c.maxAge } :=
    fun s hs => foldl_optionalPart (by decide) (by decide) (by decide) (ageText_plain c.maxAge).1
      (fun hnil => by rw [ageText_eq_nil.mp hnil, ← hs]) fun hsome =>
        congrArg (fun n => { s with maxAge := n }) (toInt_ageText h.maxAge_isInt hsome)
  have hpath : ∀ s : HttpCookie, s.path = [] →
      (optionalPart (ascii "Path") c.path).foldl readPart s = { s with path := c.path } :=
    fun s hs => foldl_optionalPart (by decide) (by decide) (by decide) h.path_plain.1
      (fun hnil => by rw [hnil, ← hs]) fun _ => rfl
  have hone : c.version = 1 := by rw [h.built]; rfl
  have hversion : ∀ s : HttpCookie, s.version = 1 →
      (optionalPart (ascii "Version") (number c.version)).foldl readPart s = s :=
    fun s hs => foldl_optionalPart (by decide) (by decide) (by decide) (number_plainText _).1
      (fun hnil => absurd hnil (number_ne_nil _)) fun _ => by
        have hread : toInt (number c.version) = s.version := by
          rw [hone, toInt_number (by decide), hs]
        exact congrArg (fun n => { s with version := n }) hread
  rw [ofSource, toByteArray_joined, splitCSV_parts h.parts_plain, List.foldl_cons,
    hfirst, attributes]
  simp only [List.foldl_append]
  rw [hcomment _ rfl, hdomain _ rfl, hage _ rfl, hpath _ rfl,
    foldl_flag _ c.secure (ascii "Secure") ?_ (by decide),
    foldl_flag _ c.httpOnly (ascii "HttpOnly") ?_ (by decide), hversion _ rfl]
  · exact congrArg (fun n => { c with secure := false, httpOnly := unset, version := n }) hone.symm
  · exact h.name_ne
  · exact h.name_ne

/-- **The round trip of a cookie.** A cookie is read back from its own text exactly when it is not
secure and the new object happens to hold the right `httpOnly` already. -/
theorem ofSource_toByteArray_iff {c : HttpCookie} (h : Printable c) (unset : Bool) :
    ofSource unset c.toByteArray = c ↔ c.secure = false ∧ unset = c.httpOnly := by
  rw [ofSource_toByteArray h]
  constructor
  · intro heq
    exact ⟨(congrArg secure heq).symm, congrArg httpOnly heq⟩
  · rintro ⟨hsecure, rfl⟩
    rw [← hsecure]

theorem ofSource_toByteArray_iff_session :
    let c := HttpCookie.new (ascii "sid") (ascii "a=b") (-3600) (ascii "/") []
      (ascii "x.org") false true
    Printable c ∧ ofSource true c.toByteArray = c := by
  intro c
  have h : Printable c := ⟨rfl, by decide, by decide, by decide, by decide, by decide, by decide,
    by decide, by decide, by decide⟩
  exact ⟨h, (ofSource_toByteArray_iff h true).mpr ⟨rfl, rfl⟩⟩

/-- A secure cookie is not secure any more when it has been written and read. -/
theorem secure_lost :
    let c := HttpCookie.new (ascii "sid") (ascii "1") 0 [] [] [] true false
    Printable c ∧ ∀ unset, (ofSource unset c.toByteArray).secure ≠ c.secure :=
  ⟨⟨rfl, by decide, by decide, by decide, by decide, by decide, by decide, by decide, by decide,
    by decide⟩, by decide⟩

end HttpCookie

end QtWebApp
