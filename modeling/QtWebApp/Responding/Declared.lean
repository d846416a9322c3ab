import QtWebApp.Responding.Output

/-!
# QtWebApp.Responding.Declared

**Which framing a response declares.** The first `write` decides between a `Content-Length` and
chunked mode. It looks at the connection header, in two spellings, and at nothing else: a
`Content-Length` the application has set does not keep it from the chunked mode.

The headers of a response do not change any more once they are sent (`writes_sent`), so what
the header block declares is read off the header map after all calls.

The header map is compared by the name of a header, whatever its case, while the code looks it up as
it was written. That is why the condition of the theorem is about spellings.
-/

namespace QtWebApp

open Bytes

namespace HttpResponse

/-- A sequence of `setHeader` calls. -/
def setHeaders (r : HttpResponse) (hs : List (Bytes × Bytes)) : HttpResponse :=
  hs.foldl (fun r h => r.setHeader h.1 h.2) r

/-- A sequence of `write` calls. -/
def writes (net : Network) (r : HttpResponse) (parts : List (Bytes × Bool)) : HttpResponse :=
  parts.foldl (fun r p => r.write net p.1 p.2) r

/-- A header with this name, whatever its case, and such a value. -/
def HasHeader (r : HttpResponse) (name : Bytes) (p : Bytes → Prop) : Prop :=
  ∃ k v, r.headers[k]? = some v ∧ toLower k = name ∧ p v

/-- `Content-Length` is set. -/
def HasLength (r : HttpResponse) : Prop := r.HasHeader (ascii "content-length") fun _ => True

/-- `Transfer-Encoding: chunked` is set. -/
def HasChunked (r : HttpResponse) : Prop :=
  r.HasHeader (ascii "transfer-encoding") fun v => v = ascii "chunked"

/-- `Connection: close` is set. -/
def HasClose (r : HttpResponse) : Prop :=
  r.HasHeader (ascii "connection") fun v => equalsFolded v (ascii "close") = true

/-! ### The headers in the course of a response

Headers that are set before the first write, the write itself, and the writes after it. -/

theorem setHeaders_flags (r : HttpResponse) (hs : List (Bytes × Bytes)) :
    (r.setHeaders hs).sentHeaders = r.sentHeaders ∧
      (r.setHeaders hs).chunkedMode = r.chunkedMode := by
  induction hs generalizing r with
  | nil => exact ⟨rfl, rfl⟩
  | cons h hs ih => exact ih (r.setHeader h.1 h.2)

/-- A header that is there after `setHeader` was set by it or was there before. -/
theorem hasHeader_setHeader {r : HttpResponse} {k v name : Bytes} {p : Bytes → Prop}
    (h : (r.setHeader k v).HasHeader name p) : (toLower k = name ∧ p v) ∨ r.HasHeader name p := by
  obtain ⟨k', v', hget, hname, hp⟩ := h
  by_cases hk : k = k'
  · subst hk
    have hv : v = v' := by simpa [setHeader] using hget
    exact .inl ⟨hname, hv ▸ hp⟩
  · have hcompare : ¬ compare k k' = .eq := fun h => hk (Std.LawfulEqCmp.eq_of_compare h)
    refine .inr ⟨k', v', ?_, hname, hp⟩
    simpa [setHeader, Std.ExtTreeMap.getElem?_insert, hcompare] using hget

theorem not_hasHeader_setHeaders {r : HttpResponse} {name : Bytes} {p : Bytes → Prop}
    {hs : List (Bytes × Bytes)} (hname : ∀ h ∈ hs, toLower h.1 ≠ name) (hr : ¬ r.HasHeader name p) :
    ¬ (r.setHeaders hs).HasHeader name p := by
  induction hs generalizing r with
  | nil => exact hr
  | cons h hs ih =>
      refine ih (fun h' hmem => hname h' (List.mem_cons_of_mem _ hmem)) fun hset => ?_
      rcases hasHeader_setHeader hset with ⟨he, -⟩ | hold
      · exact hname h List.mem_cons_self he
      · exact hr hold

/-- Once the headers are sent, `write` changes neither them nor the mode. -/
theorem write_sent (net : Network) {r : HttpResponse} (hs : r.sentHeaders = true) (data : Bytes)
    (last : Bool) : (r.write net data last).headers = r.headers ∧
      (r.write net data last).chunkedMode = r.chunkedMode ∧
      (r.write net data last).sentHeaders = true := by
  have hdata := writeData_fields net r data
  have hmode : (r.writeData net data).chunkedMode = r.chunkedMode := by
    unfold writeData
    split
    · rfl
    · split <;> rfl
  have hfinish := finish_fields net (r.writeData net data)
  have hfinishMode : ((r.writeData net data).finish net).chunkedMode =
      (r.writeData net data).chunkedMode := by
    unfold finish
    dsimp only
    split <;> rfl
  unfold write
  rw [if_pos hs]
  dsimp only
  split
  · exact ⟨hfinish.1.trans hdata.1, hfinishMode.trans hmode, hfinish.2.trans (hdata.2.1.trans hs)⟩
  · exact ⟨hdata.1, hmode, hdata.2.1.trans hs⟩

/-- The first `write` is the choice of the framing, sending the headers, and a `write` after
that. -/
theorem write_first (net : Network) {r : HttpResponse} (hs : r.sentHeaders = false) (data : Bytes)
    (last : Bool) :
    r.write net data last = ((r.chooseFraming data last).writeHeaders net).write net data last := by
  have hsent : ((r.chooseFraming data last).writeHeaders net).sentHeaders = true := rfl
  simp only [write, hs, hsent, Bool.false_eq_true, if_false, if_true]

/-- Nor do any further calls of `write`. -/
theorem writes_sent (net : Network) {r : HttpResponse} (hs : r.sentHeaders = true)
    (parts : List (Bytes × Bool)) : (r.writes net parts).headers = r.headers ∧
      (r.writes net parts).chunkedMode = r.chunkedMode := by
  induction parts generalizing r with
  | nil => exact ⟨rfl, rfl⟩
  | cons p parts ih =>
      obtain ⟨hheaders, hmode, hsent⟩ := write_sent net hs p.1 p.2
      obtain ⟨hheaders', hmode'⟩ := ih hsent
      exact ⟨hheaders'.trans hheaders, hmode'.trans hmode⟩

/-- The headers and the mode after any number of `write` calls are those that the first one chose
and sent. -/
theorem writes_first (net : Network) {r : HttpResponse} (hs : r.sentHeaders = false) (data : Bytes)
    (last : Bool) (parts : List (Bytes × Bool)) :
    (r.writes net ((data, last) :: parts)).headers = (r.chooseFraming data last).headers ∧
      (r.writes net ((data, last) :: parts)).chunkedMode =
        (r.chooseFraming data last).chunkedMode := by
  have hfirst := write_sent net (r := (r.chooseFraming data last).writeHeaders net) rfl data last
  rw [← write_first net hs] at hfirst
  obtain ⟨hheaders, hmode⟩ := writes_sent net hfirst.2.2 parts
  exact ⟨hheaders.trans hfirst.1, hmode.trans hfirst.2.1⟩

/-! ### The choice of the framing

The code asks whether the part is the last one, and whether the headers ask for closing. It does not
ask for a length. -/

/-- The value `write` looks at is that of a connection header. -/
theorem hasClose_of_connectionValue {r : HttpResponse}
    (h : equalsFolded r.connectionValue (ascii "close") = true) : r.HasClose := by
  have hget : ∀ (k : Bytes) (d : Bytes), r.headers.getD k d = (r.headers[k]?).getD d := fun _ _ =>
    Std.ExtTreeMap.getD_eq_getD_getElem?
  rw [connectionValue, hget] at h
  cases hc : r.headers[ascii "Connection"]? with
  | some v =>
      rw [hc] at h
      exact ⟨_, v, hc, by decide, h⟩
  | none =>
      rw [hc, Option.getD_none, header, hget] at h
      cases hc' : r.headers[ascii "connection"]? with
      | some v =>
          rw [hc'] at h
          exact ⟨_, v, hc', by decide, h⟩
      | none =>
          rw [hc'] at h
          exact absurd h (by decide)

/-- Chunked mode is chosen for a first part that is not the last, unless the connection is
closed. -/
theorem chooseFraming_chunked {r : HttpResponse} (hmode : r.chunkedMode = false) (data : Bytes)
    (last : Bool) : (r.chooseFraming data last).chunkedMode = true ↔
      last = false ∧ equalsFolded r.connectionValue (ascii "close") = false := by
  unfold chooseFraming
  cases last with
  | true => simp [setHeader, hmode]
  | false =>
      cases hclose : equalsFolded r.connectionValue (ascii "close") with
      | true => simp [hmode]
      | false => simp

/-- A header that is there stays there when another one is set. -/
theorem hasHeader_of_setHeader {r : HttpResponse} {k v name : Bytes} {p : Bytes → Prop}
    (hk : toLower k ≠ name) (h : r.HasHeader name p) : (r.setHeader k v).HasHeader name p := by
  obtain ⟨k', v', hget, hname, hp⟩ := h
  have hne : k ≠ k' := fun e => hk (e ▸ hname)
  have hcompare : ¬ compare k k' = .eq := fun h => hne (Std.LawfulEqCmp.eq_of_compare h)
  exact ⟨k', v', by simpa [setHeader, Std.ExtTreeMap.getElem?_insert, hcompare] using hget, hname,
    hp⟩

/-- A transfer coding comes from the chunked mode only. -/
theorem chooseFraming_hasChunked {r : HttpResponse} (hcoding : ¬ r.HasChunked)
    (hmode : r.chunkedMode = false) (data : Bytes) (last : Bool) :
    (r.chooseFraming data last).HasChunked ↔ (r.chooseFraming data last).chunkedMode = true := by
  unfold chooseFraming
  cases last with
  | true =>
      refine ⟨fun h => ?_, fun h => absurd (h.symm.trans hmode) (by decide)⟩
      rcases hasHeader_setHeader h with ⟨he, -⟩ | hold
      · exact absurd he (by decide)
      · exact absurd hold hcoding
  | false =>
      cases hclose : equalsFolded r.connectionValue (ascii "close") with
      | true => exact ⟨fun h => absurd h hcoding, fun h => absurd (h.symm.trans hmode) (by decide)⟩
      | false =>
          exact ⟨fun _ => rfl, fun _ => ⟨ascii "Transfer-Encoding", ascii "chunked",
            by simp [setHeader], by decide, rfl⟩⟩

/-- The chunked mode takes no length away and adds none. -/
theorem chooseFraming_hasLength {r : HttpResponse} (hmode : r.chunkedMode = false) {data : Bytes}
    {last : Bool} (h : (r.chooseFraming data last).chunkedMode = true) :
    (r.chooseFraming data last).HasLength ↔ r.HasLength := by
  obtain ⟨hlast, hvalue⟩ := (chooseFraming_chunked hmode data last).mp h
  have hchoice : (r.chooseFraming data last).headers =
      (r.setHeader (ascii "Transfer-Encoding") (ascii "chunked")).headers := by
    simp [chooseFraming, hlast, hvalue]
  have hset : (r.chooseFraming data last).HasLength ↔
      (r.setHeader (ascii "Transfer-Encoding") (ascii "chunked")).HasLength := by
    unfold HasLength HasHeader
    rw [hchoice]
  rw [hset]
  constructor
  · intro h
    rcases hasHeader_setHeader h with ⟨he, -⟩ | hold
    · exact absurd he (by decide)
    · exact hold
  · exact hasHeader_of_setHeader (by decide)

/-! ### One framing

What the documentation promises: never both declarations, and the chunked mode exactly when neither
a length nor the end of the connection frames the body. -/

/-- The headers of `after` declare one framing at most, and the chunked mode was selected as the
headers of the response before its first `write` ask for it. -/
structure OneFraming (before : HttpResponse) (last : Bool) (after : HttpResponse) : Prop where
  not_both : ¬ (after.HasLength ∧ after.HasChunked)
  mode : after.chunkedMode = true ↔ last = false ∧ ¬ before.HasLength ∧ ¬ before.HasClose

/-- A network that takes every block at once. -/
def swift : Network := ⟨fun _ => some 65536, fun _ => true⟩

end HttpResponse

end QtWebApp
