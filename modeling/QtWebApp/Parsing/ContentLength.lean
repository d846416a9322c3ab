import QtWebApp.Parsing.Collect
import QtWebApp.Parsing.Head

/-!
# QtWebApp.Parsing.ContentLength

The framing of a body by its `Content-Length` header.

The value of the header goes through `toInt`, whose failure looks like 0 and whose result
may be negative, so the body that the parser takes is the announced one only when the value
is a numeral that fits into an `int`. `framed_iff_numeral` says exactly when the parser honours
the header.

That the header is honoured is said of the loop that reads a request (`Framed`): it ends, and a
request that completes has the announced bytes as its body and leaves the others unread. A value
that is no numeral would have to lead to an abortion, and does not.
-/

namespace QtWebApp

open Bytes

namespace HttpRequest

/-! ### The body

The first call for a body takes what is there of it, at most the announced bytes. -/

/-- The request that has taken what is there of the announced bytes. A negative length takes
nothing and is reached at once. -/
def takeBody (r : HttpRequest) (socket : Bytes) : HttpRequest :=
  { r with
      currentSize := int32 (r.currentSize + (socket.take r.expectedBodySize.toNat).length)
      bodyData := socket.take r.expectedBodySize.toNat
      status := if r.expectedBodySize ≤ socket.length then .complete else .waitForBody }

/-- The first call for a body without boundary. -/
theorem readFromSocket_plainBody {r : HttpRequest} (hs : r.status = .waitForBody)
    (hb : r.boundary = []) (hbody : r.bodyData = []) (he : IsInt r.expectedBodySize)
    (socket : Bytes) :
    r.readFromSocket socket =
      ((r.takeBody socket).afterRead, socket.drop r.expectedBodySize.toNat) := by
  have hdone : r.expectedBodySize ≤ (socket.take r.expectedBodySize.toNat).length ↔
      r.expectedBodySize ≤ socket.length := by
    rw [List.length_take]
    omega
  simp only [readFromSocket, readStep, hs, readBody, hb, if_true, readPlainBody, readData, hbody,
    List.length_nil, Int.ofNat_zero, Int.sub_zero, int32_of_isInt he, List.nil_append,
    hdone, takeBody]
  split <;> rfl

/-- A body that is there and fits is taken as it is. -/
theorem takeBody_whole {r : HttpRequest} {body : Bytes} (hlength : r.expectedBodySize = body.length)
    (h0 : 0 ≤ r.currentSize) (hfit : r.currentSize + body.length ≤ r.maxSize)
    (hmax : r.maxSize < intMax) (rest : Bytes) :
    r.takeBody (body ++ rest) =
      { r with
          currentSize := r.currentSize + body.length
          bodyData := body
          status := .complete } := by
  have hl : r.maxSize < 2147483647 := hmax
  have htake : (body ++ rest).take r.expectedBodySize.toNat = body := by simp [hlength]
  have hall : r.expectedBodySize ≤ (body ++ rest).length := by
    rw [hlength, List.length_append]
    omega
  rw [takeBody, htake, if_pos hall, int32_of_isInt ⟨by omega, by omega⟩]

/-! ### Where a request ends up

A run on a head and what follows it has three ends: the request is aborted, it is complete, or it
waits for more. -/

/-- A head of `size` bytes that announces `length` bytes exceeds the limit when `available` bytes
are there to follow it: by itself, by its announcement, or by what is read. -/
def ExceedsLimit (settings : Settings) (size : Nat) (length : Int) (available : Nat) : Prop :=
  settings.maxRequestSize < size ∨
    settings.maxRequestSize < int32 (length + size) ∨
    settings.maxRequestSize < int32 (size + min length available)

instance (settings : Settings) (size : Nat) (length : Int) (available : Nat) :
    Decidable (ExceedsLimit settings size length available) := by
  unfold ExceedsLimit; infer_instance

/-- A request that stays within the limit takes the bytes that its header announces, as far as
the parser understands it. -/
structure Taken (r : HttpRequest) (length : Int) (rest left : Bytes) : Prop where
  body : r.bodyData = rest.take length.toNat
  left_eq : left = rest.drop length.toNat
  enough : length ≤ rest.length

/-- For a negative length nothing is read, and the limit is not exceeded either way. -/
theorem exceeds_taken_iff {maxSize size length : Int} (h0 : 0 ≤ size) (hw : size ≤ maxSize)
    (hmax : maxSize < intMax) (hint : IsInt length) (available : Bytes) :
    maxSize < int32 (size + min length available.length) ↔
      maxSize < int32 (size + (available.take length.toNat).length) := by
  have hl : maxSize < 2147483647 := hmax
  rw [List.length_take]
  rcases Int.lt_or_le length 0 with hneg | hpos
  · have h₁ : min length (available.length : Int) = length := by omega
    have h₂ : ((min length.toNat available.length : Nat) : Int) = 0 := by omega
    rw [h₁, h₂, int32_of_isInt ⟨by have := hint.1; omega, by omega⟩,
      int32_of_isInt ⟨by omega, by omega⟩]
    omega
  · have h₁ : min length (available.length : Int) = (min length.toNat available.length : Nat) := by
      omega
    rw [h₁]

/-- From the end of the head on: a request that waits for its body. -/
theorem reads_announced {r : HttpRequest} (hs : r.status = .waitForBody) (hb : r.boundary = [])
    (hbody : r.bodyData = []) (hint : IsInt r.expectedBodySize) (h0 : 0 ≤ r.currentSize)
    (hw : r.currentSize ≤ r.maxSize) (hmax : r.maxSize < intMax) (rest : Bytes) :
    ∃ r' b', Reads r rest r' b' ∧
      (r.maxSize < int32 (r.currentSize + min r.expectedBodySize rest.length) →
        r'.status = .abort) ∧
      (¬ r.maxSize < int32 (r.currentSize + min r.expectedBodySize rest.length) →
        r'.status = .waitForBody ∨
          (r'.status = .complete ∧ Taken r' r.expectedBodySize rest b')) := by
  rcases eq_or_ne rest [] with rfl | hne
  · refine ⟨r, [], reads_nil r, fun hlt => ?_, fun _ => .inl hs⟩
    rw [exceeds_taken_iff h0 hw hmax hint, List.take_nil, List.length_nil, Int.natCast_zero,
      Int.add_zero, int32_of_isInt
        ⟨by omega, by have : r.maxSize < 2147483647 := hmax; omega⟩] at hlt
    omega
  · rw [exceeds_taken_iff h0 hw hmax hint]
    have hh : r.Hungry rest := ⟨hne, by simp [hs], by simp [hs]⟩
    have hcall := readFromSocket_plainBody hs hb hbody hint rest
    have hb' : (r.takeBody rest).boundary = [] := hb
    by_cases hlt : r.maxSize < int32 (r.currentSize + (rest.take r.expectedBodySize.toNat).length)
    · have habort : (r.takeBody rest).afterRead.status = .abort := afterRead_abort hb' hlt
      exact ⟨_, _, Reads.step hh hcall (reads_of_done (.inr habort)), fun _ => habort,
        fun hn => absurd hlt hn⟩
    · have hwithin : (r.takeBody rest).currentSize ≤ (r.takeBody rest).maxSize := Int.not_lt.mp hlt
      by_cases hall : r.expectedBodySize ≤ rest.length
      · have hcomplete : (r.takeBody rest).status = .complete := if_pos hall
        rw [afterRead_complete hb' hwithin hcomplete] at hcall
        exact ⟨_, _, Reads.step hh hcall (reads_of_done (.inl hcomplete)), fun h => absurd h hlt,
          fun _ => .inr ⟨hcomplete, rfl, rfl, hall⟩⟩
      · have hwait : (r.takeBody rest).status = .waitForBody := if_neg hall
        have hleft : rest.drop r.expectedBodySize.toNat = [] :=
          List.drop_eq_nil_of_le (by omega)
        rw [afterRead_within hb' hwithin (by simp [hwait]), hleft] at hcall
        exact ⟨_, _, Reads.step hh hcall (reads_nil _), fun h => absurd h hlt, fun _ => .inl hwait⟩

/-- **The three ends of a run** on a head and what follows it. -/
theorem reads_contentLength {settings : Settings} (hmax : settings.maxRequestSize < intMax)
    {head : RequestHead} (hm : NotMultipart head.headers) {length : Int}
    (hlength : toInt (head.headers.value (ascii "content-length")) = length) (rest : Bytes) :
    ∃ r' b', Reads (new settings) (head.bytes ++ rest) r' b' ∧
      (ExceedsLimit settings head.bytes.length length rest.length → r'.status = .abort) ∧
      (¬ ExceedsLimit settings head.bytes.length length rest.length →
        (r'.status = .waitForBody ∧ length ≠ 0) ∨
          (r'.status = .complete ∧ Taken r' length rest b')) := by
  have hint : IsInt length := hlength ▸ toInt_isInt _
  by_cases hfit : (head.bytes.length : Int) ≤ settings.maxRequestSize
  swap
  · obtain ⟨r', b', hr, habort⟩ := reads_head_too_long hmax hm (by omega) rest
    exact ⟨r', b', hr, fun _ => habort, fun hn => absurd (.inl (by omega)) hn⟩
  have hl : settings.maxRequestSize < 2147483647 := hmax
  have hend : (head.received settings).endOfHeaders =
      { head.received settings with
          expectedBodySize := length
          status :=
            if length = 0 then .complete
            else if settings.maxRequestSize < int32 (length + head.bytes.length) then .abort
            else .waitForBody } := by
    rw [endOfHeaders_plain rfl rfl hm, ← hlength]
    rfl
  have hb : (head.received settings).endOfHeaders.boundary = [] := by rw [hend]; rfl
  have hw : (head.received settings).endOfHeaders.currentSize ≤
      (head.received settings).endOfHeaders.maxSize := by rw [hend]; exact hfit
  have hsize : ¬ settings.maxRequestSize < head.bytes.length := by omega
  have hnonneg : (0 : Int) ≤ head.bytes.length := by omega
  unfold ExceedsLimit
  rcases eq_or_ne length 0 with hzero | hne
  · -- no body: the request is complete, and nothing exceeds the limit
    have hdone : (head.received settings).endOfHeaders.status = .complete := by
      rw [hend]
      exact if_pos hzero
    have hrun := reads_head hmax hfit rest
      (reads_of_done (.inl (by rw [afterRead_complete hb hw hdone]; exact hdone)))
    rw [afterRead_complete hb hw hdone] at hrun
    refine ⟨_, _, hrun, ?_, fun _ => .inr ⟨hdone, ?_, ?_, ?_⟩⟩
    · rw [hzero, Int.zero_add, min_eq_left (by omega), Int.add_zero,
        int32_of_isInt ⟨by omega, by omega⟩]
      omega
    · rw [hend, hzero]
      rfl
    · rw [hzero]
      rfl
    · omega
  · by_cases hlt : settings.maxRequestSize < int32 (length + head.bytes.length)
    · have habort : (head.received settings).endOfHeaders.status = .abort := by
        rw [hend]
        exact (if_neg hne).trans (if_pos hlt)
      have hkeep := afterRead_within hb hw (by simp [habort])
      have hrun := reads_head hmax hfit rest
        (reads_of_done (.inr (by rw [hkeep]; exact habort)))
      rw [hkeep] at hrun
      exact ⟨_, _, hrun, fun _ => habort, fun hn => absurd (.inr (.inl hlt)) hn⟩
    · have hwait : (head.received settings).endOfHeaders.status = .waitForBody := by
        rw [hend]
        exact (if_neg hne).trans (if_neg hlt)
      have hkeep := afterRead_within hb hw (by simp [hwait])
      obtain ⟨r', b', hr, hexceeds, htaken⟩ := reads_announced hwait hb (by rw [hend]; rfl)
        (by rw [hend]; exact hint) (by rw [hend]; exact hnonneg) hw (by rw [hend]; exact hmax) rest
      rw [hend] at hexceeds htaken
      refine ⟨r', b', reads_head hmax hfit rest (by rwa [hkeep]), ?_, ?_⟩
      · rintro (h | h | h)
        · exact absurd h hsize
        · exact absurd h hlt
        · exact hexceeds h
      · exact fun hn => (htaken fun h => hn (.inr (.inr h))).imp (⟨·, hne⟩) id

end HttpRequest

/-! ### The header is honoured

From the ends of a run to the numeral in the header. What `toInt` makes of the value decides. -/

namespace HttpConnectionHandler

open HttpRequest

/-- What a client that sends `Content-Length: v` relies on. A request that completes has the body
that `v` denotes, and the bytes behind it are left for the next request; a `v` that denotes no
length aborts the request. -/
def Framed (h : HttpConnectionHandler) (v rest : Bytes) : Prop :=
  (∀ h' r', CollectEnds h h' → h'.currentRequest = some r' → r'.status = .complete →
    ∃ n, numeral 10 v = some n ∧ n ≤ rest.length ∧ r'.bodyData = rest.take n ∧
      h'.socket.readBuffer = rest.drop n) ∧
  (numeral 10 v = none →
    ∃ h' r', CollectEnds h h' ∧ h'.currentRequest = some r' ∧ r'.status = .abort)

/-- The loop has one result, so it is enough to look at that. -/
theorem framed_iff {h h' : HttpConnectionHandler} {r' : HttpRequest} (hends : CollectEnds h h')
    (hr' : h'.currentRequest = some r') (v rest : Bytes) :
    Framed h v rest ↔
      (r'.status = .complete → ∃ n, numeral 10 v = some n ∧ n ≤ rest.length ∧
        r'.bodyData = rest.take n ∧ h'.socket.readBuffer = rest.drop n) ∧
      (numeral 10 v = none → r'.status = .abort) := by
  have hunique : ∀ h₂ r₂, CollectEnds h h₂ → h₂.currentRequest = some r₂ → h₂ = h' ∧ r₂ = r' := by
    intro h₂ r₂ hends₂ hr₂
    obtain rfl := Loop.Ends.unique (Loop.mono_const _) hends₂ hends
    rw [hr'] at hr₂
    exact ⟨rfl, (Option.some.inj hr₂).symm⟩
  constructor
  · rintro ⟨hcomplete, habort⟩
    refine ⟨hcomplete h' r' hends hr', fun hv => ?_⟩
    obtain ⟨h₂, r₂, hends₂, hr₂, hs⟩ := habort hv
    obtain ⟨rfl, rfl⟩ := hunique h₂ r₂ hends₂ hr₂
    exact hs
  · rintro ⟨hcomplete, habort⟩
    refine ⟨fun h₂ r₂ hends₂ hr₂ hs => ?_, fun hv => ⟨h', r', hends, hr', habort hv⟩⟩
    obtain ⟨rfl, rfl⟩ := hunique h₂ r₂ hends₂ hr₂
    exact hcomplete hs

section Honoured

variable {settings : Settings} {head : RequestHead} {v rest : Bytes} {h : HttpConnectionHandler}
  (hnew : h.currentRequest = some (.new settings)) (hbuf : h.socket.readBuffer = head.bytes ++ rest)

include hnew hbuf

/-- Below the limit `INT_MAX` the request ends, and its end decides. -/
theorem framed_iff_smaller (hmax : settings.maxRequestSize < intMax)
    (hm : NotMultipart head.headers) (hv : head.headers.values (ascii "content-length") = [v]) :
    Framed h v rest ↔ (∃ n : Nat, numeral 10 v = some n ∧ n ≤ intMax) ∨
      ExceedsLimit settings head.bytes.length (toInt v) rest.length := by
  obtain ⟨r', b', hrun, hexceeds, hwithin⟩ := reads_contentLength hmax hm rfl rest
  rw [QMultiMap.value_of_values_cons hv] at hexceeds hwithin
  obtain ⟨h', hends, hcol⟩ := collectEnds_of_reads hrun hnew hbuf
  have hleft : h'.socket.readBuffer = b' := by rw [hcol.socket]
  rw [framed_iff hends hcol.request, hleft]
  by_cases hex : ExceedsLimit settings head.bytes.length (toInt v) rest.length
  · simp [hexceeds hex, hex]
  simp only [hex, or_false]
  constructor
  · rintro ⟨hcomplete, habort⟩
    cases hnum : numeral 10 v with
    | none =>
        have hs := habort hnum
        rcases hwithin hex with ⟨hs', -⟩ | ⟨hs', -⟩ <;> simp [hs'] at hs
    | some n =>
        refine ⟨n, rfl, ?_⟩
        by_contra hbig
        -- the number is taken for 0, so the body is empty, which is not what was announced
        have hzero : toInt v = 0 := by simp [toInt_numeral hnum, hbig]
        rcases hwithin hex with ⟨-, hlen⟩ | ⟨hs, htaken⟩
        · exact hlen hzero
        · obtain ⟨m, hm', hle, hbody, -⟩ := hcomplete hs
          obtain rfl : n = m := Option.some.inj (hnum.symm.trans hm')
          have hempty : rest.take n = [] := by
            rw [← hbody, htaken.body, hzero]
            rfl
          have hlen := congrArg List.length hempty
          simp only [List.length_take, List.length_nil] at hlen
          have hsmall : (n : Int) ≤ intMax := by
            have h0 : n = 0 := by omega
            rw [h0]
            decide
          exact hbig hsmall
  · rintro ⟨n, hnum, hfits⟩
    have hlen : toInt v = n := by rw [toInt_numeral hnum, if_pos hfits]
    refine ⟨fun hs => ?_, fun hnone => by simp [hnum] at hnone⟩
    rcases hwithin hex with ⟨hs', -⟩ | ⟨-, htaken⟩
    · simp [hs'] at hs
    · have henough := htaken.enough
      rw [hlen] at henough
      exact ⟨n, hnum, by omega, by simpa [hlen] using htaken.body,
        by simpa [hlen] using htaken.left_eq⟩

/-- With the limit `INT_MAX` the request never ends. -/
theorem framed_iff_largest (hmax : settings.maxRequestSize = intMax) :
    Framed h v rest ↔ ∃ n : Nat, numeral 10 v = some n := by
  have hnever : ∀ h', ¬ CollectEnds h h' := by
    intro h' hends
    obtain ⟨r', b', hrun, -⟩ := reads_of_collectEnds hends hnew
    refine not_reads_intMax hmax ?_ hrun
    rw [hbuf]
    simp [RequestHead.bytes]
  constructor
  · rintro ⟨-, habort⟩
    cases hnum : numeral 10 v with
    | none =>
        obtain ⟨h', _, hends, -⟩ := habort hnum
        exact absurd hends (hnever h')
    | some n => exact ⟨n, rfl⟩
  · rintro ⟨n, hnum⟩
    exact ⟨fun h' _ hends => absurd hends (hnever h'), fun hnone => by simp [hnum] at hnone⟩

end Honoured

/-- **When `Content-Length` is honoured.** A new request receives a head with one such header
and some bytes: exactly when the value is a numeral that fits into an `int`, or the request is
aborted for its size in any case. (With the limit `INT_MAX` no request ever completes.) -/
theorem framed_iff_numeral {settings : Settings} {head : RequestHead} {v rest : Bytes}
    {h : HttpConnectionHandler} (hnew : h.currentRequest = some (.new settings))
    (hbuf : h.socket.readBuffer = head.bytes ++ rest) (hm : NotMultipart head.headers)
    (hv : head.headers.values (ascii "content-length") = [v]) :
    Framed h v rest ↔
      (∃ n : Nat, numeral 10 v = some n ∧ (n ≤ intMax ∨ settings.maxRequestSize = intMax)) ∨
      (settings.maxRequestSize < intMax ∧
        ExceedsLimit settings head.bytes.length (toInt v) rest.length) := by
  rcases Int.lt_or_le settings.maxRequestSize intMax with hmax | hge
  · have hne : settings.maxRequestSize ≠ intMax := by omega
    rw [framed_iff_smaller hnew hbuf hmax hm hv]
    simp only [hne, or_false, hmax, true_and]
  · have heq : settings.maxRequestSize = intMax :=
      Int.le_antisymm settings.maxRequestSize_isInt.2 hge
    rw [framed_iff_largest hnew hbuf heq]
    simp only [heq, or_true, and_true, lt_irrefl, false_and, or_false]

/-- `POST / HTTP/1.1` with `Content-Length: 5`. -/
def headWithLength : RequestHead where
  first := ascii "POST / HTTP/1.1\r"
  method := ascii "POST"
  path := ascii "/"
  version := ascii "HTTP/1.1"
  lines := [ascii "Content-Length: 5\r"]
  last := [CR]
  first_line := by decide
  first_split := by decide
  first_http := RequestHead.ascii_http
  lines_line := by decide
  lines_text := by decide
  last_line := RequestHead.blank_line
  last_blank := RequestHead.trimmed_blank

/-- `POST / HTTP/1.1` with `Content-Length: abc`. -/
def headWithoutNumeral : RequestHead where
  first := ascii "POST / HTTP/1.1\r"
  method := ascii "POST"
  path := ascii "/"
  version := ascii "HTTP/1.1"
  lines := [ascii "Content-Length: abc\r"]
  last := [CR]
  first_line := by decide
  first_split := by decide
  first_http := RequestHead.ascii_http
  lines_line := by decide
  lines_text := by decide
  last_line := RequestHead.blank_line
  last_blank := RequestHead.trimmed_blank

/-- A handler with a new request, these bytes waiting for it. -/
def waiting (settings : Settings) (b : Bytes) : HttpConnectionHandler :=
  { HttpConnectionHandler.new with
      socket := { TcpSocket.new with readBuffer := b }
      currentRequest := some (.new settings) }

theorem framed_five :
    Framed (waiting defaultSettings (headWithLength.bytes ++ ascii "helloGET ")) (ascii "5")
      (ascii "helloGET ") :=
  (framed_iff_numeral rfl rfl (by decide) (by decide)).mpr (.inl ⟨5, by decide, .inl (by decide)⟩)

/-- **A length that is no numeral does not abort the request**: it is taken for 0, the request is
complete, and the body is left to be parsed as the next request. -/
theorem not_framed_abc :
    ¬ Framed (waiting defaultSettings (headWithoutNumeral.bytes ++ ascii "hello")) (ascii "abc")
      (ascii "hello") := by
  obtain ⟨r', b', hrun, -, hwithin⟩ := reads_contentLength
      (show defaultSettings.maxRequestSize < intMax by decide)
    (show NotMultipart headWithoutNumeral.headers by decide) rfl (ascii "hello")
  obtain ⟨h', hends, hcol⟩ := collectEnds_of_reads hrun
    (h := waiting defaultSettings (headWithoutNumeral.bytes ++ ascii "hello")) rfl rfl
  rw [framed_iff hends hcol.request]
  rintro ⟨-, habort⟩
  have hs := habort (by decide)
  have hnot : ¬ ExceedsLimit defaultSettings headWithoutNumeral.bytes.length
      (toInt (headWithoutNumeral.headers.value (ascii "content-length")))
        (ascii "hello").length := by
    decide
  rcases hwithin hnot with ⟨hs', -⟩ | ⟨hs', -⟩ <;> simp [hs'] at hs

end HttpConnectionHandler

end QtWebApp
