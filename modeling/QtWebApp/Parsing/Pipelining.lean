import QtWebApp.Parsing.Collect
import QtWebApp.Parsing.WellFormed
import QtWebApp.Responding.Output

/-!
# QtWebApp.Parsing.Pipelining

Pipelined requests.

When the bytes of several well-formed requests are waiting, `readHttp` has them answered one
after the other, as long as no answer closes the connection; a request handler that leaves
the framing headers alone never makes it do so (`respond_keepsOpen`). The only limit on the
requests is the size of each; and a limit of `INT_MAX`, where the parser reads nothing at
all (`readHttp_pipeline_iff`).

The proof is an induction over the requests, with one turn of the outer loop for each of them: the
parser takes exactly the bytes of the request, the service hands it to the request handler, and the
answer leaves the connection open, so that the next turn begins as the first one did.
-/

namespace QtWebApp

open Bytes

/-! ### Answers that keep the connection open

The server decides by the headers of the response whether it can stay open: without `Content-Length`
and without chunked encoding the end of the response is the end of the connection. A handler that
sets neither header gets one of them from the first write. -/

/-- A call that leaves the framing of the response alone. -/
def ResponseCall.LeavesFraming : ResponseCall → Prop
  | .setHeader name _ => toLower name ∉ framingNames
  | _ => True

namespace HttpResponse

/-- No `Connection` header is set, and once the headers have been sent, they mark the end of the
response. -/
structure Marked (r : HttpResponse) : Prop where
  connection : r.headers[ascii "Connection"]? = none
  connection' : r.headers[ascii "connection"]? = none
  marked : r.sentHeaders = true → (r.headers[ascii "Content-Length"]?).isSome ∨
    r.headers[ascii "Transfer-Encoding"]? = some (ascii "chunked")
  last : r.sentLastPart = true → r.sentHeaders = true

theorem Marked.setHeader {r : HttpResponse} (h : r.Marked) (name value : Bytes)
    (hname : toLower name ∉ framingNames) : (r.setHeader name value).Marked := by
  have hne : ∀ k, toLower k ∈ framingNames →
      (r.setHeader name value).headers[k]? = r.headers[k]? := by
    intro k hk
    have hkn : name ≠ k := fun e => hname (e ▸ hk)
    show (r.headers.insert name value)[k]? = r.headers[k]?
    grind
  refine ⟨?_, ?_, ?_, h.last⟩
  · rw [hne _ (by decide)]
    exact h.connection
  · rw [hne _ (by decide)]
    exact h.connection'
  · rw [hne _ (by decide), hne _ (by decide)]
    exact h.marked

/-- What the socket does with the data is of no importance here. -/
theorem Marked.congr {r r' : HttpResponse} (h : r.Marked) (hheaders : r'.headers = r.headers)
    (hsent : r'.sentHeaders = r.sentHeaders) (hlast : r'.sentLastPart = r.sentLastPart) :
    r'.Marked := by
  constructor
  · rw [hheaders]
    exact h.connection
  · rw [hheaders]
    exact h.connection'
  · rw [hheaders, hsent]
    exact h.marked
  · rw [hlast, hsent]
    exact h.last

/-- The first write marks the end of the response in one way or the other. -/
theorem Marked.writeHeaders {r : HttpResponse} (h : r.Marked) (net : Network) (data : Bytes)
    (lastPart : Bool) : ((r.chooseFraming data lastPart).writeHeaders net).Marked ∧
      ((r.chooseFraming data lastPart).writeHeaders net).sentHeaders = true := by
  refine ⟨?_, rfl⟩
  have hnotClose : equalsFolded r.connectionValue (ascii "close") = false := by
    have hvalue : r.connectionValue = [] := by
      rw [connectionValue, header, Std.ExtTreeMap.getD_eq_getD_getElem?,
        Std.ExtTreeMap.getD_eq_getD_getElem?, h.connection, h.connection']
      rfl
    rw [hvalue]
    decide
  have hne : ∀ k k' v : Bytes, k ≠ k' → (r.headers.insert k v)[k']? = r.headers[k']? := by
    intro k k' v hkk
    grind
  have hself : ∀ k v : Bytes, (r.headers.insert k v)[k]? = some v := by
    intro k v
    grind
  unfold chooseFraming
  rw [hnotClose]
  cases lastPart with
  | true =>
      refine ⟨?_, ?_, fun _ => .inl ?_, fun _ => rfl⟩
      · exact (hne _ _ _ (by decide)).trans h.connection
      · exact (hne _ _ _ (by decide)).trans h.connection'
      · exact congrArg Option.isSome (hself _ _)
  | false =>
      refine ⟨?_, ?_, fun _ => .inr ?_, fun _ => rfl⟩
      · exact (hne _ _ _ (by decide)).trans h.connection
      · exact (hne _ _ _ (by decide)).trans h.connection'
      · exact hself _ _

theorem Marked.write {r : HttpResponse} (h : r.Marked) (net : Network) (data : Bytes)
    (lastPart : Bool) :
    (r.write net data lastPart).Marked ∧ (r.write net data lastPart).sentHeaders = true := by
  have hheaders : (if r.sentHeaders then r
      else (r.chooseFraming data lastPart).writeHeaders net).Marked ∧
      (if r.sentHeaders then r
        else (r.chooseFraming data lastPart).writeHeaders net).sentHeaders = true := by
    split
    · next hs => exact ⟨h, hs⟩
    · exact h.writeHeaders net data lastPart
  unfold HttpResponse.write
  dsimp only
  generalize (if r.sentHeaders then r
      else (r.chooseFraming data lastPart).writeHeaders net) = s at hheaders ⊢
  obtain ⟨hd₁, hd₂, hd₃⟩ := writeData_fields net s data
  have hdata := hheaders.1.congr hd₁ hd₂ hd₃
  split
  · obtain ⟨hf₁, hf₂⟩ := finish_fields net (s.writeData net data)
    have hsent : ((s.writeData net data).finish net).sentHeaders = true :=
      hf₂.trans (hd₂.trans hheaders.2)
    refine ⟨⟨?_, ?_, ?_, fun _ => hsent⟩, hsent⟩
    · rw [hf₁]
      exact hdata.connection
    · rw [hf₁]
      exact hdata.connection'
    · rw [hf₁, hf₂]
      exact hdata.marked
  · exact ⟨hdata, hd₂.trans hheaders.2⟩

/-- A call that leaves the framing alone. -/
theorem Marked.call {r : HttpResponse} (h : r.Marked) (net : Network) {c : ResponseCall}
    (hc : c.LeavesFraming) : (r.call net c).Marked := by
  cases c with
  | setHeader name value => exact h.setHeader name value hc
  | setStatus statusCode description => exact h.congr rfl rfl rfl
  | setCookie cookie =>
      show (r.setCookie cookie).Marked
      unfold setCookie
      split
      · exact h
      · exact h.congr rfl rfl rfl
  | write data lastPart => exact (h.write net data lastPart).1
  | redirect url =>
      have hstatus : (r.setStatus 303 (ascii "See Other")).Marked := h.congr rfl rfl rfl
      have hlocation := hstatus.setHeader (ascii "Location") url (by decide)
      simp only [HttpResponse.call, redirect]
      exact (hlocation.write net _ _).1
  | flush => exact h.congr rfl rfl rfl

/-- The calls of a request handler. -/
theorem Marked.calls {cs : List ResponseCall} (hcs : ∀ c ∈ cs, c.LeavesFraming) (net : Network)
    {r : HttpResponse} (h : r.Marked) : (cs.foldl (HttpResponse.call net) r).Marked := by
  induction cs generalizing r with
  | nil => exact h
  | cons c cs ih => exact ih (fun d hd => hcs d (by simp [hd])) (h.call net (hcs c (by simp)))

end HttpResponse

/-- The application never sets a framing header. -/
def Server.LeavesFraming (server : Server) : Prop :=
  ∀ past request, ∀ c ∈ server.service past request, c.LeavesFraming

namespace HttpConnectionHandler

open HttpRequest

/-- Such a response does not close the connection. -/
theorem closeResponse_marked {r : HttpResponse} (h : r.Marked) (hsent : r.sentHeaders = true) :
    closeResponse r = false := by
  have hconnection : r.header (ascii "Connection") = [] := by
    rw [HttpResponse.header, Std.ExtTreeMap.getD_eq_getD_getElem?, h.connection]
    rfl
  unfold closeResponse
  rw [hconnection, if_neg (by decide)]
  rcases h.marked hsent with hlength | hchunked
  · rw [if_pos]
    rwa [Std.ExtTreeMap.contains_eq_isSome_getElem?]
  · have hvalue : r.header (ascii "Transfer-Encoding") = ascii "chunked" := by
      rw [HttpResponse.header, Std.ExtTreeMap.getD_eq_getD_getElem?, hchunked]
      rfl
    rw [hvalue]
    split
    · rfl
    · decide

/-- **The connection stays open** when neither the request nor the application asks for its
end. -/
theorem respond_keepsOpen {server : Server} (hserver : server.LeavesFraming)
    (h : HttpConnectionHandler) {request : HttpRequest} (hclose : closeRequested request = false)
    (hversion : isHttp10 request = false) :
    closeConnection request (h.respond server request) = false := by
  have hnew : (h.newResponse request).Marked := by
    unfold newResponse
    dsimp only
    rw [hclose, hversion]
    exact ⟨rfl, rfl, fun hs => absurd hs (by simp [HttpResponse.new]), fun hs => hs⟩
  have hcalls := hnew.calls (hserver h.served request.view) server.network
  have hresponse : (h.respond server request).Marked ∧
      (h.respond server request).sentHeaders = true := by
    unfold respond
    dsimp only
    split
    · next hlast => exact ⟨hcalls, hcalls.last hlast⟩
    · exact hcalls.write server.network [] true
  rw [closeConnection, hclose, hversion, closeResponse_marked hresponse.1 hresponse.2]
  rfl

/-- A well-formed request does not ask for the end of the connection. -/
theorem closeRequested_message {r : HttpRequest} {req : PlainRequest}
    (hmessage : r.view.message = req.message) : closeRequested r = false ∧ isHttp10 r = false := by
  have hversion : r.version = ascii "HTTP/1.1" := congrArg Message.version hmessage
  have hheaders : r.headers = (fieldMap req.fields).remove (ascii "cookie") :=
    congrArg Message.headers hmessage
  have hvalue : r.getHeader (ascii "Connection") = [] := by
    unfold getHeader
    apply QMultiMap.value_eq_nil_of_values
    rw [hheaders, QMultiMap.values_eq_nil_iff]
    intro e he
    have hmem : e ∈ (fieldMap req.fields).entries := (List.mem_filter.mp he).1
    obtain ⟨f, hf, rfl⟩ := List.mem_map.mp (List.mem_reverse.mp hmem)
    exact req.fields_connection f hf
  refine ⟨?_, ?_⟩
  · rw [closeRequested, hvalue]
    decide
  · rw [isHttp10, hversion]
    decide

/-! ### Pipelined requests

All bytes of the requests are in the read buffer when `readHttp` is called. -/

/-- `readHttp` returns, it has handed exactly these requests to the application, in this order,
and nothing is left of them. -/
def Pipelined (server : Server) (h : HttpConnectionHandler) (reqs : List PlainRequest) : Prop :=
  ∃ fuel h', h.readHttp server fuel = some h' ∧
    h'.served.map RequestView.message = h.served.map RequestView.message ++
      reqs.map PlainRequest.message ∧
    h'.socket.readBuffer = [] ∧ h'.currentRequest = none

/-- A request that was answered without closing the connection. -/
theorem serve_keepsOpen {server : Server} {h : HttpConnectionHandler} {request : HttpRequest}
    (hopen : closeConnection request (h.respond server request) = false) :
    (h.serve server request).currentRequest = none ∧
      (h.serve server request).served = h.served ++ [request.view] ∧
      (h.serve server request).socket = (h.respond server request).socket := by
  unfold serve
  dsimp only
  rw [hopen]
  exact ⟨rfl, by simp [served], rfl⟩

/-- One request of a pipeline: the bytes behind it are left, and the connection is ready for
them. -/
theorem readHttp_one {server : Server} (hserver : server.LeavesFraming)
    (hmax : server.settings.maxRequestSize < intMax) {req : PlainRequest}
    (hfit : (req.bytes.length : Int) ≤ server.settings.maxRequestSize) {rest : Bytes}
    {h : HttpConnectionHandler} (hnone : h.currentRequest = none)
    (hb : h.socket.readBuffer = req.bytes ++ rest) :
    ∃ h₁ h₂, CollectEnds (h.ensureRequest server) h₁ ∧ h₁.dispatch server = .again h₂ ∧
      h₂.currentRequest = none ∧ h₂.socket.readBuffer = rest ∧
      h₂.served.map RequestView.message = h.served.map RequestView.message ++ [req.message] := by
  obtain ⟨r, hrun, hdone, hmessage⟩ := reads_request hmax req hfit rest
  obtain ⟨h₁, hends, hcol⟩ := collectEnds_of_reads hrun
    (h := h.ensureRequest server) (by rw [ensureRequest_none hnone])
    (by rw [ensureRequest_none hnone]; exact hb)
  obtain ⟨hclose, hversion⟩ := closeRequested_message hmessage
  obtain ⟨hreq, hserved, hsocket⟩ := serve_keepsOpen
    (respond_keepsOpen hserver h₁ hclose hversion)
  refine ⟨h₁, h₁.serve server r, hends, ?_, hreq, ?_, ?_⟩
  · unfold dispatch
    rw [hcol.request]
    simp only [hdone]
  · rw [hsocket, (respond_outputOnly server h₁ r).readBuffer, hcol.socket]
  · have hsame : h₁.served = h.served := by
      rw [served, hcol.log, ensureRequest_none hnone]
      rfl
    rw [hserved, hsame, List.map_append, List.map_cons, List.map_nil, hmessage]

/-- All requests of a pipeline, one after the other. -/
theorem pipelined_of_lt {server : Server} (hserver : server.LeavesFraming)
    (hmax : server.settings.maxRequestSize < intMax) {reqs : List PlainRequest}
    (hfit : ∀ req ∈ reqs, (req.bytes.length : Int) ≤ server.settings.maxRequestSize)
    {h : HttpConnectionHandler} (hnone : h.currentRequest = none)
    (hb : h.socket.readBuffer = reqs.flatMap PlainRequest.bytes) : Pipelined server h reqs := by
  induction reqs generalizing h with
  | nil =>
      obtain ⟨fuel, hfuel⟩ := readHttpEnds_iff.mp (readHttpEnds_empty server hb)
      exact ⟨fuel, h, hfuel, by simp, hb, hnone⟩
  | cons req reqs ih =>
      rw [List.flatMap_cons] at hb
      obtain ⟨h₁, h₂, hends, hagain, hnone₂, hb₂, hserved₂⟩ :=
        readHttp_one hserver hmax (hfit req (by simp)) hnone hb
      obtain ⟨fuel, h', hrun, hserved, hempty, hreq⟩ :=
        ih (fun q hq => hfit q (by simp [hq])) hnone₂ hb₂
      have hne : h.socket.readBuffer ≠ [] := by
        rw [hb, req.bytes_eq]
        simp [RequestHead.bytes]
      obtain ⟨fuel', hfuel'⟩ := readHttpEnds_iff.mp
        (readHttpEnds_again hne hends hagain (readHttpEnds_iff.mpr ⟨fuel, hrun⟩))
      refine ⟨fuel', h', hfuel', ?_, hempty, hreq⟩
      rw [hserved, hserved₂]
      simp

/-- With the largest possible limit `readHttp` does not return when bytes are waiting. -/
theorem readHttp_intMax {server : Server} (hmax : server.settings.maxRequestSize = intMax)
    {h : HttpConnectionHandler} (hnone : h.currentRequest = none) (hne : h.socket.readBuffer ≠ [])
    (fuel : Nat) : h.readHttp server fuel = none := by
  cases hrun : h.readHttp server fuel with
  | none => rfl
  | some h' =>
      obtain ⟨h₁, hends, -⟩ := readHttpEnds_inv hne (readHttpEnds_iff.mpr ⟨fuel, hrun⟩)
      obtain ⟨r', b', hreads, -⟩ := reads_of_collectEnds hends (by rw [ensureRequest_none hnone])
      rw [ensureRequest_none hnone] at hreads
      exact absurd hreads (not_reads_intMax hmax hne)

/-- **Pipelined requests round trip** exactly when there is room for the limit and one byte
more in an `int`. -/
theorem readHttp_pipeline_iff {server : Server} (hserver : server.LeavesFraming)
    {reqs : List PlainRequest}
    (hfit : ∀ req ∈ reqs, (req.bytes.length : Int) ≤ server.settings.maxRequestSize)
    {h : HttpConnectionHandler} (hnone : h.currentRequest = none)
    (hb : h.socket.readBuffer = reqs.flatMap PlainRequest.bytes) :
    Pipelined server h reqs ↔ reqs = [] ∨ server.settings.maxRequestSize < intMax := by
  constructor
  · rintro ⟨fuel, h', hrun, -⟩
    by_contra hcon
    obtain ⟨hreqs, hge⟩ := not_or.mp hcon
    have heq : server.settings.maxRequestSize = intMax :=
      Int.le_antisymm server.settings.maxRequestSize_isInt.2 (Int.not_lt.mp hge)
    obtain ⟨req, rest, rfl⟩ := List.exists_cons_of_ne_nil hreqs
    have hne : h.socket.readBuffer ≠ [] := by
      rw [hb, List.flatMap_cons, req.bytes_eq]
      simp [RequestHead.bytes]
    rw [readHttp_intMax heq hnone hne] at hrun
    cases hrun
  · rintro (rfl | hmax)
    · obtain ⟨fuel, hfuel⟩ := readHttpEnds_iff.mp (readHttpEnds_empty server hb)
      exact ⟨fuel, h, hfuel, by simp, hb, hnone⟩
    · exact pipelined_of_lt hserver hmax hfit hnone hb

/-! ### Two requests

A request without body and one with a body, in a row; and the first of them under the largest limit
there is. -/

/-- `GET /a?b=1` with a header. -/
def getRequest : PlainRequest where
  method := ascii "GET"
  path := ascii "/a?b=1"
  fields := [(ascii "Host", ascii "a b")]
  body := []
  method_word := ⟨by decide, by decide⟩
  path_word := ⟨by decide, by decide⟩
  fields_field := by
    intro f hf
    obtain rfl := List.mem_singleton.mp hf
    exact ⟨by decide, by decide, by decide, by decide, by decide, by decide⟩
  fields_connection := by decide
  fields_plain := by decide
  fields_length := .inl ⟨by decide, rfl⟩

/-- `POST /` with a body of two bytes. -/
def postRequest : PlainRequest where
  method := ascii "POST"
  path := ascii "/"
  fields := [(ascii "Content-Length", ascii "2")]
  body := CRLF
  method_word := ⟨by decide, by decide⟩
  path_word := ⟨by decide, by decide⟩
  fields_field := by
    intro f hf
    obtain rfl := List.mem_singleton.mp hf
    exact ⟨by decide, by decide, by decide, by decide, by decide, by decide⟩
  fields_connection := by decide
  fields_plain := by decide
  fields_length := .inr ⟨ascii "2", by decide, by decide⟩

theorem plainServer_leavesFraming (settings : Settings) : (plainServer settings).LeavesFraming := by
  intro past request c hc
  obtain rfl := List.mem_singleton.mp hc
  exact trivial

/-- A new handler with these bytes in its read buffer. -/
def received (b : Bytes) : HttpConnectionHandler :=
  { HttpConnectionHandler.new with socket := { TcpSocket.new with readBuffer := b } }

theorem readHttp_pipeline_get_post :
    Pipelined (plainServer defaultSettings)
      (received ([getRequest, postRequest, getRequest].flatMap PlainRequest.bytes))
      [getRequest, postRequest, getRequest] :=
  (readHttp_pipeline_iff (plainServer_leavesFraming defaultSettings) (by decide) rfl rfl).mpr
    (.inr (by decide))

/-- The settings with the largest request size. -/
def largestSettings : Settings where
  maxRequestSize := 2147483647
  maxMultiPartSize := 1000000
  maxRequestSize_isInt := by decide
  maxMultiPartSize_isInt := isInt_million

/-- **The largest request size stops the server**: a single small request is never answered,
since `readHttp` does not return. -/
theorem not_pipelined_largest :
    (plainServer largestSettings).LeavesFraming ∧
      (getRequest.bytes.length : Int) ≤ largestSettings.maxRequestSize ∧
      ¬ Pipelined (plainServer largestSettings) (received getRequest.bytes) [getRequest] := by
  refine ⟨plainServer_leavesFraming _, by decide, ?_⟩
  rintro ⟨fuel, h', hrun, -⟩
  have hne : (received getRequest.bytes).socket.readBuffer ≠ [] := by
    show getRequest.bytes ≠ []
    decide
  rw [readHttp_intMax (by rfl) rfl hne] at hrun
  cases hrun

end HttpConnectionHandler

end QtWebApp
