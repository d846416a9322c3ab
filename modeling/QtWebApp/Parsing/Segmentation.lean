import QtWebApp.Connection.Events
import QtWebApp.Parsing.Alike
import QtWebApp.Parsing.Pipelining

/-!
# QtWebApp.Parsing.Segmentation

Independence of TCP segmentation.

The bytes of a connection arrive in segments, and `readHttp` runs after each of them
(`receiveAll`). In every run that meets the conditions under which the code does not look at
where a segment ended (`SegmentMeets`), the handler stays alike the machine that is fed byte
by byte (`receiveAll_alike`); so two ways to cut the same bytes lead to the same requests and
the same rejections (`receiveAll_segmentation`). The conditions can be checked by running the
loops (`checkRun`).

The conditions are those of the calls, collected over all calls that a run makes, and one about
rejections: the answer to a request that is aborted has to reach the network at once, or nothing may
be unread then, because the loop goes on with what is unread although the connection is being
closed.
-/

namespace QtWebApp

open Bytes

namespace HttpConnectionHandler

open HttpRequest

/-! ### The conditions of a segment

They are about what a run of `readHttp` comes across, and that depends on nothing but the handler at
its beginning. -/

/-- The whole rejection reaches the network at once. -/
def RejectionSent (server : Server) (h : HttpConnectionHandler) : Prop :=
  (((h.socket.write server.network rejection).2).flush server.network).unsent = false

/-- The conditions of a run of `readHttp`: every call of `readFromSocket` meets its own, and when
a request is aborted the connection ends there, or nothing is left unread (and a new request
does not start with too many bytes). -/
structure SegmentMeets (server : Server) (h : HttpConnectionHandler) : Prop where
  calls : ∀ {h₁ h₂ r}, Loop.Reach (httpBody server) h h₁ →
    Loop.Reach (fun _ => collectBody) (h₁.ensureRequest server) h₂ → h₂.currentRequest = some r →
    r.Hungry h₂.socket.readBuffer → r.ReadMeets h₂.socket.readBuffer
  rejections : ∀ {h₁ h₂ r}, Loop.Reach (httpBody server) h h₁ →
    CollectEnds (h₁.ensureRequest server) h₂ → h₂.currentRequest = some r → r.status = .abort →
    RejectionSent server h₂ ∨ (0 ≤ server.settings.maxRequestSize ∧ h₂.socket.readBuffer = [])

/-! ### The inner loop

By induction on the bytes that are unread: each call takes some of them, and the machine is fed the
same ones. -/

theorem dispatch_busy (server : Server) {g : HttpConnectionHandler} {r : HttpRequest}
    (hr : g.currentRequest = some r) (hbusy : r.Busy) : g.dispatch server = .again g := by
  rw [HttpConnectionHandler.dispatch, hr]
  dsimp only
  split
  · next hs => exact absurd hs hbusy.2
  · next hs => exact absurd hs hbusy.1
  · rfl

theorem turned_dispatch_busy (server : Server) {g : HttpConnectionHandler} {r : HttpRequest}
    (hr : g.currentRequest = some r) (hbusy : r.Busy) : turned (g.dispatch server) = g := by
  rw [dispatch_busy server hr hbusy]
  rfl

theorem turned_dispatch_done (server : Server) {g : HttpConnectionHandler} {r : HttpRequest}
    (hr : g.currentRequest = some r) (hdone : ¬ r.Busy) :
    (turned (g.dispatch server)).currentRequest = none := by
  unfold HttpConnectionHandler.dispatch
  rw [hr]
  dsimp only
  split
  · rfl
  · rfl
  · next hc ha => exact absurd ⟨ha, hc⟩ hdone

theorem feed_over (server : Server) {g : HttpConnectionHandler} (hg : g.socket.state = .unconnected)
    (b : Bytes) : b.foldl (feed server) g = g := by
  induction b with
  | nil => rfl
  | cons c b ih => rw [List.foldl_cons, feed, if_pos hg, ih]

theorem settleRequest_none (server : Server) {g : HttpConnectionHandler}
    (hr : g.currentRequest = none) : g.settleRequest server = g := by
  rw [settleRequest, hr]

theorem settleRequest_not_overdue (server : Server) {g : HttpConnectionHandler} {r : HttpRequest}
    (hr : g.currentRequest = some r) (ho : ¬ r.Overdue) : g.settleRequest server = g := by
  rw [settleRequest, hr]
  exact if_neg ho

/-- Bytes that go to the request. -/
theorem feeds_proceed (server : Server) {r r' : HttpRequest} {d : Bytes} (hfeeds : Feeds r d r')
    {g : HttpConnectionHandler} (hg : g.socket.state ≠ .unconnected)
    (hr : g.currentRequest = some r) (ho : ¬ r.Overdue) :
    d.foldl (feed server) g = g.proceed server r' := by
  induction hfeeds generalizing g with
  | one r c =>
      rw [List.foldl_cons, List.foldl_nil, feed, if_neg hg]
      simp only [settleRequest_not_overdue server hr ho, if_neg hg, request, hr, Option.getD_some]
  | @more r r' c d hbusy hnot hrest ih =>
      have hfirst : feed server g c = { g with currentRequest := some (r.feed c) } := by
        rw [feed, if_neg hg]
        simp only [settleRequest_not_overdue server hr ho, if_neg hg, request, hr, Option.getD_some]
        exact turned_dispatch_busy server rfl hbusy
      rw [List.foldl_cons, hfirst,
        ih (g := { g with currentRequest := some (r.feed c) }) hg rfl hnot]
      rfl

/-- A byte that meets a request waiting for a body of negative length goes to the next request. -/
theorem feed_overdue (server : Server) {g : HttpConnectionHandler} {r : HttpRequest}
    (hg : g.socket.state ≠ .unconnected) (hr : g.currentRequest = some r) (ho : r.Overdue)
    (hend : ¬ r.settle.Busy) {b : Bytes} (hb : b ≠ []) :
    b.foldl (feed server) g = b.foldl (feed server) (g.proceed server r.settle) := by
  obtain ⟨c, d, rfl⟩ : ∃ c d, b = c :: d := List.exists_cons_of_ne_nil hb
  have hsettle : g.settleRequest server = g.proceed server r.settle := by
    rw [settleRequest, hr]
    exact if_pos ho
  have hnone : (g.proceed server r.settle).currentRequest = none :=
    turned_dispatch_done server rfl hend
  have hfirst : feed server g c = feed server (g.proceed server r.settle) c := by
    rw [feed, if_neg hg, feed]
    simp only [hsettle, settleRequest_none server hnone]
    by_cases hover : (g.proceed server r.settle).socket.state = .unconnected
    · simp only [hover, if_true]
    · simp only [hover, if_false]
  rw [List.foldl_cons, List.foldl_cons, hfirst]

/-- What the inner loop has done with the bytes when it ends. -/
structure InnerDone (server : Server) (h g : HttpConnectionHandler) (r : HttpRequest)
    (h₁ g₁ : HttpConnectionHandler) (r₁ : HttpRequest) : Prop where
  ends : CollectEnds h h₁
  serving : h₁.Serving
  state : h₁.socket.state = h.socket.state
  request : h₁.currentRequest = some r₁
  parsing : r₁.Busy → r₁.Parsing ∧ h₁.socket.readBuffer = []
  alike : Alike h₁ g₁
  fed : h.socket.readBuffer.foldl (feed server) g =
    h₁.socket.readBuffer.foldl (feed server) (turned (g₁.dispatch server))
  shorter : h₁.socket.readBuffer.length < h.socket.readBuffer.length ∨
    (r.Overdue ∧ h₁.socket.readBuffer = h.socket.readBuffer)

theorem hungry_of_parsing {r : HttpRequest} (h : r.Parsing) {b : Bytes}
    (hb : b ≠ []) : r.Hungry b :=
  ⟨hb, h.busy.1, h.busy.2⟩

/-- **The inner loop** does what feeding its bytes does. -/
theorem collect_alike (server : Server) (n : Nat) :
    ∀ {h g : HttpConnectionHandler} {r : HttpRequest}, h.socket.readBuffer.length ≤ n →
      h.Serving → h.socket.state ≠ .unconnected → h.currentRequest = some r → r.Parsing →
      h.socket.readBuffer ≠ [] → Alike h g →
      (∀ {h₂ r₂}, Loop.Reach (fun _ => collectBody) h h₂ → h₂.currentRequest = some r₂ →
        r₂.Hungry h₂.socket.readBuffer → r₂.ReadMeets h₂.socket.readBuffer) →
      ∃ h₁ g₁ r₁, InnerDone server h g r h₁ g₁ r₁ := by
  induction n with
  | zero =>
      intro h g r hn _ _ _ _ hb
      exact absurd (List.length_eq_zero_iff.mp (by omega)) hb
  | succ n ih =>
      intro h g r hn hs hopen hr hp hb ha hmeets
      have hhungry := hungry_of_parsing hp hb
      obtain ⟨hdoes, hkeep⟩ := call_spec hp hb (hmeets .start hr hhungry)
      have hone := readOnce_collected h r
      have hturn := collectBody_again hr hhungry
      generalize (r.readFromSocket h.socket.readBuffer).1 = r' at hdoes hkeep hone
      generalize (r.readFromSocket h.socket.readBuffer).2 = b' at hdoes hone
      generalize h.readOnce r = h' at hone hturn
      have hstate : h'.socket.state = h.socket.state := by rw [hone.socket]
      have hbuffer : h'.socket.readBuffer = b' := by rw [hone.socket]
      have hs' : h'.Serving := hs.congr hone.webSocket hone.type hstate (by rw [hone.socket])
        fun hover => absurd (hstate ▸ hover) hopen
      have ha' := ha.collected hone
      have hg : g.socket.state ≠ .unconnected := by rw [ha.socket]; exact hopen
      have hgr : g.currentRequest = some r.exact := by rw [ha.request, hr]; rfl
      cases hdoes with
      | feeds d hd hbytes hfeeds hdue =>
          have hfed : h.socket.readBuffer.foldl (feed server) g =
              b'.foldl (feed server) (turned ({ g with currentRequest := some r'.exact }.dispatch
                server)) := by
            rw [hbytes, List.foldl_append, feeds_proceed server hfeeds hg hgr hdue]
            rfl
          have hlen : b'.length < h.socket.readBuffer.length := by
            have hpos := List.length_pos_iff.mpr hd
            rw [hbytes, List.length_append]
            omega
          by_cases hagain : r'.Busy ∧ b' ≠ []
          · -- the loop goes on with the rest
            obtain ⟨h₁, g₁, r₁, hdone⟩ := ih (h := h') (by rw [hbuffer]; omega) hs'
              (by rw [hstate]; exact hopen) hone.request (hkeep hagain.1)
              (by rw [hbuffer]; exact hagain.2) ha'
              (fun hreach => hmeets (hreach.prepend (k := 0) hturn))
            have hbusy : r'.exact.Busy := hagain.1
            have hfed' := hdone.fed
            rw [hbuffer] at hfed'
            rw [turned_dispatch_busy server rfl hbusy] at hfed
            refine ⟨h₁, g₁, r₁,
              ⟨.again (k := 0) (Loop.mono_const _) hturn hdone.ends, hdone.serving,
              hdone.state.trans hstate, hdone.request, hdone.parsing, hdone.alike, hfed.trans hfed',
              .inl ?_⟩⟩
            rcases hdone.shorter with hlt | ⟨-, heq⟩
            · rw [hbuffer] at hlt
              omega
            · rw [heq, hbuffer]
              exact hlen
          · have hstop : ¬ r'.Hungry h'.socket.readBuffer := by
              rw [hbuffer]
              exact fun hh => hagain ⟨⟨hh.2.1, hh.2.2⟩, hh.1⟩
            refine ⟨h', _, r', ⟨.again (k := 0) (Loop.mono_const _) hturn
              (.leave (k := 0) (Loop.mono_const _) (collectBody_leave hone.request hstop)), hs',
              hstate,
              hone.request, fun hbusy => ⟨hkeep hbusy, ?_⟩, ha', ?_, .inl ?_⟩⟩
            · rw [hbuffer]
              exact not_not.mp fun hne => hagain ⟨hbusy, hne⟩
            · rw [hbuffer]
              exact hfed
            · rw [hbuffer]
              exact hlen
      | settles hdue hrest hsettle hend =>
          have hstop : ¬ r'.Hungry h'.socket.readBuffer := fun hh => hend ⟨hh.2.1, hh.2.2⟩
          have hend' : ¬ r.exact.settle.Busy := by
            rw [← hsettle]
            exact hend
          refine ⟨h', _, r', ⟨.again (k := 0) (Loop.mono_const _) hturn
            (.leave (k := 0) (Loop.mono_const _) (collectBody_leave hone.request hstop)), hs',
            hstate,
            hone.request, fun hbusy => absurd hbusy hend, ha', ?_,
            .inr ⟨hdue, hbuffer.trans hrest⟩⟩⟩
          rw [hbuffer, hrest, hsettle]
          exact feed_overdue server hg hgr hdue hend' hb

/-! ### The outer loop

A turn for each request. At the end of a turn something has been taken, or the connection is
over. -/

/-- A handler between two runs of `readHttp`. -/
structure Between (h : HttpConnectionHandler) : Prop where
  serving : h.Serving
  parsing : ∀ r, h.currentRequest = some r → r.Parsing

theorem SegmentMeets.reach {server : Server} {h s : HttpConnectionHandler}
    (hm : SegmentMeets server h) (hreach : Loop.Reach (httpBody server) h s) :
    SegmentMeets server s :=
  ⟨fun h₁ => hm.calls (hreach.trans h₁), fun h₁ => hm.rejections (hreach.trans h₁)⟩

/-- What was unread when a connection began to close stays unread. -/
theorem Serving.disconnectFromHost_buffer {h : HttpConnectionHandler} (hs : h.Serving)
    (hopen : h.disconnectFromHost.socket.state ≠ .unconnected) :
    h.disconnectFromHost.socket.readBuffer = h.socket.readBuffer := by
  rw [hs.disconnectFromHost_eq] at hopen ⊢
  split
  · rfl
  · next hstate =>
      split
      · rfl
      · next hunsent =>
          rw [if_neg hstate, if_neg hunsent] at hopen
          exact absurd rfl hopen

theorem Serving.rejecting {h : HttpConnectionHandler} (server : Server) (hs : h.Serving) :
    (h.onSocket fun s => ((s.write server.network rejection).2).flush server.network).Serving :=
  hs.output rfl rfl (rejection_outputOnly server h.socket)

theorem Serving.reject_buffer {h : HttpConnectionHandler} (server : Server) (hs : h.Serving)
    (hopen : (h.reject server).socket.state ≠ .unconnected) :
    (h.reject server).socket.readBuffer = h.socket.readBuffer :=
  ((hs.rejecting server).disconnectFromHost_buffer hopen).trans
    (rejection_outputOnly server h.socket).readBuffer

/-- A rejection that is sent at once ends the connection. -/
theorem Serving.reject_over {h : HttpConnectionHandler} (server : Server) (hs : h.Serving)
    (hsent : RejectionSent server h) : (h.reject server).socket.state = .unconnected := by
  show (h.onSocket fun s =>
    ((s.write server.network rejection).2).flush server.network).disconnectFromHost.socket.state = _
  rw [(hs.rejecting server).disconnectFromHost_eq]
  split
  · assumption
  · have hunsent : (h.onSocket fun s =>
        ((s.write server.network rejection).2).flush server.network).socket.unsent = false := hsent
    rw [hunsent]
    rfl

theorem Serving.serve_buffer {h : HttpConnectionHandler} (server : Server) (hs : h.Serving)
    (r : HttpRequest) (hopen : (h.serve server r).socket.state ≠ .unconnected) :
    (h.serve server r).socket.readBuffer = h.socket.readBuffer := by
  have hkept := (respond_outputOnly server h r).readBuffer
  rw [serve_eq] at hopen ⊢
  split
  · next hclose =>
      rw [if_pos hclose] at hopen
      have hflushed : ((h.answered server r).onSocket (TcpSocket.flush server.network)).Serving :=
        (hs.answered server r).output rfl rfl (TcpSocket.flush_outputOnly (.refl _))
      exact (hflushed.disconnectFromHost_buffer hopen).trans hkept
  · exact hkept

theorem Serving.dispatch_buffer {h : HttpConnectionHandler} (server : Server) (hs : h.Serving)
    (hopen : (turned (h.dispatch server)).socket.state ≠ .unconnected) :
    (turned (h.dispatch server)).socket.readBuffer = h.socket.readBuffer := by
  unfold HttpConnectionHandler.dispatch at hopen ⊢
  cases hr : h.currentRequest with
  | none => rfl
  | some r =>
      rw [hr] at hopen
      dsimp only at hopen ⊢
      cases hstatus : r.status with
      | abort =>
          rw [hstatus] at hopen
          exact hs.reject_buffer server hopen
      | complete =>
          rw [hstatus] at hopen
          exact hs.serve_buffer server r hopen
      | waitForRequest => rfl
      | waitForHeader => rfl
      | waitForBody => rfl

/-- What a connection that has ended leaves unread is as good as nothing. -/
theorem fold_dispatch (server : Server) {h g : HttpConnectionHandler} (hs : h.Serving)
    (ha : Alike h g) :
    h.socket.readBuffer.foldl (feed server) (turned (g.dispatch server)) =
      (turned (h.dispatch server)).socket.readBuffer.foldl (feed server)
        (turned (g.dispatch server)) := by
  have halike := ha.dispatch server hs
  by_cases hover : (turned (h.dispatch server)).socket.state = .unconnected
  · have hg : (turned (g.dispatch server)).socket.state = .unconnected := by
      rw [halike.socket]
      exact hover
    rw [feed_over server hg, feed_over server hg]
  · rw [hs.dispatch_buffer server hover]

/-- The first request of a segment exists when its bytes are read. -/
theorem feed_ensureRequest (server : Server) {g : HttpConnectionHandler}
    (hg : g.socket.state ≠ .unconnected) (hr : g.currentRequest = none) {b : Bytes} (hb : b ≠ []) :
    b.foldl (feed server) g = b.foldl (feed server) (g.ensureRequest server) := by
  obtain ⟨c, d, rfl⟩ : ∃ c d, b = c :: d := List.exists_cons_of_ne_nil hb
  have hensure : g.ensureRequest server =
      { g with currentRequest := some (.new server.settings) } := by
    rw [ensureRequest, hr]
  have hnew : ¬ (HttpRequest.new server.settings).Overdue := fun ho => by cases ho.1
  have hfirst : feed server g c = feed server (g.ensureRequest server) c := by
    rw [hensure, feed, feed, if_neg hg, if_neg hg]
    simp only [settleRequest_none server hr,
      settleRequest_not_overdue server (g := { g with currentRequest := some _ }) rfl hnew, hg,
      if_false, request, hr, Option.getD_none, Option.getD_some]
    rfl
  rw [List.foldl_cons, List.foldl_cons, hfirst]

/-- The end of a connection does not look at the request. -/
theorem Serving.disconnectFromHost_request {h : HttpConnectionHandler} (hs : h.Serving)
    (request : Option HttpRequest) :
    { h with currentRequest := request }.disconnectFromHost =
      { h.disconnectFromHost with currentRequest := request } := by
  have hs' : ({ h with currentRequest := request }).Serving :=
    hs.congr rfl rfl rfl rfl fun hover => hs.ended hover
  rw [hs.disconnectFromHost_eq, hs'.disconnectFromHost_eq]
  by_cases hover : h.socket.state = .unconnected
  · simp only [hover, if_true]
  · by_cases hunsent : h.socket.unsent = true
    · simp only [hover, hunsent, if_true, if_false]
      rfl
    · simp only [hover, hunsent, if_false]
      rfl

/-- A rejection is the same whatever the request was. -/
theorem Serving.reject_request {h : HttpConnectionHandler} (server : Server) (hs : h.Serving)
    (request : Option HttpRequest) :
    { h with currentRequest := request }.reject server = h.reject server :=
  congrArg (fun h' : HttpConnectionHandler =>
      { h' with currentRequest := none, log := h.log ++ [Entry.reject] })
    ((hs.rejecting server).disconnectFromHost_request request)

/-! ### One turn

A turn is measured by what is left to do, and the turns are compared with the machine one by one. -/

/-- What is left to do, twice the unread bytes and one for the request. -/
def pending (h : HttpConnectionHandler) : Nat :=
  2 * h.socket.readBuffer.length + if h.currentRequest = none then 0 else 1

/-- What a turn of `readHttp` has done. -/
structure TurnDone (server : Server) (h g h₁ g₁ : HttpConnectionHandler) : Prop where
  ends : CollectEnds (h.ensureRequest server) h₁
  between : (turned (h₁.dispatch server)).Between
  alike : Alike (turned (h₁.dispatch server)) g₁
  fed : h.socket.readBuffer.foldl (feed server) g =
    (turned (h₁.dispatch server)).socket.readBuffer.foldl (feed server) g₁
  leaves : ∀ h', h₁.dispatch server = .leave h' → h'.socket.readBuffer = []
  shorter : ∀ h', h₁.dispatch server = .again h' → h'.pending < h.pending

theorem Serving.ensureRequest {h : HttpConnectionHandler} (server : Server) (hs : h.Serving) :
    (h.ensureRequest server).Serving := by
  unfold HttpConnectionHandler.ensureRequest
  split
  · exact hs
  · exact hs.congr rfl rfl rfl rfl fun hover => hs.ended hover

theorem Alike.ensureRequest {h g : HttpConnectionHandler} (server : Server) (ha : Alike h g) :
    Alike (h.ensureRequest server) (g.ensureRequest server) := by
  have hgr := ha.request
  cases hr : h.currentRequest with
  | some r =>
      rw [hr] at hgr
      rwa [ensureRequest_some hr, ensureRequest_some hgr]
  | none =>
      rw [hr] at hgr
      rw [ensureRequest_none hr, ensureRequest_none hgr]
      exact ⟨ha.type, ha.webSocket, ha.busy, ha.log, rfl, ha.socket⟩

theorem fold_ensureRequest (server : Server) {g : HttpConnectionHandler}
    (hg : g.socket.state ≠ .unconnected) {b : Bytes} (hb : b ≠ []) :
    b.foldl (feed server) g = b.foldl (feed server) (g.ensureRequest server) := by
  cases hr : g.currentRequest with
  | some r => rw [ensureRequest_some hr]
  | none => exact feed_ensureRequest server hg hr hb

/-- A rejection under the conditions leaves nothing unread. -/
theorem Serving.reject_empty {h : HttpConnectionHandler} (server : Server) (hs : h.Serving)
    (hm : RejectionSent server h ∨
      (0 ≤ server.settings.maxRequestSize ∧ h.socket.readBuffer = [])) :
    (h.reject server).socket.readBuffer = [] := by
  by_cases hover : (h.reject server).socket.state = .unconnected
  · exact (hs.reject server).ended hover
  · rcases hm with hsent | ⟨-, hempty⟩
    · exact absurd (hs.reject_over server hsent) hover
    · rw [hs.reject_buffer server hover, hempty]

/-- The loop is left when the request was aborted. -/
theorem dispatch_leave {server : Server} {h h' : HttpConnectionHandler}
    (hleave : h.dispatch server = .leave h') :
    ∃ r, h.currentRequest = some r ∧ r.status = .abort ∧ h' = h.reject server := by
  unfold HttpConnectionHandler.dispatch at hleave
  cases hr : h.currentRequest with
  | none =>
      rw [hr] at hleave
      cases hleave
  | some r =>
      rw [hr] at hleave
      dsimp only at hleave
      split at hleave
      · next habort =>
          cases hleave
          exact ⟨r, rfl, habort, rfl⟩
      · cases hleave
      · cases hleave

theorem dispatch_abort (server : Server) {h : HttpConnectionHandler} {r : HttpRequest}
    (hr : h.currentRequest = some r) (habort : r.status = .abort) :
    h.dispatch server = .leave (h.reject server) := by
  rw [HttpConnectionHandler.dispatch, hr]
  dsimp only
  rw [habort]

theorem dispatch_complete (server : Server) {h : HttpConnectionHandler} {r : HttpRequest}
    (hr : h.currentRequest = some r) (hdone : r.status = .complete) :
    h.dispatch server = .again (h.serve server r) := by
  rw [HttpConnectionHandler.dispatch, hr]
  dsimp only
  rw [hdone]

/-- **A turn of `readHttp`** with a request that has room for data. -/
theorem turn_parsing {server : Server} {h g : HttpConnectionHandler} {r : HttpRequest}
    (hs : h.Serving) (ha : Alike h g) (hb : h.socket.readBuffer ≠ []) (hm : SegmentMeets server h)
    (hr : (h.ensureRequest server).currentRequest = some r) (hp : r.Parsing)
    (hnew : h.currentRequest = none → ¬ r.Overdue) : ∃ h₁ g₁, TurnDone server h g h₁ g₁ := by
  have hopen : h.socket.state ≠ .unconnected := fun hover => hb (hs.ended hover)
  have hg : g.socket.state ≠ .unconnected := by rw [ha.socket]; exact hopen
  have hsocket := ensureRequest_socket server h
  obtain ⟨h₁, g₁, r₁, hdone⟩ := collect_alike server _ (Nat.le_refl _) (hs.ensureRequest server)
    (by rw [hsocket]; exact hopen) hr hp (by rw [hsocket]; exact hb) (ha.ensureRequest server)
    (hm.calls .start)
  have hfed := hdone.fed
  have hshorter := hdone.shorter
  rw [hsocket] at hfed hshorter
  refine ⟨h₁, _, ⟨hdone.ends, ⟨hdone.serving.dispatch server, fun r' hr' => ?_⟩,
    hdone.alike.dispatch server hdone.serving, ?_, fun h' hleave => ?_, fun h' hagain => ?_⟩⟩
  · by_cases hbusy : r₁.Busy
    · rw [turned_dispatch_busy server hdone.request hbusy, hdone.request] at hr'
      cases hr'
      exact (hdone.parsing hbusy).1
    · rw [turned_dispatch_done server hdone.request hbusy] at hr'
      cases hr'
  · rw [fold_ensureRequest server hg hb, hfed]
    exact fold_dispatch server hdone.serving hdone.alike
  · obtain ⟨r', hr', habort, rfl⟩ := dispatch_leave hleave
    exact hdone.serving.reject_empty server (hm.rejections .start hdone.ends hr' habort)
  · have hturned : turned (h₁.dispatch server) = h' := by rw [hagain]; rfl
    by_cases hbusy : r₁.Busy
    · -- everything was read
      rw [turned_dispatch_busy server hdone.request hbusy] at hturned
      subst hturned
      have hempty := (hdone.parsing hbusy).2
      have hpos := List.length_pos_iff.mpr hb
      unfold pending
      rw [hempty, List.length_nil]
      split <;> omega
    · have hnone : h'.currentRequest = none :=
        hturned ▸ turned_dispatch_done server hdone.request hbusy
      have hle : h'.socket.readBuffer.length ≤ h₁.socket.readBuffer.length := by
        by_cases hover : h'.socket.state = .unconnected
        · have hempty := (hdone.serving.dispatch server).ended (by rw [hturned]; exact hover)
          rw [hturned] at hempty
          rw [hempty]
          exact Nat.zero_le _
        · have hsame := hdone.serving.dispatch_buffer server (by rw [hturned]; exact hover)
          rw [hturned] at hsame
          rw [hsame]
      unfold pending
      rw [hnone]
      rcases hshorter with hlt | ⟨hdue, hsame⟩
      · simp only [if_true]
        omega
      · -- the request that ended without taking a byte was there before
        have hsome : h.currentRequest ≠ none := fun hnone => hnew hnone hdue
        rw [if_neg hsome, if_pos rfl, ← hsame]
        omega

/-- **A turn of `readHttp`** under a negative limit, which aborts the new request. -/
theorem turn_negative {server : Server} {h g : HttpConnectionHandler} (hs : h.Serving)
    (ha : Alike h g) (hb : h.socket.readBuffer ≠ []) (hm : SegmentMeets server h)
    (hr : h.currentRequest = none) (hlimit : server.settings.maxRequestSize < 0) :
    ∃ h₁ g₁, TurnDone server h g h₁ g₁ := by
  have hopen : h.socket.state ≠ .unconnected := fun hover => hb (hs.ended hover)
  have hg : g.socket.state ≠ .unconnected := by rw [ha.socket]; exact hopen
  have hgr : g.currentRequest = none := by rw [ha.request, hr]; rfl
  set r := HttpRequest.new server.settings with hr₀
  have hr₁ : (h.ensureRequest server).currentRequest = some r := by rw [ensureRequest_none hr]
  have hsocket := ensureRequest_socket server h
  have hhungry : r.Hungry (h.ensureRequest server).socket.readBuffer :=
    ⟨by rw [hsocket]; exact hb, by simp [hr₀, HttpRequest.new], by simp [hr₀, HttpRequest.new]⟩
  have hmeets := hm.calls .start .start hr₁ hhungry
  have habort := new_negative_call hlimit (b := (h.ensureRequest server).socket.readBuffer)
    (by simpa [hr₀, HttpRequest.new] using (hmeets.line (.inl rfl)).counter)
  have hone := readOnce_collected (h.ensureRequest server) r
  have hturn := collectBody_again hr₁ hhungry
  generalize (r.readFromSocket (h.ensureRequest server).socket.readBuffer).1 = r' at habort hone
  generalize (r.readFromSocket (h.ensureRequest server).socket.readBuffer).2 = b' at hone
  generalize (h.ensureRequest server).readOnce r = h₁ at hone hturn
  have hends : CollectEnds (h.ensureRequest server) h₁ :=
    .again (k := 0) (Loop.mono_const _) hturn (.leave (k := 0) (Loop.mono_const _)
      (collectBody_leave hone.request fun hh => hh.2.2 habort))
  have hs₁ : h₁.Serving := (hs.ensureRequest server).congr hone.webSocket hone.type
    (by rw [hone.socket]) (by rw [hone.socket]) fun hover => absurd (by
      rwa [hone.socket, hsocket] at hover) hopen
  have hmet := hm.rejections .start hends hone.request habort
  have hover : (h₁.reject server).socket.state = .unconnected := hs₁.reject_over server
    (hmet.resolve_right fun hpos => by omega)
  have hreject := dispatch_abort server hone.request habort
  have halike : Alike (h₁.reject server) (g.reject server) := by
    have hcollected := ((ha.ensureRequest server).collected hone).reject server hs₁
    rw [ensureRequest_none hgr] at hcollected
    rwa [← (hs.alike ha).reject_request server (some r'.exact)]
  have hgover : (g.reject server).socket.state = .unconnected := by
    rw [halike.socket]
    exact hover
  refine ⟨h₁, g.reject server, ⟨hends, ?_, ?_, ?_, fun h' hleave => ?_, fun h' hagain => ?_⟩⟩
  · rw [hreject]
    exact ⟨hs₁.reject server, fun r' hr' => by cases hr'⟩
  · rw [hreject]
    exact halike
  · obtain ⟨c, d, hbytes⟩ : ∃ c d, h.socket.readBuffer = c :: d := List.exists_cons_of_ne_nil hb
    have hfirst : feed server g c = g.reject server := by
      have hdispatch := dispatch_abort server
          (h := { g with currentRequest := some (r.feed c) }) rfl
        (new_negative_feed hlimit c)
      rw [feed, if_neg hg]
      simp only [settleRequest_none server hgr, hg, if_false, request, hgr, Option.getD_none]
      rw [proceed, hdispatch]
      exact (hs.alike ha).reject_request server _
    rw [hbytes, List.foldl_cons, hfirst, feed_over server hgover, feed_over server hgover]
  · rw [hreject] at hleave
    cases hleave
    exact (hs₁.reject server).ended hover
  · rw [hreject] at hagain
    cases hagain

/-- **A turn of `readHttp`.** -/
theorem turn_alike {server : Server} (hlimit : server.settings.maxRequestSize < intMax)
    {h g : HttpConnectionHandler} (hbet : h.Between) (ha : Alike h g)
    (hb : h.socket.readBuffer ≠ []) (hm : SegmentMeets server h) :
    ∃ h₁ g₁, TurnDone server h g h₁ g₁ := by
  cases hr : h.currentRequest with
  | some r =>
      exact turn_parsing hbet.serving ha hb hm (by rw [ensureRequest_some hr, hr])
        (hbet.parsing r hr) (fun hnone => by rw [hr] at hnone; cases hnone)
  | none =>
      rcases Int.lt_or_le server.settings.maxRequestSize 0 with hneg | hpos
      · exact turn_negative hbet.serving ha hb hm hr hneg
      · exact turn_parsing hbet.serving ha hb hm (by rw [ensureRequest_none hr])
          (parsing_new hpos hlimit) (fun _ ho => by cases ho.1)

/-- **A run of `readHttp`** that meets the conditions ends, with the handler in the state to which
feeding its bytes leads. -/
theorem readHttp_alike {server : Server} (hlimit : server.settings.maxRequestSize < intMax)
    {h g : HttpConnectionHandler} (hbet : h.Between) (ha : Alike h g) (hm : SegmentMeets server h) :
    ∃ h', ReadHttpEnds server h h' ∧ h'.Between ∧ h'.socket.readBuffer = [] ∧
      Alike h' (h.socket.readBuffer.foldl (feed server) g) := by
  -- the invariant: what is still unread leads from some state of the machine to the same end
  refine Loop.ends_of_measure (httpBody_mono server)
    (fun s => s.Between ∧ Loop.Reach (httpBody server) h s ∧ ∃ gs, Alike s gs ∧
      s.socket.readBuffer.foldl (feed server) gs = h.socket.readBuffer.foldl (feed server) g)
    _ pending ?_ h ⟨hbet, .start, g, ha, rfl⟩
  intro s ⟨hsbet, hreach, gs, hsa, hfold⟩
  by_cases hb : s.socket.readBuffer = []
  · refine ⟨0, .inl ⟨s, if_pos hb, hsbet, hb, ?_⟩⟩
    rw [← hfold, hb]
    exact hsa
  · obtain ⟨h₁, g₁, hturn⟩ := turn_alike hlimit hsbet hsa hb (hm.reach hreach)
    obtain ⟨k, hk⟩ := httpBody_turn hb hturn.ends
    have hbetween := hturn.between
    have halike := hturn.alike
    have hfed := hturn.fed
    cases hd : h₁.dispatch server with
    | leave h' =>
        have hempty := hturn.leaves h' hd
        rw [hd] at hk hbetween halike hfed
        refine ⟨k, .inl ⟨h', hk, hbetween, hempty, ?_⟩⟩
        rw [← hfold, hfed]
        rw [show (turned (Turn.leave h')).socket.readBuffer = [] from hempty]
        exact halike
    | again h' =>
        rw [hd] at hk hbetween halike hfed
        exact ⟨k, .inr ⟨h', hk, ⟨hbetween, hreach.again hk, g₁, halike, hfed.symm.trans hfold⟩,
          hturn.shorter h' hd⟩⟩

/-! ### Segments one after the other

Between two segments nothing is unread, so the machine that has been fed all bytes so far is in the
state in which the next segment finds the handler. -/

/-- The handler when a segment has just arrived. -/
def arrive (h : HttpConnectionHandler) (segment : Bytes) : HttpConnectionHandler :=
  h.onSocket fun s => { s with readBuffer := s.readBuffer ++ segment }

/-- The conditions of a run over segments: those of every run of `readHttp`. -/
def RunMeets (server : Server) : HttpConnectionHandler → List Bytes → Prop
  | _, [] => True
  | h, segment :: segments =>
      (h.socket.state ≠ .unconnected → SegmentMeets server (h.arrive segment)) ∧
        ∀ fuel h', receive server fuel h segment = some h' → RunMeets server h' segments

/-- The slot `readHttp` is the one that runs. -/
theorem Serving.emitReadyRead {h : HttpConnectionHandler} (server : Server) (fuel : Nat)
    (hs : h.Serving) (hopen : h.socket.state ≠ .unconnected) :
    h.emitReadyRead server fuel = h.readHttp server fuel := by
  obtain ⟨-, -, hslots⟩ := hs.connected hopen
  have hmem : (Signal.readyRead, Slot.readHttp) ∈ h.socket.connections :=
    mem_slots.mp (by rw [hslots]; exact List.mem_cons_self)
  rw [HttpConnectionHandler.emitReadyRead, hslots, List.foldlM_cons, if_pos hmem]
  exact bind_pure _

/-- **A segment** leads to the state to which feeding its bytes leads. -/
theorem receive_alike {server : Server} (hlimit : server.settings.maxRequestSize < intMax)
    {h g : HttpConnectionHandler} (hbet : h.Between) (hb : h.socket.readBuffer = [])
    (ha : Alike h g) (segment : Bytes)
    (hm : h.socket.state ≠ .unconnected → SegmentMeets server (h.arrive segment)) :
    ∃ fuel h', (∀ n, fuel ≤ n → receive server n h segment = some h') ∧ h'.Between ∧
      h'.socket.readBuffer = [] ∧ Alike h' (segment.foldl (feed server) g) := by
  by_cases hover : h.socket.state = .unconnected
  · have hg : g.socket.state = .unconnected := by rw [ha.socket]; exact hover
    rw [feed_over server hg]
    exact ⟨0, h, fun n _ => if_pos hover, hbet, hb, ha⟩
  · have hs : (h.arrive segment).Serving :=
      hbet.serving.congr rfl rfl rfl rfl fun hno => absurd hno hover
    have hbuffer : (h.arrive segment).socket.readBuffer = segment := by
      show h.socket.readBuffer ++ segment = segment
      rw [hb, List.nil_append]
    obtain ⟨h', ⟨fuel, hends⟩, hbet', hb', ha'⟩ := readHttp_alike hlimit
      (h := h.arrive segment) (g := g) ⟨hs, hbet.parsing⟩
      ⟨ha.type, ha.webSocket, ha.busy, ha.log, ha.request, ha.socket⟩ (hm hover)
    rw [hbuffer] at ha'
    refine ⟨fuel, h', fun n hn => ?_, hbet', hb', ha'⟩
    rw [receive, if_neg hover]
    exact (hs.emitReadyRead server n hover).trans (readHttp_mono server hn hends)

/-- **A run over segments** leads to the state to which feeding all their bytes leads: where they
were cut does not matter. -/
theorem receiveAll_alike {server : Server} (hlimit : server.settings.maxRequestSize < intMax)
    (segments : List Bytes) {h g : HttpConnectionHandler} (hbet : h.Between)
    (hb : h.socket.readBuffer = []) (ha : Alike h g) (hm : RunMeets server h segments) :
    ∃ fuel h', (∀ n, fuel ≤ n → receiveAll server n h segments = some h') ∧
      Alike h' (segments.flatten.foldl (feed server) g) := by
  induction segments generalizing h g with
  | nil => exact ⟨0, h, fun _ _ => rfl, ha⟩
  | cons segment segments ih =>
      obtain ⟨fuel₁, h₁, hfirst, hbet₁, hb₁, ha₁⟩ := receive_alike hlimit hbet hb ha segment hm.1
      obtain ⟨fuel₂, h₂, hrest, ha₂⟩ := ih hbet₁ hb₁ ha₁
          (hm.2 fuel₁ h₁ (hfirst fuel₁ (Nat.le_refl _)))
      refine ⟨max fuel₁ fuel₂, h₂, fun n hn => ?_, ?_⟩
      · rw [receiveAll, List.foldlM_cons, hfirst n (by omega)]
        exact hrest n (by omega)
      · rw [List.flatten_cons, List.foldl_append]
        exact ha₂

/-- The requests handed to `service` and the rejections do not depend on the segments. -/
def SameOutcome (server : Server) (h : HttpConnectionHandler)
    (segments segments' : List Bytes) : Prop :=
  ∃ fuel g g', (∀ n, fuel ≤ n → receiveAll server n h segments = some g) ∧
    (∀ n, fuel ≤ n → receiveAll server n h segments' = some g') ∧ g.log = g'.log

/-! ### Checking the conditions

The conditions speak of all states that a run reaches. A function that runs the loops and looks at
each state decides them for given segments. -/

theorem receive_mono {server : Server} {n m : Nat} (hnm : n ≤ m) {h h' : HttpConnectionHandler}
    {segment : Bytes} (hrun : receive server n h segment = some h') :
    receive server m h segment = some h' := by
  unfold receive at hrun ⊢
  split
  · next hover => rwa [if_pos hover] at hrun
  · next hopen =>
      rw [if_neg hopen] at hrun
      exact emitReadyRead_mono server hnm hrun

/-- What a run over segments does does not depend on the fuel. -/
theorem receiveAll_mono {server : Server} {n m : Nat} (hnm : n ≤ m) {h h' : HttpConnectionHandler}
    {segments : List Bytes} (hrun : receiveAll server n h segments = some h') :
    receiveAll server m h segments = some h' :=
  Loop.foldlM_mono (fun _ _ _ => receive_mono hnm) hrun

/-- What a segment does does not depend on how much fuel there was. -/
theorem receive_unique {server : Server} {n m : Nat} {h h₁ h₂ : HttpConnectionHandler}
    {segment : Bytes} (hn : receive server n h segment = some h₁)
    (hm : receive server m h segment = some h₂) :
    h₁ = h₂ := by
  have hn' := receive_mono (Nat.le_max_left n m) hn
  have hm' := receive_mono (Nat.le_max_right n m) hm
  exact Option.some.inj (hn'.symm.trans hm')

instance (server : Server) (h : HttpConnectionHandler) : Decidable (RejectionSent server h) := by
  unfold RejectionSent; infer_instance

/-- Run the inner loop and look whether every call meets its conditions. -/
def checkCollect : Nat → HttpConnectionHandler → Bool
  | 0, _ => false
  | n + 1, h =>
      match h.currentRequest with
      | none => true
      | some r =>
          if r.Hungry h.socket.readBuffer then
            decide (r.ReadMeets h.socket.readBuffer) && checkCollect n (h.readOnce r)
          else true

/-- The conditions of a rejection, decided. -/
def checkRejection (server : Server) (h : HttpConnectionHandler) : Bool :=
  match h.currentRequest with
  | none => true
  | some r => decide (r.status = .abort →
      RejectionSent server h ∨ (0 ≤ server.settings.maxRequestSize ∧ h.socket.readBuffer = []))

/-- Run `readHttp` and look whether it meets its conditions. -/
def checkReadHttp (server : Server) : Nat → HttpConnectionHandler → Bool
  | 0, _ => false
  | n + 1, h =>
      checkCollect n (h.ensureRequest server) &&
        match loop collectBody n (h.ensureRequest server) with
        | none => false
        | some h₁ =>
            checkRejection server h₁ &&
              if h.socket.readBuffer = [] then true
              else
                match h₁.dispatch server with
                | .leave _ => true
                | .again h' => checkReadHttp server n h'

/-- Run over segments and look whether the run meets its conditions. -/
def checkRun (server : Server) (fuel : Nat) : HttpConnectionHandler → List Bytes → Bool
  | _, [] => true
  | h, segment :: segments =>
      (if h.socket.state = .unconnected then true
        else checkReadHttp server fuel (h.arrive segment)) &&
        match receive server fuel h segment with
        | none => false
        | some h' => checkRun server fuel h' segments

theorem checkCollect_sound {n : Nat} {h : HttpConnectionHandler} (hc : checkCollect n h = true)
    {h₂ : HttpConnectionHandler} (hreach : Loop.Reach (fun _ => collectBody) h h₂) :
    ∀ {r}, h₂.currentRequest = some r → r.Hungry h₂.socket.readBuffer →
      r.ReadMeets h₂.socket.readBuffer := by
  induction n generalizing h with
  | zero => cases hc
  | succ n ih =>
      intro r₂ hr₂ hh₂
      unfold checkCollect at hc
      cases hr : h.currentRequest with
      | none =>
          rcases hreach.inv with rfl | ⟨_, h', hturn, -⟩
          · rw [hr] at hr₂
            cases hr₂
          · rw [collectBody, hr] at hturn
            cases hturn
      | some r =>
          rw [hr] at hc
          dsimp only at hc
          by_cases hh : r.Hungry h.socket.readBuffer
          · rw [if_pos hh, Bool.and_eq_true] at hc
            rcases hreach.inv with rfl | ⟨_, h', hturn, hrest⟩
            · rw [hr] at hr₂
              cases hr₂
              exact of_decide_eq_true hc.1
            · rw [collectBody_again hr hh] at hturn
              cases hturn
              exact ih hc.2 hrest hr₂ hh₂
          · rcases hreach.inv with rfl | ⟨_, h', hturn, -⟩
            · rw [hr] at hr₂
              cases hr₂
              exact absurd hh₂ hh
            · rw [collectBody_leave hr hh] at hturn
              cases hturn

/-- **The check is sound.** -/
theorem checkReadHttp_sound {server : Server} {n : Nat} {h : HttpConnectionHandler}
    (hc : checkReadHttp server n h = true) : SegmentMeets server h := by
  suffices ∀ h₁, Loop.Reach (httpBody server) h h₁ → ∃ m, checkReadHttp server (m + 1) h₁ = true by
    refine ⟨fun hreach hinner => ?_, fun hreach hends => ?_⟩
    · obtain ⟨m, hm⟩ := this _ hreach
      rw [checkReadHttp, Bool.and_eq_true] at hm
      exact checkCollect_sound hm.1 hinner
    · obtain ⟨m, hm⟩ := this _ hreach
      rw [checkReadHttp, Bool.and_eq_true] at hm
      intro hr habort
      split at hm
      · cases hm.2
      · next h₁ hloop =>
          obtain rfl := hends.unique (Loop.mono_const _) ⟨m, hloop⟩
          rw [Bool.and_eq_true, checkRejection, hr] at hm
          exact of_decide_eq_true hm.2.1 habort
  intro h₁ hreach
  induction hreach with
  | start =>
      cases n with
      | zero => cases hc
      | succ m => exact ⟨m, hc⟩
  | @again k t t' _ hturn ih =>
      obtain ⟨m, hm⟩ := ih
      have hb : t.socket.readBuffer ≠ [] := by
        intro he
        rw [httpBody, if_pos he] at hturn
        cases hturn
      rw [httpBody, if_neg hb, Option.map_eq_some_iff] at hturn
      obtain ⟨h₂, hloop, hdispatch⟩ := hturn
      rw [checkReadHttp, Bool.and_eq_true] at hm
      split at hm
      · cases hm.2
      · next h₂' hloop' =>
          obtain rfl : h₂ = h₂' := Loop.Ends.unique (Loop.mono_const collectBody)
              ⟨k, hloop⟩ ⟨m, hloop'⟩
          rw [if_neg hb, hdispatch, Bool.and_eq_true] at hm
          cases m with
          | zero => cases hm.2.2
          | succ m => exact ⟨m, hm.2.2⟩

/-- **The check of a run is sound.** -/
theorem checkRun_sound {server : Server} (fuel : Nat) {segments : List Bytes}
    {h : HttpConnectionHandler} (hc : checkRun server fuel h segments = true) :
    RunMeets server h segments := by
  induction segments generalizing h with
  | nil => trivial
  | cons segment segments ih =>
      rw [checkRun, Bool.and_eq_true] at hc
      refine ⟨fun hopen => ?_, fun fuel' h' hrun => ?_⟩
      · rw [if_neg hopen] at hc
        exact checkReadHttp_sound hc.1
      · cases hrun' : receive server fuel h segment with
        | none =>
            rw [hrun'] at hc
            cases hc.2
        | some h'' =>
            rw [hrun'] at hc
            obtain rfl := receive_unique hrun hrun'
            exact ih hc.2

/-- **Independence of segmentation.** Two ways to cut the bytes of a connection, both of whose runs
meet the conditions, have the same outcome. -/
theorem receiveAll_segmentation {server : Server} (hlimit : server.settings.maxRequestSize < intMax)
    {h : HttpConnectionHandler} (hs : h.Serving) (hr : h.currentRequest = none)
    (hb : h.socket.readBuffer = []) {segments segments' : List Bytes}
    (hflat : segments.flatten = segments'.flatten) (hm : RunMeets server h segments)
    (hm' : RunMeets server h segments') : SameOutcome server h segments segments' := by
  have hbet : h.Between := ⟨hs, fun r hr' => by rw [hr] at hr'; cases hr'⟩
  obtain ⟨fuel, g, hrun, ha⟩ := receiveAll_alike hlimit segments hbet hb (.refl hr hb) hm
  obtain ⟨fuel', g', hrun', ha'⟩ := receiveAll_alike hlimit segments' hbet hb (.refl hr hb) hm'
  refine ⟨max fuel fuel', g, g', fun n hn => hrun n (by omega), fun n hn => hrun' n (by omega), ?_⟩
  rw [← ha.log, ← ha'.log, hflat]

/-- A connection that the slot `read` has found to be an HTTP connection. -/
def httpConnection : HttpConnectionHandler :=
  { HttpConnectionHandler.new with
      type := .http
      busy := true
      socket := { TcpSocket.new with
        state := .connected
        isOpen := true
        connections := [(.disconnected, .disconnected), (.readyRead, .readHttp)] } }

theorem httpConnection_serving : httpConnection.Serving where
  webSocket := rfl
  connected := fun _ => ⟨rfl, by simp [Watched, httpConnection], rfl⟩
  ended := fun _ => rfl

theorem receiveAll_segmentation_get :
    SameOutcome (plainServer defaultSettings) httpConnection
      [ascii "GET / HTTP/1.1\r\nA: b\r\n\r\nGET /c HT", ascii "TP/1.1\r\nA: b", ascii "\r\n\r\n"]
      [ascii "GET / HTTP/1", ascii ".1\r\nA: b\r\n\r\nGET /c HTTP/1.1\r\nA: b\r\n\r\n"] :=
  receiveAll_segmentation (by decide) httpConnection_serving rfl rfl (by decide)
    (checkRun_sound 20 (by decide +kernel)) (checkRun_sound 20 (by decide +kernel))

/-- **A segment that ends between the two bytes of a line end** makes the line feed a line of its
own: the headers end there, and the next header line is rejected as a request. -/
theorem not_sameOutcome_split_lineEnd :
    ¬ SameOutcome (plainServer defaultSettings) httpConnection
      [ascii "GET / HTTP/1.1\r", ascii "\nA: b\r\n\r\n"]
      [ascii "GET / HTTP/1.1\r\nA: b\r\n\r\n"] := by
  intro ⟨fuel, g, g', hrun, hrun', hlog⟩
  have htwo : (receiveAll (plainServer defaultSettings) 20 httpConnection
      [ascii "GET / HTTP/1.1\r", ascii "\nA: b\r\n\r\n"]).map (·.log.length) = some 2 := by
    decide +kernel
  have hone : (receiveAll (plainServer defaultSettings) 20 httpConnection
      [ascii "GET / HTTP/1.1\r\nA: b\r\n\r\n"]).map (·.log.length) = some 1 := by
    decide +kernel
  obtain ⟨h₁, hh₁, hlen₁⟩ := Option.map_eq_some_iff.mp htwo
  obtain ⟨h₂, hh₂, hlen₂⟩ := Option.map_eq_some_iff.mp hone
  have h₁g : h₁ = g := Option.some.inj
    ((receiveAll_mono (Nat.le_max_right fuel 20) hh₁).symm.trans (hrun _ (Nat.le_max_left _ _)))
  have h₂g : h₂ = g' := Option.some.inj
    ((receiveAll_mono (Nat.le_max_right fuel 20) hh₂).symm.trans (hrun' _ (Nat.le_max_left _ _)))
  rw [h₁g] at hlen₁
  rw [h₂g, ← hlog, hlen₁] at hlen₂
  cases hlen₂

end HttpConnectionHandler

end QtWebApp
