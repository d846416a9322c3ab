import QtWebApp.Parsing.Framed
import QtWebApp.Parsing.Limits

/-!
# QtWebApp.Parsing.Acceptance

Which requests within the limit are accepted.

A line of the head that arrives in several segments waits in the line buffer, and the counter
takes the whole buffer again with every piece that is read. How much is counted too much
follows from where the segments end (`recounts`), so whether a request passes is decided by
its size and that sum.

`Progress` says where in the request the parser is and what the counter has become;
`Progress.read` takes it over one call of `readFromSocket`, which either keeps it or aborts the
request because the sum is too large. `Passing` collects what keeps a run from both an overflow
and an abortion, and the three parts of `accepted_iff` differ in where that comes from.

The sum counts for each segment that begins inside a line what came of that line before. If it stays
within the limit, the request is accepted. If it does not, and the counter does not overflow, a
check aborts a request that is within the limit itself.
-/

namespace QtWebApp

open Bytes

namespace HttpRequest

/-! ### The arrival of a request

The inner loop of `readHttp` with its request and its socket, without the handler around them. A
segment arrives only when the loop has nothing more to do. -/

/-- What `readHttp` finds of a new request and its socket when these segments have arrived: its
inner loop runs after each of them until it has no more to do. -/
inductive Reached (settings : Settings) : List Bytes → Intake → Prop
  | start : Reached settings [] (.start settings)
  | arrive {segments : List Bytes} {s : Intake} (segment : Bytes) : Reached settings segments s →
      ¬ s.request.Hungry s.socket → Reached settings (segments ++ [segment])
        (s.step (.arrive segment))
  | read {segments : List Bytes} {s : Intake} : Reached settings segments s →
      s.request.Hungry s.socket → Reached settings segments (s.step .read)

/-- The request is not aborted, and it is complete when all segments have arrived. -/
def Accepted (settings : Settings) (segments : List Bytes) : Prop :=
  (∀ arrived s, arrived <+: segments → Reached settings arrived s → s.request.status ≠ .abort) ∧
    ∃ s, Reached settings segments s ∧ s.request.status = .complete

/-- At any time the counter is the number of bytes that were taken. -/
def CountedOnce (settings : Settings) (segments : List Bytes) : Prop :=
  ∀ arrived s, arrived <+: segments → Reached settings arrived s → s.request.currentSize = s.taken

/-- No segment ends between the two bytes of a line end of the head. -/
def LineEndsWhole (req : FramedRequest) (segments : List Bytes) : Prop :=
  ∀ arrived, arrived <+: segments → arrived.flatten.length < req.head.bytes.length →
    arrived.flatten.getLast? ≠ some CR

instance (req : FramedRequest) (segments : List Bytes) : Decidable (LineEndsWhole req segments) :=
  decidable_of_iff
    (∀ arrived ∈ segments.inits, arrived.flatten.length < req.head.bytes.length →
      arrived.flatten.getLast? ≠ some CR)
    (by simp only [List.mem_inits]; rfl)

/-! ### Bytes that are counted again

The number depends on the segments and on the length of the head, not on the parser. -/

/-- The bytes that are counted again: when a segment begins inside a line of the head, all that
came of this line before. The head has `size` bytes, `got` has arrived. -/
def recounts (size : Nat) : Bytes → List Bytes → Nat
  | _, [] => 0
  | got, segment :: segments =>
      (if segment ≠ [] ∧ got.length < size then openBytes got else 0) +
        recounts size (got ++ segment) segments

theorem recounts_append (size : Nat) (got : Bytes) (segments more : List Bytes) :
    recounts size got (segments ++ more) =
      recounts size got segments + recounts size (got ++ segments.flatten) more := by
  induction segments generalizing got with
  | nil => simp [recounts]
  | cons segment segments ih =>
      rw [List.cons_append, recounts, recounts, ih, List.flatten_cons, List.append_assoc]
      omega

/-- One segment more. -/
theorem recounts_concat (size : Nat) (segments : List Bytes) (segment : Bytes) :
    recounts size [] (segments ++ [segment]) = recounts size [] segments +
      if segment ≠ [] ∧ segments.flatten.length < size then openBytes segments.flatten else 0 := by
  rw [recounts_append, List.nil_append, recounts, recounts, Nat.add_zero]

theorem recounts_mono {size : Nat} {arrived segments : List Bytes} (h : arrived <+: segments) :
    recounts size [] arrived ≤ recounts size [] segments := by
  obtain ⟨more, rfl⟩ := h
  rw [recounts_append]
  exact Nat.le_add_right _ _

/-! ### Progress

The invariant of a run. It relates the counter to the number of bytes taken and to those counted
again. -/

/-- The bytes of the line buffer, when more is there to be read: the next call counts them again. -/
def owed (s : Intake) : Nat := if s.socket = [] then 0 else s.request.lineBuffer.length

/-- The request has taken `got`, everything being within the limit, and what was counted again of
it is known. -/
structure Progress (settings : Settings) (req : FramedRequest) (segments : List Bytes) (s : Intake)
    (got rest : Bytes) : Prop where
  arrived : got ++ s.socket = segments.flatten
  whole : got ++ rest = req.bytes
  taken : s.taken = got.length
  place : Place req s.request got rest
  maxSize : s.request.maxSize = settings.maxRequestSize
  within : s.request.currentSize ≤ settings.maxRequestSize
  ahead : s.taken ≤ s.request.currentSize
  counted : s.request.currentSize + owed s = s.taken + recounts req.head.bytes.length [] segments

theorem progress_start {settings : Settings} (req : FramedRequest)
    (h : 0 ≤ settings.maxRequestSize) :
    Progress settings req [] (.start settings) [] req.bytes where
  arrived := rfl
  whole := rfl
  taken := rfl
  place := by
    refine .head (y := []) (z := req.head.first) ⟨.request, rfl, rfl, rfl, rfl, rfl, rfl⟩ ?_
    simp [FramedRequest.bytes, RequestHead.bytes, lineBytes]
  maxSize := rfl
  within := h
  ahead := Int.le_refl _
  counted := rfl

namespace Progress

variable {settings : Settings} {req : FramedRequest} {segments : List Bytes} {s : Intake}
  {got rest : Bytes}

theorem length (h : Progress settings req segments s got rest) :
    s.taken + rest.length = req.bytes.length := by
  rw [h.taken, ← h.whole, List.length_append]

/-- What is to be read is the beginning of what is to come. -/
theorem socket_rest (h : Progress settings req segments s got rest) {later : Bytes}
    (hlater : segments.flatten ++ later = req.bytes) : s.socket ++ later = rest := by
  rw [← h.arrived, ← h.whole, List.append_assoc] at hlater
  exact List.append_cancel_left hlater

/-- When nothing is read any more, nothing is there. -/
theorem socket_idle (h : Progress settings req segments s got rest)
    (hidle : ¬ s.request.Hungry s.socket) {later : Bytes}
    (hlater : segments.flatten ++ later = req.bytes) : s.socket = [] := by
  by_contra hsocket
  have hrest := h.socket_rest hlater
  cases h.place with
  | head hplace =>
      obtain ⟨hc, ha⟩ := hplace.line.inLine.busy.1
      exact hidle ⟨hsocket, hc, ha⟩
  | body hs => exact hidle ⟨hsocket, by simp [hs], by simp [hs]⟩
  | complete hs hnil =>
      rw [hnil] at hrest
      exact hsocket (List.append_eq_nil_iff.mp hrest).1

/-- What waits in the line buffer while more of the request is to come. -/
theorem lineBuffer (h : Progress settings req segments s got rest) (hrest : rest ≠ []) :
    s.request.lineBuffer.length =
      if got.length < req.head.bytes.length then openBytes got else 0 := by
  have hlength := h.length
  have htaken := h.taken
  have hbytes := req.length
  cases h.place with
  | head hplace hhead =>
      rw [hhead, List.length_append, List.length_cons, List.length_append] at hlength
      rw [if_pos (by omega), hplace.buffer, hplace.waiting]
  | body _ _ hbuffer _ _ hbody =>
      -- the head has been taken, and nothing waits in a body
      have hpart := congrArg List.length hbody
      rw [List.length_append] at hpart
      rw [if_neg (by omega), hbuffer, List.length_nil]
  | complete _ hdone => exact absurd hdone hrest

/-- A segment arrives: what waits in the line buffer will be counted again. -/
theorem arrive (h : Progress settings req segments s got rest)
    (hidle : ¬ s.request.Hungry s.socket) {segment later : Bytes}
    (hlater : (segments ++ [segment]).flatten ++ later = req.bytes) :
    Progress settings req (segments ++ [segment]) (s.step (.arrive segment)) got rest := by
  have hflat : (segments ++ [segment]).flatten = segments.flatten ++ segment := by simp
  rw [hflat, List.append_assoc] at hlater
  have hsocket := h.socket_idle hidle hlater
  have hrest := h.socket_rest hlater
  have hgot : segments.flatten = got := by rw [← h.arrived, hsocket, List.append_nil]
  have hstep : (s.step (.arrive segment)).socket = segment := by
    show s.socket ++ segment = segment
    rw [hsocket, List.nil_append]
  have howed : owed (s.step (.arrive segment)) =
      if segment ≠ [] ∧ got.length < req.head.bytes.length then openBytes got else 0 := by
    unfold owed
    rw [hstep]
    show (if segment = [] then 0 else s.request.lineBuffer.length) = _
    by_cases hnil : segment = []
    · rw [if_pos hnil, if_neg fun hh => hh.1 hnil]
    · have hmore : rest ≠ [] := by
        rw [← hrest, hsocket]
        exact List.append_ne_nil_of_left_ne_nil hnil later
      rw [if_neg hnil, h.lineBuffer hmore]
      simp only [hnil, ne_eq, not_false_eq_true, true_and]
  refine ⟨?_, h.whole, h.taken, h.place, h.maxSize, h.within, h.ahead, ?_⟩
  · rw [hstep, hflat, hgot]
  · have hcounted := h.counted
    have hnothing : owed s = 0 := if_pos hsocket
    rw [hnothing] at hcounted
    rw [howed, recounts_concat, hgot]
    show s.request.currentSize + _ = s.taken + _
    rw [Int.natCast_add]
    omega

/-- The counter is in range before a call. -/
theorem bounds (h : Progress settings req segments s got rest)
    (hl : settings.maxRequestSize < intMax) :
    0 ≤ s.request.currentSize ∧ s.request.currentSize ≤ s.request.maxSize ∧
      s.request.maxSize < intMax := by
  have hahead := h.ahead
  have hwithin := h.within
  have hmax := h.maxSize
  exact ⟨by omega, by omega, by omega⟩

/-- What a call takes. -/
theorem callTakes (h : Progress settings req segments s got rest)
    (hhungry : s.request.Hungry s.socket) {later : Bytes}
    (hlater : segments.flatten ++ later = req.bytes)
    (hcut : segments.flatten.length < req.head.bytes.length → segments.flatten.getLast? ≠ some CR)
    (hl : settings.maxRequestSize < intMax) (hlen : (req.body.length : Int) ≤ intMax)
    (hfit : CountFits req s.request rest) : CallTakes req s.request got rest s.socket := by
  have hb := hhungry.1
  have hsocket := h.socket_rest hlater
  have hlength := h.length
  obtain ⟨h0, hw, hl'⟩ := h.bounds hl
  cases h.place with
  | @head y z done todo hplace hrest =>
      subst hrest
      refine hplace.call hb hsocket (fun hshort => ?_) h0 hw hl' hlen hfit
      -- a piece that ends inside the head does not end in CR
      have hflat : segments.flatten.length = got.length + s.socket.length := by
        rw [← h.arrived, List.length_append]
      have hbytes := req.length
      have htaken := h.taken
      rw [List.length_append, List.length_cons, List.length_append] at hlength
      have hlast := hcut (by omega)
      rwa [← h.arrived, List.getLast?_append_of_ne_nil _ hb] at hlast
  | body hs _ hbuffer hboundary hexpected hbody hfits =>
      exact call_body hs hbuffer hboundary hexpected hbody hfits hb hsocket h0 hl'
  | complete hs => exact absurd hs hhungry.2.1

/-- **One call of `readFromSocket`** takes something, or finds the sum too large. -/
theorem read (h : Progress settings req segments s got rest) (hhungry : s.request.Hungry s.socket)
    {later : Bytes} (hlater : segments.flatten ++ later = req.bytes)
    (hcut : segments.flatten.length < req.head.bytes.length → segments.flatten.getLast? ≠ some CR)
    (hl : settings.maxRequestSize < intMax) (hlen : (req.body.length : Int) ≤ intMax)
    (hfit : CountFits req s.request rest) :
    ((s.step .read).request.status = .abort ∧
        settings.maxRequestSize < req.bytes.length + recounts req.head.bytes.length [] segments) ∨
      ((s.step .read).socket.length < s.socket.length ∧
        ∃ got' rest', Progress settings req segments (s.step .read) got' rest') := by
  have hlength := h.length
  have hcounted := h.counted
  have hahead := h.ahead
  have howed : owed s = s.request.lineBuffer.length := if_neg hhungry.1
  rw [howed] at hcounted
  cases h.callTakes hhungry hlater hcut hl hlen hfit with
  | aborts habort hsum =>
      refine .inl ⟨habort, ?_⟩
      rw [h.maxSize] at hsum
      omega
  | @takes d rest' hne hbytes hrest place size maxSize within buffer =>
      have hd := List.length_pos_iff.mpr hne
      have hpart := congrArg List.length hbytes
      rw [List.length_append] at hpart
      have htaken : (s.step .read).taken = s.taken + d.length := by
        show s.taken + (s.socket.length - (s.request.readFromSocket s.socket).2.length) = _
        omega
      -- what waited has been counted again by this call
      have hnothing : owed (s.step .read) = 0 := by
        show (if (s.request.readFromSocket s.socket).2 = [] then 0
          else (s.request.readFromSocket s.socket).1.lineBuffer.length) = 0
        rcases buffer with hnil | hempty
        · rw [if_pos hnil]
        · rw [hempty]
          exact ite_self 0
      refine .inr ⟨?_, got ++ d, rest', ?_, ?_, ?_, place, maxSize.trans h.maxSize, ?_, ?_, ?_⟩
      · show (s.request.readFromSocket s.socket).2.length < _
        omega
      · show got ++ d ++ (s.request.readFromSocket s.socket).2 = _
        rw [List.append_assoc, ← hbytes, h.arrived]
      · rw [List.append_assoc, ← hrest, h.whole]
      · rw [htaken, h.taken, List.length_append]
      · show (s.request.readFromSocket s.socket).1.currentSize ≤ _
        rw [← h.maxSize]
        exact within
      · rw [htaken]
        show _ ≤ (s.request.readFromSocket s.socket).1.currentSize
        omega
      · rw [hnothing, htaken]
        show (s.request.readFromSocket s.socket).1.currentSize + _ = _
        omega

end Progress

/-! ### Runs

What keeps a run going is collected in one structure, so that the induction is done once for all
parts of the theorem. -/

/-- A segmentation of a request within the limit, the run over which passes the checks: the counter
does not overflow, and no abortion has the sum exceed the limit. -/
structure Passing (settings : Settings) (req : FramedRequest) (segments : List Bytes) : Prop where
  limit : settings.maxRequestSize < intMax
  size : (req.bytes.length : Int) ≤ settings.maxRequestSize
  whole : segments.flatten = req.bytes
  ends : LineEndsWhole req segments
  count : ∀ {arrived s got rest}, arrived <+: segments → Reached settings arrived s →
    s.request.Hungry s.socket → Progress settings req arrived s got rest →
      CountFits req s.request rest
  passes : ∀ {arrived s}, arrived <+: segments → Reached settings arrived s →
    s.request.status = .abort →
    ¬ settings.maxRequestSize < req.bytes.length + recounts req.head.bytes.length [] arrived

namespace Passing

variable {settings : Settings} {req : FramedRequest} {segments arrived : List Bytes} {s : Intake}

theorem body_isInt (h : Passing settings req segments) : (req.body.length : Int) ≤ intMax := by
  have hlimit := h.limit
  have hsize := h.size
  have hbytes := req.length
  omega

theorem later (h : Passing settings req segments) (hpre : arrived <+: segments) :
    ∃ later, arrived.flatten ++ later = req.bytes := by
  obtain ⟨more, rfl⟩ := hpre
  exact ⟨more.flatten, by rw [← List.flatten_append, h.whole]⟩

/-- A call in a state that makes progress. -/
theorem read (h : Passing settings req segments) (hpre : arrived <+: segments)
    (hreached : Reached settings arrived s) (hhungry : s.request.Hungry s.socket) {got rest : Bytes}
    (hprogress : Progress settings req arrived s got rest) :
    (s.step .read).socket.length < s.socket.length ∧
      ∃ got' rest', Progress settings req arrived (s.step .read) got' rest' := by
  obtain ⟨later, hlater⟩ := h.later hpre
  rcases hprogress.read hhungry hlater (h.ends arrived hpre) h.limit h.body_isInt
    (h.count hpre hreached hhungry hprogress) with ⟨habort, hsum⟩ | htakes
  · exact absurd hsum (h.passes hpre (.read hreached hhungry) habort)
  · exact htakes

/-- **Progress in every state that is reached.** -/
theorem progress (h : Passing settings req segments) (hreached : Reached settings arrived s)
    (hpre : arrived <+: segments) : ∃ got rest, Progress settings req arrived s got rest := by
  induction hreached with
  | start =>
      have hsize := h.size
      exact ⟨[], req.bytes, progress_start req (by omega)⟩
  | arrive segment hreached hidle ih =>
      obtain ⟨got, rest, hprogress⟩ := ih ((List.prefix_append _ _).trans hpre)
      obtain ⟨later, hlater⟩ := h.later hpre
      exact ⟨got, rest, hprogress.arrive hidle hlater⟩
  | read hreached hhungry ih =>
      obtain ⟨got, rest, hprogress⟩ := ih hpre
      exact (h.read hpre hreached hhungry hprogress).2

/-- The inner loop of `readHttp` ends. -/
theorem drained (h : Passing settings req segments) (hreached : Reached settings arrived s)
    (hpre : arrived <+: segments) :
    ∃ t, Reached settings arrived t ∧ ¬ t.request.Hungry t.socket := by
  induction hn : s.socket.length using Nat.strongRecOn generalizing s with
  | _ n ih =>
      by_cases hhungry : s.request.Hungry s.socket
      · obtain ⟨got, rest, hprogress⟩ := h.progress hreached hpre
        have hshorter := (h.read hpre hreached hhungry hprogress).1
        exact ih _ (by omega) (.read hreached hhungry) rfl
      · exact ⟨s, hreached, hhungry⟩

/-- All segments arrive. -/
theorem reached (h : Passing settings req segments) (hpre : arrived <+: segments) :
    ∃ t, Reached settings arrived t ∧ ¬ t.request.Hungry t.socket := by
  induction arrived using List.reverseRecOn with
  | nil => exact h.drained .start hpre
  | append_singleton arrived segment ih =>
      obtain ⟨t, hreached, hidle⟩ := ih ((List.prefix_append _ _).trans hpre)
      exact h.drained (.arrive segment hreached hidle) hpre

/-- When everything has arrived, the request is complete. -/
theorem complete_of_idle (h : Passing settings req segments)
    (hreached : Reached settings segments s) (hidle : ¬ s.request.Hungry s.socket) :
    s.request.status = .complete := by
  obtain ⟨got, rest, hprogress⟩ := h.progress hreached (List.prefix_refl _)
  have hlater : segments.flatten ++ [] = req.bytes := by rw [List.append_nil, h.whole]
  have hrest := hprogress.socket_rest hlater
  rw [hprogress.socket_idle hidle hlater] at hrest
  cases hprogress.place with
  | head _ hhead =>
      rw [← hrest] at hhead
      simp at hhead
  | body _ hne => exact absurd hrest.symm hne
  | complete hs => exact hs

theorem accepted (h : Passing settings req segments) : Accepted settings segments := by
  refine ⟨fun arrived s hpre hreached habort => ?_, ?_⟩
  · obtain ⟨got, rest, hprogress⟩ := h.progress hreached hpre
    cases hprogress.place with
    | head hplace => exact hplace.line.inLine.busy.1.2 habort
    | body hs => exact nomatch hs.symm.trans habort
    | complete hs => exact nomatch hs.symm.trans habort
  · obtain ⟨s, hreached, hidle⟩ := h.reached (List.prefix_refl _)
    exact ⟨s, hreached, h.complete_of_idle hreached hidle⟩

/-- What the counter is when the request is complete. -/
theorem sum (h : Passing settings req segments) (hreached : Reached settings segments s)
    (hdone : s.request.status = .complete) :
    s.taken = req.bytes.length ∧
      s.request.currentSize = req.bytes.length + recounts req.head.bytes.length [] segments ∧
      s.request.currentSize ≤ settings.maxRequestSize := by
  obtain ⟨got, rest, hprogress⟩ := h.progress hreached (List.prefix_refl _)
  have hidle : ¬ s.request.Hungry s.socket := fun hh => hh.2.1 hdone
  have hlater : segments.flatten ++ [] = req.bytes := by rw [List.append_nil, h.whole]
  have hsocket := hprogress.socket_idle hidle hlater
  have hrest := hprogress.socket_rest hlater
  have hlength := hprogress.length
  have hcounted := hprogress.counted
  have hnothing : owed s = 0 := if_pos hsocket
  have hnil : rest.length = 0 := by rw [← hrest, hsocket]; rfl
  rw [hnothing] at hcounted
  exact ⟨by omega, by omega, hprogress.within⟩

end Passing

/-! ### When the checks pass

Three ways to have that: the sum is within the limit, the request was accepted, or every byte was
counted once. -/

section Passes

variable {settings : Settings} {req : FramedRequest} {segments : List Bytes}

/-- The sum within the limit. -/
theorem passing_of_sum (hl : settings.maxRequestSize < intMax)
    (hwhole : segments.flatten = req.bytes) (hends : LineEndsWhole req segments)
    (hsum : req.bytes.length + recounts req.head.bytes.length [] segments ≤
      settings.maxRequestSize) :
    Passing settings req segments := by
  refine ⟨hl, by omega, hwhole, hends,
    fun {arrived s got rest} hpre hreached hhungry hprogress => ?_,
    fun {arrived s} hpre _ _ => ?_⟩
  · intro n hn _
    have hmono : recounts req.head.bytes.length [] arrived ≤ _ := recounts_mono hpre
    have hlength := hprogress.length
    have hcounted := hprogress.counted
    have howed : owed s = s.request.lineBuffer.length := if_neg hhungry.1
    have hmax := hprogress.maxSize
    exact ⟨by omega, fun _ => by omega⟩
  · have hmono : recounts req.head.bytes.length [] arrived ≤ _ := recounts_mono hpre
    omega

/-- What waits in the line buffer was counted before. -/
theorem Progress.lineBuffer_le {arrived : List Bytes} {s : Intake} {got rest : Bytes}
    (h : Progress settings req arrived s got rest) (hhungry : s.request.Hungry s.socket) :
    (s.request.lineBuffer.length : Int) ≤ s.request.currentSize := by
  have hahead := h.ahead
  have htaken := h.taken
  cases h.place with
  | head hplace =>
      have hle := openBytes_le got
      rw [hplace.waiting, ← hplace.buffer] at hle
      omega
  | body _ _ hbuffer =>
      rw [hbuffer, List.length_nil]
      omega
  | complete hs => exact absurd hs hhungry.2.1

/-- With a limit of less than half an `int` the counter does not overflow before the check. -/
theorem passing_of_accepted (hl : settings.maxRequestSize < 2 ^ 30)
    (hsize : (req.bytes.length : Int) ≤ settings.maxRequestSize)
    (hwhole : segments.flatten = req.bytes) (hends : LineEndsWhole req segments)
    (haccepted : Accepted settings segments) :
    Passing settings req segments := by
  have hint : (intMax : Int) = 2147483647 := rfl
  refine ⟨by omega, hsize, hwhole, hends,
    fun {arrived s got rest} hpre hreached hhungry hprogress => ?_,
    fun hpre hreached habort => absurd habort (haccepted.1 _ _ hpre hreached)⟩
  intro n _ hn
  have hmax := hprogress.maxSize
  have hwithin := hprogress.within
  have hbuffer := hprogress.lineBuffer_le hhungry
  have hbytes := req.length
  exact ⟨by omega, fun _ => by omega⟩

/-- What a line read does to the counter. -/
theorem readFromSocket_size {r : HttpRequest} (h : r.InLine) (b : Bytes) :
    (r.readFromSocket b).1.currentSize =
        int32 (r.currentSize + (r.lineBuffer.length + (readLine b r.toRead).1.length : Nat)) ∧
      (r.readFromSocket b).2 = (readLine b r.toRead).2 := by
  have hfinish : (r.appendLine b).1.finishLine.currentSize = (r.appendLine b).1.currentSize :=
    (finishLine_finished _).currentSize
  have hcall : r.readFromSocket b =
      ((r.appendLine b).1.finishLine.afterRead, (r.appendLine b).2) := by
    rw [readFromSocket, readStep_inLine h]
  rw [hcall]
  refine ⟨?_, rfl⟩
  rw [(afterRead_checks _).2.1, hfinish, ← List.length_append]
  rfl

/-- Where every byte is counted once, nothing waits when a line is read. -/
theorem Progress.lineBuffer_counted (hcounted : CountedOnce settings segments)
    {arrived : List Bytes} {s : Intake} {got rest : Bytes} (hpre : arrived <+: segments)
    (hreached : Reached settings arrived s) (h : Progress settings req arrived s got rest)
    (hhungry : s.request.Hungry s.socket) :
    s.request.lineBuffer.length = 0 := by
  have hbefore := hcounted arrived s hpre hreached
  have hafter := hcounted arrived _ hpre (.read hreached hhungry)
  have hbuffer := h.lineBuffer_le hhungry
  cases h.place with
  | head hplace =>
      have hwithin := h.within
      have hmax := h.maxSize
      have hint : (intMax : Int) = 2147483647 := rfl
      obtain ⟨hsize, hrest⟩ := readFromSocket_size hplace.line.inLine s.socket
      have hsplit := congrArg List.length (readLine_append s.socket s.request.toRead)
      rw [List.length_append] at hsplit
      have htaken : (s.step .read).taken =
          s.taken + (readLine s.socket s.request.toRead).1.length := by
        show s.taken + (s.socket.length - (s.request.readFromSocket s.socket).2.length) = _
        rw [hrest]
        omega
      rw [htaken] at hafter
      have hsame : int32 (s.request.currentSize +
          (s.request.lineBuffer.length + (readLine s.socket s.request.toRead).1.length : Nat)) =
          (s.taken + (readLine s.socket s.request.toRead).1.length : Nat) := hsize.symm.trans hafter
      unfold int32 at hsame
      omega
  | body _ _ hnil => rw [hnil, List.length_nil]
  | complete hs => exact absurd hs hhungry.2.1

theorem passing_of_counted (hl : settings.maxRequestSize < intMax)
    (hsize : (req.bytes.length : Int) ≤ settings.maxRequestSize)
    (hwhole : segments.flatten = req.bytes) (hends : LineEndsWhole req segments)
    (haccepted : Accepted settings segments) (hcounted : CountedOnce settings segments) :
    Passing settings req segments := by
  refine ⟨hl, hsize, hwhole, hends, fun {arrived s got rest} hpre hreached hhungry hprogress => ?_,
    fun hpre hreached habort => absurd habort (haccepted.1 _ _ hpre hreached)⟩
  intro n hn hroom
  have hbefore := hcounted arrived s hpre hreached
  have hempty := hprogress.lineBuffer_counted hcounted hpre hreached hhungry
  have hmax := hprogress.maxSize
  have hlength := hprogress.length
  exact ⟨by omega, fun _ => by omega⟩

/-- With the largest limit nothing is ever read. -/
theorem reached_intMax (hl : settings.maxRequestSize = intMax) {arrived : List Bytes} {s : Intake}
    (h : Reached settings arrived s) : s.request = .new settings := by
  induction h with
  | start => rfl
  | arrive segment _ _ ih => exact ih
  | @read _ s _ _ ih =>
      show (s.request.readFromSocket s.socket).1 = _
      rw [ih, readFromSocket_intMax hl]

theorem limit_of_accepted (h : Accepted settings segments) : settings.maxRequestSize < intMax := by
  obtain ⟨-, s, hreached, hdone⟩ := h
  have hle : settings.maxRequestSize ≤ intMax := settings.maxRequestSize_isInt.2
  rcases Int.lt_or_eq_of_le hle with hlt | heq
  · exact hlt
  · rw [reached_intMax heq hreached] at hdone
    exact nomatch hdone

end Passes

/-- **Which requests within the limit are accepted**, every byte being counted once: those of which
no segment ends inside a line of the head. Without the latter the bytes that are counted again have
to fit as well. -/
theorem accepted_iff (settings : Settings) (req : FramedRequest) (segments : List Bytes)
    (hwhole : segments.flatten = req.bytes)
    (hsize : (req.bytes.length : Int) ≤ settings.maxRequestSize)
    (hends : LineEndsWhole req segments) :
    (Accepted settings segments ∧ CountedOnce settings segments ↔
        settings.maxRequestSize < intMax ∧ recounts req.head.bytes.length [] segments = 0) ∧
      (settings.maxRequestSize < intMax →
        req.bytes.length + recounts req.head.bytes.length [] segments ≤ settings.maxRequestSize →
        Accepted settings segments) ∧
      (settings.maxRequestSize < 2 ^ 30 → Accepted settings segments →
        req.bytes.length + recounts req.head.bytes.length [] segments ≤
          settings.maxRequestSize) := by
  refine ⟨⟨fun ⟨haccepted, hcounted⟩ => ?_, fun ⟨hl, hzero⟩ => ?_⟩, fun hl hsum => ?_,
    fun hl haccepted => ?_⟩
  · have hl := limit_of_accepted haccepted
    have hpassing := passing_of_counted hl hsize hwhole hends haccepted hcounted
    obtain ⟨s, hreached, hdone⟩ := haccepted.2
    obtain ⟨htaken, hsum, -⟩ := hpassing.sum hreached hdone
    have honce := hcounted segments s (List.prefix_refl _) hreached
    exact ⟨hl, by omega⟩
  · have hpassing := passing_of_sum hl hwhole hends (by omega)
    refine ⟨hpassing.accepted, fun arrived s hpre hreached => ?_⟩
    obtain ⟨got, rest, hprogress⟩ := hpassing.progress hreached hpre
    have hmono : recounts req.head.bytes.length [] arrived ≤ _ := recounts_mono hpre
    have hahead := hprogress.ahead
    have hcounted := hprogress.counted
    omega
  · exact (passing_of_sum hl hwhole hends hsum).accepted
  · obtain ⟨s, hreached, hdone⟩ := haccepted.2
    obtain ⟨-, hsum, hwithin⟩ :=
      (passing_of_accepted hl hsize hwhole hends haccepted).sum hreached hdone
    omega

/-- A request of 29 bytes. -/
def shortRequest : FramedRequest where
  head :=
    { first := ascii "GET /a HTTP/1.1\r"
      method := ascii "GET"
      path := ascii "/a"
      version := ascii "HTTP/1.1"
      lines := [ascii "Host: bc\r"]
      last := ascii "\r"
      first_line := by decide
      first_split := by decide +kernel
      first_http := RequestHead.ascii_http
      lines_line := by decide
      lines_text := by decide +kernel
      last_line := by decide
      last_blank := by decide +kernel }
  body := []
  lineEnds := by decide +kernel
  plain := by decide +kernel
  announced := by decide +kernel
  unannounced := fun _ => rfl

/-- The request in three segments, two of which end inside a line. -/
def shortPieces : List Bytes := [ascii "GET /a HT", ascii "TP/1.1\r\nHo", ascii "st: bc\r\n\r\n"]

theorem accepted_iff_pieces :
    Accepted defaultSettings shortPieces ∧ ¬ CountedOnce defaultSettings shortPieces := by
  obtain ⟨honce, hsum, -⟩ := accepted_iff defaultSettings shortRequest shortPieces
      (by decide +kernel)
    (by decide +kernel) (by decide +kernel)
  have haccepted := hsum (by decide) (by decide +kernel)
  have hsome : recounts shortRequest.head.bytes.length [] shortPieces ≠ 0 := by decide +kernel
  exact ⟨haccepted, fun hcounted => hsome (honce.mp ⟨haccepted, hcounted⟩).2⟩

/-- A limit that the request meets. -/
def tightSettings : Settings := ⟨35, 1000000, by decide, isInt_million⟩

/-- **A request within the limit is rejected.** The request of 29 bytes is aborted when it comes in
these segments, the limit being 35 bytes. -/
theorem not_accepted_pieces :
    shortPieces.flatten = shortRequest.bytes ∧
      (shortRequest.bytes.length : Int) ≤ tightSettings.maxRequestSize ∧
      LineEndsWhole shortRequest shortPieces ∧ ¬ Accepted tightSettings shortPieces := by
  refine ⟨by decide +kernel, by decide +kernel, by decide +kernel, fun haccepted => ?_⟩
  have h₁ := ((@Reached.start tightSettings).arrive (ascii "GET /a HT") (by decide +kernel)).read
    (by decide +kernel)
  have h₂ := ((h₁.arrive (ascii "TP/1.1\r\nHo") (by decide +kernel)).read (by decide +kernel)).read
    (by decide +kernel)
  have h₃ := (h₂.arrive (ascii "st: bc\r\n\r\n") (by decide +kernel)).read (by decide +kernel)
  exact haccepted.1 _ _ (List.prefix_refl shortPieces) h₃ (by decide +kernel)

end HttpRequest

end QtWebApp
