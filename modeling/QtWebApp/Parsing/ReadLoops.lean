import QtWebApp.Parsing.Decoding
import QtWebApp.Parsing.Limits
import QtWebApp.Parsing.Multipart
import QtWebApp.Parsing.Segmentation

/-!
# QtWebApp.Parsing.ReadLoops

The loops that read a request come to an end.

The loops of `parseMultiPartFile` read a line in every turn, whatever is in the temp file; they end
with what `readParts` makes of its lines. A call of `readFromSocket` asks for at least one byte in
the head, since the counter is within the limit there, and in a body as long as not all of it has
come; a body of negative length is complete at once (`Ready`). That is as long as the counter, to
which a line that waits is added again with every piece of it, does not overflow (`CounterFits`).

The progress of a call is in the invariant `Ready`: a request is at a line of its head, with room
for at least one more byte, or in its body, of which something is missing, or it is about to end. So
a call takes something from the socket or is the last one for the request.
-/

namespace QtWebApp

open Bytes

namespace HttpRequest

/-! ### The loops of `parseMultiPartFile`

A loop over the parts, and inside of it one over the header lines and one over the data. Every turn
of the inner ones reads a line. -/

/-- One turn of the loop over the header lines of a part: the names, and the rest of the file. -/
def headerTurn (s : PartNames × Bytes) : Option (Turn (PartNames × Bytes)) :=
  if s.2 = [] then some (.leave s)
  else
    let (l, rest) := lineUpTo 65536 s.2
    let line := trimmed l
    if line.startsWith (ascii "Content-Disposition:")
      then some (.again (disposition line s.1, rest))
    else if line = [] then some (.leave (s.1, rest))
    else some (.again (s.1, rest))

/-- The local variables of the loop over the data of a part, the request, and the rest of the
file. -/
structure DataScan where
  request : HttpRequest
  finished : Bool
  fieldValue : Bytes
  uploadedFile : Option Nat
  rest : Bytes

/-- One turn of the loop over the data of a part. -/
def dataTurn (p : PartNames) (s : DataScan) : Option (Turn DataScan) :=
  if s.rest = [] ∨ s.finished = true then some (.leave s)
  else
    let (line, rest) := lineUpTo 65536 s.rest
    if line.startsWith (ascii "--" ++ s.request.boundary) then
      some (.leave { s with
        request := s.request.finishPart p s.fieldValue s.uploadedFile
        finished := line.containsText (s.request.boundary ++ ascii "--")
        rest := rest })
    else if p.fileName = [] ∧ p.fieldName ≠ [] then
      some (.again { s with
        request := { s.request with currentSize := int32 (s.request.currentSize + line.length) }
        fieldValue := s.fieldValue ++ line
        rest := rest })
    else if p.fileName ≠ [] ∧ p.fieldName ≠ [] then
      let (r, i) := s.request.writeUpload line s.uploadedFile
      some (.again { s with request := r, uploadedFile := some i, rest := rest })
    else some (.again { s with rest := rest })

/-- One turn of the loop over the parts, with both inner loops. -/
def partTurn (fuel : Nat) (s : HttpRequest × Bool × Bytes) :
    Option (Turn (HttpRequest × Bool × Bytes)) :=
  if s.2.2 = [] ∨ s.2.1 = true then some (.leave s)
  else
    (loop headerTurn fuel (⟨[], []⟩, s.2.2)).bind fun head =>
      (loop (dataTurn head.1) fuel ⟨s.1, false, [], none, head.2⟩).map fun t =>
        .again (t.request, t.finished, t.rest)

/-- A line that is read takes something from the file. -/
theorem lineUpTo_rest_lt {file : Bytes} (h : file ≠ []) :
    (lineUpTo 65536 file).2.length < file.length := by
  have hsplit := congrArg List.length (lineUpTo_append 65536 file)
  have hne := List.length_pos_iff.mpr (lineUpTo_ne_nil (n := 65536) h (by omega))
  rw [List.length_append] at hsplit
  omega

/-- The loop over the header lines ends, and stops where `readPartHeaders` does. -/
theorem header_ends (p : PartNames) (file : Bytes) :
    ∃ rest, Loop.Ends (fun _ => headerTurn) (p, file) ((readPartHeaders (linesOf file) p).1, rest) ∧
      linesOf rest = (readPartHeaders (linesOf file) p).2 := by
  induction hn : file.length using Nat.strongRecOn generalizing p file with
  | _ n ih =>
      have hmono := Loop.mono_const headerTurn
      by_cases hfile : file = []
      · subst hfile
        exact ⟨[], .leave (k := 0) hmono (if_pos rfl), rfl⟩
      · have hrec := fun p => ih _ (hn ▸ lineUpTo_rest_lt hfile) p (lineUpTo 65536 file).2 rfl
        rw [linesOf_read hfile]
        by_cases hstart : (trimmed (lineUpTo 65536 file).1).startsWith
            (ascii "Content-Disposition:") = true
        · obtain ⟨rest, hends, hlines⟩ := hrec (disposition (trimmed (lineUpTo 65536 file).1) p)
          have hturn : headerTurn (p, file) = some (.again
              (disposition (trimmed (lineUpTo 65536 file).1) p, (lineUpTo 65536 file).2)) := by
            rw [headerTurn, if_neg hfile]
            exact if_pos hstart
          rw [readPartHeaders, if_pos hstart]
          exact ⟨rest, .again (k := 0) hmono hturn hends, hlines⟩
        · by_cases hblank : trimmed (lineUpTo 65536 file).1 = []
          · have hturn : headerTurn (p, file) = some (.leave (p, (lineUpTo 65536 file).2)) := by
              rw [headerTurn, if_neg hfile]
              exact (if_neg hstart).trans (if_pos hblank)
            rw [readPartHeaders, if_neg hstart, if_pos hblank]
            exact ⟨_, .leave (k := 0) hmono hturn, rfl⟩
          · obtain ⟨rest, hends, hlines⟩ := hrec p
            have hturn : headerTurn (p, file) = some (.again (p, (lineUpTo 65536 file).2)) := by
              rw [headerTurn, if_neg hfile]
              exact (if_neg hstart).trans (if_neg hblank)
            rw [readPartHeaders, if_neg hstart, if_neg hblank]
            exact ⟨rest, .again (k := 0) hmono hturn hends, hlines⟩

/-- The loop over the data of a part ends, and does what `readPartData` does. -/
theorem data_ends (p : PartNames) (s : DataScan) (hs : s.finished = false) :
    ∃ t, Loop.Ends (fun _ => dataTurn p) s t ∧ (t.request, t.finished, linesOf t.rest) =
      readPartData p (linesOf s.rest) s.fieldValue s.uploadedFile s.request := by
  induction hn : s.rest.length using Nat.strongRecOn generalizing s with
  | _ n ih =>
      have hmono := Loop.mono_const (dataTurn p)
      by_cases hfile : s.rest = []
      · refine ⟨s, .leave (k := 0) hmono (if_pos (.inl hfile)), ?_⟩
        rw [hfile, hs]
        rfl
      · have hon : ¬ (s.rest = [] ∨ s.finished = true) := by simp [hfile, hs]
        have hshorter := hn ▸ lineUpTo_rest_lt hfile
        rw [linesOf_read hfile, readPartData]
        by_cases hstop : (lineUpTo 65536 s.rest).1.startsWith (ascii "--" ++ s.request.boundary) =
          true
        · rw [if_pos hstop]
          exact ⟨_, .leave (k := 0) hmono ((if_neg hon).trans (if_pos hstop)), rfl⟩
        · rw [if_neg hstop]
          by_cases hfield : p.fileName = [] ∧ p.fieldName ≠ []
          · obtain ⟨t, hends, ht⟩ := ih _ hshorter { s with
              request := { s.request with
                currentSize := int32 (s.request.currentSize + (lineUpTo 65536 s.rest).1.length) }
              fieldValue := s.fieldValue ++ (lineUpTo 65536 s.rest).1
              rest := (lineUpTo 65536 s.rest).2 } hs rfl
            rw [if_pos hfield]
            refine ⟨t, .again (k := 0) hmono ?_ hends, ht⟩
            exact ((if_neg hon).trans (if_neg hstop)).trans (if_pos hfield)
          · rw [if_neg hfield]
            by_cases hupload : p.fileName ≠ [] ∧ p.fieldName ≠ []
            · obtain ⟨t, hends, ht⟩ := ih _ hshorter { s with
                request := (s.request.writeUpload (lineUpTo 65536 s.rest).1 s.uploadedFile).1
                uploadedFile := some
                  (s.request.writeUpload (lineUpTo 65536 s.rest).1 s.uploadedFile).2
                rest := (lineUpTo 65536 s.rest).2 } hs rfl
              rw [if_pos hupload]
              refine ⟨t, .again (k := 0) hmono ?_ hends, ht⟩
              exact (((if_neg hon).trans (if_neg hstop)).trans (if_neg hfield)).trans
                (if_pos hupload)
            · obtain ⟨t, hends, ht⟩ :=
                ih _ hshorter { s with rest := (lineUpTo 65536 s.rest).2 } hs rfl
              rw [if_neg hupload]
              refine ⟨t, .again (k := 0) hmono ?_ hends, ht⟩
              exact (((if_neg hon).trans (if_neg hstop)).trans (if_neg hfield)).trans
                (if_neg hupload)

theorem partTurn_mono : Loop.Mono partTurn := by
  intro n m hnm s t ht
  unfold partTurn at ht ⊢
  split
  · next hover => rwa [if_pos hover] at ht
  · next hon =>
      rw [if_neg hon] at ht
      obtain ⟨head, hhead, hdata⟩ := Option.bind_eq_some_iff.mp ht
      obtain ⟨scan, hscan, hturn⟩ := Option.map_eq_some_iff.mp hdata
      rw [Loop.loop_mono (fun _ _ h => h) hnm hhead]
      refine Option.map_eq_some_iff.mpr ⟨scan, ?_, hturn⟩
      exact Loop.loop_mono (fun _ _ h => h) hnm hscan

/-- The header loop takes a line, when there is one. -/
theorem readPartHeaders_length (l : Bytes) (ls : List Bytes) (p : PartNames) :
    (readPartHeaders (l :: ls) p).2.length ≤ ls.length := by
  induction ls generalizing l p with
  | nil =>
      unfold readPartHeaders
      dsimp only
      split
      · exact Nat.le_refl _
      · split <;> exact Nat.le_refl _
  | cons l' ls ih =>
      rw [readPartHeaders]
      split
      · exact Nat.le_succ_of_le (ih l' _)
      · split
        · exact Nat.le_refl _
        · exact Nat.le_succ_of_le (ih l' _)

theorem readPartData_length (p : PartNames) (ls : List Bytes) (fieldValue : Bytes)
    (file : Option Nat) (r : HttpRequest) :
    (readPartData p ls fieldValue file r).2.2.length ≤ ls.length := by
  induction ls generalizing fieldValue file r with
  | nil => exact Nat.le_refl _
  | cons l ls ih =>
      rw [readPartData]
      split
      · exact Nat.le_succ _
      · split
        · exact Nat.le_succ_of_le (ih _ _ _)
        · split
          · exact Nat.le_succ_of_le (ih _ _ _)
          · exact Nat.le_succ_of_le (ih _ _ _)

/-- A turn in which both inner loops end. -/
theorem partTurn_again {r : HttpRequest} {file rest : Bytes} (hfile : file ≠ []) {p : PartNames}
    {t : DataScan} (hhead : Loop.Ends (fun _ => headerTurn) (⟨[], []⟩, file) (p, rest))
    (hdata : Loop.Ends (fun _ => dataTurn p) ⟨r, false, [], none, rest⟩ t) :
    ∃ k, partTurn k (r, false, file) = some (.again (t.request, t.finished, t.rest)) := by
  obtain ⟨n, hhead⟩ := hhead
  obtain ⟨m, hdata⟩ := hdata
  have hon : ¬ (file = [] ∨ false = true) := by simp [hfile]
  refine ⟨max n m, (if_neg hon).trans ?_⟩
  rw [Loop.loop_mono (fun _ _ h => h) (Nat.le_max_left n m) hhead]
  exact congrArg (Option.map _) (Loop.loop_mono (fun _ _ h => h) (Nat.le_max_right n m) hdata)

/-- **The loops of `parseMultiPartFile` end** on every content of the temp file, with what the
parser makes of its lines. -/
theorem parts_ends (r : HttpRequest) (file : Bytes) {n : Nat} (hn : (linesOf file).length ≤ n) :
    ∃ finished rest, Loop.Ends partTurn (r, false, file)
      (readParts n (linesOf file) r, finished, rest) := by
  have hdone : ∀ (r : HttpRequest) (n : Nat), ∃ finished rest,
      Loop.Ends partTurn (r, false, []) (readParts n (linesOf []) r, finished, rest) := by
    intro r n
    refine ⟨false, [], .leave (k := 0) partTurn_mono ?_⟩
    cases n <;> exact if_pos (.inl rfl)
  induction n generalizing r file with
  | zero =>
      by_cases hfile : file = []
      · subst hfile
        exact hdone r 0
      · rw [linesOf_read hfile] at hn
        exact absurd hn (Nat.not_succ_le_zero _)
  | succ n ih =>
      by_cases hfile : file = []
      · subst hfile
        exact hdone r (n + 1)
      · obtain ⟨rest, hhead, hlines⟩ := header_ends ⟨[], []⟩ file
        obtain ⟨t, hdata, ht⟩ := data_ends (readPartHeaders (linesOf file) ⟨[], []⟩).1
          ⟨r, false, [], none, rest⟩ rfl
        obtain ⟨k, hturn⟩ := partTurn_again hfile hhead hdata
        rw [linesOf_read hfile] at hn hlines ht ⊢
        have hheaders := readPartHeaders_length (lineUpTo 65536 file).1
          (linesOf (lineUpTo 65536 file).2) ⟨[], []⟩
        rw [readParts]
        dsimp only at ht ⊢
        rw [← hlines] at hheaders ⊢
        have hrest := readPartData_length
          (readPartHeaders ((lineUpTo 65536 file).1 :: linesOf (lineUpTo 65536 file).2) ⟨[], []⟩).1
          (linesOf rest) [] none r
        rw [← ht] at hrest ⊢
        dsimp only at hrest ⊢
        by_cases hfinished : t.finished = true
        · rw [if_pos hfinished]
          exact ⟨t.finished, t.rest, .again partTurn_mono hturn
            (.leave (k := 0) partTurn_mono (if_pos (.inr hfinished)))⟩
        · rw [if_neg hfinished]
          rw [List.length_cons] at hn
          obtain ⟨finished, rest', hends⟩ := ih t.request t.rest (by omega)
          rw [Bool.not_eq_true] at hfinished
          rw [hfinished] at hturn
          exact ⟨finished, rest', .again partTurn_mono hturn hends⟩

/-! ### The calls that `readHttp` makes

`ReadTo` says which requests there can be. The condition on the calls is a parameter, since some
results hold without any. -/

/-- The counter does not overflow in a read of the head, which adds all that is in the line buffer
then: what waited there is added again. -/
def CounterFits (r : HttpRequest) (socket : Bytes) : Prop :=
  r.InLine → IsInt (r.currentSize + (r.appendLine socket).1.lineBuffer.length)

instance (r : HttpRequest) (socket : Bytes) : Decidable (r.CounterFits socket) := by
  unfold CounterFits
  infer_instance

/-- What calls of `readHttp` make of a request, whatever bytes they find, when all of them meet a
condition. -/
inductive ReadTo (settings : Settings) (ok : HttpRequest → Bytes → Prop) : HttpRequest → Prop
  | new : ReadTo settings ok (.new settings)
  | call {r : HttpRequest} {socket : Bytes} : ReadTo settings ok r → r.Hungry socket → ok r socket →
      ReadTo settings ok (r.readFromSocket socket).1

/-- The assertions of a call hold, and it takes something from the socket or ends the request. -/
structure CallProgress (r : HttpRequest) (socket : Bytes) : Prop where
  notComplete : r.status ≠ .complete
  announced : r.status = .waitForBody → r.expectedBodySize ≠ 0
  progress : (∃ d, d ≠ [] ∧ socket = d ++ (r.readFromSocket socket).2) ∨
    ¬ (r.readFromSocket socket).1.Busy

/-- A request whose body is not complete. -/
structure Receiving (r : HttpRequest) : Prop where
  status : r.status = .waitForBody
  isInt : IsInt r.expectedBodySize
  missing : (r.bodyTaken : Int) < r.expectedBodySize

/-- A request that the next call brings forward. -/
inductive Ready (r : HttpRequest) : Prop
  | head (h : r.LineState) (hbuffer : (r.lineBuffer.length : Int) ≤ r.currentSize)
  | body (h : r.Receiving)
  | due (h : r.Due)

theorem Ready.busy {r : HttpRequest} (h : r.Ready) : r.Busy := by
  cases h with
  | head h => exact h.inLine.busy.1
  | body h => exact ⟨by simp [h.status], by simp [h.status]⟩
  | due h => exact ⟨by simp [h.overdue.1], by simp [h.overdue.1]⟩

theorem ready_new {settings : Settings} (h₀ : 0 ≤ settings.maxRequestSize)
    (h₁ : settings.maxRequestSize < intMax) : (new settings).Ready := by
  refine .head ⟨.inl rfl, rfl, rfl, rfl, rfl, ⟨?_, ?_⟩, Int.le_refl _, h₀, h₁⟩ (Int.le_refl _)
  · exact List.not_mem_nil
  · exact List.not_mem_nil

/-- A call in the head takes something. -/
theorem LineState.takes {r : HttpRequest} (h : r.LineState) {b : Bytes} (hb : b ≠ []) :
    ∃ d, d ≠ [] ∧ b = d ++ (r.readFromSocket b).2 := by
  have hpos := h.toRead.2
  have hrest : (r.readFromSocket b).2 = (readLine b r.toRead).2 := by
    rw [readFromSocket, readStep_inLine h.inLine]
    rfl
  refine ⟨(readLine b r.toRead).1, ?_, ?_⟩
  · rw [readLine_pos hpos]
    exact lineUpTo_ne_nil hb (by omega)
  · rw [hrest, readLine_append]

theorem Receiving.room {r : HttpRequest} (h : r.Receiving) :
    0 < r.bodyRoom ∧ r.bodyRoom + r.bodyTaken ≤ r.expectedBodySize :=
  bodyRoom_of_missing h.isInt h.missing

theorem Receiving.call {r : HttpRequest} (h : r.Receiving) (b : Bytes) :
    r.readFromSocket b =
      ((r.takeMore (b.take r.bodyRoom.toNat)).afterRead, b.drop r.bodyRoom.toNat) := by
  simp only [readFromSocket, readStep, h.status, readBody_eq]

theorem Receiving.takes {r : HttpRequest} (h : r.Receiving) {b : Bytes} (hb : b ≠ []) :
    ∃ d, d ≠ [] ∧ b = d ++ (r.readFromSocket b).2 := by
  have hroom := h.room
  refine ⟨b.take r.bodyRoom.toNat, fun hnil => ?_, ?_⟩
  · rcases List.take_eq_nil_iff.mp hnil with hzero | hempty
    · omega
    · exact hb hempty
  · rw [h.call]
    exact (List.take_append_drop _ _).symm

/-- The end of the head leaves a request complete, aborted, or ready for its body. -/
theorem LineRead.ready_end {r : HttpRequest} (h : r.LineRead) (hbusy : r.endOfHeaders.Busy) :
    r.endOfHeaders.Ready := by
  obtain ⟨heq, hne, -, -⟩ := endOfHeaders_busy hbusy
  rw [heq]
  rcases Int.lt_or_le r.announceBody.expectedBodySize 0 with hneg | hpos
  · exact .due ⟨⟨rfl, hneg⟩, h.announced, h.body, h.file, h.counted, h.size⟩
  · refine .body ⟨rfl, h.announced, ?_⟩
    have hnone : ({ r.announceBody with status := .waitForBody } : HttpRequest).bodyTaken = 0 := by
      have hbody : r.announceBody.bodyData = [] := h.body
      have hfile : r.announceBody.tempFile = none := h.file
      simp [bodyTaken, hbody, hfile]
    rw [hnone]
    show (0 : Int) < r.announceBody.expectedBodySize
    omega

/-- The counter is not behind the line buffer, which it has just counted. -/
theorem LineState.counts {r : HttpRequest} (h : r.LineState) {b : Bytes}
    (hint : IsInt (r.currentSize + (r.appendLine b).1.lineBuffer.length)) :
    ((r.appendLine b).1.lineBuffer.length : Int) ≤ (r.appendLine b).1.currentSize := by
  have hcounted := h.counted
  have hsize : (r.appendLine b).1.currentSize =
      r.currentSize + (r.appendLine b).1.lineBuffer.length := int32_of_isInt hint
  omega

/-- Less of the body is missing. -/
theorem takeMore_receiving {r : HttpRequest} (h : r.Receiving) {d : Bytes}
    (hbusy : (r.takeMore d).Busy) : (r.takeMore d).Receiving := by
  have hmissing := takeMore_busy hbusy
  unfold takeMore at hbusy ⊢
  unfold bodyTaken at hmissing
  by_cases hb : r.boundary = []
  · rw [if_pos hb] at hbusy hmissing ⊢
    rw [if_neg (by rw [List.length_append]; omega)]
    refine ⟨h.status, h.isInt, ?_⟩
    simp only [bodyTaken, hb, if_true, List.length_append]
    omega
  · rw [if_neg hb] at hbusy hmissing ⊢
    by_cases hlarge : r.maxMultiPartSize ≤ ((r.tempFile.getD [] ++ d).length : Int)
    · rw [if_pos hlarge] at hbusy
      exact absurd rfl hbusy.2
    · rw [if_neg hlarge, if_neg (by rw [List.length_append]; omega)]
      refine ⟨h.status, h.isInt, ?_⟩
      simp only [bodyTaken, hb, if_false, Option.getD_some, List.length_append]
      omega

/-- **The step.** A call that does not end a ready request leaves it ready. -/
theorem Ready.call {r : HttpRequest} (h : r.Ready) {b : Bytes} (hb : b ≠ [])
    (hfit : r.CounterFits b) (hbusy : (r.readFromSocket b).1.Busy) :
    (r.readFromSocket b).1.Ready := by
  cases h with
  | head h hbuffer =>
      have hint := hfit h.inLine
      rcases h.call_cases hb hint hbusy with ⟨hstate, hsize, hlen⟩ | ⟨-, hend, -⟩
      · have hcounts := h.counts hint
        exact .head hstate (by omega)
      · rw [hend] at hbusy ⊢
        exact (h.read hb hint).blank.ready_end hbusy
  | body h =>
      rw [h.call] at hbusy ⊢
      obtain ⟨hsame, -, hbusy'⟩ := afterRead_of_busy hbusy
      dsimp only at hbusy ⊢
      rw [hsame]
      exact .body (takeMore_receiving h hbusy')
  | due h =>
      obtain ⟨hcall, -, hend⟩ := h.call b
      rw [hcall] at hbusy
      exact absurd hbusy hend

/-- What a call takes: something, but for a body of negative length, which ends the request. -/
theorem Ready.takes {r : HttpRequest} (h : r.Ready) {b : Bytes} (hb : b ≠ []) :
    (∃ d, d ≠ [] ∧ b = d ++ (r.readFromSocket b).2) ∨
      (r.Overdue ∧ (r.readFromSocket b).2 = b ∧ ¬ (r.readFromSocket b).1.Busy) := by
  cases h with
  | head h => exact .inl (h.takes hb)
  | body h => exact .inl (h.takes hb)
  | due h =>
      obtain ⟨hcall, -, hend⟩ := h.call b
      rw [hcall]
      exact .inr ⟨h.overdue, rfl, hend⟩

/-- **A call makes progress.** -/
theorem Ready.progress {r : HttpRequest} (h : r.Ready) {b : Bytes} (hb : b ≠ []) :
    r.CallProgress b where
  notComplete := h.busy.1
  announced := by
    intro hs
    cases h with
    | head h => rcases h.inLine with hl | hl <;> rw [hl] at hs <;> cases hs
    | body h =>
        have hmissing := h.missing
        omega
    | due h => exact Int.ne_of_lt h.overdue.2
  progress := (h.takes hb).imp_right fun hdue => hdue.2.2

/-- **The invariant.** A request that calls have brought about is ready for the next one, or has
ended. -/
theorem ReadTo.ready {settings : Settings} (h₀ : 0 < settings.maxRequestSize)
    (h₁ : settings.maxRequestSize < intMax) {r : HttpRequest} (h : ReadTo settings CounterFits r)
    (hbusy : r.Busy) : r.Ready := by
  induction h with
  | new => exact ready_new (Int.le_of_lt h₀) h₁
  | call _ hungry hfit ih => exact (ih ⟨hungry.2.1, hungry.2.2⟩).call hungry.1 hfit hbusy

/-! ### Limits under which the counter fits

Below 2^30 the counter cannot overflow, whatever arrives: neither what waits of a line nor the
counter is larger than the limit. -/

theorem takeMore_maxSize (r : HttpRequest) (d : Bytes) : (r.takeMore d).maxSize = r.maxSize := by
  unfold takeMore
  split
  · split <;> rfl
  · split
    · rfl
    · split
      · exact (parseMultiPartFile_same
          { r with tempFile := some (r.tempFile.getD [] ++ d) }).maxSize
      · rfl

theorem readStep_maxSize (r : HttpRequest) (b : Bytes) : (r.readStep b).1.maxSize = r.maxSize := by
  unfold readStep
  split
  · exact (finishRequestLine_finished (r.appendLine b).1).maxSize
  · exact (finishHeaderLine_finished (r.appendLine b).1).maxSize
  · rw [readBody_eq]
    exact takeMore_maxSize r _
  · rfl
  · rfl

theorem ReadTo.maxSize {settings : Settings} {ok : HttpRequest → Bytes → Prop} {r : HttpRequest}
    (h : ReadTo settings ok r) : r.maxSize = settings.maxRequestSize := by
  induction h with
  | new => rfl
  | @call r socket _ _ _ ih =>
      have hafter := (afterRead_checks (r.readStep socket).1).1.maxSize
      exact (hafter.trans (readStep_maxSize r socket)).trans ih

/-- Under a limit below 2^30 a line cannot make the counter overflow: what is counted again of it is
within the limit, and so is what a read adds. -/
theorem Ready.counterFits {r : HttpRequest} (h : r.Ready) (hsmall : r.maxSize < 1073741824)
    (b : Bytes) : r.CounterFits b := by
  intro hline
  cases h with
  | head h hbuffer =>
      obtain ⟨hroom, hpos⟩ := h.toRead
      have hcounted := h.counted
      have hline : (r.appendLine b).1.lineBuffer = r.lineBuffer ++ (readLine b r.toRead).1 := rfl
      have hread := lineUpTo_length_le r.toRead.toNat b
      rw [hline, readLine_pos hpos, List.length_append]
      exact ⟨by omega, by omega⟩
  | body h => rcases hline with hl | hl <;> exact nomatch hl.symm.trans h.status
  | due h => rcases hline with hl | hl <;> exact nomatch hl.symm.trans h.overdue.1

/-- Under such a limit every call meets the condition. -/
theorem readTo_small {settings : Settings} (h₀ : 0 < settings.maxRequestSize)
    (hsmall : settings.maxRequestSize < 1073741824) {r : HttpRequest}
    (h : ReadTo settings (fun _ _ => True) r) : ReadTo settings CounterFits r := by
  have hlimit : settings.maxRequestSize < intMax := by
    show settings.maxRequestSize < 2147483647
    omega
  induction h with
  | new => exact .new
  | call _ hungry _ ih =>
      have hready := ih.ready h₀ hlimit ⟨hungry.2.1, hungry.2.2⟩
      exact ih.call hungry (hready.counterFits (by rw [ih.maxSize]; exact hsmall) _)

end HttpRequest

namespace HttpConnectionHandler

open HttpRequest

/-! ### The loops of `readHttp`

The inner loop ends because the socket gets shorter, the outer one because each of its turns takes
something. -/

/-- The counter does not overflow in any call that a run of `readHttp` makes. -/
def CallsFit (server : Server) (h : HttpConnectionHandler) : Prop :=
  ∀ h₁ h₂ r, Loop.Reach (httpBody server) h h₁ →
    Loop.Reach (fun _ => collectBody) (h₁.ensureRequest server) h₂ → h₂.currentRequest = some r →
    r.Hungry h₂.socket.readBuffer → r.CounterFits h₂.socket.readBuffer

/-- The request of a handler, if it has one, was brought about by calls whose counter fits. -/
def RequestRead (server : Server) (h : HttpConnectionHandler) : Prop :=
  ∀ r, h.currentRequest = some r → ReadTo server.settings CounterFits r

/-- What the inner loop has done when it ends. -/
structure InnerEnd (server : Server) (h : HttpConnectionHandler) (r : HttpRequest)
    (h' : HttpConnectionHandler) (r' : HttpRequest) : Prop where
  ends : CollectEnds h h'
  request : h'.currentRequest = some r'
  read : ReadTo server.settings CounterFits r'
  drained : r'.Busy → h'.socket.readBuffer = []
  shorter : h'.socket.readBuffer.length < h.socket.readBuffer.length ∨
    (¬ r.InLine ∧ ¬ r'.Busy ∧ h'.socket.readBuffer = h.socket.readBuffer)

/-- What is left when something was taken. -/
theorem rest_shorter {d : Bytes} (hd : d ≠ []) (b : Bytes) : b.length < (d ++ b).length := by
  rw [List.length_append]
  exact Nat.lt_add_of_pos_left (List.length_pos_iff.mpr hd)

/-- **The inner loop of `readHttp` ends.** -/
theorem collect_ends {server : Server} (h₀ : 0 < server.settings.maxRequestSize)
    (h₁ : server.settings.maxRequestSize < intMax) {h : HttpConnectionHandler} {r : HttpRequest}
    (hr : h.currentRequest = some r) (hread : ReadTo server.settings CounterFits r)
    (hb : h.socket.readBuffer ≠ [])
    (hfit : ∀ h₂ r₂, Loop.Reach (fun _ => collectBody) h h₂ → h₂.currentRequest = some r₂ →
      r₂.Hungry h₂.socket.readBuffer → r₂.CounterFits h₂.socket.readBuffer) :
    ∃ h' r', InnerEnd server h r h' r' := by
  have hmono := Loop.mono_const collectBody
  -- the induction is on the bytes that wait; a call that takes none is the last one
  induction hn : h.socket.readBuffer.length using Nat.strongRecOn generalizing h r with
  | _ n ih =>
      by_cases hbusy : r.Busy
      · have hhungry : r.Hungry h.socket.readBuffer := ⟨hb, hbusy.1, hbusy.2⟩
        have hcounter := hfit h r .start hr hhungry
        have hone := readOnce_collected h r
        have hturn := collectBody_again hr hhungry
        have hnext := hread.call hhungry hcounter
        have htakes := (hread.ready h₀ h₁ hbusy).takes hb
        generalize (r.readFromSocket h.socket.readBuffer).1 = r' at hone hnext htakes
        generalize (r.readFromSocket h.socket.readBuffer).2 = b' at hone htakes
        generalize h.readOnce r = h' at hone hturn
        have hbuffer : h'.socket.readBuffer = b' := by rw [hone.socket]
        by_cases hagain : r'.Hungry b'
        · -- something was taken, since the request goes on
          obtain ⟨d, hd, hbytes⟩ : ∃ d, d ≠ [] ∧ h.socket.readBuffer = d ++ b' :=
            htakes.resolve_right fun hdue => hdue.2.2 ⟨hagain.2.1, hagain.2.2⟩
          have hlen : b'.length < h.socket.readBuffer.length := hbytes ▸ rest_shorter hd b'
          obtain ⟨h'', r'', hend⟩ := ih b'.length (hn ▸ hlen) hone.request hnext
            (by rw [hbuffer]; exact hagain.1)
            (fun h₂ r₂ hreach => hfit h₂ r₂ (hreach.prepend (k := 0) hturn)) (by rw [hbuffer])
          refine ⟨h'', r'', ⟨.again (k := 0) hmono hturn hend.ends, hend.request, hend.read,
            hend.drained, .inl ?_⟩⟩
          rcases hend.shorter with hlt | ⟨-, -, heq⟩
          · rw [hbuffer] at hlt
            omega
          · rw [heq, hbuffer]
            exact hlen
        · have hstop : ¬ r'.Hungry h'.socket.readBuffer := by rwa [hbuffer]
          refine ⟨h', r', ⟨.again (k := 0) hmono hturn
            (.leave (k := 0) hmono (collectBody_leave hone.request hstop)), hone.request, hnext,
            fun hbusy' => ?_, ?_⟩⟩
          · rw [hbuffer]
            exact not_not.mp fun hne => hagain ⟨hne, hbusy'.1, hbusy'.2⟩
          · rw [hbuffer]
            rcases htakes with ⟨d, hd, hbytes⟩ | ⟨hdue, hsame, hend⟩
            · exact .inl (hbytes ▸ rest_shorter hd b')
            · exact .inr ⟨fun hline => hline.busy.2 hdue, hend, hsame⟩
      · have hstop : ¬ r.Hungry h.socket.readBuffer := fun hh => hbusy ⟨hh.2.1, hh.2.2⟩
        exact ⟨h, r, ⟨.leave (k := 0) hmono (collectBody_leave hr hstop), hr, hread,
          fun hbusy' => absurd hbusy' hbusy,
          .inr ⟨fun hline => hbusy hline.busy.1, hbusy, rfl⟩⟩⟩

/-- Closing a connection leaves no more to read. -/
theorem disconnectFromHost_buffer_le (h : HttpConnectionHandler) :
    h.disconnectFromHost.socket.readBuffer.length ≤ h.socket.readBuffer.length := by
  refine disconnectFromHost_inv
    (I := fun g => g.socket.readBuffer.length ≤ h.socket.readBuffer.length) (Nat.le_refl _)
    (fun _ => Nat.le_refl _) fun _ => ?_
  refine emitDisconnected_inv
    (I := fun g => g.socket.readBuffer.length ≤ h.socket.readBuffer.length) ?_ (Nat.le_refl _)
  intro g hg
  exact disconnected_inv (I := fun g => g.socket.readBuffer.length ≤ h.socket.readBuffer.length) hg
    (Nat.zero_le _)

theorem serve_buffer_le (server : Server) (h : HttpConnectionHandler) (r : HttpRequest) :
    (h.serve server r).socket.readBuffer.length ≤ h.socket.readBuffer.length := by
  have hout := respond_outputOnly server h r
  have hanswered : (h.answered server r).socket.readBuffer = h.socket.readBuffer := hout.readBuffer
  rw [serve_eq]
  split
  · have hclose := disconnectFromHost_buffer_le
      ((h.answered server r).onSocket (TcpSocket.flush server.network))
    have hflush := @TcpSocket.flush_outputOnly server.network _ _
      (.refl (h.answered server r).socket)
    have hsame :
        ((h.answered server r).onSocket (TcpSocket.flush server.network)).socket.readBuffer =
        h.socket.readBuffer := hflush.readBuffer.trans hanswered
    rwa [hsame] at hclose
  · exact Nat.le_of_eq (congrArg List.length hanswered)

theorem requestRead_ensure {server : Server} {h : HttpConnectionHandler}
    (hread : RequestRead server h) :
    ∃ r, (h.ensureRequest server).currentRequest = some r ∧ ReadTo server.settings CounterFits r ∧
      (h.currentRequest = none → r.InLine) := by
  cases hr : h.currentRequest with
  | some r => exact ⟨r, by rw [ensureRequest_some hr, hr], hread r hr, fun hnone => nomatch hnone⟩
  | none => exact ⟨_, by rw [ensureRequest_none hr], .new, fun _ => .inl rfl⟩

/-- **`readHttp` ends**: in every turn bytes are taken, or a request ends that was there before. -/
theorem readHttp_ends {server : Server} (h₀ : 0 < server.settings.maxRequestSize)
    (h₁ : server.settings.maxRequestSize < intMax) {h : HttpConnectionHandler}
    (hread : RequestRead server h) (hfit : CallsFit server h) :
    ∃ h', ReadHttpEnds server h h' ∧ RequestRead server h' := by
  refine Loop.ends_of_measure (httpBody_mono server)
    (fun s => RequestRead server s ∧ Loop.Reach (httpBody server) h s)
      (RequestRead server) pending ?_ h
    ⟨hread, .start⟩
  intro s ⟨hsread, hreach⟩
  by_cases hb : s.socket.readBuffer = []
  · exact ⟨0, .inl ⟨s, if_pos hb, hsread⟩⟩
  · have hsocket := ensureRequest_socket server s
    obtain ⟨r, hr, hrread, hnew⟩ := requestRead_ensure hsread
    obtain ⟨s', r', hend⟩ := collect_ends h₀ h₁ hr hrread (by rw [hsocket]; exact hb)
      (fun h₂ r₂ => hfit s h₂ r₂ hreach)
    have hshorter := hend.shorter
    rw [hsocket] at hshorter
    obtain ⟨k, hk⟩ := httpBody_turn hb hend.ends
    have hpos := List.length_pos_iff.mpr hb
    by_cases habort : r'.status = .abort
    · rw [dispatch_abort server hend.request habort] at hk
      exact ⟨k, .inl ⟨_, hk, fun r hr => nomatch hr⟩⟩
    · by_cases hdone : r'.status = .complete
      · -- the request is answered, and the handler has none then
        rw [dispatch_complete server hend.request hdone] at hk
        have hlen := serve_buffer_le server s' r'
        have hnone : (s'.serve server r').currentRequest = none := rfl
        refine ⟨k, .inr ⟨_, hk, ⟨(fun r hr => nomatch hr), hreach.again hk⟩, ?_⟩⟩
        unfold pending
        rw [hnone, if_pos rfl]
        rcases hshorter with hlt | ⟨hline, -, hsame⟩
        · omega
        · rw [if_neg fun hno => hline (hnew hno), ← hsame]
          omega
      · rw [dispatch_busy server hend.request ⟨hdone, habort⟩] at hk
        have hempty := hend.drained ⟨hdone, habort⟩
        have hkept : RequestRead server s' := by
          intro r₂ hr₂
          rw [hend.request] at hr₂
          exact Option.some.inj hr₂ ▸ hend.read
        refine ⟨k, .inr ⟨_, hk, ⟨hkept, hreach.again hk⟩, ?_⟩⟩
        unfold pending
        rw [hempty, hend.request, if_neg (Option.some_ne_none r'), List.length_nil]
        omega

/-- **The read loops make progress** as long as the counter does not overflow: the loops of the
parser and of the decoder end on every text; every call that `readHttp` makes of a request takes
something or ends it; and `readHttp` ends. -/
theorem readHttp_progress (server : Server) (h₀ : 0 < server.settings.maxRequestSize)
    (h₁ : server.settings.maxRequestSize < intMax) :
    (∀ r : HttpRequest, ∃ finished rest, Loop.Ends partTurn (r, false, r.tempFile.getD [])
      (r.parseMultiPartFile, finished, rest)) ∧
    (∀ source : Bytes, ∃ start stop, Loop.Ends (fun _ => decodeTurn)
      (source.map fun c => if c = 43 then SP else c, start) (urlDecode source, stop)) ∧
    (∀ r, ReadTo server.settings CounterFits r → ∀ socket, r.Hungry socket →
      r.CallProgress socket) ∧
    ∀ h : HttpConnectionHandler, RequestRead server h → CallsFit server h →
      ∃ h', ReadHttpEnds server h h' ∧ RequestRead server h' := by
  refine ⟨fun r => parts_ends r _ (Nat.le_refl _), fun source => ⟨_, urlDecode_ends source⟩, ?_, ?_⟩
  · intro r hread socket hhungry
    exact (hread.ready h₀ h₁ ⟨hhungry.2.1, hhungry.2.2⟩).progress hhungry.1
  · intro h hread hfit
    exact readHttp_ends h₀ h₁ hread hfit

theorem readHttp_progress_pipelined :
    ∃ h', ReadHttpEnds (plainServer defaultSettings) (httpConnection.arrive
      (ascii "GET / HTTP/1.1\r\n\r\nPOST / HTTP/1.1\r\nContent-Length: -1\r\n\r\nGET")) h' := by
  obtain ⟨-, -, -, hloops⟩ := readHttp_progress (plainServer defaultSettings)
      (by decide) (by decide)
  have hmeets : SegmentMeets (plainServer defaultSettings) (httpConnection.arrive
      (ascii "GET / HTTP/1.1\r\n\r\nPOST / HTTP/1.1\r\nContent-Length: -1\r\n\r\nGET")) :=
    checkReadHttp_sound (n := 20) (by decide +kernel)
  obtain ⟨h', hends, -⟩ := hloops _ (fun r hr => by cases hr)
    (fun h₁ h₂ r hreach hinner hr hh hline =>
      ((hmeets.calls hreach hinner hr hh).line hline).counter)
  exact ⟨h', hends⟩

end HttpConnectionHandler

namespace HttpRequest

/-! ### A counter that overflows

Above that bound it does overflow. The request line is one long word that arrives in two pieces. -/

theorem lettered_hungry (settings : Settings) (n : Nat) (size : Int) (k : Nat)
    {m : Nat} (hm : 0 < m) :
    (lettered settings n size k).Hungry (List.replicate m 97) := by
  have hbusy : (lettered settings n size k).Busy := (InLine.busy (.inl rfl)).1
  refine ⟨?_, hbusy.1, hbusy.2⟩
  exact List.ne_nil_of_length_pos (by rw [List.length_replicate]; exact hm)

/-- Another piece of the line, which is all there is. -/
theorem lettered_piece {settings : Settings} {n m k : Nat} {size : Int}
    (h : ReadTo settings (fun _ _ => True) (lettered settings n size k)) (hm : 0 < m)
    (hroom : m ≤ (lettered settings n size k).toRead)
    (hsize : int32 (size + (n + m : Nat)) ≤ settings.maxRequestSize) :
    ReadTo settings (fun _ _ => True)
      (lettered settings (n + m) (int32 (size + (n + m : Nat))) (k + n)) := by
  have hcall := h.call (lettered_hungry settings n size k hm) trivial
  rwa [lettered_call settings (readLine_letters hm hroom) hsize] at hcall

/-- **A line that comes in two large pieces makes the counter overflow**: the call after them asks
for a negative number of bytes, takes none, and leaves the request waiting. -/
theorem not_progress_overflow :
    ¬ ∀ settings : Settings, 0 < settings.maxRequestSize → settings.maxRequestSize < intMax →
      0 < settings.maxMultiPartSize → settings.maxMultiPartSize < intMax →
      ∀ r, ReadTo settings (fun _ _ => True) r → ∀ socket, r.Hungry socket →
        r.CallProgress socket := by
  intro hall
  let settings : Settings := ⟨1610612736, 1000000, by decide, by decide⟩
  suffices ∀ n m : Nat, n = 1073741824 → m = 536870913 → False from this _ _ rfl rfl
  intro n m hn hm
  have hroom : ∀ (size : Int) (n k : Nat), (lettered settings n size k).toRead =
      int32 (int32 (1610612736 - size) + 1) := fun _ _ _ => rfl
  have hfirst : ReadTo settings (fun _ _ => True)
      (lettered settings (0 + n) (int32 (0 + (0 + n : Nat))) (0 + 0)) :=
    lettered_piece .new (by omega) (by rw [hroom]; unfold int32; omega)
      (by show _ ≤ (1610612736 : Int); unfold int32; omega)
  have hsecond := lettered_piece hfirst (m := m) (by omega) (by rw [hroom]; unfold int32; omega)
    (by show _ ≤ (1610612736 : Int); unfold int32; omega)
  -- the counter has become negative, so far that the difference to the limit overflows, too
  have hhungry := lettered_hungry settings (0 + n + m)
    (int32 (int32 (0 + (0 + n : Nat)) + (0 + n + m : Nat))) (0 + 0 + (0 + n)) (Nat.succ_pos 0)
  have hneg : (lettered settings (0 + n + m)
      (int32 (int32 (0 + (0 + n : Nat)) + (0 + n + m : Nat))) (0 + 0 + (0 + n))).toRead < 0 := by
    rw [hroom]
    unfold int32
    omega
  have hcall := lettered_call settings (m := 0)
      (readLine_neg (b := List.replicate (Nat.succ 0) 97) hneg)
    (by show _ ≤ (1610612736 : Int); unfold int32; omega)
  have hprogress := (hall settings (by decide) (by decide) (by decide) (by decide) _ hsecond _
    hhungry).progress
  rw [hcall] at hprogress
  rcases hprogress with ⟨d, hd, hbytes⟩ | hend
  · exact hd (List.self_eq_append_left.mp hbytes)
  · exact hend (InLine.busy (.inl rfl)).1

end HttpRequest

end QtWebApp
