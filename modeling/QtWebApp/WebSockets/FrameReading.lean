import QtWebApp.WebSockets.QWebSocketFrame

/-!
# QtWebApp.WebSockets.FrameReading

`readFrame` does not depend on the pieces in which the bytes arrive.

The reader gets the bytes of a stream in arbitrary pieces, each of which wakes it up while it
waits. `foldl_arrive` says that after any pieces it is where it would be if all of their bytes had
been there at once. So what it makes of a stream is a function of the stream: `parse`.

The proof goes from one turn to the loop. A turn either waits and changes nothing, or it reads on,
and then what arrives later behind its bytes makes no difference (`turn_cases`). So after enough
turns the loop either has its frame and ignores what is behind it, or it waits with all later data
still to come (`turns_append`), and pieces can be put together one by one.
-/

namespace QtWebApp

namespace QWebSocketFrame

namespace Reading

/-! ### Turns

A turn depends on the bytes that it takes, and on no others. The rank of a state bounds the number
of turns that are left, whatever the bytes are. -/

/-- How many turns there are at most before the loop waits or ends. -/
def rank (r : Reading) : Nat :=
  match r.processingState with
  | .readHeader => 4
  | .readPayloadLength | .readBigPayloadLength => 3
  | .readMask => 2
  | .readPayload => 1
  | .dispatchResult => 0

/-- A reader that waits does not move. -/
@[simp] theorem turn_waiting {r : Reading} (h : r.waiting = true) (b : Bytes) :
    r.turn b = (r, b) := by
  unfold turn
  rw [if_pos h]

/-- A reader that is done does not move. -/
theorem turn_done {r : Reading} (h : r.Done) (b : Bytes) : r.turn b = (r, b) := by
  unfold turn
  rw [if_neg (by rw [h.1]; exact Bool.false_ne_true), h.2]

theorem rank_eq_zero {r : Reading} : r.rank = 0 ↔ r.processingState = .dispatchResult := by
  unfold rank
  cases r.processingState <;> simp

/-- A turn that reads on: it comes closer to the end of the loop, and what arrives behind the bytes
that are there makes no difference. -/
structure GoesOn (r : Reading) (b : Bytes) : Prop where
  awake : (r.turn b).1.waiting = false
  closer : (r.turn b).1.rank < r.rank
  behind : ∀ c, r.turn (b ++ c) = ((r.turn b).1, (r.turn b).2 ++ c)

/-- Taking bytes that are there, or waiting. -/
theorem take_cases (r : Reading) (n : Nat) (b : Bytes) (next : Bytes → Reading) :
    r.take n b next = (r.wait, b) ∨
      r.take n b next = (next (b.take n), b.drop n) ∧
        ∀ c, r.take n (b ++ c) next = (next (b.take n), b.drop n ++ c) := by
  unfold take
  split_ifs with h
  · refine .inr ⟨rfl, fun c => ?_⟩
    rw [if_pos (by rw [List.length_append]; omega), List.take_append_of_le_length h,
      List.drop_append_of_le_length h]
  · exact .inl rfl

/-- Behind the length there are two turns at most, for the key and the payload. -/
theorem afterLength_cases (r : Reading) : r.afterLength.waiting = r.waiting ∧
    r.afterLength.rank ≤ 2 := by
  refine ⟨rfl, ?_⟩
  unfold afterLength rank
  cases r.hasMask
  · exact Nat.le_succ 1
  · exact Nat.le_refl 2

/-- Behind the header there are three turns at most. -/
theorem header_cases (r : Reading) (first second : UInt8) :
    (r.header first second).waiting = r.waiting ∧ (r.header first second).rank ≤ 3 := by
  unfold header
  dsimp only
  split_ifs
  all_goals
    refine ⟨rfl, ?_⟩
    unfold rank
    first
      | exact Nat.le_refl 3
      | exact Nat.zero_le 3
      | exact Nat.le_succ_of_le (afterLength_cases _).2

/-- The length in two bytes is followed by two turns at most, also if it is rejected. -/
theorem shortLength_cases {r : Reading} (h : r.waiting = false) (n : Nat) :
    (r.shortLength n).waiting = false ∧ (r.shortLength n).rank ≤ 2 := by
  unfold shortLength
  dsimp only
  split_ifs
  · exact ⟨rfl, Nat.zero_le 2⟩
  · exact ⟨h, (afterLength_cases _).2⟩

/-- So is the length in eight bytes. -/
theorem bigLength_cases {r : Reading} (h : r.waiting = false) (n : Nat) :
    (r.bigLength n).waiting = false ∧ (r.bigLength n).rank ≤ 2 := by
  unfold bigLength
  dsimp only
  split_ifs
  · exact ⟨rfl, Nat.zero_le 2⟩
  · exact ⟨rfl, Nat.zero_le 2⟩
  · exact ⟨h, (afterLength_cases _).2⟩

/-- **What a turn does.** It waits for more data and leaves everything as it is, or it reads on. -/
theorem turn_cases {r : Reading} (hw : r.waiting = false) (hd : ¬ r.Done) (b : Bytes) :
    r.turn b = (r.wait, b) ∨ r.GoesOn b := by
  have hturn : ∀ c, r.turn c = _ := fun c => by
    unfold turn
    rw [if_neg (by rw [hw]; exact Bool.false_ne_true)]
  -- reading some bytes, in the states that only differ in what comes next
  have htake : ∀ (n : Nat) (next : Bytes → Reading), (∀ c, r.turn c = r.take n c next) →
      (∀ d, (next d).waiting = false ∧ (next d).rank < r.rank) →
      r.turn b = (r.wait, b) ∨ r.GoesOn b := by
    intro n next hall hnext
    rcases take_cases r n b next with hwait | ⟨hread, hmore⟩
    · exact .inl ((hall b).trans hwait)
    · have hb : r.turn b = (next (b.take n), b.drop n) := (hall b).trans hread
      refine .inr ⟨?_, ?_, fun c => ?_⟩
      · rw [hb]
        exact (hnext _).1
      · rw [hb]
        exact (hnext _).2
      · rw [hb, hall, hmore]
  cases hstate : r.processingState with
  | readHeader =>
      simp only [hstate] at hturn
      have hrank : r.rank = 4 := by rw [rank, hstate]
      refine htake 2 _ hturn fun d => ?_
      have hheader := header_cases r (d.getD 0 0) (d.getD 1 0)
      exact ⟨hheader.1.trans hw, by omega⟩
  | readPayloadLength =>
      simp only [hstate] at hturn
      have hrank : r.rank = 3 := by rw [rank, hstate]
      refine htake 2 _ hturn fun d => ?_
      have hlength := shortLength_cases hw (fromBigEndian d)
      exact ⟨hlength.1, by omega⟩
  | readBigPayloadLength =>
      simp only [hstate] at hturn
      have hrank : r.rank = 3 := by rw [rank, hstate]
      refine htake 8 _ hturn fun d => ?_
      have hlength := bigLength_cases hw (fromBigEndian d)
      exact ⟨hlength.1, by omega⟩
  | readMask =>
      simp only [hstate] at hturn
      have hrank : r.rank = 2 := by rw [rank, hstate]
      exact htake 4 _ hturn fun d => ⟨hw, by rw [hrank]; exact Nat.lt_succ_self 1⟩
  | readPayload =>
      simp only [hstate] at hturn
      have hrank : r.rank = 1 := by rw [rank, hstate]
      by_cases hzero : r.payloadLength = 0
      · simp only [if_pos hzero] at hturn
        refine .inr ⟨by rw [hturn]; exact hw, by rw [hturn, hrank]; exact Nat.one_pos, fun c => ?_⟩
        rw [hturn, hturn]
      · simp only [if_neg hzero] at hturn
        by_cases hbig : maxFrameSize < r.payloadLength
        · simp only [if_pos hbig] at hturn
          refine .inr ⟨by rw [hturn]; rfl, by rw [hturn, hrank]; exact Nat.one_pos, fun c => ?_⟩
          rw [hturn, hturn]
        · simp only [if_neg hbig] at hturn
          exact htake r.payloadLength _ hturn fun d => ⟨hw, by rw [hrank]; exact Nat.one_pos⟩
  | dispatchResult => exact absurd ⟨hw, hstate⟩ hd

/-! ### The loop

Turns that are not needed change nothing, so the loop may be given more of them than it needs, and
two loops over parts of a stream can be joined. -/

/-- The loop is left at once by a reader that waits. -/
@[simp] theorem turns_waiting {r : Reading} (h : r.waiting = true) (n : Nat) (b : Bytes) :
    r.turns n b = (r, b) := by
  induction n with
  | zero => rfl
  | succ n ih => rw [turns, turn_waiting h, ih]

/-- The loop is left at once by a reader that is done. -/
theorem turns_done {r : Reading} (h : r.Done) (n : Nat) (b : Bytes) : r.turns n b = (r, b) := by
  induction n with
  | zero => rfl
  | succ n ih => rw [turns, turn_done h, ih]

/-- The reader is awake again. -/
def awaken (r : Reading) : Reading := { r with waiting := false }

theorem awaken_wait {r : Reading} (h : r.waiting = false) : r.wait.awaken = r := by
  obtain ⟨frame, state, waiting, hasMask, length⟩ := r
  dsimp only at h
  rw [h]
  rfl

/-- More turns than necessary change nothing. -/
theorem turns_succ {r : Reading} {n : Nat} (h : r.rank ≤ n) (b : Bytes) :
    r.turns (n + 1) b = r.turns n b := by
  induction n generalizing r b with
  | zero =>
      by_cases hw : r.waiting = true
      · rw [turns_waiting hw, turns_waiting hw]
      · have hd : r.Done := ⟨by simpa using hw, rank_eq_zero.mp (by omega)⟩
        rw [turns_done hd, turns_done hd]
  | succ n ih =>
      by_cases hw : r.waiting = true
      · rw [turns_waiting hw, turns_waiting hw]
      · by_cases hd : r.Done
        · rw [turns_done hd, turns_done hd]
        · rcases turn_cases (by simpa using hw) hd b with hwait | hgo
          · have hstuck : r.wait.waiting = true := rfl
            rw [turns, hwait, turns_waiting hstuck, turns, hwait, turns_waiting hstuck]
          · have hcloser := hgo.closer
            rw [turns, ih (by omega), turns]

/-- **The loop and what arrives behind.** Enough turns end the loop, and then what is behind the
frame makes no difference; or they end in a wait, and with more data the loop goes on as if all
of it had been there. -/
theorem turns_append {r : Reading} {n : Nat} (hw : r.waiting = false)
    (hn : r.rank ≤ n) (b : Bytes) :
    ((r.turns n b).1.Done ∧ ∀ c, r.turns n (b ++ c) = ((r.turns n b).1, (r.turns n b).2 ++ c)) ∨
      ((r.turns n b).1.waiting = true ∧ (r.turns n b).1.rank ≤ n ∧
        ∀ c, r.turns n (b ++ c) = (r.turns n b).1.awaken.turns n ((r.turns n b).2 ++ c)) := by
  induction n generalizing r b with
  | zero => exact .inl ⟨⟨hw, rank_eq_zero.mp (Nat.le_zero.mp hn)⟩, fun c => rfl⟩
  | succ n ih =>
      by_cases hd : r.Done
      · refine .inl ⟨by rw [turns_done hd]; exact hd, fun c => ?_⟩
        rw [turns_done hd, turns_done hd]
      · rcases turn_cases hw hd b with hwait | hgo
        · have hstuck : r.turns (n + 1) b = (r.wait, b) := by
            rw [turns, hwait, turns_waiting (r := r.wait) rfl]
          refine .inr ⟨by rw [hstuck]; rfl, by rw [hstuck]; exact hn, fun c => ?_⟩
          rw [hstuck, awaken_wait hw]
        · have hcloser := hgo.closer
          rcases ih hgo.awake (by omega) (r.turn b).2 with ⟨hdone, hbehind⟩ | ⟨hwaits, hrank, hmore⟩
          · refine .inl ⟨hdone, fun c => ?_⟩
            rw [turns, hgo.behind, hbehind]
            rfl
          · refine .inr ⟨hwaits, Nat.le_succ_of_le hrank, fun c => ?_⟩
            rw [turns, hgo.behind, hmore]
            exact (turns_succ (r := ((r.turn b).1.turns n (r.turn b).2).1.awaken) hrank _).symm

/-- Four turns are enough for every state. -/
theorem rank_le (r : Reading) : r.rank ≤ 4 := by
  unfold rank
  cases r.processingState <;> simp

/-- **The loop and what arrives behind**, for `advance`. -/
theorem advance_append {r : Reading} (hw : r.waiting = false) (b : Bytes) :
    ((r.advance b).1.Done ∧ ∀ c, r.advance (b ++ c) = ((r.advance b).1, (r.advance b).2 ++ c)) ∨
      ((r.advance b).1.waiting = true ∧
        ∀ c, r.advance (b ++ c) = (r.advance b).1.resume ((r.advance b).2 ++ c)) := by
  rcases turns_append hw r.rank_le b with hdone | ⟨hwaits, -, hmore⟩
  · exact .inl hdone
  · exact .inr ⟨hwaits, hmore⟩

/-! ### Arrivals

The reader wakes up at every piece and reads on. Where it is after some bytes, `reached`, does not
tell in how many pieces they came. -/

/-- A piece of data arrives: it wakes up a reader that waits for it. -/
def arrive (s : Reading × Bytes) (piece : Bytes) : Reading × Bytes :=
  if s.1.waiting then s.1.resume (s.2 ++ piece) else (s.1, s.2 ++ piece)

/-- The reader after some data: how far it has come, and the bytes that it has not read. -/
def reached (b : Bytes) : Reading × Bytes := start.advance b

/-- After any data the reader is done, or it waits for more. -/
theorem reached_cases (b : Bytes) : (reached b).1.Done ∨ (reached b).1.waiting = true := by
  rcases advance_append (r := start) rfl b with h | h
  · exact .inl h.1
  · exact .inr h.1

/-- **A piece more.** The reader is where it would be if the piece had been there from the
beginning. -/
theorem arrive_reached (b piece : Bytes) : arrive (reached b) piece = reached (b ++ piece) := by
  unfold arrive
  rcases advance_append (r := start) rfl b with ⟨hdone, hbehind⟩ | ⟨hwaits, hmore⟩
  · rw [if_neg (by rw [reached, hdone.1]; exact Bool.false_ne_true)]
    exact (hbehind piece).symm
  · rw [if_pos (show (reached b).1.waiting = true from hwaits)]
    exact (hmore piece).symm

/-- The pieces in which the data arrives make no difference. -/
theorem foldl_arrive (b : Bytes) (pieces : List Bytes) :
    pieces.foldl arrive (reached b) = reached (b ++ pieces.flatten) := by
  induction pieces generalizing b with
  | nil => rw [List.foldl_nil, List.flatten_nil, List.append_nil]
  | cons piece pieces ih =>
      rw [List.foldl_cons, arrive_reached, ih, List.flatten_cons, List.append_assoc]

end Reading

/-! ### The first frame of a stream

`parse` is what a reader that begins at the start of a stream makes of it. It is defined through the
loop with all bytes at hand, and characterised by what the reader has reached. -/

namespace Reading

/-- What a reader makes of a stream: a frame and the bytes behind it; `none` if more bytes are
needed. -/
def finish (r : Reading) (b : Bytes) : Option (QWebSocketFrame × Bytes) :=
  if (r.advance b).1.Done then some ((r.advance b).1.frame, (r.advance b).2) else none

/-- A reader that is done has its frame. -/
theorem finish_done {r : Reading} (h : r.Done) (b : Bytes) : r.finish b = some (r.frame, b) := by
  rw [finish, advance, turns_done h, if_pos h]

/-- A reader that waits needs more bytes. -/
theorem finish_wait {r : Reading} (h : r.waiting = true) (b : Bytes) : r.finish b = none := by
  rw [finish, advance, turns_waiting h, if_neg (fun hdone => by rw [hdone.1] at h; cases h)]

/-- One turn more. -/
theorem finish_turn (r : Reading) (b : Bytes) : r.finish b = (r.turn b).1.finish (r.turn b).2 := by
  have hturn : r.advance b = (r.turn b).1.advance (r.turn b).2 := (turns_succ r.rank_le b).symm
  rw [finish, finish, hturn]

/-- A turn that takes bytes from the device. -/
theorem finish_take {r : Reading} {b : Bytes} {n : Nat} (next : Bytes → Reading)
    (h : r.turn b = r.take n b next) :
    r.finish b = if n ≤ b.length then (next (b.take n)).finish (b.drop n) else none := by
  rw [finish_turn, h, take]
  split
  · rfl
  · exact finish_wait rfl b

end Reading

/-- The first frame of a stream, and the bytes behind it; `none` if more bytes are needed. -/
def parse (b : Bytes) : Option (QWebSocketFrame × Bytes) := Reading.start.finish b

/-- There is a first frame exactly if the reader ends with it and leaves the rest. -/
theorem parse_eq_some {b rest : Bytes} {f : QWebSocketFrame} : parse b = some (f, rest) ↔
    (Reading.reached b).1.Done ∧ (Reading.reached b).1.frame = f ∧
      (Reading.reached b).2 = rest := by
  show (if (Reading.reached b).1.Done then _ else _) = _ ↔ _
  by_cases hdone : (Reading.reached b).1.Done
  · rw [if_pos hdone, Option.some.injEq, Prod.mk.injEq]
    exact ⟨fun h => ⟨hdone, h⟩, fun h => h.2⟩
  · rw [if_neg hdone]
    exact ⟨(by intro h; cases h), fun h => absurd h.1 hdone⟩

/-- There is none yet exactly if the reader waits. -/
theorem parse_eq_none {b : Bytes} : parse b = none ↔ (Reading.reached b).1.waiting = true := by
  show (if (Reading.reached b).1.Done then _ else _) = _ ↔ _
  rcases Reading.reached_cases b with hdone | hwaits
  · rw [if_pos hdone, hdone.1]
    simp
  · rw [if_neg (fun hdone => by rw [hdone.1] at hwaits; cases hwaits)]
    simp [hwaits]

/-- A frame is there as soon as its bytes are. -/
theorem parse_append {b rest : Bytes} {f : QWebSocketFrame}
    (h : parse b = some (f, rest)) (c : Bytes) :
    parse (b ++ c) = some (f, rest ++ c) := by
  obtain ⟨hdone, hframe, hrest⟩ := parse_eq_some.mp h
  rcases Reading.advance_append (r := .start) rfl b with ⟨-, hbehind⟩ | ⟨hwaits, -⟩
  · have hmore : Reading.reached (b ++ c) = ((Reading.reached b).1, (Reading.reached b).2 ++ c) :=
      hbehind c
    exact parse_eq_some.mpr (by rw [hmore]; exact ⟨hdone, hframe, by rw [hrest]⟩)
  · exact absurd (hwaits.symm.trans hdone.1) (by simp)

/-- Taking bytes from the device leaves no more than there were. -/
theorem take_length_le (r : Reading) (n : Nat) (b : Bytes) (next : Bytes → Reading) :
    (r.take n b next).2.length ≤ b.length := by
  unfold Reading.take
  split
  · exact Nat.le_trans (Nat.le_of_eq List.length_drop) (Nat.sub_le _ _)
  · exact Nat.le_refl _

/-- A reader takes bytes away, and puts none there. -/
theorem turn_length_le (r : Reading) (b : Bytes) : (r.turn b).2.length ≤ b.length := by
  unfold Reading.turn
  by_cases hw : r.waiting = true
  · rw [if_pos hw]
  · rw [if_neg hw]
    cases r.processingState with
    | readPayload =>
        dsimp only
        split_ifs
        · exact Nat.le_refl _
        · exact Nat.le_refl _
        · exact take_length_le ..
    | dispatchResult => exact Nat.le_refl _
    | _ => exact take_length_le ..

/-- The loop leaves no more bytes than there were. -/
theorem turns_length_le (r : Reading) (n : Nat) (b : Bytes) :
    (r.turns n b).2.length ≤ b.length := by
  induction n generalizing r b with
  | zero => exact Nat.le_refl _
  | succ n ih => exact Nat.le_trans (ih _ _) (turn_length_le r b)

/-- A frame has a header. -/
theorem parse_length_lt {b rest : Bytes} {f : QWebSocketFrame} (h : parse b = some (f, rest)) :
    rest.length < b.length := by
  obtain ⟨hdone, -, hrest⟩ := parse_eq_some.mp h
  rcases b with _ | ⟨first, _ | ⟨second, b⟩⟩
  · cases h
  · cases h
  · have hstart : Reading.reached (first :: second :: b) =
        (Reading.start.header first second).turns 3 b := rfl
    have hle := turns_length_le (Reading.start.header first second) 3 b
    rw [← hstart, hrest] at hle
    simp only [List.length_cons]
    omega

/-- The frames at the beginning of a stream, and the bytes behind them. -/
inductive Consumed (b : Bytes) : List QWebSocketFrame → Bytes → Prop
  | nil : Consumed b [] b
  | snoc {fs : List QWebSocketFrame} {c rest : Bytes} {f : QWebSocketFrame} (h : Consumed b fs c)
      (hf : parse c = some (f, rest)) : Consumed b (fs ++ [f]) rest

/-- What comes behind the stream comes behind the bytes that are left. -/
theorem Consumed.append {b c : Bytes} {fs : List QWebSocketFrame}
    (h : Consumed b fs c) (d : Bytes) :
    Consumed (b ++ d) fs (c ++ d) := by
  induction h with
  | nil => exact .nil
  | snoc _ hf ih => exact .snoc ih (parse_append hf d)

/-- Without a frame everything is left. -/
theorem Consumed.eq_of_nil {b c : Bytes} (h : Consumed b [] c) : c = b := by
  generalize hfs : ([] : List QWebSocketFrame) = fs at h
  cases h with
  | nil => rfl
  | snoc h hf => exact absurd hfs (by simp)

/-- When no frame is complete at the beginning, none has been read. -/
theorem Consumed.nil_of_parse_none {b c : Bytes} {fs : List QWebSocketFrame} (h : Consumed b fs c)
    (hnone : parse b = none) : fs = [] := by
  induction h with
  | nil => rfl
  | snoc h hf ih =>
      rw [ih] at h
      rw [h.eq_of_nil, hnone] at hf
      cases hf

/-- The longer one of two ways to read a stream goes on where the shorter one ends. -/
theorem Consumed.split {b c c' : Bytes} {fs fs' : List QWebSocketFrame} (h : Consumed b fs c)
    (h' : Consumed b fs' c') (hlen : fs.length ≤ fs'.length) :
    ∃ gs, fs' = fs ++ gs ∧ Consumed c gs c' := by
  induction h' generalizing fs c with
  | nil =>
      cases h with
      | nil => exact ⟨[], rfl, .nil⟩
      | snoc h hf => simp at hlen
  | @snoc fs' d rest f h' hf ih =>
      rcases Nat.lt_or_ge fs'.length fs.length with hlt | hle
      · -- both have the same number of frames
        cases h with
        | nil => cases hlt
        | @snoc fs d' rest' f' h hf' =>
            rw [List.length_append, List.length_singleton] at hlen hlt
            rw [List.length_append, List.length_singleton] at hlen
            obtain ⟨gs, hgs, hrest⟩ := ih h (by omega)
            have hnil : gs = [] := by
              have hcount := congrArg List.length hgs
              rw [List.length_append] at hcount
              exact List.length_eq_zero_iff.mp (by omega)
            rw [hnil] at hgs hrest
            rw [List.append_nil] at hgs
            rw [hrest.eq_of_nil] at hf
            rw [hf'] at hf
            cases hf
            exact ⟨[], by rw [hgs, List.append_nil], .nil⟩
      · obtain ⟨gs, hgs, hrest⟩ := ih h hle
        exact ⟨gs ++ [f], by rw [hgs, List.append_assoc], .snoc hrest hf⟩

/-- When no frame is complete any more, no way to read the stream has come further. -/
theorem Consumed.prefix_of_parse_none {b c c' : Bytes} {fs fs' : List QWebSocketFrame}
    (h : Consumed b fs c) (h' : Consumed b fs' c') (hnone : parse c' = none) : fs <+: fs' := by
  rcases Nat.le_total fs.length fs'.length with hle | hle
  · obtain ⟨gs, rfl, -⟩ := h.split h' hle
    exact List.prefix_append _ _
  · obtain ⟨gs, rfl, hrest⟩ := h'.split h hle
    rw [hrest.nil_of_parse_none hnone, List.append_nil]

end QWebSocketFrame

end QtWebApp
