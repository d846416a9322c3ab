import QtWebApp.TemplateEngine.Blocks

/-!
# QtWebApp.TemplateEngine.Endings

When the operations on blocks come to an end.

A start tag without an end tag behind it makes an operation search the same place again and again.
As long as that does not happen, `setCondition` ends because the text gets shorter with every block.
A loop may make it longer, and where the copies of a part meet, what one of them ends with and the
next one begins with can be a new tag. But every end tag that comes about so uses up a short piece
at the end of the part, so that the parts in front of the new end tags end with fewer of them
(`stopsAt`).

`Settles` leaves open which of the two happens, that the loop ends or that it comes to a start tag
without an end tag. So it can be shown for every text, and whoever knows that all end tags are there
gets the end of the loop.
-/

namespace QtWebApp

namespace Template

open QString Scan Traits

/-- A turn that finds a start tag, but no end tag behind it. -/
def OpenEnded (startTag endTag : QString) (s : Scan) : Prop :=
  0 ≤ s.start ∧ s.text.indexOf endTag (s.start + startTag.length) < 0

instance (startTag endTag : QString) (s : Scan) : Decidable (OpenEnded startTag endTag s) := by
  unfold OpenEnded
  infer_instance

theorem openEnded_seek_iff {startTag endTag rest : QString} {i : Nat}
    (h : Search.find startTag rest = some i) (done : QString) (count : Nat) :
    OpenEnded startTag endTag (Scan.seek startTag done rest count) ↔
      Search.find endTag (rest.drop (i + startTag.length)) = none := by
  rw [Scan.seek_some h, OpenEnded]
  dsimp only
  rw [indexOf_behind h]
  cases Search.find endTag (rest.drop (i + startTag.length)) with
  | none => exact ⟨fun _ => rfl, fun _ => ⟨Int.natCast_nonneg _, Int.negSucc_lt_zero 0⟩⟩
  | some j => exact ⟨fun hopen => absurd hopen.2 (by rw [positionFrom]; omega),
      fun hnone => nomatch hnone⟩

/-- The loop ends, or it reaches a start tag without an end tag. -/
def Settles (startTag endTag : QString) (body : Nat → Scan → Option (Turn Scan))
    (s : Scan) : Prop :=
  (∃ u, Loop.Ends body s u) ∨ ∃ u, Loop.Reach body s u ∧ OpenEnded startTag endTag u

theorem Settles.again {startTag endTag : QString} {body : Nat → Scan → Option (Turn Scan)}
    (hm : Loop.Mono body) {k : Nat} {s s' : Scan} (hturn : body k s = some (.again s'))
    (h : Settles startTag endTag body s') : Settles startTag endTag body s := by
  rcases h with ⟨u, hends⟩ | ⟨u, hreach, hopen⟩
  · exact .inl ⟨u, .again hm hturn hends⟩
  · exact .inr ⟨u, hreach.prepend hturn, hopen⟩

/-! ### Texts that get shorter

A condition replaces a block by a part of it, and the tags are gone. -/

/-- A turn that finds an else tag in front of the end tag, which reaches into the end tag. -/
def Overlaps (startTag elseTag endTag : QString) (s : Scan) : Prop :=
  let ellse := s.text.indexOf elseTag (s.start + startTag.length)
  let stop := s.text.indexOf endTag (s.start + startTag.length)
  0 ≤ s.start ∧ 0 ≤ ellse ∧ ellse < stop ∧ stop < ellse + elseTag.length

section Shorter

variable {startTag elseTag endTag rest : QString} {first : Bool} {copies : QString → QString}

theorem overlaps_seek {i j k : Nat} (hi : Search.find startTag rest = some i)
    (hj : Search.find endTag (rest.drop (i + startTag.length)) = some j)
    (hk : Search.find elseTag (rest.drop (i + startTag.length)) = some k) (hkj : k < j)
    (hin : j < k + elseTag.length) (done : QString) (count : Nat) :
    Overlaps startTag elseTag endTag (Scan.seek startTag done rest count) := by
  rw [Scan.seek_some hi, Overlaps]
  dsimp only
  rw [indexOf_behind hi, indexOf_behind hi, hj, hk, positionFrom, positionFrom]
  omega

/-- What takes the place of a block is not longer than what is between its tags. -/
theorem replacement_length (hcopies : first = true → ∀ y, (copies y).length ≤ y.length)
    {r : QString} {j : Nat}
    (hfits : ∀ k, Search.find elseTag r = some k → k < j → k + elseTag.length ≤ j) :
    (replacement elseTag first copies r j).length ≤ j := by
  have hpart : ∀ n, n ≤ j → (if first then copies (r.take n) else []).length ≤ j := by
    intro n hn
    cases first with
    | true =>
        have hle := hcopies rfl (r.take n)
        rw [List.length_take] at hle
        rw [if_pos rfl]
        omega
    | false => exact Nat.zero_le _
  rw [replacement]
  split
  · next k hk =>
      split
      · next hkj =>
          have hfit := hfits k hk hkj
          cases first with
          | true => exact hpart k (Nat.le_of_lt hkj)
          | false =>
              have hlen : ¬ ((j : Int) - k - elseTag.length < 0) := by omega
              simp only [Bool.false_eq_true, if_false]
              rw [QString.mid, if_neg hlen, List.length_take]
              omega
      · exact hpart j (Nat.le_refl j)
  · exact hpart j (Nat.le_refl j)

/-- **A loop that makes the text shorter settles** on every text, unless tags overlap. -/
theorem settles_shorter (hne : 0 < startTag.length)
    (hcopies : first = true → ∀ y, (copies y).length ≤ y.length) (done rest : QString) (count : Nat)
    (hfits : ∀ u, Loop.Reach (fun _ => blockTurn startTag elseTag endTag first copies)
      (Scan.seek startTag done rest count) u → ¬ Overlaps startTag elseTag endTag u) :
    Settles startTag endTag (fun _ => blockTurn startTag elseTag endTag first copies)
      (Scan.seek startTag done rest count) := by
  induction hn : rest.length using Nat.strongRecOn generalizing done rest count with
  | _ n ih =>
      cases hstart : Search.find startTag rest with
      | none => exact .inl ⟨_, .leave (k := 0) (Loop.mono_const _) (blockTurn_none hstart)⟩
      | some i =>
          cases hstop : Search.find endTag (rest.drop (i + startTag.length)) with
          | none => exact .inr ⟨_, .start, (openEnded_seek_iff hstart done count).mpr hstop⟩
          | some j =>
              have hlen := @replacement_length elseTag first copies hcopies _ j fun k hk hkj =>
                Nat.not_lt.mp fun hin => hfits _ .start (overlaps_seek hstart hstop hk hkj hin _ _)
              have hle := (Search.find_eq_some hstart).2
              have hle' := (Search.find_eq_some hstop).2
              have hturn := @blockTurn_found startTag elseTag endTag first copies done
                  rest count i hstart
                hne j hstop
              refine .again (k := 0) (Loop.mono_const _) hturn (ih _ ?_ _ _ _ (fun u hreach =>
                hfits u (hreach.prepend (k := 0) hturn)) rfl)
              rw [List.length_drop] at hle'
              rw [← hn, List.length_append, List.length_drop]
              omega

end Shorter

namespace BlockTags

variable (t : BlockTags) (copies : QString → QString)

/-- The loop settles on these pieces, wherever they stand. -/
def SettlesOn (bs : List QString) : Prop :=
  ∀ done count, Settles (123 :: t.start) (123 :: t.stop) (t.turn true copies)
    (t.seek done (braced bs) count)

variable {t copies} {b x d : QString} {bs cs es : List QString}

theorem turn_mono (first : Bool) : Loop.Mono (t.turn first copies) := Loop.mono_const _

/-- Pieces that are not start tags are passed over. -/
theorem SettlesOn.skip (h : t.SettlesOn copies es) (hbs : ∀ b ∈ bs, Flat b ∧ ¬ t.start <+: b) :
    t.SettlesOn copies (bs ++ es) := by
  intro done count
  rw [seek_skip_pieces hbs es]
  exact h _ _

theorem SettlesOn.skip_one (h : t.SettlesOn copies es) (hb : Flat b) (hno : ¬ t.start <+: b) :
    t.SettlesOn copies (b :: es) := by
  have hone : ∀ c ∈ [b], Flat c ∧ ¬ t.start <+: c := by
    intro c hc
    rw [List.mem_singleton.mp hc]
    exact ⟨hb, hno⟩
  exact h.skip hone

/-- At the end of the text the loop ends. -/
theorem settlesOn_nil : t.SettlesOn copies [] := by
  intro done count
  refine .inl ⟨_, .leave (k := 0) (turn_mono true) (blockTurn_none ?_)⟩
  exact Search.find_nil (List.cons_ne_nil _ _)

/-- Without an end tag the loop ends, or comes to a start tag without one. -/
theorem settlesOn_segment (h : t.Segment bs) : t.SettlesOn copies bs := by
  induction bs with
  | nil => exact settlesOn_nil
  | cons b bs ih =>
      obtain ⟨⟨hb, -⟩, hbs⟩ := segment_cons.mp h
      by_cases hstart : t.start <+: b
      · obtain ⟨x, rfl⟩ := hstart
        intro done count
        have hnone := find_behind t.stop_flat (flat_append.mp hb).2 hbs []
        rw [List.append_nil, braced_nil, Search.find_nil (List.cons_ne_nil _ _)] at hnone
        refine .inr ⟨_, .start, (openEnded_seek_iff (find_braced_here t.start x bs) _ _).mpr ?_⟩
        rw [Nat.zero_add, braced_split, List.drop_left]
        exact hnone
      · exact (ih hbs).skip_one hb hstart

/-- A block is replaced. -/
theorem settlesOn_block (hx : Flat x) (hbs : t.traits.Whole bs)
    (hcs : ∀ c ∈ cs.head?, t.ellse <+: c) (h : t.Segment (bs ++ cs))
    (hnext : ∀ done count, Settles (123 :: t.start) (123 :: t.stop) (t.turn true copies)
      (t.seek done (copies (x ++ braced bs) ++ (d ++ braced es)) count)) :
    t.SettlesOn copies ((t.start ++ x) :: (bs ++ cs ++ (t.stop ++ d) :: es)) := by
  intro done count
  exact .again (turn_mono true) (turn_pieces hx hbs hcs h d es) (hnext _ _)

/-! ### Copies

A copy differs from the part in names, so it has the same tags in the same places. -/

variable (t) in
/-- What numbering a piece leaves alone. -/
structure Keeps (f : QString → QString) : Prop where
  flat : ∀ b, Flat b → Flat (f b)
  start : ∀ b, t.start <+: f b ↔ t.start <+: b
  ellse : ∀ b, t.ellse <+: f b ↔ t.ellse <+: b
  stop : ∀ b, t.stop <+: f b ↔ t.stop <+: b
  short : ∀ b, t.Short (f b) ↔ t.Short b
  same : ∀ b, t.Short b → f b = b

variable (t) in
/-- The copies of a part, the last one apart. -/
structure Copying (copies : QString → QString) (f : Nat → QString → QString) (is : List Nat)
    (last : Nat) : Prop where
  keeps : ∀ i, t.Keeps (f i)
  eq : ∀ {x bs}, Flat x → (∀ b ∈ bs, Flat b) → copies (x ++ braced bs) =
    (is.flatMap fun i => x ++ braced (bs.map (f i))) ++ (x ++ braced (bs.map (f last)))

/-- The pieces of copies that end with the pieces `u`: what stands in front of the first piece of a
copy is put behind the copy before it, and `d` behind the last one. -/
def rows (x d : QString) (F : Nat → List QString) (u : Nat → QString) :
    List Nat → Nat → List QString
  | [], last => F last ++ [u last ++ d]
  | i :: is, last => F i ++ (u i ++ x) :: rows x d F u is last

/-- The text of the copies, with what follows them. -/
theorem rows_text (F : Nat → List QString) (u : Nat → QString) (is : List Nat) (last : Nat)
    (y : QString) :
    (is.flatMap fun i => x ++ braced (F i ++ [u i])) ++
      (x ++ braced (F last ++ [u last])) ++ (d ++ y) =
      x ++ (braced (rows x d F u is last) ++ y) := by
  induction is with
  | nil => simp [rows]
  | cons i is ih =>
      rw [List.flatMap_cons, List.append_assoc, List.append_assoc,
        ← List.append_assoc (is.flatMap _), ih]
      simp [rows]

/-- The short pieces with which the copies end are the last ones. -/
theorem rows_long {F : Nat → List QString} {u : Nat → QString} (hF : ∀ i, t.Segment (F i))
    (hwhole : ∀ i, t.traits.Whole (F i))
    (hu : ∀ i y, Flat y → (Flat (u i ++ y) ∧ ¬ t.stop <+: u i ++ y) ∧ ¬ t.ellse <+: u i ++ y)
    (hx : Flat x) (is : List Nat) (last : Nat) :
    ∃ bs, rows x d F u is last = bs ++ [u last ++ d] ∧ t.Segment bs ∧ t.traits.Whole bs := by
  induction is with
  | nil => exact ⟨F last, rfl, hF last, hwhole last⟩
  | cons i is ih =>
      obtain ⟨bs, heq, hbs, hbs'⟩ := ih
      refine ⟨F i ++ (u i ++ x) :: bs, ?_, ?_, ?_⟩
      · rw [rows, heq, List.append_assoc, List.cons_append]
      · exact segment_append.mpr ⟨hF i, segment_cons.mpr ⟨(hu i x hx).1, hbs⟩⟩
      · exact Whole.append_iff.mpr ⟨hwhole i, Whole.cons_iff.mpr ⟨(hu i x hx).2, hbs'⟩⟩

/-! ### Texts with end tags

The induction is on the number of short pieces at the end of a part, and within it on the number of
end tags in the text. -/

variable (t copies) in
/-- When the loop settles on every segment in front of some pieces that ends with at most `k` short
pieces, then also in front of an end tag and these pieces. -/
def StopsAt (k : Nat) : Prop :=
  ∀ bs d es, t.Segment bs → t.traits.Bounded k bs → Flat d →
    (∀ cs, t.Segment cs → t.traits.Bounded k cs → t.SettlesOn copies (cs ++ es)) →
    t.SettlesOn copies (bs ++ (t.stop ++ d) :: es)

/-- The copies of a part, without its last piece. -/
structure Part (t : BlockTags) (k : Nat) (F : Nat → List QString) : Prop where
  segment : ∀ i, t.Segment (F i)
  whole : ∀ i, t.traits.Whole (F i)
  bounded : ∀ i, t.traits.Bounded k (F i)
  trailing : ∀ i, t.traits.trailing 0 (F i) ≤ k

section Rows

variable {k : Nat} {F : Nat → List QString} {u : QString} {last : Nat}

/-- **Copies whose last piece is short.** Where that piece and what follows it make an end tag, the
part in front of it ends with one short piece less. -/
theorem settlesOn_rows (hF : Part t k F) (hux : Flat (u ++ x)) (hud : Flat (u ++ d))
    (hlong : (∀ i, ∃ c ∈ F i, ¬ t.Short c) ∨ (¬ t.Short (u ++ x) ∧ ¬ t.stop <+: u ++ x))
    (hstops : t.StopsAt copies k)
    (hes : ∀ cs, t.Segment cs → t.traits.Bounded (k + 1) cs → t.SettlesOn copies (cs ++ es))
    (is : List Nat) : ∀ cs, t.Segment cs → (∀ i, t.traits.Bounded k (cs ++ F i)) →
      t.SettlesOn copies (cs ++ (rows x d F (fun _ => u) is last ++ es)) := by
  have hfront : ∀ {cs : List QString} (i : Nat), t.Segment cs →
      t.Segment (cs ++ F i) := fun i hcs =>
    segment_append.mpr ⟨hcs, hF.segment i⟩
  induction is with
  | nil =>
      intro cs hcs hbound
      by_cases hstop : t.stop <+: u ++ d
      · obtain ⟨d', hd'⟩ := hstop
        have hflat : Flat d' := (flat_append.mp (hd' ▸ hud)).2
        rw [rows, ← hd', List.append_assoc, ← List.append_assoc, List.singleton_append]
        exact hstops _ d' es (hfront last hcs) (hbound last) hflat fun cs' hcs' hk =>
          hes cs' hcs' (hk.mono (Nat.le_succ k))
      · rw [rows, ← List.append_assoc, ← List.append_assoc]
        refine hes _ (segment_append.mpr ⟨hfront last hcs, ?_⟩) ((hbound last).concat _)
        exact segment_cons.mpr ⟨⟨hud, hstop⟩, List.forall_mem_nil _⟩
  | cons i is ih =>
      intro cs hcs hbound
      have hsplit : cs ++ (rows x d F (fun _ => u) (i :: is) last ++ es) =
          (cs ++ F i) ++ (u ++ x) :: (rows x d F (fun _ => u) is last ++ es) := by
        simp only [rows, List.append_assoc, List.cons_append]
      rw [hsplit]
      by_cases hstop : t.stop <+: u ++ x
      · -- a new end tag: what comes in front of the next copy is bounded, since that is not short
        have hreset := hlong.resolve_right fun hno => hno.2 hstop
        obtain ⟨d', hd'⟩ := hstop
        have hflat : Flat d' := (flat_append.mp (hd' ▸ hux)).2
        rw [← hd']
        refine hstops _ d' _ (hfront i hcs) (hbound i) hflat fun cs' hcs' hk => ?_
        refine ih cs' hcs' fun j => hk.append (Nat.le_refl k) (fun a _ => ?_) (hF.bounded j)
        rw [trailing_reset (hF.whole j) (hreset j)]
        exact hF.trailing j
      · have hnext := ih (cs ++ F i ++ [u ++ x])
          (segment_append.mpr ⟨hfront i hcs,
            segment_cons.mpr ⟨⟨hux, hstop⟩, List.forall_mem_nil _⟩⟩)
          (fun j => by
            rw [List.append_assoc, List.singleton_append]
            exact (hbound i).concat_append (hF.whole j) (hF.bounded j) (hF.trailing j)
              (hlong.imp (fun h => h j) And.left))
        rwa [List.append_assoc, List.singleton_append] at hnext

/-- Copies without a start tag are passed over, but for their last piece. -/
theorem settlesOn_rows_skip (hF : ∀ i, ∀ c ∈ F i, Flat c ∧ ¬ t.start <+: c)
    (hux : Flat (u ++ x) ∧ ¬ t.start <+: u ++ x)
    (hlast : t.SettlesOn copies ((u ++ d) :: es)) (is : List Nat) :
    t.SettlesOn copies (rows x d F (fun _ => u) is last ++ es) := by
  induction is with
  | nil =>
      rw [rows, List.append_assoc, List.singleton_append]
      exact hlast.skip (hF last)
  | cons i is ih =>
      rw [rows, List.append_assoc, List.cons_append]
      exact (ih.skip_one hux.1 hux.2).skip (hF i)

end Rows

section Copies

variable {f : Nat → QString → QString} {is : List Nat} {last k : Nat} {u : QString}

theorem Copying.segment (hcopies : t.Copying copies f is last) (h : t.Segment bs) (i : Nat) :
    t.Segment (bs.map (f i)) := by
  intro c hc
  obtain ⟨b, hb, rfl⟩ := List.mem_map.mp hc
  obtain ⟨hflat, hstop⟩ := h b hb
  exact ⟨(hcopies.keeps i).flat b hflat, fun h => hstop (((hcopies.keeps i).stop b).mp h)⟩

theorem Copying.whole (hcopies : t.Copying copies f is last) (h : t.traits.Whole bs) (i : Nat) :
    t.traits.Whole (bs.map (f i)) :=
  (whole_map (hcopies.keeps i).ellse).mpr h

/-- The copies of a part without its last piece. -/
theorem Copying.part (hcopies : t.Copying copies f is last) (hseg : t.Segment bs)
    (hwhole : t.traits.Whole bs) (hbound : t.traits.Bounded k bs)
    (htrailing : t.traits.trailing 0 bs ≤ k) :
    Part t k fun i => bs.map (f i) where
  segment := hcopies.segment hseg
  whole := hcopies.whole hwhole
  bounded i := (bounded_map (hcopies.keeps i).ellse (hcopies.keeps i).short
    (hcopies.keeps i).start).mpr
    hbound
  trailing i := by
    rw [trailing_map (hcopies.keeps i).ellse (hcopies.keeps i).short]
    exact htrailing

/-- A part whose last piece is short. -/
theorem settlesOn_short (hcopies : t.Copying copies f is last) (hx : Flat x) (hd : Flat d)
    (hseg : t.Segment bs) (hwhole : t.traits.Whole bs) (hbound : t.traits.Bounded k bs)
    (htrailing : t.traits.trailing 0 bs ≤ k) (hu : Flat u) (hshort : t.Short u)
    (hstops : t.StopsAt copies k)
    (hes : ∀ cs, t.Segment cs → t.traits.Bounded (k + 1) cs → t.SettlesOn copies (cs ++ es)) :
    t.SettlesOn copies (rows x d (fun i => bs.map (f i)) (fun i => f i u) is last ++ es) := by
  have hpart := hcopies.part hseg hwhole hbound htrailing
  have hsame : (fun i => f i u) = fun _ => u := funext fun i => (hcopies.keeps i).same u hshort
  have hux : Flat (u ++ x) := flat_append.mpr ⟨hu, hx⟩
  have hud : Flat (u ++ d) := flat_append.mpr ⟨hu, hd⟩
  rw [hsame]
  by_cases hstart : (∃ b ∈ bs, t.start <+: b) ∨ t.start <+: u ++ x
  · -- a start tag is neither short nor an end tag
    have hlong : (∀ i, ∃ c ∈ bs.map (f i), ¬ t.Short c) ∨
        (¬ t.Short (u ++ x) ∧ ¬ t.stop <+: u ++ x) := by
      rcases hstart with ⟨b, hb, hopens⟩ | hopens
      · refine .inl fun i => ⟨f i b, List.mem_map_of_mem hb, fun h => ?_⟩
        exact not_short_of_opens hopens (((hcopies.keeps i).short b).mp h)
      · exact .inr ⟨not_short_of_opens hopens, t.start_stop.elim hopens⟩
    exact settlesOn_rows hpart hux hud hlong hstops hes is [] (List.forall_mem_nil _) hpart.bounded
  · obtain ⟨hbs, hno⟩ := not_or.mp hstart
    refine settlesOn_rows_skip (fun i c hc => ⟨(hpart.segment i c hc).1, fun h => ?_⟩)
      ⟨hux, hno⟩ ?_ is
    · obtain ⟨b, hb, rfl⟩ := List.mem_map.mp hc
      exact hbs ⟨b, hb, ((hcopies.keeps i).start b).mp h⟩
    · by_cases hstop : t.stop <+: u ++ d
      · exact (hes [] (List.forall_mem_nil _) trivial).skip_one hud (t.start_stop.symm.elim hstop)
      · exact hes [u ++ d] (segment_cons.mpr ⟨⟨hud, hstop⟩, List.forall_mem_nil _⟩)
          ⟨fun _ => Nat.zero_le _, trivial⟩

/-- A part whose last piece is not short: nothing becomes an end tag. -/
theorem settlesOn_long (hcopies : t.Copying copies f is last) (hx : Flat x) (hd : Flat d)
    (hseg : t.Segment bs) (hwhole : t.traits.Whole bs) (hu : Flat u) (hstop : ¬ t.stop <+: u)
    (hellse : ¬ t.ellse <+: u) (hlong : ¬ t.Short u)
    (hes : ∀ cs, t.Segment cs → t.traits.Bounded k cs → t.SettlesOn copies (cs ++ es)) :
    t.SettlesOn copies (rows x d (fun i => bs.map (f i)) (fun i => f i u) is last ++ es) := by
  have hnever : ∀ i y, ¬ t.stop <+: f i u ++ y ∧ ¬ t.ellse <+: f i u ++ y ∧
      ¬ t.Short (f i u ++ y) :=
    fun i y => long_append (fun h => hstop (((hcopies.keeps i).stop u).mp h))
      (fun h => hellse (((hcopies.keeps i).ellse u).mp h))
      (fun h => hlong (((hcopies.keeps i).short u).mp h)) y
  have hflat : ∀ i y, Flat y → Flat (f i u ++ y) := fun i y hy =>
    flat_append.mpr ⟨(hcopies.keeps i).flat u hu, hy⟩
  obtain ⟨cs, heq, hcs, hcs'⟩ := rows_long (d := d) (hcopies.segment hseg)
    (hcopies.whole hwhole)
    (fun i y hy => ⟨⟨hflat i y hy, (hnever i y).1⟩, (hnever i y).2.1⟩) hx is last
  rw [heq]
  refine hes _ (segment_append.mpr ⟨hcs, ?_⟩) (bounded_concat_long hcs' (hnever last d).2.1
    (hnever last d).2.2 k)
  exact segment_cons.mpr ⟨⟨hflat last d hd, (hnever last d).1⟩, List.forall_mem_nil _⟩

/-- The copies of a part and what follows the block settle. -/
theorem settles_copied (hcopies : t.Copying copies f is last) (hx : Flat x) (hd : Flat d)
    (hseg : t.Segment bs) (hwhole : t.traits.Whole bs) (hbound : t.traits.Bounded k bs)
    (htrailing : t.traits.trailing 0 bs ≤ k) (hstops : ∀ j < k, t.StopsAt copies j)
    (hes : ∀ cs, t.Segment cs → t.traits.Bounded k cs → t.SettlesOn copies (cs ++ es))
    (done : QString) (count : Nat) :
    Settles (123 :: t.start) (123 :: t.stop) (t.turn true copies)
      (t.seek done (copies (x ++ braced bs) ++ (d ++ braced es)) count) := by
  rw [hcopies.eq hx fun b hb => (hseg b hb).1]
  rcases List.eq_nil_or_concat bs with rfl | ⟨bs, u, rfl⟩
  · -- the part is flat, and so are its copies
    have hflat : Flat (((is.flatMap fun i => x ++ braced (List.map (f i) [])) ++
        (x ++ braced (List.map (f last) []))) ++ d) := by
      simp only [List.map_nil, braced_nil, List.append_nil]
      refine flat_append.mpr ⟨flat_append.mpr ⟨fun hmem => ?_, hx⟩, hd⟩
      obtain ⟨i, -, hi⟩ := List.mem_flatMap.mp hmem
      exact hx hi
    rw [← List.append_assoc, seek_skip_flat hflat]
    exact hes [] (List.forall_mem_nil _) trivial _ _
  · rw [List.concat_eq_append] at hseg hwhole hbound htrailing ⊢
    obtain ⟨hbs, hlast⟩ := segment_append.mp hseg
    obtain ⟨⟨hu, hstop⟩, -⟩ := segment_cons.mp hlast
    obtain ⟨hwhole', hsplit⟩ := Whole.append_iff.mp hwhole
    have hellse : ¬ t.ellse <+: u := hsplit u List.mem_cons_self
    simp only [List.map_append, List.map_cons, List.map_nil]
    rw [rows_text (fun i => bs.map (f i)) fun i => f i u, ← braced_append, seek_skip_flat hx]
    by_cases hshort : t.Short u
    · -- without its last piece the part ends with one short piece less
      rw [trailing_append hwhole', trailing_short hellse hshort] at htrailing
      obtain ⟨j, rfl⟩ := Nat.exists_eq_succ_of_ne_zero (Nat.ne_zero_of_lt htrailing)
      exact settlesOn_short hcopies hx hd hbs hwhole' (hbound.of_concat hwhole' hellse hshort)
        (Nat.le_of_succ_le_succ htrailing) hu hshort (hstops j (Nat.lt_succ_self j)) hes _ _
    · exact settlesOn_long hcopies hx hd hbs hwhole' hu hstop hellse hshort hes _ _

/-- **An end tag more.** The induction is on the number of short pieces with which the parts end,
and over the pieces up to the first start tag. -/
theorem stopsAt (hcopies : t.Copying copies f is last) (k : Nat) : t.StopsAt copies k := by
  induction k using Nat.strongRecOn with
  | _ k ih =>
      intro bs d es hseg hbound hd hes
      induction bs with
      | nil =>
          have hstop : ¬ t.start <+: t.stop ++ d := t.start_stop.symm.elim (List.prefix_append _ _)
          have hrest : t.SettlesOn copies es := hes [] (List.forall_mem_nil _) trivial
          exact hrest.skip_one (flat_append.mpr ⟨t.stop_flat, hd⟩) hstop
      | cons b bs ihbs =>
          obtain ⟨⟨hb, -⟩, hbs⟩ := segment_cons.mp hseg
          by_cases hstart : t.start <+: b
          · obtain ⟨x, rfl⟩ := hstart
            have hx := (flat_append.mp hb).2
            -- the block goes on up to its else tag, or up to the end tag
            obtain ⟨ps, qs, rfl, hwhole, hsplit⟩ := exists_part t.traits bs
            have htrailing := hbound.1 (List.prefix_append _ _)
            rw [trailing_part hwhole hsplit] at htrailing
            exact settlesOn_block hx hwhole hsplit hbs (settles_copied hcopies hx hd
              (segment_append.mp hbs).1 hwhole (hbound.2.part hwhole hsplit) htrailing ih hes)
          · exact (ihbs hbs hbound.2).skip_one hb hstart

/-- The loop settles on all pieces. -/
theorem settlesOn_all (hcopies : t.Copying copies f is last) (es : List QString)
    (hes : ∀ b ∈ es, Flat b) : ∀ cs, t.Segment cs → t.SettlesOn copies (cs ++ es) := by
  induction es with
  | nil =>
      intro cs hcs
      rw [List.append_nil]
      exact settlesOn_segment hcs
  | cons e es ih =>
      obtain ⟨he, hrest⟩ := List.forall_mem_cons.mp hes
      intro cs hcs
      by_cases hstop : t.stop <+: e
      · obtain ⟨d, rfl⟩ := hstop
        obtain ⟨k, hk⟩ := exists_bounded t.traits cs
        exact stopsAt hcopies k cs d es hcs hk (flat_append.mp he).2 fun cs' hcs' _ =>
          ih hrest cs' hcs'
      · have hnext := ih hrest (cs ++ [e])
          (segment_append.mpr ⟨hcs, segment_cons.mpr ⟨⟨he, hstop⟩, List.forall_mem_nil _⟩⟩)
        rwa [List.append_assoc, List.singleton_append] at hnext

/-- **A loop that makes copies settles** on every text. -/
theorem settles_copies (hcopies : t.Copying copies f is last) (text : QString) (count : Nat) :
    Settles (123 :: t.start) (123 :: t.stop) (t.turn true copies) (t.seek [] text count) := by
  obtain ⟨x, bs, hx, hbs, rfl⟩ := exists_braced text
  rw [seek_skip_flat hx]
  exact settlesOn_all hcopies bs hbs [] (List.forall_mem_nil _) _ _

end Copies

/-! ### Tags that do not overlap

Tags that begin with their only brace cannot reach into one another. -/

/-- An else tag in front of an end tag does not reach into it. -/
theorem ellse_before_stop {r : QString} {k j : Nat} (hk : Search.find (123 :: t.ellse) r = some k)
    (hj : Search.find (123 :: t.stop) r = some j) (hkj : k < j) :
    k + (123 :: t.ellse).length ≤ j := by
  obtain ⟨hellse, hle⟩ := Search.find_eq_some hk
  obtain ⟨hstop, hle'⟩ := Search.find_eq_some hj
  by_contra hin
  rw [List.length_cons] at hin
  obtain ⟨i, rfl⟩ : ∃ i, j = k + (i + 1) := ⟨j - k - 1, by omega⟩
  have hi : i < t.ellse.length := by omega
  have htaken : ∀ n, n ≤ r.length → (r.take n).length = n := fun n hn =>
    (List.length_take).trans (Nat.min_eq_left hn)
  -- the brace of the end tag would stand within the else tag
  have hbrace : r[k + (i + 1)]? = some 123 := by
    rw [hstop, List.append_assoc, List.getElem?_append_right (htaken _ (by omega)).le,
      htaken _ (by omega), Nat.sub_self]
    rfl
  have hletter : r[k + (i + 1)]? = some t.ellse[i] := by
    have hpos : k + (i + 1) - k = i + 1 := by omega
    have hlen := htaken k (by omega)
    rw [hellse, List.append_assoc, List.getElem?_append_right (by omega), hlen, hpos,
      List.cons_append,
      List.getElem?_cons_succ, List.getElem?_append_left hi, List.getElem?_eq_getElem hi]
  have heq : 123 = t.ellse[i] := Option.some.inj (hbrace.symm.trans hletter)
  exact t.ellse_flat (heq ▸ List.getElem_mem hi)

/-- Tags that are cut at their braces never overlap. -/
theorem not_overlaps (t : BlockTags) (s : Scan) :
    ¬ Overlaps (123 :: t.start) (123 :: t.ellse) (123 :: t.stop) s := by
  rintro ⟨-, hellse, hlt, hin⟩
  obtain ⟨k, hk, hposk⟩ := indexOf_nonneg hellse
  obtain ⟨j, hj, hposj⟩ := indexOf_nonneg (hellse.trans (Int.le_of_lt hlt))
  rw [hposk, hposj] at hlt hin
  have hfit := ellse_before_stop hk hj (by omega)
  omega

end BlockTags

end Template

end QtWebApp
