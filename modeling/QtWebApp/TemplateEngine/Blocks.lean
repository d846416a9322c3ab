import QtWebApp.Base.Trailing
import QtWebApp.TemplateEngine.Turns

/-!
# QtWebApp.TemplateEngine.Blocks

Any text, cut at its opening braces.

A tag begins with the only opening brace in it, so whether a tag stands at a brace depends on the
text up to the next brace alone. A text is what comes before the first brace, and one piece for each
brace. The loops over blocks are followed here on texts that need not be templates: tags may be
missing, stand in the wrong order, or be made of what a part ends with and what follows it.

With this the scan of a loop is a walk over a list of pieces, and each piece can be tested by
itself. Only a piece at the end of a part needs care: when something else is put behind it, it may
become an end tag or an else tag (`Short`).
-/

namespace QtWebApp

namespace Template

open QString Scan

/-! ### Texts and their pieces

A search for something that begins with a brace is a search among the pieces. -/

/-- A text without opening braces. -/
def Flat (x : QString) : Prop := 123 ∉ x

instance (x : QString) : Decidable (Flat x) := by
  unfold Flat
  infer_instance

theorem flat_append {x y : QString} : Flat (x ++ y) ↔ Flat x ∧ Flat y := by
  simp [Flat, not_or]

/-- The text of pieces that were cut off at braces. -/
def braced (bs : List QString) : QString := bs.flatMap fun b => 123 :: b

@[simp] theorem braced_nil : braced [] = [] := rfl

@[simp] theorem braced_cons (b : QString) (bs : List QString) :
    braced (b :: bs) = 123 :: (b ++ braced bs) := rfl

@[simp] theorem braced_append (bs cs : List QString) : braced (bs ++ cs) = braced bs ++ braced cs :=
  List.flatMap_append

/-- Every text is a flat one with pieces behind it. -/
theorem exists_braced (s : QString) : ∃ x bs, Flat x ∧ (∀ b ∈ bs, Flat b) ∧ s = x ++ braced bs := by
  induction s with
  | nil => exact ⟨[], [], List.not_mem_nil, List.forall_mem_nil _, rfl⟩
  | cons c s ih =>
      obtain ⟨x, bs, hx, hbs, rfl⟩ := ih
      by_cases hc : c = 123
      · subst hc
        exact ⟨[], x :: bs, List.not_mem_nil, List.forall_mem_cons.mpr ⟨hx, hbs⟩, rfl⟩
      · refine ⟨c :: x, bs, fun hmem => ?_, hbs, rfl⟩
        rcases List.mem_cons.mp hmem with heq | hmem
        · exact hc heq.symm
        · exact hx hmem

/-- A flat text does not reach beyond its piece. -/
theorem prefix_braced {p b : QString} (hp : Flat p) (bs : List QString) :
    p <+: b ++ braced bs ↔ p <+: b := by
  refine ⟨fun h => ?_, fun h => h.trans (List.prefix_append _ _)⟩
  cases bs with
  | nil => rwa [braced_nil, List.append_nil] at h
  | cons c bs =>
      rw [braced_cons] at h
      exact Search.prefix_of_prefix_delimited hp h

section Search

variable {p b : QString}

/-- A tag is not found in a piece that does not begin like it. -/
theorem find_braced_neg (hp : Flat p) (hb : Flat b) (h : ¬ p <+: b) (bs : List QString) :
    Search.find (123 :: p) (braced (b :: bs)) =
      (Search.find (123 :: p) (braced bs)).map (· + (123 :: b).length) := by
  have hno : ¬ p <+: b ++ braced bs := fun hpre => h ((prefix_braced hp bs).mp hpre)
  rw [braced_cons, Search.find_marked hb, if_neg hno, List.length_cons]

/-- A tag is not found in pieces that do not begin with it. -/
theorem find_braced_append (hp : Flat p) {bs : List QString} (h : ∀ b ∈ bs, Flat b ∧ ¬ p <+: b)
    (cs : List QString) : Search.find (123 :: p) (braced (bs ++ cs)) =
      (Search.find (123 :: p) (braced cs)).map (· + (braced bs).length) := by
  induction bs with
  | nil => simp
  | cons b bs ih =>
      obtain ⟨⟨hflat, hno⟩, hbs⟩ := List.forall_mem_cons.mp h
      rw [List.cons_append, find_braced_neg hp hflat hno, ih hbs, Option.map_map, braced_cons]
      congr 1
      funext i
      simp only [Function.comp_apply, List.length_cons, List.length_append]
      omega

/-- The first tag behind a flat text and pieces without it. -/
theorem find_behind (hp : Flat p) {x : QString} (hx : Flat x) {bs : List QString}
    (h : ∀ b ∈ bs, Flat b ∧ ¬ p <+: b) (cs : List QString) :
    Search.find (123 :: p) (x ++ braced (bs ++ cs)) =
      (Search.find (123 :: p) (braced cs)).map (· + (x ++ braced bs).length) := by
  rw [Search.find_unmarked hx, find_braced_append hp h, Option.map_map]
  congr 1
  funext i
  simp only [Function.comp_apply, List.length_append]
  omega

/-- What stands behind a tag. -/
theorem braced_split (p y : QString) (bs : List QString) :
    braced ((p ++ y) :: bs) = (123 :: p) ++ (y ++ braced bs) := by
  rw [braced_cons, List.append_assoc, List.cons_append]

theorem find_braced_here (p y : QString) (bs : List QString) :
    Search.find (123 :: p) (braced ((p ++ y) :: bs)) = some 0 := by
  rw [braced_split, Search.find_here]

end Search

/-! ### The tags of a block

What the loops need to know of the tags: they are flat, and the start tag is neither a beginning of
the other two nor begins with one of them. -/

/-- None of the two texts is a beginning of the other one. -/
def Apart (p q : QString) : Prop := ¬ p <+: q ∧ ¬ q <+: p

theorem Apart.symm {p q : QString} (h : Apart p q) : Apart q p := ⟨h.2, h.1⟩

/-- Two texts that are apart do not begin the same text. -/
theorem Apart.elim {p q b : QString} (h : Apart p q) (hp : p <+: b) : ¬ q <+: b := fun hq =>
  (List.prefix_or_prefix_of_prefix hp hq).elim h.1 h.2

/-- The three tags of a block, without their braces. -/
structure BlockTags where
  start : QString
  ellse : QString
  stop : QString
  start_flat : Flat start
  ellse_flat : Flat ellse
  stop_flat : Flat stop
  start_ellse : Apart start ellse
  start_stop : Apart start stop

namespace BlockTags

variable (t : BlockTags)

/-- The loop over the blocks. -/
abbrev turn (first : Bool) (copies : QString → QString) :
    Nat → Scan → Option (Turn Scan) := fun _ =>
  blockTurn (123 :: t.start) (123 :: t.ellse) (123 :: t.stop) first copies

/-- The scan at the beginning of a text. -/
abbrev seek (done rest : QString) (count : Nat) : Scan := Scan.seek (123 :: t.start) done rest count

/-- A piece that may become an end tag or an else tag when something is put behind it. -/
def Short (b : QString) : Prop := b <+: t.stop ∨ b <+: t.ellse

/-- What the tags are for the pieces of a text. -/
def traits : Traits QString where
  opens b := t.start <+: b
  splits b := t.ellse <+: b
  short := t.Short
  decSplits b := inferInstanceAs (Decidable (t.ellse <+: b))
  decShort b := inferInstanceAs (Decidable (b <+: t.stop ∨ b <+: t.ellse))

/-- Pieces without an end tag. -/
def Segment (bs : List QString) : Prop := ∀ b ∈ bs, Flat b ∧ ¬ t.stop <+: b

variable {t} {b : QString}

theorem segment_cons {bs : List QString} :
    t.Segment (b :: bs) ↔ (Flat b ∧ ¬ t.stop <+: b) ∧ t.Segment bs := List.forall_mem_cons

theorem segment_append {bs cs : List QString} :
    t.Segment (bs ++ cs) ↔ t.Segment bs ∧ t.Segment cs := List.forall_mem_append

/-- A start tag is not short. -/
theorem not_short_of_opens (h : t.start <+: b) : ¬ t.Short b := by
  rintro (hshort | hshort)
  · exact t.start_stop.1 (h.trans hshort)
  · exact t.start_ellse.1 (h.trans hshort)

/-- A piece that is neither a tag nor short does not become one. -/
theorem long_append (hstop : ¬ t.stop <+: b) (hellse : ¬ t.ellse <+: b) (hlong : ¬ t.Short b)
    (x : QString) : ¬ t.stop <+: b ++ x ∧ ¬ t.ellse <+: b ++ x ∧ ¬ t.Short (b ++ x) := by
  refine ⟨fun h => ?_, fun h => ?_, ?_⟩
  · exact (List.prefix_or_prefix_of_prefix h (List.prefix_append b x)).elim hstop
      fun hb => hlong (.inl hb)
  · exact (List.prefix_or_prefix_of_prefix h (List.prefix_append b x)).elim hellse
      fun hb => hlong (.inr hb)
  · rintro (h | h)
    · exact hlong (.inl ((List.prefix_append b x).trans h))
    · exact hlong (.inr ((List.prefix_append b x).trans h))

/-! ### A turn on pieces

What stands in front of the first start tag is passed over; the block up to its end tag is
replaced. -/

variable {first : Bool} {copies : QString → QString} {done : QString} {count : Nat}

/-- The scan passes over pieces that are not start tags. -/
theorem seek_skip_pieces {bs : List QString} (h : ∀ b ∈ bs, Flat b ∧ ¬ t.start <+: b)
    (cs : List QString) :
    t.seek done (braced (bs ++ cs)) count = t.seek (done ++ braced bs) (braced cs) count := by
  have hfind := find_braced_append t.start_flat h cs
  rw [braced_append] at hfind ⊢
  exact seek_skip hfind

theorem seek_skip_flat {x : QString} (hx : Flat x) (y : QString) :
    t.seek done (x ++ y) count = t.seek (done ++ x) y count :=
  seek_skip (Search.find_unmarked hx y)

/-- The first end tag behind a start tag. -/
theorem find_stop {x : QString} (hx : Flat x) {bs : List QString} (h : t.Segment bs) (d : QString)
    (cs : List QString) :
    Search.find (123 :: t.stop) (x ++ braced (bs ++ (t.stop ++ d) :: cs)) =
      some (x ++ braced bs).length := by
  rw [find_behind t.stop_flat hx h, find_braced_here]
  exact congrArg some (Nat.zero_add _)

/-- The part in front of the else tag, or the whole one when there is none. -/
theorem replacement_pieces {x : QString} (hx : Flat x) {bs cs : List QString}
    (hbs : ∀ b ∈ bs, Flat b ∧ ¬ t.ellse <+: b) (hcs : ∀ c ∈ cs.head?, t.ellse <+: c) (d : QString)
    (es : List QString) (copies : QString → QString) :
    replacement (123 :: t.ellse) true copies (x ++ braced (bs ++ cs ++ (t.stop ++ d) :: es))
      (x ++ braced (bs ++ cs)).length = copies (x ++ braced bs) := by
  have htake : ∀ ds, (x ++ braced (bs ++ ds)).take (x ++ braced bs).length = x ++ braced bs := by
    intro ds
    rw [braced_append, ← List.append_assoc, List.take_left]
  rw [List.append_assoc, replacement, find_behind t.ellse_flat hx hbs]
  cases cs with
  | nil =>
      -- an else tag may stand behind the end tag
      rw [List.nil_append, List.append_nil]
      cases Search.find (123 :: t.ellse) (braced ((t.stop ++ d) :: es)) with
      | none => exact congrArg copies (htake _)
      | some k =>
          have hno : ¬ k + (x ++ braced bs).length < (x ++ braced bs).length := by omega
          rw [Option.map_some]
          dsimp only
          rw [if_neg hno]
          exact congrArg copies (htake _)
  | cons c cs =>
      obtain ⟨y, rfl⟩ := hcs c rfl
      have hlt : 0 + (x ++ braced bs).length <
          (x ++ braced (bs ++ (t.ellse ++ y) :: cs)).length := by
        simp only [braced_append, braced_cons, List.length_append, List.length_cons]
        omega
      rw [List.cons_append, find_braced_here, Option.map_some]
      dsimp only
      rw [if_pos hlt, Nat.zero_add]
      exact congrArg copies (htake _)

/-- **A turn at a start tag** with an end tag behind it. -/
theorem turn_pieces {x : QString} (hx : Flat x) {bs cs : List QString} (hbs : t.traits.Whole bs)
    (hcs : ∀ c ∈ cs.head?, t.ellse <+: c) (h : t.Segment (bs ++ cs)) (d : QString)
    (es : List QString) :
    t.turn true copies 0 (t.seek done (braced ((t.start ++ x) :: (bs ++ cs ++ (t.stop ++ d) :: es)))
        count) =
      some (.again (t.seek done (copies (x ++ braced bs) ++ (d ++ braced es)) (count + 1))) := by
  have hflat : ∀ b ∈ bs, Flat b ∧ ¬ t.ellse <+: b := fun b hb =>
    ⟨(h b (List.mem_append_left cs hb)).1, hbs b hb⟩
  have hdrop : (x ++ braced (bs ++ cs ++ (t.stop ++ d) :: es)).drop
      ((x ++ braced (bs ++ cs)).length + (123 :: t.stop).length) = d ++ braced es := by
    have hsplit : x ++ braced (bs ++ cs ++ (t.stop ++ d) :: es) =
        (x ++ braced (bs ++ cs)) ++ ((123 :: t.stop) ++ (d ++ braced es)) := by
      rw [braced_append (bs ++ cs), braced_cons]
      simp only [List.append_assoc, List.cons_append]
    rw [hsplit, List.drop_length_add_append, List.drop_left]
  have hpos : 0 < (123 :: t.start).length := Nat.zero_lt_succ _
  rw [turn, seek, braced_split, blockTurn_here hpos (find_stop hx h d es), hdrop,
    replacement_pieces hx hflat hcs d es copies]

end BlockTags

end Template

end QtWebApp
