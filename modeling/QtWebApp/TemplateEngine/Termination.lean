import QtWebApp.TemplateEngine.Endings
import QtWebApp.TemplateEngine.Markup

/-!
# QtWebApp.TemplateEngine.Termination

`setCondition` and `loop` end exactly when every start tag that they find has an end tag behind it.

A start tag without one is only warned about; the position of the search stays where it is, and the
same tag is found again. For names without opening braces that is all that can go wrong: the tags of
a block do not overlap then, and numbering a copy makes no tag of the block and destroys none. With
an opening brace in the name an else tag can reach into an end tag, and then the text can get longer
for ever (`setCondition_braced`).

For names with an opening brace the condition is given from both sides: one that is needed
(`EndsFound`), and two that are enough, that no tags overlap (`EndsFit`), or that each turn leaves
fewer end tags than it has found (`EndsRemoved`).
-/

namespace QtWebApp

namespace Template

open QString Scan BlockTags

/-! ### The tags of a name

For a flat name they meet the conditions of `BlockTags`. -/

instance (p q : QString) : Decidable (Apart p q) := by
  unfold Apart
  infer_instance

theorem Apart.append {v w : QString} (h : Apart v w) (x y : QString) : Apart (v ++ x) (w ++ y) := by
  refine ⟨fun hpre => ?_, fun hpre => ?_⟩
  · exact h.elim ((List.prefix_append v x).trans hpre) (List.prefix_append w y)
  · exact h.elim (List.prefix_append v x) ((List.prefix_append w y).trans hpre)

/-- None of the three words begins another one. -/
theorem words_apart (kind : BlockKind) :
    Apart kind.word (ofAscii "else ") ∧ Apart kind.word (ofAscii "end ") := by
  cases kind <;> decide

theorem word_flat (kind : BlockKind) :
    Flat kind.word ∧ Flat (ofAscii "else ") ∧ Flat (ofAscii "end ") := by
  cases kind <;> decide

/-- The tags of the blocks of a kind and a name. -/
def blockTags (kind : BlockKind) (name : QString) (h : Flat name) : BlockTags where
  start := kind.word ++ name ++ [125]
  ellse := ofAscii "else " ++ name ++ [125]
  stop := ofAscii "end " ++ name ++ [125]
  start_flat := flat_append.mpr ⟨flat_append.mpr ⟨(word_flat kind).1, h⟩, by decide⟩
  ellse_flat := flat_append.mpr ⟨flat_append.mpr ⟨(word_flat kind).2.1, h⟩, by decide⟩
  stop_flat := flat_append.mpr ⟨flat_append.mpr ⟨(word_flat kind).2.2, h⟩, by decide⟩
  start_ellse := ((words_apart kind).1.append name name).append [125] [125]
  start_stop := ((words_apart kind).2.append name name).append [125] [125]

/-! ### Numbering a piece

A replacement in a text, seen on its pieces. It changes the beginning of a piece, or nothing. -/

/-- A beginning is replaced by another one. -/
def swap (p q b : QString) : QString := if p <+: b then q ++ b.drop p.length else b

/-- A replacement in the text changes the beginnings of pieces. -/
theorem replace_braced {p x : QString} (hx : Flat x) (q : QString) {bs : List QString}
    (hbs : ∀ b ∈ bs, Flat b) (hp : Flat p) :
    (x ++ braced bs).replace (123 :: p) (123 :: q) = x ++ braced (bs.map (swap p q)) := by
  rw [replace, Search.replaceAll_unmarked hx]
  congr 1
  induction bs with
  | nil => exact Search.replaceAll_of_none (Search.find_nil (List.cons_ne_nil _ _))
  | cons b bs ih =>
      obtain ⟨hb, hbs⟩ := List.forall_mem_cons.mp hbs
      rw [List.map_cons, braced_cons, braced_cons, swap, ← ih hbs]
      by_cases hpre : p <+: b
      · obtain ⟨y, rfl⟩ := hpre
        rw [if_pos (List.prefix_append p y), List.drop_left,
          Search.replaceAll_marked_pos (flat_append.mp hb).2]
        rfl
      · have hno : ¬ p <+: b ++ braced bs := fun h => hpre ((prefix_braced hp bs).mp h)
        rw [if_neg hpre, Search.replaceAll_marked_neg hb hno]

namespace BlockTags

variable {t : BlockTags} {p q : QString}

variable (t) in
/-- A text that has nothing to do with the tags. -/
structure Foreign (p : QString) : Prop where
  flat : Flat p
  start : Apart t.start p
  ellse : Apart t.ellse p
  stop : Apart t.stop p

theorem Foreign.not_short (h : t.Foreign p) (x : QString) : ¬ t.Short (p ++ x) := by
  rintro (hshort | hshort)
  · exact h.stop.2 ((List.prefix_append p x).trans hshort)
  · exact h.ellse.2 ((List.prefix_append p x).trans hshort)

/-- Replacing one foreign beginning by another one leaves every piece what it is. -/
theorem keeps_swap (hp : t.Foreign p) (hq : t.Foreign q) : t.Keeps (swap p q) := by
  have htag : ∀ {r : QString}, Apart r p → Apart r q → ∀ b, r <+: swap p q b ↔ r <+: b := by
    intro r hrp hrq b
    unfold swap
    split
    · next hpre =>
        refine ⟨fun h => ?_, fun h => absurd hpre (hrp.elim h)⟩
        exact absurd (List.prefix_append q _) (hrq.elim h)
    · exact Iff.rfl
  refine ⟨fun b hb => ?_, htag hp.start hq.start, htag hp.ellse hq.ellse, htag hp.stop hq.stop,
    fun b => ?_, fun b hb => ?_⟩
  · unfold swap
    split
    · exact flat_append.mpr ⟨hq.flat, fun hmem => hb (List.mem_of_mem_drop hmem)⟩
    · exact hb
  · unfold swap
    split
    · next hpre =>
        obtain ⟨x, rfl⟩ := hpre
        exact iff_of_false (hq.not_short _) (hp.not_short x)
    · exact Iff.rfl
  · refine if_neg fun hpre => ?_
    obtain ⟨x, rfl⟩ := hpre
    exact hp.not_short x hb

theorem keeps_id : t.Keeps id :=
  ⟨fun _ h => h, fun _ => Iff.rfl, fun _ => Iff.rfl, fun _ => Iff.rfl, fun _ =>
    Iff.rfl, fun _ _ => rfl⟩

theorem Keeps.comp {f g : QString → QString} (hf : t.Keeps f) (hg : t.Keeps g) :
    t.Keeps fun b => f (g b) where
  flat b hb := hf.flat _ (hg.flat b hb)
  start b := (hf.start _).trans (hg.start b)
  ellse b := (hf.ellse _).trans (hg.ellse b)
  stop b := (hf.stop _).trans (hg.stop b)
  short b := (hf.short _).trans (hg.short b)
  same b hb := by rw [hg.same b hb, hf.same b hb]

end BlockTags

/-! ### Numbering a copy

All replacements of a copy one after the other. -/

/-- A name behind a word does not go on like the name itself, but with a letter of the word. -/
theorem mem_word_of_comparable {w : QString} (hw : w ≠ []) {c : UInt16} (x y : QString)
    (name : QString) (h : w ++ (name ++ x) <+: name ++ c :: y ∨
      name ++ c :: y <+: w ++ (name ++ x)) : c ∈ w := by
  induction hn : name.length using Nat.strongRecOn generalizing name with
  | _ n ih =>
      have hpre : name ++ [c] <+: name ++ c :: y := (List.prefix_append_right_inj name).mpr ⟨y, rfl⟩
      have hpre' : w <+: w ++ (name ++ x) := List.prefix_append w _
      have hboth : name ++ [c] <+: w ∨ w <+: name ++ [c] := by
        rcases h with h | h
        · exact List.prefix_or_prefix_of_prefix hpre (hpre'.trans h)
        · exact List.prefix_or_prefix_of_prefix (hpre.trans h) hpre'
      rcases hboth with hlong | hshort
      · exact hlong.subset (List.mem_append_right name List.mem_cons_self)
      · rcases List.prefix_concat_iff.mp hshort with heq | hname
        · rw [heq]
          exact List.mem_append_right name List.mem_cons_self
        · -- the name begins with the word: without it the same holds
          obtain ⟨name', rfl⟩ := hname
          have hlen : name'.length < n := by
            have hpos := List.length_pos_iff.mpr hw
            rw [← hn, List.length_append]
            omega
          refine ih _ hlen name' ?_ rfl
          rw [List.append_assoc w name' (c :: y), List.prefix_append_right_inj,
            List.prefix_append_right_inj, List.append_assoc] at h
          exact h

/-- A tag of a block is not one of the beginnings that are numbered, before or after. -/
theorem apart_numbered {w w' : QString}
    (hw : w ∈ [ofAscii "loop ", ofAscii "else ", ofAscii "end "]) (hw' : w' ∈ numberedWords)
    (name : QString) {s : QString} (hs : ∀ c ∈ s, 48 ≤ c ∧ c ≤ 57) :
    Apart (w ++ name ++ [125]) (w' ++ (name ++ s) ++ [46]) := by
  have hcases : ∀ w ∈ [ofAscii "loop ", ofAscii "else ", ofAscii "end "], ∀ w' ∈ numberedWords,
      w' = [] ∨ w' = w ∨ Apart w w' := by decide
  have hletters : ∀ w ∈ [ofAscii "loop ", ofAscii "else ", ofAscii "end "],
      w ≠ [] ∧ (w.all fun c => decide (c ≠ 46 ∧ ¬ (48 ≤ c ∧ c ≤ 57))) = true := by decide
  -- what follows the name: a digit or the dot
  obtain ⟨c, y, hcy, hc⟩ : ∃ c y, s ++ [46] = c :: y ∧ (c = 46 ∨ (48 ≤ c ∧ c ≤ 57)) := by
    cases s with
    | nil => exact ⟨46, [], rfl, .inl rfl⟩
    | cons c s => exact ⟨c, s ++ [46], rfl, .inr (hs c List.mem_cons_self)⟩
  have hnot : c ∉ w := by
    intro hmem
    have hletter := of_decide_eq_true (List.all_eq_true.mp (hletters w hw).2 c hmem)
    exact hc.elim hletter.1 hletter.2
  have hbehind : w' ++ (name ++ s) ++ [46] = w' ++ (name ++ c :: y) := by
    rw [List.append_assoc, List.append_assoc, hcy]
  rw [hbehind, List.append_assoc]
  rcases hcases w hw w' hw' with rfl | rfl | hapart
  · rw [List.nil_append]
    have hnone := mt (mem_word_of_comparable (hletters w hw).1 [125] y name) hnot
    exact ⟨fun h => hnone (.inl h), fun h => hnone (.inr h)⟩
  · have hne : c ≠ 125 := by
      rintro rfl
      exact absurd hc (by decide)
    constructor
    · intro h
      rw [List.prefix_append_right_inj, List.prefix_append_right_inj] at h
      exact hne (List.cons_prefix_cons.mp h).1.symm
    · intro h
      rw [List.prefix_append_right_inj, List.prefix_append_right_inj] at h
      exact hne (List.cons_prefix_cons.mp h).1
  · exact hapart.append _ _

theorem foreign_numbered {name : QString} (h : Flat name) {w : QString} (hw : w ∈ numberedWords)
    {s : QString} (hs : ∀ c ∈ s, 48 ≤ c ∧ c ≤ 57) :
    (blockTags .loopBlock name h).Foreign (w ++ (name ++ s) ++ [46]) := by
  have hwords : ∀ w ∈ numberedWords, Flat w := by decide
  have hdigits : Flat s := by
    intro hmem
    exact absurd (hs 123 hmem).2 (by decide)
  refine ⟨?_, ?_, ?_, ?_⟩
  · exact flat_append.mpr ⟨flat_append.mpr ⟨hwords w hw, flat_append.mpr ⟨h, hdigits⟩⟩, by decide⟩
  · exact apart_numbered List.mem_cons_self hw name hs
  · exact apart_numbered (List.mem_cons_of_mem _ List.mem_cons_self) hw name hs
  · exact apart_numbered
      (List.mem_cons_of_mem _ (List.mem_cons_of_mem _ List.mem_cons_self)) hw name hs

/-- What numbering the copy `i` does to a piece, for some of the words. -/
def numberPiece (name : QString) (i : Nat) (words : List QString) (b : QString) : QString :=
  words.foldl (fun b w => swap (w ++ name ++ [46]) (w ++ (name ++ number i) ++ [46]) b) b

section Numbering

variable {name x : QString} (h : Flat name) (i : Nat) {words : List QString}
  (hwords : ∀ w ∈ words, w ∈ numberedWords)

include h hwords

/-- Numbering leaves the tags of the loop alone. -/
theorem keeps_numberPiece : (blockTags .loopBlock name h).Keeps (numberPiece name i words) := by
  induction words with
  | nil => exact keeps_id
  | cons w words ih =>
      obtain ⟨hw, hwords⟩ := List.forall_mem_cons.mp hwords
      have hbefore := foreign_numbered h hw (s := []) (fun c hc => nomatch hc)
      rw [List.append_nil] at hbefore
      exact (ih hwords).comp (keeps_swap hbefore (foreign_numbered h hw (number_digit i)))

theorem numberWords_braced (hx : Flat x) {bs : List QString} (hbs : ∀ b ∈ bs, Flat b) :
    words.foldl (fun s w => s.replace (123 :: (w ++ name ++ [46]))
      (123 :: (w ++ (name ++ number i) ++ [46]))) (x ++ braced bs) =
      x ++ braced (bs.map (numberPiece name i words)) := by
  induction words generalizing bs with
  | nil => exact congrArg (fun cs => x ++ braced cs) (List.map_id bs).symm
  | cons w words ih =>
      obtain ⟨hw, hwords⟩ := List.forall_mem_cons.mp hwords
      have hbefore := foreign_numbered h hw (s := []) (fun c hc => nomatch hc)
      rw [List.append_nil] at hbefore
      have hkeeps := keeps_swap hbefore (foreign_numbered h hw (number_digit i))
      have hswap : ∀ b ∈ bs.map (swap (w ++ name ++ [46]) (w ++ (name ++ number i) ++ [46])),
          Flat b := by
        intro c hc
        obtain ⟨b, hb, rfl⟩ := List.mem_map.mp hc
        exact hkeeps.flat b (hbs b hb)
      rw [List.foldl_cons, replace_braced hx _ hbs hbefore.flat, ih hwords hswap, List.map_map]
      rfl

end Numbering

/-- **The copies of a loop** are made piece by piece. -/
theorem loopCopies_copying {name : QString} (h : Flat name) (n : Nat) :
    (blockTags .loopBlock name h).Copying (loopCopies name (n + 1))
      (fun i => numberPiece name i numberedWords) (List.range n) n where
  keeps i := keeps_numberPiece h i fun _ hw => hw
  eq {x bs} hx hbs := by
    have hcopy : ∀ i, numberTags name i (x ++ braced bs) =
        x ++ braced (bs.map (numberPiece name i numberedWords)) := by
      intro i
      rw [numberTags]
      exact numberWords_braced h i (fun _ hw => hw) hx hbs
    rw [loopCopies, List.range_succ, List.flatMap_append, List.flatMap_singleton, hcopy n]
    simp only [hcopy]

/-! ### The loop over the blocks

The loop of the source as a relation, and the conditions on the states that it reaches. -/

/-- The loop over the blocks of a kind and a name. -/
def blockPass (kind : BlockKind) (name : QString) (first : Bool) (copies : QString → QString) :
    Nat → Scan → Option (Turn Scan) := fun _ =>
  blockTurn (tag kind.word name) (tag (ofAscii "else ") name)
    (tag (ofAscii "end ") name) first copies

/-- Where that loop begins. -/
def firstScan (kind : BlockKind) (name text : QString) (count : Nat) : Scan :=
  ⟨text, text.indexOf (tag kind.word name) 0, count⟩

/-- A turn that finds a start tag of a kind and a name, but no end tag behind it. -/
def Unclosed (kind : BlockKind) (name : QString) (s : Scan) : Prop :=
  OpenEnded (tag kind.word name) (tag (ofAscii "end ") name) s

instance (kind : BlockKind) (name : QString) (s : Scan) : Decidable (Unclosed kind name s) := by
  unfold Unclosed
  infer_instance

/-- In every turn that finds a start tag there is an end tag behind it. -/
def EndsFound (kind : BlockKind) (name : QString) (first : Bool) (copies : QString → QString)
    (s : Scan) : Prop :=
  ∀ u, Loop.Reach (blockPass kind name first copies) s u → ¬ Unclosed kind name u

/-- In every such turn, moreover, no else tag in front of the end tag reaches into it. -/
def EndsFit (kind : BlockKind) (name : QString) (first : Bool) (copies : QString → QString)
    (s : Scan) : Prop :=
  ∀ u, Loop.Reach (blockPass kind name first copies) s u → ¬ Unclosed kind name u ∧
    ¬ Overlaps (tag kind.word name) (tag (ofAscii "else ") name) (tag (ofAscii "end ") name) u

/-- The number of places where a text is found in another one. -/
def occurrences (pat text : QString) : Nat := text.tails.countP fun x => decide (pat <+: x)

/-- Every turn leaves fewer end tags in the text. -/
def EndsRemoved (kind : BlockKind) (name : QString) (first : Bool) (copies : QString → QString)
    (s : Scan) : Prop :=
  ∀ u v k, Loop.Reach (blockPass kind name first copies) s u →
    blockPass kind name first copies k u = some (.again v) →
    occurrences (tag (ofAscii "end ") name) v.text < occurrences (tag (ofAscii "end ") name) u.text

/-- The loop ends, and a block whose end tag is missing stays in the text as it is. -/
structure Completes (kind : BlockKind) (name : QString) (first : Bool) (copies : QString → QString)
    (s u : Scan) : Prop where
  ends : Loop.Ends (blockPass kind name first copies) s u
  leaves : ∀ v, Loop.Reach (blockPass kind name first copies) s v → Unclosed kind name v →
    v.text.drop v.start.toNat <:+ u.text

section Pass

variable {kind : BlockKind} {name : QString} {first : Bool}
  {copies : QString → QString} {s u : Scan}

theorem blockPass_mono : Loop.Mono (blockPass kind name first copies) := Loop.mono_const _

/-- A turn never fails. -/
theorem blockPass_total (k : Nat) (s : Scan) :
    ∃ turn, blockPass kind name first copies k s = some turn := by
  rw [blockPass, blockTurn]
  dsimp only
  split
  · split
    · exact ⟨_, rfl⟩
    · exact ⟨_, rfl⟩
  · exact ⟨_, rfl⟩

/-- Without an end tag the position of the search stays where it is. -/
theorem blockPass_unclosed (h : Unclosed kind name s) (k : Nat) :
    blockPass kind name first copies k s = some (.again s) := by
  have hstop : ¬ 0 ≤ s.text.indexOf (tag (ofAscii "end ") name)
      (s.start + (tag kind.word name).length) :=
    Int.not_le.mpr h.2
  rw [blockPass, blockTurn, if_pos h.1]
  dsimp only
  rw [if_neg hstop]

/-- Then the loop never ends. -/
theorem not_ends_of_unclosed (h : Unclosed kind name s) :
    ¬ Loop.Ends (blockPass kind name first copies) s u :=
  Loop.not_ends_of_same blockPass_mono (blockPass_unclosed h 0)

/-- A loop that ends has found all end tags. -/
theorem endsFound_of_ends (h : Loop.Ends (blockPass kind name first copies) s u) :
    EndsFound kind name first copies s :=
  fun _ hreach hopen => not_ends_of_unclosed hopen (h.of_reach blockPass_mono hreach)

/-- One turn, and the turns behind it. -/
theorem EndsFound.turn (hs : ¬ Unclosed kind name s)
    (h : ∀ v, blockPass kind name first copies 0 s = some (.again v) →
      EndsFound kind name first copies v) : EndsFound kind name first copies s := by
  intro u hreach
  rcases hreach.inv with rfl | ⟨k, v, hv, hrest⟩
  · exact hs
  · exact h v hv u hrest

/-- If the loop settles and all end tags are found, it ends. -/
theorem EndsFound.completes (hfound : EndsFound kind name first copies s)
    (h : Settles (tag kind.word name) (tag (ofAscii "end ") name)
      (blockPass kind name first copies) s) :
    ∃ u, Completes kind name first copies s u := by
  rcases h with ⟨u, hends⟩ | ⟨u, hreach, hopen⟩
  · exact ⟨u, hends, fun v hreach hopen => absurd hopen (hfound v hreach)⟩
  · exact absurd hopen (hfound u hreach)

theorem EndsFit.found (h : EndsFit kind name first copies s) : EndsFound kind name first copies s :=
  fun u hreach => (h u hreach).1

/-- Without overlapping tags the text gets shorter. -/
theorem EndsFit.completes {text : QString} {count : Nat}
    (hcopies : first = true → ∀ y, (copies y).length ≤ y.length)
    (h : EndsFit kind name first copies (firstScan kind name text count)) :
    ∃ u, Completes kind name first copies (firstScan kind name text count) u := by
  have hpos : 0 < (tag kind.word name).length := Nat.zero_lt_succ _
  exact h.found.completes
    (settles_shorter hpos hcopies [] text count fun u hreach => (h u hreach).2)

theorem EndsRemoved.found (h : EndsRemoved kind name first copies s) :
    EndsFound kind name first copies s := fun u hreach hopen =>
  Nat.lt_irrefl _ (h u u 0 hreach (blockPass_unclosed hopen 0))

/-- The number of end tags is a measure then. -/
theorem EndsRemoved.ends (h : EndsRemoved kind name first copies s) :
    ∃ u, Loop.Ends (blockPass kind name first copies) s u := by
  induction hn : occurrences (tag (ofAscii "end ") name) s.text using Nat.strongRecOn
    generalizing s with
  | _ n ih =>
      obtain ⟨turn, hturn⟩ := @blockPass_total kind name first copies 0 s
      cases turn with
      | leave u => exact ⟨u, .leave blockPass_mono hturn⟩
      | again v =>
          have hfewer := h s v 0 .start hturn
          have hrest : EndsRemoved kind name first copies v := fun u w k hreach =>
            h u w k (hreach.prepend hturn)
          obtain ⟨u, hends⟩ := ih _ (hn ▸ hfewer) hrest rfl
          exact ⟨u, .again blockPass_mono hturn hends⟩

theorem EndsRemoved.completes (h : EndsRemoved kind name first copies s) :
    ∃ u, Completes kind name first copies s u := by
  obtain ⟨u, hends⟩ := h.ends
  exact h.found.completes (.inl ⟨u, hends⟩)

end Pass

theorem loopCopies_zero (name y : QString) :
    (loopCopies name 0 y).length ≤ y.length := Nat.zero_le _

section Flat

variable {name : QString} (h : Flat name) (text : QString) (count : Nat)

include h

/-- The tags of a flat name do not overlap. -/
theorem EndsFound.fit {kind : BlockKind} {first : Bool} {copies : QString → QString} {s : Scan}
    (hfound : EndsFound kind name first copies s) : EndsFit kind name first copies s :=
  fun u hreach => ⟨hfound u hreach, (blockTags kind name h).not_overlaps u⟩

theorem settles_loop (n : Nat) :
    Settles (tag BlockKind.loopBlock.word name) (tag (ofAscii "end ") name)
      (blockPass .loopBlock name (decide (0 < n + 1)) (loopCopies name (n + 1)))
      (firstScan .loopBlock name text count) := by
  rw [decide_eq_true (Nat.succ_pos n)]
  exact settles_copies (loopCopies_copying h n) text count

end Flat

/-! ### The operations

`setCondition` runs two loops, the second on what the first has left; `loop` runs one. -/

/-- Both loops of `setCondition` meet a condition, the second one on what the first one leaves. -/
def InBothLoops (ok : BlockKind → QString → Bool → (QString → QString) → Scan → Prop)
    (text name : QString) (value : Bool) : Prop :=
  ok .ifBlock name value id (firstScan .ifBlock name text 0) ∧
    ∀ s, Loop.Ends (blockPass .ifBlock name value id) (firstScan .ifBlock name text 0) s →
      ok .ifnotBlock name (!value) id (firstScan .ifnotBlock name s.text s.count)

/-- The loop of `loop` meets a condition. -/
def InLoop (ok : BlockKind → QString → Bool → (QString → QString) → Scan → Prop)
    (text name : QString) (repetitions : Nat) : Prop :=
  ok .loopBlock name (decide (0 < repetitions)) (loopCopies name repetitions)
    (firstScan .loopBlock name text 0)

/-- `setCondition` returns, and leaves the blocks without an end tag as they are. -/
def SetConditionWorks (text name : QString) (value : Bool) : Prop :=
  ∃ s u fuel, setCondition fuel text name value = some (u.text, u.count) ∧
    Completes .ifBlock name value id (firstScan .ifBlock name text 0) s ∧
    Completes .ifnotBlock name (!value) id (firstScan .ifnotBlock name s.text s.count) u

/-- `loop` returns, and leaves the blocks without an end tag as they are. -/
def LoopWorks (text name : QString) (repetitions : Nat) : Prop :=
  ∃ u fuel, loop fuel text name repetitions = some (u.text, u.count) ∧
    Completes .loopBlock name (decide (0 < repetitions)) (loopCopies name repetitions)
      (firstScan .loopBlock name text 0) u

section Works

variable {text name : QString} {value : Bool} {n : Nat}
  {ok : BlockKind → QString → Bool → (QString → QString) → Scan → Prop}

/-- If `setCondition` returns, both loops have found their end tags. -/
theorem SetConditionWorks.found (h : SetConditionWorks text name value) :
    InBothLoops EndsFound text name value := by
  obtain ⟨s, u, _, -, hfirst, hsecond⟩ := h
  refine ⟨endsFound_of_ends hfirst.ends, fun s' hs' => ?_⟩
  rw [hs'.unique blockPass_mono hfirst.ends]
  exact endsFound_of_ends hsecond.ends

/-- If `loop` returns, it has found its end tags. -/
theorem LoopWorks.found (h : LoopWorks text name n) : InLoop EndsFound text name n := by
  obtain ⟨u, _, -, hu⟩ := h
  exact endsFound_of_ends hu.ends

theorem InBothLoops.works (h : InBothLoops ok text name value)
    (hok : ∀ kind first text count, ok kind name first id (firstScan kind name text count) →
      ∃ u, Completes kind name first id (firstScan kind name text count) u) :
    SetConditionWorks text name value := by
  obtain ⟨s, hs⟩ := hok _ _ _ _ h.1
  obtain ⟨u, hu⟩ := hok _ _ _ _ (h.2 s hs.ends)
  obtain ⟨k, hk⟩ := hs.ends
  obtain ⟨m, hm⟩ := hu.ends
  have hfirst := Loop.loop_mono (fun _ _ hturn => hturn) (Nat.le_max_left k m) hk
  have hsecond := Loop.loop_mono (fun _ _ hturn => hturn) (Nat.le_max_right k m) hm
  refine ⟨s, u, max k m, (congrArg (Option.bind · _) hfirst).trans ?_, hs, hu⟩
  exact congrArg (Option.map _) hsecond

theorem InLoop.works (h : InLoop ok text name n)
    (hok : ok .loopBlock name (decide (0 < n)) (loopCopies name n)
      (firstScan .loopBlock name text 0) →
      ∃ u, Completes .loopBlock name (decide (0 < n)) (loopCopies name n)
        (firstScan .loopBlock name text 0) u) :
    LoopWorks text name n := by
  obtain ⟨u, hu⟩ := hok h
  obtain ⟨fuel, hfuel⟩ := hu.ends
  exact ⟨u, fuel, congrArg (Option.map _) hfuel, hu⟩

/-- If the first loop does not end, neither does `setCondition`. -/
theorem setCondition_none
    (h : ∀ u, ¬ Loop.Ends (blockPass .ifBlock name value id) (firstScan .ifBlock name text 0) u)
    (fuel : Nat) : setCondition fuel text name value = none := by
  have hnone : QtWebApp.loop (blockPass .ifBlock name value id fuel) fuel
      (firstScan .ifBlock name text 0) = none :=
    Option.eq_none_iff_forall_ne_some.mpr fun u hu => h u ⟨fuel, hu⟩
  exact congrArg (Option.bind · _) hnone

/-- If the loop does not end, neither does `loop`. -/
theorem loop_none
    (h : ∀ u, ¬ Loop.Ends (blockPass .loopBlock name (decide (0 < n)) (loopCopies name n))
      (firstScan .loopBlock name text 0) u)
    (fuel : Nat) : loop fuel text name n = none := by
  have hnone : QtWebApp.loop
      (blockPass .loopBlock name (decide (0 < n)) (loopCopies name n) fuel) fuel
      (firstScan .loopBlock name text 0) = none :=
    Option.eq_none_iff_forall_ne_some.mpr fun u hu => h u ⟨fuel, hu⟩
  exact congrArg (Option.map _) hnone

end Works

/-- **Termination.** Both operations return only if they find the end tag of every start tag that
they find, and when they do so for a name without an opening brace, they return.

The tags of a name with an opening brace can overlap. With such a name `setCondition` still returns
when no else tag reaches into an end tag, and `loop` when every turn leaves fewer end tags. -/
theorem works_iff (text name : QString) :
    (123 ∉ name →
      (∀ value, SetConditionWorks text name value ↔ InBothLoops EndsFound text name value) ∧
        ∀ n, LoopWorks text name n ↔ InLoop EndsFound text name n) ∧
    (∀ value, (SetConditionWorks text name value → InBothLoops EndsFound text name value) ∧
      (InBothLoops EndsFit text name value → SetConditionWorks text name value)) ∧
    (∀ n, (LoopWorks text name n → InLoop EndsFound text name n) ∧
      (InLoop EndsRemoved text name n → LoopWorks text name n)) ∧
    (InLoop EndsFit text name 0 → LoopWorks text name 0) := by
  have hzero : InLoop EndsFit text name 0 → LoopWorks text name 0 := fun h =>
    h.works fun hfit => hfit.completes fun _ => loopCopies_zero name
  refine ⟨fun hname => ⟨fun value => ⟨SetConditionWorks.found, fun h => ?_⟩,
    fun n => ⟨LoopWorks.found, fun h => ?_⟩⟩, fun value => ⟨SetConditionWorks.found, fun h => ?_⟩,
    fun n => ⟨LoopWorks.found, fun h => ?_⟩, hzero⟩
  · exact h.works fun _ _ _ _ hfound => (hfound.fit hname).completes fun _ _ => Nat.le_refl _
  · cases n with
    | zero => exact hzero (EndsFound.fit hname h)
    | succ n => exact h.works fun hfound => hfound.completes (settles_loop hname text 0 n)
  · exact h.works fun _ _ _ _ hfit => hfit.completes fun _ _ => Nat.le_refl _
  · exact h.works fun hremoved => hremoved.completes

/-- A loop over one block. -/
theorem works_iff_loop :
    LoopWorks (ofAscii "\x7bloop x\x7da\x7bend x\x7d") (ofAscii "x") 2 := by
  refine (((works_iff _ (ofAscii "x")).1 (by decide)).2 2).mpr ?_
  refine EndsFound.turn (by decide) fun v hv => EndsFound.turn ?_ fun w hw => ?_
  · cases hv
    decide
  · cases hv
    cases hw

/-- A name whose else tag reaches into its end tag. -/
def bracedName : QString := ofAscii "\x7d\x7bend "

/-- Two blocks of that name. -/
def bracedBlocks : QString :=
  ofAscii ("\x7bif \x7d\x7bend \x7d\x7belse \x7d\x7bend \x7d\x7bend \x7d" ++
    "\x7bif \x7d\x7bend \x7d\x7belse \x7d\x7bend \x7d\x7bend \x7d")

/-- The length of the other part is negative there, so that all the rest is taken for it. -/
theorem blockPass_braced (k : Nat) (done : QString) (count : Nat) :
    blockPass .ifBlock bracedName false id k
        (seek (tag BlockKind.ifBlock.word bracedName) done bracedBlocks count) =
      some (.again (seek (tag BlockKind.ifBlock.word bracedName) (done ++ ofAscii "\x7bend \x7d")
        bracedBlocks (count + 1))) := by
  have hstart : Search.find (tag BlockKind.ifBlock.word bracedName) bracedBlocks =
      some 0 := by decide
  have hstop : Search.find (tag (ofAscii "end ") bracedName)
      (bracedBlocks.drop (0 + (tag BlockKind.ifBlock.word bracedName).length)) = some 7 := by decide
  have hrest : replacement (tag (ofAscii "else ") bracedName) false id
      (bracedBlocks.drop (0 + (tag BlockKind.ifBlock.word bracedName).length)) 7 ++
        bracedBlocks.drop (0 + (tag BlockKind.ifBlock.word bracedName).length + 7 +
          (tag (ofAscii "end ") bracedName).length) =
            ofAscii "\x7bend \x7d" ++ bracedBlocks := by decide
  rw [blockPass, blockTurn_found hstart (by decide) hstop, hrest,
    seek_skip (by decide), List.take_zero, List.append_nil]

/-- **Overlapping tags.** With such a name every turn finds its end tag, and the text gets longer
for ever. -/
theorem setCondition_braced :
    InBothLoops EndsFound bracedBlocks bracedName false ∧
      ∀ fuel, setCondition fuel bracedBlocks bracedName false = none := by
  let pass := blockPass .ifBlock bracedName false id
  let s := firstScan .ifBlock bracedName bracedBlocks 0
  have hreach : ∀ u, Loop.Reach pass s u → ∃ done count,
      u = seek (tag BlockKind.ifBlock.word bracedName) done bracedBlocks count := by
    intro u hu
    induction hu with
    | start => exact ⟨[], 0, rfl⟩
    | again _ hturn ih =>
        obtain ⟨done, count, rfl⟩ := ih
        cases (blockPass_braced _ done count).symm.trans hturn
        exact ⟨_, _, rfl⟩
  have hfound : EndsFound .ifBlock bracedName false id s := by
    intro u hu hopen
    obtain ⟨done, count, rfl⟩ := hreach u hu
    have hstart : Search.find (tag BlockKind.ifBlock.word bracedName) bracedBlocks =
        some 0 := by decide
    exact absurd ((openEnded_seek_iff hstart done count).mp hopen) (by decide)
  have hnever : ∀ u, ¬ Loop.Ends pass s u := by
    intro u hends
    refine Loop.Ends.induction (motive := fun v _ => ∀ done count,
      v ≠ seek (tag BlockKind.ifBlock.word bracedName) done bracedBlocks count) ?_ ?_ hends [] 0 rfl
    · rintro k v w hleave done count rfl
      cases (blockPass_braced k done count).symm.trans hleave
    · rintro k v v' w hagain ih done count rfl
      cases (blockPass_braced k done count).symm.trans hagain
      exact ih _ _ rfl
  exact ⟨⟨hfound, fun u hu => absurd hu (hnever u)⟩, setCondition_none hnever⟩

/-- The start tag is found again and again. -/
theorem not_works_missing_end :
    (∀ value fuel, setCondition fuel (ofAscii "\x7bif x\x7d") (ofAscii "x") value = none) ∧
      ∀ n fuel, loop fuel (ofAscii "\x7bend x\x7d\x7bloop x\x7d") (ofAscii "x") n = none :=
  ⟨fun _ => setCondition_none fun _ => not_ends_of_unclosed (by decide),
    fun _ => loop_none fun _ => not_ends_of_unclosed (by decide)⟩

end Template

end QtWebApp
