import QtWebApp.TemplateEngine.Passes

/-!
# QtWebApp.TemplateEngine.Selection

Conditions select in the text what they select in the tree.

The source makes one pass for the `if` blocks of a name and another one for its `ifnot` blocks. What
the first one puts in the place of a block has no block of that name, so the second one does not
come across it.

A block of the name inside another one is excluded. There the first end tag is the one of the inner
block, and what the source makes of that is not what the tree says.
-/

namespace QtWebApp

namespace Template

open QString Markup

section Condition

variable {x : TagName} {t : Markup}

/-- A pass leaves a part without a block of its name as it is. -/
theorem rewrite_of_none {k : BlockKind} {first : Bool} {f : Markup → Markup} (h : ¬ HasBlock x t) :
    t.rewrite (onePass k x first f) = t := by
  induction t with
  | empty => rfl
  | text c rest ih => rw [rewrite, ih h]
  | var name rest ih => exact (congrArg (Markup.var name) (ih h) : _)
  | block kind name body rest ihbody ihrest =>
      simp only [HasBlock, not_or] at h
      rw [rewrite_block_none (onePass_other fun heq => h.1 heq.2), ihbody h.2.1, ihrest h.2.2]
  | blockElse kind name body other rest ihbody ihother ihrest =>
      simp only [HasBlock, not_or] at h
      rw [rewrite_blockElse_none (onePass_other fun heq => h.1 heq.2), ihbody h.2.1,
        ihother h.2.2.1, ihrest h.2.2.2]

/-- A condition selects one of the parts. -/
theorem onePass_keeps (k : BlockKind) (x : TagName) (first : Bool) (y : TagName) :
    (onePass k x first id).Keeps y where
  hasBlock := by
    intro kind name part hpart body other hblock
    simp only [onePass, Option.ite_none_right_eq_some, Option.some.injEq] at hpart
    obtain ⟨-, rfl⟩ := hpart
    dsimp only at hblock
    split at hblock
    · exact .inl hblock
    · exact .inr hblock
  unnested := by
    intro kind name part hpart body other hbody hother
    simp only [onePass, Option.ite_none_right_eq_some, Option.some.injEq] at hpart
    obtain ⟨-, rfl⟩ := hpart
    dsimp only
    split
    · exact hbody
    · exact hother

/-- An `if` block of the name. -/
theorem choose_if (x : TagName) (value : Bool) : (choose x value).block .ifBlock x =
    some fun body other => if value then body else other := if_pos rfl

/-- An `ifnot` block of the name. -/
theorem choose_ifnot (x : TagName) (value : Bool) : (choose x value).block .ifnotBlock x =
    some fun body other => if value then other else body := if_pos rfl

/-- Any other block. -/
theorem choose_other {kind : BlockKind} {name : TagName} (hif : ¬ (kind = .ifBlock ∧ name = x))
    (hifnot : ¬ (kind = .ifnotBlock ∧ name = x)) (value : Bool) :
    (choose x value).block kind name = none := by
  cases kind with
  | ifBlock => exact if_neg fun heq => hif ⟨rfl, heq⟩
  | ifnotBlock => exact if_neg fun heq => hifnot ⟨rfl, heq⟩
  | loopBlock => rfl

/-- The blocks a condition is about. -/
def isCondition (x : TagName) (kind : BlockKind) (name : TagName) : Bool :=
  decide ((kind = .ifBlock ∨ kind = .ifnotBlock) ∧ name = x)

theorem isCondition_if (x : TagName) : isCondition x .ifBlock x = true :=
  decide_eq_true ⟨.inl rfl, rfl⟩

theorem isCondition_ne (x : TagName) (kind : BlockKind) {name : TagName} (h : name ≠ x) :
    isCondition x kind name = false := decide_eq_false fun heq => h heq.2

theorem isCondition_other {kind : BlockKind} {name : TagName} (h : ¬ (kind = .ifBlock ∧ name = x)) :
    isCondition x kind name = isBlock .ifnotBlock x kind name := by
  unfold isCondition isBlock
  congr 1
  simp only [eq_iff_iff]
  tauto

/-- The blocks of both parts. -/
theorem countBlocks_append (p : BlockKind → TagName → Bool) (s t : Markup) :
    (s.append t).countBlocks p = s.countBlocks p + t.countBlocks p := by
  induction s with
  | empty => rw [append, countBlocks, Nat.zero_add]
  | text c rest ih => exact ih
  | var name rest ih => exact ih
  | block kind name body rest _ ih =>
      rw [append, countBlocks, countBlocks, ih]
      omega
  | blockElse kind name body other rest _ _ ih =>
      rw [append, countBlocks, countBlocks, ih]
      omega

/-- **Both passes together** select what the condition means. -/
theorem passes_choose (h : Unnested x t) (value : Bool) :
    (t.rewrite (onePass .ifBlock x value id)).rewrite (onePass .ifnotBlock x (!value) id) =
      t.rewrite (choose x value) := by
  induction t with
  | empty => rfl
  | text c rest ih => rw [rewrite, rewrite, rewrite, ih h]
  | var name rest ih => exact congrArg (Markup.var name) (ih h)
  | block kind name body rest ihbody ihrest =>
      obtain ⟨hname, hbody, hrest⟩ := h
      by_cases hif : kind = .ifBlock ∧ name = x
      · obtain ⟨rfl, rfl⟩ := hif
        have hnone : ¬ HasBlock name (if value then body else Markup.empty) :=
          chosen_none (hname rfl) id
        rw [rewrite_block_some onePass_here, rewrite_block_some
          (choose_if name value), rewrite_append, ihrest hrest]
        exact congrArg (append · _) (rewrite_of_none hnone)
      · rw [rewrite_block_none (onePass_other hif)]
        by_cases hifnot : kind = .ifnotBlock ∧ name = x
        · obtain ⟨rfl, rfl⟩ := hifnot
          rw [rewrite_block_some onePass_here, rewrite_block_some (choose_ifnot name value),
            rewrite_of_none (hname rfl), ihrest hrest]
          cases value <;> rfl
        · rw [rewrite_block_none (onePass_other hifnot),
            rewrite_block_none (choose_other hif hifnot value), ihbody hbody, ihrest hrest]
  | blockElse kind name body other rest ihbody ihother ihrest =>
      obtain ⟨hname, hbody, hother, hrest⟩ := h
      by_cases hif : kind = .ifBlock ∧ name = x
      · obtain ⟨rfl, rfl⟩ := hif
        have hnone : ¬ HasBlock name (if value then body else other) :=
          chosen_none (hname rfl).1 (hname rfl).2
        rw [rewrite_blockElse_some onePass_here, rewrite_blockElse_some (choose_if name value),
          rewrite_append, ihrest hrest]
        exact congrArg (append · _) (rewrite_of_none hnone)
      · rw [rewrite_blockElse_none (onePass_other hif)]
        by_cases hifnot : kind = .ifnotBlock ∧ name = x
        · obtain ⟨rfl, rfl⟩ := hifnot
          rw [rewrite_blockElse_some onePass_here, rewrite_blockElse_some (choose_ifnot name value),
            rewrite_of_none (hname rfl).1, rewrite_of_none (hname rfl).2, ihrest hrest]
          cases value <;> rfl
        · rw [rewrite_blockElse_none (onePass_other hifnot),
            rewrite_blockElse_none (choose_other hif hifnot value), ihbody hbody, ihother hother,
            ihrest hrest]

/-- The first pass leaves the `ifnot` blocks for the second one. -/
theorem countBlocks_passes (h : Unnested x t) (value : Bool) :
    t.countBlocks (isBlock .ifBlock x) +
      (t.rewrite (onePass .ifBlock x value id)).countBlocks (isBlock .ifnotBlock x) =
      t.countBlocks (isCondition x) := by
  induction t with
  | empty => rfl
  | text c rest ih => exact ih h
  | var name rest ih => exact ih h
  | block kind name body rest ihbody ihrest =>
      obtain ⟨hname, hbody, hrest⟩ := h
      have hbodies := ihbody hbody
      have hrests := ihrest hrest
      by_cases hif : kind = .ifBlock ∧ name = x
      · obtain ⟨rfl, rfl⟩ := hif
        have hnone : ¬ HasBlock name (if value then body else Markup.empty) :=
          chosen_none (hname rfl) id
        have hpart := countBlocks_none (isBlock_ne .ifnotBlock name) hnone
        rw [rewrite_block_some onePass_here, countBlocks_append, countBlocks,
          countBlocks, isBlock_here,
          isCondition_if, if_pos rfl, countBlocks_none (isBlock_ne _ _) (hname rfl),
          countBlocks_none (isCondition_ne _) (hname rfl)]
        simp only [id_eq]
        omega
      · rw [rewrite_block_none (onePass_other hif), countBlocks, countBlocks, countBlocks,
          isBlock_other hif, isCondition_other hif, if_neg Bool.false_ne_true]
        omega
  | blockElse kind name body other rest ihbody ihother ihrest =>
      obtain ⟨hname, hbody, hother, hrest⟩ := h
      have hbodies := ihbody hbody
      have hothers := ihother hother
      have hrests := ihrest hrest
      by_cases hif : kind = .ifBlock ∧ name = x
      · obtain ⟨rfl, rfl⟩ := hif
        have hnone : ¬ HasBlock name (if value then body else other) :=
          chosen_none (hname rfl).1 (hname rfl).2
        have hpart := countBlocks_none (isBlock_ne .ifnotBlock name) hnone
        rw [rewrite_blockElse_some onePass_here, countBlocks_append, countBlocks, countBlocks,
          isBlock_here, isCondition_if, if_pos rfl, countBlocks_none (isBlock_ne _ _) (hname rfl).1,
          countBlocks_none (isBlock_ne _ _) (hname rfl).2,
          countBlocks_none (isCondition_ne _) (hname rfl).1,
          countBlocks_none (isCondition_ne _) (hname rfl).2]
        simp only [id_eq]
        omega
      · rw [rewrite_blockElse_none (onePass_other hif), countBlocks, countBlocks, countBlocks,
          isBlock_other hif, isCondition_other hif, if_neg Bool.false_ne_true]
        omega

/-- **Condition selection.** In a template in which no block `x` is inside another one, every `if`
block of the name is replaced by the part that the value selects and every `ifnot` block by the
other one, and everything else stays. The result is the number of these blocks. -/
theorem setCondition_choose (h : Unnested x t) (value : Bool) :
    ∃ fuel, setCondition fuel t.render x.chars value =
      some ((t.rewrite (choose x value)).render, t.countBlocks (isCondition x)) := by
  have hunnested := unnested_rewrite (onePass_keeps .ifBlock x value x) h
  obtain ⟨n, hn⟩ := @pass_ends .ifBlock x value id id (fun _ => id) (fun _ => rfl) t h 0
  obtain ⟨m, hm⟩ := @pass_ends .ifnotBlock x (!value) id id (fun _ => id) (fun _ => rfl) _ hunnested
    (0 + t.countBlocks (isBlock .ifBlock x))
  have hfirst := Loop.loop_mono (fun _ _ hturn => hturn) (Nat.le_max_left n m) hn
  have hsecond := Loop.loop_mono (fun _ _ hturn => hturn) (Nat.le_max_right n m) hm
  rw [passes_choose h, Nat.zero_add, countBlocks_passes h] at hsecond
  refine ⟨max n m, (congrArg (Option.bind · _) hfirst).trans ?_⟩
  rw [Nat.zero_add]
  exact congrArg (Option.map _) hsecond

end Condition

/-- A condition that is not met. -/
theorem setCondition_choose_else : ∃ fuel,
    setCondition fuel (ofAscii "\x7bif x\x7d\x7bv\x7d\x7belse x\x7dB\x7bend x\x7d")
      (ofAscii "x") false =
      some (ofAscii "B", 1) := by
  let t := blockElse .ifBlock (.ofText (ofAscii "x")) (.var (.ofText (ofAscii "v")) .empty)
    (.text (.ofText (ofAscii "B")) .empty) .empty
  have hunnested : Unnested (.ofText (ofAscii "x")) t :=
    ⟨fun _ => ⟨id, id⟩, trivial, trivial, trivial⟩
  exact setCondition_choose hunnested false

end Template

end QtWebApp
