import QtWebApp.TemplateEngine.Passes

/-!
# QtWebApp.TemplateEngine.Expansion

Loops are expanded in the text as they are in the tree.

The copies of a body have new names, which tell what is numbered and how, so a loop that was inside
another one can be expanded copy by copy.

The count that `loop` returns is the number of blocks that it has expanded, and it is the number of
loops of that name in the tree.
-/

namespace QtWebApp

namespace Template

open QString Markup

/-- Expanding is one pass that keeps the body, copied. -/
theorem expand_eq (x : TagName) (n : Nat) :
    expand x n = onePass .loopBlock x (decide (0 < n)) (copies x n) := by
  simp only [expand, onePass, decide_eq_true_eq]

theorem expand_here {x : TagName} {n : Nat} : (expand x n).block .loopBlock x =
    some fun body other => if 0 < n then copies x n body else other := if_pos ⟨rfl, rfl⟩

theorem expand_other {x name : TagName} {kind : BlockKind} {n : Nat}
    (h : ¬ (kind = .loopBlock ∧ name = x)) : (expand x n).block kind name = none := if_neg h

/-- The blocks `y` inside a loop `x` are not nested in the copies when they have new names there. -/
theorem unnested_expand {x y : TagName} {t : Markup} (hy : x.chars ++ [46] <+: y.chars) (i n : Nat)
    (h : Unnested y t) (hnone : ¬ HasBlock (x.numbered i y) t) :
    Unnested (x.numbered i y) (t.rewrite (expand x n)) := by
  induction t with
  | empty => trivial
  | text c rest ih => exact ih h hnone
  | var name rest ih => exact ih h hnone
  | block kind name body rest ihbody ihrest =>
      simp only [HasBlock, not_or] at hnone
      by_cases htarget : kind = .loopBlock ∧ name = x
      · obtain ⟨rfl, rfl⟩ := htarget
        rw [rewrite_block_some expand_here, unnested_append]
        refine ⟨?_, ihrest h.2.2 hnone.2.2⟩
        split
        · exact unnested_copies (fun j => unnested_numbered hy i j h.2.1 hnone.2.1) n
        · trivial
      · rw [rewrite_block_none (expand_other htarget)]
        exact ⟨fun hname => absurd hname hnone.1, ihbody h.2.1 hnone.2.1, ihrest h.2.2 hnone.2.2⟩
  | blockElse kind name body other rest ihbody ihother ihrest =>
      simp only [HasBlock, not_or] at hnone
      by_cases htarget : kind = .loopBlock ∧ name = x
      · obtain ⟨rfl, rfl⟩ := htarget
        rw [rewrite_blockElse_some expand_here, unnested_append]
        refine ⟨?_, ihrest h.2.2.2 hnone.2.2.2⟩
        split
        · exact unnested_copies (fun j => unnested_numbered hy i j h.2.1 hnone.2.1) n
        · exact unnested_of_none hnone.2.2.1
      · rw [rewrite_blockElse_none (expand_other htarget)]
        exact ⟨fun hname => absurd hname hnone.1, ihbody h.2.1 hnone.2.1,
          ihother h.2.2.1 hnone.2.2.1, ihrest h.2.2.2 hnone.2.2.2⟩

/-- `loop` ends on the text of a tree. -/
theorem loop_ends {x : TagName} {t : Markup} (h : Unnested x t) (n : Nat) :
    ∃ fuel, loop fuel t.render x.chars n =
      some ((t.rewrite (expand x n)).render, t.countBlocks (isBlock .loopBlock x)) := by
  obtain ⟨fuel, hfuel⟩ := @pass_ends .loopBlock x (decide (0 < n))
      (loopCopies x.chars n) (copies x n)
    (fun _ hbody hblock => hbody (hasBlock_copies (numbered_self_iff x) n hblock))
    (loopCopies_render x n) t h 0
  refine ⟨fuel, ?_⟩
  rw [loop, expand_eq]
  refine (congrArg (Option.map _) hfuel).trans ?_
  rw [Nat.zero_add]
  rfl

end Template

end QtWebApp
