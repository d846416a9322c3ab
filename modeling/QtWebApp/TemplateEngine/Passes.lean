import QtWebApp.TemplateEngine.Pieces
import QtWebApp.TemplateEngine.Rewriting
import QtWebApp.TemplateEngine.Turns

/-!
# QtWebApp.TemplateEngine.Passes

One loop over the blocks of a kind and a name does to the text of a template what it means for its
tree.

In a tree in which no block `x` is inside another one, the first `{end x}` behind the start tag of a
block `x` is its own, and so is an `{else x}` in front of that. The scan goes through the text from
left to right and the induction through the tree, with the text behind the tree as a parameter.

The result is `pass_tree`. It has two parameters: which part of a block stays, and what is done to
it. `if`, `ifnot` and `loop` are three instances.
-/

namespace QtWebApp

namespace Template

open QString Search Scan

namespace Markup

/-! ### The pieces of a tree

A tree as the list of its texts and tags, and its text as that of the list. -/

/-- The text and the tags of a template in their order. -/
def pieces : Markup → List Piece
  | .empty => []
  | .text t rest => .text t :: pieces rest
  | .var name rest => .tag .var name :: pieces rest
  | .block kind name body rest =>
      .tag kind.start name :: (pieces body ++ .tag .stop name :: pieces rest)
  | .blockElse kind name body other rest =>
      .tag kind.start name :: (pieces body ++ .tag .ellse name ::
        (pieces other ++ .tag .stop name :: pieces rest))

/-- The text of a tree is that of its pieces. -/
theorem render_eq (t : Markup) : t.render = renderAll t.pieces := by
  induction t with
  | empty => rfl
  | text t rest ih => rw [render, pieces, renderAll_cons, ih]; rfl
  | var name rest ih => rw [render, pieces, renderAll_cons, ih]; rfl
  | block kind name body rest ihbody ihrest =>
      rw [render, pieces, renderAll_cons, renderAll_append, renderAll_cons, ihbody, ihrest,
        Piece.render, BlockKind.start_chars]
      rfl
  | blockElse kind name body other rest ihbody ihother ihrest =>
      rw [render, pieces, renderAll_cons, renderAll_append, renderAll_cons, renderAll_append,
        renderAll_cons, ihbody, ihother, ihrest, Piece.render, BlockKind.start_chars]
      rfl

/-- The tags of blocks belong to a block. -/
theorem hasBlock_of_mem {x : TagName} {w : TagWord} {t : Markup} (h : Piece.tag w x ∈ t.pieces)
    (hw : w ≠ .var) : HasBlock x t := by
  induction t with
  | empty => cases h
  | text t rest ih =>
      rcases List.mem_cons.mp h with heq | hrest
      · cases heq
      · exact ih hrest
  | var name rest ih =>
      rcases List.mem_cons.mp h with heq | hrest
      · cases heq
        exact absurd rfl hw
      · exact ih hrest
  | block kind name body rest ihbody ihrest =>
      simp only [pieces, List.mem_cons, List.mem_append, Piece.tag.injEq] at h
      rcases h with ⟨-, rfl⟩ | hbody | ⟨-, rfl⟩ | hrest
      · exact .inl rfl
      · exact .inr (.inl (ihbody hbody))
      · exact .inl rfl
      · exact .inr (.inr (ihrest hrest))
  | blockElse kind name body other rest ihbody ihother ihrest =>
      simp only [pieces, List.mem_cons, List.mem_append, Piece.tag.injEq] at h
      rcases h with ⟨-, rfl⟩ | hbody | ⟨-, rfl⟩ | hother | ⟨-, rfl⟩ | hrest
      · exact .inl rfl
      · exact .inr (.inl (ihbody hbody))
      · exact .inl rfl
      · exact .inr (.inr (.inl (ihother hother)))
      · exact .inl rfl
      · exact .inr (.inr (.inr (ihrest hrest)))

@[simp] theorem pieces_append (s t : Markup) : (s.append t).pieces = s.pieces ++ t.pieces := by
  induction s with
  | empty => rfl
  | text x rest ih => rw [append, pieces, pieces, ih]; rfl
  | var name rest ih => rw [append, pieces, pieces, ih]; rfl
  | block kind name body rest _ ih => simp [append, pieces, ih]
  | blockElse kind name body other rest _ _ ih => simp [append, pieces, ih]

@[simp] theorem render_append (s t : Markup) : (s.append t).render = s.render ++ t.render := by
  simp [render_eq]

theorem pieces_rename (x : TagName) (i : Nat) (t : Markup) :
    (t.rename (x.numbered i)).pieces = t.pieces.map (Piece.number x i) := by
  induction t with
  | empty => rfl
  | text t rest ih => rw [rename, pieces, pieces, List.map_cons, ih]; rfl
  | var name rest ih => rw [rename, pieces, pieces, List.map_cons, ih]; rfl
  | block kind name body rest ihbody ihrest =>
      simp [rename, pieces, ihbody, ihrest, Piece.number]
  | blockElse kind name body other rest ihbody ihother ihrest =>
      simp [rename, pieces, ihbody, ihother, ihrest, Piece.number]

/-- Numbering the tags of the text is numbering the names of the tree. -/
theorem numberTags_render (x : TagName) (i : Nat) (t : Markup) :
    numberTags x.chars i t.render = (t.rename (x.numbered i)).render := by
  rw [render_eq, render_eq, pieces_rename, numberTags_pieces]

/-- The copies in the text are those in the tree. -/
theorem loopCopies_render (x : TagName) (n : Nat) (body : Markup) :
    loopCopies x.chars n body.render = (copies x n body).render := by
  rw [loopCopies, copies]
  induction List.range n with
  | nil => rfl
  | cons i is ih => rw [List.flatMap_cons, List.foldr_cons, render_append, ih, numberTags_render]

/-! ### One pass

One loop over blocks, on the text and on the tree. The count goes along with both. -/

/-- What one loop of the source does: in the place of every block of a kind and a name it puts the
first part, made ready, or the else part. -/
def onePass (k : BlockKind) (x : TagName) (first : Bool) (f : Markup → Markup) : Rewrite where
  var _ := none
  block kind name :=
    if kind = k ∧ name = x then some fun body other => if first then f body else other else none

/-- The blocks of a kind and a name. -/
def isBlock (k : BlockKind) (x : TagName) (kind : BlockKind) (name : TagName) : Bool :=
  decide (kind = k ∧ name = x)

section OnePass

variable {k kind : BlockKind} {x name : TagName} {first : Bool} {f : Markup → Markup}

theorem onePass_here : (onePass k x first f).block k x =
    some fun body other => if first then f body else other := if_pos ⟨rfl, rfl⟩

theorem onePass_other (h : ¬ (kind = k ∧ name = x)) :
    (onePass k x first f).block kind name = none :=
  if_neg h

theorem isBlock_here (k : BlockKind) (x : TagName) : isBlock k x k x = true :=
  decide_eq_true ⟨rfl, rfl⟩

theorem isBlock_other (h : ¬ (kind = k ∧ name = x)) : isBlock k x kind name = false :=
  decide_eq_false h

end OnePass

end Markup

section Pass

open Markup

variable {k : BlockKind} {x : TagName} {first : Bool} {copies : QString → QString}
  {f : Markup → Markup}
  {done y : QString} {count : Nat} {result : Scan}

/-- The loop over the blocks of a kind and a name. -/
abbrev passBody (k : BlockKind) (x : TagName) (first : Bool)
    (copies : QString → QString) (_ : Nat) :
    Scan → Option (Turn Scan) :=
  blockTurn (tag k.word x.chars) (tag (ofAscii "else ") x.chars)
    (tag (ofAscii "end ") x.chars) first
    copies

/-! ### Passing over

What is no start tag of the block in question is passed over, and the search goes on behind it as if
it began there. -/

/-- The scan passes over a piece that is not the start tag. -/
theorem skip_piece {p : Piece} (h : p ≠ .tag k.start x) :
    seek (tag k.word x.chars) done (p.render ++ y) count =
      seek (tag k.word x.chars) (done ++ p.render) y count := by
  rw [← BlockKind.start_chars]
  exact seek_skip (find_tag_piece h y)

/-- The scan passes over pieces without the start tag. -/
theorem skip_pieces {ps : List Piece} (h : Piece.tag k.start x ∉ ps) :
    seek (tag k.word x.chars) done (renderAll ps ++ y) count =
      seek (tag k.word x.chars) (done ++ renderAll ps) y count := by
  rw [← BlockKind.start_chars]
  exact seek_skip (find_tag_pieces h y)

theorem start_ne_var (k : BlockKind) : k.start ≠ .var := by cases k <;> decide
theorem start_ne_ellse (k : BlockKind) : k.start ≠ .ellse := by cases k <;> decide
theorem start_ne_stop (k : BlockKind) : k.start ≠ .stop := by cases k <;> decide

/-- A part without a block of the name is passed over. -/
theorem skip_tree {t : Markup} (h : ¬ HasBlock x t) :
    seek (tag k.word x.chars) done (t.render ++ y) count =
      seek (tag k.word x.chars) (done ++ t.render) y count := by
  rw [render_eq]
  exact skip_pieces fun hmem => h (hasBlock_of_mem hmem (start_ne_var k))

/-- The first end tag behind a part without a block of the name. -/
theorem find_end {body : Markup} (h : ¬ HasBlock x body) (y : QString) :
    find (tag (ofAscii "end ") x.chars) (body.render ++ (tag (ofAscii "end ") x.chars ++ y)) =
      some body.render.length := by
  rw [render_eq]
  exact find_tag_here (w := .stop) (fun hmem => h (hasBlock_of_mem hmem (by decide))) y

/-! ### A turn for one block

The scan stands at the start tag. The first end tag behind it is that of the block, since there is
no block of the name inside. -/

/-- **A block without else part**: an else tag stands behind its end tag, if at all. -/
theorem turn_block {body : Markup} (h : ¬ HasBlock x body) :
    passBody k x first copies 0 (seek (tag k.word x.chars) done (tag k.word x.chars ++
        (body.render ++ (tag (ofAscii "end ") x.chars ++ y))) count) =
      some (.again (seek (tag k.word x.chars) done
        ((if first then copies body.render else []) ++ y) (count + 1))) := by
  have hellse : find (tag (ofAscii "else ") x.chars)
      (body.render ++ (tag (ofAscii "end ") x.chars ++ y)) =
      (find (tag (ofAscii "else ") x.chars) (tag (ofAscii "end ") x.chars ++ y)).map
        (· + body.render.length) := by
    rw [render_eq]
    exact find_tag_pieces (w := .ellse) (fun hmem => h (hasBlock_of_mem hmem (by decide))) _
  have hpart : replacement (tag (ofAscii "else ") x.chars) first copies
      (body.render ++ (tag (ofAscii "end ") x.chars ++ y)) body.render.length =
      if first then copies body.render else [] := by
    rw [replacement, hellse]
    cases find (tag (ofAscii "else ") x.chars) (tag (ofAscii "end ") x.chars ++ y) with
    | none => simp
    | some k => simp
  have hdrop : (body.render ++ (tag (ofAscii "end ") x.chars ++ y)).drop
      (body.render.length + (tag (ofAscii "end ") x.chars).length) = y := by
    rw [List.drop_length_add_append, List.drop_left]
  rw [passBody, blockTurn_here (tag_pos _ _) (find_end h y), hpart, hdrop]

/-- **A block with an else part.** -/
theorem turn_blockElse {body other : Markup} (h : ¬ HasBlock x body) (hother : ¬ HasBlock x other) :
    passBody k x first copies 0 (seek (tag k.word x.chars) done (tag k.word x.chars ++
        (body.render ++ (tag (ofAscii "else ") x.chars ++
          (other.render ++ (tag (ofAscii "end ") x.chars ++ y))))) count) =
      some (.again (seek (tag k.word x.chars) done
        ((if first then copies body.render else other.render) ++ y) (count + 1))) := by
  have hellse : find (tag (ofAscii "else ") x.chars)
      (body.render ++ (tag (ofAscii "else ") x.chars ++
      (other.render ++ (tag (ofAscii "end ") x.chars ++ y)))) = some body.render.length := by
    rw [render_eq]
    exact find_tag_here (w := .ellse) (fun hmem => h (hasBlock_of_mem hmem (by decide))) _
  -- the end tag is neither in the first part nor in the else part
  have hstop : find (tag (ofAscii "end ") x.chars) (body.render ++ (tag (ofAscii "else ") x.chars ++
      (other.render ++ (tag (ofAscii "end ") x.chars ++ y)))) =
      some (other.render.length + (tag (ofAscii "else ") x.chars).length + body.render.length) := by
    have hbody : Piece.tag .stop x ∉ body.pieces := fun hmem => h (hasBlock_of_mem hmem (by decide))
    have hne : Piece.tag .ellse x ≠ .tag .stop x := by
      intro heq
      cases heq
    rw [render_eq body]
    refine (find_tag_pieces hbody _).trans ?_
    have hpiece : find (tag (ofAscii "end ") x.chars) (tag (ofAscii "else ") x.chars ++
        (other.render ++ (tag (ofAscii "end ") x.chars ++ y))) =
        some (other.render.length + (tag (ofAscii "else ") x.chars).length) := by
      refine (find_tag_piece hne _).trans ?_
      exact congrArg (Option.map _) (find_end hother y)
    exact congrArg (Option.map _) hpiece
  have hpart : replacement (tag (ofAscii "else ") x.chars) first copies
      (body.render ++ (tag (ofAscii "else ") x.chars ++
        (other.render ++ (tag (ofAscii "end ") x.chars ++ y))))
      (other.render.length + (tag (ofAscii "else ") x.chars).length + body.render.length) =
      if first then copies body.render else other.render := by
    have hpos := tag_pos (ofAscii "else ") x.chars
    have hlen : (((other.render.length + (tag (ofAscii "else ") x.chars).length +
        body.render.length : Nat) : Int) - body.render.length -
          (tag (ofAscii "else ") x.chars).length) =
        (other.render.length : Nat) := by omega
    have hlt : body.render.length < other.render.length + (tag (ofAscii "else ") x.chars).length +
        body.render.length := by omega
    have hother : ¬ ((other.render.length : Nat) : Int) < 0 := by omega
    rw [replacement, hellse]
    dsimp only
    rw [if_pos hlt, List.take_left, hlen, mid, if_neg hother, Int.toNat_natCast,
      Int.toNat_natCast, List.drop_length_add_append, List.drop_left, List.take_left]
  have hdrop : (body.render ++ (tag (ofAscii "else ") x.chars ++
      (other.render ++ (tag (ofAscii "end ") x.chars ++ y)))).drop
      (other.render.length + (tag (ofAscii "else ") x.chars).length + body.render.length +
        (tag (ofAscii "end ") x.chars).length) = y := by
    have hpos : other.render.length + (tag (ofAscii "else ") x.chars).length + body.render.length +
        (tag (ofAscii "end ") x.chars).length = body.render.length +
        ((tag (ofAscii "else ") x.chars).length + (other.render.length +
          (tag (ofAscii "end ") x.chars).length)) := by omega
    rw [hpos, List.drop_length_add_append, List.drop_length_add_append, List.drop_length_add_append,
      List.drop_left]
  rw [passBody, blockTurn_here (tag_pos _ _) hstop, hpart, hdrop]

/-- Text is passed over. -/
theorem skip_text (c : PlainText) :
    seek (tag k.word x.chars) done (c.chars ++ y) count =
      seek (tag k.word x.chars) (done ++ c.chars) y count :=
  skip_piece (p := .text c) (fun heq => by cases heq)

/-- A tag with another word is passed over. -/
theorem skip_tag {w : TagWord} (h : k.start ≠ w) (n : TagName) :
    seek (tag k.word x.chars) done (tag w.chars n.chars ++ y) count =
      seek (tag k.word x.chars) (done ++ tag w.chars n.chars) y count :=
  skip_piece (p := .tag w n) fun heq => h (Piece.tag.inj heq).1.symm

theorem skip_var (n : TagName) :
    seek (tag k.word x.chars) done (tag [] n.chars ++ y) count =
      seek (tag k.word x.chars) (done ++ tag [] n.chars) y count := skip_tag (start_ne_var k) n

theorem skip_ellse (n : TagName) :
    seek (tag k.word x.chars) done (tag (ofAscii "else ") n.chars ++ y) count =
      seek (tag k.word x.chars) (done ++ tag (ofAscii "else ") n.chars) y count :=
  skip_tag (start_ne_ellse k) n

theorem skip_stop (n : TagName) :
    seek (tag k.word x.chars) done (tag (ofAscii "end ") n.chars ++ y) count =
      seek (tag k.word x.chars) (done ++ tag (ofAscii "end ") n.chars) y count :=
  skip_tag (start_ne_stop k) n

/-- The start tag of a block of another kind or name is passed over. -/
theorem skip_start {kind : BlockKind} {name : TagName} (h : ¬ (kind = k ∧ name = x)) :
    seek (tag k.word x.chars) done (tag kind.word name.chars ++ y) count =
      seek (tag k.word x.chars) (done ++ tag kind.word name.chars) y count := by
  rw [← kind.start_chars]
  refine skip_piece (p := .tag kind.start name) fun heq => ?_
  obtain ⟨hkind, hname⟩ := Piece.tag.inj heq
  refine h ⟨?_, hname⟩
  revert hkind
  cases kind <;> cases k <;> decide

/-- There is nothing to count where there is no block of the name. -/
theorem countBlocks_none {p : BlockKind → TagName → Bool}
    (hp : ∀ kind {name}, name ≠ x → p kind name = false) {t : Markup} (h : ¬ HasBlock x t) :
    t.countBlocks p = 0 := by
  induction t with
  | empty => rfl
  | text c rest ih => exact ih h
  | var name rest ih => exact ih h
  | block kind name body rest ihbody ihrest =>
      simp only [HasBlock, not_or] at h
      simp [countBlocks, hp kind h.1, ihbody h.2.1, ihrest h.2.2]
  | blockElse kind name body other rest ihbody ihother ihrest =>
      simp only [HasBlock, not_or] at h
      simp [countBlocks, hp kind h.1, ihbody h.2.1, ihother h.2.2.1, ihrest h.2.2.2]

theorem isBlock_ne (k : BlockKind) (x : TagName) (kind : BlockKind) {name : TagName}
    (h : name ≠ x) :
    isBlock k x kind name = false := isBlock_other fun heq => h heq.2

/-! ### A whole tree

By induction on the tree: what is in front is passed over, a block is replaced, and what is behind
is done by the next turns. The text that is put in place is scanned as well, but it has no block of
the name any more. -/

/-- The part that takes the place of a block. -/
theorem chosen_render (hcopies : ∀ t : Markup, copies t.render = (f t).render)
    (body other : Markup) :
    (if first then copies body.render else other.render) =
      (if first then f body else other).render := by
  cases first with
  | true => exact hcopies body
  | false => rfl

theorem chosen_none {body other : Markup} (hbody : ¬ HasBlock x body)
    (hother : ¬ HasBlock x other) :
    ¬ HasBlock x (if first then body else other) := by
  split
  · exact hbody
  · exact hother

/-- **One pass over a tree.** The loop comes to the end of its text with the blocks replaced. -/
theorem pass_tree (hf : ∀ t, ¬ HasBlock x t → ¬ HasBlock x (f t))
    (hcopies : ∀ t : Markup, copies t.render = (f t).render) {t : Markup} (h : Unnested x t)
    (hrest : Loop.Ends (passBody k x first copies) (seek (tag k.word x.chars)
      (done ++ (t.rewrite (onePass k x first f)).render) y (count + t.countBlocks (isBlock k x)))
      result) :
    Loop.Ends (passBody k x first copies) (seek (tag k.word x.chars) done (t.render ++ y) count)
      result := by
  induction t generalizing done y count with
  | empty =>
      rw [rewrite, render, List.append_nil, countBlocks, Nat.add_zero] at hrest
      exact hrest
  | text c rest ih =>
      rw [render, List.append_assoc, skip_text]
      rw [rewrite, render, ← List.append_assoc, countBlocks] at hrest
      exact ih h hrest
  | var name rest ih =>
      rw [render, List.append_assoc, skip_var]
      rw [rewrite, onePass, render, ← List.append_assoc, countBlocks] at hrest
      exact ih h hrest
  | block kind name body rest ihbody ihrest =>
      obtain ⟨hname, hbody, hunnested⟩ := h
      by_cases htarget : kind = k ∧ name = x
      · obtain ⟨rfl, rfl⟩ := htarget
        have hno := hname rfl
        rw [rewrite_block_some onePass_here, render_append, countBlocks, isBlock_here, if_pos rfl,
          countBlocks_none (isBlock_ne _ _) hno, Nat.add_zero] at hrest
        rw [render, List.append_assoc, List.append_assoc, List.append_assoc]
        refine Loop.Ends.again (k := 0) (Loop.mono_const _) (turn_block hno) ?_
        have hpart : (if first then copies body.render else []) =
            (if first then f body else Markup.empty).render := chosen_render hcopies body .empty
        rw [hpart, skip_tree (chosen_none (hf body hno) id)]
        refine ihrest hunnested ?_
        rw [List.append_assoc, Nat.add_assoc]
        exact hrest
      · rw [render, List.append_assoc, List.append_assoc, List.append_assoc, skip_start htarget]
        rw [rewrite_block_none (onePass_other htarget), countBlocks, isBlock_other htarget,
          if_neg Bool.false_ne_true, Nat.zero_add, render] at hrest
        refine ihbody hbody ?_
        rw [skip_stop]
        refine ihrest hunnested ?_
        simp only [List.append_assoc, Nat.add_assoc] at hrest ⊢
        exact hrest
  | blockElse kind name body other rest ihbody ihother ihrest =>
      obtain ⟨hname, hbody, hother, hunnested⟩ := h
      by_cases htarget : kind = k ∧ name = x
      · obtain ⟨rfl, rfl⟩ := htarget
        obtain ⟨hno, hnoother⟩ := hname rfl
        rw [rewrite_blockElse_some onePass_here, render_append, countBlocks,
          isBlock_here, if_pos rfl,
          countBlocks_none (isBlock_ne _ _) hno, countBlocks_none (isBlock_ne _ _) hnoother,
          Nat.add_zero] at hrest
        rw [render]
        simp only [List.append_assoc]
        refine Loop.Ends.again (k := 0) (Loop.mono_const _) (turn_blockElse hno hnoother) ?_
        rw [chosen_render hcopies, skip_tree (chosen_none (hf body hno) hnoother)]
        refine ihrest hunnested ?_
        rw [List.append_assoc, Nat.add_assoc]
        exact hrest
      · rw [render]
        simp only [List.append_assoc]
        rw [skip_start htarget]
        rw [rewrite_blockElse_none (onePass_other htarget), countBlocks, isBlock_other htarget,
          if_neg Bool.false_ne_true, Nat.zero_add, render] at hrest
        refine ihbody hbody ?_
        rw [skip_ellse]
        refine ihother hother ?_
        rw [skip_stop]
        refine ihrest hunnested ?_
        simp only [List.append_assoc, Nat.add_assoc] at hrest ⊢
        exact hrest

/-- **One pass over a text.** -/
theorem pass_ends (hf : ∀ t, ¬ HasBlock x t → ¬ HasBlock x (f t))
    (hcopies : ∀ t : Markup, copies t.render = (f t).render) {t : Markup} (h : Unnested x t)
    (count : Nat) :
    Loop.Ends (passBody k x first copies)
      ⟨t.render, t.render.indexOf (tag k.word x.chars) 0, count⟩
      ⟨(t.rewrite (onePass k x first f)).render, -1, count + t.countBlocks (isBlock k x)⟩ := by
  have hend : Search.find (tag k.word x.chars) [] = none := Search.find_nil (tag_ne_nil _ _)
  rw [← seek_start, ← List.append_nil t.render]
  refine pass_tree hf hcopies h (Loop.Ends.leave (k := 0) (Loop.mono_const _) ?_)
  rw [passBody, blockTurn_none hend, List.append_nil, List.nil_append]

end Pass

end Template

end QtWebApp
