import QtWebApp.TemplateEngine.Template

/-!
# QtWebApp.TemplateEngine.Markup

Templates as the documentation describes them, and what the operations mean there.

A tree is built from text, variables and blocks, so its tags match by construction. All operations
rewrite a tree in the same way (`Markup.rewrite`): they replace some variables by a text and some
blocks by one made of its parts, and go through everything else.

An else part may be missing, and then there is another constructor for the block, since an empty
else part has an else tag in the text. Names and texts are without braces, so that the text of a
tree can be read in one way only.
-/

namespace QtWebApp

namespace Template

open QString

/-! ### The grammar

The names are those of the tags, and a name of a sub-loop has the names of the loops around it in
front. -/

/-- The name in a tag: neither braces nor blanks. -/
structure TagName where
  chars : QString
  plain : ∀ c ∈ chars, c ≠ 123 ∧ c ≠ 125 ∧ c ≠ 32
  deriving DecidableEq

/-- The name that is left of a text without its braces and blanks. -/
def TagName.ofText (s : QString) : TagName where
  chars := s.filter fun c => decide (c ≠ 123 ∧ c ≠ 125 ∧ c ≠ 32)
  plain := fun _ hc => of_decide_eq_true (List.mem_filter.mp hc).2

/-- A digit is neither a brace nor a blank. -/
theorem number_plain (i : Nat) : ∀ c ∈ number i, c ≠ 123 ∧ c ≠ 125 ∧ c ≠ 32 := by
  intro c hc
  obtain ⟨hlow, hhigh⟩ := number_digit i c hc
  refine ⟨?_, ?_, ?_⟩
  · rintro rfl
    exact absurd hhigh (by decide)
  · rintro rfl
    exact absurd hhigh (by decide)
  · rintro rfl
    exact absurd hlow (by decide)

/-- In the copy `i` of the loop `x` a name that begins with `x.` begins with `x` and the number
instead. -/
def TagName.numbered (x : TagName) (i : Nat) (n : TagName) : TagName :=
  if x.chars ++ [46] <+: n.chars then
    { chars := x.chars ++ number i ++ n.chars.drop x.chars.length
      plain := by
        intro c hc
        rcases List.mem_append.mp hc with hfront | hback
        · rcases List.mem_append.mp hfront with hx | hnumber
          · exact x.plain c hx
          · exact number_plain i c hnumber
        · exact n.plain c (List.mem_of_mem_drop hback) }
  else n

/-- A name that begins with the name of the loop and a dot. -/
theorem numbered_chars {x n : TagName} {m : QString}
    (h : n.chars = x.chars ++ ([46] ++ m)) (i : Nat) :
    (x.numbered i n).chars = x.chars ++ number i ++ ([46] ++ m) := by
  have hpre : x.chars ++ [46] <+: n.chars := by
    rw [h, ← List.append_assoc]
    exact List.prefix_append _ _
  rw [TagName.numbered, if_pos hpre]
  show x.chars ++ number i ++ n.chars.drop x.chars.length = _
  rw [h, List.drop_left]

theorem numbered_other {x n : TagName} (h : ¬ x.chars ++ [46] <+: n.chars) (i : Nat) :
    x.numbered i n = n := if_neg h

/-- Text between tags: no braces. -/
structure PlainText where
  chars : QString
  plain : ∀ c ∈ chars, c ≠ 123 ∧ c ≠ 125
  deriving DecidableEq

/-- A text without its braces. -/
def PlainText.ofText (s : QString) : PlainText where
  chars := s.filter fun c => decide (c ≠ 123 ∧ c ≠ 125)
  plain := fun _ hc => of_decide_eq_true (List.mem_filter.mp hc).2

/-- The kinds of blocks. -/
inductive BlockKind
  | ifBlock
  | ifnotBlock
  | loopBlock
  deriving DecidableEq, Repr

/-- The word of a start tag. -/
def BlockKind.word : BlockKind → QString
  | .ifBlock => ofAscii "if "
  | .ifnotBlock => ofAscii "ifnot "
  | .loopBlock => ofAscii "loop "

/-- A template: what comes first, and the rest of it. -/
inductive Markup
  | empty
  | text (t : PlainText) (rest : Markup)
  | var (name : TagName) (rest : Markup)
  | block (kind : BlockKind) (name : TagName) (body rest : Markup)
  | blockElse (kind : BlockKind) (name : TagName) (body other rest : Markup)

namespace Markup

/-- The text of a template. -/
def render : Markup → QString
  | .empty => []
  | .text t rest => t.chars ++ render rest
  | .var name rest => tag [] name.chars ++ render rest
  | .block kind name body rest =>
      tag kind.word name.chars ++ (render body ++ (tag (ofAscii "end ") name.chars ++ render rest))
  | .blockElse kind name body other rest =>
      tag kind.word name.chars ++ (render body ++ (tag (ofAscii "else ") name.chars ++
        (render other ++ (tag (ofAscii "end ") name.chars ++ render rest))))

/-- One template after another. -/
def append : Markup → Markup → Markup
  | .empty, t => t
  | .text x rest, t => .text x (append rest t)
  | .var name rest, t => .var name (append rest t)
  | .block kind name body rest, t => .block kind name body (append rest t)
  | .blockElse kind name body other rest, t => .blockElse kind name body other (append rest t)

/-- A block with this name. -/
def HasBlock (x : TagName) : Markup → Prop
  | .empty => False
  | .text _ rest | .var _ rest => HasBlock x rest
  | .block _ name body rest => name = x ∨ HasBlock x body ∨ HasBlock x rest
  | .blockElse _ name body other rest =>
      name = x ∨ HasBlock x body ∨ HasBlock x other ∨ HasBlock x rest

/-- No block with this name is inside another one. -/
def Unnested (x : TagName) : Markup → Prop
  | .empty => True
  | .text _ rest | .var _ rest => Unnested x rest
  | .block _ name body rest => (name = x → ¬ HasBlock x body) ∧ Unnested x body ∧ Unnested x rest
  | .blockElse _ name body other rest =>
      (name = x → ¬ HasBlock x body ∧ ¬ HasBlock x other) ∧
        Unnested x body ∧ Unnested x other ∧ Unnested x rest

/-- The number of blocks of the given kinds and names. -/
def countBlocks (p : BlockKind → TagName → Bool) : Markup → Nat
  | .empty => 0
  | .text _ rest | .var _ rest => countBlocks p rest
  | .block kind name body rest =>
      (if p kind name then 1 else 0) + countBlocks p body + countBlocks p rest
  | .blockElse kind name body other rest =>
      (if p kind name then 1 else 0) + countBlocks p body + countBlocks p other + countBlocks p rest

/-! ### Rewriting

The traversal that all operations share. -/

/-- What to do with variables and blocks; `none` leaves them alone. -/
structure Rewrite where
  var : TagName → Option PlainText
  block : BlockKind → TagName → Option (Markup → Markup → Markup)

/-- Rewrite a template. A block that is replaced is made of its parts as they are. -/
def rewrite (w : Rewrite) : Markup → Markup
  | .empty => .empty
  | .text t rest => .text t (rewrite w rest)
  | .var name rest =>
      match w.var name with
      | some t => .text t (rewrite w rest)
      | none => .var name (rewrite w rest)
  | .block kind name body rest =>
      match w.block kind name with
      | some part => (part body .empty).append (rewrite w rest)
      | none => .block kind name (rewrite w body) (rewrite w rest)
  | .blockElse kind name body other rest =>
      match w.block kind name with
      | some part => (part body other).append (rewrite w rest)
      | none => .blockElse kind name (rewrite w body) (rewrite w other) (rewrite w rest)

section Rewrite

variable {w : Rewrite} {kind : BlockKind} {name : TagName} {part : Markup → Markup → Markup}

theorem rewrite_var_none (h : w.var name = none) (rest : Markup) :
    (var name rest).rewrite w = .var name (rest.rewrite w) := by
  rw [rewrite, h]

theorem rewrite_var_some {c : PlainText} (h : w.var name = some c) (rest : Markup) :
    (var name rest).rewrite w = .text c (rest.rewrite w) := by
  rw [rewrite, h]

theorem rewrite_block_none (h : w.block kind name = none) (body rest : Markup) :
    (block kind name body rest).rewrite w = .block kind name (body.rewrite w) (rest.rewrite w) := by
  rw [rewrite, h]

theorem rewrite_block_some (h : w.block kind name = some part) (body rest : Markup) :
    (block kind name body rest).rewrite w = (part body .empty).append (rest.rewrite w) := by
  rw [rewrite, h]

theorem rewrite_blockElse_none (h : w.block kind name = none) (body other rest : Markup) :
    (blockElse kind name body other rest).rewrite w =
      .blockElse kind name (body.rewrite w) (other.rewrite w) (rest.rewrite w) := by
  rw [rewrite, h]

theorem rewrite_blockElse_some (h : w.block kind name = some part) (body other rest : Markup) :
    (blockElse kind name body other rest).rewrite w = (part body other).append
    (rest.rewrite w) := by
  rw [rewrite, h]

end Rewrite

/-! ### The operations

Each operation, by what it does to one variable or to one block. -/

/-- What `setVariable` does: the variable becomes its value. -/
def assign (x : TagName) (value : PlainText) : Rewrite where
  var name := if name = x then some value else none
  block _ _ := none

/-- What `setCondition` does: of an `if` block the first part stays when the condition is true, of
an `ifnot` block when it is false, and otherwise the else part, if there is one. -/
def choose (x : TagName) (value : Bool) : Rewrite where
  var _ := none
  block kind name :=
    match kind with
    | .ifBlock => if name = x then some fun body other => if value then body else other else none
    | .ifnotBlock => if name = x then some fun body other => if value then other else body else none
    | .loopBlock => none

/-- The names in a template are changed. -/
def rename (f : TagName → TagName) : Markup → Markup
  | .empty => .empty
  | .text t rest => .text t (rename f rest)
  | .var name rest => .var (f name) (rename f rest)
  | .block kind name body rest => .block kind (f name) (rename f body) (rename f rest)
  | .blockElse kind name body other rest =>
      .blockElse kind (f name) (rename f body) (rename f other) (rename f rest)

/-- The numbered copies of the body of a loop. -/
def copies (x : TagName) (n : Nat) (body : Markup) : Markup :=
  (List.range n).foldr (fun i t => (body.rename (x.numbered i)).append t) .empty

/-- What `loop` does: as many copies as there are repetitions, and the else part if there are
none. -/
def expand (x : TagName) (n : Nat) : Rewrite where
  var _ := none
  block kind name :=
    if kind = .loopBlock ∧ name = x then
      some fun body other => if 0 < n then copies x n body else other
    else none

end Markup

end Template

end QtWebApp
