import QtWebApp.TemplateEngine.Expansion
import QtWebApp.TemplateEngine.Selection
import QtWebApp.TemplateEngine.Substitution

/-!
# QtWebApp.TemplateEngine.Commute

Operations on names that have nothing to do with each other may be done in any order.

Each operation is a rewriting of the tree. A rewriting with one name and a rewriting with another
name are independent unless numbering makes one name from the other, and that takes a name that
begins with the name of a loop.

The theorem is about texts, but its proof is about trees: each operation on a text is a rewriting of
the tree (`run_render`), two rewritings commute (`rewrite_comm`), and the same text comes out in
both orders.
-/

namespace QtWebApp

namespace Template

open QString Search Markup

/-! ### Setting a variable in a tree

The tag of a variable is found at the variables of this name, and nowhere else in the text of a
tree. -/

section Assign

variable {x : TagName} {value : PlainText}

/-- The replacement passes over any other piece. -/
theorem replaceAll_piece {p : Piece} (h : p ≠ .tag .var x) (after y : QString) :
    replaceAll (tag [] x.chars) after (p.render ++ y) =
      p.render ++ replaceAll (tag [] x.chars) after y :=
  replaceAll_append (tag_ne_nil _ _) (find_tag_piece (w := .var) h y)

theorem replaceAll_start (kind : BlockKind) (n : TagName) (after y : QString) :
    replaceAll (tag [] x.chars) after (tag kind.word n.chars ++ y) =
      tag kind.word n.chars ++ replaceAll (tag [] x.chars) after y := by
  rw [← kind.start_chars]
  exact replaceAll_piece (p := .tag kind.start n)
    (fun heq => start_ne_var kind (Piece.tag.inj heq).1)
    after y

theorem replaceAll_ellse (n : TagName) (after y : QString) :
    replaceAll (tag [] x.chars) after (tag (ofAscii "else ") n.chars ++ y) =
      tag (ofAscii "else ") n.chars ++ replaceAll (tag [] x.chars) after y :=
  replaceAll_piece (p := .tag .ellse n) (fun heq => by cases heq) after y

theorem replaceAll_stop (n : TagName) (after y : QString) :
    replaceAll (tag [] x.chars) after (tag (ofAscii "end ") n.chars ++ y) =
      tag (ofAscii "end ") n.chars ++ replaceAll (tag [] x.chars) after y :=
  replaceAll_piece (p := .tag .stop n) (fun heq => by cases heq) after y

/-- Replacing the tag in the text is replacing the variable in the tree. -/
theorem replaceAll_tree (t : Markup) (y : QString) :
    replaceAll (tag [] x.chars) value.chars (t.render ++ y) =
      (t.rewrite (assign x value)).render ++ replaceAll (tag [] x.chars) value.chars y := by
  induction t generalizing y with
  | empty => rfl
  | text c rest ih =>
      have hskip := replaceAll_piece (x := x) (p := .text c) (fun heq => by cases heq) value.chars
        (rest.render ++ y)
      rw [render, List.append_assoc, rewrite, render, List.append_assoc, ← ih]
      exact hskip
  | var name rest ih =>
      rw [render, List.append_assoc]
      by_cases hname : name = x
      · have hvar : (assign x value).var name = some value := if_pos hname
        rw [rewrite_var_some hvar, hname, replaceAll_here (tag_ne_nil _ _), ih, render,
          List.append_assoc]
      · have hvar : (assign x value).var name = none := if_neg hname
        have hskip := replaceAll_piece (x := x) (p := .tag .var name)
          (fun heq => hname (Piece.tag.inj heq).2) value.chars (rest.render ++ y)
        rw [rewrite_var_none hvar, render, List.append_assoc, ← ih]
        exact hskip
  | block kind name body rest ihbody ihrest =>
      rw [rewrite_block_none rfl, render, render]
      simp only [List.append_assoc]
      rw [replaceAll_start, ihbody, replaceAll_stop, ihrest]
  | blockElse kind name body other rest ihbody ihother ihrest =>
      rw [rewrite_blockElse_none rfl, render, render]
      simp only [List.append_assoc]
      rw [replaceAll_start, ihbody, replaceAll_ellse, ihother, replaceAll_stop, ihrest]

/-- **`setVariable`** sets the variable in the tree. -/
theorem setVariable_assign (x : TagName) (value : PlainText) (t : Markup) :
    ∃ fuel count, setVariable fuel t.render x.chars value.chars =
      some ((t.rewrite (assign x value)).render, count) := by
  obtain ⟨fuel, hfuel⟩ := setVariable_cut t.render x.chars value.chars
  have htree := @replaceAll_tree x value t []
  rw [List.append_nil, replaceAll_of_none (find_nil (tag_ne_nil _ _)), List.append_nil] at htree
  refine ⟨fuel, (cut (tag [] x.chars) t.render).length - 1, ?_⟩
  rw [hfuel, ← htree]
  rfl

end Assign

/-! ### Operations

The operations as a type, with the name that each of them is about. -/

/-- The operations of a template. -/
inductive Operation
  | setVariable (name : TagName) (value : PlainText)
  | setCondition (name : TagName) (value : Bool)
  | loop (name : TagName) (repetitions : Nat)

namespace Operation

def name : Operation → TagName
  | .setVariable name _ | .setCondition name _ | .loop name _ => name

/-- The text after an operation. -/
def run (fuel : Nat) (text : QString) : Operation → Option QString
  | .setVariable name value =>
      (Template.setVariable fuel text name.chars value.chars).map Prod.fst
  | .setCondition name value => (Template.setCondition fuel text name.chars value).map Prod.fst
  | .loop name repetitions => (Template.loop fuel text name.chars repetitions).map Prod.fst

/-- What an operation does to the tree. -/
def rewrite : Operation → Rewrite
  | .setVariable name value => assign name value
  | .setCondition name value => choose name value
  | .loop name repetitions => expand name repetitions

/-- An operation rewrites the tree. -/
theorem run_render (a : Operation) {t : Markup} (h : Unnested a.name t) :
    ∃ fuel, a.run fuel t.render = some (t.rewrite a.rewrite).render := by
  cases a with
  | setVariable name value =>
      obtain ⟨fuel, count, hrun⟩ := setVariable_assign name value t
      exact ⟨fuel, congrArg (Option.map _) hrun⟩
  | setCondition name value =>
      obtain ⟨fuel, hrun⟩ := setCondition_choose h value
      exact ⟨fuel, congrArg (Option.map _) hrun⟩
  | loop name repetitions =>
      obtain ⟨fuel, hrun⟩ := loop_ends h repetitions
      exact ⟨fuel, congrArg (Option.map _) hrun⟩

/-- More fuel does not change what an operation does. -/
theorem run_mono (a : Operation) {n m : Nat} (hnm : n ≤ m) {text s : QString}
    (h : a.run n text = some s) : a.run m text = some s := by
  have hmono : ∀ {body : Scan → Option (Turn Scan)} {s s' : Scan},
      QtWebApp.loop body n s = some s' → QtWebApp.loop body m s = some s' :=
    fun hloop => Loop.loop_mono (fun _ _ hturn => hturn) hnm hloop
  cases a with
  | setVariable name value =>
      simp only [run, Template.setVariable, Option.map_map, Option.map_eq_some_iff] at h ⊢
      obtain ⟨s', hloop, hs⟩ := h
      exact ⟨s', hmono hloop, hs⟩
  | setCondition name value =>
      simp only [run, Template.setCondition, Option.map_eq_some_iff, Option.bind_eq_some_iff] at h ⊢
      obtain ⟨result, ⟨s₁, hfirst, s₂, hsecond, hresult⟩, hs⟩ := h
      exact ⟨result, ⟨s₁, hmono hfirst, s₂, hmono hsecond, hresult⟩, hs⟩
  | loop name repetitions =>
      simp only [run, Template.loop, Option.map_map, Option.map_eq_some_iff] at h ⊢
      obtain ⟨s', hloop, hs⟩ := h
      exact ⟨s', hmono hloop, hs⟩

/-! ### What the operations do to blocks

What has to be checked for a pair of operations. Numbering is the only thing that changes a name. -/

section Block

variable {kind : BlockKind} {name y : TagName} {part : Markup → Markup → Markup}

/-- A block that an operation replaces has its name, and it becomes one of its parts, or the copies
of one. -/
theorem block_cases {a : Operation} (h : a.rewrite.block kind name = some part) :
    name = a.name ∧ ((∃ first : Bool, part = fun body other => if first then body else other) ∨
      ∃ n, part = fun body other => if 0 < n then copies a.name n body else other) := by
  cases a with
  | setVariable x value => cases h
  | setCondition x value =>
      cases kind with
      | ifBlock =>
          obtain ⟨hname, hpart⟩ := Option.ite_none_right_eq_some.mp h
          exact ⟨hname, .inl ⟨value, (Option.some.inj hpart).symm⟩⟩
      | ifnotBlock =>
          obtain ⟨hname, hpart⟩ := Option.ite_none_right_eq_some.mp h
          refine ⟨hname, .inl ⟨!value, ?_⟩⟩
          rw [← Option.some.inj hpart]
          cases value <;> rfl
      | loopBlock => cases h
  | loop x n =>
      obtain ⟨hname, hpart⟩ := Option.ite_none_right_eq_some.mp h
      exact ⟨hname.2, .inr ⟨n, (Option.some.inj hpart).symm⟩⟩

/-- A variable that an operation replaces is its own. -/
theorem var_cases {a : Operation} {c : PlainText} (h : a.rewrite.var name = some c) :
    name = a.name := by
  cases a with
  | setVariable x value => exact (Option.ite_none_right_eq_some.mp h).1
  | setCondition x value => cases h
  | loop x n => cases h

/-- Names that do not begin with the name of the operation are not touched. -/
theorem keeps (a : Operation) (h : ¬ a.name.chars <+: y.chars) : a.rewrite.Keeps y where
  hasBlock := by
    intro kind name part hpart body other hblock
    obtain ⟨-, ⟨first, rfl⟩ | ⟨n, rfl⟩⟩ := block_cases hpart
    · cases first with
      | true => exact .inl hblock
      | false => exact .inr hblock
    · dsimp only at hblock
      split at hblock
      · exact .inl (hasBlock_copies (fun i n => numbered_eq_iff h i) n hblock)
      · exact .inr hblock
  unnested := by
    intro kind name part hpart body other hbody hother
    obtain ⟨-, ⟨first, rfl⟩ | ⟨n, rfl⟩⟩ := block_cases hpart
    · cases first with
      | true => exact hbody
      | false => exact hother
    · dsimp only
      split
      · exact unnested_copies (fun i => unnested_rename (fun n _ => numbered_eq_iff h i) hbody) n
      · exact hother

end Block

section Copies

variable {x y : TagName}

theorem rename_copies {f : TagName → TagName} (h : ∀ i n, f (y.numbered i n) = y.numbered i (f n))
    (k : Nat) (body : Markup) : (copies y k body).rename f = copies y k (body.rename f) := by
  rw [copies, copies]
  induction List.range k with
  | nil => rfl
  | cons i is ih =>
      have hcomm : f ∘ y.numbered i = y.numbered i ∘ f := funext (h i)
      rw [List.foldr_cons, List.foldr_cons, rename_append, ih, rename_rename, rename_rename, hcomm]

theorem rewrite_copies {w : Rewrite} (h : ∀ i, w.Ignores (x.numbered i)) (k : Nat) (body : Markup) :
    (copies x k body).rewrite w = copies x k (body.rewrite w) := by
  rw [copies, copies]
  induction List.range k with
  | nil => rfl
  | cons i is ih => rw [List.foldr_cons, List.foldr_cons, rewrite_append, ih, rewrite_rename (h i)]

end Copies

/-- The tags of a loop may be numbered before or after an operation on another name. -/
theorem ignores (a : Operation) {x : TagName} (h : Incomparable x a.name) (i : Nat) :
    a.rewrite.Ignores (x.numbered i) where
  var := by
    intro n
    cases a with
    | setVariable name value => exact if_congr (numbered_eq_iff h.1 i) rfl rfl
    | setCondition name value => rfl
    | loop name repetitions => rfl
  block := by
    intro kind n
    cases a with
    | setVariable name value => rfl
    | setCondition name value =>
        cases kind with
        | ifBlock => exact if_congr (numbered_eq_iff h.1 i) rfl rfl
        | ifnotBlock => exact if_congr (numbered_eq_iff h.1 i) rfl rfl
        | loopBlock => rfl
    | loop name repetitions =>
        exact if_congr (and_congr_right fun _ => numbered_eq_iff h.1 i) rfl rfl
  part := by
    intro kind n part hpart body other
    obtain ⟨-, ⟨first, rfl⟩ | ⟨k, rfl⟩⟩ := block_cases hpart
    · cases first <;> rfl
    · dsimp only
      split
      · exact rename_copies (fun j n => numbered_comm h i j n) k body
      · rfl

/-- What an operation puts in the place of a block may be rewritten before or after. -/
theorem part_rewrite {a b : Operation} (h : Incomparable a.name b.name) {kind : BlockKind}
    {name : TagName} {part : Markup → Markup → Markup}
    (hpart : a.rewrite.block kind name = some part) (body other : Markup) :
    (part body other).rewrite b.rewrite =
      part (body.rewrite b.rewrite) (other.rewrite b.rewrite) := by
  obtain ⟨-, ⟨first, rfl⟩ | ⟨k, rfl⟩⟩ := block_cases hpart
  · cases first <;> rfl
  · dsimp only
    split
    · exact rewrite_copies (fun i => b.ignores h i) k body
    · rfl

/-- Operations on names that have nothing to do with each other are independent. -/
theorem independent {a b : Operation} (h : Incomparable a.name b.name) :
    a.rewrite.Independent b.rewrite where
  var := by
    intro name
    by_contra hboth
    obtain ⟨ha, hb⟩ := not_or.mp hboth
    obtain ⟨c, hc⟩ := Option.ne_none_iff_exists'.mp ha
    obtain ⟨d, hd⟩ := Option.ne_none_iff_exists'.mp hb
    exact h.ne ((var_cases hc).symm.trans (var_cases hd))
  block := by
    intro kind name
    by_contra hboth
    obtain ⟨ha, hb⟩ := not_or.mp hboth
    obtain ⟨p, hp⟩ := Option.ne_none_iff_exists'.mp ha
    obtain ⟨q, hq⟩ := Option.ne_none_iff_exists'.mp hb
    exact h.ne ((block_cases hp).1.symm.trans (block_cases hq).1)
  left := part_rewrite h
  right := part_rewrite h.symm

/-- One operation after the other. -/
theorem run_both {a b : Operation} (h : Incomparable a.name b.name) {t : Markup}
    (ha : Unnested a.name t) (hb : Unnested b.name t) :
    ∃ fuel, (a.run fuel t.render).bind (b.run fuel) =
      some ((t.rewrite a.rewrite).rewrite b.rewrite).render := by
  obtain ⟨n, hn⟩ := a.run_render ha
  obtain ⟨m, hm⟩ := b.run_render (unnested_rewrite (a.keeps h.1) hb)
  refine ⟨max n m, ?_⟩
  rw [a.run_mono (Nat.le_max_left n m) hn]
  exact b.run_mono (Nat.le_max_right n m) hm

theorem run_both_mono {a b : Operation} {n m : Nat} (hnm : n ≤ m) {text s : QString}
    (h : (a.run n text).bind (b.run n) = some s) : (a.run m text).bind (b.run m) = some s := by
  obtain ⟨text', ha, hb⟩ := Option.bind_eq_some_iff.mp h
  rw [a.run_mono hnm ha]
  exact b.run_mono hnm hb

/-- **Commutation.** Two operations on names neither of which begins with the other one give the
same text in either order. -/
theorem run_comm {a b : Operation} (h : Incomparable a.name b.name) {t : Markup}
    (ha : Unnested a.name t) (hb : Unnested b.name t) :
    ∃ fuel s, (a.run fuel t.render).bind (b.run fuel) = some s ∧
      (b.run fuel t.render).bind (a.run fuel) = some s := by
  obtain ⟨n, hn⟩ := run_both h ha hb
  obtain ⟨m, hm⟩ := run_both h.symm hb ha
  rw [← rewrite_comm (independent h)] at hm
  exact ⟨max n m, _, run_both_mono (Nat.le_max_left n m) hn,
    run_both_mono (Nat.le_max_right n m) hm⟩

/-- A loop with a condition and a variable inside. -/
theorem run_comm_nested : ∃ fuel s,
    ((Operation.setCondition (.ofText (ofAscii "c")) true).run fuel
        (ofAscii "\x7bloop x\x7d\x7bif c\x7d\x7bx.v\x7d\x7bend c\x7d\x7bend x\x7d")).bind
      ((Operation.loop (.ofText (ofAscii "x")) 2).run fuel) = some s ∧
    ((Operation.loop (.ofText (ofAscii "x")) 2).run fuel
        (ofAscii "\x7bloop x\x7d\x7bif c\x7d\x7bx.v\x7d\x7bend c\x7d\x7bend x\x7d")).bind
      ((Operation.setCondition (.ofText (ofAscii "c")) true).run fuel) = some s := by
  let c := TagName.ofText (ofAscii "c")
  let x := TagName.ofText (ofAscii "x")
  let t := block .loopBlock x
      (.block .ifBlock c (.var (.ofText (ofAscii "x.v")) .empty) .empty) .empty
  have hne : c ≠ x := by decide
  have hc : Unnested c t := by simp [t, Unnested, HasBlock, hne.symm]
  have hx : Unnested x t := by simp [t, Unnested, HasBlock, hne]
  have hnames : Incomparable c x := ⟨by decide, by decide⟩
  exact run_comm (a := .setCondition c true) (b := .loop x 2) hnames hc hx
end Operation

end Template

end QtWebApp
