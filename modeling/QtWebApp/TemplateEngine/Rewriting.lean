import QtWebApp.TemplateEngine.Markup

/-!
# QtWebApp.TemplateEngine.Rewriting

How rewriting a template goes with appending, renaming and another rewriting.

What an operation puts in the place of a block is made of the parts of the block as they are, with
names changed at most. So it is enough to know of an operation what becomes of names
(`Rewrite.Keeps`, `Rewrite.Ignores`); the traversals are the same for all of them.

These are facts about trees. They name no search and no text, and each of them is an induction over
the tree with a case for each constructor.
-/

namespace QtWebApp

namespace Template

open QString

/-! ### Names

What numbering does to a name, and which names it leaves alone. -/

/-- Neither name begins with the other one. -/
def Incomparable (x y : TagName) : Prop := ¬ x.chars <+: y.chars ∧ ¬ y.chars <+: x.chars

theorem Incomparable.symm {x y : TagName} (h : Incomparable x y) : Incomparable y x := ⟨h.2, h.1⟩

theorem Incomparable.ne {x y : TagName} (h : Incomparable x y) : x ≠ y := by
  rintro rfl
  exact h.1 (List.prefix_refl _)

section Numbered

variable {x y n : TagName}

/-- A numbered name still begins with the name of the loop. -/
theorem prefix_numbered (h : x.chars ++ [46] <+: n.chars) (i : Nat) :
    x.chars <+: (x.numbered i n).chars := by
  obtain ⟨m, hm⟩ := h
  have hn : n.chars = x.chars ++ ([46] ++ m) := by rw [← hm, List.append_assoc]
  rw [numbered_chars hn, List.append_assoc]
  exact List.prefix_append _ _

/-- Numbering neither makes nor changes a name that does not begin with the name of the loop. -/
theorem numbered_eq_iff (h : ¬ x.chars <+: y.chars) (i : Nat) : x.numbered i n = y ↔ n = y := by
  by_cases hpre : x.chars ++ [46] <+: n.chars
  · constructor
    · rintro rfl
      exact absurd (prefix_numbered hpre i) h
    · rintro rfl
      exact absurd ((List.prefix_append _ _).trans hpre) h
  · rw [numbered_other hpre]

/-- The name of the loop is not numbered, and no other name becomes it. -/
theorem numbered_self_iff (x : TagName) (i : Nat) (n : TagName) : x.numbered i n = x ↔ n = x := by
  by_cases hpre : x.chars ++ [46] <+: n.chars
  · obtain ⟨m, hm⟩ := hpre
    have hn : n.chars = x.chars ++ ([46] ++ m) := by rw [← hm, List.append_assoc]
    constructor
    · intro heq
      have hlength := congrArg (fun y : TagName => y.chars.length) heq
      simp only [numbered_chars hn, List.length_append, List.length_singleton] at hlength
      omega
    · rintro rfl
      have hlength := congrArg List.length hn
      simp only [List.length_append, List.length_singleton] at hlength
      omega
  · rw [numbered_other hpre]

/-- What was numbered, and how, can be read from the numbered name. -/
theorem numbered_inj {i j : Nat} (hn : x.chars ++ [46] <+: n.chars)
    (hy : x.chars ++ [46] <+: y.chars) (heq : x.numbered i n = x.numbered j y) : i = j ∧ n = y := by
  obtain ⟨m, hm⟩ := hn
  obtain ⟨m', hm'⟩ := hy
  have hn : n.chars = x.chars ++ ([46] ++ m) := by rw [← hm, List.append_assoc]
  have hy : y.chars = x.chars ++ ([46] ++ m') := by rw [← hm', List.append_assoc]
  have hdot : ∀ k, (46 : UInt16) ∉ number k :=
    fun k hmem => absurd (number_digit k 46 hmem).1 (by decide)
  have hchars := congrArg TagName.chars heq
  rw [numbered_chars hn, numbered_chars hy, List.append_assoc, List.append_assoc,
    List.append_cancel_left_eq] at hchars
  have hpre : number i ++ [46] <+: number j ++ 46 :: m' := by
    refine ⟨m, ?_⟩
    rw [List.append_assoc]
    exact hchars
  have hnumber := (Search.prefix_delimited (hdot i) (hdot j)).mp hpre
  rw [hnumber, List.append_cancel_left_eq, List.append_cancel_left_eq] at hchars
  refine ⟨number_injective hnumber, ?_⟩
  obtain ⟨nchars, nplain⟩ := n
  obtain ⟨ychars, yplain⟩ := y
  rw [TagName.mk.injEq]
  exact hn.trans (by rw [hchars]; exact hy.symm)

/-- A name begins with one of two names at most. -/
theorem Incomparable.elim (h : Incomparable x y) (hx : x.chars <+: n.chars)
    (hy : y.chars <+: n.chars) :
    False := by
  rcases List.prefix_or_prefix_of_prefix hx hy with hxy | hyx
  · exact h.1 hxy
  · exact h.2 hyx

/-- Two loops that have nothing to do with each other number in any order. -/
theorem numbered_comm (h : Incomparable x y) (i j : Nat) (n : TagName) :
    x.numbered i (y.numbered j n) = y.numbered j (x.numbered i n) := by
  by_cases hx : x.chars ++ [46] <+: n.chars
  · -- the name is not one of the loop `y`, before and after
    have hxn := (List.prefix_append _ _).trans hx
    have hy : ¬ y.chars ++ [46] <+: n.chars :=
      fun hy => h.elim hxn ((List.prefix_append _ _).trans hy)
    have hy' : ¬ y.chars ++ [46] <+: (x.numbered i n).chars :=
      fun hy => h.elim (prefix_numbered hx i) ((List.prefix_append _ _).trans hy)
    rw [numbered_other hy, numbered_other hy']
  · rw [numbered_other hx]
    by_cases hy : y.chars ++ [46] <+: n.chars
    · have hx' : ¬ x.chars ++ [46] <+: (y.numbered j n).chars :=
        fun hx => h.elim ((List.prefix_append _ _).trans hx) (prefix_numbered hy j)
      rw [numbered_other hx']
    · rw [numbered_other hy, numbered_other hx]

end Numbered

namespace Markup

/-! ### Appending

A traversal goes through both parts. -/

theorem append_assoc (s t u : Markup) : (s.append t).append u = s.append (t.append u) := by
  induction s with
  | empty => rfl
  | text c rest ih => rw [append, append, append, ih]
  | var name rest ih => rw [append, append, append, ih]
  | block kind name body rest _ ih => rw [append, append, append, ih]
  | blockElse kind name body other rest _ _ ih => rw [append, append, append, ih]

/-- A rewriting goes through both parts. -/
theorem rewrite_append (w : Rewrite) (s t : Markup) :
    (s.append t).rewrite w = (s.rewrite w).append (t.rewrite w) := by
  induction s with
  | empty => rfl
  | text c rest ih => rw [append, rewrite, rewrite, append, ih]
  | var name rest ih =>
      rw [append]
      cases hvar : w.var name with
      | none => rw [rewrite_var_none hvar, rewrite_var_none hvar, append, ih]
      | some c => rw [rewrite_var_some hvar, rewrite_var_some hvar, append, ih]
  | block kind name body rest _ ih =>
      rw [append]
      cases hpart : w.block kind name with
      | none => rw [rewrite_block_none hpart, rewrite_block_none hpart, append, ih]
      | some part => rw [rewrite_block_some hpart, rewrite_block_some hpart, append_assoc, ih]
  | blockElse kind name body other rest _ _ ih =>
      rw [append]
      cases hpart : w.block kind name with
      | none => rw [rewrite_blockElse_none hpart, rewrite_blockElse_none hpart, append, ih]
      | some part => rw [rewrite_blockElse_some hpart, rewrite_blockElse_some hpart,
          append_assoc, ih]

theorem rename_append (f : TagName → TagName) (s t : Markup) :
    (s.append t).rename f = (s.rename f).append (t.rename f) := by
  induction s with
  | empty => rfl
  | text c rest ih => rw [append, rename, rename, append, ih]
  | var name rest ih => rw [append, rename, rename, append, ih]
  | block kind name body rest _ ih => rw [append, rename, rename, append, ih]
  | blockElse kind name body other rest _ _ ih => rw [append, rename, rename, append, ih]

theorem hasBlock_append (x : TagName) (s t : Markup) :
    HasBlock x (s.append t) ↔ HasBlock x s ∨ HasBlock x t := by
  induction s with
  | empty => simp [append, HasBlock]
  | text c rest ih => exact ih
  | var name rest ih => exact ih
  | block kind name body rest _ ih => simp [append, HasBlock, ih, or_assoc]
  | blockElse kind name body other rest _ _ ih => simp [append, HasBlock, ih, or_assoc]

theorem unnested_append (x : TagName) (s t : Markup) :
    Unnested x (s.append t) ↔ Unnested x s ∧ Unnested x t := by
  induction s with
  | empty => simp [append, Unnested]
  | text c rest ih => exact ih
  | var name rest ih => exact ih
  | block kind name body rest _ ih => simp [append, Unnested, ih, and_assoc]
  | blockElse kind name body other rest _ _ ih => simp [append, Unnested, ih, and_assoc]

/-- Without a block of a name there is none inside another one. -/
theorem unnested_of_none {x : TagName} {t : Markup} (h : ¬ HasBlock x t) : Unnested x t := by
  induction t with
  | empty => trivial
  | text c rest ih => exact ih h
  | var name rest ih => exact ih h
  | block kind name body rest ihbody ihrest =>
      simp only [HasBlock, not_or] at h
      exact ⟨fun _ => h.2.1, ihbody h.2.1, ihrest h.2.2⟩
  | blockElse kind name body other rest ihbody ihother ihrest =>
      simp only [HasBlock, not_or] at h
      exact ⟨fun _ => ⟨h.2.1, h.2.2.1⟩, ihbody h.2.1, ihother h.2.2.1, ihrest h.2.2.2⟩

/-! ### Renaming

Renaming moves blocks from one name to another, and so it may make a block nested that was not.
Numbering does not. -/

/-- Renaming twice. -/
theorem rename_rename (f g : TagName → TagName) (t : Markup) :
    (t.rename f).rename g = t.rename (g ∘ f) := by
  induction t with
  | empty => rfl
  | text c rest ih => rw [rename, rename, rename, ih]
  | var name rest ih => rw [rename, rename, rename, ih]; rfl
  | block kind name body rest ihbody ihrest => rw [rename, rename, rename, ihbody, ihrest]; rfl
  | blockElse kind name body other rest ihbody ihother ihrest =>
      rw [rename, rename, rename, ihbody, ihother, ihrest]
      rfl

theorem exists_of_hasBlock_rename {f : TagName → TagName} {y : TagName} {t : Markup}
    (h : HasBlock y (t.rename f)) : ∃ n, HasBlock n t ∧ f n = y := by
  induction t with
  | empty => exact h.elim
  | text c rest ih => exact ih h
  | var name rest ih => exact ih h
  | block kind name body rest ihbody ihrest =>
      rcases h with h | h | h
      · exact ⟨name, .inl rfl, h⟩
      · obtain ⟨n, hn, heq⟩ := ihbody h
        exact ⟨n, .inr (.inl hn), heq⟩
      · obtain ⟨n, hn, heq⟩ := ihrest h
        exact ⟨n, .inr (.inr hn), heq⟩
  | blockElse kind name body other rest ihbody ihother ihrest =>
      rcases h with h | h | h | h
      · exact ⟨name, .inl rfl, h⟩
      · obtain ⟨n, hn, heq⟩ := ihbody h
        exact ⟨n, .inr (.inl hn), heq⟩
      · obtain ⟨n, hn, heq⟩ := ihother h
        exact ⟨n, .inr (.inr (.inl hn)), heq⟩
      · obtain ⟨n, hn, heq⟩ := ihrest h
        exact ⟨n, .inr (.inr (.inr hn)), heq⟩

section Renamed

variable {f : TagName → TagName} {x y : TagName}

/-- The blocks `y` are those that were blocks `x`. -/
theorem hasBlock_rename_iff {t : Markup} (h : ∀ n, HasBlock n t → (f n = y ↔ n = x)) :
    HasBlock y (t.rename f) ↔ HasBlock x t := by
  induction t with
  | empty => exact Iff.rfl
  | text c rest ih => exact ih h
  | var name rest ih => exact ih h
  | block kind name body rest ihbody ihrest =>
      exact or_congr (h name (.inl rfl)) (or_congr (ihbody fun n hn => h n (.inr (.inl hn)))
        (ihrest fun n hn => h n (.inr (.inr hn))))
  | blockElse kind name body other rest ihbody ihother ihrest =>
      exact or_congr (h name (.inl rfl)) (or_congr (ihbody fun n hn => h n (.inr (.inl hn)))
        (or_congr (ihother fun n hn => h n (.inr (.inr (.inl hn))))
          (ihrest fun n hn => h n (.inr (.inr (.inr hn))))))

/-- Renaming nests nothing. -/
theorem unnested_rename {t : Markup} (h : ∀ n, HasBlock n t → (f n = y ↔ n = x))
    (ht : Unnested x t) : Unnested y (t.rename f) := by
  induction t with
  | empty => trivial
  | text c rest ih => exact ih h ht
  | var name rest ih => exact ih h ht
  | block kind name body rest ihbody ihrest =>
      have hbody : ∀ n, HasBlock n body → (f n = y ↔ n = x) := fun n hn => h n (.inr (.inl hn))
      refine ⟨fun hname => ?_, ihbody hbody ht.2.1,
        ihrest (fun n hn => h n (.inr (.inr hn))) ht.2.2⟩
      rw [hasBlock_rename_iff hbody]
      exact ht.1 ((h name (.inl rfl)).mp hname)
  | blockElse kind name body other rest ihbody ihother ihrest =>
      have hbody : ∀ n, HasBlock n body → (f n = y ↔ n = x) := fun n hn => h n (.inr (.inl hn))
      have hother : ∀ n, HasBlock n other → (f n = y ↔ n = x) :=
        fun n hn => h n (.inr (.inr (.inl hn)))
      refine ⟨fun hname => ?_, ihbody hbody ht.2.1, ihother hother ht.2.2.1,
        ihrest (fun n hn => h n (.inr (.inr (.inr hn)))) ht.2.2.2⟩
      rw [hasBlock_rename_iff hbody, hasBlock_rename_iff hother]
      exact ht.1 ((h name (.inl rfl)).mp hname)

end Renamed

section Copies

variable {x y : TagName} {body : Markup}

/-- The blocks `y` of the body are those with the numbered name in one copy, and there are none with
this name in the other copies. -/
theorem unnested_numbered (hy : x.chars ++ [46] <+: y.chars) (i j : Nat) (h : Unnested y body)
    (hnone : ¬ HasBlock (x.numbered i y) body) :
    Unnested (x.numbered i y) (body.rename (x.numbered j)) := by
  have hother : ∀ n, HasBlock n body → ¬ x.chars ++ [46] <+: n.chars →
      x.numbered j n ≠ x.numbered i y := by
    intro n hn hpre heq
    rw [numbered_other hpre] at heq
    exact hnone (heq ▸ hn)
  by_cases hij : i = j
  · subst hij
    refine unnested_rename (fun n hn => ⟨fun heq => ?_, fun heq => by rw [heq]⟩) h
    by_cases hpre : x.chars ++ [46] <+: n.chars
    · exact (numbered_inj hpre hy heq).2
    · exact absurd heq (hother n hn hpre)
  · refine unnested_of_none fun hblock => ?_
    obtain ⟨n, hn, heq⟩ := exists_of_hasBlock_rename hblock
    by_cases hpre : x.chars ++ [46] <+: n.chars
    · exact hij (numbered_inj hpre hy heq).1.symm
    · exact hother n hn hpre heq

theorem hasBlock_copies (h : ∀ i n, x.numbered i n = y ↔ n = y) (k : Nat)
    (hblock : HasBlock y (copies x k body)) : HasBlock y body := by
  rw [copies] at hblock
  revert hblock
  induction List.range k with
  | nil => exact False.elim
  | cons i is ih =>
      rw [List.foldr_cons, hasBlock_append, hasBlock_rename_iff fun n _ => h i n]
      exact fun hblock => hblock.elim id ih

/-- Copies nest nothing. -/
theorem unnested_copies (h : ∀ i, Unnested y (body.rename (x.numbered i))) (k : Nat) :
    Unnested y (copies x k body) := by
  rw [copies]
  induction List.range k with
  | nil => trivial
  | cons i is ih =>
      rw [List.foldr_cons, unnested_append]
      exact ⟨h i, ih⟩

end Copies

/-! ### What a rewriting keeps

After a rewriting there are no blocks of a name that were not there before. -/

/-- What is put in the place of blocks has a block of a name, or one inside another one, only if a
part of the block has. -/
structure Rewrite.Keeps (w : Rewrite) (y : TagName) : Prop where
  hasBlock : ∀ {kind name part}, w.block kind name = some part → ∀ {body other},
    HasBlock y (part body other) → HasBlock y body ∨ HasBlock y other
  unnested : ∀ {kind name part}, w.block kind name = some part → ∀ {body other},
    Unnested y body → Unnested y other → Unnested y (part body other)

section Keeps

variable {w : Rewrite} {y : TagName} {t : Markup}

/-- A rewriting makes no new blocks of such a name. -/
theorem hasBlock_rewrite (hw : w.Keeps y) (h : HasBlock y (t.rewrite w)) : HasBlock y t := by
  induction t with
  | empty => exact h
  | text c rest ih => exact ih h
  | var name rest ih =>
      rw [rewrite] at h
      split at h
      · exact ih h
      · exact ih h
  | block kind name body rest ihbody ihrest =>
      cases hpart : w.block kind name with
      | none =>
          rw [rewrite_block_none hpart] at h
          exact h.imp_right fun h => h.imp ihbody ihrest
      | some part =>
          rw [rewrite_block_some hpart, hasBlock_append] at h
          rcases h with h | h
          · rcases hw.hasBlock hpart h with h | h
            · exact .inr (.inl h)
            · exact h.elim
          · exact .inr (.inr (ihrest h))
  | blockElse kind name body other rest ihbody ihother ihrest =>
      cases hpart : w.block kind name with
      | none =>
          rw [rewrite_blockElse_none hpart] at h
          exact h.imp_right fun h => h.imp ihbody fun h => h.imp ihother ihrest
      | some part =>
          rw [rewrite_blockElse_some hpart, hasBlock_append] at h
          rcases h with h | h
          · rcases hw.hasBlock hpart h with h | h
            · exact .inr (.inl h)
            · exact .inr (.inr (.inl h))
          · exact .inr (.inr (.inr (ihrest h)))

/-- And it nests none. -/
theorem unnested_rewrite (hw : w.Keeps y) (h : Unnested y t) : Unnested y (t.rewrite w) := by
  induction t with
  | empty => exact h
  | text c rest ih => exact ih h
  | var name rest ih =>
      rw [rewrite]
      split
      · exact ih h
      · exact ih h
  | block kind name body rest ihbody ihrest =>
      obtain ⟨hname, hbody, hrest⟩ := h
      cases hpart : w.block kind name with
      | none =>
          rw [rewrite_block_none hpart]
          exact ⟨fun heq hblock => hname heq (hasBlock_rewrite hw hblock),
            ihbody hbody, ihrest hrest⟩
      | some part =>
          rw [rewrite_block_some hpart, unnested_append]
          exact ⟨hw.unnested hpart hbody trivial, ihrest hrest⟩
  | blockElse kind name body other rest ihbody ihother ihrest =>
      obtain ⟨hname, hbody, hother, hrest⟩ := h
      cases hpart : w.block kind name with
      | none =>
          rw [rewrite_blockElse_none hpart]
          exact ⟨fun heq => ⟨fun hblock => (hname heq).1 (hasBlock_rewrite hw hblock),
            fun hblock => (hname heq).2 (hasBlock_rewrite hw hblock)⟩,
            ihbody hbody, ihother hother, ihrest hrest⟩
      | some part =>
          rw [rewrite_blockElse_some hpart, unnested_append]
          exact ⟨hw.unnested hpart hbody hother, ihrest hrest⟩

end Keeps

/-! ### Rewritings that do not disturb each other

Two conditions: neither sees what the other puts into the text, and the parts of a block may be
rewritten before or after it is replaced. -/

/-- Names may be changed in this way before or after. -/
structure Rewrite.Ignores (w : Rewrite) (f : TagName → TagName) : Prop where
  var : ∀ name, w.var (f name) = w.var name
  block : ∀ kind name, w.block kind (f name) = w.block kind name
  part : ∀ {kind name part}, w.block kind name = some part → ∀ body other,
    (part body other).rename f = part (body.rename f) (other.rename f)

/-- **Renaming before or after.** -/
theorem rewrite_rename {w : Rewrite} {f : TagName → TagName} (h : w.Ignores f) (t : Markup) :
    (t.rename f).rewrite w = (t.rewrite w).rename f := by
  induction t with
  | empty => rfl
  | text c rest ih => rw [rename, rewrite, rewrite, rename, ih]
  | var name rest ih =>
      rw [rename]
      cases hvar : w.var name with
      | none => rw [rewrite_var_none hvar, rewrite_var_none ((h.var name).trans hvar), rename, ih]
      | some c => rw [rewrite_var_some hvar, rewrite_var_some ((h.var name).trans hvar), rename, ih]
  | block kind name body rest ihbody ihrest =>
      rw [rename]
      cases hpart : w.block kind name with
      | none =>
          rw [rewrite_block_none hpart, rewrite_block_none
            ((h.block kind name).trans hpart), rename, ihbody, ihrest]
      | some part =>
          rw [rewrite_block_some hpart, rewrite_block_some ((h.block kind name).trans hpart),
            rename_append, h.part hpart, ihrest]
          rfl
  | blockElse kind name body other rest ihbody ihother ihrest =>
      rw [rename]
      cases hpart : w.block kind name with
      | none =>
          rw [rewrite_blockElse_none hpart, rewrite_blockElse_none
            ((h.block kind name).trans hpart), rename, ihbody, ihother, ihrest]
      | some part =>
          rw [rewrite_blockElse_some hpart, rewrite_blockElse_some
            ((h.block kind name).trans hpart), rename_append, h.part hpart, ihrest]

/-- Two rewritings with nothing to do in common. What one puts in the place of a block may be
rewritten by the other one before or after. -/
structure Rewrite.Independent (v w : Rewrite) : Prop where
  var : ∀ name, v.var name = none ∨ w.var name = none
  block : ∀ kind name, v.block kind name = none ∨ w.block kind name = none
  left : ∀ {kind name part}, v.block kind name = some part → ∀ body other,
    (part body other).rewrite w = part (body.rewrite w) (other.rewrite w)
  right : ∀ {kind name part}, w.block kind name = some part → ∀ body other,
    (part body other).rewrite v = part (body.rewrite v) (other.rewrite v)

/-- **Independent rewritings commute.** -/
theorem rewrite_comm {v w : Rewrite} (h : v.Independent w) (t : Markup) :
    (t.rewrite v).rewrite w = (t.rewrite w).rewrite v := by
  induction t with
  | empty => rfl
  | text c rest ih => rw [rewrite, rewrite, rewrite, rewrite, ih]
  | var name rest ih =>
      cases hv : v.var name with
      | some c =>
          have hw : w.var name = none := (h.var name).resolve_left (by simp [hv])
          rw [rewrite_var_some hv, rewrite_var_none hw, rewrite_var_some hv, rewrite, ih]
      | none =>
          rw [rewrite_var_none hv]
          cases hw : w.var name with
          | none => rw [rewrite_var_none hw, rewrite_var_none hw, rewrite_var_none hv, ih]
          | some c => rw [rewrite_var_some hw, rewrite_var_some hw, rewrite, ih]
  | block kind name body rest ihbody ihrest =>
      cases hv : v.block kind name with
      | some part =>
          have hw : w.block kind name = none := (h.block kind name).resolve_left (by simp [hv])
          rw [rewrite_block_some hv, rewrite_block_none hw, rewrite_block_some hv, rewrite_append,
            h.left hv, ihrest]
          rfl
      | none =>
          rw [rewrite_block_none hv]
          cases hw : w.block kind name with
          | none =>
              rw [rewrite_block_none hw, rewrite_block_none hw,
                rewrite_block_none hv, ihbody, ihrest]
          | some part =>
              rw [rewrite_block_some hw, rewrite_block_some hw, rewrite_append, h.right hw, ihrest]
              rfl
  | blockElse kind name body other rest ihbody ihother ihrest =>
      cases hv : v.block kind name with
      | some part =>
          have hw : w.block kind name = none := (h.block kind name).resolve_left (by simp [hv])
          rw [rewrite_blockElse_some hv, rewrite_blockElse_none hw, rewrite_blockElse_some hv,
            rewrite_append, h.left hv, ihrest]
      | none =>
          rw [rewrite_blockElse_none hv]
          cases hw : w.block kind name with
          | none =>
              rw [rewrite_blockElse_none hw, rewrite_blockElse_none hw, rewrite_blockElse_none hv,
                ihbody, ihother, ihrest]
          | some part =>
              rw [rewrite_blockElse_some hw, rewrite_blockElse_some hw, rewrite_append, h.right hw,
                ihrest]

end Markup

end Template

end QtWebApp
