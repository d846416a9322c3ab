import QtWebApp.Base.Bytes

/-!
# QtWebApp.Base.Path

File names and what they mean without looking at the file system.

A name is cut at its slashes into segments; resolving it walks down for every segment, up for
`..`, and stays for `.` and for an empty segment. A name is inside a directory when its
walk goes through that directory. The text of one name may be appended to another without a
slash between them, and then two segments become one (`segments_append`).
-/

namespace QtWebApp

open Bytes

namespace Path

/-! ### Segments

There is always a first segment, and it may be empty: a text without a slash is one segment. -/

/-- The first segment of a name, and the others. -/
def cut : Bytes → Bytes × List Bytes
  | [] => ([], [])
  | c :: cs => if c = 47 then ([], (cut cs).1 :: (cut cs).2) else (c :: (cut cs).1, (cut cs).2)

/-- The first segment of a name. -/
def first (name : Bytes) : Bytes := (cut name).1

/-- The segments behind the first one. -/
def others (name : Bytes) : List Bytes := (cut name).2

/-- All segments of a name. -/
def segments (name : Bytes) : List Bytes := first name :: others name

/-- The last segment of a name. -/
def last (name : Bytes) : Bytes := (segments name).getLast (List.cons_ne_nil _ _)

/-- The segments before the last one. -/
def before (name : Bytes) : List Bytes := (segments name).dropLast

theorem segments_eq (name : Bytes) : segments name = before name ++ [last name] :=
  (List.dropLast_concat_getLast _).symm

/-- The two parts of a name from its segments. -/
theorem parts_of_segments {name : Bytes} {init : List Bytes} {l : Bytes}
    (h : segments name = init ++ [l]) : before name = init ∧ last name = l := by
  have heq := (segments_eq name).symm.trans h
  obtain ⟨hinit, hlast⟩ := List.append_inj' heq rfl
  exact ⟨hinit, List.head_eq_of_cons_eq hlast⟩

/-- A slash ends an empty segment. -/
theorem segments_slash {c : UInt8} (hc : c = 47) (t : Bytes) :
    segments (c :: t) = [] :: segments t := by
  have hcut : cut (c :: t) = ([], (cut t).1 :: (cut t).2) := if_pos hc
  rw [segments, first, others, hcut]
  rfl

/-- Any other byte belongs to the first segment. -/
theorem segments_byte {c : UInt8} (hc : c ≠ 47) (t : Bytes) :
    segments (c :: t) = (c :: first t) :: others t := by
  have hcut : cut (c :: t) = (c :: (cut t).1, (cut t).2) := if_neg hc
  rw [segments, first, others, hcut]
  rfl

/-- Appending a text: the last segment and the first one become one. -/
theorem segments_append (a b : Bytes) :
    segments (a ++ b) = before a ++ (last a ++ first b) :: others b := by
  induction a with
  | nil => rfl
  | cons c a ih =>
      have hseg := segments_eq a
      by_cases hc : c = 47
      · -- a slash starts a new segment
        have hparts : segments (c :: a) = ([] :: before a) ++ [last a] := by
          rw [segments_slash hc, hseg, List.cons_append]
        obtain ⟨hbefore, hlast⟩ := parts_of_segments hparts
        rw [List.cons_append, segments_slash hc, ih, hbefore, hlast, List.cons_append]
      · -- any other byte goes to the first segment, which may be the last one
        have hcons := segments_byte hc a
        rw [List.cons_append, segments_byte hc]
        rcases List.eq_nil_or_concat (others a) with hnil | ⟨init, l, hothers⟩
        · obtain ⟨hbefore, hlast⟩ := parts_of_segments
              (hcons.trans (by rw [hnil]; exact (List.nil_append _).symm))
          have hone : segments a = [] ++ [first a] := by rw [segments, hnil]; rfl
          obtain ⟨hbefore', hlast'⟩ := parts_of_segments hone
          rw [hbefore', hlast', segments, List.nil_append] at ih
          obtain ⟨hfirst, hothers⟩ := List.cons.inj ih
          rw [hbefore, hlast, hfirst, hothers]
          rfl
        · rw [List.concat_eq_append] at hothers
          rw [hothers, ← List.cons_append] at hcons
          obtain ⟨hbefore, hlast⟩ := parts_of_segments hcons
          have hmany : segments a = (first a :: init) ++ [l] := by
            rw [segments, hothers, List.cons_append]
          obtain ⟨hbefore', hlast'⟩ := parts_of_segments hmany
          rw [hbefore', hlast', segments, List.cons_append] at ih
          obtain ⟨hfirst, hothers'⟩ := List.cons.inj ih
          rw [hbefore, hlast, hfirst, hothers', List.cons_append]

/-- Behind a slash stands a segment. -/
theorem infix_of_mem_others {name s : Bytes} (hs : s ∈ others name) : 47 :: s <:+: name := by
  have hfirst : ∀ name : Bytes, first name <+: name := by
    intro name
    induction name with
    | nil => exact List.prefix_refl _
    | cons c name ih =>
        unfold first cut
        split
        · exact List.nil_prefix
        · exact List.cons_prefix_cons.mpr ⟨rfl, ih⟩
  induction name with
  | nil => cases hs
  | cons c name ih =>
      unfold others cut at hs
      split at hs
      · next hc =>
          subst hc
          rcases List.mem_cons.mp hs with rfl | hmem
          · exact (List.cons_prefix_cons.mpr ⟨rfl, hfirst name⟩).isInfix
          · exact (ih hmem).trans (List.suffix_cons _ _).isInfix
      · exact (ih hs).trans (List.suffix_cons _ _).isInfix

/-! ### Resolving

Above the root there is nothing: going up there stays there. -/

/-- The segments that do not name anything by themselves. -/
def special : List Bytes := [[], ascii ".", ascii ".."]

/-- What a special segment begins with is one too. -/
theorem special_of_beginning {x y : Bytes} (hx : x ∈ special) (hy : y <+: x) : y ∈ special := by
  have htake : y = x.take y.length := List.prefix_iff_eq_take.mp hy
  have hall : ∀ x ∈ special, ∀ n ≤ x.length, x.take n ∈ special := by decide
  rw [htake]
  exact hall x hx y.length hy.length_le

/-- One step of the walk. -/
def step (dirs : List Bytes) (s : Bytes) : List Bytes :=
  if s = ascii ".." then dirs.dropLast else if s ∈ special then dirs else dirs ++ [s]

/-- The directories and the file that a name leads through. -/
def resolve (name : Bytes) : List Bytes := (segments name).foldl step []

/-- The name leads into the directory. -/
def Inside (root name : Bytes) : Prop := resolve root <+: resolve name

instance (root name : Bytes) : Decidable (Inside root name) := by unfold Inside; infer_instance

/-- The segments that are walked down. -/
def named (ss : List Bytes) : List Bytes := ss.filter fun s => s ∉ special

/-- A walk that never goes up. -/
theorem foldl_step_down {ss : List Bytes} (h : ∀ s ∈ ss, s ≠ ascii "..") (dirs : List Bytes) :
    ss.foldl step dirs = dirs ++ named ss := by
  induction ss generalizing dirs with
  | nil => exact (List.append_nil dirs).symm
  | cons s ss ih =>
      have hs := h s List.mem_cons_self
      have hrest := ih fun t ht => h t (List.mem_cons_of_mem s ht)
      rw [List.foldl_cons, hrest, step, if_neg hs]
      by_cases hspecial : s ∈ special
      · simp [named, hspecial]
      · simp [named, hspecial]

/-- The walk of a name up to its last segment. -/
def parents (name : Bytes) : List Bytes := (before name).foldl step []

theorem resolve_eq (name : Bytes) : resolve name = step (parents name) (last name) := by
  rw [resolve, segments_eq, List.foldl_append]
  rfl

/-- Where an appended text leads, when it does not go up behind its first segment. -/
theorem resolve_append {root name : Bytes} (h : ∀ s ∈ others name, s ≠ ascii "..") :
    resolve (root ++ name) = step (parents root) (last root ++ first name) ++ named
      (others name) := by
  rw [resolve, segments_append, List.foldl_append, List.foldl_cons, foldl_step_down h]
  rfl

/-- When a text is appended to the name of a directory: it begins with a slash, or the directory
ends with a segment that is not a name; and where the two together make `..`, the directory is
the topmost one or the text leads down into it again. -/
def Joins (root name : Bytes) : Prop :=
  first name = [] ∨ (last root ∈ special ∧ (last root ++ first name = ascii ".." →
    resolve root = [] ∨ (named (others name)).head? = (resolve root).getLast?))

instance (root name : Bytes) : Decidable (Joins root name) := by unfold Joins; infer_instance

/-- Up and down again: the walk ends where it was when the next step leads back. -/
theorem prefix_dropLast_append {dirs down : List Bytes} :
    dirs <+: dirs.dropLast ++ down ↔ dirs = [] ∨ down.head? = dirs.getLast? := by
  rcases List.eq_nil_or_concat dirs with rfl | ⟨up, d, rfl⟩
  · exact ⟨fun _ => .inl rfl, fun _ => List.nil_prefix⟩
  · have hne : up ++ [d] ≠ [] := List.append_ne_nil_of_right_ne_nil up (List.cons_ne_nil d [])
    rw [List.concat_eq_append, List.dropLast_concat, List.prefix_append_right_inj,
      List.getLast?_concat, or_iff_right hne]
    cases down with
    | nil => exact ⟨fun h => (List.cons_ne_nil d [] (List.prefix_nil.mp h)).elim,
        fun h => nomatch h⟩
    | cons e down =>
        rw [List.cons_prefix_cons, List.head?_cons, Option.some_inj]
        exact ⟨fun h => h.1.symm, fun h => ⟨h.symm, List.nil_prefix⟩⟩

/-- **A text that is appended to the name of a directory leads into it** exactly when it joins. -/
theorem inside_append_iff {root name : Bytes} (h : ∀ s ∈ others name, s ≠ ascii "..") :
    Inside root (root ++ name) ↔ Joins root name := by
  unfold Inside Joins
  rw [resolve_append h]
  by_cases hslash : first name = []
  · rw [hslash, List.append_nil, ← resolve_eq]
    exact ⟨fun _ => .inl rfl, fun _ => List.prefix_append _ _⟩
  · simp only [hslash, false_or]
    by_cases hspecial : last root ∈ special
    · simp only [hspecial, true_and]
      by_cases hup : last root ++ first name = ascii ".."
      · -- the two segments together go up
        have hstay : resolve root = parents root := by
          have hcases : last root ≠ ascii ".." := by
            intro hl
            rw [hl] at hup
            exact hslash (List.append_cancel_left (hup.trans (List.append_nil _).symm))
          rw [resolve_eq, step, if_neg hcases, if_pos hspecial]
        simp only [hup, true_implies]
        rw [hstay, step, if_pos rfl, prefix_dropLast_append]
      · simp only [hup, false_implies, iff_true]
        have hprefix : resolve root <+: parents root := by
          rw [resolve_eq, step]
          split
          · exact List.dropLast_prefix _
          · exact List.prefix_refl _
        refine hprefix.trans ?_
        have hdown : parents root <+: step (parents root) (last root ++ first name) := by
          rw [step, if_neg hup]
          split
          · exact List.prefix_refl _
          · exact List.prefix_append _ _
        exact hdown.trans (List.prefix_append _ _)
    · -- the last directory has got another name
      simp only [hspecial, false_and, iff_false]
      have hnormal : last root ++ first name ∉ special ∧ last root ++ first name ≠ ascii ".." := by
        have hne : last root ≠ [] := fun he => hspecial (by simp [he, special])
        have hdots : ∀ x : Bytes, x ∈ special → last root ++ first name ≠ x := by
          intro x hx heq
          have hlast : last root <+: x := ⟨_, heq⟩
          exact hspecial (special_of_beginning hx hlast)
        exact ⟨fun hmem => hdots _ hmem rfl, hdots _ (by decide)⟩
      have hroot : resolve root = parents root ++ [last root] := by
        have hup : last root ≠ ascii ".." := fun he => hspecial (he ▸ by decide)
        rw [resolve_eq, step, if_neg hup, if_neg hspecial]
      rw [hroot, step, if_neg hnormal.2, if_neg hnormal.1, List.append_assoc,
        List.prefix_append_right_inj]
      intro hprefix
      have hsame := (List.cons_prefix_cons.mp hprefix).1
      exact hslash (List.append_cancel_left (hsame.symm.trans (List.append_nil _).symm))

/-- A further segment stays inside. -/
theorem inside_child {root name child : Bytes} (h : Inside root name)
    (hchild : ∀ s ∈ others (47 :: child), s ≠ ascii "..") : Inside root (name ++ 47 :: child) := by
  refine h.trans ?_
  exact (inside_append_iff hchild).mpr (.inl (by simp [first, cut]))

end Path

end QtWebApp
