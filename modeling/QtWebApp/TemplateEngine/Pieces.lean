import QtWebApp.TemplateEngine.Markup

/-!
# QtWebApp.TemplateEngine.Pieces

The text of a template as a sequence of pieces, and what a search finds in it.

A tag is recognised by its opening brace and what follows it. The words of the tags end with a
blank, which no name has, so a tag with another word or another name is never taken for the one that
is searched, and neither is a tag whose name only begins in the same way.

Numbering the tags of a copy is a replacement of text in the source, word by word. On pieces it is a
map over the names, since one replacement never makes something that another one would find.
-/

namespace QtWebApp

namespace Template

open QString Search

/-! ### Words

The words `if`, `ifnot`, `else`, `end`, `loop`, and the empty one of a variable. -/

/-- The words that tags begin with. -/
inductive TagWord
  | var
  | ifStart
  | ifnotStart
  | ellse
  | stop
  | loopStart
  deriving DecidableEq, Repr

/-- The text of a word. -/
def TagWord.chars : TagWord → QString
  | .var => []
  | .ifStart => ofAscii "if "
  | .ifnotStart => ofAscii "ifnot "
  | .ellse => ofAscii "else "
  | .stop => ofAscii "end "
  | .loopStart => ofAscii "loop "

/-- The word of a start tag. -/
def BlockKind.start : BlockKind → TagWord
  | .ifBlock => .ifStart
  | .ifnotBlock => .ifnotStart
  | .loopBlock => .loopStart

theorem BlockKind.start_chars (kind : BlockKind) : kind.start.chars = kind.word := by
  cases kind <;> rfl

/-- A letter, which a word is made of before its blank. -/
def Letter (c : UInt16) : Prop := c ≠ 123 ∧ c ≠ 125 ∧ c ≠ 32 ∧ c ≠ 46

instance (c : UInt16) : Decidable (Letter c) := by unfold Letter; infer_instance

theorem letter_of_all {v : QString} (h : (v.all fun c => decide (Letter c)) = true) :
    ∀ c ∈ v, Letter c := fun c hc => of_decide_eq_true (List.all_eq_true.mp h c hc)

/-- A word is empty, or letters and a blank. -/
theorem TagWord.shape (w : TagWord) :
    w = .var ∨ ∃ v : QString, w.chars = v ++ [32] ∧ ∀ c ∈ v, Letter c := by
  cases w with
  | var => exact .inl rfl
  | ifStart => exact .inr ⟨ofAscii "if", rfl, letter_of_all (by decide)⟩
  | ifnotStart => exact .inr ⟨ofAscii "ifnot", rfl, letter_of_all (by decide)⟩
  | ellse => exact .inr ⟨ofAscii "else", rfl, letter_of_all (by decide)⟩
  | stop => exact .inr ⟨ofAscii "end", rfl, letter_of_all (by decide)⟩
  | loopStart => exact .inr ⟨ofAscii "loop", rfl, letter_of_all (by decide)⟩

/-- Different words are different texts. -/
theorem TagWord.chars_injective {w w' : TagWord} (h : w.chars = w'.chars) : w = w' := by
  revert h
  cases w <;> cases w' <;> decide

/-- A word has no braces. -/
theorem TagWord.noBrace (w : TagWord) : (123 : UInt16) ∉ w.chars ∧ (125 : UInt16) ∉ w.chars := by
  cases w <;> exact ⟨by decide, by decide⟩

/-- A name and its end stand behind another word only if it is the same word. -/
theorem TagWord.prefix_iff (w w' : TagWord) (x n : TagName) {e : UInt16} (he : e = 125 ∨ e = 46)
    (y : QString) :
    w.chars ++ (x.chars ++ [e]) <+: w'.chars ++ (n.chars ++ 125 :: y) ↔
      w = w' ∧ x.chars ++ [e] <+: n.chars ++ 125 :: y := by
  have heblank : e ≠ 32 := by rcases he with rfl | rfl <;> decide
  have hx : (32 : UInt16) ∉ x.chars ++ [e] := by
    intro h
    rcases List.mem_append.mp h with h | h
    · exact (x.plain 32 h).2.2 rfl
    · exact heblank (List.mem_singleton.mp h).symm
  constructor
  · intro h
    suffices hw : w = w' by
      subst hw
      exact ⟨rfl, (List.prefix_append_right_inj _).mp h⟩
    rcases w.shape with rfl | ⟨v, hv, hletters⟩
    · rcases w'.shape with rfl | ⟨v', hv', hletters'⟩
      · rfl
      · -- the name would have to be a part of the word
        rw [hv', List.append_assoc] at h
        have hin : x.chars ++ [e] <+: v' := prefix_of_prefix_delimited hx h
        have hletter := hletters' e (hin.subset (by simp))
        rcases he with rfl | rfl
        · exact absurd rfl hletter.2.1
        · exact absurd rfl hletter.2.2.2
    · rcases w'.shape with rfl | ⟨v', hv', hletters'⟩
      · -- the blank of the word would have to be a part of the name
        have hword : v ++ [32] <+: n.chars ++ 125 :: y := by
          rw [hv] at h
          exact (List.prefix_append _ _).trans h
        have hbrace : (125 : UInt16) ∉ v ++ [32] := by
          rw [← hv]
          exact w.noBrace.2
        have hin := prefix_of_prefix_delimited hbrace hword
        exact absurd rfl (n.plain 32 (hin.subset (by simp))).2.2
      · have hblank : (32 : UInt16) ∉ v := fun hmem => (hletters 32 hmem).2.2.1 rfl
        have hblank' : (32 : UInt16) ∉ v' := fun hmem => (hletters' 32 hmem).2.2.1 rfl
        rw [hv, hv', List.append_assoc v'] at h
        have hword : v ++ [32] <+: v' ++ 32 :: (n.chars ++ 125 :: y) :=
          (List.prefix_append _ _).trans h
        have heq := (prefix_delimited hblank hblank').mp hword
        exact TagWord.chars_injective (by rw [hv, hv', heq])
  · rintro ⟨rfl, h⟩
    exact (List.prefix_append_right_inj _).mpr h

/-! ### Pieces

A search that begins at a piece either finds the tag there, or passes over the whole piece. -/

/-- Text, or a tag. -/
inductive Piece
  | text (t : PlainText)
  | tag (word : TagWord) (name : TagName)
  deriving DecidableEq

/-- The text of a piece. -/
def Piece.render : Piece → QString
  | .text t => t.chars
  | .tag word name => Template.tag word.chars name.chars

/-- The text of a sequence of pieces. -/
def renderAll (ps : List Piece) : QString := ps.flatMap Piece.render

@[simp] theorem renderAll_cons (p : Piece) (ps : List Piece) :
    renderAll (p :: ps) = p.render ++ renderAll ps := rfl

@[simp] theorem renderAll_append (ps qs : List Piece) :
    renderAll (ps ++ qs) = renderAll ps ++ renderAll qs := List.flatMap_append

theorem tag_append (word name y : QString) :
    tag word name ++ y = 123 :: (word ++ (name ++ [125]) ++ y) := by
  simp [tag]

theorem tag_pos (word name : QString) : 0 < (tag word name).length := by
  rw [tag, List.length_cons]
  omega

/-- What is behind the opening brace of a tag has no other one. -/
theorem noBrace_tag (w : TagWord) (n : TagName) :
    (123 : UInt16) ∉ w.chars ++ (n.chars ++ [125]) := by
  intro h
  rcases List.mem_append.mp h with h | h
  · exact w.noBrace.1 h
  · rcases List.mem_append.mp h with h | h
    · exact (n.plain 123 h).1 rfl
    · exact absurd (List.mem_singleton.mp h) (by decide)

section Find

variable {w : TagWord} {x : TagName}

/-- A tag is not found in text, nor in another tag. -/
theorem find_tag_piece {p : Piece} (h : p ≠ .tag w x) (y : QString) :
    find (tag w.chars x.chars) (p.render ++ y) =
      (find (tag w.chars x.chars) y).map (· + p.render.length) := by
  cases p with
  | text t => exact find_unmarked (fun hmem => (t.plain 123 hmem).1 rfl) y
  | tag w' n =>
      have hno : ¬ w.chars ++ x.chars ++ [125] <+: w'.chars ++ (n.chars ++ [125]) ++ y := by
        intro hpre
        rw [List.append_assoc, List.append_assoc, List.append_assoc, List.singleton_append,
          TagWord.prefix_iff w w' x n (.inl rfl)] at hpre
        obtain ⟨rfl, hname⟩ := hpre
        have hx : (125 : UInt16) ∉ x.chars := fun hmem => (x.plain 125 hmem).2.1 rfl
        have hn : (125 : UInt16) ∉ n.chars := fun hmem => (n.plain 125 hmem).2.1 rfl
        have heq := (prefix_delimited hx hn).mp hname
        obtain ⟨chars, plain⟩ := x
        obtain ⟨chars', plain'⟩ := n
        cases heq
        exact h rfl
      have hmarked := find_marked (p := w.chars ++ x.chars ++ [125]) (noBrace_tag w' n) y
      rw [if_neg hno] at hmarked
      rw [Piece.render, tag_append]
      refine hmarked.trans ?_
      simp [tag]

/-- A tag is not found in pieces without it. -/
theorem find_tag_pieces {ps : List Piece} (h : Piece.tag w x ∉ ps) (y : QString) :
    find (tag w.chars x.chars) (renderAll ps ++ y) =
      (find (tag w.chars x.chars) y).map (· + (renderAll ps).length) := by
  induction ps with
  | nil => simp [renderAll]
  | cons p ps ih =>
      have hp : p ≠ .tag w x := fun heq => h (heq ▸ List.mem_cons_self)
      have hps : Piece.tag w x ∉ ps := fun hmem => h (List.mem_cons_of_mem p hmem)
      rw [renderAll_cons, List.append_assoc, find_tag_piece hp, ih hps, Option.map_map,
        List.length_append]
      congr 1
      funext i
      simp only [Function.comp]
      omega

/-- The first tag behind pieces that are something else. -/
theorem find_tag_here {ps : List Piece} (h : Piece.tag w x ∉ ps) (y : QString) :
    find (tag w.chars x.chars) (renderAll ps ++ (tag w.chars x.chars ++ y)) =
      some (renderAll ps).length := by
  rw [find_tag_pieces h, find_here, Option.map_some, Nat.zero_add]

end Find

/-! ### Numbering

Each replacement of the source is a map over the pieces, and all of them together are one. -/

/-- One of the replacements: the tags with one word. -/
def Piece.numberWord (w : TagWord) (x : TagName) (i : Nat) : Piece → Piece
  | .text t => .text t
  | .tag w' n => .tag w' (if w' = w then x.numbered i n else n)

/-- A replacement of the source, on pieces. -/
theorem replace_pieces (w : TagWord) (x : TagName) (i : Nat) (ps : List Piece) :
    QString.replace (renderAll ps) (123 :: (w.chars ++ x.chars ++ [46]))
      (123 :: (w.chars ++ (x.chars ++ number i) ++ [46])) =
      renderAll (ps.map (Piece.numberWord w x i)) := by
  rw [QString.replace]
  induction ps with
  | nil => exact replaceAll_of_none rfl
  | cons p ps ih =>
      rw [renderAll_cons, List.map_cons, renderAll_cons]
      cases p with
      | text t =>
          rw [Piece.render, replaceAll_unmarked (fun hmem => (t.plain 123 hmem).1 rfl), ih]
          rfl
      | tag w' n =>
          have hx : (125 : UInt16) ∉ x.chars ++ [46] := by
            intro hmem
            rcases List.mem_append.mp hmem with hmem | hmem
            · exact (x.plain 125 hmem).2.1 rfl
            · exact absurd (List.mem_singleton.mp hmem) (by decide)
          rw [Piece.numberWord, Piece.render, Piece.render, ← ih, tag_append]
          by_cases hnumber : w' = w ∧ x.chars ++ [46] <+: n.chars
          · -- the tag is one of those that are numbered
            obtain ⟨rfl, m, hm⟩ := hnumber
            have hn : n.chars = x.chars ++ ([46] ++ m) := by rw [← hm, List.append_assoc]
            have hrest : (123 : UInt16) ∉ m ++ [125] := by
              intro hmem
              refine noBrace_tag w' n ?_
              rw [hn]
              simp only [List.mem_append] at hmem ⊢
              tauto
            have hreplaced := @replaceAll_marked_pos _ _ 123 (w'.chars ++ x.chars ++ [46])
              (123 :: (w'.chars ++ (x.chars ++ number i) ++ [46])) _ hrest (renderAll ps)
            rw [if_pos rfl, numbered_chars hn, hn]
            simpa [tag] using hreplaced
          · have hno : ¬ w.chars ++ x.chars ++ [46] <+: w'.chars ++ (n.chars ++ [125]) ++
                renderAll ps := by
              intro hpre
              rw [List.append_assoc, List.append_assoc, List.append_assoc, List.singleton_append,
                TagWord.prefix_iff w w' x n (.inr rfl)] at hpre
              obtain ⟨hw, hname⟩ := hpre
              exact hnumber ⟨hw.symm, prefix_of_prefix_delimited hx hname⟩
            have hsame : (if w' = w then x.numbered i n else n) = n := by
              split
              · next hw => exact numbered_other (fun hname => hnumber ⟨hw, hname⟩) i
              · rfl
            rw [hsame, replaceAll_marked_neg (noBrace_tag w' n) hno, tag_append]

/-- All replacements together number every tag once. -/
def Piece.number (x : TagName) (i : Nat) : Piece → Piece
  | .text t => .text t
  | .tag w n => .tag w (x.numbered i n)

/-- **Numbering is a map over the pieces.** -/
theorem numberTags_pieces (x : TagName) (i : Nat) (ps : List Piece) :
    numberTags x.chars i (renderAll ps) = renderAll (ps.map (Piece.number x i)) := by
  have hwords : numberedWords =
      [TagWord.var, .ifStart, .ifnotStart, .ellse, .stop, .loopStart].map TagWord.chars := rfl
  have hall : ∀ p : Piece, [TagWord.var, .ifStart, .ifnotStart, .ellse, .stop, .loopStart].foldl
      (fun p w => Piece.numberWord w x i p) p = Piece.number x i p := by
    intro p
    cases p with
    | text t => rfl
    | tag w n => cases w <;> simp [Piece.numberWord, Piece.number]
  rw [numberTags, hwords, List.foldl_map]
  simp only [List.foldl_cons, List.foldl_nil, replace_pieces, List.map_map]
  congr 1
  exact List.map_congr_left fun p _ => hall p

end Template

end QtWebApp
