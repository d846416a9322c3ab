import QtWebApp.TemplateEngine.Template

/-!
# QtWebApp.TemplateEngine.Turns

One turn of the loops over blocks, without positions.

The text is what is done and the rest, at the beginning of which the search for the next start tag
begins. A turn finds a start tag, what follows it up to the end tag, and the else tag in it.

The functions of the source work with positions in the whole text. Each position is the length of
what is done, plus one in the rest, so all of them can be moved to the rest; after that no later
module mentions a position.
-/

namespace QtWebApp

namespace Template

open QString Scan

/-- What is put in the place of a block, from the text `r` behind its start tag, in which the end
tag stands at `j`. -/
def replacement (elseTag : QString) (first : Bool) (copies : QString → QString) (r : QString)
    (j : Nat) : QString :=
  match Search.find elseTag r with
  | some k =>
      if k < j then
        if first then copies (r.take k)
        else r.mid (k + elseTag.length : Nat) (j - k - elseTag.length)
      else if first then copies (r.take j)
      else []
  | none => if first then copies (r.take j) else []

variable {startTag elseTag endTag : QString} {first : Bool} {copies : QString → QString}
  {done rest : QString} {count : Nat}

/-- A part of the rest in which no start tag begins is done. -/
theorem seek_skip {pat x : QString} (h : Search.find pat (x ++ rest) =
    (Search.find pat rest).map (· + x.length)) :
    seek pat done (x ++ rest) count = seek pat (done ++ x) rest count := by
  cases hrest : Search.find pat rest with
  | none =>
      rw [hrest] at h
      rw [seek_none h, seek_none hrest, List.append_assoc]
  | some i =>
      rw [hrest, Option.map_some] at h
      rw [seek_some h, seek_some hrest, List.append_assoc, List.length_append]
      congr 2
      omega

/-- Without another start tag the loop ends. -/
theorem blockTurn_none (h : Search.find startTag rest = none) :
    blockTurn startTag elseTag endTag first copies (seek startTag done rest count) =
      some (.leave ⟨done ++ rest, -1, count⟩) := by
  rw [seek_none h, blockTurn, if_neg (show ¬ (0 : Int) ≤ -1 by decide)]

section Found

variable {i : Nat} (h : Search.find startTag rest = some i)

include h

/-- The text with a start tag in it. -/
theorem text_of_found (done : QString) :
    done ++ rest = done ++ rest.take i ++ startTag ++ rest.drop (i + startTag.length) ∧
      (done ++ rest.take i ++ startTag).length = done.length + i + startTag.length := by
  obtain ⟨hsplit, hle⟩ := Search.find_eq_some h
  constructor
  · rw [List.append_assoc, List.append_assoc, ← List.append_assoc (rest.take i), ← hsplit]
  · rw [List.length_append, List.length_append, List.length_take, Nat.min_eq_left (by omega)]

/-- The search for another tag behind the start tag. -/
theorem indexOf_behind (pat : QString) :
    (done ++ rest).indexOf pat (((done.length + i : Nat) : Int) + startTag.length) =
      positionFrom (done.length + i + startTag.length)
        (Search.find pat (rest.drop (i + startTag.length))) := by
  obtain ⟨htext, hlength⟩ := text_of_found h done
  have hpos : ((done.length + i : Nat) : Int) + startTag.length =
      ((done ++ rest.take i ++ startTag).length : Nat) := by
    rw [hlength]
    omega
  rw [hpos, htext, indexOf_length, hlength]

omit h in
/-- A part of the text behind the start tag. -/
theorem mid_behind (startTag done rest : QString) (i pos : Nat) (len : Int) :
    (done ++ rest).mid (((done.length + i : Nat) : Int) + startTag.length + pos) len =
      QString.mid (rest.drop (i + startTag.length)) pos len := by
  have hpos : (((done.length + i : Nat) : Int) + startTag.length + pos).toNat =
      done.length + (i + startTag.length + pos) := by omega
  rw [mid, mid, hpos, List.drop_length_add_append, Int.toNat_natCast, List.drop_drop]

omit h in
/-- What is put in the place of the block does not depend on what is done. -/
theorem chosenPart_eq (hne : 0 < startTag.length) {j : Nat} :
    chosenPart startTag elseTag (done ++ rest) ((done.length + i : Nat) : Int)
      (positionFrom (done.length + i + startTag.length)
        (Search.find elseTag (rest.drop (i + startTag.length))))
      ((done.length + i + startTag.length + j : Nat) : Int) first copies =
      replacement elseTag first copies (rest.drop (i + startTag.length)) j := by
  have hfirst : ∀ k : Nat, (done ++ rest).mid (((done.length + i : Nat) : Int) + startTag.length)
      (((done.length + i + startTag.length + k : Nat) : Int) - ((done.length + i : Nat) : Int) -
        startTag.length) = (rest.drop (i + startTag.length)).take k := by
    intro k
    have hpos : (((done.length + i : Nat) : Int) + startTag.length).toNat =
        done.length + (i + startTag.length) := by omega
    have hlen : (((done.length + i + startTag.length + k : Nat) : Int) -
        ((done.length + i : Nat) : Int) - startTag.length) = (k : Nat) := by omega
    rw [hlen, mid, if_neg (by omega), hpos, Int.toNat_natCast, List.drop_length_add_append]
  cases hellse : Search.find elseTag (rest.drop (i + startTag.length)) with
  | none =>
      have hno : ¬ (((done.length + i : Nat) : Int) <
          positionFrom (done.length + i + startTag.length) none ∧
          positionFrom (done.length + i + startTag.length) none <
            ((done.length + i + startTag.length + j : Nat) : Int)) := by
        rw [positionFrom]
        omega
      rw [chosenPart, if_neg hno, hfirst, replacement, hellse]
  | some k =>
      have hother : (done ++ rest).mid
          (((done.length + i + startTag.length + k : Nat) : Int) + elseTag.length)
          (((done.length + i + startTag.length + j : Nat) : Int) -
            ((done.length + i + startTag.length + k : Nat) : Int) - elseTag.length) =
          QString.mid (rest.drop (i + startTag.length)) (k + elseTag.length : Nat)
            (j - k - elseTag.length) := by
        rw [← mid_behind startTag done rest i]
        congr 1
        · omega
        · omega
      have hpos : positionFrom (done.length + i + startTag.length) (some k) =
          ((done.length + i + startTag.length + k : Nat) : Int) := rfl
      rw [chosenPart, replacement, hellse, hpos]
      dsimp only
      by_cases hkj : k < j
      · have hyes : ((done.length + i : Nat) : Int) <
              ((done.length + i + startTag.length + k : Nat) : Int) ∧
            ((done.length + i + startTag.length + k : Nat) : Int) <
              ((done.length + i + startTag.length + j : Nat) : Int) := by omega
        rw [if_pos hyes, if_pos hkj, hfirst, hother]
      · have hno : ¬ (((done.length + i : Nat) : Int) <
              ((done.length + i + startTag.length + k : Nat) : Int) ∧
            ((done.length + i + startTag.length + k : Nat) : Int) <
              ((done.length + i + startTag.length + j : Nat) : Int)) := by omega
        rw [if_neg hno, if_neg hkj, hfirst]

/-- A block is replaced, and the search goes on at the beginning of what was put there. -/
theorem blockTurn_found (hne : 0 < startTag.length) {j : Nat}
    (hstop : Search.find endTag (rest.drop (i + startTag.length)) = some j) :
    blockTurn startTag elseTag endTag first copies (seek startTag done rest count) =
      some (.again (seek startTag (done ++ rest.take i)
        (replacement elseTag first copies (rest.drop (i + startTag.length)) j ++
          rest.drop (i + startTag.length + j + endTag.length)) (count + 1))) := by
  have hle := (Search.find_eq_some h).2
  have hdone : (done ++ rest.take i).length = done.length + i := by
    rw [List.length_append, List.length_take, Nat.min_eq_left (by omega)]
  have htake : (done ++ rest).take (done.length + i) = done ++ rest.take i :=
    List.take_length_add_append i
  have hstart : (((done.length + i : Nat) : Int)).toNat = done.length + i := by omega
  have hend : (((done.length + i : Nat) : Int) +
      (((done.length + i + startTag.length + j : Nat) : Int) - ((done.length + i : Nat) : Int) +
        endTag.length)).toNat = done.length + (i + startTag.length + j + endTag.length) := by omega
  rw [seek_some h, blockTurn, if_pos (Int.natCast_nonneg _)]
  dsimp only
  rw [indexOf_behind h, hstop, positionFrom, if_pos (Int.natCast_nonneg _), indexOf_behind h,
    chosenPart_eq hne, replaceAt, hstart, hend, htake, List.drop_length_add_append, ← hdone]
  rw [seek, List.append_assoc]

end Found

/-- A turn that finds the start tag where it begins to search. -/
theorem blockTurn_here (hne : 0 < startTag.length) {r : QString} {j : Nat}
    (hstop : Search.find endTag r = some j) :
    blockTurn startTag elseTag endTag first copies (seek startTag done (startTag ++ r) count) =
      some (.again (seek startTag done
        (replacement elseTag first copies r j ++ r.drop (j + endTag.length)) (count + 1))) := by
  have hdrop : (startTag ++ r).drop (0 + startTag.length) = r := by
    rw [Nat.zero_add, List.drop_left]
  have hdrop' : (startTag ++ r).drop (0 + startTag.length + j + endTag.length) =
      r.drop (j + endTag.length) := by
    have hpos : 0 + startTag.length + j + endTag.length =
        startTag.length + (j + endTag.length) := by omega
    rw [hpos, List.drop_length_add_append]
  have hfound := @blockTurn_found startTag elseTag endTag first copies done (startTag ++ r) count 0
    (Search.find_here startTag r) hne j (by rw [hdrop]; exact hstop)
  rw [hdrop, hdrop', List.take_zero, List.append_nil] at hfound
  exact hfound

end Template

end QtWebApp
