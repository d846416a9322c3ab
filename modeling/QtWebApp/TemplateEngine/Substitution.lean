import QtWebApp.TemplateEngine.Template

/-!
# QtWebApp.TemplateEngine.Substitution

Setting a variable.

What stands in front of the position of the search has been dealt with, values included, and is not
looked at again; what stands behind it is a part of the original text.

So the loop cuts the original text at each occurrence and puts the value in between. It ends,
whatever the value is, even if it contains the variable.
-/

namespace QtWebApp

namespace Template

open QString Scan

section VariableTurn

variable {variableTag value done rest : QString} {count : Nat}

/-- Without another occurrence the loop ends. -/
theorem variableTurn_none (h : Search.find variableTag rest = none) :
    variableTurn variableTag value (seek variableTag done rest count) =
      some (.leave ⟨done ++ rest, -1, count⟩) := by
  rw [seek_none h, variableTurn, if_neg (show ¬ (0 : Int) ≤ -1 by decide)]

/-- The next occurrence is replaced, and the search goes on behind the value. -/
theorem variableTurn_some {i : Nat} (h : Search.find variableTag rest = some i) :
    variableTurn variableTag value (seek variableTag done rest count) =
      some (.again (seek variableTag (done ++ rest.take i ++ value)
        (rest.drop (i + variableTag.length)) (count + 1))) := by
  obtain ⟨hsplit, hle⟩ := Search.find_eq_some h
  have hlength : (done ++ rest.take i).length = done.length + i := by
    rw [List.length_append, List.length_take, Nat.min_eq_left (by omega)]
  have htext : done ++ rest =
      done ++ rest.take i ++ variableTag ++ rest.drop (i + variableTag.length) := by
    rw [List.append_assoc, List.append_assoc, ← List.append_assoc (rest.take i), ← hsplit]
  have hnext : ((done.length + i : Nat) : Int) + value.length =
      ((done ++ rest.take i ++ value).length : Nat) := by
    rw [List.length_append, hlength]
    omega
  rw [seek_some h, variableTurn, if_pos (Int.natCast_nonneg _), htext, ← hlength, replaceAt_middle]
  dsimp only
  rw [hlength, hnext]
  rfl

end VariableTurn

/-- The rest of the text is cut at the tags, and joined with the value. -/
theorem variableTurn_ends {variableTag : QString} (hne : variableTag ≠ [])
    (value done rest : QString) (count : Nat) :
    Loop.Ends (fun _ => variableTurn variableTag value) (seek variableTag done rest count)
      ⟨done ++ Search.replaceAll variableTag value rest, -1,
        count + ((Search.cut variableTag rest).length - 1)⟩ := by
  induction hn : rest.length using Nat.strongRecOn generalizing done rest count with
  | _ n ih =>
      have hmono := Loop.mono_const (variableTurn variableTag value)
      cases h : Search.find variableTag rest with
      | none =>
          rw [Search.replaceAll_of_none h, Search.cut_of_none h]
          exact Loop.Ends.leave (k := 0) hmono (variableTurn_none h)
      | some i =>
          have hle := (Search.find_eq_some h).2
          have hpos : 0 < variableTag.length := List.length_pos_iff.mpr hne
          have hcut := Search.cut_ne_nil variableTag (rest.drop (i + variableTag.length))
          have hparts : 0 < (Search.cut variableTag (rest.drop (i + variableTag.length))).length :=
            List.length_pos_iff.mpr hcut
          have hends := ih _ (by rw [List.length_drop]; omega) (done ++ rest.take i ++ value)
            (rest.drop (i + variableTag.length)) (count + 1) rfl
          rw [Search.replaceAll_of_some hne h, Search.cut_of_some hne h, List.length_cons]
          have hcount : count + 1 +
              ((Search.cut variableTag (rest.drop (i + variableTag.length))).length - 1) =
              count +
                ((Search.cut variableTag (rest.drop (i + variableTag.length))).length + 1 - 1) := by
            omega
          rw [hcount] at hends
          simp only [List.append_assoc] at hends ⊢
          exact Loop.Ends.again (k := 0) hmono (variableTurn_some h) (by simpa using hends)

/-- **Setting a variable is single-pass.** Whatever the text, the name and the value are, it comes
to an end; the text is cut at the occurrences of the tag in the original text that do not overlap,
from the left, and joined with the value, and the count is the number of these occurrences. -/
theorem setVariable_cut (text name value : QString) :
    ∃ fuel, setVariable fuel text name value =
      some (value.intercalate (Search.cut (tag [] name) text),
        (Search.cut (tag [] name) text).length - 1) := by
  have hne := tag_ne_nil [] name
  obtain ⟨fuel, hfuel⟩ := variableTurn_ends hne value [] text 0
  refine ⟨fuel, ?_⟩
  rw [setVariable, ← seek_start, hfuel, Option.map_some, Nat.zero_add]
  rfl

end Template

end QtWebApp
