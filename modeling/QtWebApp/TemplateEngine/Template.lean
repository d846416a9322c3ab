import QtWebApp.Base.Loop
import QtWebApp.Base.QString

/-!
# QtWebApp.TemplateEngine.Template

The template engine.

A template is a text in which every operation searches its tags and replaces them in place. The
three operations on blocks are the same loop with different tags and a different choice of the
part that stays. A start tag without an end tag behind it is left where it is, and so is the
position of the search.

Positions are those of `QString`: -1 stands for "not found", and the functions that take a position
have their own way with it. The loops are written with them, as in the source. They may go on for
ever, so they take fuel.
-/

namespace QtWebApp

namespace Template

open QString

/-- A tag: a word, which is empty for a variable, and a name, in braces. -/
def tag (word name : QString) : QString := 123 :: (word ++ name ++ [125])

theorem tag_ne_nil (word name : QString) : tag word name ≠ [] := List.cons_ne_nil _ _

/-- The local variables of an operation, and the text it changes. -/
structure Scan where
  text : QString
  start : Int
  count : Nat
  deriving DecidableEq, Repr

/-- A search that has come to the end of `done`. -/
def Scan.seek (pat done rest : QString) (count : Nat) : Scan :=
  ⟨done ++ rest, (done ++ rest).indexOf pat done.length, count⟩

theorem Scan.seek_start (pat text : QString) (count : Nat) :
    seek pat [] text count = ⟨text, text.indexOf pat 0, count⟩ := rfl

/-- A search that finds nothing. -/
theorem Scan.seek_none {pat rest : QString} (h : Search.find pat rest = none) (done : QString)
    (count : Nat) : seek pat done rest count = ⟨done ++ rest, -1, count⟩ := by
  rw [seek, indexOf_length, h, positionFrom]

/-- A search that finds something. -/
theorem Scan.seek_some {pat rest : QString} {i : Nat} (h : Search.find pat rest = some i)
    (done : QString) (count : Nat) :
    seek pat done rest count = ⟨done ++ rest, ((done.length + i : Nat) : Int), count⟩ := by
  rw [seek, indexOf_length, h, positionFrom]

/-- One turn of the loop of `setVariable`. -/
def variableTurn (variableTag value : QString) (s : Scan) : Option (Turn Scan) :=
  if 0 ≤ s.start then
    let text := s.text.replaceAt s.start variableTag.length value
    -- the search goes on behind the value
    some (.again
      { text := text
        start := text.indexOf variableTag (s.start + value.length)
        count := s.count + 1 })
  else some (.leave s)

/-- `Template::setVariable`: the new text and the count. -/
def setVariable (fuel : Nat) (text name value : QString) : Option (QString × Nat) :=
  let variableTag := tag [] name
  (loop (variableTurn variableTag value) fuel ⟨text, text.indexOf variableTag 0, 0⟩).map fun s =>
    (s.text, s.count)

/-- What takes the place of a block from `start` to `stop`, with the else tag found at `ellse`: the
first part, made ready by `copies`, or the other part. -/
def chosenPart (startTag elseTag text : QString) (start ellse stop : Int) (first : Bool)
    (copies : QString → QString) : QString :=
  if start < ellse ∧ ellse < stop then
    if first then copies (text.mid (start + startTag.length) (ellse - start - startTag.length))
    else text.mid (ellse + elseTag.length) (stop - ellse - elseTag.length)
  else if first then copies (text.mid (start + startTag.length) (stop - start - startTag.length))
  else []

/-- One turn of the loops of `setCondition` and `loop`. -/
def blockTurn (startTag elseTag endTag : QString) (first : Bool) (copies : QString → QString)
    (s : Scan) : Option (Turn Scan) :=
  if 0 ≤ s.start then
    let stop := s.text.indexOf endTag (s.start + startTag.length)
    if 0 ≤ stop then
      let ellse := s.text.indexOf elseTag (s.start + startTag.length)
      let text := s.text.replaceAt s.start (stop - s.start + endTag.length)
        (chosenPart startTag elseTag s.text s.start ellse stop first copies)
      some (.again
        { text := text
          start := text.indexOf startTag s.start
          count := s.count + 1 })
    -- only a warning: the position stays where it is
    else some (.again s)
  else some (.leave s)

/-- `Template::setCondition`: one loop for `if`, and then one for `ifnot`. -/
def setCondition (fuel : Nat) (text name : QString) (value : Bool) : Option (QString × Nat) :=
  let startTag := tag (ofAscii "if ") name
  let elseTag := tag (ofAscii "else ") name
  let endTag := tag (ofAscii "end ") name
  let startTag2 := tag (ofAscii "ifnot ") name
  (loop (blockTurn startTag elseTag endTag value id) fuel
    ⟨text, text.indexOf startTag 0, 0⟩).bind fun s =>
  (loop (blockTurn startTag2 elseTag endTag (!value) id) fuel
    ⟨s.text, s.text.indexOf startTag2 0, s.count⟩).map fun s => (s.text, s.count)

/-- The words of the tags that are numbered within a loop, in this order. -/
def numberedWords : List QString :=
  [[], ofAscii "if ", ofAscii "ifnot ", ofAscii "else ", ofAscii "end ", ofAscii "loop "]

/-- Number the variables, conditions and sub-loops of a copy. -/
def numberTags (name : QString) (i : Nat) (part : QString) : QString :=
  let nameNum := name ++ number i
  numberedWords.foldl
    (fun s word => s.replace (123 :: (word ++ name ++ [46])) (123 :: (word ++ nameNum ++ [46])))
      part

/-- The numbered copies of a part. -/
def loopCopies (name : QString) (repetitions : Nat) (part : QString) : QString :=
  (List.range repetitions).flatMap fun i => numberTags name i part

/-- `Template::loop`. -/
def loop (fuel : Nat) (text name : QString) (repetitions : Nat) : Option (QString × Nat) :=
  let startTag := tag (ofAscii "loop ") name
  let elseTag := tag (ofAscii "else ") name
  let endTag := tag (ofAscii "end ") name
  (QtWebApp.loop (blockTurn startTag elseTag endTag (decide (0 < repetitions))
    (loopCopies name repetitions)) fuel ⟨text, text.indexOf startTag 0, 0⟩).map fun s =>
    (s.text, s.count)

end Template

end QtWebApp
