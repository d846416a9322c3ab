import QtWebApp.Parsing.Limits

/-!
# QtWebApp.Parsing.Uploads

The files of a multipart body.

A file is created with the first line of data of a part that has both names, and it is filed when a
boundary line ends the part. So of every part only its two names, its lines of data and the boundary
line matter (`ReadPart`), and of the request only the number of files, the map of uploaded files and
the use of the null pointer (`Ledger`). Parsing is a fold over the parts
(`parseMultiPartFile_ledger`).

Two questions are asked of that fold: whether every file of the map is there, and whether every file
that was created is in the map. The first fails for a part without data, the second for a part that
is cut off and for one whose name is used again.
-/

namespace QtWebApp

open Bytes

namespace HttpRequest

/-! ### The parts of the temp file

The temp file as a list of parts, read off from its lines. The last part may have no boundary line
behind it. -/

/-- A part of the temp file: the names in its header lines, its lines of data, and whether a
boundary line ends it. -/
structure ReadPart where
  names : PartNames
  data : List Bytes
  closed : Bool
  deriving DecidableEq, Repr

/-- A part with both names is a file. -/
def ReadPart.IsFile (s : ReadPart) : Prop := s.names.fileName ≠ [] ∧ s.names.fieldName ≠ []

instance (s : ReadPart) : Decidable s.IsFile := by unfold ReadPart.IsFile; infer_instance

/-- The lines in front of the next boundary line, and that line with the lines behind it. -/
def untilBoundary (boundary : Bytes) : List Bytes → List Bytes × Option (Bytes × List Bytes)
  | [] => ([], none)
  | l :: ls =>
      if l.startsWith (ascii "--" ++ boundary) then ([], some (l, ls))
      else (l :: (untilBoundary boundary ls).1, (untilBoundary boundary ls).2)

/-- The parts in a list of lines, up to the closing boundary. -/
def partsOf (boundary : Bytes) : Nat → List Bytes → List ReadPart
  | 0, _ => []
  | _ + 1, [] => []
  | n + 1, l :: ls =>
      let (names, ls) := readPartHeaders (l :: ls) ⟨[], []⟩
      let (data, stop) := untilBoundary boundary ls
      ⟨names, data, stop.isSome⟩ ::
        match stop with
        | none => []
        | some (line, ls) =>
            if line.containsText (boundary ++ ascii "--") then [] else partsOf boundary n ls

/-- The parts of the temp file of a request. -/
def readPartsOf (r : HttpRequest) : List ReadPart :=
  let file := r.tempFile.getD []
  let lines := fileLines file.length file
  partsOf r.boundary lines.length lines

/-! ### What becomes of the files

The loops of the source, one after the other, as operations on the ledger. -/

/-- The number of files created, the map of uploaded files, and the use of the null pointer. -/
structure Ledger where
  created : Nat
  uploads : QMap (Option Nat)
  nullFile : Bool

/-- The ledger of a request. -/
def ledger (r : HttpRequest) : Ledger := ⟨r.tempFiles.length, r.uploadedFiles, r.nullFile⟩

/-- The file of a part: the next one, or none without data. -/
def Ledger.fileOf (l : Ledger) (s : ReadPart) : Option Nat :=
  if s.data = [] then none else some l.created

/-- What a part does to the ledger. -/
def Ledger.add (l : Ledger) (s : ReadPart) : Ledger :=
  if s.IsFile then
    { created := if s.data = [] then l.created else l.created + 1
      uploads := if s.closed then l.uploads.insert s.names.fieldName (l.fileOf s) else l.uploads
      nullFile := l.nullFile || (s.closed && (l.fileOf s).isNone) }
  else l

theorem Ledger.add_file {s : ReadPart} (h : s.IsFile) (l : Ledger) : l.add s =
    { created := if s.data = [] then l.created else l.created + 1
      uploads := if s.closed then l.uploads.insert s.names.fieldName (l.fileOf s) else l.uploads
      nullFile := l.nullFile || (s.closed && (l.fileOf s).isNone) } := if_pos h

theorem Ledger.add_other {s : ReadPart} (h : ¬ s.IsFile) (l : Ledger) : l.add s = l := if_neg h

/-- A part that ends is filed if it has both names. -/
theorem finishPart_ledger (r : HttpRequest) (p : PartNames) (fieldValue : Bytes)
    (file : Option Nat) :
    (r.finishPart p fieldValue file).ledger =
      if p.fileName ≠ [] ∧ p.fieldName ≠ [] then
        ⟨r.tempFiles.length, r.uploadedFiles.insert p.fieldName file, r.nullFile || file.isNone⟩
      else r.ledger := by
  by_cases hfield : p.fileName = [] ∧ p.fieldName ≠ []
  · unfold finishPart
    rw [if_pos hfield, if_neg fun hfile => hfile.1 hfield.1]
    rfl
  · by_cases hfile : p.fileName ≠ [] ∧ p.fieldName ≠ []
    · unfold finishPart
      rw [if_neg hfield, if_pos hfile, if_pos hfile]
      cases file with
      | none => rfl
      | some i => rw [ledger, List.length_modify]
    · unfold finishPart
      rw [if_neg hfield, if_neg hfile, if_neg hfile]

section PartData

variable {p : PartNames} {l : Bytes} {ls : List Bytes} {r : HttpRequest}

theorem untilBoundary_here {boundary : Bytes} (h : l.startsWith (ascii "--" ++ boundary) = true)
    (ls : List Bytes) : untilBoundary boundary (l :: ls) = ([], some (l, ls)) := by
  rw [untilBoundary, if_pos h]

theorem untilBoundary_data {boundary : Bytes} (h : ¬ l.startsWith (ascii "--" ++ boundary) = true)
    (ls : List Bytes) : untilBoundary boundary (l :: ls) =
      (l :: (untilBoundary boundary ls).1, (untilBoundary boundary ls).2) := by
  rw [untilBoundary, if_neg h]

/-- The data of a part ends with its boundary line, whatever is done with the lines. -/
theorem readPartData_rest (p : PartNames) (ls : List Bytes) (fieldValue : Bytes) (file : Option Nat)
    (r : HttpRequest) : (readPartData p ls fieldValue file r).2 =
      match (untilBoundary r.boundary ls).2 with
      | some (line, ls) => (line.containsText (r.boundary ++ ascii "--"), ls)
      | none => (false, []) := by
  induction ls generalizing fieldValue file r with
  | nil => rfl
  | cons l ls ih =>
      by_cases hstop : l.startsWith (ascii "--" ++ r.boundary) = true
      · rw [untilBoundary_here hstop, readPartData, if_pos hstop]
      · rw [untilBoundary_data hstop, readPartData, if_neg hstop]
        split
        · exact ih _ _ _
        · split
          · cases file <;> exact ih _ _ _
          · exact ih _ _ _

/-- A part without both names leaves the files alone. -/
theorem readPartData_other (h : ¬ (p.fileName ≠ [] ∧ p.fieldName ≠ [])) (fieldValue : Bytes)
    (file : Option Nat) : (readPartData p ls fieldValue file r).1.ledger = r.ledger := by
  induction ls generalizing fieldValue r with
  | nil => rfl
  | cons l ls ih =>
      rw [readPartData]
      split
      · exact (finishPart_ledger r p fieldValue file).trans (if_neg h)
      · split
        · exact ih _
        · exact ih _

/-- Once the file is there, the lines go to it, and a boundary line files it. -/
theorem readPartData_again (h : p.fileName ≠ [] ∧ p.fieldName ≠ []) (fieldValue : Bytes) (i : Nat) :
    (readPartData p ls fieldValue (some i) r).1.ledger =
      ⟨r.tempFiles.length, if (untilBoundary r.boundary ls).2.isSome then
        r.uploadedFiles.insert p.fieldName (some i) else r.uploadedFiles, r.nullFile⟩ := by
  induction ls generalizing fieldValue r with
  | nil => rfl
  | cons l ls ih =>
      by_cases hstop : l.startsWith (ascii "--" ++ r.boundary) = true
      · rw [untilBoundary_here hstop, readPartData, if_pos hstop, finishPart_ledger, if_pos h]
        simp
      · rw [untilBoundary_data hstop, readPartData, if_neg hstop, if_neg fun hfield => h.1 hfield.1,
          if_pos h, writeUpload]
        refine (ih _).trans ?_
        rw [List.length_modify]

/-- **The data of a part**: what comes in front of the next boundary line is written to one file. -/
theorem readPartData_ledger (p : PartNames) (ls : List Bytes) (fieldValue : Bytes)
    (r : HttpRequest) :
    (readPartData p ls fieldValue none r).1.ledger =
      r.ledger.add ⟨p, (untilBoundary r.boundary ls).1,
        (untilBoundary r.boundary ls).2.isSome⟩ := by
  by_cases hfile : ReadPart.IsFile
    ⟨p, (untilBoundary r.boundary ls).1, (untilBoundary r.boundary ls).2.isSome⟩
  · have hnames : p.fileName ≠ [] ∧ p.fieldName ≠ [] := hfile
    rw [Ledger.add_file hfile]
    cases ls with
    | nil =>
        show r.ledger = _
        simp [untilBoundary, ledger]
    | cons l ls =>
        by_cases hstop : l.startsWith (ascii "--" ++ r.boundary) = true
        · rw [untilBoundary_here hstop, readPartData, if_pos hstop,
            finishPart_ledger, if_pos hnames]
          simp [Ledger.fileOf, ledger]
        · rw [untilBoundary_data hstop, readPartData, if_neg hstop,
            if_neg fun hfield => hnames.1 hfield.1, if_pos hnames, writeUpload]
          refine (readPartData_again hnames _ _).trans ?_
          simp [Ledger.fileOf, ledger]
  · rw [readPartData_other hfile, Ledger.add_other hfile]

end PartData

/-- **Reading the parts is a fold over them**, for whatever one part determines of what is read off
a request. -/
theorem readParts_fold {α : Type} {f : HttpRequest → α} {add : α → ReadPart → α}
    (hdata : ∀ p ls r, f (readPartData p ls [] none r).1 =
      add (f r) ⟨p, (untilBoundary r.boundary ls).1, (untilBoundary r.boundary ls).2.isSome⟩)
    (n : Nat) (ls : List Bytes) (r : HttpRequest) :
    f (readParts n ls r) = (partsOf r.boundary n ls).foldl add (f r) := by
  induction n generalizing ls r with
  | zero => rfl
  | succ n ih =>
      cases ls with
      | nil => rfl
      | cons l ls =>
          unfold readParts partsOf
          dsimp only
          generalize readPartHeaders (l :: ls) ⟨[], []⟩ = head
          have hpart := hdata head.1 head.2 r
          have hrest := readPartData_rest head.1 head.2 [] none r
          have hsame := (readPartData_same head.1 head.2 [] none r).boundary
          generalize readPartData head.1 head.2 [] none r = result at hpart hrest hsame ⊢
          obtain ⟨r', finished, ls'⟩ := result
          dsimp only at hpart hrest hsame ⊢
          cases hstop : (untilBoundary r.boundary head.2).2 with
          | none =>
              rw [hstop] at hpart hrest
              obtain ⟨rfl, rfl⟩ := Prod.mk.inj hrest
              rw [if_neg Bool.false_ne_true, List.foldl_cons, ← hpart]
              cases n <;> rfl
          | some stop =>
              obtain ⟨line, ls''⟩ := stop
              rw [hstop] at hpart hrest
              obtain ⟨rfl, rfl⟩ := Prod.mk.inj hrest
              rw [List.foldl_cons, ← hpart, ← hsame]
              dsimp only
              split
              · rfl
              · exact ih ls' r'

/-- **Parsing is a fold over the parts**, as far as the files are concerned. -/
theorem parseMultiPartFile_ledger (r : HttpRequest) :
    r.parseMultiPartFile.ledger = r.readPartsOf.foldl Ledger.add r.ledger :=
  readParts_fold (fun p ls r => readPartData_ledger p ls [] r) _ _ r

/-! ### Before the body is parsed

The parser of the body finds a request without files, since it is called once for each request. -/

/-- Nothing has been uploaded yet. -/
structure NoUploads (r : HttpRequest) : Prop where
  uploads : r.uploadedFiles = ∅
  nullFile : r.nullFile = false

section NoUploads

variable {r : HttpRequest}

theorem NoUploads.finishRequestLine (h : r.NoUploads) : r.finishRequestLine.NoUploads := by
  unfold HttpRequest.finishRequestLine
  split
  · exact h
  · dsimp only
    split
    · exact ⟨h.uploads, h.nullFile⟩
    · split
      · split
        · exact ⟨h.uploads, h.nullFile⟩
        · exact ⟨h.uploads, h.nullFile⟩
      · exact ⟨h.uploads, h.nullFile⟩

theorem NoUploads.endOfHeaders (h : r.NoUploads) : r.endOfHeaders.NoUploads := by
  unfold HttpRequest.endOfHeaders
  dsimp only
  split
  · exact ⟨h.uploads, h.nullFile⟩
  · split
    · exact ⟨h.uploads, h.nullFile⟩
    · split
      · exact ⟨h.uploads, h.nullFile⟩
      · exact ⟨h.uploads, h.nullFile⟩

theorem NoUploads.finishHeaderLine (h : r.NoUploads) : r.finishHeaderLine.NoUploads := by
  unfold HttpRequest.finishHeaderLine
  split
  · exact h
  · dsimp only
    split
    · exact ⟨h.uploads, h.nullFile⟩
    · split
      · unfold headerContinuation
        split
        · exact ⟨h.uploads, h.nullFile⟩
        · exact ⟨h.uploads, h.nullFile⟩
      · exact NoUploads.endOfHeaders ⟨h.uploads, h.nullFile⟩

/-- A piece of the body is taken; only the parser of a complete multipart body uploads anything. -/
theorem NoUploads.readBody (h : r.NoUploads) (socket : Bytes)
    (hdone : (r.readBody socket).1.status ≠ .complete) : (r.readBody socket).1.NoUploads := by
  unfold HttpRequest.readBody at hdone ⊢
  split
  · unfold readPlainBody
    dsimp only
    split
    · exact ⟨h.uploads, h.nullFile⟩
    · exact ⟨h.uploads, h.nullFile⟩
  · next hboundary =>
      rw [if_neg hboundary] at hdone
      unfold readMultiPartBody at hdone ⊢
      dsimp only at hdone ⊢
      split
      · exact ⟨h.uploads, h.nullFile⟩
      · next hroom =>
          rw [if_neg hroom] at hdone
          split
          · next hall =>
              rw [if_pos hall] at hdone
              exact absurd rfl hdone
          · exact ⟨h.uploads, h.nullFile⟩

theorem NoUploads.readStep (h : r.Busy → r.NoUploads) (socket : Bytes)
    (hbusy : (r.readStep socket).1.Busy) : (r.readStep socket).1.NoUploads := by
  unfold HttpRequest.readStep at hbusy ⊢
  cases hs : r.status with
  | waitForRequest =>
      have hnone := h (by rw [Busy, hs]; decide)
      exact NoUploads.finishRequestLine ⟨hnone.uploads, hnone.nullFile⟩
  | waitForHeader =>
      have hnone := h (by rw [Busy, hs]; decide)
      exact NoUploads.finishHeaderLine ⟨hnone.uploads, hnone.nullFile⟩
  | waitForBody =>
      have hnone := h (by rw [Busy, hs]; decide)
      rw [hs] at hbusy
      exact hnone.readBody socket hbusy.1
  | complete =>
      rw [hs] at hbusy
      exact absurd hs hbusy.1
  | abort =>
      rw [hs] at hbusy
      exact absurd hs hbusy.2

end NoUploads

/-- **The parser starts without uploads**: whatever arrives and is read, nothing has been uploaded
as long as the request is being received. -/
theorem run_noUploads (settings : Settings) (events : List ReadEvent) :
    (run Intake.step (.start settings) events).request.Busy →
      (run Intake.step (.start settings) events).request.NoUploads := by
  refine Run.inv_run (I := fun s : Intake => s.request.Busy → s.request.NoUploads) ?_
    (fun _ => ⟨rfl, rfl⟩) events
  intro s e h
  cases e with
  | arrive segment => exact h
  | read =>
      intro hbusy
      change (s.request.readStep s.socket).1.afterRead.Busy at hbusy
      show (s.request.readStep s.socket).1.afterRead.NoUploads
      obtain ⟨hsame, -, hstep⟩ := afterRead_of_busy hbusy
      rw [hsame]
      exact NoUploads.readStep h s.socket hstep

/-! ### Missing files

A part with both names and no line of data has no file, but the pointer to it is used when the
boundary line comes. -/

/-- A file part with a boundary line directly behind its header lines. -/
def ReadPart.IsEmptyFile (s : ReadPart) : Prop := s.IsFile ∧ s.closed = true ∧ s.data = []

instance (s : ReadPart) : Decidable s.IsEmptyFile := by unfold ReadPart.IsEmptyFile; infer_instance

theorem Ledger.add_nullFile (l : Ledger) (s : ReadPart) :
    (l.add s).nullFile = true ↔ l.nullFile = true ∨ s.IsEmptyFile := by
  by_cases hfile : s.IsFile
  · rw [add_file hfile, fileOf, ReadPart.IsEmptyFile]
    by_cases hdata : s.data = []
    · simp [hfile, hdata]
    · simp [hdata]
  · rw [add_other hfile]
    exact ⟨.inl, fun h => h.elim id fun hempty => absurd hempty.1 hfile⟩

/-- The null pointer is used for a part without data. -/
theorem foldl_nullFile (parts : List ReadPart) (l : Ledger) :
    (parts.foldl Ledger.add l).nullFile = true ↔
      l.nullFile = true ∨ ∃ s ∈ parts, s.IsEmptyFile := by
  induction parts generalizing l with
  | nil => simp
  | cons s parts ih => rw [List.foldl_cons, ih, l.add_nullFile, or_assoc, List.exists_mem_cons_iff]

/-- What is filed under a name: the file of the last closed part with it. -/
theorem Ledger.add_uploads (l : Ledger) (s : ReadPart) (name : Bytes) :
    (l.add s).uploads[name]? =
      if s.IsFile ∧ s.closed = true ∧ s.names.fieldName = name then some (l.fileOf s)
      else l.uploads[name]? := by
  by_cases hfile : s.IsFile
  · have huploads : (l.add s).uploads =
        if s.closed then l.uploads.insert s.names.fieldName (l.fileOf s) else l.uploads := by
      rw [add_file hfile]
    rw [huploads]
    by_cases hclosed : s.closed = true
    · rw [if_pos hclosed]
      by_cases hname : s.names.fieldName = name
      · rw [if_pos ⟨hfile, hclosed, hname⟩]
        grind
      · rw [if_neg fun h => hname h.2.2]
        grind
    · rw [if_neg hclosed, if_neg fun h => hclosed h.2.1]
  · rw [add_other hfile, if_neg fun h => hfile h.1]

/-- A null pointer is filed only for an empty file. -/
theorem foldl_uploads_null {parts : List ReadPart} {l : Ledger} {name : Bytes}
    (h : (parts.foldl Ledger.add l).uploads[name]? = some none) :
    l.uploads[name]? = some none ∨ ∃ s ∈ parts, s.IsEmptyFile := by
  induction parts generalizing l with
  | nil => exact .inl h
  | cons s parts ih =>
      rcases ih h with hadd | ⟨s', hs', hempty⟩
      · rw [l.add_uploads] at hadd
        split at hadd
        · next hpart =>
            refine .inr ⟨s, List.mem_cons_self, hpart.1, hpart.2.1, ?_⟩
            rw [Option.some.injEq, Ledger.fileOf] at hadd
            by_contra hdata
            rw [if_neg hdata] at hadd
            cases hadd
        · exact .inl hadd
      · exact .inr ⟨s', List.mem_cons_of_mem s hs', hempty⟩

/-- **Missing files**: the null pointer is used as a file, or filed, exactly when a part with both
names has no line of data in front of its boundary line. -/
theorem parseMultiPartFile_noNull_iff {r : HttpRequest} (h : r.NoUploads) :
    (r.parseMultiPartFile.nullFile = false ∧
        ∀ name : Bytes, r.parseMultiPartFile.uploadedFiles[name]? ≠ some none) ↔
      ∀ s ∈ r.readPartsOf, s.IsFile → s.closed = true → s.data ≠ [] := by
  have hledger := parseMultiPartFile_ledger r
  have hflag : r.parseMultiPartFile.nullFile = true ↔ ∃ s ∈ r.readPartsOf, s.IsEmptyFile := by
    have hfold := foldl_nullFile r.readPartsOf r.ledger
    rw [← hledger] at hfold
    simpa [ledger, h.nullFile] using hfold
  constructor
  · rintro ⟨hno, -⟩ s hs hfile hclosed hdata
    rw [hflag.mpr ⟨s, hs, hfile, hclosed, hdata⟩] at hno
    cases hno
  · intro hparts
    have hnone : ¬ ∃ s ∈ r.readPartsOf, s.IsEmptyFile :=
      fun ⟨s, hs, hfile, hclosed, hdata⟩ => hparts s hs hfile hclosed hdata
    refine ⟨Bool.eq_false_iff.mpr fun h => hnone (hflag.mp h), ?_⟩
    intro name hname
    have hfold : (r.readPartsOf.foldl Ledger.add r.ledger).uploads[name]? = some none := by
      rw [← hledger]
      exact hname
    rcases foldl_uploads_null hfold with hbefore | hempty
    · change r.uploadedFiles[name]? = some none at hbefore
      rw [h.uploads] at hbefore
      simp at hbefore
    · exact hnone hempty

/-- A request with one part of both names, and what follows its header lines. -/
def fileRequest (data : Bytes) : HttpRequest :=
  { HttpRequest.new defaultSettings with
      boundary := ascii "b"
      tempFile :=
        some (ascii "Content-Disposition: form-data; name=\"f\"; filename=\"a\"\r\n\r\n" ++ data) }

theorem noNull_fileRequest :
    (fileRequest (ascii "x\r\n--b--\r\n")).parseMultiPartFile.nullFile = false ∧
      ∀ name : Bytes,
        (fileRequest (ascii "x\r\n--b--\r\n")).parseMultiPartFile.uploadedFiles[name]? ≠
          some none :=
  (parseMultiPartFile_noNull_iff ⟨rfl, rfl⟩).mpr (by decide +kernel)

/-- **A file without data is used before it exists.** -/
theorem nullFile_fileRequest :
    ¬ ((fileRequest (ascii "--b--\r\n")).parseMultiPartFile.nullFile = false ∧
      ∀ name : Bytes,
        (fileRequest (ascii "--b--\r\n")).parseMultiPartFile.uploadedFiles[name]? ≠ some none) := by
  have hflag : (fileRequest (ascii "--b--\r\n")).parseMultiPartFile.nullFile = true := by
    decide +kernel
  rintro ⟨hno, -⟩
  rw [hflag] at hno
  cases hno

/-! ### Files that are never deleted

A file is deleted by way of the map. One that the map does not have is never closed. -/

/-- Every file that is created is filed, and no later part files another one under the same name. -/
def AllFiled : List ReadPart → Prop
  | [] => True
  | s :: parts =>
      (s.IsFile → s.data ≠ [] → s.closed = true ∧
        ∀ s' ∈ parts, s'.IsFile → s'.closed = true → s'.names.fieldName ≠ s.names.fieldName) ∧
      AllFiled parts

instance decidableAllFiled : (parts : List ReadPart) → Decidable (AllFiled parts)
  | [] => isTrue trivial
  | _ :: parts => @instDecidableAnd _ _ inferInstance (decidableAllFiled parts)

theorem mem_deletedFiles {r : HttpRequest} {i : Nat} :
    some i ∈ r.deletedFiles ↔ ∃ name : Bytes, r.uploadedFiles[name]? = some (some i) := by
  unfold deletedFiles
  rw [List.mem_map]
  constructor
  · rintro ⟨name, -, hname⟩
    refine ⟨name, ?_⟩
    cases hvalue : r.uploadedFiles[name]? with
    | none => rw [hvalue] at hname; cases hname
    | some file => rw [hvalue] at hname; exact congrArg some hname
  · rintro ⟨name, hname⟩
    refine ⟨name, ?_, by rw [hname]; rfl⟩
    rw [Std.ExtTreeMap.mem_keys, Std.ExtTreeMap.mem_iff_isSome_getElem?, hname]
    rfl

theorem Ledger.add_created (l : Ledger) (s : ReadPart) :
    (l.add s).created = if s.IsFile ∧ s.data ≠ [] then l.created + 1 else l.created := by
  by_cases hfile : s.IsFile
  · rw [add_file hfile]
    by_cases hdata : s.data = [] <;> simp [hfile, hdata]
  · rw [add_other hfile, if_neg fun h => hfile h.1]

theorem Ledger.created_le_add (l : Ledger) (s : ReadPart) : l.created ≤ (l.add s).created := by
  rw [l.add_created]
  split <;> omega

theorem created_le_foldl (parts : List ReadPart) (l : Ledger) :
    l.created ≤ (parts.foldl Ledger.add l).created := by
  induction parts generalizing l with
  | nil => exact Nat.le_refl _
  | cons s parts ih => exact (l.created_le_add s).trans (ih (l.add s))

/-- A file that is there already stays filed under a name unless a later part takes the name. -/
theorem foldl_uploads_old {parts : List ReadPart} {l : Ledger} {i : Nat} (hi : i < l.created)
    (name : Bytes) : (parts.foldl Ledger.add l).uploads[name]? = some (some i) ↔
      l.uploads[name]? = some (some i) ∧
        ∀ s ∈ parts, s.IsFile → s.closed = true → s.names.fieldName ≠ name := by
  induction parts generalizing l with
  | nil => simp
  | cons s parts ih =>
      have hnew : l.fileOf s ≠ some i := by
        rw [Ledger.fileOf]
        split
        · exact fun h => by cases h
        · intro h
          have heq := Option.some.inj h
          omega
      have hadd : (l.add s).uploads[name]? = some (some i) ↔ l.uploads[name]? = some (some i) ∧
          ¬ (s.IsFile ∧ s.closed = true ∧ s.names.fieldName = name) := by
        rw [l.add_uploads]
        split
        · next h => simp [hnew, h]
        · next h => simp only [h, not_false_iff, and_true]
      rw [List.foldl_cons, ih (Nat.lt_of_lt_of_le hi (l.created_le_add s)), hadd,
        List.forall_mem_cons, and_assoc]
      simp only [not_and, ne_eq]

/-- The files that the map refers to are there. -/
def Ledger.Valid (l : Ledger) : Prop :=
  ∀ (name : Bytes) (i : Nat), l.uploads[name]? = some (some i) → i < l.created

theorem Ledger.Valid.add {l : Ledger} (h : l.Valid) (s : ReadPart) : (l.add s).Valid := by
  intro name i hname
  rw [l.add_uploads] at hname
  split at hname
  · next hpart =>
      rw [Option.some.injEq, fileOf] at hname
      split at hname
      · cases hname
      · next hdata =>
          obtain rfl := Option.some.inj hname
          rw [l.add_created, if_pos ⟨hpart.1, hdata⟩]
          exact Nat.lt_succ_self _
  · exact Nat.lt_of_lt_of_le (h name i hname) (l.created_le_add s)

/-- The file of a part is filed at the end: the part is closed, and the name is not taken later. -/
theorem foldl_uploads_new {parts : List ReadPart} {l : Ledger} (h : l.Valid) {s : ReadPart}
    (hfile : s.IsFile) (hdata : s.data ≠ []) :
    (∃ name : Bytes, (parts.foldl Ledger.add (l.add s)).uploads[name]? = some (some l.created)) ↔
      s.closed = true ∧
        ∀ s' ∈ parts, s'.IsFile → s'.closed = true → s'.names.fieldName ≠ s.names.fieldName := by
  have hlt : l.created < (l.add s).created := by
    rw [l.add_created, if_pos ⟨hfile, hdata⟩]
    exact Nat.lt_succ_self _
  have hhere : ∀ name : Bytes, (l.add s).uploads[name]? = some (some l.created) ↔
      s.closed = true ∧ s.names.fieldName = name := by
    intro name
    have hold : l.uploads[name]? ≠ some (some l.created) :=
      fun hname => Nat.lt_irrefl _ (h name _ hname)
    rw [l.add_uploads, Ledger.fileOf, if_neg hdata]
    by_cases hpart : s.closed = true ∧ s.names.fieldName = name
    · simp [hfile, hpart]
    · rw [if_neg fun hall => hpart hall.2]
      simp [hold, hpart]
  simp only [foldl_uploads_old hlt, hhere]
  constructor
  · rintro ⟨name, ⟨hclosed, rfl⟩, hlater⟩
    exact ⟨hclosed, hlater⟩
  · rintro ⟨hclosed, hlater⟩
    exact ⟨s.names.fieldName, ⟨hclosed, rfl⟩, hlater⟩

/-- **Every new file is filed** exactly when the parts say so. -/
theorem foldl_filed_iff {parts : List ReadPart} {l : Ledger} (h : l.Valid) :
    (∀ i, l.created ≤ i → i < (parts.foldl Ledger.add l).created →
      ∃ name : Bytes, (parts.foldl Ledger.add l).uploads[name]? = some (some i)) ↔
      AllFiled parts := by
  induction parts generalizing l with
  | nil => exact ⟨fun _ => trivial, fun _ i hi hlt => absurd hlt (Nat.not_lt.mpr hi)⟩
  | cons s parts ih =>
      rw [AllFiled, ← ih (h.add s), List.foldl_cons]
      have hle := created_le_foldl parts (l.add s)
      by_cases hnew : s.IsFile ∧ s.data ≠ []
      · have hcreated : (l.add s).created = l.created + 1 := by rw [l.add_created, if_pos hnew]
        have hown := @foldl_uploads_new parts _ h s hnew.1 hnew.2
        constructor
        · intro hall
          refine ⟨fun _ _ => hown.mp (hall _ (Nat.le_refl _) (by omega)), fun i hi hlt => ?_⟩
          exact hall i (by omega) hlt
        · rintro ⟨hfiled, hall⟩ i hi hlt
          rcases Nat.eq_or_lt_of_le hi with rfl | hgt
          · exact hown.mpr (hfiled hnew.1 hnew.2)
          · exact hall i (by omega) hlt
      · have hcreated : (l.add s).created = l.created := by rw [l.add_created, if_neg hnew]
        rw [hcreated]
        exact ⟨fun hall => ⟨fun hfile hdata => absurd ⟨hfile, hdata⟩ hnew, hall⟩,
          fun hall => hall.2⟩

/-- Every file that the parser created is in the map of uploaded files, and so it is closed and
deleted with the request. -/
def FilesDeleted (r : HttpRequest) : Prop :=
  ∀ i, r.tempFiles.length ≤ i → i < r.parseMultiPartFile.tempFiles.length →
    (∃ name : Bytes, r.parseMultiPartFile.uploadedFiles[name]? = some (some i)) ∧
      some i ∈ r.parseMultiPartFile.deletedFiles

/-- **Uploaded files are deleted with the request** exactly when every file part with data is ended
by a boundary line and no later one has the same field name. Where the parser uses a null pointer
on its way (`nullFile`), this is about what it does if it gets
past that. -/
theorem filesDeleted_iff {r : HttpRequest} (h : r.NoUploads) :
    r.FilesDeleted ↔ AllFiled r.readPartsOf := by
  have hvalid : r.ledger.Valid := by
    intro name i hname
    change r.uploadedFiles[name]? = some (some i) at hname
    rw [h.uploads] at hname
    simp at hname
  rw [← foldl_filed_iff hvalid, ← parseMultiPartFile_ledger]
  simp only [FilesDeleted, mem_deletedFiles, and_self]
  exact Iff.rfl

theorem filesDeleted_fileRequest : (fileRequest (ascii "x\r\n--b--\r\n")).FilesDeleted :=
  (filesDeleted_iff ⟨rfl, rfl⟩).mpr (by decide +kernel)

/-- **A file that is cut off is never deleted.** -/
theorem not_filesDeleted_truncated : ¬ (fileRequest (ascii "x")).FilesDeleted := by
  intro hdeleted
  have hfile := (hdeleted 0 (Nat.le_refl 0) (by decide +kernel)).2
  revert hfile
  decide +kernel

end HttpRequest

end QtWebApp
