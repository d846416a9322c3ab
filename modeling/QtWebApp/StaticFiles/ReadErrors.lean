import Mathlib.Data.List.InsertIdx
import QtWebApp.StaticFiles.Caching

/-!
# QtWebApp.StaticFiles.ReadErrors

What a failed read leaves in the cache.

The calls are watched (`follow`): beside every entry that is going to be stored, and every entry of
the cache, stands the file it was read from. The loop that reads a file ends with an error as it
ends at the end of the file, and what has been read so far is stored in either case; so an entry is
the whole file only if no read failed (`File.flatten_buffers_iff`), and nothing but storing an entry
can put a truncated one into the cache.

Once a truncated entry is in the cache, it is served until it is dropped or too old, and with a
timeout of 0 it never gets too old. The condition is on the event that stores an entry, and on the
file that was read for it.
-/

namespace QtWebApp

open Bytes

namespace StaticFiles

/-! ### Watching the files

The files stand beside the state and influence nothing. -/

/-- The controller and its calls, and the files that the entries were read from. -/
structure Watch where
  state : State
  /-- Those of the entries that are going to be stored, in the same order. -/
  storing : List File
  /-- Those of the entries of the cache. -/
  cached : Bytes → Option File

/-- A controller that is not in use, with what is known of its cache. -/
def Watch.start (c : StaticFileController) (cached : Bytes → Option File) : Watch where
  state := idle c
  storing := []
  cached := cached

/-- The file whose content a call is going to store. -/
def storedFile (c : StaticFileController) (files : FileSystem) (path : Bytes) : Option File :=
  (files.openFile (c.docroot ++ c.locate files path)).filter fun file =>
    file.size ≤ c.maxCachedFileSize

/-- The state after an event, and the files. -/
def follow (w : Watch) : Event → Watch
  | .look now request => { w with state := step w.state (.look now request) }
  | .fetch n files =>
      { w with
        state := step w.state (.fetch n files)
        storing := w.storing ++ (w.state.reading[n]?.bind fun call =>
          storedFile w.state.controller files call.1).toList }
  | .store n keeps =>
      { state := step w.state (.store n keeps)
        storing := w.storing.eraseIdx n
        cached := match w.state.storing[n]? with
          | some (path, _) => fun key =>
              if keeps key then if key = path then w.storing[n]? else w.cached key else none
          | none => w.cached }

/-- Watching changes nothing. -/
theorem follow_state (w : Watch) (e : Event) : (follow w e).state = step w.state e := by
  cases e <;> rfl

theorem run_follow_state (w : Watch) (events : List Event) :
    (run follow w events).state = run step w.state events :=
  Run.run_map follow_state w events

/-- No entry of the cache is truncated, and no document that is served from it. -/
structure Unpoisoned (w : Watch) : Prop where
  entries : ∀ path entry, w.state.controller.cache[path]? = some entry →
    ∃ file, w.cached path = some file ∧ entry.document = file.rest
  served : ∀ now path entry, w.state.controller.lookUp now path = some entry →
    ∃ file, w.cached path = some file ∧
      (w.state.controller.deliverEntry entry).answer.body = file.rest

/-- An event that does not store what was read of a file until an error. -/
def Harmless (w : Watch) : Event → Prop
  | .store n keeps => ∀ call ∈ w.state.storing[n]?, ∀ file ∈ w.storing[n]?,
      keeps call.1 = true → file.ReadsAll
  | _ => True

instance (w : Watch) : (e : Event) → Decidable (Harmless w e)
  | .store n keeps => inferInstanceAs (Decidable (∀ call ∈ w.state.storing[n]?,
      ∀ file ∈ w.storing[n]?, keeps call.1 = true → file.ReadsAll))
  | .look _ _ => inferInstanceAs (Decidable True)
  | .fetch _ _ => inferInstanceAs (Decidable True)

/-! ### Entries and their files

An entry is the whole file or the beginning of it, and a delivery shows which. -/

/-- What is stored of a file is what was read of it. -/
theorem fetch_stored (c : StaticFileController) (now : Int) (files : FileSystem) (path : Bytes) :
    (c.fetch now files path).2 = (storedFile c files path).map fun file =>
      ⟨file.buffers.flatten, now, c.locate files path⟩ := by
  unfold StaticFileController.fetch storedFile
  dsimp only
  cases files.openFile (c.docroot ++ c.locate files path) with
  | none => rfl
  | some file =>
      dsimp only
      by_cases hsmall : file.size ≤ c.maxCachedFileSize
      · simp [hsmall]
      · rw [if_neg hsmall, Option.filter_some, if_neg (by simpa using hsmall)]
        rfl

/-- What is served from the cache is the document of the entry. -/
theorem deliverEntry_body (c : StaticFileController) (entry : CacheEntry) :
    (c.deliverEntry entry).answer.body = entry.document := by
  have hheaders : (c.fileHeaders entry.filename).flatMap ResponseCall.data = [] := by
    unfold StaticFileController.fileHeaders StaticFileController.setContentType
    split <;> rfl
  have hwrite : [ResponseCall.write entry.document false].flatMap ResponseCall.data =
      entry.document :=
    List.flatMap_singleton _ _
  rw [Delivery.answer, StaticFileController.deliverEntry, List.flatMap_append, hheaders, hwrite,
    List.nil_append]

theorem unpoisoned_of_entries {w : Watch}
    (h : ∀ path entry, w.state.controller.cache[path]? = some entry →
      ∃ file, w.cached path = some file ∧ entry.document = file.rest) : Unpoisoned w where
  entries := h
  served := fun now path entry hlook => by
    rw [deliverEntry_body]
    exact h path entry (getElem?_of_lookUp hlook)

/-! ### One event

Storing an entry is the one event that matters. -/

/-- The files stand beside the entries that were read from them, and no entry of the cache is
truncated. -/
structure Traced (w : Watch) : Prop where
  documents : w.state.storing.map (fun e => e.2.document) =
    w.storing.map fun file => file.buffers.flatten
  unpoisoned : Unpoisoned w

theorem look_fields (s : State) (now : Int) (path : Bytes) :
    (look s now path).controller = s.controller ∧ (look s now path).storing = s.storing := by
  rcases look_cases s now path with ⟨entry, -, hs⟩ | ⟨-, -, hs⟩ | ⟨-, -, hs⟩
  all_goals
    rw [hs]
    exact ⟨rfl, rfl⟩

/-- Only storing an entry changes the cache. -/
theorem Unpoisoned.same {w w' : Watch} (h : Unpoisoned w)
    (hcontroller : w'.state.controller = w.state.controller) (hcached : w'.cached = w.cached) :
    Unpoisoned w' := by
  refine unpoisoned_of_entries ?_
  rw [hcontroller, hcached]
  exact h.entries

theorem Traced.look {w : Watch} (h : Traced w) (now : Int) (request : RequestView) :
    Traced (follow w (.look now request)) := by
  obtain ⟨hcontroller, hstoring⟩ := look_fields w.state now
      (StaticFileController.requestedPath request)
  refine ⟨?_, h.unpoisoned.same hcontroller rfl⟩
  show (StaticFiles.look w.state now (StaticFileController.requestedPath request)).storing.map _ = _
  rw [hstoring]
  exact h.documents

/-- A file is read, and stands beside what was read of it. -/
theorem Traced.fetch {w : Watch} (h : Traced w) (n : Nat) (files : FileSystem) :
    Traced (follow w (.fetch n files)) := by
  cases hcall : w.state.reading[n]? with
  | none =>
      have hstate : StaticFiles.fetch w.state n files = w.state := by rw [StaticFiles.fetch, hcall]
      have hwatch : follow w (.fetch n files) = w := by
        simp only [follow, step, hstate, hcall, Option.bind_none, Option.toList_none,
          List.append_nil]
      rw [hwatch]
      exact h
  | some call =>
      have hstate : (step w.state (.fetch n files)).controller = w.state.controller ∧
          (step w.state (.fetch n files)).storing = w.state.storing ++
            ((w.state.controller.fetch call.2 files call.1).2.map fun entry =>
              (call.1, entry)).toList := by
        rw [step, StaticFiles.fetch, hcall]
        exact ⟨rfl, rfl⟩
      refine ⟨?_, h.unpoisoned.same hstate.1 rfl⟩
      simp only [follow, hcall, Option.bind_some]
      rw [hstate.2, List.map_append, List.map_append, h.documents, fetch_stored]
      congr 1
      cases storedFile w.state.controller files call.1 <;> rfl

/-- The file of an entry that is going to be stored. -/
theorem Traced.file {w : Watch} (h : Traced w) {n : Nat} {call : Bytes × CacheEntry}
    (hcall : w.state.storing[n]? = some call) :
    ∃ file, w.storing[n]? = some file ∧ call.2.document = file.buffers.flatten := by
  have hdocument := congrArg (fun l => l[n]?) h.documents
  simp only [List.getElem?_map, hcall, Option.map_some] at hdocument
  obtain ⟨file, hfile, heq⟩ := Option.map_eq_some_iff.mp hdocument.symm
  exact ⟨file, hfile, heq.symm⟩

/-- What is in the cache when an entry has been stored, and the files beside it. -/
theorem follow_store {w : Watch} {n : Nat} {path : Bytes} {entry : CacheEntry}
    (hcall : w.state.storing[n]? = some (path, entry)) (keeps : Bytes → Bool) (key : Bytes) :
    (follow w (.store n keeps)).state.controller.cache[key]? =
      (if keeps key then if key = path then some entry
        else w.state.controller.cache[key]? else none) ∧
    (follow w (.store n keeps)).cached key =
      if keeps key then if key = path then w.storing[n]? else w.cached key else none := by
  have hcontroller : (follow w (.store n keeps)).state.controller =
      w.state.controller.store keeps path entry := by
    simp only [follow, step, StaticFiles.store, hcall]
  refine ⟨?_, ?_⟩
  · rw [hcontroller, getElem?_store]
  · simp only [follow, hcall]

theorem Traced.store {w : Watch} (h : Traced w) {n : Nat} {keeps : Bytes → Bool}
    (hharmless : Harmless w (.store n keeps)) : Traced (follow w (.store n keeps)) := by
  cases hcall : w.state.storing[n]? with
  | none =>
      have hstate : StaticFiles.store w.state n keeps = w.state := by rw [StaticFiles.store, hcall]
      have hlength : w.storing.length ≤ n := by
        have hsame := congrArg List.length h.documents
        rw [List.length_map, List.length_map] at hsame
        rw [← hsame]
        exact List.getElem?_eq_none_iff.mp hcall
      have hwatch : follow w (.store n keeps) = w := by
        simp only [follow, step, hstate, hcall, List.eraseIdx_of_length_le hlength]
      rw [hwatch]
      exact h
  | some call =>
      obtain ⟨path, entry⟩ := call
      obtain ⟨file, hfile, hdocument⟩ := h.file hcall
      have hstoring : (step w.state (.store n keeps)).storing = w.state.storing.eraseIdx n := by
        rw [step, StaticFiles.store, hcall]
      refine ⟨?_, unpoisoned_of_entries fun key entry' hentry => ?_⟩
      · simp only [follow, hstoring]
        rw [← List.eraseIdx_map, h.documents, List.eraseIdx_map]
      · obtain ⟨hcache, hcached⟩ := follow_store hcall keeps key
        rw [hcache] at hentry
        obtain ⟨hkeeps, hentry⟩ := Option.ite_none_right_eq_some.mp hentry
        rw [hcached, if_pos hkeeps]
        by_cases hkey : key = path
        · -- the new entry
          rw [if_pos hkey] at hentry ⊢
          have hreads : file.ReadsAll := hharmless _ hcall file hfile (hkey ▸ hkeeps)
          refine ⟨file, hfile, ?_⟩
          rw [← Option.some.inj hentry, hdocument]
          exact File.flatten_buffers_iff.mpr hreads
        · rw [if_neg hkey] at hentry ⊢
          exact h.unpoisoned.entries key entry' hentry

/-- **A harmless event.** -/
theorem Traced.follow {w : Watch} (h : Traced w) {e : Event} (hharmless : Harmless w e) :
    Traced (StaticFiles.follow w e) := by
  cases e with
  | look now request => exact h.look now request
  | fetch n files => exact h.fetch n files
  | store n keeps => exact h.store hharmless

/-- What was read until an error is truncated, and so is then the entry of the cache. -/
theorem Traced.fails {w : Watch} (h : Traced w) {e : Event} (hharmful : ¬ Harmless w e) :
    ¬ Unpoisoned (StaticFiles.follow w e) := by
  cases e with
  | look => exact absurd trivial hharmful
  | fetch => exact absurd trivial hharmful
  | store n keeps =>
      intro hafter
      refine hharmful fun call hcall file hfile hkeeps => ?_
      obtain ⟨path, entry⟩ := call
      obtain ⟨file', hfile', hdocument⟩ := h.file hcall
      obtain rfl : file = file' := Option.some.inj (hfile.symm.trans hfile')
      obtain ⟨hcache, hcached⟩ := follow_store hcall keeps path
      rw [if_pos hkeeps, if_pos rfl] at hcache hcached
      obtain ⟨file', hfound, hwhole⟩ := hafter.entries path entry hcache
      obtain rfl : file = file' := Option.some.inj (hfile.symm.trans (hcached.symm.trans hfound))
      exact File.flatten_buffers_iff.mp (hdocument.symm.trans hwhole)

/-! ### Runs

Exact for a run from any cache that is free of truncated files. -/

/-- **The cache stays free of truncated files**, in every run from every state of the cache, exactly
if no entry is kept that was read from a file with an error before its end. -/
theorem unpoisoned_iff {c : StaticFileController} {cached : Bytes → Option File}
    (h : Unpoisoned (.start c cached)) (events : List Event) :
    (∀ before after, events = before ++ after → Unpoisoned (run follow (.start c cached) before)) ↔
      Run.Along follow Harmless (.start c cached) events :=
  Run.along_iff (I := Traced) (P := Unpoisoned) (fun _ h => h.unpoisoned)
    (fun _ _ h hharmless => h.follow hharmless)
      (fun _ _ h hharmful => h.fails hharmful) ⟨rfl, h⟩ events

/-- An empty cache. -/
theorem unpoisoned_new (settings : FileSettings) :
    Unpoisoned (.start (.new settings) fun _ => none) := by
  refine unpoisoned_of_entries fun path _ h => ?_
  exact nomatch (getElem?_new settings path).symm.trans h

/-- A controller whose entries never get too old. -/
def keepingSettings : FileSettings := ⟨ascii "/srv", ascii "UTF-8", 60000, 65536, 0, id⟩

/-- A request for a file of three bytes, reading which fails after some blocks; what was read is
stored. -/
def storeAfter (blocks : Nat) : List Event :=
  let request := ((HttpRequest.new defaultSettings).readFromSocket
    (ascii "GET /a.txt HTTP/1.1\r\n")).1.view
  let files : FileSystem := {
    isDir := fun _ => false
    openFile := fun _ => some ⟨3, ascii "abc", some blocks, false⟩
    fileExists := fun _ => true }
  [.look 0 request, .fetch 0 files, .store 0 fun _ => true]

theorem unpoisoned_iff_late :
    Run.Along follow Harmless (.start (.new keepingSettings) fun _ => none) (storeAfter 1) ∧
      ∀ before after, storeAfter 1 = before ++ after →
        Unpoisoned (run follow (.start (.new keepingSettings) fun _ => none) before) := by
  have halong : Run.Along follow Harmless (.start (.new keepingSettings) fun _ => none)
    (storeAfter 1) := by decide +kernel
  exact ⟨halong, (unpoisoned_iff (unpoisoned_new keepingSettings) (storeAfter 1)).mpr halong⟩

/-- **A failed read poisons the cache**: the next request, however late, is answered with an empty
file. -/
theorem not_unpoisoned_failed :
    let request := ((HttpRequest.new defaultSettings).readFromSocket
      (ascii "GET /a.txt HTTP/1.1\r\n")).1.view
    let s := run step (idle (.new keepingSettings)) (storeAfter 0)
    ((answered s (.look 86400000 request)).map fun r =>
        (r.delivery.answer.status, r.delivery.answer.body)) = some (200, []) ∧
      ¬ ∀ before after, storeAfter 0 = before ++ after →
        Unpoisoned (run follow (.start (.new keepingSettings) fun _ => none) before) := by
  refine ⟨by decide +kernel, fun hall => ?_⟩
  obtain ⟨file, hfile, hwhole⟩ := (hall (storeAfter 0) [] (List.append_nil _).symm).entries
    (ascii "/a.txt") ⟨[], 0, ascii "/a.txt"⟩ (by decide +kernel)
  have hcontent : ((run follow (.start (.new keepingSettings) fun _ => none) (storeAfter 0)).cached
      (ascii "/a.txt")).map File.rest = some (ascii "abc") := by decide +kernel
  rw [hfile, Option.map_some, ← hwhole] at hcontent
  exact absurd hcontent (by decide)

end StaticFiles

end QtWebApp
