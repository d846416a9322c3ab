import QtWebApp.Responding.RoundTrip
import QtWebApp.StaticFiles.Reading
import QtWebApp.StaticFiles.Threads

/-!
# QtWebApp.StaticFiles.Caching

What clients see of the cache: nothing but its age.

Without a cache every answer shows the files as they are (`direct`). With one an answer shows
them as they were at some instant, and the timeout bounds how long ago that was. This holds
because every entry is a snapshot: its file name and its document are those of one instant, and the
time it was created is not later than that instant. Paths are taken to be UTF-8 without
NUL and byte order mark, so that two paths are never the same key.

Between the moment at which a file is read and the moment at which its entry is stored other threads
run, and the file may change. The entry stays a snapshot of the earlier moment, but it is marked
with the time at which the call began, so it never looks younger than it is.
-/

namespace QtWebApp

open Bytes

/-! ### Answers

What a client sees of an answer, independent of the calls by which the response was made. -/

/-- What is compared of an answer. -/
structure Answer where
  status : Int
  contentType : Option Bytes
  cacheControl : Option Bytes
  body : Bytes
  deriving DecidableEq

namespace Delivery

/-- The calls that come before the first write: they make the head of the response. -/
def head (d : Delivery) : List ResponseCall :=
  d.calls.takeWhile fun
    | .write _ _ => false
    | .redirect _ => false
    | _ => true

/-- The status code in the head. -/
def status (d : Delivery) : Int :=
  d.head.foldl (fun status call => match call with
    | .setStatus statusCode _ => statusCode
    | _ => status) 200

/-- A header in the head. -/
def header (d : Delivery) (name : Bytes) : Option Bytes :=
  d.head.foldl (fun value call => match call with
    | .setHeader name' value' => if name' = name then some value' else value
    | _ => value) none

/-- What a client gets. -/
def answer (d : Delivery) : Answer where
  status := d.status
  contentType := d.header (ascii "Content-Type")
  cacheControl := d.header (ascii "Cache-Control")
  body := d.calls.flatMap ResponseCall.data

end Delivery

namespace StaticFiles

/-! ### Files that change

The files may be others at each step. The clock only has to be monotone. -/

/-- An instant: what the clock shows, and the files as they are. Every read of a file succeeds. -/
structure Moment where
  now : Int
  files : FileSystem
  readable : ∀ name file, files.openFile name = some file →
    file.failsAfter = none ∧ file.error = false

/-- What a thread does in a step. -/
inductive Action
  | look (request : RequestView)
  | fetch (n : Nat)
  | store (n : Nat) (keeps : Bytes → Bool)

/-- A step of some thread, at some instant. -/
structure Tick where
  moment : Moment
  action : Action

/-- The event that a step is. -/
def Tick.event (t : Tick) : Event :=
  match t.action with
  | .look request => .look t.moment.now request
  | .fetch n => .fetch n t.moment.files
  | .store n keeps => .store n keeps

/-- The state after a step. -/
def advance (s : State) (t : Tick) : State := step s t.event

/-- The clock does not go back. -/
def Ordered (ticks : List Tick) : Prop :=
  ticks.Pairwise fun t t' => t.moment.now ≤ t'.moment.now

/-- A response: to which path, when the call began, and what was delivered. -/
structure Response where
  path : Bytes
  called : Int
  delivery : Delivery

/-- The response that an event completes. -/
def answered (s : State) : Event → Option Response
  | .look now request =>
      let path := StaticFileController.requestedPath request
      match s.controller.lookUp now path with
      | some entry => some ⟨path, now, s.controller.deliverEntry entry⟩
      | none =>
          if StaticFileController.isForbidden path
            then some ⟨path, now, StaticFileController.refuse⟩
          else none
  | .fetch n files =>
      s.reading[n]?.map fun call => ⟨call.1, call.2, (s.controller.fetch call.2 files call.1).1⟩
  | .store _ _ => none

/-! ### Delivery without a cache

What `service` does for a path when nothing is in the cache. -/

/-- The file that is delivered for a path. -/
def fileOf (settings : FileSettings) (files : FileSystem) (path : Bytes) : Option File :=
  files.openFile (StaticFileController.docrootOf settings ++
    (StaticFileController.new settings).locate files path)

/-- What a controller without a cache delivers. -/
def direct (settings : FileSettings) (files : FileSystem) (path : Bytes) : Delivery :=
  if StaticFileController.isForbidden path then StaticFileController.refuse
  else ((StaticFileController.new settings).fetch 0 files path).1

/-- The time of a call matters for the cache only. -/
theorem fetch_delivery (c : StaticFileController) (now : Int) (files : FileSystem) (path : Bytes) :
    (c.fetch now files path).1 = (c.fetch 0 files path).1 := by
  unfold StaticFileController.fetch
  dsimp only
  split <;> rfl

/-- The first call of `service` has no use of the cache. -/
theorem service_new (settings : FileSettings) (now : Int) (files : FileSystem)
    (keeps : Bytes → Bool) (request : RequestView) :
    ((StaticFileController.new settings).service now files keeps request).1 =
      direct settings files (StaticFileController.requestedPath request) := by
  have hmiss : (StaticFileController.new settings).lookUp now
      (StaticFileController.requestedPath request) =
      none := by
    rw [StaticFileController.lookUp, getElem?_new]
    rfl
  unfold StaticFileController.service direct
  dsimp only
  rw [hmiss]
  dsimp only
  split
  · rfl
  · rw [← fetch_delivery _ now]
    cases (StaticFileController.new settings).fetch now files
      (StaticFileController.requestedPath request) with
    | mk delivery entry => cases entry <;> rfl

/-! ### Delivering a file

The same answer comes from a file and from an entry that was made of it. -/

/-- The answer with which a file is delivered. -/
def fileAnswer (settings : FileSettings) (fileName content : Bytes) : Answer where
  status := 200
  contentType := ((StaticFileController.new settings).contentTypes.find? fun t =>
    fileName.endsWith t.1).map Prod.snd
  cacheControl := some (ascii "max-age=" ++ number (settings.maxAge.tdiv 1000))
  body := content

/-- The headers of a file and then any writes are the answer with that file. -/
theorem answer_file (settings : FileSettings) (touched : List Bytes) (source : Option Bytes)
    (fileName : Bytes) (pieces : List Bytes) :
    Delivery.answer ⟨touched, source, (StaticFileController.new settings).fileHeaders fileName ++
      pieces.map fun piece => .write piece false⟩ =
        fileAnswer settings fileName pieces.flatten := by
  have hwrites : ∀ p, (∀ piece, p (ResponseCall.write piece false) = false) →
      (pieces.map fun piece => ResponseCall.write piece false).takeWhile p = [] := by
    intro p hp
    cases pieces with
    | nil => rfl
    | cons piece pieces =>
        rw [List.map_cons, List.takeWhile_cons, hp]
        rfl
  have hdata : (pieces.map fun piece => ResponseCall.write piece false).flatMap ResponseCall.data =
      pieces.flatten := by
    rw [List.flatMap_map]
    exact List.flatMap_id
  have hnames : ascii "Cache-Control" ≠ ascii "Content-Type" := by decide
  unfold Delivery.answer Delivery.status Delivery.header Delivery.head
  unfold StaticFileController.fileHeaders StaticFileController.setContentType fileAnswer
  cases hfind : (StaticFileController.new settings).contentTypes.find? fun t =>
      fileName.endsWith t.1 with
  | none => simp [hwrites, hdata, hnames, ResponseCall.data, StaticFileController.new]
  | some t => simp [hwrites, hdata, hnames, hnames.symm, ResponseCall.data,
      StaticFileController.new]

/-- What is delivered directly for a file. -/
theorem direct_file {settings : FileSettings} {m : Moment} {path : Bytes} {file : File}
    (hallowed : StaticFileController.isForbidden path = false)
    (hfile : fileOf settings m.files path = some file) :
    (direct settings m.files path).answer =
      fileAnswer settings ((StaticFileController.new settings).locate m.files path) file.rest := by
  have hopen : m.files.openFile ((StaticFileController.new settings).docroot ++
      (StaticFileController.new settings).locate m.files path) = some file := hfile
  rw [direct, hallowed, if_neg Bool.false_ne_true, StaticFileController.fetch, hopen]
  dsimp only
  rw [answer_file, File.flatten_buffers (m.readable _ _ hfile)]

/-! ### Faithful responses

A response is compared with what a controller without a cache would have sent at some instant that
is recent enough, and with what it would send when the files never change. -/

/-- The instant is less than the timeout before the call, or any one when there is no timeout. With
a negative timeout nothing is taken from the cache. -/
def Recent (cacheTimeout called t : Int) : Prop :=
  cacheTimeout = 0 ∨ called - max cacheTimeout 1 < t

/-- The response is what a controller without a cache would deliver. -/
structure Faithful (settings : FileSettings) (moments : List Moment) (r : Response) : Prop where
  /-- A successful one has the content of a recent instant, and is that instant's response. -/
  recent : r.delivery.answer.status = 200 →
    ∃ m ∈ moments, Recent settings.cacheTime r.called m.now ∧
      (∃ file, fileOf settings m.files r.path = some file ∧ r.delivery.answer.body = file.rest) ∧
        r.delivery.answer = (direct settings m.files r.path).answer
  /-- Files that do not change are delivered as they are. -/
  unchanged : ∀ files, (∀ m ∈ moments, m.files = files) →
    r.delivery.answer = (direct settings files r.path).answer

/-! ### Entries are snapshots

The invariant. It also holds of the entries that are still to be stored. -/

/-- The entry is what the file for the path was at some instant, and was created before that. -/
def Snapshot (settings : FileSettings) (moments : List Moment) (path : Bytes) (entry : CacheEntry) :
    Prop :=
  StaticFileController.isForbidden path = false ∧
    ∃ m ∈ moments, entry.created ≤ m.now ∧ ∃ file, fileOf settings m.files path = some file ∧
      entry.document = file.rest ∧
        entry.filename = (StaticFileController.new settings).locate m.files path

theorem Snapshot.append {settings : FileSettings} {moments : List Moment} {path : Bytes}
    {entry : CacheEntry} (h : Snapshot settings moments path entry) (m : Moment) :
    Snapshot settings (moments ++ [m]) path entry := by
  obtain ⟨hallowed, m', hm', hrest⟩ := h
  exact ⟨hallowed, m', List.mem_append_left _ hm', hrest⟩

/-- What is delivered from a snapshot is what was delivered directly at its instant. -/
theorem Snapshot.deliver {settings : FileSettings} {moments : List Moment} {path : Bytes}
    {entry : CacheEntry} (h : Snapshot settings moments path entry) :
    ∃ m ∈ moments, entry.created ≤ m.now ∧
      (∃ file, fileOf settings m.files path = some file ∧
        ((StaticFileController.new settings).deliverEntry entry).answer.body = file.rest) ∧
      ((StaticFileController.new settings).deliverEntry entry).answer =
        (direct settings m.files path).answer := by
  obtain ⟨hallowed, m, hm, hcreated, file, hfile, hdocument, hfilename⟩ := h
  have hanswer : ((StaticFileController.new settings).deliverEntry entry).answer =
      fileAnswer settings entry.filename entry.document := by
    have hone := answer_file settings [] (some ((StaticFileController.new settings).docroot ++
      entry.filename)) entry.filename [entry.document]
    rw [List.flatten_singleton] at hone
    exact hone
  refine ⟨m, hm, hcreated, ⟨file, hfile, ?_⟩, ?_⟩
  · rw [hanswer]
    exact hdocument
  · rw [hanswer, direct_file hallowed hfile, hdocument, hfilename]

/-- What is read is delivered directly, and a success has the content of the file. -/
theorem fetch_direct {settings : FileSettings} {m : Moment} {path : Bytes} (now : Int)
    (hallowed : StaticFileController.isForbidden path = false) :
    ((StaticFileController.new settings).fetch now m.files path).1 = direct settings m.files path ∧
      ((direct settings m.files path).answer.status = 200 →
        ∃ file, fileOf settings m.files path = some file ∧
          (direct settings m.files path).answer.body = file.rest) := by
  refine ⟨?_, fun hstatus => ?_⟩
  · rw [fetch_delivery, direct, hallowed, if_neg Bool.false_ne_true]
  · cases hfile : fileOf settings m.files path with
    | some file =>
        refine ⟨file, rfl, ?_⟩
        rw [direct_file hallowed hfile]
        rfl
    | none =>
        have hopen : m.files.openFile ((StaticFileController.new settings).docroot ++
            (StaticFileController.new settings).locate m.files path) = none := hfile
        rw [direct, hallowed, if_neg Bool.false_ne_true, StaticFileController.fetch,
          hopen] at hstatus
        dsimp only at hstatus
        split at hstatus
        · exact absurd (show (403 : Int) = 200 from hstatus) (by decide)
        · exact absurd (show (404 : Int) = 200 from hstatus) (by decide)

/-- What is to be stored of a file that was read is a snapshot. -/
theorem snapshot_fetch {settings : FileSettings} {m : Moment} {moments : List Moment} {path : Bytes}
    {now : Int} {entry : CacheEntry} (hm : m ∈ moments) (hnow : now ≤ m.now)
    (hallowed : StaticFileController.isForbidden path = false)
    (h : ((StaticFileController.new settings).fetch now m.files path).2 = some entry) :
    Snapshot settings moments path entry := by
  unfold StaticFileController.fetch at h
  dsimp only at h
  split at h
  · next file hfile =>
      obtain ⟨-, hentry⟩ := Option.ite_none_right_eq_some.mp h
      have hfile' : fileOf settings m.files path = some file := hfile
      cases hentry
      exact ⟨hallowed, m, hm, hnow, file, hfile', File.flatten_buffers (m.readable _ _ hfile), rfl⟩
  · cases h

/-- What holds at any time: nothing but the cache has changed, calls have begun in the past, and all
entries are snapshots. -/
structure Coherent (settings : FileSettings) (moments : List Moment) (s : State) : Prop where
  controller : s.controller =
    { StaticFileController.new settings with cache := s.controller.cache }
  reading : ∀ call ∈ s.reading, StaticFileController.isForbidden call.1 = false ∧
    ∃ m ∈ moments, m.now = call.2
  storing : ∀ e ∈ s.storing, Snapshot settings moments e.1 e.2
  cache : ∀ path entry, s.controller.cache[path]? = some entry →
    Snapshot settings moments path entry

theorem coherent_idle (settings : FileSettings) : Coherent settings [] (idle (.new settings)) where
  controller := rfl
  reading := List.forall_mem_nil _
  storing := List.forall_mem_nil _
  cache := fun path _ h => nomatch (getElem?_new settings path).symm.trans h

/-- Reading is the same with any cache. -/
theorem Coherent.fetch_eq {settings : FileSettings} {moments : List Moment} {s : State}
    (h : Coherent settings moments s) (now : Int) (files : FileSystem) (path : Bytes) :
    s.controller.fetch now files path = (StaticFileController.new settings).fetch now
      files path := by
  rw [h.controller]
  rfl

theorem Coherent.deliver_eq {settings : FileSettings} {moments : List Moment} {s : State}
    (h : Coherent settings moments s) (entry : CacheEntry) :
    s.controller.deliverEntry entry = (StaticFileController.new settings).deliverEntry entry := by
  rw [h.controller]
  rfl

/-- **The step of the invariant.** -/
theorem Coherent.step {settings : FileSettings} {moments : List Moment} {s : State} {t : Tick}
    (h : Coherent settings moments s) (hclock : ∀ m ∈ moments, m.now ≤ t.moment.now) :
    Coherent settings (moments ++ [t.moment]) (advance s t) := by
  have hnow : t.moment ∈ moments ++ [t.moment] :=
    List.mem_append_right _ (List.mem_singleton_self _)
  have hreading : ∀ call ∈ s.reading, StaticFileController.isForbidden call.1 = false ∧
      ∃ m ∈ moments ++ [t.moment], m.now = call.2 := by
    intro call hcall
    obtain ⟨hallowed, m, hm, hcalled⟩ := h.reading call hcall
    exact ⟨hallowed, m, List.mem_append_left _ hm, hcalled⟩
  have hstoring := fun e he => (h.storing e he).append t.moment
  have hcache := fun path entry he => (h.cache path entry he).append t.moment
  rw [advance, Tick.event]
  cases t.action with
  | look request =>
      rw [StaticFiles.step]
      rcases look_cases s t.moment.now (StaticFileController.requestedPath request)
        with ⟨entry, -, hs⟩ | ⟨-, -, hs⟩ |
        ⟨-, hallowed, hs⟩
      · rw [hs]
        exact ⟨h.controller, hreading, hstoring, hcache⟩
      · rw [hs]
        exact ⟨h.controller, hreading, hstoring, hcache⟩
      · rw [hs]
        refine ⟨h.controller, fun call hcall => ?_, hstoring, hcache⟩
        rcases List.mem_append.mp hcall with hold | hnew
        · exact hreading call hold
        · rw [List.mem_singleton.mp hnew]
          exact ⟨hallowed, t.moment, hnow, rfl⟩
  | fetch n =>
      rw [StaticFiles.step]
      rcases fetch_cases s n t.moment.files with hs | ⟨path, called, hmem, hs⟩
      · rw [hs]
        exact ⟨h.controller, hreading, hstoring, hcache⟩
      · obtain ⟨hallowed, m, hm, hcalled⟩ := h.reading _ hmem
        rw [hs, h.fetch_eq]
        refine ⟨h.controller, fun call hcall => hreading call (List.mem_of_mem_eraseIdx hcall), ?_,
          hcache⟩
        intro e he
        rcases List.mem_append.mp he with hold | hnew
        · exact hstoring e hold
        · -- what was just read
          rw [Option.mem_toList, Option.map_eq_some_iff] at hnew
          obtain ⟨entry, hentry, rfl⟩ := hnew
          exact snapshot_fetch hnow (hcalled.symm.le.trans (hclock m hm)) hallowed hentry
  | store n keeps =>
      rw [StaticFiles.step]
      rcases store_cases s n keeps with hs | ⟨path, entry, hmem, hs⟩
      · rw [hs]
        exact ⟨h.controller, hreading, hstoring, hcache⟩
      · rw [hs]
        refine ⟨?_, hreading, fun e he => hstoring e (List.mem_of_mem_eraseIdx he), ?_⟩
        · rw [h.controller]
          rfl
        · intro path' entry' he
          rcases getElem?_of_store he with ⟨rfl, rfl⟩ | hold
          · exact hstoring _ hmem
          · exact hcache path' entry' hold

/-- Every state of a run with a clock that does not go back is coherent. -/
theorem coherent_run (settings : FileSettings) {ticks : List Tick} (hclock : Ordered ticks) :
    Coherent settings (ticks.map Tick.moment) (run advance (idle (.new settings)) ticks) := by
  induction ticks using List.reverseRecOn with
  | nil => exact coherent_idle settings
  | append_singleton ticks t ih =>
      obtain ⟨hbefore, -, hlast⟩ := List.pairwise_append.mp hclock
      rw [Run.run_append, List.map_append]
      refine (ih hbefore).step fun m hm => ?_
      obtain ⟨t', ht', rfl⟩ := List.mem_map.mp hm
      exact hlast t' ht' t (List.mem_singleton_self _)

/-! ### Responses

Three ways to complete a response: a hit, a refusal, and a file that is read. -/

section Faithful

variable {settings : FileSettings} {moments : List Moment} {s : State} {m : Moment}

/-- A hit: the entry is young enough, and its instant is not earlier. -/
theorem Coherent.faithful_hit (h : Coherent settings moments s)
    (hclock : ∀ m' ∈ moments, m'.now ≤ m.now) {path : Bytes} {entry : CacheEntry}
    (hlook : s.controller.lookUp m.now path = some entry) :
    Faithful settings (moments ++ [m]) ⟨path, m.now, s.controller.deliverEntry entry⟩ := by
  obtain ⟨hmem, hyoung⟩ := Option.filter_eq_some_iff.mp hlook
  obtain ⟨m', hm', hcreated, hbody, hanswer⟩ := (h.cache _ entry hmem).deliver
  have hin : m' ∈ moments ++ [m] := List.mem_append_left _ hm'
  have hrecent : Recent settings.cacheTime m.now m'.now := by
    have htimeout : s.controller.cacheTimeout = settings.cacheTime := by
      rw [h.controller]
      rfl
    have hpast := hclock m' hm'
    rw [htimeout] at hyoung
    simp only [decide_eq_true_eq] at hyoung
    rcases hyoung with hzero | hyoung
    · exact .inl hzero
    · right
      omega
  rw [h.deliver_eq]
  exact ⟨fun _ => ⟨m', hin, hrecent, hbody, hanswer⟩, fun files hall => hall m' hin ▸ hanswer⟩

/-- A path that is refused is refused without a cache, too. -/
theorem faithful_refuse {path : Bytes} (hforbidden : StaticFileController.isForbidden path = true)
    (called : Int) : Faithful settings moments ⟨path, called, StaticFileController.refuse⟩ := by
  refine ⟨fun hstatus => ?_, fun files _ => ?_⟩
  · exact absurd (show (403 : Int) = 200 from hstatus) (by decide)
  · rw [direct, if_pos hforbidden]

/-- A file that is read is delivered as it is at that instant. -/
theorem Coherent.faithful_fetch (h : Coherent settings moments s)
    (hclock : ∀ m' ∈ moments, m'.now ≤ m.now) {path : Bytes} {called : Int}
    (hcall : (path, called) ∈ s.reading) :
    Faithful settings (moments ++ [m])
      ⟨path, called, (s.controller.fetch called m.files path).1⟩ := by
  have hnow : m ∈ moments ++ [m] := List.mem_append_right _ (List.mem_singleton_self _)
  obtain ⟨hallowed, m', hm', hcalled⟩ := h.reading _ hcall
  obtain ⟨hdirect, hsuccess⟩ := @fetch_direct settings m path called hallowed
  have hpast : called ≤ m.now := hcalled.symm.le.trans (hclock m' hm')
  have hrecent : Recent settings.cacheTime called m.now := by
    right
    omega
  rw [h.fetch_eq, hdirect]
  refine ⟨fun hstatus => ⟨m, hnow, hrecent, hsuccess hstatus, rfl⟩, fun files hall => ?_⟩
  exact congrArg (fun files => (direct settings files path).answer) (hall m hnow)

/-- A response is completed in a coherent state. -/
theorem Coherent.faithful {t : Tick} (h : Coherent settings moments s)
    (hclock : ∀ m' ∈ moments, m'.now ≤ t.moment.now) {r : Response}
    (hr : answered s t.event = some r) : Faithful settings (moments ++ [t.moment]) r := by
  rw [Tick.event] at hr
  cases ht : t.action with
  | look request =>
      rw [ht] at hr
      simp only [answered] at hr
      split at hr
      · next entry hlook =>
          cases hr
          exact h.faithful_hit hclock hlook
      · split at hr
        · next hforbidden =>
            cases hr
            exact faithful_refuse hforbidden t.moment.now
        · cases hr
  | fetch n =>
      rw [ht] at hr
      simp only [answered] at hr
      obtain ⟨⟨path, called⟩, hcall, rfl⟩ := Option.map_eq_some_iff.mp hr
      exact h.faithful_fetch hclock (List.mem_of_getElem? hcall)
  | store n keeps =>
      rw [ht] at hr
      cases hr

end Faithful

/-- **The cache refines direct delivery.** -/
theorem faithful_run (settings : FileSettings) {ticks : List Tick} {t : Tick}
    (hclock : Ordered (ticks ++ [t])) {r : Response}
    (hr : answered (run advance (idle (.new settings)) ticks) t.event = some r) :
    Faithful settings ((ticks ++ [t]).map Tick.moment) r := by
  obtain ⟨hbefore, -, hlast⟩ := List.pairwise_append.mp hclock
  rw [List.map_append]
  refine (coherent_run settings hbefore).faithful (fun m hm => ?_) hr
  obtain ⟨t', ht', rfl⟩ := List.mem_map.mp hm
  exact hlast t' ht' t (List.mem_singleton_self _)

/-- An instant at which there is one file. -/
def oneFile (now : Int) (name content : Bytes) : Moment where
  now := now
  files := {
    isDir := fun _ => false
    openFile := fun n => if n = name then some ⟨content.length, content, none, false⟩ else none
    fileExists := fun n => n = name }
  readable := by
    intro n file hfile
    obtain ⟨-, hfile⟩ := Option.ite_none_right_eq_some.mp hfile
    cases hfile
    exact ⟨rfl, rfl⟩

/-- A file that is changed after it was read: its old content comes from the cache. -/
theorem faithful_run_hit :
    let settings : FileSettings := ⟨ascii "/srv", ascii "UTF-8", 60000, 65536, 60000, id⟩
    let request := ((HttpRequest.new defaultSettings).readFromSocket
      (ascii "GET /a.txt HTTP/1.1\r\n")).1.view
    let ticks : List Tick := [⟨oneFile 0 (ascii "/srv/a.txt") (ascii "old"), .look request⟩,
      ⟨oneFile 5 (ascii "/srv/a.txt") (ascii "old"), .fetch 0⟩,
      ⟨oneFile 6 (ascii "/srv/a.txt") (ascii "new"), .store 0 fun _ => true⟩]
    let t : Tick := ⟨oneFile 59999 (ascii "/srv/a.txt") (ascii "new"), .look request⟩
    ∃ r, answered (run advance (idle (.new settings)) ticks) t.event = some r ∧
      r.delivery.answer.body = ascii "old" ∧
        Faithful settings ((ticks ++ [t]).map Tick.moment) r := by
  intro settings request ticks t
  have hsome : ((answered (run advance (idle (.new settings)) ticks) t.event).map fun r =>
      r.delivery.answer.body) = some (ascii "old") := by decide +kernel
  obtain ⟨r, hr, hbody⟩ := Option.map_eq_some_iff.mp hsome
  have hclock : Ordered (ticks ++ [t]) := by
    simp [Ordered, ticks, t, oneFile]
  exact ⟨r, hr, hbody, faithful_run settings hclock hr⟩

end StaticFiles

end QtWebApp
