import QtWebApp.Base.Path
import QtWebApp.StaticFiles.Threads

/-!
# QtWebApp.StaticFiles.Confinement

Which files the static file controller can be made to touch.

The path of a request is appended to the docroot as it is. It is refused when it contains
`/..`, but the test looks at the path alone: a path that does not begin with a slash goes on
with the last segment of the docroot, and the name of another directory comes out. A byte order
mark at the beginning of a path is lost on the way, so it is the path behind the mark that counts.
`confined_iff` says exactly which paths stay inside, for all calls in all orders; the cache
is filled by such paths only, and with their own files.

Names are resolved segment by segment, without looking at the file system, and a file is inside the
docroot if its resolved name begins with that of the docroot. Symbolic links are none of the
controller's business, and there are none in the model.
-/

namespace QtWebApp

open Bytes

namespace StaticFiles

/-! ### The condition

It concerns the docroot and the path, and neither the files nor the cache. -/

/-- The path is refused, or leads into the docroot when it is appended to it. It is the path as it
is used (`requestedPath`), behind a byte order mark. -/
def Stays (docroot path : Bytes) : Prop :=
  StaticFileController.isForbidden path = true ∨ Path.Joins docroot path

instance (docroot path : Bytes) : Decidable (Stays docroot path) := by
  unfold Stays
  infer_instance

/-- Nothing outside of the docroot has been touched; what was sent is a file inside it, or the
answer is an error. -/
def Confined (docroot : Bytes) (d : Delivery) : Prop :=
  (∀ name ∈ d.touched, Path.Inside docroot name) ∧
    match d.source with
    | some name => Path.Inside docroot name
    | none => d.calls = StaticFileController.forbidden ∨ d.calls = StaticFileController.notFound

instance (docroot : Bytes) (d : Delivery) : Decidable (Confined docroot d) := by
  unfold Confined
  cases d.source <;> infer_instance

/-- The test for `/..` finds the same with the byte order mark and without it. -/
theorem isForbidden_fromUtf8 (path : Bytes) :
    StaticFileController.isForbidden (StaticFileController.fromUtf8 path) =
      StaticFileController.isForbidden path := by
  unfold StaticFileController.fromUtf8
  split
  · next hmark =>
      obtain ⟨rest, rfl⟩ := Bytes.startsWith_iff.mp hmark
      -- no byte of the mark is a slash
      have hskip {c : UInt8} (hc : 47 ≠ c) (b : Bytes) :
          ascii "/.." <:+: c :: b ↔ ascii "/.." <:+: b := by
        rw [List.infix_cons_iff]
        exact or_iff_right fun h => hc (List.cons_prefix_cons.mp h).1
      rw [Bool.eq_iff_iff]
      unfold StaticFileController.isForbidden
      rw [Bytes.containsText_iff, Bytes.containsText_iff]
      exact ((hskip (by decide) _).trans ((hskip (by decide) _).trans (hskip (by decide) _))).symm
  · rfl

/-! ### One file

A path may be that of a directory, and then a name is appended to it; that never leads out. -/

/-- The names a path can stand for. -/
def Names (path filename : Bytes) : Prop := filename = path ∨ filename = path ++ ascii "/index.html"

theorem names_locate (c : StaticFileController) (files : FileSystem) (path : Bytes) :
    Names path (c.locate files path) := by
  unfold StaticFileController.locate
  split
  · exact .inr rfl
  · exact .inl rfl

/-- A path that is not refused does not go up behind its first segment. -/
theorem down_of_not_forbidden {path : Bytes} (h : StaticFileController.isForbidden path = false) :
    ∀ s ∈ Path.others path, s ≠ ascii ".." := by
  intro s hs hdots
  have hinside : ascii "/.." <:+: path := by
    have := Path.infix_of_mem_others hs
    rwa [hdots] at this
  have hcontains := Bytes.containsText_iff.mpr hinside
  exact Bool.false_ne_true (h.symm.trans hcontains)

/-- The name made of docroot and path is inside exactly when the path stays. -/
theorem inside_iff_stays {docroot path : Bytes}
    (h : StaticFileController.isForbidden path = false) :
    Path.Inside docroot (docroot ++ path) ↔ Stays docroot path := by
  rw [Path.inside_append_iff (down_of_not_forbidden h), Stays, h]
  exact ⟨.inr, fun hs => hs.resolve_left Bool.false_ne_true⟩

/-- A file of a directory inside the docroot is inside as well. -/
theorem inside_of_names {docroot path filename : Bytes} (hnames : Names path filename)
    (h : Path.Inside docroot (docroot ++ path)) : Path.Inside docroot (docroot ++ filename) := by
  rcases hnames with rfl | rfl
  · exact h
  · rw [← List.append_assoc]
    exact Path.inside_child h (by decide)

/-- The entry of a file that was read names that file. -/
theorem fetch_filename {c : StaticFileController} {now : Int} {files : FileSystem} {path : Bytes}
    {entry : CacheEntry} (h : (c.fetch now files path).2 = some entry) :
    entry.filename = c.locate files path := by
  unfold StaticFileController.fetch at h
  dsimp only at h
  split at h
  · obtain ⟨-, hentry⟩ := Option.ite_none_right_eq_some.mp h
    rw [← Option.some.inj hentry]
  · cases h

/-- Reading the file for a path is confined exactly when the path stays. -/
theorem fetch_confined_iff {c : StaticFileController} {now : Int} {files : FileSystem}
    {path : Bytes} (h : StaticFileController.isForbidden path = false) :
    Confined c.docroot (c.fetch now files path).1 ↔ Stays c.docroot path := by
  rw [← inside_iff_stays h]
  have hnames := names_locate c files path
  have htouched : (c.fetch now files path).1.touched =
      [c.docroot ++ path, c.docroot ++ c.locate files path] := by
    unfold StaticFileController.fetch
    dsimp only
    split <;> rfl
  constructor
  · intro hconf
    refine hconf.1 _ ?_
    rw [htouched]
    exact List.mem_cons_self
  · intro hin
    have hfile := inside_of_names hnames hin
    refine ⟨?_, ?_⟩
    · intro name hname
      rw [htouched] at hname
      rcases List.mem_cons.mp hname with rfl | hname
      · exact hin
      · rw [List.mem_singleton.mp hname]
        exact hfile
    · unfold StaticFileController.fetch
      dsimp only
      cases hopen : files.openFile (c.docroot ++ c.locate files path) with
      | some file => exact hfile
      | none =>
          dsimp only
          cases files.fileExists (c.docroot ++ c.locate files path) with
          | true => exact .inl rfl
          | false => exact .inr rfl

/-! ### All calls

Whatever has been touched is remembered with each delivery, so that the invariant can speak of
it. -/

/-- An entry of the cache, or one that is going to be: its path was requested and not refused,
and the file is one the path stands for. -/
structure Known (delivered : List (Bytes × Delivery)) (path : Bytes) (entry : CacheEntry) :
    Prop where
  requested : ∃ d, (path, d) ∈ delivered
  allowed : StaticFileController.isForbidden path = false
  names : Names path entry.filename

/-- What holds at any time: the docroot is that of the beginning, the entries are known, and
everything that was delivered is confined if and only if every path stays. -/
structure Inv (docroot : Bytes) (s : State) : Prop where
  docroot_eq : s.controller.docroot = docroot
  reading : ∀ call ∈ s.reading, StaticFileController.isForbidden call.1 = false
  storing : ∀ e ∈ s.storing, Known s.delivered e.1 e.2
  cache : ∀ path entry, s.controller.cache[path]? = some entry → Known s.delivered path entry
  exact_iff : (∀ d ∈ s.delivered, Confined docroot d.2) ↔ ∀ d ∈ s.delivered, Stays docroot d.1

theorem Known.append {l l' : List (Bytes × Delivery)} {path : Bytes} {entry : CacheEntry}
    (h : Known l path entry) : Known (l ++ l') path entry where
  requested := h.requested.imp fun _ hd => List.mem_append_left l' hd
  allowed := h.allowed
  names := h.names

/-- One more delivery, when it is confined exactly if its path stays, at least as long as
all paths before do. -/
theorem exact_append {docroot path : Bytes} {d : Delivery} {l : List (Bytes × Delivery)}
    (h : (∀ e ∈ l, Confined docroot e.2) ↔ ∀ e ∈ l, Stays docroot e.1)
    (hd : (∀ e ∈ l, Stays docroot e.1) → (Confined docroot d ↔ Stays docroot path)) :
    (∀ e ∈ l ++ [(path, d)], Confined docroot e.2) ↔
      ∀ e ∈ l ++ [(path, d)], Stays docroot e.1 := by
  simp only [List.forall_mem_append, List.forall_mem_singleton]
  rw [h]
  exact and_congr_right hd

/-- Looking into the cache. -/
theorem inv_look {docroot : Bytes} {s : State} (h : Inv docroot s) (now : Int) (path : Bytes) :
    Inv docroot (look s now path) := by
  rcases look_cases s now path with ⟨entry, hlook, hs⟩ | ⟨-, hforbidden, hs⟩ | ⟨-, hallowed, hs⟩
  · -- a hit: the path was requested before
    have hknown := h.cache path entry (getElem?_of_lookUp hlook)
    rw [hs]
    refine ⟨h.docroot_eq, h.reading, fun e he => (h.storing e he).append,
      fun path entry he => (h.cache path entry he).append, ?_⟩
    refine exact_append h.exact_iff ?_
    intro hall
    obtain ⟨d, hd⟩ := hknown.requested
    have hstays : Stays docroot path := hall _ hd
    have hin : Path.Inside docroot (docroot ++ entry.filename) :=
      inside_of_names hknown.names ((inside_iff_stays hknown.allowed).mpr hstays)
    refine ⟨fun _ => hstays, fun _ => ⟨List.forall_mem_nil _, ?_⟩⟩
    show Path.Inside docroot (s.controller.docroot ++ entry.filename)
    rw [h.docroot_eq]
    exact hin
  · -- refused: nothing is touched
    rw [hs]
    refine ⟨h.docroot_eq, h.reading, fun e he => (h.storing e he).append,
      fun path entry he => (h.cache path entry he).append, ?_⟩
    refine exact_append h.exact_iff ?_
    intro _
    exact ⟨fun _ => .inl hforbidden, fun _ => ⟨List.forall_mem_nil _, .inl rfl⟩⟩
  · rw [hs]
    refine ⟨h.docroot_eq, ?_, h.storing, h.cache, h.exact_iff⟩
    intro call hcall
    rcases List.mem_append.mp hcall with hcall | hcall
    · exact h.reading call hcall
    · rw [List.mem_singleton.mp hcall]
      exact hallowed

/-- Reading a file. -/
theorem inv_fetch {docroot : Bytes} {s : State} (h : Inv docroot s) (n : Nat)
    (files : FileSystem) : Inv docroot (fetch s n files) := by
  rcases fetch_cases s n files with hs | ⟨path, now, hmem, hs⟩
  · rw [hs]
    exact h
  · have hallowed := h.reading _ hmem
    rw [hs]
    refine ⟨h.docroot_eq, fun call hcall => h.reading call (List.mem_of_mem_eraseIdx hcall), ?_,
      fun path entry he => (h.cache path entry he).append, ?_⟩
    · intro e he
      rcases List.mem_append.mp he with he | he
      · exact (h.storing e he).append
      · -- the entry that was just read
        rw [Option.mem_toList, Option.map_eq_some_iff] at he
        obtain ⟨entry, hentry, rfl⟩ := he
        refine ⟨⟨_, List.mem_append_right _ (List.mem_singleton_self _)⟩, hallowed, ?_⟩
        rw [fetch_filename hentry]
        exact names_locate s.controller files path
    · refine exact_append h.exact_iff ?_
      intro _
      rw [← h.docroot_eq]
      exact fetch_confined_iff hallowed

/-- Storing an entry. -/
theorem inv_store {docroot : Bytes} {s : State} (h : Inv docroot s) (n : Nat)
    (keeps : Bytes → Bool) : Inv docroot (store s n keeps) := by
  rcases store_cases s n keeps with hs | ⟨path, entry, hmem, hs⟩
  · rw [hs]
    exact h
  · rw [hs]
    refine ⟨h.docroot_eq, h.reading, fun e he => h.storing e (List.mem_of_mem_eraseIdx he), ?_,
      h.exact_iff⟩
    intro path' entry' he
    rcases getElem?_of_store he with ⟨rfl, rfl⟩ | hold
    · exact h.storing _ hmem
    · exact h.cache path' entry' hold

/-- **The step of the invariant.** -/
theorem inv_step {docroot : Bytes} (s : State) (e : Event) (h : Inv docroot s) :
    Inv docroot (step s e) := by
  cases e with
  | look now request => exact inv_look h now _
  | fetch n files => exact inv_fetch h n files
  | store n keeps => exact inv_store h n keeps

theorem inv_idle (settings : FileSettings) :
    Inv (StaticFileController.docrootOf settings) (idle (.new settings)) where
  docroot_eq := rfl
  reading := List.forall_mem_nil _
  storing := List.forall_mem_nil _
  cache := fun path _ h => nomatch (getElem?_new settings path).symm.trans h
  exact_iff := ⟨fun _ => List.forall_mem_nil _, fun _ => List.forall_mem_nil _⟩

/-- **Docroot confinement**: whatever the calls are and in whatever order their steps come, all
that is delivered is confined to the docroot exactly when every path stays. -/
theorem confined_iff (settings : FileSettings) (events : List Event) :
    (∀ d ∈ (run step (idle (.new settings)) events).delivered,
      Confined (StaticFileController.docrootOf settings) d.2) ↔
    ∀ d ∈ (run step (idle (.new settings)) events).delivered,
      Stays (StaticFileController.docrootOf settings) d.1 :=
  (Run.inv_run inv_step (inv_idle settings) events).exact_iff

/-- Behind a byte order mark a path goes up from the docroot. -/
example : ¬ Stays (ascii "/srv/www/")
    (StaticFileController.fromUtf8 ([0xEF, 0xBB, 0xBF] ++ ascii "../secret")) := by
  decide

/-- A docroot without a slash at its end. -/
def siteSettings : FileSettings where
  path := ascii "/srv/www"
  encoding := ascii "UTF-8"
  maxAge := 60000
  maxCachedFileSize := 65536
  cacheTime := 60000
  absoluteFilePath := id

/-- A request whose path does not begin with a slash, as it is parsed, and a file system with
one file beside the docroot. -/
def siblingCall : List Event :=
  let (request, rest) := (HttpRequest.new defaultSettings).readFromSocket
    (ascii "GET -old/secret HTTP/1.1\r\n\r\n")
  [.look 0 (request.readFromSocket rest).1.view,
   .fetch 0 {
     isDir := fun _ => false
     openFile := fun name =>
       if name = ascii "/srv/www-old/secret" then some ⟨3, ascii "key", none, false⟩ else none
     fileExists := fun name => name = ascii "/srv/www-old/secret" }]

/-- The file is delivered. -/
theorem not_confined_sibling :
    ¬ ∀ d ∈ (run step (idle (.new siteSettings)) siblingCall).delivered,
      Confined (StaticFileController.docrootOf siteSettings) d.2 := by
  decide +kernel

end StaticFiles

end QtWebApp
