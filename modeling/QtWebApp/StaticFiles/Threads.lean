import QtWebApp.Base.Run
import QtWebApp.HttpServer.StaticFileController

/-!
# QtWebApp.StaticFiles.Threads

Calls of `StaticFileController::service` by many threads at once.

The mutex of the controller is held for the look into the cache and for storing an entry, and
not in between. So a call is three steps, and the steps of different calls come in any order:
the look into the cache, which also answers a request that hits it or is refused; reading
the file; and storing what was read. A call that runs alone is `service` (`run_alone`).

The key of the cache is the path, so two calls for one path may both miss the cache and both store
an entry. The second replaces the first, though it may have been read earlier.
-/

namespace QtWebApp

namespace StaticFiles

/-- The controller and the calls that are under way. -/
structure State where
  controller : StaticFileController
  /-- The calls that are going to read a file: their paths, and when they began. -/
  reading : List (Bytes × Int)
  /-- The entries that are going to be stored. -/
  storing : List (Bytes × CacheEntry)
  /-- What has been delivered, with the paths of the requests. -/
  delivered : List (Bytes × Delivery)

/-- The steps of the calls. -/
inductive Event
  /-- A call looks into the cache. -/
  | look (now : Int) (request : RequestView)
  /-- The `n`-th of the calls that are going to do so reads its file. -/
  | fetch (n : Nat) (files : FileSystem)
  /-- The `n`-th of the entries that are going to be is stored. -/
  | store (n : Nat) (keeps : Bytes → Bool)

/-- A controller that is not in use. -/
def idle (c : StaticFileController) : State where
  controller := c
  reading := []
  storing := []
  delivered := []

/-- The look into the cache, at the beginning of a call. -/
def look (s : State) (now : Int) (path : Bytes) : State :=
  match s.controller.lookUp now path with
  | some entry => { s with delivered := s.delivered ++ [(path, s.controller.deliverEntry entry)] }
  | none =>
      if StaticFileController.isForbidden path then
        { s with delivered := s.delivered ++ [(path, StaticFileController.refuse)] }
      else { s with reading := s.reading ++ [(path, now)] }

/-- Reading a file. -/
def fetch (s : State) (n : Nat) (files : FileSystem) : State :=
  match s.reading[n]? with
  | none => s
  | some (path, now) =>
      let (delivery, entry) := s.controller.fetch now files path
      { s with
        reading := s.reading.eraseIdx n
        storing := s.storing ++ (entry.map fun entry => (path, entry)).toList
        delivered := s.delivered ++ [(path, delivery)] }

/-- Storing an entry. -/
def store (s : State) (n : Nat) (keeps : Bytes → Bool) : State :=
  match s.storing[n]? with
  | none => s
  | some (path, entry) =>
      { s with
        controller := s.controller.store keeps path entry
        storing := s.storing.eraseIdx n }

/-- One step of some call. -/
def step (s : State) : Event → State
  | .look now request => look s now (StaticFileController.requestedPath request)
  | .fetch n files => fetch s n files
  | .store n keeps => store s n keeps

/-! ### What a step can do

Each step by its cases, and what it leaves in the cache. -/

theorem look_cases (s : State) (now : Int) (path : Bytes) :
    (∃ entry, s.controller.lookUp now path = some entry ∧
      look s now path =
        { s with delivered := s.delivered ++ [(path, s.controller.deliverEntry entry)] }) ∨
    (s.controller.lookUp now path = none ∧ StaticFileController.isForbidden path = true ∧
      look s now path =
        { s with delivered := s.delivered ++ [(path, StaticFileController.refuse)] }) ∨
    (s.controller.lookUp now path = none ∧ StaticFileController.isForbidden path = false ∧
      look s now path = { s with reading := s.reading ++ [(path, now)] }) := by
  unfold look
  cases hlook : s.controller.lookUp now path with
  | some entry => exact .inl ⟨entry, rfl, rfl⟩
  | none =>
      cases hforbidden : StaticFileController.isForbidden path with
      | true => exact .inr (.inl ⟨rfl, rfl, rfl⟩)
      | false => exact .inr (.inr ⟨rfl, rfl, rfl⟩)

theorem fetch_cases (s : State) (n : Nat) (files : FileSystem) :
    fetch s n files = s ∨ ∃ path now, (path, now) ∈ s.reading ∧
      fetch s n files = { s with
        reading := s.reading.eraseIdx n
        storing := s.storing ++
          ((s.controller.fetch now files path).2.map fun entry => (path, entry)).toList
        delivered := s.delivered ++ [(path, (s.controller.fetch now files path).1)] } := by
  unfold fetch
  cases hcall : s.reading[n]? with
  | none => exact .inl rfl
  | some call => exact .inr ⟨call.1, call.2, List.mem_of_getElem? hcall, rfl⟩

theorem store_cases (s : State) (n : Nat) (keeps : Bytes → Bool) :
    store s n keeps = s ∨ ∃ path entry, (path, entry) ∈ s.storing ∧
      store s n keeps = { s with
        controller := s.controller.store keeps path entry
        storing := s.storing.eraseIdx n } := by
  unfold store
  cases hentry : s.storing[n]? with
  | none => exact .inl rfl
  | some e => exact .inr ⟨e.1, e.2, List.mem_of_getElem? hentry, rfl⟩

/-- The cache is empty at first. -/
theorem getElem?_new (settings : FileSettings) (path : Bytes) :
    (StaticFileController.new settings).cache[path]? = none := Std.ExtTreeMap.getElem?_empty

/-- The entry that a look into the cache finds is in the cache. -/
theorem getElem?_of_lookUp {c : StaticFileController} {now : Int} {path : Bytes}
    {entry : CacheEntry} (h : c.lookUp now path = some entry) : c.cache[path]? = some entry :=
  (Option.filter_eq_some_iff.mp h).1

/-- The cache after an entry was stored. -/
theorem getElem?_store (c : StaticFileController) (keeps : Bytes → Bool) (path : Bytes)
    (entry : CacheEntry) (key : Bytes) : (c.store keeps path entry).cache[key]? =
      if keeps key then if key = path then some entry else c.cache[key]? else none := by
  have hkey : compare path key = .eq ↔ key = path :=
    Std.LawfulEqCmp.compare_eq_iff_eq.trans eq_comm
  rw [StaticFileController.store, Std.ExtTreeMap.getElem?_filter', Std.ExtTreeMap.getElem?_insert]
  simp only [hkey]
  generalize (if key = path then some entry else c.cache[key]?) = found
  cases found with
  | none => split <;> rfl
  | some e => rfl

/-- An entry of the cache after storing one is that one, or was there before. -/
theorem getElem?_of_store {c : StaticFileController} {keeps : Bytes → Bool} {path path' : Bytes}
    {entry entry' : CacheEntry} (h : (c.store keeps path entry).cache[path']? = some entry') :
    (path' = path ∧ entry' = entry) ∨ c.cache[path']? = some entry' := by
  rw [getElem?_store] at h
  obtain ⟨-, hfound⟩ := Option.ite_none_right_eq_some.mp h
  split at hfound
  · next hsame => exact .inl ⟨hsame, (Option.some.inj hfound).symm⟩
  · exact .inr hfound

/-- A call that no other call comes in between is `service`. -/
theorem run_alone (c : StaticFileController) (now : Int) (files : FileSystem)
    (keeps : Bytes → Bool) (request : RequestView) :
    run step (idle c) [.look now request, .fetch 0 files, .store 0 keeps] =
      { idle (c.service now files keeps request).2 with
        delivered :=
  [(StaticFileController.requestedPath request, (c.service now files keeps request).1)] } := by
  simp only [Run.run_cons, Run.run_nil, step]
  unfold StaticFileController.service
  generalize StaticFileController.requestedPath request = path
  dsimp only
  rcases look_cases (idle c) now path with ⟨entry, hlook, hs⟩ | ⟨hlook, hforbidden, hs⟩ |
    ⟨hlook, hforbidden, hs⟩
  all_goals
    rw [hs]
    simp only [idle] at hlook ⊢
    simp only [hlook]
  · rfl
  · rw [if_pos hforbidden]
    rfl
  · rw [hforbidden]
    cases hfetch : c.fetch now files path with
    | mk delivery entry => cases entry <;> simp [fetch, store, hfetch]

end StaticFiles

end QtWebApp
