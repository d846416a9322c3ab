import QtWebApp.Base.QCache
import QtWebApp.Base.QString
import QtWebApp.Base.Run

/-!
# QtWebApp.TemplateEngine.TemplateCache

The cache for templates, and the threads that load templates through it.

`TemplateCache::tryFile` looks for an entry and perhaps makes a new one under the mutex, and it
reads the document after the mutex is unlocked. These are two events; what the file system
answers comes with the first one. The entries that were created stay in `created`, the cache owns
positions in it: what the source deletes is here no longer owned.

A pointer that a thread has still to read is safe as long as the cache owns it. Looking up never
drops an entry, so everything depends on the insertions: `reads_owned_iff` says which of them
leave every pointer alone.

An entry that is larger than the cache is deleted by the very insertion, and the thread that has
made it reads it afterwards. An entry that another thread inserts may push out one that is still to
be read.
-/

namespace QtWebApp

/-- `TemplateCache`, and for every thread the entry it is going to read. -/
structure TemplateCache where
  cacheTimeout : Int
  cache : QCache QString Nat
  created : List (QString × Int)
  reading : Nat → Option Nat
  /-- The documents that were returned. -/
  returned : List QString
  /-- An entry was read that the cache does not own. -/
  usedDeleted : Bool

namespace TemplateCache

/-- The constructor. -/
def new (cacheSize cacheTime : Int) : TemplateCache where
  cacheTimeout := cacheTime
  cache := ⟨cacheSize, []⟩
  created := []
  reading := fun _ => none
  returned := []
  usedDeleted := false

/-- The entry is not too old. -/
def isRecent (c : TemplateCache) (now : Int) (entry : Nat) : Bool :=
  (c.created[entry]?).any fun e => decide (c.cacheTimeout = 0 ∨ now - c.cacheTimeout < e.2)

/-- The entry of the cache that is used, if there is one. -/
def lookUp (c : TemplateCache) (localizedName : QString) (now : Int) : Option Nat :=
  (c.cache.object localizedName).1.filter (c.isRecent now)

/-- What `TemplateCache::tryFile` does under the mutex; `document` is what
`TemplateLoader::tryFile` finds. -/
def tryFile (c : TemplateCache) (i : Nat) (localizedName : QString) (now : Int)
    (document : QString) :
    TemplateCache :=
  match c.lookUp localizedName now with
  | some entry =>
      { c with
          cache := (c.cache.object localizedName).2
          reading := Function.update c.reading i (some entry) }
  | none =>
      -- also the missing file is stored
      let entry := c.created.length
      { c with
          created := c.created ++ [(document, now)]
          cache := (c.cache.object localizedName).2.insert localizedName entry document.length
          reading := Function.update c.reading i (some entry) }

/-- `return entry->document`, after the mutex was unlocked. -/
def read (c : TemplateCache) (i entry : Nat) : TemplateCache :=
  { c with
      reading := Function.update c.reading i none
      returned := c.returned ++ [(c.created[entry]?).elim [] Prod.fst]
      usedDeleted := c.usedDeleted || !decide (c.cache.Owns entry) }

/-- What can happen: a thread calls `tryFile`, or it reads the document. -/
inductive Event
  | tryFile (i : Nat) (localizedName : QString) (now : Int) (document : QString)
  | read (i : Nat)

/-- The state after an event. -/
def step (c : TemplateCache) : Event → TemplateCache
  | .tryFile i localizedName now document =>
      match c.reading i with
      | none => c.tryFile i localizedName now document
      -- the thread has not returned from its last call
      | some _ => c
  | .read i =>
      match c.reading i with
      | some entry => c.read i entry
      | none => c

/-- An event that leaves the entries alone that some thread has still to read: a new entry is not
too large for the cache, it replaces none of them, and none of them has to make room. -/
def Harmless (c : TemplateCache) : Event → Prop
  | .tryFile i localizedName now document =>
      c.reading i = none → c.lookUp localizedName now = none →
        (document.length : Int) ≤ c.cache.maxCost ∧
          ∀ j entry, c.reading j = some entry → c.cache.HasRoom localizedName document.length entry
  | .read _ => True

/-! ### Entries that are safe to read

The invariant, and the events that break it. -/

/-- Everything that is going to be read is owned, and nothing deleted was read so far. -/
structure Safe (c : TemplateCache) : Prop where
  owned : ∀ i entry, c.reading i = some entry → c.cache.Owns entry
  created : ∀ entry, c.cache.Owns entry → entry < c.created.length
  unused : c.usedDeleted = false

/-- Nothing is going to be read at first. -/
theorem safe_new (cacheSize cacheTime : Int) : Safe (new cacheSize cacheTime) where
  owned := fun _ _ h => absurd h (by simp [new])
  created := by rintro entry ⟨e, he, -⟩; exact absurd he List.not_mem_nil
  unused := rfl

/-- In a safe state every thread may read. -/
theorem Safe.read_owned {c : TemplateCache} (h : Safe c) (i : Nat) :
    (c.step (.read i)).usedDeleted = false := by
  rw [step]
  cases hr : c.reading i with
  | none => exact h.unused
  | some entry => simp [read, h.unused, h.owned i entry hr]

/-- What the cache owns after a miss. -/
theorem owns_tryFile {c : TemplateCache} {localizedName : QString} {now : Int}
    (hmiss : c.lookUp localizedName now = none) (i : Nat) (document : QString) (entry : Nat) :
    (c.tryFile i localizedName now document).cache.Owns entry ↔
      if c.cache.maxCost < (document.length : Int) then (c.cache.remove localizedName).Owns entry
      else c.cache.HasRoom localizedName document.length entry ∨ entry = c.created.length := by
  have hroom : (c.cache.object localizedName).2.HasRoom localizedName document.length entry ↔
      c.cache.HasRoom localizedName document.length entry := by
    have hsame := congrArg QCache.entries (c.cache.remove_object localizedName)
    simp only [QCache.remove] at hsame
    simp only [QCache.HasRoom, hsame, QCache.object_maxCost]
  simp only [tryFile, hmiss, QCache.owns_insert, QCache.object_maxCost, QCache.remove_object, hroom]

/-- A pointer that is read after a call is the one of the call, or it was there before. -/
theorem reading_update {c : TemplateCache} {i j : Nat} {o : Option Nat} {entry : Nat}
    (h : Function.update c.reading i o j = some entry) :
    o = some entry ∨ c.reading j = some entry := by
  by_cases hj : j = i
  · subst hj
    rw [Function.update_self] at h
    exact .inl h
  · rw [Function.update_of_ne hj] at h
    exact .inr h

/-- An entry that is found stays where it is. -/
theorem Safe.hit {c : TemplateCache} (h : Safe c) {i : Nat} {localizedName : QString} {now : Int}
    {document : QString} {found : Nat} (hfound : c.lookUp localizedName now = some found) :
    Safe (c.tryFile i localizedName now document) := by
  have howned : c.cache.Owns found := QCache.owns_of_object (Option.filter_eq_some_iff.mp hfound).1
  simp only [tryFile, hfound]
  refine ⟨fun j entry hj => ?_, fun entry ho => ?_, h.unused⟩
  · rw [QCache.owns_object]
    rcases reading_update hj with heq | hold
    · exact Option.some.inj heq ▸ howned
    · exact h.owned j entry hold
  · exact h.created entry (QCache.owns_object.mp ho)

/-- A new entry that the cache keeps, together with all that are to be read. -/
theorem Safe.miss {c : TemplateCache} (h : Safe c) {i : Nat} {localizedName : QString} {now : Int}
    {document : QString} (hmiss : c.lookUp localizedName now = none)
    (hfits : (document.length : Int) ≤ c.cache.maxCost)
    (hroom : ∀ j entry, c.reading j = some entry →
      c.cache.HasRoom localizedName document.length entry) :
    Safe (c.tryFile i localizedName now document) := by
  have howns := owns_tryFile hmiss i document
  have hnot : ¬ c.cache.maxCost < (document.length : Int) := by omega
  simp only [if_neg hnot] at howns
  have hreading : (c.tryFile i localizedName now document).reading =
      Function.update c.reading i (some c.created.length) := by simp only [tryFile, hmiss]
  have hcreated : (c.tryFile i localizedName now document).created =
      c.created ++ [(document, now)] := by
    simp only [tryFile, hmiss]
  refine ⟨fun j entry hj => ?_, fun entry ho => ?_, ?_⟩
  · rw [hreading] at hj
    rw [howns]
    rcases reading_update hj with heq | hold
    · exact .inr (Option.some.inj heq).symm
    · exact .inl (hroom j entry hold)
  · rw [hcreated, List.length_append, List.length_singleton]
    rcases (howns entry).mp ho with hold | rfl
    · have := h.created entry hold.owns
      omega
    · omega
  · simpa only [tryFile, hmiss] using h.unused

/-- A harmless event keeps the state safe. -/
theorem Safe.step {c : TemplateCache} (h : Safe c) {e : Event} (hharmless : c.Harmless e) :
    Safe (c.step e) := by
  cases e with
  | read i =>
      have hflag := h.read_owned i
      rw [TemplateCache.step] at hflag ⊢
      cases hr : c.reading i with
      | none => exact h
      | some entry =>
          rw [hr] at hflag
          refine ⟨fun j entry' hj => ?_, h.created, hflag⟩
          exact h.owned j entry' ((reading_update hj).resolve_left (by simp))
  | tryFile i localizedName now document =>
      rw [TemplateCache.step]
      cases hr : c.reading i with
      | some entry => exact h
      | none =>
          cases hfound : c.lookUp localizedName now with
          | some entry => exact h.hit hfound
          | none =>
              obtain ⟨hfits, hroom⟩ := hharmless hr hfound
              exact h.miss hfound hfits hroom

/-- A thread that has still to read what is not owned reads a deleted entry next. -/
theorem read_deleted {c : TemplateCache} {i entry : Nat} (hr : c.reading i = some entry)
    (ho : ¬ c.cache.Owns entry) : (c.step (.read i)).usedDeleted = true := by
  simp [TemplateCache.step, hr, read, ho]

/-- After any other event some thread would read a deleted entry. -/
theorem Safe.fails {c : TemplateCache} (h : Safe c) {e : Event} (hharmful : ¬ c.Harmless e) :
    ∃ i, ((c.step e).step (.read i)).usedDeleted = true := by
  cases e with
  | read i => exact absurd trivial hharmful
  | tryFile i localizedName now document =>
      simp only [Harmless, Classical.not_imp] at hharmful
      obtain ⟨hr, hmiss, hharmful⟩ := hharmful
      have howns := owns_tryFile hmiss i document
      have hreading : (c.tryFile i localizedName now document).reading =
          Function.update c.reading i (some c.created.length) := by simp only [tryFile, hmiss]
      rw [show c.step (.tryFile i localizedName now document) =
        c.tryFile i localizedName now document by simp only [TemplateCache.step, hr]]
      by_cases hfits : (document.length : Int) ≤ c.cache.maxCost
      · -- the entry of another thread was replaced, or had to make room
        obtain ⟨j, entry, hj, hroom⟩ : ∃ j entry, c.reading j = some entry ∧
            ¬ c.cache.HasRoom localizedName document.length entry := by
          by_contra hall
          push Not at hall
          exact hharmful ⟨hfits, hall⟩
        have hne : j ≠ i := fun e => by simp [e, hr] at hj
        have hlt := h.created entry (h.owned j entry hj)
        refine ⟨j, read_deleted (?_ : _ = some entry) ?_⟩
        · rw [hreading, Function.update_of_ne hne, hj]
        · rw [howns, if_neg (by omega)]
          rintro (hold | rfl)
          · exact hroom hold
          · omega
      · -- the new entry is deleted at once
        refine ⟨i, read_deleted (?_ : _ = some c.created.length) ?_⟩
        · rw [hreading, Function.update_self]
        · rw [howns, if_pos (by omega)]
          intro hold
          have := h.created _ hold.of_remove
          omega

/-- **No discarded entry is read**, whichever thread reads at whatever point of a run, exactly if
every event of the run is harmless. -/
theorem reads_owned_iff (cacheSize cacheTime : Int) (events : List Event) :
    (∀ before after i, events = before ++ after →
      ((run step (new cacheSize cacheTime) before).step (.read i)).usedDeleted = false) ↔
      Run.Along step Harmless (new cacheSize cacheTime) events := by
  have hexact : (∀ before after, events = before ++ after → ∀ i,
      ((run step (new cacheSize cacheTime) before).step (.read i)).usedDeleted = false) ↔
      Run.Along step Harmless (new cacheSize cacheTime) events := by
    refine Run.along_iff (fun c h => h.read_owned) (fun c e h hharmless => h.step hharmless)
      (fun c e h hharmful hall => ?_) (safe_new cacheSize cacheTime) events
    obtain ⟨i, hi⟩ := h.fails hharmful
    exact absurd (hi.symm.trans (hall i)) (by decide)
  rw [← hexact]
  exact ⟨fun h before after hsplit i => h before after i hsplit,
    fun h before after i hsplit => h before after hsplit i⟩

/-- A template larger than the cache is deleted when it is stored, and then read. -/
theorem deleted_entry_read :
    (run step (new 3 60000) [.tryFile 0 (QString.ofAscii "index") 1 (QString.ofAscii "long"),
      .read 0]).usedDeleted = true := by decide

/-- Two threads at once: the second template takes the place of the first one, which is still to be
read. -/
example : (run step (new 5 60000) [.tryFile 0 (QString.ofAscii "index") 1 (QString.ofAscii "abc"),
    .tryFile 1 (QString.ofAscii "menu") 1 (QString.ofAscii "xyz"), .read 0]).usedDeleted =
      true := by
  decide

end TemplateCache

end QtWebApp
