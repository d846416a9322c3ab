import Mathlib.Algebra.GroupWithZero.Nat
import Mathlib.Data.List.Perm.Basic

/-!
# QtWebApp.Base.QCache

`QCache`: objects under keys, with costs and a limit for the sum of the costs.

The cache owns its objects. What it drops is deleted: the object a new one replaces, those that
were not used for the longest time when room is needed, and a new object itself when it is more
expensive than the limit allows. `owns_insert` tells what it owns after an insertion; nothing
else drops an object.

Whoever has a pointer to an object of the cache depends on what others put into it. That there is
room for the object (`HasRoom`) is the exact condition under which it survives the next insertion.
-/

namespace QtWebApp

/-- An object in a cache. -/
structure QCacheEntry (κ ν : Type) where
  key : κ
  object : ν
  cost : Nat
  deriving DecidableEq, Repr

/-- `QCache`, the least recently used entry first. -/
structure QCache (κ ν : Type) where
  maxCost : Int
  entries : List (QCacheEntry κ ν)
  deriving DecidableEq, Repr

namespace QCache

variable {κ ν : Type} [DecidableEq κ]

/-- The cost of some entries together. -/
def total (es : List (QCacheEntry κ ν)) : Nat := (es.map QCacheEntry.cost).sum

/-- `QCache::object`: an object that is found becomes the most recently used one. -/
def object (c : QCache κ ν) (key : κ) : Option ν × QCache κ ν :=
  match c.entries.find? (·.key = key) with
  | none => (none, c)
  | some e => (some e.object, { c with entries := c.entries.eraseP (·.key = key) ++ [e] })

/-- `QCache::remove`. -/
def remove (c : QCache κ ν) (key : κ) : QCache κ ν :=
  { c with entries := c.entries.filter (·.key ≠ key) }

/-- `QCache::trim`: drop the least recently used entries until the cost is not above `m`. -/
def trim (m : Int) : List (QCacheEntry κ ν) → List (QCacheEntry κ ν)
  | [] => []
  | e :: es => if m < total (e :: es) then trim m es else e :: es

/-- `QCache::insert`. -/
def insert (c : QCache κ ν) (key : κ) (object : ν) (cost : Nat) : QCache κ ν :=
  let c := c.remove key
  if c.maxCost < cost then c
  else { c with entries := trim (c.maxCost - cost) c.entries ++ [⟨key, object, cost⟩] }

/-- The cache owns an object. -/
def Owns (c : QCache κ ν) (o : ν) : Prop := ∃ e ∈ c.entries, e.object = o

instance [DecidableEq ν] (c : QCache κ ν) (o : ν) : Decidable (c.Owns o) :=
  inferInstanceAs (Decidable (∃ e ∈ c.entries, e.object = o))

/-- There is room for an object beside a new one with this key and cost: it is not replaced, and
what was used since then, together with it, leaves enough. -/
def HasRoom (c : QCache κ ν) (key : κ) (cost : Nat) (o : ν) : Prop :=
  ∃ before e after, c.entries.filter (·.key ≠ key) = before ++ e :: after ∧ e.object = o ∧
    (total (e :: after) : Int) + cost ≤ c.maxCost

omit [DecidableEq κ] in
omit [DecidableEq κ] in
/-- What is left by `trim` is the longest end that is cheap enough. -/
theorem mem_trim_iff {m : Int} {es : List (QCacheEntry κ ν)} {e : QCacheEntry κ ν} :
    e ∈ trim m es ↔ ∃ before after, es = before ++ e :: after ∧ (total (e :: after) : Int) ≤ m := by
  induction es with
  | nil => simp [trim]
  | cons d es ih =>
      rw [trim]
      by_cases hdear : m < total (d :: es)
      · rw [if_pos hdear, ih]
        constructor
        · rintro ⟨before, after, rfl, hm⟩
          exact ⟨d :: before, after, rfl, hm⟩
        · rintro ⟨before, after, heq, hm⟩
          cases before with
          | nil =>
              obtain ⟨rfl, rfl⟩ := List.cons.inj heq
              omega
          | cons b before => exact ⟨before, after, (List.cons.inj heq).2, hm⟩
      · rw [if_neg hdear]
        constructor
        · intro hmem
          obtain ⟨before, after, heq⟩ := List.append_of_mem hmem
          refine ⟨before, after, heq, ?_⟩
          have hle : total (e :: after) ≤ total (d :: es) := by
            rw [heq]
            simp [total]
          omega
        · rintro ⟨before, after, heq, -⟩
          rw [heq]
          exact List.mem_append_right _ List.mem_cons_self

/-- An object is not found, or its entry moves to the end. -/
theorem object_cases (c : QCache κ ν) (key : κ) : c.object key = (none, c) ∨
    ∃ before e after, c.entries = before ++ e :: after ∧ e.key = key ∧
      c.object key = (some e.object, { c with entries := before ++ after ++ [e] }) := by
  unfold object
  cases hfind : c.entries.find? (·.key = key) with
  | none => exact .inl rfl
  | some e =>
      obtain ⟨hp, before, after, heq, hbefore⟩ := List.find?_eq_some_iff_append.mp hfind
      have hkey : e.key = key := by simpa using hp
      have herase : c.entries.eraseP (·.key = key) = before ++ after := by
        rw [heq, List.eraseP_append_right _ fun b hb => by simpa using hbefore b hb]
        simp [hkey]
      exact .inr ⟨before, e, after, heq, hkey, by simp only [herase]⟩

@[simp] theorem object_maxCost (c : QCache κ ν) (key : κ) :
    (c.object key).2.maxCost = c.maxCost := by
  rcases c.object_cases key with hnone | ⟨before, e, after, -, -, hsome⟩
  · rw [hnone]
  · rw [hsome]

/-- Looking an object up changes the order only. -/
theorem object_perm (c : QCache κ ν) (key : κ) : (c.object key).2.entries.Perm c.entries := by
  rcases c.object_cases key with hnone | ⟨before, e, after, heq, -, hsome⟩
  · rw [hnone]
  · rw [hsome, heq, List.append_assoc]
    exact List.perm_append_comm.append_left before

theorem owns_object {c : QCache κ ν} {key : κ} {o : ν} : (c.object key).2.Owns o ↔ c.Owns o := by
  unfold Owns
  simp only [(c.object_perm key).mem_iff]

/-- An object that is found is owned. -/
theorem owns_of_object {c : QCache κ ν} {key : κ} {o : ν}
    (h : (c.object key).1 = some o) : c.Owns o := by
  rcases c.object_cases key with hnone | ⟨before, e, after, heq, -, hsome⟩
  · rw [hnone] at h
    exact absurd h (by simp)
  · rw [hsome] at h
    exact ⟨e, by simp [heq], Option.some.inj h⟩

/-- For an entry that is going to be replaced it does not matter that it was looked up. -/
theorem remove_object (c : QCache κ ν) (key : κ) : (c.object key).2.remove key = c.remove key := by
  rcases c.object_cases key with hnone | ⟨before, e, after, heq, hkey, hsome⟩
  · rw [hnone]
  · rw [hsome]
    simp [remove, heq, hkey]

theorem HasRoom.owns {c : QCache κ ν} {key : κ} {cost : Nat} {o : ν} (h : c.HasRoom key cost o) :
    c.Owns o := by
  obtain ⟨before, e, after, heq, ho, -⟩ := h
  have hmem : e ∈ c.entries.filter (·.key ≠ key) := heq ▸ List.mem_append_right _ List.mem_cons_self
  exact ⟨e, (List.mem_filter.mp hmem).1, ho⟩

theorem Owns.of_remove {c : QCache κ ν} {key : κ} {o : ν}
    (h : (c.remove key).Owns o) : c.Owns o := by
  obtain ⟨e, he, ho⟩ := h
  exact ⟨e, (List.mem_filter.mp he).1, ho⟩

/-- **What a cache owns after an insertion.** -/
theorem owns_insert {c : QCache κ ν} {key : κ} {object o : ν} {cost : Nat} :
    (c.insert key object cost).Owns o ↔
      if c.maxCost < cost then (c.remove key).Owns o else c.HasRoom key cost o ∨ o = object := by
  unfold insert
  dsimp only
  by_cases hdear : c.maxCost < cost
  · rw [if_pos (show (c.remove key).maxCost < cost from hdear), if_pos hdear]
  · rw [if_neg (show ¬ (c.remove key).maxCost < cost from hdear), if_neg hdear]
    unfold Owns HasRoom
    constructor
    · rintro ⟨e, he, rfl⟩
      rcases List.mem_append.mp he with hold | hnew
      · obtain ⟨before, after, heq, hm⟩ := mem_trim_iff.mp hold
        have hmax : (c.remove key).maxCost = c.maxCost := rfl
        exact .inl ⟨before, e, after, heq, rfl, by omega⟩
      · exact .inr (congrArg QCacheEntry.object (List.mem_singleton.mp hnew))
    · rintro (⟨before, e, after, heq, rfl, hm⟩ | rfl)
      · have hmax : (c.remove key).maxCost = c.maxCost := rfl
        exact ⟨e, List.mem_append_left _ (mem_trim_iff.mpr ⟨before, after, heq, by omega⟩), rfl⟩
      · exact ⟨_, List.mem_append_right _ List.mem_cons_self, rfl⟩

end QCache

end QtWebApp
