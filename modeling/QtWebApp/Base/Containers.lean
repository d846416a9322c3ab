import QtWebApp.Base.Bytes

/-!
# QtWebApp.Base.Containers

The two associative containers of the server.

`QMap` is an ordered map from byte strings; the maps of the standard library iterate
in the order of the keys, as `QMap` does. `QMultiMap` may hold several values under a
key; it is the list of its entries, the most recently inserted first, since that is the
order in which Qt answers `values(key)`.

Only the operations that the server uses are here, each under its name in Qt.
-/

namespace QtWebApp

/-- `QMap<QByteArray, ν>`. -/
abbrev QMap (ν : Type) := Std.ExtTreeMap Bytes ν

/-- `QMultiMap<QByteArray, QByteArray>`, the most recently inserted entry first. -/
structure QMultiMap where
  entries : List (Bytes × Bytes)
  deriving DecidableEq, Repr

namespace QMultiMap

/-- The empty map. -/
def empty : QMultiMap := ⟨[]⟩

/-- `QMultiMap::insert`: one more entry, also when the key is there already. -/
def insert (m : QMultiMap) (key value : Bytes) : QMultiMap := ⟨(key, value) :: m.entries⟩

/-- `QMultiMap::values`: all values of a key, the most recent first. -/
def values (m : QMultiMap) (key : Bytes) : List Bytes :=
  (m.entries.filter fun e => e.1 == key).map Prod.snd

/-- `QMultiMap::value`: the most recent value of a key, empty when there is none. -/
def value (m : QMultiMap) (key : Bytes) : Bytes := (m.values key).headD []

/-- `QMultiMap::contains`. -/
def contains (m : QMultiMap) (key : Bytes) : Bool := m.entries.any fun e => e.1 == key

/-- `QMultiMap::remove`: all entries of a key go. -/
def remove (m : QMultiMap) (key : Bytes) : QMultiMap := ⟨m.entries.filter fun e => e.1 != key⟩

@[simp] theorem value_eq_nil_of_values {m : QMultiMap} {k : Bytes} (h : m.values k = []) :
    m.value k = [] := by
  simp [value, h]

theorem value_of_values_cons {m : QMultiMap} {k v : Bytes} {vs : List Bytes}
    (h : m.values k = v :: vs) : m.value k = v := by
  simp [value, h]

theorem values_eq_nil_iff {m : QMultiMap} {k : Bytes} :
    m.values k = [] ↔ ∀ e ∈ m.entries, e.1 ≠ k := by
  simp [values, List.filter_eq_nil_iff]

/-- A removed key has no values, -/
theorem values_remove_self (m : QMultiMap) (k : Bytes) : (m.remove k).values k = [] := by
  rw [values_eq_nil_iff]
  intro e he
  simpa using (List.mem_filter.mp he).2

/-- and the other keys keep theirs. -/
theorem values_remove_of_ne (m : QMultiMap) {k k' : Bytes} (h : k' ≠ k) :
    (m.remove k).values k' = m.values k' := by
  have hkeep : ∀ e ∈ m.entries, ((e.1 == k') && (e.1 != k)) = (e.1 == k') := by
    intro e _
    by_cases he : e.1 = k'
    · simp [he, h]
    · simp [he]
  rw [values, values, remove, List.filter_filter, List.filter_congr hkeep]

end QMultiMap

end QtWebApp
