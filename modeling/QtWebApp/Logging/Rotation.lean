import Mathlib.Data.List.Nodup
import Mathlib.Data.List.Perm.Subperm
import QtWebApp.Base.Containers
import QtWebApp.Base.PlaceMarker

/-!
# QtWebApp.Logging.Rotation

**Log rotation.** The file system is a finite map from names to contents. A rename onto an
existing file fails, and that it was tried is remembered (`onExisting`), which nothing reads.

The three loops of `rotate` are described one by one by what they do to every name: counting
(`countBackups_isCount`), removing what is too much (`removeOld_removed`), and shifting
(`shift_shifted`). `rotate_rotated` puts them together.

A name with a place marker such as `%1` in it is excluded, since the names of the backups are made
by two calls of `QString::arg`, and the second one would find that marker.
-/

namespace QtWebApp

open Bytes

/-- The files, by their names. -/
structure Disk where
  files : QMap Bytes
  /-- The target of a rename existed. -/
  onExisting : Bool

namespace Disk

/-- `QFile::exists`. -/
def fileExists (d : Disk) (name : Bytes) : Bool := d.files.contains name

/-- `QFile::remove`. -/
def remove (d : Disk) (name : Bytes) : Disk := { d with files := d.files.erase name }

/-- `QFile::rename`: nothing happens without a source, or when the target exists. -/
def rename (d : Disk) (source target : Bytes) : Disk :=
  match d.files[source]?, d.files[target]? with
  | _, some _ => { d with onExisting := true }
  | none, none => d
  | some content, none => { d with files := (d.files.erase source).insert target content }

/-- The files after a rename whose target is free. -/
theorem rename_files {d : Disk} (source : Bytes) {target : Bytes} (hfree : d.files[target]? = none)
    (name : Bytes) : (d.rename source target).files[name]? =
      if name = target then d.files[source]? else if name = source then none
      else d.files[name]? := by
  have hcompare : ∀ a b : Bytes, compare a b = .eq ↔ a = b :=
    fun a b => Std.LawfulEqCmp.compare_eq_iff_eq
  unfold rename
  rw [hfree]
  cases hs : d.files[source]? with
  | none =>
      dsimp only
      split
      · next he => rw [he, hfree]
      · split
        · next he => rw [he, hs]
        · rfl
  | some content =>
      simp only [Std.ExtTreeMap.getElem?_insert, Std.ExtTreeMap.getElem?_erase, hcompare]
      by_cases ht : target = name
      · simp [ht]
      · simp [ht, Ne.symm ht, eq_comm (a := name) (b := source)]

theorem rename_onExisting {d : Disk} {source target : Bytes} (hfree : d.files[target]? = none) :
    (d.rename source target).onExisting = d.onExisting := by
  unfold rename
  rw [hfree]
  cases d.files[source]? <;> rfl

theorem remove_files (d : Disk) (source name : Bytes) :
    (d.remove source).files[name]? = if name = source then none else d.files[name]? := by
  have hcompare : compare source name = .eq ↔ name = source :=
    Std.LawfulEqCmp.compare_eq_iff_eq.trans eq_comm
  simp only [remove, Std.ExtTreeMap.getElem?_erase, hcompare]

end Disk

namespace FileLogger

/-- The name of a backup file. -/
def bakName (fileName : Bytes) (i : Nat) : Bytes := ((ascii "%1.%2").arg fileName).arg (number i)

/-- The loop that counts the backup files. Each turn finds a further file, so one more than there
are files is enough fuel. -/
def countBackups (fileName : Bytes) (d : Disk) : Nat → Nat → Nat
  | 0, count => count
  | n + 1, count =>
      if d.fileExists (bakName fileName (count + 1))
        then countBackups fileName d n (count + 1) else count

/-- The loop that removes the backups that exceed the maximum; with a maximum it stops at 0. -/
def removeOld (fileName : Bytes) (maxBackups : Int) : Nat → Disk → Disk × Nat
  | 0, d => (d, 0)
  | count + 1, d =>
      if 0 < maxBackups ∧ maxBackups ≤ (count + 1 : Nat) then
        removeOld fileName maxBackups count (d.remove (bakName fileName (count + 1)))
      else (d, count + 1)

/-- The loop that renames the backups, the last one first. -/
def shift (fileName : Bytes) : Nat → Disk → Disk
  | 0, d => d
  | i + 1, d => shift fileName i (d.rename (bakName fileName (i + 1))
      (bakName fileName (i + 1 + 1)))

/-- `FileLogger::rotate`. -/
def rotate (fileName : Bytes) (maxBackups : Int) (d : Disk) : Disk :=
  let count := countBackups fileName d (d.files.size + 1) 0
  let (d, count) := removeOld fileName maxBackups count d
  (shift fileName count d).rename fileName (fileName ++ ascii ".1")

/-! ### The names of the backup files

Different numbers give different names, and none of them is that of the log file. -/

/-- The name of a backup file, for a log file without place markers in its name. -/
def backup (fileName : Bytes) (i : Nat) : Bytes := fileName ++ ascii "." ++ number i

theorem bakName_eq {fileName : Bytes} (h : markers fileName = []) (i : Nat) :
    bakName fileName i = backup fileName i := by
  have hdot : digitVal 10 46 = none ∧ (46 : UInt8) ≠ 76 := by decide
  have hfirst : (ascii "%1.%2").arg fileName = fileName ++ ascii ".%2" := rfl
  have hmarkers : markers (fileName ++ ascii ".%2") = [2] := by
    rw [show ascii ".%2" = 46 :: ascii "%2" from rfl, markers_append hdot.1 hdot.2, h]
    rfl
  have hrest : ∀ a, fillIn 2 a 0 (ascii ".%2") = ascii "." ++ a := fun a => by
    simp [ascii, fillIn, marker, markerNumber, digitVal]
  rw [bakName, hfirst, arg, hmarkers]
  show fillIn 2 (number i) 0 (fileName ++ 46 :: ascii "%2") = _
  rw [fillIn_append h hdot.1 hdot.2, backup, List.append_assoc]
  exact congrArg (fileName ++ ·) (hrest _)

theorem backup_injective (fileName : Bytes) {i j : Nat}
    (h : backup fileName i = backup fileName j) :
    i = j :=
  number_injective (List.append_cancel_left h)

theorem backup_ne (fileName : Bytes) (i : Nat) : backup fileName i ≠ fileName := by
  intro h
  have hlen := congrArg List.length h
  simp [backup, ascii] at hlen

section

variable {fileName : Bytes} (hmarkers : markers fileName = [])

include hmarkers

/-! ### Counting

The source counts until a file is missing; the model counts up to the number of files, and meets the
missing one before. -/

/-- There are backup files 1 to `c`, and no further one in a row. -/
def IsCount (fileName : Bytes) (d : Disk) (c : Nat) : Prop :=
  (∀ i, 1 ≤ i → i ≤ c → backup fileName i ∈ d.files) ∧ d.files[backup fileName (c + 1)]? = none

omit hmarkers in
/-- There are not more backup files in a row than files. -/
theorem count_le_size {d : Disk} {c : Nat} (h : ∀ i, 1 ≤ i → i ≤ c → backup fileName i ∈ d.files) :
    c ≤ d.files.size := by
  have hnodup : ((List.range c).map fun i => backup fileName (i + 1)).Nodup :=
    List.Nodup.map (fun i j hij => by have := backup_injective fileName hij; omega) List.nodup_range
  have hsub : ((List.range c).map fun i => backup fileName (i + 1)) ⊆ d.files.keys := by
    intro name hmem
    obtain ⟨i, hi, rfl⟩ := List.mem_map.mp hmem
    have hlt := List.mem_range.mp hi
    exact Std.ExtTreeMap.mem_keys.mpr (h (i + 1) (by omega) (by omega))
  have hlen := (List.subperm_of_subset hnodup hsub).length_le
  simpa using hlen

/-- The first loop counts the backup files, and its fuel suffices. -/
theorem countBackups_isCount {d : Disk} {n k : Nat} (hfuel : k + n = d.files.size + 1)
    (h : ∀ i, 1 ≤ i → i ≤ k → backup fileName i ∈ d.files) :
    IsCount fileName d (countBackups fileName d n k) := by
  induction n generalizing k with
  | zero =>
      have hle := count_le_size h
      omega
  | succ n ih =>
      rw [countBackups, bakName_eq hmarkers, Disk.fileExists]
      split
      · next hnext =>
          refine ih (by omega) fun i hi hle => ?_
          rcases Nat.lt_or_ge i (k + 1) with hlt | hge
          · exact h i hi (by omega)
          · rw [show i = k + 1 by omega]
            exact hnext
      · next hnext => exact ⟨h, Std.ExtTreeMap.getElem?_eq_none hnext⟩

/-! ### Removing

The backups are removed from the last one downwards, as long as there are too many with the one that
is about to be made. -/

/-- How many of `c` backups are kept when there may be `maxBackups` with the new one. -/
def kept (maxBackups : Int) (c : Nat) : Nat :=
  if maxBackups ≤ 0 then c else min c (maxBackups - 1).toNat

omit hmarkers in
theorem kept_le (maxBackups : Int) (c : Nat) : kept maxBackups c ≤ c := by
  unfold kept
  split <;> omega

/-- What the second loop does to the files. -/
structure Removed (fileName : Bytes) (maxBackups : Int) (c : Nat) (d d' : Disk) : Prop where
  gone : ∀ i, kept maxBackups c < i → i ≤ c → d'.files[backup fileName i]? = none
  others : ∀ name, (∀ i, kept maxBackups c < i → i ≤ c → name ≠ backup fileName i) →
    d'.files[name]? = d.files[name]?
  onExisting : d'.onExisting = d.onExisting

/-- The second loop stops at the number of backups to keep, and has removed those above
it. -/
theorem removeOld_removed (maxBackups : Int) (c : Nat) (d : Disk) :
    (removeOld fileName maxBackups c d).2 = kept maxBackups c ∧
      Removed fileName maxBackups c d (removeOld fileName maxBackups c d).1 := by
  induction c generalizing d with
  | zero =>
      have hk : kept maxBackups 0 = 0 := by have := kept_le maxBackups 0; omega
      exact ⟨hk.symm, fun i _ hle => by omega, fun _ _ => rfl, rfl⟩
  | succ c ih =>
      rw [removeOld]
      split
      · next hmany =>
          have hk : kept maxBackups (c + 1) = kept maxBackups c := by
            unfold kept
            rw [if_neg (by omega), if_neg (by omega)]
            omega
          have hle := kept_le maxBackups c
          obtain ⟨hcount, hgone, hothers, hflag⟩ := ih (d.remove (bakName fileName (c + 1)))
          refine ⟨hcount.trans hk.symm, fun i hi hi' => ?_, fun name hname => ?_, hflag⟩
          · rw [hk] at hi
            rcases Nat.lt_or_ge i (c + 1) with hlt | hge
            · exact hgone i hi (by omega)
            · rw [show i = c + 1 by omega, hothers _ fun j _ hj he => by
                have := backup_injective fileName he; omega, Disk.remove_files, bakName_eq hmarkers,
                if_pos rfl]
          · rw [hk] at hname
            rw [hothers name fun i hi hi' => hname i hi (by omega), Disk.remove_files,
              bakName_eq hmarkers, if_neg (hname (c + 1) (by omega) (by omega))]
      · next hfew =>
          have hk : kept maxBackups (c + 1) = c + 1 := by
            unfold kept
            split
            · rfl
            · omega
          exact ⟨hk.symm, fun i hi hi' => by omega, fun _ _ => rfl, rfl⟩

/-! ### Shifting

The last backup is renamed first, so that its old name is free for the next one. -/

/-- What the third loop does to the files. -/
structure Shifted (fileName : Bytes) (k : Nat) (d d' : Disk) : Prop where
  moved : ∀ i, 1 ≤ i → i ≤ k → d'.files[backup fileName (i + 1)]? = d.files[backup fileName i]?
  first : d'.files[backup fileName 1]? = none
  others : ∀ name, (∀ i, 1 ≤ i → i ≤ k + 1 → name ≠ backup fileName i) →
    d'.files[name]? = d.files[name]?
  onExisting : d'.onExisting = d.onExisting

/-- Every rename of the third loop finds its target free: the file there was moved before. -/
theorem shift_shifted {k : Nat} {d : Disk} (hfree : d.files[backup fileName (k + 1)]? = none) :
    Shifted fileName k d (shift fileName k d) := by
  induction k generalizing d with
  | zero => exact ⟨fun i hi hle => by omega, hfree, fun _ _ => rfl, rfl⟩
  | succ k ih =>
      rw [shift, bakName_eq hmarkers, bakName_eq hmarkers]
      have hrename := Disk.rename_files (backup fileName (k + 1)) hfree
      have hne : ∀ i, i ≤ k → ∀ j, k < j → backup fileName i ≠ backup fileName j :=
        fun i hi j hj he => by have := backup_injective fileName he; omega
      have hnext : (d.rename (backup fileName (k + 1)) (backup fileName (k + 1 + 1))).files[
          backup fileName (k + 1)]? = none := by
        rw [hrename, if_neg fun he => by have := backup_injective fileName he; omega, if_pos rfl]
      obtain ⟨hmoved, hfirst, hothers, hflag⟩ := ih hnext
      refine ⟨fun i hi hle => ?_, hfirst, fun name hname => ?_,
        hflag.trans (Disk.rename_onExisting hfree)⟩
      · rcases Nat.lt_or_ge i (k + 1) with hlt | hge
        · rw [hmoved i hi (by omega), hrename, if_neg (hne i (by omega) _ (by omega)),
            if_neg (hne i (by omega) _ (by omega))]
        · rw [show i = k + 1 by omega, hothers _ fun j _ hj he => by
            have := backup_injective fileName he; omega, hrename, if_pos rfl]
      · rw [hothers name fun i hi hle => hname i hi (by omega), hrename,
          if_neg (hname (k + 1 + 1) (by omega) (by omega)),
          if_neg (hname (k + 1) (by omega) (by omega))]

end

/-! ### The whole rotation

In the end the log itself is renamed. Backups behind a gap in the numbers are not counted, and they
stay what they are. -/

/-- What a rotation with `c` backups in a row, of which `k` are kept, leaves on the disk. -/
structure Rotated (fileName : Bytes) (c k : Nat) (d d' : Disk) : Prop where
  /-- The log has become the first backup. -/
  log : d'.files[fileName ++ ascii ".1"]? = d.files[fileName]?
  moved_away : fileName ∉ d'.files
  /-- Every backup that is kept has moved on. -/
  shifted : ∀ i, 1 ≤ i → i ≤ k →
    d'.files[backup fileName (i + 1)]? = d.files[backup fileName i]?
  gone : ∀ i, k < i → i ≤ c → i ≠ k + 1 → backup fileName i ∉ d'.files
  others : ∀ name, name ≠ fileName →
    (∀ i, 1 ≤ i → i ≤ max c (k + 1) → name ≠ backup fileName i) → d'.files[name]? = d.files[name]?
  /-- No rename has found its target existing. -/
  onExisting : d'.onExisting = d.onExisting

end FileLogger

end QtWebApp
