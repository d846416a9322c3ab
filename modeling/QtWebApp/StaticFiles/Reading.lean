import QtWebApp.HttpServer.StaticFileController

/-!
# QtWebApp.StaticFiles.Reading

What the controller reads of a file.

The loop ends at the end of the file or after a read that failed, and it does not tell which. What
it has read is the beginning of the file, as far as the blocks could be read (`readable`); that is
the whole file exactly when no read fails before the end (`ReadsAll`).

A file is described by what is in it and by the read that is going to fail, if one is.
-/

namespace QtWebApp

namespace File

/-- What can be read of a file in blocks. -/
def readable (f : File) : Bytes :=
  match f.failsAfter with
  | some n => f.rest.take (65536 * n)
  | none => f.rest

/-- No read fails before the end of the file. -/
def ReadsAll (f : File) : Prop :=
  f.rest = [] ∨ f.error = false ∧ ∀ n ∈ f.failsAfter, f.rest.length ≤ 65536 * n

instance (f : File) : Decidable f.ReadsAll := by unfold ReadsAll; infer_instance

/-- Nothing is read of a file in error. -/
theorem readLoop_error {f : File} (h : f.error = true) (n : Nat) : f.readLoop n = [] := by
  cases n with
  | zero => rfl
  | succ n =>
      rw [readLoop, if_neg]
      rintro ⟨-, hok⟩
      exact absurd (h.symm.trans hok) (by decide)

theorem readLoop_end {f : File} (h : f.rest = []) (n : Nat) : f.readLoop n = [] := by
  cases n with
  | zero => rfl
  | succ n => rw [readLoop, if_neg fun hmore => hmore.1 h]

/-- A block is read, and the rest of the loop follows. -/
theorem readLoop_block {f : File} (hmore : f.rest ≠ [] ∧ f.error = false) (n : Nat) :
    f.readLoop (n + 1) = (f.read 65536).1 :: (f.read 65536).2.readLoop n := by
  rw [readLoop, if_pos hmore]

/-- **What the loop reads**: the blocks that can be read. -/
theorem flatten_readLoop {f : File} (hok : f.error = false) {n : Nat} (hn : f.rest.length < n) :
    (f.readLoop n).flatten = f.readable := by
  induction n generalizing f with
  | zero => exact absurd hn (Nat.not_lt_zero _)
  | succ n ih =>
      by_cases hend : f.rest = []
      · rw [readLoop_end hend, readable, hend]
        cases f.failsAfter with
        | none => rfl
        | some k => exact List.take_nil.symm
      · obtain ⟨size, rest, failsAfter, error⟩ := f
        replace hn : rest.length < n + 1 := hn
        have hpos : 0 < rest.length := List.length_pos_iff.mpr hend
        have hlen : (rest.drop 65536).length < n := by
          rw [List.length_drop]
          omega
        rw [readLoop_block ⟨hend, hok⟩, List.flatten_cons]
        cases failsAfter with
        | none =>
            have hrest := ih (f := ⟨size, rest.drop 65536, none, error⟩) hok hlen
            rw [read, hrest]
            exact List.take_append_drop 65536 rest
        | some k =>
            cases k with
            | zero =>
                -- the read that fails is the last one
                rw [read, readLoop_error rfl]
                rfl
            | succ k =>
                have hrest := ih (f := ⟨size, rest.drop 65536, some k, error⟩) hok hlen
                rw [read, hrest]
                show rest.take 65536 ++ (rest.drop 65536).take (65536 * k) = rest.take
                  (65536 * (k + 1))
                rw [Nat.mul_succ, Nat.add_comm, List.take_add]

theorem flatten_buffers_eq {f : File} (hok : f.error = false) : f.buffers.flatten = f.readable :=
  flatten_readLoop hok (Nat.lt_succ_self _)

/-- **The whole file is read** exactly when no read fails before its end. -/
theorem flatten_buffers_iff {f : File} : f.buffers.flatten = f.rest ↔ f.ReadsAll := by
  by_cases hend : f.rest = []
  · rw [buffers, readLoop_end hend, hend]
    exact iff_of_true rfl (.inl hend)
  · rw [ReadsAll, or_iff_right hend]
    cases hok : f.error with
    | true =>
        rw [buffers, readLoop_error hok]
        exact iff_of_false (fun heq => hend heq.symm) fun hreads => absurd hreads.1 (by decide)
    | false =>
        rw [flatten_buffers_eq hok, readable]
        cases f.failsAfter with
        | none => simp
        | some n => simp [List.take_eq_self_iff]

theorem flatten_buffers {f : File} (hok : f.failsAfter = none ∧ f.error = false) :
    f.buffers.flatten = f.rest :=
  flatten_buffers_iff.mpr (.inr ⟨hok.2, fun n hn => by rw [hok.1] at hn; cases hn⟩)

end File

end QtWebApp
