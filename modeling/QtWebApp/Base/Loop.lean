import Mathlib.Data.Nat.Init

/-!
# QtWebApp.Base.Loop

`while` loops with fuel.

A loop is given by its body, which either leaves the loop or goes on, and which may itself
run out of fuel when it holds another loop. The fuel of the outer loop is also that of the
loops inside, so a body is a family of functions that is monotone in the fuel. `Ends` forgets
the fuel; its rules build a finished run turn by turn, take one apart, and show that the
result does not depend on how much fuel there was.
-/

namespace QtWebApp

universe u

/-- One turn of a loop: leave the loop or do another turn. -/
inductive Turn (σ : Type u)
  | leave (s : σ)
  | again (s : σ)

/-- Run a loop body until it leaves; `none` when the fuel is used up before. -/
def loop {σ : Type u} (body : σ → Option (Turn σ)) : Nat → σ → Option σ
  | 0, _ => none
  | n + 1, s =>
      match body s with
      | some (.leave t) => some t
      | some (.again t) => loop body n t
      | none => none

/-- The same turn with another state. -/
def Turn.map {σ τ : Type u} (f : σ → τ) : Turn σ → Turn τ
  | .leave s => .leave (f s)
  | .again s => .again (f s)

namespace Loop

variable {σ : Type u}

/-- More fuel does not change what a body does. -/
def Mono (body : Nat → σ → Option (Turn σ)) : Prop :=
  ∀ n m, n ≤ m → ∀ s t, body n s = some t → body m s = some t

/-- The loop, started in `s` with enough fuel, leaves with `t`. -/
def Ends (body : Nat → σ → Option (Turn σ)) (s t : σ) : Prop := ∃ n, loop (body n) n s = some t

theorem mono_const (body : σ → Option (Turn σ)) : Mono fun _ => body := fun _ _ _ _ _ h => h

/-- More fuel, for the loop and for its body, does not change the result. -/
theorem loop_mono {b b' : σ → Option (Turn σ)} (hb : ∀ s t, b s = some t → b' s = some t)
    {n m : Nat} (hnm : n ≤ m) {s t : σ} (h : loop b n s = some t) : loop b' m s = some t := by
  induction n generalizing m s with
  | zero => simp [loop] at h
  | succ n ih =>
      obtain ⟨m, rfl⟩ : ∃ k, m = k + 1 := ⟨m - 1, by omega⟩
      rw [loop] at h ⊢
      cases hs : b s with
      | none => rw [hs] at h; cases h
      | some turn =>
          rw [hs] at h
          rw [hb s turn hs]
          cases turn with
          | leave => exact h
          | again => exact ih (by omega) h

variable {body : Nat → σ → Option (Turn σ)}

theorem Ends.leave {k : Nat} {s t : σ} (hm : Mono body) (h : body k s = some (.leave t)) :
    Ends body s t :=
  ⟨k + 1, by rw [loop, hm k (k + 1) (by omega) s _ h]⟩

theorem Ends.again {k : Nat} {s s' t : σ} (hm : Mono body) (h : body k s = some (.again s'))
    (ht : Ends body s' t) : Ends body s t := by
  obtain ⟨n, hn⟩ := ht
  refine ⟨max k n + 1, ?_⟩
  rw [loop, hm k _ (by omega) s _ h]
  exact loop_mono (hm n _ (by omega)) (by omega) hn

/-- Induction along the turns of a finished run. -/
theorem Ends.induction {motive : σ → σ → Prop}
    (leave : ∀ k s t, body k s = some (.leave t) → motive s t)
    (again : ∀ k s s' t, body k s = some (.again s') → motive s' t → motive s t)
    {s t : σ} (h : Ends body s t) : motive s t := by
  obtain ⟨n, hn⟩ := h
  suffices ∀ m s, loop (body n) m s = some t → motive s t from this n s hn
  intro m
  induction m with
  | zero => intro s h; simp [loop] at h
  | succ m ih =>
      intro s h
      rw [loop] at h
      split at h
      · next r hr => cases h; exact leave n s _ hr
      · next r hr => exact again n s r t hr (ih r h)
      · cases h

/-- What every turn keeps, the last one included, the loop keeps. -/
theorem loop_keeps {b : σ → Option (Turn σ)} {I : σ → Prop}
    (leave : ∀ s t, I s → b s = some (.leave t) → I t)
    (again : ∀ s t, I s → b s = some (.again t) → I t) {n : Nat} {s t : σ} (hs : I s)
    (h : loop b n s = some t) : I t := by
  induction n generalizing s with
  | zero => simp [loop] at h
  | succ n ih =>
      rw [loop] at h
      split at h
      · next r hr =>
          cases h
          exact leave s _ hs hr
      · next r hr => exact ih (again s r hs hr) h
      · cases h

/-- Two turns that do the same with related states. -/
inductive Turn.Rel (R : σ → σ → Prop) : Turn σ → Turn σ → Prop
  | leave {s t : σ} (h : R s t) : Turn.Rel R (.leave s) (.leave t)
  | again {s t : σ} (h : R s t) : Turn.Rel R (.again s) (.again t)

/-- **Lockstep.** When the bodies of two loops do the same in related states, so do the loops. -/
theorem loop_rel {R : σ → σ → Prop} {b b' : σ → Option (Turn σ)}
    (hb : ∀ {s t}, R s t → Option.Rel (Turn.Rel R) (b s) (b' t)) (n : Nat) {s t : σ} (h : R s t) :
    Option.Rel R (loop b n s) (loop b' n t) := by
  induction n generalizing s t with
  | zero => exact .none
  | succ n ih =>
      have hturn := hb h
      rw [loop, loop]
      generalize b s = turn at hturn
      generalize b' t = turn' at hturn
      cases hturn with
      | none => exact .none
      | some hturn =>
          cases hturn with
          | leave h' => exact .some h'
          | again h' => exact ih h'

/-- A loop that does the same as another one with less to remember. -/
theorem loop_map {τ : Type u} {f : σ → τ} {b : σ → Option (Turn σ)} {b' : τ → Option (Turn τ)}
    (hb : ∀ s, (b s).map (Turn.map f) = b' (f s)) (n : Nat) (s : σ) :
    (loop b n s).map f = loop b' n (f s) := by
  induction n generalizing s with
  | zero => rfl
  | succ n ih =>
      have hturn := hb s
      rw [loop, loop, ← hturn]
      cases b s with
      | none => rfl
      | some turn =>
          cases turn with
          | leave t => rfl
          | again t => exact ih t

/-- Every turn that the loop begins meets a condition. -/
def Along (b : σ → Option (Turn σ)) (ok : σ → Prop) : Nat → σ → Prop
  | 0, _ => True
  | n + 1, s => ok s ∧ ∀ t, b s = some (.again t) → Along b ok n t

/-- The first turn of a finished run. -/
theorem Ends.inv {s t : σ} (h : Ends body s t) :
    (∃ k, body k s = some (.leave t)) ∨
      ∃ k s', body k s = some (.again s') ∧ Ends body s' t := by
  obtain ⟨n, hn⟩ := h
  cases n with
  | zero => simp [loop] at hn
  | succ n =>
      rw [loop] at hn
      split at hn
      · next r hr => cases hn; exact .inl ⟨_, hr⟩
      · next r hr =>
          exact .inr ⟨_, r, hr, n + 1, loop_mono (fun _ _ h => h) (by omega) hn⟩
      · cases hn

/-- The result of a loop is unique. -/
theorem Ends.unique (hm : Mono body) {s t t' : σ} (h : Ends body s t) (h' : Ends body s t') :
    t = t' := by
  obtain ⟨n, hn⟩ := h
  obtain ⟨m, hm'⟩ := h'
  have h1 := loop_mono (hm n (max n m) (by omega)) (m := max n m) (by omega) hn
  have h2 := loop_mono (hm m (max n m) (by omega)) (m := max n m) (by omega) hm'
  exact Option.some.inj (h1.symm.trans h2)

/-- A state in which a loop that was started in the first one begins a turn. -/
inductive Reach (body : Nat → σ → Option (Turn σ)) (s : σ) : σ → Prop
  | start : Reach body s s
  | again {k : Nat} {t t' : σ} : Reach body s t → body k t = some (.again t') → Reach body s t'

/-- What is reached is the start, or is reached from the next turn. -/
theorem Reach.inv {s t : σ} (h : Reach body s t) :
    t = s ∨ ∃ k s', body k s = some (.again s') ∧ Reach body s' t := by
  induction h with
  | start => exact .inl rfl
  | @again k t t' _ hturn ih =>
      rcases ih with rfl | ⟨j, s', hs', hreach⟩
      · exact .inr ⟨k, t', hturn, .start⟩
      · exact .inr ⟨j, s', hs', .again hreach hturn⟩

/-- A turn in front of what is reached. -/
theorem Reach.prepend {k : Nat} {s s' t : σ} (h : Reach body s' t)
    (hs : body k s = some (.again s')) :
    Reach body s t := by
  induction h with
  | start => exact .again .start hs
  | again _ hturn ih => exact .again ih hturn

/-- What is reached from a state that is reached is reached. -/
theorem Reach.trans {s t u : σ} (h : Reach body s t) (h' : Reach body t u) : Reach body s u := by
  induction h' with
  | start => exact h
  | again _ hturn ih => exact .again ih hturn

/-- A loop that ends, ends from every state that it reaches. -/
theorem Ends.of_reach (hm : Mono body) {s t u : σ} (h : Ends body s t) (hr : Reach body s u) :
    Ends body u t := by
  induction hr with
  | start => exact h
  | @again k u u' _ hturn ih =>
      rcases ih.inv with ⟨j, hj⟩ | ⟨j, u'', hj, hrest⟩
      · have hboth := (hm j (max j k) (by omega) _ _ hj).symm.trans
            (hm k (max j k) (by omega) _ _ hturn)
        cases hboth
      · have hboth := (hm j (max j k) (by omega) _ _ hj).symm.trans
            (hm k (max j k) (by omega) _ _ hturn)
        cases hboth
        exact hrest

/-- A turn that changes nothing is done again and again. -/
theorem not_ends_of_same (hm : Mono body) {k : Nat} {s t : σ} (h : body k s = some (.again s)) :
    ¬ Ends body s t := by
  intro hends
  refine Ends.induction (motive := fun s' _ => s' ≠ s) ?_ ?_ hends rfl
  · rintro j s' t' hleave rfl
    cases (hm j (max j k) (by omega) _ _ hleave).symm.trans (hm k (max j k) (by omega) _ _ h)
  · rintro j s' s'' t' hagain ih rfl
    cases (hm j (max j k) (by omega) _ _ hagain).symm.trans (hm k (max j k) (by omega) _ _ h)
    exact ih rfl

/-- **Total correctness.** When every turn either leaves the loop with the postcondition, or keeps
the invariant and makes a measure smaller, the loop ends with the postcondition. -/
theorem ends_of_measure (hm : Mono body) (I Q : σ → Prop) (μ : σ → Nat)
    (turn : ∀ s, I s → ∃ k, (∃ t, body k s = some (.leave t) ∧ Q t) ∨
      ∃ s', body k s = some (.again s') ∧ I s' ∧ μ s' < μ s)
    (s : σ) (hs : I s) : ∃ t, Ends body s t ∧ Q t := by
  induction hk : μ s using Nat.strongRecOn generalizing s with
  | _ k ih =>
      obtain ⟨j, ⟨t, ht, hQ⟩ | ⟨s', hs', hI, hlt⟩⟩ := turn s hs
      · exact ⟨t, Ends.leave hm ht, hQ⟩
      · obtain ⟨t, ht, hQ⟩ := ih (μ s') (hk ▸ hlt) s' hI rfl
        exact ⟨t, Ends.again hm hs' ht, hQ⟩

/-- A fold of steps that do not change when there is more fuel does not change either. -/
theorem foldlM_mono {α : Type u} {f f' : σ → α → Option σ}
    (hf : ∀ s a t, f s a = some t → f' s a = some t) {l : List α} {s t : σ}
    (h : l.foldlM f s = some t) : l.foldlM f' s = some t := by
  induction l generalizing s with
  | nil => exact h
  | cons a l ih =>
      rw [List.foldlM_cons] at h ⊢
      obtain ⟨s', hs', hrest⟩ := Option.bind_eq_some_iff.mp h
      rw [hf s a s' hs']
      exact ih hrest

end Loop

end QtWebApp
