import Mathlib.Data.List.Induction

/-!
# QtWebApp.Base.Run

Systems that answer to events.

A system is a function from a state and an event to the next state; what happens over time,
in whatever order, is a list of events. A property of every state that can be reached is
proved as an invariant (`inv_run`); one that holds only as long as every event meets a
condition in the state it finds, as an invariant along such runs (`Along.inv`).
-/

namespace QtWebApp

universe u v w

/-- The state after a list of events, when no step runs out of fuel. -/
def tryRun {σ : Type u} {ε : Type v} (step : σ → ε → Option σ) : σ → List ε → Option σ
  | s, [] => some s
  | s, e :: es => (step s e).bind fun t => tryRun step t es

/-- The state after a list of events. -/
def run {σ : Type u} {ε : Type v} (step : σ → ε → σ) (s : σ) (events : List ε) : σ :=
  events.foldl step s

namespace Run

variable {σ : Type u} {ε : Type v} {step : σ → ε → σ}

@[simp] theorem run_nil (s : σ) : run step s [] = s := rfl

@[simp] theorem run_cons (s : σ) (e : ε) (es : List ε) :
    run step s (e :: es) = run step (step s e) es := rfl

/-- A run in two parts. -/
theorem run_append (s : σ) (es es' : List ε) :
    run step s (es ++ es') = run step (run step s es) es' := List.foldl_append

/-- **The rule of invariants.** What every step keeps holds in every state that is reached. -/
theorem inv_run {I : σ → Prop} (keep : ∀ s e, I s → I (step s e)) {s : σ} (hs : I s)
    (es : List ε) : I (run step s es) := by
  induction es generalizing s with
  | nil => exact hs
  | cons e es ih => exact ih (keep s e hs)

/-- A system that does the same as another one with less to remember. -/
theorem run_map {τ : Type w} {f : σ → τ} {step' : τ → ε → τ}
    (hstep : ∀ s e, f (step s e) = step' (f s) e) (s : σ) (es : List ε) :
    f (run step s es) = run step' (f s) es := by
  induction es generalizing s with
  | nil => rfl
  | cons e es ih => rw [run_cons, run_cons, ih, hstep]

/-- Every event of a run meets a condition in the state it finds. -/
def Along (step : σ → ε → σ) (ok : σ → ε → Prop) : σ → List ε → Prop
  | _, [] => True
  | s, e :: es => ok s e ∧ Along step ok (step s e) es

instance Along.instDecidable {ok : σ → ε → Prop} [∀ s e, Decidable (ok s e)] :
    (s : σ) → (es : List ε) → Decidable (Along step ok s es)
  | _, [] => .isTrue trivial
  | s, e :: es => @instDecidableAnd _ _ _ (Along.instDecidable (step s e) es)

/-- What every step that meets the condition keeps holds after every run that meets it. -/
theorem Along.inv {ok : σ → ε → Prop} {I : σ → Prop}
    (keep : ∀ s e, I s → ok s e → I (step s e)) {s : σ} (hs : I s) {es : List ε}
    (h : Along step ok s es) : I (run step s es) := by
  induction es generalizing s with
  | nil => exact hs
  | cons e es ih =>
      obtain ⟨hok, hrest⟩ := h
      exact ih (keep s e hs hok) hrest

/-- The beginning of a run that meets a condition meets it. -/
theorem Along.left {ok : σ → ε → Prop} {s : σ} {es es' : List ε} (h : Along step ok s (es ++ es')) :
    Along step ok s es := by
  induction es generalizing s with
  | nil => trivial
  | cons e es ih => exact ⟨h.1, ih h.2⟩

theorem Along.concat {ok : σ → ε → Prop} {s : σ} {es : List ε} {e : ε} :
    Along step ok s (es ++ [e]) ↔ Along step ok s es ∧ ok (run step s es) e := by
  induction es generalizing s with
  | nil => exact ⟨fun h => ⟨trivial, h.1⟩, fun h => ⟨h.2, trivial⟩⟩
  | cons d es ih => exact (and_congr_right fun _ => ih).trans (and_assoc).symm

/-! ### What is seen of a run

What an event shows may depend on the state that it finds. A property of all that was shown so far
is an invariant of the past. -/

/-- What a run shows, when every event shows something in the state it finds. -/
def shown {ω : Type w} (step : σ → ε → σ) (note : σ → ε → List ω) : σ → List ε → List ω
  | _, [] => []
  | s, e :: es => note s e ++ shown step note (step s e) es

theorem shown_concat {ω : Type w} (note : σ → ε → List ω) (s : σ) (es : List ε) (e : ε) :
    shown step note s (es ++ [e]) = shown step note s es ++ note (run step s es) e := by
  induction es generalizing s with
  | nil => simp [shown]
  | cons d es ih => rw [List.cons_append, shown, shown, ih, List.append_assoc, run_cons]

/-- **Invariants of the past.** What holds of no events, and with every event of the run of one
more, holds of the run. -/
theorem Along.inv_past {ok : σ → ε → Prop} {s : σ} {I : List ε → Prop} (start : I [])
    (keep : ∀ past e, I past → ok (run step s past) e → I (past ++ [e])) {es : List ε}
    (h : Along step ok s es) : I es := by
  induction es using List.reverseRecOn with
  | nil => exact start
  | append_singleton es e ih =>
      obtain ⟨hpast, hok⟩ := Along.concat.mp h
      exact keep es e (ih hpast) hok

/-! ### Systems whose steps may run out of fuel

Such a step gives no state when its fuel is used up. A run is a run of steps that all end. -/

section Try

variable {attempt : σ → ε → Option σ}

/-- What every step keeps holds in every state that is reached. -/
theorem inv_tryRun {I : σ → Prop} (keep : ∀ s e t, I s → attempt s e = some t → I t) {s t : σ}
    (hs : I s) {es : List ε} (hrun : tryRun attempt s es = some t) : I t := by
  induction es generalizing s with
  | nil => exact Option.some.inj hrun ▸ hs
  | cons e es ih =>
      obtain ⟨s', hstep, hrest⟩ := Option.bind_eq_some_iff.mp hrun
      exact ih (keep s e s' hs hstep) hrest

/-- Every event of a run meets a condition in the state it finds. -/
def TryAlong (attempt : σ → ε → Option σ) (ok : σ → ε → Prop) : σ → List ε → Prop
  | _, [] => True
  | s, e :: es => ok s e ∧ ∀ t, attempt s e = some t → TryAlong attempt ok t es

/-- **Exactness along runs.** When a step from a good state keeps it good if its event meets the
condition, and leads to a state that is not acceptable if it does not, then all states of a run
are acceptable exactly if all its events meet the condition. -/
theorem tryAlong_iff {ok : σ → ε → Prop} {I P : σ → Prop} (hP : ∀ s, I s → P s)
    (keep : ∀ s e t, I s → ok s e → attempt s e = some t → I t)
    (fail : ∀ s e t, I s → ¬ ok s e → attempt s e = some t → ¬ P t)
    {s t : σ} (hs : I s) {es : List ε} (hrun : tryRun attempt s es = some t) :
    (∀ es₁ es₂ t', es = es₁ ++ es₂ → tryRun attempt s es₁ = some t' → P t') ↔
      TryAlong attempt ok s es := by
  induction es generalizing s with
  | nil =>
      refine ⟨fun _ => trivial, fun _ es₁ es₂ t' hsplit hrun' => ?_⟩
      obtain ⟨rfl, -⟩ := List.append_eq_nil_iff.mp hsplit.symm
      exact Option.some.inj hrun' ▸ hP s hs
  | cons e es ih =>
      obtain ⟨s', hstep, hrest⟩ := Option.bind_eq_some_iff.mp hrun
      by_cases hok : ok s e
      · -- the step is harmless, the rest of the run decides
        have hrec := ih (keep s e s' hs hok hstep) hrest
        constructor
        · intro hall
          refine ⟨hok, fun t' ht' => ?_⟩
          cases hstep.symm.trans ht'
          refine hrec.mp fun es₁ es₂ t' hsplit hrun' => ?_
          refine hall (e :: es₁) es₂ t' (by rw [hsplit, List.cons_append]) ?_
          rw [tryRun, hstep]
          exact hrun'
        · rintro ⟨-, halong⟩ es₁ es₂ t' hsplit hrun'
          cases es₁ with
          | nil => exact Option.some.inj hrun' ▸ hP s hs
          | cons e' es₁ =>
              rw [List.cons_append] at hsplit
              obtain ⟨rfl, hes⟩ := List.cons.inj hsplit
              rw [tryRun, hstep] at hrun'
              exact hrec.mpr (halong s' hstep) es₁ es₂ t' hes hrun'
      · -- the state behind the step is the witness
        constructor
        · intro hall
          have hbad := hall [e] es s' rfl (by rw [tryRun, hstep]; rfl)
          exact absurd hbad (fail s e s' hs hok hstep)
        · exact fun halong => absurd halong.1 hok

/-- **Lockstep.** When related states do the same at every event, they do the same in every run. -/
theorem tryRun_rel {R : σ → σ → Prop}
    (keep : ∀ {s t} e, R s t → Option.Rel R (attempt s e) (attempt t e)) {s t : σ} (h : R s t)
    (events : List ε) : Option.Rel R (tryRun attempt s events) (tryRun attempt t events) := by
  induction events generalizing s t with
  | nil => exact .some h
  | cons e es ih =>
      have hstep := keep e h
      rw [tryRun, tryRun]
      generalize attempt s e = next at hstep
      generalize attempt t e = next' at hstep
      cases hstep with
      | none => exact .none
      | some h' => exact ih h'

/-- A system that does the same as another one with less to remember. -/
theorem tryRun_map {τ : Type u} {f : σ → τ} {attempt' : τ → ε → Option τ}
    (hstep : ∀ s e, (attempt s e).map f = attempt' (f s) e) (s : σ) (es : List ε) :
    (tryRun attempt s es).map f = tryRun attempt' (f s) es := by
  induction es generalizing s with
  | nil => rfl
  | cons e es ih =>
      rw [tryRun, tryRun, ← hstep s e]
      cases attempt s e with
      | none => rfl
      | some t => exact ih t

/-- A run is a fold. -/
theorem tryRun_eq_foldlM (s : σ) (es : List ε) : tryRun attempt s es = es.foldlM attempt s := by
  induction es generalizing s with
  | nil => rfl
  | cons e es ih =>
      rw [tryRun, List.foldlM_cons]
      exact congrArg _ (funext ih)

/-- The first event that fails the condition decides, when what it does is not undone. -/
theorem bad_of_not_along {ok : σ → ε → Prop} {bad : σ → Prop}
    (fail : ∀ s e t, ¬ ok s e → attempt s e = some t → bad t)
    (stays : ∀ s e t, bad s → attempt s e = some t → bad t) {s t : σ} {es : List ε}
    (h : ¬ TryAlong attempt ok s es) (hrun : tryRun attempt s es = some t) : bad t := by
  induction es generalizing s with
  | nil => exact absurd trivial h
  | cons e es ih =>
      obtain ⟨s', hstep, hrest⟩ := Option.bind_eq_some_iff.mp hrun
      by_cases hok : ok s e
      · refine ih (fun halong => h ⟨hok, fun t' ht' => ?_⟩) hrest
        cases hstep.symm.trans ht'
        exact halong
      · exact inv_tryRun stays (fail s e s' hok hstep) hrest

/-- The invariant along runs that meet the condition. -/
theorem TryAlong.inv {ok : σ → ε → Prop} {I : σ → Prop}
    (keep : ∀ s e t, I s → ok s e → attempt s e = some t → I t) {s t : σ} (hs : I s)
    {es : List ε} (h : TryAlong attempt ok s es) (hrun : tryRun attempt s es = some t) : I t := by
  induction es generalizing s with
  | nil => exact Option.some.inj hrun ▸ hs
  | cons e es ih =>
      obtain ⟨s', hstep, hrest⟩ := Option.bind_eq_some_iff.mp hrun
      exact ih (keep s e s' hs h.1 hstep) (h.2 s' hstep) hrest

/-! ### Steps that never fail

They are a special case, and so the rules for the others serve here, too. -/

omit attempt in
theorem tryRun_some (s : σ) (es : List ε) :
    tryRun (fun s e => some (step s e)) s es = some (run step s es) := by
  induction es generalizing s with
  | nil => rfl
  | cons e es ih => exact ih (step s e)

omit attempt in
theorem tryAlong_some {ok : σ → ε → Prop} (s : σ) (es : List ε) :
    TryAlong (fun s e => some (step s e)) ok s es ↔ Along step ok s es := by
  induction es generalizing s with
  | nil => exact Iff.rfl
  | cons e es ih =>
      refine and_congr Iff.rfl ⟨fun h => (ih _).mp (h _ rfl), fun h t ht => ?_⟩
      cases ht
      exact (ih _).mpr h

omit attempt in
/-- **Exactness along runs**, for steps that never fail. -/
theorem along_iff {ok : σ → ε → Prop} {I P : σ → Prop} (hP : ∀ s, I s → P s)
    (keep : ∀ s e, I s → ok s e → I (step s e)) (fail : ∀ s e, I s → ¬ ok s e → ¬ P (step s e))
    {s : σ} (hs : I s) (es : List ε) :
    (∀ before after, es = before ++ after → P (run step s before)) ↔ Along step ok s es := by
  have hrun : tryRun (fun s e => some (step s e)) s es = some (run step s es) := tryRun_some s es
  have hexact := tryAlong_iff hP (fun s e t hI hok ht => Option.some.inj ht ▸ keep s e hI hok)
    (fun s e t hI hok ht => Option.some.inj ht ▸ fail s e hI hok) hs hrun
  rw [← tryAlong_some, ← hexact]
  refine ⟨fun h before after t hsplit ht => ?_, fun h before after hsplit => ?_⟩
  · rw [tryRun_some] at ht
    exact Option.some.inj ht ▸ h before after hsplit
  · exact h before after _ hsplit (tryRun_some s before)

end Try

end Run

end QtWebApp
