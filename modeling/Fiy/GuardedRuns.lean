/-!
# Runs of a labelled step relation

A run is a finite list of labels with the states they lead through. A guard on
the state before a step and its label is added by restricting the relation, so a
run "whose steps all meet a condition" is a run of the restricted relation. The
induction over runs is done once, in `Run.preserves`.
-/

namespace GuardedRuns

universe u v

variable {σ : Type u} {ε : Type v}

inductive Run (step : σ → ε → σ → Prop) : σ → List ε → σ → Prop
  | refl (s : σ) : Run step s [] s
  | cons {s t u : σ} {e : ε} {es : List ε} :
      step s e t → Run step t es u → Run step s (e :: es) u

/-- Keep only the steps that meet the guard. -/
def Restrict (step : σ → ε → σ → Prop) (guard : σ → ε → Prop) : σ → ε → σ → Prop :=
  fun s e t => step s e t ∧ guard s e

variable {step : σ → ε → σ → Prop}

/-- What every single step preserves, every run preserves. -/
theorem Run.preserves {I : σ → Prop} (one : ∀ s e t, I s → step s e t → I t)
    {s t : σ} {es : List ε} (start : I s) (run : Run step s es t) : I t := by
  induction run with
  | refl => exact start
  | cons first _ ih => exact ih (one _ _ _ start first)

/-- The states a partial step function leads through, executed. -/
def runFrom (next : σ → ε → Option σ) : σ → List ε → Option σ
  | s, [] => some s
  | s, e :: es => match next s e with
    | none => none
    | some t => runFrom next t es

theorem run_of_runFrom {next : σ → ε → Option σ} {s t : σ} {es : List ε}
    (h : runFrom next s es = some t) : Run (fun s e t => next s e = some t) s es t := by
  induction es generalizing s with
  | nil =>
    cases h
    exact .refl _
  | cons e es ih =>
    cases hn : next s e with
    | none => simp [runFrom, hn] at h
    | some u => exact .cons hn (ih (by simpa [runFrom, hn] using h))

section along
variable (next : σ → ε → Option σ)

/-- Every state of the run has the property. The run ends where no step is possible. -/
def EveryState (P : σ → Prop) : σ → List ε → Prop
  | s, [] => P s
  | s, e :: es => P s ∧ ∀ t, next s e = some t → EveryState P t es

/-- Every step of the run meets the guard. -/
def EveryStep (G : σ → ε → Prop) : σ → List ε → Prop
  | _, [] => True
  | s, e :: es => ∀ t, next s e = some t → G s e ∧ EveryStep G t es

variable {next} {I P : σ → Prop} {G : σ → ε → Prop}

/-- Where an invariant gives the property, and is kept by the steps that meet the guard, and
the other steps lose the property, a run keeps the property exactly as long as its steps
meet the guard. -/
theorem everyState_iff (sound : ∀ s, I s → P s)
    (kept : ∀ s e t, I s → next s e = some t → G s e → I t)
    (lost : ∀ s e t, I s → next s e = some t → P t → G s e) {s : σ} (start : I s) (es : List ε) :
    EveryState next P s es ↔ EveryStep next G s es := by
  induction es generalizing s with
  | nil => simp only [EveryState, EveryStep, sound s start]
  | cons e es ih =>
    simp only [EveryState, EveryStep, sound s start, true_and]
    refine forall_congr' fun t => imp_congr_right fun moved => ?_
    constructor
    · intro states
      have property : P t := by
        cases es with
        | nil => exact states
        | cons => exact states.1
      have guard := lost s e t start moved property
      exact ⟨guard, (ih (kept s e t start moved guard)).mp states⟩
    · rintro ⟨guard, steps⟩
      exact (ih (kept s e t start moved guard)).mpr steps

/-- Guards that agree on the states of an invariant agree on the runs from them. -/
theorem everyStep_congr {H : σ → ε → Prop} (kept : ∀ s e t, I s → next s e = some t → I t)
    (same : ∀ s e, I s → (G s e ↔ H s e)) {s : σ} (start : I s) (es : List ε) :
    EveryStep next G s es ↔ EveryStep next H s es := by
  induction es generalizing s with
  | nil => rfl
  | cons e es ih =>
    simp only [EveryStep]
    refine forall_congr' fun t => imp_congr_right fun moved => ?_
    rw [same s e start, ih (kept s e t start moved)]

/-- A run that was executed ends in one of its states. -/
theorem EveryState.last {s t : σ} {es : List ε} (every : EveryState next P s es)
    (ran : runFrom next s es = some t) : P t := by
  induction es generalizing s with
  | nil =>
    cases ran
    exact every
  | cons e es ih =>
    cases moved : next s e with
    | none => simp [runFrom, moved] at ran
    | some u => exact ih (every.2 u moved) (by simpa [runFrom, moved] using ran)

end along

end GuardedRuns
