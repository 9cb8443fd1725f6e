import Fiy.GuardedRuns

/-!
# Runs that cannot be continued

An invariant may come with a bound on the steps that are left. Where every step makes the bound
smaller, runs are no longer than it, and every state has a run that cannot be continued. What
holds of each state without a step then holds at the end of every such run.
-/

namespace MaximalRuns

open GuardedRuns

universe u v

variable {σ : Type u} {ε : Type v} {step : σ → ε → σ → Prop}

/-- No step is possible. -/
def Stuck (step : σ → ε → σ → Prop) (s : σ) : Prop := ∀ e t, ¬ step s e t

/-- A run with nothing behind it. -/
def Maximal (step : σ → ε → σ → Prop) (s : σ) (es : List ε) (t : σ) : Prop :=
  Run step s es t ∧ Stuck step t

/-- Runs one after another. -/
theorem Run.append {s t u : σ} {es fs : List ε} (first : Run step s es t)
    (second : Run step t fs u) : Run step s (es ++ fs) u := by
  induction first with
  | refl => exact second
  | cons moved _ ih => exact .cons moved (ih second)

theorem Run.snoc {s t u : σ} {es : List ε} {e : ε} (run : Run step s es t) (moved : step t e u) :
    Run step s (es ++ [e]) u :=
  Run.append run (.cons moved (.refl u))

/-- An invariant that every step keeps, with a smaller bound on what is left. -/
def Descends (step : σ → ε → σ → Prop) (I : Nat → σ → Prop) : Prop :=
  ∀ n s e t, I n s → step s e t → ∃ k < n, I k t

section descending
variable {I : Nat → σ → Prop}

theorem length_add_le (down : Descends step I) {s t : σ} {es : List ε} {n : Nat} (start : I n s)
    (run : Run step s es t) : ∃ k, I k t ∧ es.length + k ≤ n := by
  induction run generalizing n with
  | refl => exact ⟨n, start, by simp⟩
  | cons first _ ih =>
    obtain ⟨k, less, kept⟩ := down _ _ _ _ start first
    obtain ⟨l, kept', rest⟩ := ih kept
    refine ⟨l, kept', ?_⟩
    simp only [List.length_cons]
    omega

/-- Steps taken one after another come to an end. -/
theorem exists_maximal (down : Descends step I) {s : σ} {n : Nat} (start : I n s) :
    ∃ es t, Maximal step s es t := by
  induction n using Nat.strongRecOn generalizing s with
  | ind n ih =>
    by_cases goesOn : ∃ e t, step s e t
    · obtain ⟨e, t, moved⟩ := goesOn
      obtain ⟨k, less, kept⟩ := down n s e t start moved
      obtain ⟨es, u, run, ended⟩ := ih k less kept
      exact ⟨e :: es, u, .cons moved run, ended⟩
    · exact ⟨[], s, .refl s, fun e t moved => goesOn ⟨e, t, moved⟩⟩

end descending

end MaximalRuns
