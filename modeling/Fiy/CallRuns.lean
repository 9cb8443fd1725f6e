import Mathlib.Data.List.Basic

/-!
# Calls to an object

Calls that are made one after the other, to an object that does not answer every call, and to one
that does. An object that does what another does with every single call does so with all of them.
-/

namespace CallRuns

universe u v w x

variable {σ : Type u} {τ : Type v} {ε : Type w} {ρ : Type x}

/-- The answers, and what the object is afterwards. -/
def calls (call : ε → σ → Option (ρ × σ)) : List ε → σ → Option (List ρ × σ)
  | [], s => some ([], s)
  | e :: es, s => (call e s).bind fun (r, t) => (calls call es t).map fun (rs, u) => (r :: rs, u)

/-- Those of an object that answers always. -/
def answers (call : ε → τ → ρ × τ) : List ε → τ → List ρ × τ
  | [], t => ([], t)
  | e :: es, t =>
    let (r, t) := call e t
    let (rs, t) := answers call es t
    (r :: rs, t)

section runs
variable {call : ε → σ → Option (ρ × σ)}

theorem calls_cons {e : ε} {s t : σ} {r : ρ} (first : call e s = some (r, t)) (es : List ε) :
    calls call (e :: es) s = (calls call es t).map fun (rs, u) => (r :: rs, u) := by
  rw [calls, first, Option.bind_some]

/-- One call more. -/
theorem calls_concat {es : List ε} {s t u : σ} {rs : List ρ} {e : ε} {r : ρ}
    (before : calls call es s = some (rs, t)) (last : call e t = some (r, u)) :
    calls call (es ++ [e]) s = some (rs ++ [r], u) := by
  induction es generalizing s rs with
  | nil =>
    cases before
    rw [List.nil_append, calls_cons last]
    rfl
  | cons first es ih =>
    cases step : call first s with
    | none => simp [calls, step] at before
    | some next =>
      obtain ⟨r', s'⟩ := next
      rw [calls_cons step, Option.map_eq_some_iff] at before
      obtain ⟨⟨rs', t'⟩, rest, same⟩ := before
      cases same
      rw [List.cons_append, calls_cons step, ih rest]
      rfl

/-- The relation between the objects is kept by every call, and the answers are the same. -/
def Simulates (R : σ → τ → Prop) (call : ε → σ → Option (ρ × σ)) (spec : ε → τ → ρ × τ) (e : ε) :
    Prop :=
  ∀ s t, R s t → ∃ s', call e s = some ((spec e t).1, s') ∧ R s' (spec e t).2

variable {R : σ → τ → Prop} {spec : ε → τ → ρ × τ}

theorem Simulates.run {es : List ε} (each : ∀ e ∈ es, Simulates R call spec e) {s : σ} {t : τ}
    (start : R s t) :
    ∃ s', calls call es s = some ((answers spec es t).1, s') ∧ R s' (answers spec es t).2 := by
  induction es generalizing s t with
  | nil => exact ⟨s, rfl, start⟩
  | cons e es ih =>
    obtain ⟨next, first, related⟩ := each e List.mem_cons_self s t start
    obtain ⟨last, rest, related⟩ :=
      ih (fun e member => each e (List.mem_cons_of_mem _ member)) related
    refine ⟨last, ?_, related⟩
    rw [calls_cons first, rest]
    rfl

end runs

end CallRuns
