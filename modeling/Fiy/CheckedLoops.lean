import Mathlib.Tactic.Common

/-!
# Loops that may do what is not allowed

One turn of a loop goes on, leaves the loop with a result, or does something that has no
meaning, such as looking outside of a text. A loop ends, faults or runs forever. What is
shown of a single turn gives that it ends, or that it never does.
-/

namespace CheckedLoops

universe u v

inductive Turn (σ : Type u) (α : Type v)
  | again (s : σ)
  | leave (a : α)
  | fault
  deriving DecidableEq, Repr

/-- What a loop has come to after so many turns. -/
inductive Outcome (α : Type v)
  | running
  | fault
  | done (a : α)
  deriving DecidableEq, Repr

variable {σ : Type u} {α : Type v}

/-- A step that is only defined for some arguments. -/
def Turn.guard {β : Type u} : Option β → (β → Turn σ α) → Turn σ α
  | none, _ => .fault
  | some b, go => go b

@[simp] theorem Turn.guard_none {β : Type u} (go : β → Turn σ α) :
    Turn.guard none go = .fault := rfl

@[simp] theorem Turn.guard_some {β : Type u} (b : β) (go : β → Turn σ α) :
    Turn.guard (some b) go = go b := rfl

section loops
variable (body : σ → Turn σ α)

def loop : Nat → σ → Outcome α
  | 0, _ => .running
  | turns + 1, s => match body s with
    | .again s' => loop turns s'
    | .leave a => .done a
    | .fault => .fault

def Ends (s : σ) (a : α) : Prop := ∃ turns, loop body turns s = .done a

def Faults (s : σ) : Prop := ∃ turns, loop body turns s = .fault

def Diverges (s : σ) : Prop := ∀ turns, loop body turns s = .running

variable {body} {s s' : σ} {a b : α}

/-- A loop that is over stays so. -/
theorem loop_stable {turns more : Nat} (enough : turns ≤ more)
    (ended : loop body turns s ≠ .running) : loop body more s = loop body turns s := by
  induction turns generalizing more s with
  | zero => exact absurd rfl ended
  | succ turns ih =>
    obtain ⟨more, rfl⟩ : ∃ n, more = n + 1 := ⟨more - 1, by omega⟩
    simp only [loop] at ended ⊢
    cases turn : body s with
    | again next =>
      rw [turn] at ended
      exact ih (by omega) ended
    | leave a => rfl
    | fault => rfl

theorem loop_agree {turns more : Nat} (ended : loop body turns s ≠ .running)
    (ended' : loop body more s ≠ .running) : loop body turns s = loop body more s := by
  rcases Nat.le_total turns more with le | le
  · exact (loop_stable le ended).symm
  · exact loop_stable le ended'

/-! ## One turn -/

theorem Ends.of_leave (turn : body s = .leave a) : Ends body s a := ⟨1, by rw [loop, turn]⟩

/-- What a loop comes to it comes to from the next state. -/
theorem loop_of_again {outcome : Outcome α} (ended : outcome ≠ .running)
    (turn : body s = .again s') :
    (∃ turns, loop body turns s = outcome) ↔ ∃ turns, loop body turns s' = outcome := by
  constructor
  · rintro ⟨turns, comes⟩
    cases turns with
    | zero => exact absurd comes.symm ended
    | succ turns =>
      rw [loop, turn] at comes
      exact ⟨turns, comes⟩
  · rintro ⟨turns, comes⟩
    refine ⟨turns + 1, ?_⟩
    rw [loop, turn]
    exact comes

theorem ends_of_again (turn : body s = .again s') : Ends body s a ↔ Ends body s' a :=
  loop_of_again (by simp) turn

theorem Faults.of_fault (turn : body s = .fault) : Faults body s := ⟨1, by rw [loop, turn]⟩

theorem faults_of_again (turn : body s = .again s') : Faults body s ↔ Faults body s' :=
  loop_of_again (by simp) turn

theorem Ends.unique (left : Ends body s a) (right : Ends body s b) : a = b := by
  obtain ⟨turns, ha⟩ := left
  obtain ⟨more, hb⟩ := right
  have same := loop_agree (by rw [ha]; simp) (by rw [hb]; simp)
  rw [ha, hb] at same
  exact Outcome.done.inj same

theorem Ends.not_faults (ends : Ends body s a) : ¬ Faults body s := by
  rintro ⟨more, hfault⟩
  obtain ⟨turns, ha⟩ := ends
  have same := loop_agree (by rw [ha]; simp) (by rw [hfault]; simp)
  rw [ha, hfault] at same
  cases same

theorem Diverges.not_ends (forever : Diverges body s) : ¬ Ends body s a := by
  rintro ⟨turns, ended⟩
  rw [forever turns] at ended
  cases ended

/-! ## All turns -/

/-- A loop that only moves on over a stretch. -/
theorem ends_of_scan {f : Nat → σ} {first last : Nat} (le : first ≤ last)
    (turns : ∀ i, first ≤ i → i < last → body (f i) = .again (f (i + 1))) :
    Ends body (f first) a ↔ Ends body (f last) a := by
  induction le with
  | refl => exact Iff.rfl
  | step le ih =>
    rw [ih fun i from_ below => turns i from_ (Nat.lt_succ_of_lt below)]
    exact ends_of_again (turns _ le (Nat.lt_succ_self _))

/-- A loop that can always go on never ends. -/
theorem diverges_of_invariant (inv : σ → Prop)
    (turn : ∀ s, inv s → ∃ s', body s = .again s' ∧ inv s') (start : inv s) : Diverges body s := by
  intro turns
  induction turns generalizing s with
  | zero => rfl
  | succ turns ih =>
    obtain ⟨s', next, kept⟩ := turn s start
    rw [loop, next]
    exact ih kept

/-- A loop that can always go on, or faults, never ends. -/
theorem not_ends_of_invariant (inv : σ → Prop)
    (turn : ∀ s, inv s → (∃ s', body s = .again s' ∧ inv s') ∨ body s = .fault) (start : inv s) :
    ¬ Ends body s a := by
  rintro ⟨turns, ends⟩
  induction turns generalizing s with
  | zero => cases ends
  | succ turns ih =>
    rw [loop] at ends
    rcases turn s start with ⟨s', next, kept⟩ | fault
    · rw [next] at ends
      exact ih kept ends
    · rw [fault] at ends
      cases ends

/-- The loop that also faults in the states that are bad. -/
def checked (bad : σ → Prop) [DecidablePred bad] (body : σ → Turn σ α) (s : σ) : Turn σ α :=
  if bad s then .fault else body s

/-- What ends with the check ends without it. -/
theorem Ends.of_checked {bad : σ → Prop} [DecidablePred bad] (ends : Ends (checked bad body) s a) :
    Ends body s a := by
  obtain ⟨turns, ends⟩ := ends
  induction turns generalizing s with
  | zero => cases ends
  | succ turns ih =>
    rw [loop, checked] at ends
    split_ifs at ends with fine
    cases turn : body s with
    | again s' =>
      rw [turn] at ends
      exact (ends_of_again turn).mpr (ih ends)
    | leave b =>
      rw [turn] at ends
      cases ends
      exact .of_leave turn
    | fault =>
      rw [turn] at ends
      cases ends

end loops

end CheckedLoops
