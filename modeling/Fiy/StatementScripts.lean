import Mathlib.Logic.Function.Basic
import Mathlib.Data.List.Basic

/-!
# Scripts of prepared statements

Prepared statements live as long as their thread. A statement with parameters that has
been stepped and not reset rejects the next binding, so a step that fails leaves it useless
unless somebody resets it. One without parameters is reset by its next step. A script uses
statements in a row, may be left between them, and can be run in a transaction. Which uses
fail is given by a plan.
-/

namespace StatementScripts

/-- How a use of a statement fails. -/
inductive Fault
  /-- an exception before the step: the statement is not prepared, or a parameter not bound -/
  | refused
  /-- the step ends with an exception -/
  | raises
  /-- the step changes nothing and reports no rows -/
  | zeroRows
  deriving DecidableEq, Repr

/-- The faults of the uses of statements in their order. -/
abbrev Plan := Nat → Option Fault

def calm : Plan := fun _ => none

/-- The use of this number fails, and no other. -/
def single (k : Nat) (fault : Fault) : Plan := fun n => if n = k then some fault else none

section scripts
variable {Q D R : Type} [DecidableEq Q]

/-- The state of a thread: what its functions work on, the statements that reject the next
binding, and what was there when the open transaction began. -/
structure Thread (Q D : Type) where
  data : D
  rejects : Q → Bool
  snapshot : Option D

/-- One use of a statement in a function. -/
structure Action (Q D R : Type) where
  statement : Q
  /-- it has parameters -/
  bound : Bool
  /-- what the step does, and whether it reports rows; `none` is an exception of its own -/
  step : D → Option (D × Bool)
  /-- the function is left after the step, with this result -/
  leave : D → Bool → Option R

inductive Ending (R : Type)
  | finished
  | left (r : R)
  | raised
  deriving DecidableEq, Repr

namespace Action

/-- The thread after a step that failed. -/
def reject (a : Action Q D R) (th : Thread Q D) : Thread Q D :=
  if a.bound then { th with rejects := Function.update th.rejects a.statement true } else th

/-- What a failing use leaves besides the data. -/
def spoil (a : Action Q D R) (fault : Fault) (th : Thread Q D) : Thread Q D :=
  if fault = .raises then a.reject th else th

/-- The same use, changing nothing and reporting no rows. -/
def skipped (a : Action Q D R) : Action Q D R := { a with step := fun d => some (d, false) }

/-- After a step that did not fail, the statement is reset. -/
def afterStep (a : Action Q D R) (th : Thread Q D) (d : D) (rows : Bool) :
    Ending R × Thread Q D :=
  ((match a.leave d rows with
    | none => .finished
    | some r => .left r), { th with data := d })

/-- Bind, step and reset. -/
def run (a : Action Q D R) (fault : Option Fault) (th : Thread Q D) : Ending R × Thread Q D :=
  if a.bound && th.rejects a.statement then (.raised, th)
  else match fault with
    | some .refused => (.raised, th)
    | some .raises => (.raised, a.reject th)
    | some .zeroRows => a.afterStep th th.data false
    | none => match a.step th.data with
      | none => (.raised, a.reject th)
      | some (d, rows) => a.afterStep th d rows

end Action

/-- The uses of a script, from a number on. -/
def runBody (plan : Plan) : Nat → List (Action Q D R) → Thread Q D → Ending R × Nat × Thread Q D
  | n, [], th => (.finished, n, th)
  | n, a :: as, th => match a.run (plan n) th with
    | (.finished, th) => runBody plan (n + 1) as th
    | (ending, th) => (ending, n + 1, th)

/-- `ROLLBACK`: what was there before the transaction comes back. -/
def rollback (restore : D → D → D) (th : Thread Q D) : Thread Q D :=
  { th with data := (th.snapshot.map (restore · th.data)).getD th.data, snapshot := none }

/-- The handler of exceptions rolls back, and an exception there leaves the function. -/
def handled (plan : Plan) (restore : D → D → D) (error : R) (n : Nat) (th : Thread Q D) :
    Option R × Thread Q D :=
  match plan n with
  | some .refused | some .raises => (none, th)
  | _ => (some error, rollback restore th)

/-- A script in a transaction. `BEGIN` is outside of the handler, which gives `error`;
`COMMIT` and the `ROLLBACK` of a script that is left are inside. -/
def transact (plan : Plan) (restore : D → D → D) (success error : R) (body : List (Action Q D R))
    (th : Thread Q D) : Option R × Thread Q D :=
  if th.snapshot.isSome || plan 0 = some .refused || plan 0 = some .raises then (none, th)
  else
    let begun := { th with snapshot := some th.data }
    match runBody plan 1 body begun with
    | (.finished, n, th) => match plan n with
      | some .refused | some .raises => handled plan restore error (n + 1) th
      | _ => (some success, { th with snapshot := none })
    | (.left r, n, th) => match plan n with
      | some .refused | some .raises => handled plan restore error (n + 1) th
      | _ => (some r, rollback restore th)
    | (.raised, n, th) => handled plan restore error n th

/-! ## Scripts without faults -/

/-- How a script ends when no fault comes in and every statement can be used. -/
def course : List (Action Q D R) → D → Ending R × D
  | [], d => (.finished, d)
  | a :: as, d => match a.step d with
    | none => (.raised, d)
    | some (d, rows) => match a.leave d rows with
      | some r => (.left r, d)
      | none => course as d

omit [DecidableEq Q] in
theorem course_cons_finished {a : Action Q D R} {as : List (Action Q D R)} {d d' : D}
    (goes : course (a :: as) d = (.finished, d')) :
    ∃ next, a.step d = some next ∧ a.leave next.1 next.2 = none ∧
      course as next.1 = (.finished, d') := by
  simp only [course] at goes
  cases step : a.step d with
  | none =>
    rw [step] at goes
    cases goes
  | some next =>
    cases leave : a.leave next.1 next.2 with
    | some r =>
      simp only [step, leave] at goes
      cases goes
    | none =>
      simp only [step, leave] at goes
      exact ⟨next, rfl, leave, goes⟩

omit [DecidableEq Q] in
theorem course_cons_left {a : Action Q D R} {as : List (Action Q D R)} {d d' : D} {r : R}
    (leaves : course (a :: as) d = (.left r, d')) :
    ∃ next, a.step d = some next ∧ (a.leave next.1 next.2 = some r ∧ next.1 = d' ∨
      a.leave next.1 next.2 = none ∧ course as next.1 = (.left r, d')) := by
  simp only [course] at leaves
  cases step : a.step d with
  | none =>
    rw [step] at leaves
    cases leaves
  | some next =>
    refine ⟨next, rfl, ?_⟩
    cases leave : a.leave next.1 next.2 with
    | some r' =>
      simp only [step, leave] at leaves
      cases leaves
      exact .inl ⟨rfl, rfl⟩
    | none =>
      simp only [step, leave] at leaves
      exact .inr ⟨rfl, leaves⟩

/-- The statements that it uses then. -/
def trace : List (Action Q D R) → D → List Q
  | [], _ => []
  | a :: as, d => a.statement :: match a.step d with
    | none => []
    | some (d, rows) => match a.leave d rows with
      | some _ => []
      | none => trace as d

omit [DecidableEq Q] in
/-- A statement is used where the script goes through up to it. -/
theorem trace_split {as : List (Action Q D R)} {d : D} {i : Nat} {q : Q}
    (used : (trace as d)[i]? = some q) :
    ∃ pre a post d', as = pre ++ a :: post ∧ pre.length = i ∧
      course pre d = (.finished, d') ∧ a.statement = q := by
  induction as generalizing d i with
  | nil => cases used
  | cons a as ih =>
    cases i with
    | zero => exact ⟨[], a, as, d, rfl, rfl, rfl, Option.some.inj used⟩
    | succ i =>
      simp only [trace, List.getElem?_cons_succ] at used
      cases step : a.step d with
      | none =>
        rw [step] at used
        cases used
      | some next =>
        cases leave : a.leave next.1 next.2 with
        | some r =>
          simp only [step, leave] at used
          cases used
        | none =>
          simp only [step, leave] at used
          obtain ⟨pre, b, post, d', split, length, goes, name⟩ := ih used
          refine ⟨a :: pre, b, post, d', by rw [split, List.cons_append], ?_, ?_, name⟩
          · rw [List.length_cons, length]
          · simp only [course, step, leave]
            exact goes

omit [DecidableEq Q] in
/-- A script that goes through uses all its statements. -/
theorem trace_finished {as : List (Action Q D R)} {d d' : D}
    (goes : course as d = (.finished, d')) : trace as d = as.map Action.statement := by
  induction as generalizing d with
  | nil => rfl
  | cons a as ih =>
    obtain ⟨next, step, stays, rest⟩ := course_cons_finished goes
    simp only [trace, step, stays, ih rest, List.map_cons]

/-- The use is fine on any data: it reports rows, and the script goes on. -/
def Action.Steady (a : Action Q D R) : Prop :=
  ∀ d, ∃ d', a.step d = some (d', true) ∧ a.leave d' true = none

omit [DecidableEq Q] in
theorem course_steady {as : List (Action Q D R)} (steady : ∀ a ∈ as, a.Steady) (d : D) :
    ∃ d', course as d = (.finished, d') := by
  induction as generalizing d with
  | nil => exact ⟨d, rfl⟩
  | cons a as ih =>
    obtain ⟨next, step, stays⟩ := steady a List.mem_cons_self d
    obtain ⟨d', goes⟩ := ih (fun b hb => steady b (List.mem_cons_of_mem _ hb)) next
    refine ⟨d', ?_⟩
    simp only [course, step, stays]
    exact goes

omit [DecidableEq Q] in
theorem course_append {as : List (Action Q D R)} {d d' : D} (bs : List (Action Q D R))
    (goes : course as d = (.finished, d')) : course (as ++ bs) d = course bs d' := by
  induction as generalizing d with
  | nil =>
    cases goes
    rfl
  | cons a as ih =>
    obtain ⟨next, step, stays, rest⟩ := course_cons_finished goes
    simp only [List.cons_append, course, step, stays]
    exact ih rest

/-- Some statement of the script rejects its binding. -/
def blocked (as : List (Action Q D R)) (th : Thread Q D) : Bool :=
  as.any fun a => a.bound && th.rejects a.statement

section running
variable {p : Plan} {as : List (Action Q D R)} {a : Action Q D R} {t : Thread Q D}
  {n : Nat} {d : D}

theorem run_none (free : (a.bound && t.rejects a.statement) = false) {next : D × Bool}
    (step : a.step t.data = some next) : a.run none t = a.afterStep t next.1 next.2 := by
  simp only [Action.run, free, Bool.false_eq_true, if_false, step]

omit [DecidableEq Q] in
theorem quiet_tail {k : Nat} (quiet : ∀ i < k + 1, p (n + i) = none) :
    ∀ i < k, p (n + 1 + i) = none := by
  intro i inside
  rw [Nat.add_assoc, Nat.add_comm 1 i]
  exact quiet (i + 1) (Nat.succ_lt_succ inside)

/-- A script goes as far as its first part does. -/
theorem runBody_append (bs : List (Action Q D R)) (quiet : ∀ i < as.length, p (n + i) = none)
    (free : blocked as t = false) (goes : course as t.data = (.finished, d)) :
    runBody p n (as ++ bs) t = runBody p (n + as.length) bs { t with data := d } := by
  induction as generalizing t n with
  | nil =>
    cases goes
    rfl
  | cons a as ih =>
    have first : p n = none := quiet 0 (Nat.succ_pos _)
    rw [blocked, List.any_cons, Bool.or_eq_false_iff] at free
    obtain ⟨next, step, stays, goes⟩ := course_cons_finished goes
    have rest := ih (t := { t with data := next.1 }) (quiet_tail quiet) free.2 goes
    simp only [List.cons_append, runBody, first, run_none free.1 step, Action.afterStep, stays,
      rest, List.length_cons]
    rw [Nat.add_assoc, Nat.add_comm 1]

/-- A script that is left ends there. -/
theorem runBody_left (quiet : ∀ i < (trace as t.data).length, p (n + i) = none)
    (free : blocked as t = false) {r : R} (leaves : course as t.data = (.left r, d)) :
    runBody p n as t = (.left r, n + (trace as t.data).length, { t with data := d }) := by
  induction as generalizing t n with
  | nil => cases leaves
  | cons a as ih =>
    have first : p n = none := quiet 0 (Nat.succ_pos _)
    rw [blocked, List.any_cons, Bool.or_eq_false_iff] at free
    obtain ⟨next, step, ⟨ends, rfl⟩ | ⟨stays, leaves⟩⟩ := course_cons_left leaves
    · simp only [runBody, first, run_none free.1 step, Action.afterStep, ends, trace, step,
        List.length_singleton]
    · simp only [trace, step, stays, List.length_cons] at quiet ⊢
      have rest := ih (t := { t with data := next.1 }) (quiet_tail quiet) free.2 leaves
      simp only [runBody, first, run_none free.1 step, Action.afterStep, stays, rest]
      rw [Nat.add_assoc, Nat.add_comm 1]

/-- A script that would go through raises when one of its statements cannot be used. -/
theorem runBody_blocked (quiet : ∀ i, p (n + i) = none) (stuck : blocked as t = true)
    (goes : course as t.data = (.finished, d)) :
    ∃ m d', runBody p n as t = (.raised, n + m, { t with data := d' }) := by
  induction as generalizing t n with
  | nil => cases stuck
  | cons a as ih =>
    have first : p n = none := quiet 0
    by_cases here : (a.bound && t.rejects a.statement) = true
    · refine ⟨1, t.data, ?_⟩
      simp only [runBody, Action.run, here, if_true]
    · have free := Bool.eq_false_iff.mpr here
      rw [blocked, List.any_cons, free, Bool.false_or] at stuck
      obtain ⟨next, step, stays, goes⟩ := course_cons_finished goes
      have quiet' : ∀ i, p (n + 1 + i) = none := by
        intro i
        rw [Nat.add_assoc]
        exact quiet (1 + i)
      obtain ⟨m, d', rest⟩ := ih (t := { t with data := next.1 }) quiet' stuck goes
      refine ⟨1 + m, d', ?_⟩
      simp only [runBody, first, run_none free step, Action.afterStep, stays, rest, Nat.add_assoc]

/-- A script does not depend on what the plan says of other uses. -/
theorem runBody_congr {p' : Plan} (same : ∀ i < as.length, p (n + i) = p' (n + i)) :
    runBody p n as t = runBody p' n as t := by
  induction as generalizing t n with
  | nil => rfl
  | cons a as ih =>
    have rest (t : Thread Q D) : runBody p (n + 1) as t = runBody p' (n + 1) as t := by
      apply ih
      intro i inside
      rw [Nat.add_assoc, Nat.add_comm 1 i]
      exact same (i + 1) (Nat.succ_lt_succ inside)
    have first : p n = p' n := same 0 (Nat.succ_pos _)
    simp only [runBody, first, rest]

/-- A script up to one of its statements. -/
theorem runBody_at (a : Action Q D R) (bs : List (Action Q D R))
    (quiet : ∀ i < as.length, p (n + i) = none) (free : blocked as t = false)
    (goes : course as t.data = (.finished, d)) :
    runBody p n (as ++ a :: bs) t =
      match a.run (p (n + as.length)) { t with data := d } with
      | (.finished, t) => runBody p (n + as.length + 1) bs t
      | (ending, t) => (ending, n + as.length + 1, t) := by
  rw [runBody_append (a :: bs) quiet free goes]
  rfl

end running

/-! ## Scripts in a transaction -/

section transactions
variable (restore : D → D → D) (success error : R) {r : R} {as : List (Action Q D R)}
  {t : Thread Q D} {d : D} {fault : Fault}

/-- Where nothing but missing rows is met, the ending of the script decides. -/
theorem transact_mild {p : Plan} (mild : ∀ i, p i = none ∨ p i = some .zeroRows)
    (idle : t.snapshot = none) :
    transact p restore success error as t =
      match runBody p 1 as { t with snapshot := some t.data } with
      | (.finished, _, t) => (some success, { t with snapshot := none })
      | (.left r, _, t) => (some r, rollback restore t)
      | (.raised, _, t) => (some error, rollback restore t) := by
  have started : (p 0 = some .refused || p 0 = some .raises) = false := by
    rcases mild 0 with first | first <;> simp [first]
  simp only [transact, idle, Option.isSome_none, Bool.false_or, started, Bool.false_eq_true,
    if_false]
  rcases runBody p 1 as { t with snapshot := some t.data } with ⟨_ | _ | _, n, t'⟩
  · rcases mild n with last | last <;> simp only [last]
  · rcases mild n with last | last <;> simp only [last]
  · rcases mild n with last | last <;> simp only [handled, last]

theorem calm_mild (i : Nat) : calm i = none ∨ calm i = some .zeroRows := .inl rfl

/-- A script that goes through is committed. -/
theorem transact_finished (idle : t.snapshot = none) (free : blocked as t = false)
    (goes : course as t.data = (.finished, d)) :
    transact calm restore success error as t = (some success, { t with data := d }) := by
  have body := runBody_append (p := calm) (n := 1) []
    (t := { t with snapshot := some t.data }) (fun _ _ => rfl) free goes
  rw [List.append_nil] at body
  rw [transact_mild restore success error calm_mild idle, body, ← idle]
  rfl

/-- A script that is left is rolled back. -/
theorem transact_left (idle : t.snapshot = none) (free : blocked as t = false)
    (leaves : course as t.data = (.left r, d)) :
    transact calm restore success error as t =
      (some r, { t with data := restore t.data d }) := by
  have body := runBody_left (p := calm) (n := 1)
    (t := { t with snapshot := some t.data }) (fun _ _ => rfl) free leaves
  rw [transact_mild restore success error calm_mild idle, body]
  simp only [rollback, Option.map_some, Option.getD_some, idle]

/-- A script that would go through gives the error when one of its statements cannot be
used. -/
theorem transact_blocked (idle : t.snapshot = none) (stuck : blocked as t = true)
    (goes : course as t.data = (.finished, d)) :
    ∃ d', transact calm restore success error as t =
      (some error, { t with data := restore t.data d' }) := by
  obtain ⟨m, d', body⟩ := runBody_blocked (p := calm) (n := 1)
    (t := { t with snapshot := some t.data }) (fun _ => rfl) stuck goes
  refine ⟨d', ?_⟩
  rw [transact_mild restore success error calm_mild idle, body]
  simp only [rollback, Option.map_some, Option.getD_some, idle]

/-- A failing `BEGIN` is an exception of the function. -/
theorem transact_begin (as : List (Action Q D R)) (t : Thread Q D) (serious : fault ≠ .zeroRows) :
    transact (single 0 fault) restore success error as t = (none, t) := by
  cases fault with
  | zeroRows => exact absurd rfl serious
  | refused => simp [transact, single]
  | raises => simp [transact, single]

/-- Behind `BEGIN` and some statements one fails, and what the handler does is not disturbed. -/
theorem single_around (n : Nat) (fault : Fault) : single (n + 1) fault 0 = none ∧
    single (n + 1) fault (1 + n) = some fault ∧ single (n + 1) fault (1 + n + 1) = none :=
  ⟨if_neg (by omega), if_pos (Nat.add_comm _ _), if_neg (by omega)⟩

/-- The handler gives the error and brings the data back, but does not reset the statement
that failed. -/
theorem transact_fails (a : Action Q D R) (bs : List (Action Q D R))
    (serious : fault ≠ .zeroRows) (idle : t.snapshot = none)
    (free : blocked (as ++ a :: bs) t = false) (goes : course as t.data = (.finished, d)) :
    transact (single (as.length + 1) fault) restore success error (as ++ a :: bs) t =
      (some error, { a.spoil fault t with data := restore t.data d }) := by
  rw [blocked, List.any_append, List.any_cons, Bool.or_eq_false_iff, Bool.or_eq_false_iff] at free
  have body := runBody_at (p := single (as.length + 1) fault) (n := 1) a bs
    (t := { t with snapshot := some t.data })
    (fun i inside => if_neg (by omega)) free.1 goes
  obtain ⟨started, here, handler⟩ := single_around as.length fault
  have usable : (a.bound && t.rejects a.statement) = false := free.2.1
  rw [here] at body
  cases fault with
  | zeroRows => exact absurd rfl serious
  | refused =>
    simp only [Action.run, usable, Bool.false_eq_true, if_false] at body
    simp [transact, idle, started, body, handled, handler, rollback, Action.spoil]
  | raises =>
    simp only [Action.run, usable, Bool.false_eq_true, if_false] at body
    cases bound : a.bound <;>
      simp [transact, idle, started, body, handled, handler, rollback, Action.spoil,
        Action.reject, bound]

/-- Reporting no rows is what a use without effect does. -/
theorem transact_zeroRows (a : Action Q D R) (bs : List (Action Q D R)) (idle : t.snapshot = none)
    (free : blocked (as ++ a :: bs) t = false)
    (goes : course as t.data = (.finished, d)) :
    transact (single (as.length + 1) .zeroRows) restore success error (as ++ a :: bs) t =
      transact calm restore success error (as ++ a.skipped :: bs) t := by
  have mild (i : Nat) : single (as.length + 1) .zeroRows i = none ∨
      single (as.length + 1) .zeroRows i = some .zeroRows := by
    unfold single
    split
    · exact .inr rfl
    · exact .inl rfl
  rw [blocked, List.any_append, Bool.or_eq_false_iff] at free
  have faulty := runBody_at (p := single (as.length + 1) .zeroRows) (n := 1) a bs
    (t := { t with snapshot := some t.data }) (fun i inside => if_neg (by omega)) free.1 goes
  have plain := runBody_at (p := calm) (n := 1) a.skipped bs
    (t := { t with snapshot := some t.data }) (fun _ _ => rfl) free.1 goes
  have here : single (as.length + 1) .zeroRows (1 + as.length) = some .zeroRows :=
    if_pos (Nat.add_comm _ _)
  have same (t : Thread Q D) :
      a.run (some .zeroRows) t = a.skipped.run (calm (1 + as.length)) t := rfl
  have rest (t : Thread Q D) :
      runBody (single (as.length + 1) .zeroRows) (1 + as.length + 1) bs t =
        runBody calm (1 + as.length + 1) bs t :=
    runBody_congr fun i _ => if_neg (by omega)
  rw [transact_mild restore success error mild idle,
    transact_mild restore success error calm_mild idle, faulty, plain, here, same]
  simp only [rest]

/-- A failing `COMMIT` is undone. -/
theorem transact_commit (serious : fault ≠ .zeroRows) (idle : t.snapshot = none)
    (free : blocked as t = false) (goes : course as t.data = (.finished, d)) :
    transact (single (as.length + 1) fault) restore success error as t =
      (some error, { t with data := restore t.data d }) := by
  have body := runBody_append (p := single (as.length + 1) fault) (n := 1) []
    (t := { t with snapshot := some t.data }) (fun i inside => if_neg (by omega)) free goes
  rw [List.append_nil] at body
  obtain ⟨started, here, handler⟩ := single_around as.length fault
  cases fault with
  | zeroRows => exact absurd rfl serious
  | refused => simp [transact, idle, started, body, runBody, here, handled, handler, rollback]
  | raises => simp [transact, idle, started, body, runBody, here, handled, handler, rollback]

/-- So is a failing `ROLLBACK` of a script that is left. -/
theorem transact_rollback (serious : fault ≠ .zeroRows) (idle : t.snapshot = none)
    (free : blocked as t = false) (leaves : course as t.data = (.left r, d)) :
    transact (single ((trace as t.data).length + 1) fault) restore success error as t =
      (some error, { t with data := restore t.data d }) := by
  have body := runBody_left (p := single ((trace as t.data).length + 1) fault) (n := 1)
    (t := { t with snapshot := some t.data })
    (fun i (inside : i < (trace as t.data).length) => if_neg (by omega)) free leaves
  obtain ⟨started, here, handler⟩ := single_around (trace as t.data).length fault
  cases fault with
  | zeroRows => exact absurd rfl serious
  | refused => simp [transact, idle, started, body, here, handled, handler, rollback]
  | raises => simp [transact, idle, started, body, here, handled, handler, rollback]

end transactions

end scripts

end StatementScripts
