import Mathlib
import Fiy.MaximalRuns

/-!
# The pool of threads that answers requests for shared libraries

`ThreadPool` keeps its tasks in a queue behind a mutex and a condition variable. Each section
that holds the mutex is one step here; a wait gives the mutex back, so it ends a section. A
thread may wake up without being notified. The lists of tasks that were put in, taken out and
handled are kept beside the queue.
-/

namespace WorkerPools

open GuardedRuns MaximalRuns

universe u

variable {τ : Type u}

/-- Where a thread of the pool is. -/
inductive Position (τ : Type u)
  /-- about to take the mutex: it calls `pop`, or it has been woken in there -/
  | ready
  /-- in `m_cv.wait` -/
  | waiting
  | handling (task : τ)
  deriving DecidableEq, Repr

def Position.isWaiting : Position τ → Bool
  | .waiting => true
  | _ => false

/-- The task a thread is busy with. -/
def Position.task : Position τ → Option τ
  | .handling task => some task
  | _ => none

structure ThreadPool (τ : Type u) where
  queue : List τ
  threads : List (Position τ)
  emplaced : List τ
  popped : List τ
  handled : List τ
  deriving DecidableEq, Repr

/-- The constructor. -/
def start (threads : Nat) : ThreadPool τ where
  queue := []
  threads := List.replicate threads .ready
  emplaced := []
  popped := []
  handled := []

inductive Event (τ : Type u)
  /-- `push` and `emplace`, with the thread that `notify_one` wakes -/
  | emplace (task : τ) (woken : Option Nat)
  /-- A thread has the mutex and looks at the queue. -/
  | pop (thread : Nat)
  /-- The handler returns. -/
  | finish (thread : Nat)
  /-- A thread wakes up for no reason. -/
  | wake (thread : Nat)
  deriving DecidableEq, Repr

namespace ThreadPool

def move (s : ThreadPool τ) (thread : Nat) (p : Position τ) : ThreadPool τ :=
  { s with threads := s.threads.set thread p }

def put (s : ThreadPool τ) (task : τ) : ThreadPool τ :=
  { s with queue := s.queue ++ [task], emplaced := s.emplaced ++ [task] }

/-- `notify_one` wakes a thread that waits, if there is one. -/
def notify (s : ThreadPool τ) : Option Nat → Option (ThreadPool τ)
  | none => if s.threads.any Position.isWaiting then none else some s
  | some i => match s.threads[i]? with
    | some .waiting => some (s.move i .ready)
    | _ => none

/-- The body of `pop` behind the mutex. -/
def take (s : ThreadPool τ) (i : Nat) : ThreadPool τ := match s.queue with
  | [] => s.move i .waiting
  | task :: rest =>
    { s with queue := rest, popped := s.popped ++ [task] }.move i (.handling task)

def next (s : ThreadPool τ) : Event τ → Option (ThreadPool τ)
  | .emplace task woken => (s.put task).notify woken
  | .pop i => match s.threads[i]? with
    | some .ready => some (s.take i)
    | _ => none
  | .finish i => match s.threads[i]? with
    | some (.handling task) => some ({ s with handled := s.handled ++ [task] }.move i .ready)
    | _ => none
  | .wake i => match s.threads[i]? with
    | some .waiting => some (s.move i .ready)
    | _ => none

end ThreadPool

open ThreadPool

/-- What a thread does of its own: it looks at the queue, or its handler returns. -/
def Event.isWork : Event τ → Bool
  | .pop _ | .finish _ => true
  | _ => false

def Step (s : ThreadPool τ) (e : Event τ) (t : ThreadPool τ) : Prop := s.next e = some t

/-- The steps of the threads alone: nothing more is put in. -/
def Work (s : ThreadPool τ) (e : Event τ) (t : ThreadPool τ) : Prop :=
  Step s e t ∧ e.isWork = true

/-! ## What a step does -/

inductive Moved (s : ThreadPool τ) : Event τ → ThreadPool τ → Prop
  | unnoticed (task : τ) (awake : s.threads.any Position.isWaiting = false) :
    Moved s (.emplace task none) (s.put task)
  | noticed (task : τ) (i : Nat) (waits : s.threads[i]? = some .waiting) :
    Moved s (.emplace task (some i)) ((s.put task).move i .ready)
  | waited (i : Nat) (ready : s.threads[i]? = some .ready) (empty : s.queue = []) :
    Moved s (.pop i) (s.move i .waiting)
  | took (i : Nat) (task : τ) (rest : List τ) (ready : s.threads[i]? = some .ready)
    (front : s.queue = task :: rest) :
    Moved s (.pop i) ({ s with queue := rest, popped := s.popped ++ [task] }.move i
      (.handling task))
  | finished (i : Nat) (task : τ) (busy : s.threads[i]? = some (.handling task)) :
    Moved s (.finish i) ({ s with handled := s.handled ++ [task] }.move i .ready)
  | woke (i : Nat) (waits : s.threads[i]? = some .waiting) : Moved s (.wake i) (s.move i .ready)

theorem step_iff {s t : ThreadPool τ} {e : Event τ} : Step s e t ↔ Moved s e t := by
  constructor
  · intro moved
    simp only [Step, next] at moved
    split at moved
    next task woken =>
      cases woken with
      | none =>
        simp only [notify] at moved
        split at moved
        · cases moved
        next awake =>
          cases moved
          exact .unnoticed task (eq_false_of_ne_true awake)
      | some i =>
        simp only [notify] at moved
        split at moved
        next waits =>
          cases moved
          exact .noticed task i waits
        · cases moved
    next i =>
      split at moved
      next ready =>
        cases moved
        unfold take
        split
        next empty => exact .waited i ready empty
        next task rest front => exact .took i task rest ready front
      · cases moved
    next i =>
      split at moved
      next task busy =>
        cases moved
        exact .finished i task busy
      · cases moved
    next i =>
      split at moved
      next waits =>
        cases moved
        exact .woke i waits
      · cases moved
  · intro moved
    cases moved with
    | unnoticed task awake =>
      have awake' : ¬ (s.put task).threads.any Position.isWaiting = true := by simpa [put] using awake
      simp [Step, next, notify, awake']
    | noticed task i waits =>
      have waits' : (s.put task).threads[i]? = some .waiting := waits
      simp only [Step, next, notify, waits']
    | waited i ready empty => simp only [Step, next, ready, take, empty]
    | took i task rest ready front => simp only [Step, next, ready, take, front]
    | finished i task busy => simp only [Step, next, busy]
    | woke i waits => simp only [Step, next, waits]

/-! ## What every interleaving keeps -/

/-- The threads that are not in `m_cv.wait`. -/
def awake (threads : List (Position τ)) : Nat := threads.countP fun p => !p.isWaiting

/-- The tasks the threads are busy with. -/
def inHand (threads : List (Position τ)) : List τ := threads.filterMap Position.task

structure Orderly (s : ThreadPool τ) : Prop where
  /-- Tasks leave the queue in the order in which they were put in, none twice. -/
  fifo : s.emplaced = s.popped ++ s.queue
  /-- A task that was taken out has been handled once, or is being handled by one thread. -/
  once : s.popped.Perm (s.handled ++ inHand s.threads)
  /-- While a thread waits, there is a thread awake for each task in the queue. -/
  noticed : s.threads.any Position.isWaiting = true → s.queue.length ≤ awake s.threads

theorem orderly_start (threads : Nat) : Orderly (start threads : ThreadPool τ) where
  fifo := rfl
  once := by
    have free : inHand (List.replicate threads (.ready : Position τ)) = [] := by
      simp [inHand, Position.task]
    simp [start, free]
  noticed := fun _ => Nat.zero_le _

/-- One thread apart from the others. -/
theorem threads_at {threads : List (Position τ)} {i : Nat} {p : Position τ}
    (found : threads[i]? = some p) :
    ∃ front back, threads = front ++ p :: back ∧ ∀ q, threads.set i q = front ++ q :: back := by
  obtain ⟨inside, rfl⟩ := List.getElem?_eq_some_iff.mp found
  refine ⟨threads.take i, threads.drop (i + 1), ?_, fun q => ?_⟩
  · rw [List.getElem_cons_drop, List.take_append_drop]
  · rw [List.set_eq_take_append_cons_drop, if_pos inside]

theorem inHand_split (front back : List (Position τ)) (p : Position τ) :
    inHand (front ++ p :: back) = inHand front ++ p.task.toList ++ inHand back := by
  have one : inHand (p :: back) = p.task.toList ++ inHand back := by cases p <;> rfl
  rw [List.append_assoc, ← one]
  exact List.filterMap_append

theorem inHand_set {threads : List (Position τ)} {i : Nat} {p : Position τ}
    (found : threads[i]? = some p) : ∃ front back, inHand threads = front ++ p.task.toList ++ back ∧
      ∀ q, inHand (threads.set i q) = front ++ q.task.toList ++ back := by
  obtain ⟨front, back, same, set⟩ := threads_at found
  refine ⟨inHand front, inHand back, ?_, fun q => ?_⟩
  · rw [same, inHand_split]
  · rw [set, inHand_split]

theorem awake_set {threads : List (Position τ)} {i : Nat} {p : Position τ}
    (found : threads[i]? = some p) (q : Position τ) :
    awake (threads.set i q) + (!p.isWaiting).toNat = awake threads + (!q.isWaiting).toNat := by
  obtain ⟨front, back, same, set⟩ := threads_at found
  rw [set, same]
  cases p <;> cases q <;> simp [awake, Position.isWaiting] <;> omega

/-- Nobody waits who did not wait before, except the thread that moved. -/
theorem waits_of_set {threads : List (Position τ)} {i : Nat} {q : Position τ}
    (busy : q.isWaiting = false) (waits : (threads.set i q).any Position.isWaiting = true) :
    threads.any Position.isWaiting = true := by
  obtain ⟨p, listed, waiting⟩ := List.any_eq_true.mp waits
  rcases List.mem_or_eq_of_mem_set listed with old | rfl
  · exact List.any_eq_true.mpr ⟨p, old, waiting⟩
  · rw [busy] at waiting
    cases waiting

theorem waits_of_found {threads : List (Position τ)} {i : Nat}
    (found : threads[i]? = some .waiting) : threads.any Position.isWaiting = true :=
  List.any_eq_true.mpr ⟨.waiting, List.mem_of_getElem? found, rfl⟩

theorem orderly_step {s t : ThreadPool τ} {e : Event τ} (orderly : Orderly s)
    (moved : Step s e t) : Orderly t := by
  obtain ⟨fifo, once, noticed⟩ := orderly
  cases step_iff.mp moved with
  | unnoticed task awake =>
    refine ⟨by simp [put, fifo], once, fun waits => ?_⟩
    have none_ : s.threads.any Position.isWaiting = true := waits
    rw [awake] at none_
    cases none_
  | noticed task i waits =>
    obtain ⟨front, back, same, set⟩ := inHand_set waits
    refine ⟨by simp [put, move, fifo], ?_, fun _ => ?_⟩
    · change s.popped.Perm (s.handled ++ inHand (s.threads.set i .ready))
      rw [set]
      rwa [same] at once
    · have enough := noticed (waits_of_found waits)
      have more := awake_set waits .ready
      simp only [Position.isWaiting, Bool.not_true, Bool.not_false, Bool.toNat_false,
        Bool.toNat_true] at more
      simp only [put, move, List.length_append, List.length_singleton]
      omega
  | waited i ready empty =>
    obtain ⟨front, back, same, set⟩ := inHand_set ready
    refine ⟨fifo, ?_, fun _ => by simp [move, empty]⟩
    change s.popped.Perm (s.handled ++ inHand (s.threads.set i .waiting))
    rw [set]
    rwa [same] at once
  | took i task rest ready first =>
    obtain ⟨front, back, same, set⟩ := inHand_set ready
    refine ⟨by simp [move, fifo, first], ?_, fun waits => ?_⟩
    · change (s.popped ++ [task]).Perm (s.handled ++ inHand (s.threads.set i (.handling task)))
      rw [set]
      rw [same] at once
      refine (once.append_right [task]).trans ?_
      simp only [Position.task, Option.toList_none, Option.toList_some, List.append_nil,
        List.append_assoc]
      have last : (back ++ [task]).Perm ([task] ++ back) := List.perm_append_comm
      exact (last.append_left front).append_left s.handled
    · have enough := noticed (waits_of_set rfl waits)
      have same_ := awake_set ready (.handling task)
      simp only [Position.isWaiting, Bool.not_false, Bool.toNat_true] at same_
      rw [first, List.length_cons] at enough
      simp only [move]
      omega
  | finished i task busy =>
    obtain ⟨front, back, same, set⟩ := inHand_set busy
    refine ⟨fifo, ?_, fun waits => ?_⟩
    · change s.popped.Perm (s.handled ++ [task] ++ inHand (s.threads.set i .ready))
      rw [set]
      rw [same] at once
      refine once.trans ?_
      simp only [Position.task, Option.toList_none, Option.toList_some, List.append_nil,
        List.append_assoc]
      exact List.perm_middle.append_left s.handled
    · have enough := noticed (waits_of_set rfl waits)
      have same_ := awake_set busy .ready
      simp only [Position.isWaiting, Bool.not_false, Bool.toNat_true] at same_
      simp only [move]
      omega
  | woke i waits =>
    obtain ⟨front, back, same, set⟩ := inHand_set waits
    refine ⟨fifo, ?_, fun _ => ?_⟩
    · change s.popped.Perm (s.handled ++ inHand (s.threads.set i .ready))
      rw [set]
      rwa [same] at once
    · have enough := noticed (waits_of_found waits)
      have more := awake_set waits .ready
      simp only [Position.isWaiting, Bool.not_true, Bool.not_false, Bool.toNat_false,
        Bool.toNat_true] at more
      simp only [move]
      omega

theorem orderly_run {threads : Nat} {es : List (Event τ)} {s : ThreadPool τ}
    (run : Run Step (start threads) es s) : Orderly s :=
  Run.preserves (I := Orderly) (fun _ _ _ orderly moved => orderly_step orderly moved)
    (orderly_start threads) run

/-- The number of threads does not change. -/
theorem threads_run {s t : ThreadPool τ} {es : List (Event τ)} (run : Run Step s es t) :
    t.threads.length = s.threads.length := by
  induction run with
  | refl => rfl
  | cons first _ ih =>
    rw [ih]
    cases step_iff.mp first <;> simp [move, put]

theorem run_work {s t : ThreadPool τ} {es : List (Event τ)} (run : Run Work s es t) :
    Run Step s es t := by
  induction run with
  | refl => exact .refl _
  | cons first _ ih => exact .cons first.1 ih

/-! ## Nothing is left behind -/

/-- What a thread still has to do before it waits. -/
def Position.work : Position τ → Nat
  | .waiting => 0
  | .ready => 1
  | .handling _ => 2

/-- Each step of the threads makes this smaller. -/
def outstanding (s : ThreadPool τ) : Nat :=
  3 * s.queue.length + (s.threads.map Position.work).sum

theorem work_set {threads : List (Position τ)} {i : Nat} {p : Position τ}
    (found : threads[i]? = some p) (q : Position τ) :
    ((threads.set i q).map Position.work).sum + p.work =
      (threads.map Position.work).sum + q.work := by
  obtain ⟨front, back, same, set⟩ := threads_at found
  rw [set, same]
  simp only [List.map_append, List.map_cons, List.sum_append, List.sum_cons]
  omega

theorem outstanding_work {s t : ThreadPool τ} {e : Event τ} (worked : Work s e t) :
    outstanding t < outstanding s := by
  obtain ⟨moved, own⟩ := worked
  cases step_iff.mp moved with
  | unnoticed | noticed | woke => cases own
  | waited i ready empty =>
    have sum := work_set ready .waiting
    simp only [outstanding, move, Position.work] at sum ⊢
    omega
  | took i task rest ready first =>
    have sum := work_set ready (.handling task)
    simp only [outstanding, move, Position.work, first, List.length_cons] at sum ⊢
    omega
  | finished i task busy =>
    have sum := work_set busy .ready
    simp only [outstanding, move, Position.work] at sum ⊢
    omega

/-- Where the threads can do nothing, all of them wait. -/
theorem waiting_of_stuck {s : ThreadPool τ} (stuck : Stuck Work s) :
    ∀ p ∈ s.threads, p = .waiting := by
  intro p listed
  obtain ⟨i, found⟩ := List.mem_iff_getElem?.mp listed
  cases p with
  | waiting => rfl
  | ready =>
    refine absurd ⟨?_, rfl⟩ (stuck (.pop i) (s.take i))
    simp only [Step, next, found]
  | handling task =>
    exact absurd ⟨step_iff.mpr (.finished i task found), rfl⟩ (stuck (.finish i) _)

/-- What was put in by the state `s` has been handled in `t`: each task once, and they were
begun in order. -/
structure Drained (s t : ThreadPool τ) : Prop where
  queue : t.queue = []
  began : t.popped = s.emplaced
  handled : t.handled.Perm s.emplaced

theorem emplaced_work {s t : ThreadPool τ} {es : List (Event τ)} (run : Run Work s es t) :
    t.emplaced = s.emplaced := by
  induction run with
  | refl => rfl
  | cons first _ ih =>
    rw [ih]
    obtain ⟨moved, own⟩ := first
    cases step_iff.mp moved with
    | unnoticed | noticed | woke => cases own
    | waited | took | finished => rfl

theorem drained_of_stuck {s t : ThreadPool τ} (orderly : Orderly t) (some_ : t.threads ≠ [])
    (same : t.emplaced = s.emplaced) (stuck : Stuck Work t) : Drained s t := by
  have wait := waiting_of_stuck stuck
  have asleep : awake t.threads = 0 := by
    rw [awake, List.countP_eq_zero]
    intro p listed
    simp [wait p listed, Position.isWaiting]
  have idle : inHand t.threads = [] := by
    rw [inHand, List.filterMap_eq_nil_iff]
    intro p listed
    simp [wait p listed, Position.task]
  have empty : t.queue = [] := by
    obtain ⟨p, listed⟩ := List.exists_mem_of_ne_nil _ some_
    have waits : t.threads.any Position.isWaiting = true :=
      List.any_eq_true.mpr ⟨p, listed, by rw [wait p listed]; rfl⟩
    have enough := orderly.noticed waits
    rw [asleep] at enough
    exact List.length_eq_zero_iff.mp (Nat.le_zero.mp enough)
  have began : t.popped = s.emplaced := by rw [← same, orderly.fifo, empty, List.append_nil]
  refine ⟨empty, began, ?_⟩
  have once := orderly.once
  rw [idle, List.append_nil, began] at once
  exact once.symm

/-- In any interleaving, tasks are begun in the order in which they were put in, and each one that
was begun is handled once. -/
theorem handled_once_in_order {threads : Nat} {es : List (Event τ)} {s : ThreadPool τ}
    (run : Run Step (start threads) es s) :
    s.popped <+: s.emplaced ∧ s.popped.Perm (s.handled ++ inHand s.threads) := by
  have orderly := orderly_run run
  exact ⟨⟨s.queue, orderly.fifo.symm⟩, orderly.once⟩

/-- From every state, when nothing more is put in, the threads come to an end with their work, and
then everything has been handled: no wake-up is lost. Only a pool without threads does nothing. -/
theorem pool_drains_iff [Inhabited τ] (threads : Nat) :
    (∀ (es : List (Event τ)) (s : ThreadPool τ), Run Step (start threads) es s →
      (∃ ws t, Maximal Work s ws t) ∧ ∀ ws t, Maximal Work s ws t → Drained s t) ↔
      0 < threads := by
  constructor
  · intro drains
    rcases Nat.eq_zero_or_pos threads with rfl | some_
    case inr => exact some_
    have put : Run Step (start 0) [.emplace default none] ((start 0).put (default : τ)) :=
      .cons (step_iff.mpr (.unnoticed default rfl)) (.refl _)
    have stuck : Stuck Work ((start 0).put (default : τ)) := by
      rintro e t ⟨moved, own⟩
      cases step_iff.mp moved with
      | unnoticed | noticed | woke => cases own
      | waited i found | took i _ _ found | finished i _ found => cases found
    have drained := (drains _ _ put).2 [] _ ⟨.refl _, stuck⟩
    exact absurd drained.queue (List.cons_ne_nil _ _)
  · intro some_ es s run
    have orderly := orderly_run run
    have down : Descends Work fun n (s : ThreadPool τ) => outstanding s = n := by
      rintro n s e t rfl worked
      exact ⟨_, outstanding_work worked, rfl⟩
    refine ⟨exists_maximal down rfl, fun ws t maximal => ?_⟩
    obtain ⟨worked, stuck⟩ := maximal
    have all := run_work worked
    have manned : t.threads ≠ [] := by
      rw [← List.length_pos_iff, threads_run all, threads_run run]
      simpa [start] using some_
    have orderly' : Orderly t :=
      Run.preserves (I := Orderly) (fun _ _ _ kept moved => orderly_step kept moved) orderly all
    exact drained_of_stuck orderly' manned (emplaced_work worked) stuck

/-- Two threads wait; of three tasks the second comes while both are busy or woken. -/
def demoEvents : List (Event Nat) :=
  [.pop 0, .pop 1, .emplace 7 (some 1), .emplace 8 (some 0), .emplace 9 none, .pop 0, .pop 1,
    .finish 1, .pop 1, .finish 0]

theorem demo_once :
    ([7, 8, 9] : List Nat) <+: [7, 8, 9] ∧ ([7, 8, 9] : List Nat).Perm ([8, 7] ++ [9]) := by
  have ran : runFrom ThreadPool.next (start 2) demoEvents =
      some ⟨[], [.ready, .handling 9], [7, 8, 9], [7, 8, 9], [8, 7]⟩ := by decide
  exact handled_once_in_order (run_of_runFrom ran)

end WorkerPools
