import Fiy.ByteStrings
import Fiy.MaximalRuns

/-!
# A program that is run with its input and output in pipes

`CGI::run_cmd` writes the whole body into one pipe, closes it, reads the other pipe to its end
and waits for the program. Both sides go on byte by byte here, in any order that the room in
the pipes allows. A program is whatever it does next; what it does with the body alone, without
pipes, is the reference.
-/

namespace ChildPipes

open ByteStrings GuardedRuns MaximalRuns

universe u

variable {γ : Type u}

/-- The next call of a program; a read gives a byte or the end of the input. -/
inductive Act (γ : Type u)
  | read (next : Option Byte → γ)
  | write (b : Byte) (next : γ)
  | exit (status : Nat)

abbrev Program (γ : Type u) := γ → Act γ

/-! ## The program alone -/

/-- A program, the input it has not read, and what it has written. -/
structure Alone (γ : Type u) where
  child : γ
  input : Text
  written : Text

/-- `none` when the program exits. -/
def Alone.next (program : Program γ) (a : Alone γ) : Option (Alone γ) :=
  match program a.child with
  | .read next => match a.input with
    | [] => some { a with child := next none }
    | b :: rest => some { a with child := next (some b), input := rest }
  | .write b next => some { a with child := next, written := a.written ++ [b] }
  | .exit _ => none

def Plays (program : Program γ) (a : Alone γ) (_ : Unit) (a' : Alone γ) : Prop :=
  a.next program = some a'

/-- Output and status of a program that exits after this many calls. -/
def finishes (program : Program γ) : Nat → Alone γ → Option (Text × Nat)
  | 0, a => match program a.child with
    | .exit status => some (a.written, status)
    | _ => none
  | calls + 1, a => match a.next program with
    | some a' => finishes program calls a'
    | none => none

/-! ## The program behind pipes -/

/-- How many bytes the pipes take. -/
structure Capacities where
  stdin : Nat
  stdout : Nat
  stdin_pos : 0 < stdin
  stdout_pos : 0 < stdout

/-- Where the caller is in `run_cmd`. -/
inductive Parent
  /-- in `write`, with the bytes that are not in the pipe yet -/
  | writing (rest : Text)
  /-- in the loop, with `ret.stdout` -/
  | reading (got : Text)
  | returned (status : Nat) (stdout : Text)
  /-- `SIGPIPE`, which nothing handles, ends the server. -/
  | killed
  deriving DecidableEq, Repr

def Parent.unsent : Parent → Text
  | .writing rest => rest
  | _ => []

def Parent.got : Parent → Text
  | .reading got | .returned _ got => got
  | _ => []

namespace Parent

@[simp] theorem unsent_writing (rest : Text) : (writing rest).unsent = rest := rfl
@[simp] theorem unsent_reading (got : Text) : (reading got).unsent = [] := rfl
@[simp] theorem got_writing (rest : Text) : (writing rest).got = [] := rfl
@[simp] theorem got_reading (got : Text) : (reading got).got = got := rfl
@[simp] theorem got_returned (n : Nat) (got : Text) : (returned n got).got = got := rfl

end Parent

inductive Child (γ : Type u)
  | running (child : γ)
  | exited (status : Nat)

structure State (γ : Type u) where
  parent : Parent
  child : Child γ
  stdin : Text
  stdout : Text

/-- After `fork`. -/
def start (child : γ) (body : Text) : State γ := ⟨.writing body, .running child, [], []⟩

inductive Event
  | send
  | sigpipe
  | close
  | receive
  /-- the end of the output, and `waitpid` -/
  | collect
  | child
  deriving DecidableEq, Repr

section system
variable (cap : Capacities) (program : Program γ)

/-- A call of the program. It blocks on an empty pipe that may still be written, and on a full
one. -/
def childNext (s : State γ) (child : γ) : Option (State γ) :=
  match program child with
  | .read next => match s.stdin, s.parent with
    | b :: rest, _ => some { s with child := .running (next (some b)), stdin := rest }
    | [], .writing _ => none
    | [], _ => some { s with child := .running (next none) }
  | .write b next =>
    if s.stdout.length < cap.stdout then
      some { s with child := .running next, stdout := s.stdout ++ [b] }
    else none
  | .exit status => some { s with child := .exited status }

def next (s : State γ) : Event → Option (State γ)
  | .send => match s.parent, s.child with
    | .writing (b :: rest), .running _ =>
      if s.stdin.length < cap.stdin then
        some { s with parent := .writing rest, stdin := s.stdin ++ [b] }
      else none
    | _, _ => none
  | .sigpipe => match s.parent, s.child with
    | .writing (_ :: _), .exited _ => some { s with parent := .killed }
    | _, _ => none
  | .close => match s.parent with
    | .writing [] => some { s with parent := .reading [] }
    | _ => none
  | .receive => match s.parent, s.stdout with
    | .reading got, b :: rest => some { s with parent := .reading (got ++ [b]), stdout := rest }
    | _, _ => none
  | .collect => match s.parent, s.child, s.stdout with
    | .reading got, .exited status, [] => some { s with parent := .returned status got }
    | _, _, _ => none
  | .child => match s.parent, s.child with
    | .killed, _ | _, .exited _ => none
    | _, .running child => childNext cap program s child

def Step (s : State γ) (e : Event) (t : State γ) : Prop := next cap program s e = some t

/-- What a step does. -/
inductive Moved : State γ → Event → State γ → Prop
  | sent {b : Byte} {rest stdin stdout : Text} {c : γ} (room : stdin.length < cap.stdin) :
    Moved ⟨.writing (b :: rest), .running c, stdin, stdout⟩ .send
      ⟨.writing rest, .running c, stdin ++ [b], stdout⟩
  | broken {b : Byte} {rest stdin stdout : Text} {status : Nat} :
    Moved ⟨.writing (b :: rest), .exited status, stdin, stdout⟩ .sigpipe
      ⟨.killed, .exited status, stdin, stdout⟩
  | closed {child : Child γ} {stdin stdout : Text} :
    Moved ⟨.writing [], child, stdin, stdout⟩ .close ⟨.reading [], child, stdin, stdout⟩
  | received {b : Byte} {got rest stdin : Text} {child : Child γ} :
    Moved ⟨.reading got, child, stdin, b :: rest⟩ .receive
      ⟨.reading (got ++ [b]), child, stdin, rest⟩
  | collected {got stdin : Text} {status : Nat} :
    Moved ⟨.reading got, .exited status, stdin, []⟩ .collect
      ⟨.returned status got, .exited status, stdin, []⟩
  | read {parent : Parent} {c : γ} {b : Byte} {rest stdout : Text} {next : Option Byte → γ}
    (alive : parent ≠ .killed) (act : program c = .read next) :
    Moved ⟨parent, .running c, b :: rest, stdout⟩ .child
      ⟨parent, .running (next (some b)), rest, stdout⟩
  | readEnd {parent : Parent} {c : γ} {stdout : Text} {next : Option Byte → γ}
    (alive : parent ≠ .killed) (closed : ∀ rest, parent ≠ .writing rest)
    (act : program c = .read next) :
    Moved ⟨parent, .running c, [], stdout⟩ .child ⟨parent, .running (next none), [], stdout⟩
  | wrote {parent : Parent} {c next : γ} {b : Byte} {stdin stdout : Text}
    (alive : parent ≠ .killed) (act : program c = .write b next)
    (room : stdout.length < cap.stdout) :
    Moved ⟨parent, .running c, stdin, stdout⟩ .child
      ⟨parent, .running next, stdin, stdout ++ [b]⟩
  | exited {parent : Parent} {c : γ} {stdin stdout : Text} {status : Nat}
    (alive : parent ≠ .killed) (act : program c = .exit status) :
    Moved ⟨parent, .running c, stdin, stdout⟩ .child ⟨parent, .exited status, stdin, stdout⟩

end system

variable {cap : Capacities} {program : Program γ}

theorem childNext_moved {s t : State γ} {c : γ} (running : s.child = .running c)
    (alive : s.parent ≠ .killed) (moved : childNext cap program s c = some t) :
    Moved cap program s .child t := by
  obtain ⟨parent, child, stdin, stdout⟩ := s
  cases running
  unfold childNext at moved
  split at moved
  next next act =>
    split at moved
    next b rest _ front =>
      cases moved
      cases front
      exact .read alive act
    next => cases moved
    next empty other =>
      cases moved
      cases empty
      exact .readEnd alive (fun rest same => other rest same) act
  next b next act =>
    split at moved
    next room =>
      cases moved
      exact .wrote alive act room
    · cases moved
  next status act =>
    cases moved
    exact .exited alive act

theorem step_iff {s t : State γ} {e : Event} : Step cap program s e t ↔ Moved cap program s e t := by
  constructor
  · intro moved
    obtain ⟨parent, child, stdin, stdout⟩ := s
    cases e with
    | send =>
      simp only [Step, next] at moved
      split at moved
      · split at moved
        next room =>
          cases moved
          exact .sent room
        · cases moved
      · cases moved
    | sigpipe =>
      simp only [Step, next] at moved
      split at moved
      · cases moved
        exact .broken
      · cases moved
    | close =>
      simp only [Step, next] at moved
      split at moved
      · cases moved
        exact .closed
      · cases moved
    | receive =>
      simp only [Step, next] at moved
      split at moved
      · cases moved
        exact .received
      · cases moved
    | collect =>
      simp only [Step, next] at moved
      split at moved
      · cases moved
        exact .collected
      · cases moved
    | child =>
      simp only [Step, next] at moved
      split at moved
      · cases moved
      · cases moved
      next alive => exact childNext_moved rfl (fun dead => alive dead) moved
  · intro moved
    cases moved with
    | sent room => simp only [Step, next, room, if_true]
    | broken => rfl
    | closed => rfl
    | received => rfl
    | collected => rfl
    | @read parent c b rest stdout next_ alive act =>
      cases parent with
      | killed => exact absurd rfl alive
      | writing | reading | returned => simp only [Step, next, childNext, act]
    | @readEnd parent c stdout next_ alive closed act =>
      cases parent with
      | killed => exact absurd rfl alive
      | writing rest => exact absurd rfl (closed rest)
      | reading | returned => simp only [Step, next, childNext, act]
    | @wrote parent c next_ b stdin stdout alive act room =>
      cases parent with
      | killed => exact absurd rfl alive
      | writing | reading | returned => simp only [Step, next, childNext, act, room, if_true]
    | @exited parent c stdin stdout status alive act =>
      cases parent with
      | killed => exact absurd rfl alive
      | writing | reading | returned => simp only [Step, next, childNext, act]

/-! ## Programs that get along with the pipes -/

/-- What a program that runs alone must not do: fill the output while more of the input is left
than its pipe takes, or exit with input left before it has filled the output. -/
structure Smooth (cap : Capacities) (program : Program γ) (first : Alone γ) : Prop where
  writes : ∀ us a b next, Run (Plays program) first us a → program a.child = .write b next →
    cap.stdout ≤ a.written.length → a.input.length ≤ cap.stdin
  exits : ∀ us a status, Run (Plays program) first us a → program a.child = .exit status →
    a.written.length ≤ cap.stdout → a.input = []

theorem finishes_plays {calls : Nat} {a a' : Alone γ} {result : Text × Nat}
    (done : finishes program calls a = some result) (played : a.next program = some a') :
    ∃ calls', calls = calls' + 1 ∧ finishes program calls' a' = some result := by
  cases calls with
  | zero =>
    simp only [finishes] at done
    split at done
    next status act =>
      simp only [Alone.next, act] at played
      cases played
    · cases done
  | succ calls =>
    simp only [finishes, played] at done
    exact ⟨calls, rfl, done⟩

theorem finishes_exit {calls status : Nat} {a : Alone γ} {result : Text × Nat}
    (done : finishes program calls a = some result) (act : program a.child = .exit status) :
    calls = 0 ∧ result = (a.written, status) := by
  cases calls with
  | zero =>
    simp only [finishes, act, Option.some.injEq] at done
    exact ⟨rfl, done.symm⟩
  | succ calls => simp [finishes, Alone.next, act] at done

/-- What is left to the caller after it has written. -/
def Parent.phase : Parent → Nat
  | .writing _ => 2
  | .reading _ => 1
  | _ => 0

@[simp] theorem Parent.phase_writing (rest : Text) : (writing rest).phase = 2 := rfl
@[simp] theorem Parent.phase_reading (got : Text) : (reading got).phase = 1 := rfl
@[simp] theorem Parent.phase_returned (n : Nat) (got : Text) : (returned n got).phase = 0 := rfl

/-- The program has come as far as it does alone, with the bytes that are on the way; when it has
exited and the caller goes on, what it wrote is there. The number bounds the steps that are
left. -/
inductive Follows (cap : Capacities) (program : Program γ) (first : Alone γ) (out : Text)
    (status : Nat) : Nat → State γ → Prop
  | running (parent : Parent) {c : γ} {stdin stdout : Text} (us : List Unit) {calls : Nat}
    (open_ : parent.phase ≠ 0) (room : stdout.length ≤ cap.stdout)
    (ran : Run (Plays program) first us ⟨c, stdin ++ parent.unsent, parent.got ++ stdout⟩)
    (done : finishes program calls ⟨c, stdin ++ parent.unsent, parent.got ++ stdout⟩ =
      some (out, status)) :
    Follows cap program first out status
      (2 * calls + 1 + parent.unsent.length + stdout.length + parent.phase)
      ⟨parent, .running c, stdin, stdout⟩
  | exited (parent : Parent) {stdin stdout : Text}
    (sent : Smooth cap program first → parent.unsent = [] ∧ parent ≠ .killed)
    (all : parent ≠ .killed → parent.got ++ stdout = out)
    (told : ∀ n got, parent = .returned n got → n = status ∧ stdout = []) :
    Follows cap program first out status (stdout.length + parent.phase)
      ⟨parent, .exited status, stdin, stdout⟩

section smooth
variable {first : Alone γ} {out : Text} {status : Nat}

theorem follows_step :
    Descends (Step cap program) (Follows cap program first out status) := by
  intro n s e t follows moved
  cases step_iff.mp moved with
  | @sent b rest stdin stdout c room =>
    cases follows with
    | @running _ _ _ _ us calls open_ room' ran done =>
      refine ⟨2 * calls + 1 + rest.length + stdout.length + 2, ?_, ?_⟩
      · simp
      · refine .running (.writing rest) us open_ room' ?_ ?_
        · simpa using ran
        · simpa using done
  | @broken b rest stdin stdout n =>
    cases follows with
    | exited _ sent all told =>
      refine ⟨stdout.length + 0, ?_, ?_⟩
      · simp
      · refine .exited .killed (fun smooth => ?_) (by simp) (by rintro _ _ ⟨⟩)
        cases (sent smooth).1
  | @closed child stdin stdout =>
    cases follows with
    | @running _ _ _ _ us calls open_ room ran done =>
      refine ⟨2 * calls + 1 + 0 + stdout.length + 1, ?_, ?_⟩
      · simp
      · exact .running (.reading []) us (by simp) room ran done
    | exited _ sent all told =>
      refine ⟨stdout.length + 1, ?_, ?_⟩
      · simp
      · exact .exited (.reading []) (by simp) (fun _ => all (by simp))
          (by rintro _ _ ⟨⟩)
  | @received b got rest stdin child =>
    cases follows with
    | @running _ _ _ _ us calls open_ room ran done =>
      refine ⟨2 * calls + 1 + 0 + rest.length + 1, ?_, ?_⟩
      · simp
      · refine .running (.reading (got ++ [b])) us (by simp) ?_ ?_ ?_
        · simp only [List.length_cons] at room
          omega
        · simpa using ran
        · simpa using done
    | exited _ sent all told =>
      refine ⟨rest.length + 1, ?_, ?_⟩
      · simp
      · refine .exited (.reading (got ++ [b])) (by simp) (fun _ => ?_)
          (by rintro _ _ ⟨⟩)
        simpa using all (by simp)
  | @collected got stdin n =>
    cases follows with
    | exited _ sent all told =>
      refine ⟨0, by simp, ?_⟩
      refine .exited (.returned status got) (by simp [Parent.unsent])
        (fun _ => all (by simp)) ?_
      rintro _ _ ⟨⟩
      exact ⟨rfl, rfl⟩
  | @read parent c b rest stdout next_ alive act =>
    cases follows with
    | @running _ _ _ _ us calls open_ room ran done =>
      have played : Alone.next program ⟨c, b :: rest ++ parent.unsent, parent.got ++ stdout⟩ =
          some ⟨next_ (some b), rest ++ parent.unsent, parent.got ++ stdout⟩ := by
        simp [Alone.next, act]
      obtain ⟨calls', rfl, done'⟩ := finishes_plays done played
      refine ⟨_, ?_, .running parent _ open_ room (MaximalRuns.Run.snoc (e := ()) ran played) done'⟩
      omega
  | @readEnd parent c stdout next_ alive closed act =>
    cases follows with
    | @running _ _ _ _ us calls open_ room ran done =>
      have sent : parent.unsent = [] := by
        cases parent with
        | writing rest => exact absurd rfl (closed rest)
        | reading | returned | killed => rfl
      have played : Alone.next program ⟨c, [] ++ parent.unsent, parent.got ++ stdout⟩ =
          some ⟨next_ none, [] ++ parent.unsent, parent.got ++ stdout⟩ := by
        simp [Alone.next, act, sent]
      obtain ⟨calls', rfl, done'⟩ := finishes_plays done played
      refine ⟨_, ?_, .running parent _ open_ room (MaximalRuns.Run.snoc (e := ()) ran played) done'⟩
      omega
  | @wrote parent c next_ b stdin stdout alive act room =>
    cases follows with
    | @running _ _ _ _ us calls open_ room' ran done =>
      have played : Alone.next program ⟨c, stdin ++ parent.unsent, parent.got ++ stdout⟩ =
          some ⟨next_, stdin ++ parent.unsent, parent.got ++ (stdout ++ [b])⟩ := by
        simp [Alone.next, act]
      obtain ⟨calls', rfl, done'⟩ := finishes_plays done played
      refine ⟨_, ?_, .running parent _ open_ ?_ (MaximalRuns.Run.snoc (e := ()) ran played) done'⟩
      · simp only [List.length_append, List.length_singleton]
        omega
      · simp only [List.length_append, List.length_singleton]
        omega
  | @exited parent c stdin stdout n alive act =>
    cases follows with
    | @running _ _ _ _ us calls open_ room ran done =>
      obtain ⟨rfl, told⟩ := finishes_exit done act
      cases told
      refine ⟨_, ?_, .exited parent (fun smooth => ⟨?_, alive⟩) (fun _ => rfl) ?_⟩
      · omega
      · cases parent with
        | writing rest =>
          have none_ := smooth.exits _ _ _ ran act (by simpa using room)
          exact (List.append_eq_nil_iff.mp none_).2
        | reading | returned | killed => rfl
      · rintro n got rfl
        exact absurd rfl open_

/-- Where nothing can be done any more, `run_cmd` has returned. -/
theorem returned_of_stuck (smooth : Smooth cap program first) {n : Nat} {t : State γ}
    (follows : Follows cap program first out status n t) (stuck : Stuck (Step cap program) t) :
    t.parent = .returned status out := by
  have impossible {e : Event} {u : State γ} (moved : Moved cap program t e u) : False :=
    stuck e u (step_iff.mpr moved)
  cases follows with
  | @running parent c stdin stdout us calls open_ room ran done =>
    exfalso
    have alive : parent ≠ .killed := by
      rintro rfl
      exact open_ rfl
    cases act : program c with
    | exit n => exact impossible (.exited alive act)
    | read next_ =>
      cases stdin with
      | cons b rest => exact impossible (.read alive act)
      | nil =>
        cases parent with
        | writing rest =>
          cases rest with
          | nil => exact impossible .closed
          | cons b rest => exact impossible (.sent cap.stdin_pos)
        | reading got => exact impossible (.readEnd alive (by simp) act)
        | returned | killed => exact open_ rfl
    | write b next_ =>
      rcases Nat.lt_or_ge stdout.length cap.stdout with free | full
      · exact impossible (.wrote alive act free)
      · cases parent with
        | writing rest =>
          cases rest with
          | nil => exact impossible .closed
          | cons b rest =>
            rcases Nat.lt_or_ge stdin.length cap.stdin with free | full'
            · exact impossible (.sent free)
            · have few := smooth.writes _ _ _ _ ran act (by simpa using full)
              simp only [Parent.unsent_writing, List.length_append, List.length_cons] at few
              omega
        | reading got =>
          cases stdout with
          | nil => exact absurd full (Nat.not_le.mpr cap.stdout_pos)
          | cons b rest => exact impossible .received
        | returned | killed => exact open_ rfl
  | @exited parent stdin stdout sent all told =>
    cases parent with
    | writing rest =>
      cases rest with
      | nil => exact (impossible .closed).elim
      | cons => cases (sent smooth).1
    | reading got =>
      cases stdout with
      | nil => exact (impossible .collected).elim
      | cons => exact (impossible .received).elim
    | returned n got =>
      obtain ⟨rfl, rfl⟩ := told n got rfl
      have all := all (by simp)
      rw [Parent.got_returned, List.append_nil] at all
      rw [all]
    | killed => exact absurd rfl (sent smooth).2

/-- What `run_cmd` returns is what the program alone comes to. -/
theorem told_of_returned {n k : Nat} {got : Text} {t : State γ}
    (follows : Follows cap program first out status n t) (told : t.parent = .returned k got) :
    k = status ∧ got = out := by
  cases follows with
  | running _ _ open_ =>
    cases told
    exact absurd rfl open_
  | exited _ sent all told_ =>
    cases told
    obtain ⟨rfl, rfl⟩ := told_ k got rfl
    have all := all (by simp)
    exact ⟨rfl, by simpa using all⟩

end smooth

/-! ## Programs that do not -/

section rough
variable {first : Alone γ}

/-- The caller has put in what the program has read, and nothing more. -/
def lazy (a : Alone γ) : State γ := ⟨.writing a.input, .running a.child, [], a.written⟩

/-- Input is only read, output is only written. -/
theorem grows_of_run {a a' : Alone γ} {us : List Unit} (ran : Run (Plays program) a us a') :
    a'.input <:+ a.input ∧ a.written <+: a'.written := by
  induction ran with
  | refl => exact ⟨List.suffix_refl _, List.prefix_refl _⟩
  | @cons a b c _ _ played _ ih =>
    obtain ⟨less, more⟩ := ih
    simp only [Plays, Alone.next] at played
    split at played
    · split at played
      next empty =>
        cases played
        exact ⟨less, more⟩
      next x rest front =>
        cases played
        rw [front]
        exact ⟨less.trans (List.suffix_cons x rest), more⟩
    · cases played
      exact ⟨less, (List.prefix_append _ _).trans more⟩
    · cases played

variable (cap) in
/-- While the input is not at its end and the output fits into its pipe, the caller can be that
lazy. -/
theorem lazy_run {a a' : Alone γ} {us : List Unit} (ran : Run (Plays program) a us a')
    (left : a'.input ≠ []) (fits : a'.written.length ≤ cap.stdout) :
    ∃ es, Run (Step cap program) (lazy a) es (lazy a') := by
  induction ran with
  | refl => exact ⟨[], .refl _⟩
  | @cons a b c _ _ played rest ih =>
    obtain ⟨es, run⟩ := ih left fits
    obtain ⟨less, more⟩ := grows_of_run rest
    obtain ⟨child, input, written⟩ := a
    simp only [Plays, Alone.next] at played
    split at played
    next next_ act =>
      split at played
      next =>
        cases played
        exact absurd (List.suffix_nil.mp less) left
      next x input =>
        cases played
        exact ⟨.send :: .child :: es,
          .cons (step_iff.mpr (.sent cap.stdin_pos))
            (.cons (step_iff.mpr (.read (by simp) act)) run)⟩
    next x next_ act =>
      cases played
      have room : written.length < cap.stdout := by
        have shorter := more.length_le
        simp only [List.length_append, List.length_singleton] at shorter
        omega
      exact ⟨.child :: es, .cons (step_iff.mpr (.wrote (by simp) act room)) run⟩
    · cases played

variable (cap) in
/-- Before more is written than the pipe takes, the pipe is full. -/
theorem full_before {a a' : Alone γ} {us : List Unit} (ran : Run (Plays program) a us a')
    (few : a.written.length ≤ cap.stdout) (many : cap.stdout < a'.written.length) :
    ∃ us' full b next, Run (Plays program) a us' full ∧ program full.child = .write b next ∧
      full.written.length = cap.stdout ∧ a'.input <:+ full.input := by
  induction ran with
  | refl => omega
  | @cons a b c _ _ played rest ih =>
    rcases Nat.lt_or_ge cap.stdout b.written.length with beyond | under
    · cases act : program a.child with
      | read next_ =>
        have same : b.written = a.written := by
          simp only [Plays, Alone.next, act] at played
          split at played <;> cases played <;> rfl
        rw [same] at beyond
        omega
      | write x next_ =>
        refine ⟨[], a, x, next_, .refl a, act, ?_, (grows_of_run (.cons played rest)).1⟩
        simp only [Plays, Alone.next, act] at played
        cases played
        simp only [List.length_append, List.length_singleton] at beyond
        omega
      | exit n =>
        simp only [Plays, Alone.next, act] at played
        cases played
    · obtain ⟨us', full, x, next_, run, act, is_, less⟩ := ih under many
      exact ⟨() :: us', full, x, next_, .cons played run, act, is_, less⟩

variable (cap program) in
theorem send_run (c : γ) (stdout : Text) (k : Nat) (rest stdin : Text) (some_ : k ≤ rest.length)
    (room : stdin.length + k ≤ cap.stdin) :
    Run (Step cap program) ⟨.writing rest, .running c, stdin, stdout⟩ (List.replicate k .send)
      ⟨.writing (rest.drop k), .running c, stdin ++ rest.take k, stdout⟩ := by
  induction k generalizing rest stdin with
  | zero =>
    simp only [List.replicate_zero, List.drop_zero, List.take_zero, List.append_nil]
    exact .refl _
  | succ k ih =>
    cases rest with
    | nil => simp at some_
    | cons b rest =>
      simp only [List.length_cons] at some_
      have run := ih rest (stdin ++ [b]) (by omega)
        (by simp only [List.length_append, List.length_singleton]; omega)
      rw [List.append_assoc, List.singleton_append] at run
      exact .cons (step_iff.mpr (.sent (by omega))) run

/-- Both pipes are full, and each side waits for the other. -/
theorem deadlock {a : Alone γ} {us : List Unit} {b : Byte} {next_ : γ}
    (ran : Run (Plays program) first us a) (act : program a.child = .write b next_)
    (full : a.written.length = cap.stdout) (many : cap.stdin < a.input.length) :
    ∃ es t, Maximal (Step cap program) (lazy first) es t ∧ ∀ n got, t.parent ≠ .returned n got := by
  have left : a.input ≠ [] := List.ne_nil_of_length_pos (by omega)
  obtain ⟨es, run⟩ := lazy_run cap ran left (by omega)
  have more := send_run cap program a.child a.written cap.stdin a.input []
    (by omega) (by simp)
  refine ⟨_, _, ⟨MaximalRuns.Run.append run more, fun e t moved => ?_⟩, by rintro n got ⟨⟩⟩
  have rest_pos : 0 < (a.input.drop cap.stdin).length := by
    rw [List.length_drop]
    omega
  generalize front : a.input.drop cap.stdin = rest at moved rest_pos
  generalize pipe : [] ++ a.input.take cap.stdin = stdin at moved
  have pipe_full : stdin.length = cap.stdin := by
    rw [← pipe, List.nil_append, List.length_take]
    omega
  cases step_iff.mp moved with
  | sent room => omega
  | closed => simp at rest_pos
  | read alive same => rw [act] at same; cases same
  | readEnd alive closed => exact closed _ rfl
  | wrote alive _ room => omega
  | exited alive same => rw [act] at same; cases same

/-- The program is gone, and the caller writes. -/
theorem broken_pipe {a : Alone γ} {us : List Unit} {status : Nat}
    (ran : Run (Plays program) first us a) (act : program a.child = .exit status)
    (fits : a.written.length ≤ cap.stdout) (left : a.input ≠ []) :
    ∃ es t, Maximal (Step cap program) (lazy first) es t ∧ ∀ n got, t.parent ≠ .returned n got := by
  obtain ⟨es, run⟩ := lazy_run cap ran left fits
  obtain ⟨child, input, written⟩ := a
  obtain ⟨b, rest, rfl⟩ := List.exists_cons_of_ne_nil left
  have last : Run (Step cap program) (lazy ⟨child, b :: rest, written⟩) [.child, .sigpipe]
      ⟨.killed, .exited status, [], written⟩ :=
    .cons (step_iff.mpr (.exited (by simp) act)) (.cons (step_iff.mpr .broken) (.refl _))
  refine ⟨_, _, ⟨MaximalRuns.Run.append run last, fun e t moved => ?_⟩, by rintro n got ⟨⟩⟩
  cases step_iff.mp moved

end rough

/-! ## Every order of steps -/

theorem follows_start {child : γ} {body out : Text} {calls status : Nat}
    (done : finishes program calls ⟨child, body, []⟩ = some (out, status)) :
    Follows cap program ⟨child, body, []⟩ out status (2 * calls + 1 + body.length + 0 + 2)
      (start child body) :=
  @Follows.running _ _ _ _ _ _ (.writing body) child [] [] [] calls (by simp) (Nat.zero_le _)
    (.refl _) done

/-- What runs when the program cannot be started: it exits, and reads nothing. -/
def missing : Program Unit := fun _ => .exit 127

def smallPipes : Capacities := ⟨4, 4, by decide, by decide⟩

end ChildPipes
