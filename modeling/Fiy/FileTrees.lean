import Fiy.PathWalks

/-!
# Trees of files with links

A tree says what is at a place. A path is followed as a system call follows it: move by
move, with a link replaced by its target, and no more links than the budget allows. Where
a path leads is a real place, with directories all the way to the root, and the names of a
real place lead to it.
-/

namespace FileTrees

open PathWalks

universe u

inductive Node (α : Type u)
  | dir
  | file
  /-- a pipe, a socket or a device -/
  | special
  | link (absolute : Bool) (target : List (Move α))
  deriving DecidableEq, Repr

def Node.isLink {α : Type u} : Node α → Bool
  | .link _ _ => true
  | _ => false

structure FileTree (α : Type u) where
  node : List α → Option (Node α)
  /-- the name is longer than the names of this tree may be -/
  refuses : α → Bool
  root : node [] = some .dir
  parent : ∀ {name : α} {place : List α} {n : Node α}, node (name :: place) = some n →
    node place = some .dir
  admitted : ∀ {name : α} {place : List α} {n : Node α}, node (name :: place) = some n →
    refuses name = false

/-- Why a path leads nowhere: there is nothing, or the system does not look. -/
inductive Failure
  | missing
  | refused
  deriving DecidableEq, Repr

/-- What one move comes to. -/
inductive Entered (α : Type u)
  | reached (place : List α)
  /-- a link, with where its target starts -/
  | via (start : List α) (target : List (Move α))
  | nowhere (why : Failure)

namespace FileTree
variable {α : Type u} (t : FileTree α)

def enter (place : List α) (m : Move α) : Entered α :=
  match t.node place with
  | some .dir => match m with
    | .stay => .reached place
    | .up => .reached place.tail
    | .down name =>
      if t.refuses name = true then .nowhere .refused
      else match t.node (name :: place) with
        | none => .nowhere .missing
        | some (.link absolute target) => .via (if absolute then [] else place) target
        | some _ => .reached (name :: place)
  | _ => .nowhere .missing

def followWith (jump : List α → List (Move α) → Except Failure (List α)) :
    List α → List (Move α) → Except Failure (List α)
  | place, [] => .ok place
  | place, m :: path => match t.enter place m with
    | .reached next => followWith jump next path
    | .via start target => jump start (target ++ path)
    | .nowhere why => .error why

/-- Where a path leads to, with at most so many links on the way. -/
def follow : Nat → List α → List (Move α) → Except Failure (List α)
  | 0 => t.followWith fun _ _ => .error .refused
  | budget + 1 => t.followWith (follow budget)

/-- There is something at the place, and it is not a link. -/
def IsReal (place : List α) : Prop := ∃ n, t.node place = some n ∧ n.isLink = false

variable {t}

theorem isReal_of_dir {place : List α} (dir : t.node place = some .dir) : t.IsReal place :=
  ⟨.dir, dir, rfl⟩

theorem isReal_root : t.IsReal [] := isReal_of_dir t.root

theorem IsReal.parent {name : α} {place : List α} (real : t.IsReal (name :: place)) :
    t.node place = some .dir := by
  obtain ⟨n, there, _⟩ := real
  exact t.parent there

theorem IsReal.tail {place : List α} (real : t.IsReal place) : t.IsReal place.tail := by
  cases place with
  | nil => exact real
  | cons name place => exact isReal_of_dir real.parent

/-- What a real place lies in is real. -/
theorem IsReal.outer {inner outer : List α} (real : t.IsReal inner) (inside : Inside inner outer) :
    t.IsReal outer := by
  obtain ⟨below, rfl⟩ := inside
  induction below with
  | nil => exact real
  | cons name below ih => exact ih real.tail

theorem enter_down_real {name : α} {place : List α} (real : t.IsReal (name :: place)) :
    t.enter place (.down name) = .reached (name :: place) := by
  obtain ⟨n, there, plain⟩ := real
  simp only [enter, t.parent there, t.admitted there, there, Bool.false_eq_true, if_false]
  cases n with
  | link absolute target => cases plain
  | dir => rfl
  | file => rfl
  | special => rfl

/-- Without a link a move leads where it says, and what it finds there is real. -/
theorem enter_reached {place next : List α} {m : Move α}
    (entered : t.enter place m = .reached next) :
    next = move place m ∧ (t.IsReal place → t.IsReal next) := by
  unfold enter at entered
  split at entered
  · cases m with
    | stay =>
      cases entered
      exact ⟨rfl, id⟩
    | up =>
      cases entered
      exact ⟨rfl, IsReal.tail⟩
    | down name =>
      simp only at entered
      split at entered
      · cases entered
      · split at entered
        · cases entered
        · cases entered
        next n plain there =>
          cases entered
          refine ⟨rfl, fun _ => ⟨n, there, ?_⟩⟩
          cases n with
          | link absolute target => exact absurd rfl (plain absolute target)
          | dir => rfl
          | file => rfl
          | special => rfl
  · cases entered

/-- A link is found under a name, and starts at the root or where it is. -/
theorem enter_via {place start : List α} {m : Move α} {target : List (Move α)}
    (entered : t.enter place m = .via start target) :
    ∃ name absolute, m = .down name ∧ t.node (name :: place) = some (.link absolute target) ∧
      start = if absolute then [] else place := by
  unfold enter at entered
  split at entered
  · cases m with
    | stay => cases entered
    | up => cases entered
    | down name =>
      simp only at entered
      split at entered
      · cases entered
      · split at entered
        · cases entered
        next absolute _ there =>
          cases entered
          exact ⟨name, absolute, rfl, there, rfl⟩
        · cases entered
  · cases entered

theorem IsReal.via {place start : List α} {m : Move α} {target : List (Move α)}
    (real : t.IsReal place) (entered : t.enter place m = .via start target) :
    t.IsReal start := by
  obtain ⟨_, absolute, _, _, rfl⟩ := enter_via entered
  cases absolute with
  | true => exact isReal_root
  | false => exact real

theorem followWith_real {jump : List α → List (Move α) → Except Failure (List α)}
    (jumps : ∀ start path place, t.IsReal start → jump start path = .ok place → t.IsReal place)
    {start place : List α} {path : List (Move α)} (real : t.IsReal start)
    (found : t.followWith jump start path = .ok place) : t.IsReal place := by
  induction path generalizing start with
  | nil =>
    cases found
    exact real
  | cons m path ih =>
    rw [followWith] at found
    split at found
    next entered => exact ih ((enter_reached entered).2 real) found
    next entered => exact jumps _ _ _ (real.via entered) found
    · cases found

/-- A path leads to a real place. -/
theorem follow_real {budget : Nat} {start place : List α} {path : List (Move α)}
    (real : t.IsReal start) (found : t.follow budget start path = .ok place) : t.IsReal place := by
  induction budget generalizing start place path with
  | zero =>
    refine followWith_real ?_ real found
    intro _ _ _ _ failed
    cases failed
  | succ budget ih =>
    refine followWith_real ?_ real found
    intro _ _ _ real jumped
    exact ih real jumped

theorem followWith_stay {jump : List α → List (Move α) → Except Failure (List α)}
    {start place : List α} (found : t.followWith jump start [.stay] = .ok place) :
    place = start := by
  rw [followWith] at found
  split at found
  next entered =>
    cases found
    exact (enter_reached entered).1
  next entered =>
    obtain ⟨_, _, down, _⟩ := enter_via entered
    cases down
  · cases found

theorem follow_stay {budget : Nat} {start place : List α}
    (found : t.follow budget start [.stay] = .ok place) : place = start := by
  cases budget with
  | zero => exact followWith_stay found
  | succ budget => exact followWith_stay found

/-- The rest of a path is followed from where its beginning leads, with the links that are
left of the budget. -/
def Splits (t : FileTree α) (jump : List α → List (Move α) → Except Failure (List α)) : Prop :=
  ∀ start path rest place, jump start (path ++ rest) = .ok place →
    ∃ mid left, jump start path = .ok mid ∧ t.follow left mid rest = .ok place

theorem Splits.followWith {jump : List α → List (Move α) → Except Failure (List α)}
    (splits : t.Splits jump) (here : ∃ left, t.followWith jump = t.follow left) :
    t.Splits (t.followWith jump) := by
  intro start path rest place found
  induction path generalizing start with
  | nil =>
    obtain ⟨left, same⟩ := here
    exact ⟨start, left, rfl, same ▸ found⟩
  | cons m path ih =>
    simp only [List.cons_append, FileTree.followWith] at found ⊢
    cases entered : t.enter start m with
    | reached next =>
      rw [entered] at found
      exact ih next found
    | via from_ target =>
      rw [entered] at found
      simp only [← List.append_assoc] at found
      exact splits _ _ _ _ found
    | nowhere why =>
      rw [entered] at found
      cases found

theorem follow_splits (budget : Nat) : t.Splits (t.follow budget) := by
  induction budget with
  | zero =>
    refine Splits.followWith ?_ ⟨0, rfl⟩
    intro _ _ _ _ failed
    cases failed
  | succ budget ih => exact ih.followWith ⟨budget + 1, rfl⟩

/-- Behind the place that a path leads to, whatever comes is followed from there. -/
def GoesOn (t : FileTree α) (jump : List α → List (Move α) → Except Failure (List α)) : Prop :=
  ∀ start path mid, jump start path = .ok mid →
    ∃ left, ∀ rest, jump start (path ++ rest) = t.follow left mid rest

theorem GoesOn.followWith {jump : List α → List (Move α) → Except Failure (List α)}
    (goesOn : t.GoesOn jump) (here : ∃ left, t.followWith jump = t.follow left) :
    t.GoesOn (t.followWith jump) := by
  intro start path mid found
  induction path generalizing start with
  | nil =>
    cases found
    obtain ⟨left, same⟩ := here
    exact ⟨left, fun rest => by rw [same, List.nil_append]⟩
  | cons m path ih =>
    simp only [List.cons_append, FileTree.followWith] at found ⊢
    cases entered : t.enter start m with
    | reached next =>
      rw [entered] at found
      exact ih next found
    | via from_ target =>
      rw [entered] at found
      simp only [← List.append_assoc]
      exact goesOn _ _ _ found
    | nowhere why =>
      rw [entered] at found
      cases found

theorem follow_goesOn (budget : Nat) : t.GoesOn (t.follow budget) := by
  induction budget with
  | zero =>
    refine GoesOn.followWith ?_ ⟨0, rfl⟩
    intro _ _ _ failed
    cases failed
  | succ budget ih => exact ih.followWith ⟨budget + 1, rfl⟩

/-- In a directory a move to something that is no link gets there. -/
theorem follow_down_real {budget : Nat} {name : α} {place : List α}
    (real : t.IsReal (name :: place)) (rest : List (Move α)) :
    t.follow budget place (.down name :: rest) = t.follow budget (name :: place) rest := by
  cases budget with
  | zero => rw [follow, followWith, enter_down_real real]
  | succ budget => rw [follow, followWith, enter_down_real real]

theorem follow_stay_dir {budget : Nat} {place : List α} (dir : t.node place = some .dir)
    (rest : List (Move α)) :
    t.follow budget place (.stay :: rest) = t.follow budget place rest := by
  have stays : t.enter place .stay = .reached place := by simp only [enter, dir]
  cases budget with
  | zero => rw [follow, followWith, stays]
  | succ budget => rw [follow, followWith, stays]

theorem follow_nil (budget : Nat) (place : List α) : t.follow budget place [] = .ok place := by
  cases budget with
  | zero => rfl
  | succ budget => rfl

/-- The names of a real place lead to it, and from there the rest of the path goes on. -/
theorem followWith_names (jump : List α → List (Move α) → Except Failure (List α))
    {place : List α} (real : t.IsReal place) (rest : List (Move α)) :
    t.followWith jump [] (place.reverse.map Move.down ++ rest) = t.followWith jump place rest := by
  induction place generalizing rest with
  | nil => rfl
  | cons name place ih =>
    rw [List.reverse_cons, List.map_append, List.append_assoc, ih real.tail, List.map_singleton,
      List.singleton_append, followWith, enter_down_real real]

theorem follow_names (budget : Nat) {place : List α} (real : t.IsReal place) :
    t.follow budget [] (place.reverse.map Move.down) = .ok place := by
  have goes := fun jump => followWith_names jump real []
  simp only [List.append_nil, followWith] at goes
  cases budget with
  | zero => exact goes _
  | succ budget => exact goes _

/-! ## Paths without links -/

/-- Nothing inside the place is a link. -/
def Linkless (t : FileTree α) (outer : List α) : Prop :=
  ∀ place n, Inside place outer → t.node place = some n → n.isLink = false

theorem Linkless.not_via {outer below start : List α} (linkless : t.Linkless outer)
    {m : Move α} {target : List (Move α)} : t.enter (below ++ outer) m ≠ .via start target := by
  intro entered
  obtain ⟨name, _, _, there, _⟩ := enter_via entered
  exact absurd (linkless _ _ (List.suffix_append (name :: below) outer) there) Bool.noConfusion

/-- A path that never climbs out of a place without links ends inside of it. -/
theorem Linkless.followWith_inside {jump : List α → List (Move α) → Except Failure (List α)}
    {outer below place : List α} (linkless : t.Linkless outer) {path : List (Move α)}
    (stays : Stays below.length path)
    (found : t.followWith jump (below ++ outer) path = .ok place) :
    Inside place outer := by
  induction path generalizing below with
  | nil =>
    cases found
    exact List.suffix_append below outer
  | cons m path ih =>
    rw [followWith] at found
    split at found
    next next_ entered =>
      obtain ⟨rfl, _⟩ := enter_reached entered
      cases m with
      | stay =>
        have stays : Stays below.length path := stays
        exact ih stays found
      | down name =>
        have stays : Stays (name :: below).length path := stays
        exact ih stays found
      | up =>
        cases below with
        | nil => exact stays.elim
        | cons name below =>
          have stays : Stays below.length path := stays
          exact ih stays found
    next entered => exact absurd entered linkless.not_via
    · cases found

theorem Linkless.follow_inside {budget : Nat} {outer below place : List α}
    (linkless : t.Linkless outer) {path : List (Move α)} (stays : Stays below.length path)
    (found : t.follow budget (below ++ outer) path = .ok place) : Inside place outer := by
  cases budget with
  | zero => exact linkless.followWith_inside stays found
  | succ budget => exact linkless.followWith_inside stays found

end FileTree

end FileTrees
