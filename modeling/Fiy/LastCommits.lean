import Fiy.ByteStrings
import Fiy.CheckedLoops
import Fiy.Histories

/-!
# The last commit of an entry

The loop of `last_commit` over the commits that the shared walker of a repository gives it. What
order libgit2 visits commits in, and which paths a pathspec selects, are parameters.
-/

namespace LastCommits

open ByteStrings CheckedLoops Histories

/-! ## Repositories -/

/-- A commit with its parents, and its tree by the paths of its files. A file has an id and a
mode, and there are no empty directories. -/
structure CommitObject (ω ν : Type) where
  parents : List ω
  tree : List (Text × ν)

/-- `git_commit_lookup`; `none` when it fails. -/
structure Objects (ω ν : Type) where
  lookup : ω → Option (CommitObject ω ν)

section objects
variable {ω ν : Type} (r : Objects ω ν)

def Objects.parents (c : ω) : List ω := (r.lookup c).elim [] CommitObject.parents

def Objects.tree (c : ω) : List (Text × ν) := (r.lookup c).elim [] CommitObject.tree

variable {r} {c : ω} {commit : CommitObject ω ν}

theorem parents_of_lookup (found : r.lookup c = some commit) : r.parents c = commit.parents := by
  rw [Objects.parents, found]
  rfl

theorem tree_of_lookup (found : r.lookup c = some commit) : r.tree c = commit.tree := by
  rw [Objects.tree, found]
  rfl

end objects

structure Repository (ω ν : Type) extends Objects ω ν where
  /-- the parents of a commit are made before it -/
  acyclic : WellFounded fun parent child => parent ∈ toObjects.parents child
  /-- no parent is missing -/
  closed : ∀ c, ∀ parent ∈ toObjects.parents c, (toObjects.lookup parent).isSome = true

def Repository.history {ω ν : Type} (r : Repository ω ν) : History ω := ⟨r.parents, r.acyclic⟩

/-- What libgit2 decides. -/
structure Libgit2 (ω : Type) where
  /-- the commits of a walk by time from the commits that were pushed -/
  order : List ω → List ω
  /-- a pathspec selects a path -/
  selects : Text → Text → Bool

/-- `git_revwalk`: the commits that were pushed, and once the walk has begun, those that are
still to be visited. -/
structure Walker (ω : Type) where
  pushed : List ω := []
  queue : Option (List ω) := none
  deriving DecidableEq, Repr

/-- `git_revwalk_push` -/
def Walker.push {ω : Type} (w : Walker ω) (c : ω) : Walker ω := { w with pushed := c :: w.pushed }

/-- `git_revwalk_reset` -/
def Walker.reset {ω : Type} (_ : Walker ω) : Walker ω := {}

/-- `git_revwalk_next` -/
def Walker.next {ω : Type} (git : Libgit2 ω) (w : Walker ω) : Option ω × Walker ω :=
  match w.queue.getD (git.order w.pushed) with
  | [] => (none, { w with queue := some [] })
  | c :: rest => (some c, { w with queue := some rest })

section paths
variable {ν : Type} [DecidableEq ν]

/-- The paths whose files differ. -/
def changedPaths (old new : List (Text × ν)) : List Text :=
  ((old ++ new).map Prod.fst).filter fun path => old.lookup path ≠ new.lookup path

/-- `git_diff_tree_to_tree` with a pathspec -/
def deltas {ω : Type} (git : Libgit2 ω) (pathspec : Text) (old new : List (Text × ν)) : List Text :=
  (changedPaths old new).filter (git.selects pathspec)

/-- The path of an entry, or of a file below it. -/
def Under (name path : Text) : Prop := path = name ∨ name ++ [47] <+: path

instance (name path : Text) : Decidable (Under name path) := inferInstanceAs (Decidable (_ ∨ _))

end paths

/-! ## The loop -/

section loop
variable {ω ν : Type} [DecidableEq ν] (r : Repository ω ν) (git : Libgit2 ω) (start : ω)
  (name : Text)

/-- One turn of `last_commit`, with the walker that it leaves. A parent that cannot be looked up
is a null pointer. -/
def lastTurn (w : Walker ω) : Turn (Walker ω) (Option ω × Walker ω) :=
  match w.next git with
  | (none, w) => .leave (none, w.reset)
  | (some oid, w) => match r.lookup oid with
    | none => .again w
    | some commit => match commit.parents with
      | [] => .leave (some oid, w.reset)
      | parent :: _ => .guard (r.lookup parent) fun parent =>
        if deltas git name parent.tree commit.tree ≠ [] then .leave (some oid, w.reset)
        else .again w

/-- `last_commit` comes to this commit, and leaves the walker like this. -/
def LastCommit (w : Walker ω) (result : Option ω × Walker ω) : Prop :=
  Ends (lastTurn r git name) (w.push start) result

/-- A path that differs from the one of the first parent is selected by the name. -/
def Selected (c : ω) : Prop :=
  ∃ parent, (r.parents c).head? = some parent ∧ deltas git name (r.tree parent) (r.tree c) ≠ []

instance (c : ω) : Decidable (Selected r git name c) :=
  match h : (r.parents c).head? with
  | none => isFalse fun ⟨_, found, _⟩ => by rw [h] at found; cases found
  | some parent =>
    if d : deltas git name (r.tree parent) (r.tree c) ≠ [] then isTrue ⟨parent, h, d⟩
    else isFalse fun ⟨_, found, other⟩ => by
      rw [h] at found
      cases found
      exact d other

/-- The loop ends with this commit. -/
def Stops (c : ω) : Prop :=
  (r.lookup c).isSome = true ∧ (r.parents c = [] ∨ Selected r git name c)

/-- The entry of a commit: the files below its name. -/
def entry (c : ω) : Text → Option ν :=
  fun path => if Under name path then (r.tree c).lookup path else none

/-- There is no such entry. -/
def noEntry : Text → Option ν := fun _ => none

/-- The commit introduces or changes the entry. -/
def Introduces (c : ω) : Prop := r.history.Introduces (entry r name) noEntry c

/-- The walk visits every commit that can be reached once. -/
structure Visits : Prop where
  once : (git.order [start]).Nodup
  all : ∀ c, c ∈ git.order [start] ↔ r.history.Reaches start c

end loop

/-! ### Turns -/

section turns
variable {ω ν : Type} [DecidableEq ν] {r : Repository ω ν} {git : Libgit2 ω} {start : ω}
  {name : Text} {w : Walker ω} {c : ω} {rest : List ω}

instance (c : ω) : Decidable (Stops r git name c) := inferInstanceAs (Decidable (_ ∧ _))

theorem next_cons (queue : w.queue.getD (git.order w.pushed) = c :: rest) :
    w.next git = (some c, { w with queue := some rest }) := by rw [Walker.next, queue]

/-- At the end of the walk. -/
theorem lastTurn_nil (queue : w.queue.getD (git.order w.pushed) = []) :
    lastTurn r git name w = .leave (none, {}) := by
  have next : w.next git = (none, { w with queue := some [] }) := by rw [Walker.next, queue]
  rw [lastTurn, next]
  rfl

theorem lastTurn_cons (queue : w.queue.getD (git.order w.pushed) = c :: rest) :
    lastTurn r git name w = if Stops r git name c then .leave (some c, {})
      else .again { w with queue := some rest } := by
  rw [lastTurn, next_cons queue]
  simp only
  cases found : r.lookup c with
  | none => rw [if_neg fun stops => by simpa [found] using stops.1]
  | some commit =>
    have parents := parents_of_lookup found
    cases line : commit.parents with
    | nil =>
      simp only [line]
      rw [if_pos ⟨by rw [found]; rfl, .inl (parents.trans line)⟩]
      rfl
    | cons parent others =>
      rw [line] at parents
      -- the parent is there
      obtain ⟨object, there⟩ := Option.isSome_iff_exists.mp
        (r.closed c parent (parents ▸ List.mem_cons_self))
      have selected : Selected r git name c ↔ deltas git name object.tree commit.tree ≠ [] := by
        rw [Selected, parents, tree_of_lookup found, ← tree_of_lookup there]
        simp
      have stops : Stops r git name c ↔ deltas git name object.tree commit.tree ≠ [] := by
        rw [Stops, found, parents, selected]
        simp
      simp only [line, there, Turn.guard_some]
      by_cases changed : deltas git name object.tree commit.tree ≠ []
      · rw [if_pos changed, if_pos (stops.mpr changed)]
        rfl
      · rw [if_neg changed, if_neg (stops.not.mpr changed)]

/-- The loop finds the first commit of its queue that it ends with, and resets the walker. -/
theorem ends_of_queue (queue : w.queue.getD (git.order w.pushed) = rest) :
    Ends (lastTurn r git name) w (rest.find? fun c => decide (Stops r git name c), {}) := by
  induction rest generalizing w with
  | nil => exact Ends.of_leave (lastTurn_nil queue)
  | cons c rest ih =>
    have turn : lastTurn r git name w = if Stops r git name c then .leave (some c, {})
        else .again { w with queue := some rest } := lastTurn_cons queue
    by_cases stops : Stops r git name c
    · rw [if_pos stops] at turn
      have found : (c :: rest).find? (fun c => decide (Stops r git name c)) = some c :=
        List.find?_cons_of_pos (decide_eq_true stops)
      rw [found]
      exact Ends.of_leave turn
    · rw [if_neg stops] at turn
      have later : (c :: rest).find? (fun c => decide (Stops r git name c)) =
          rest.find? fun c => decide (Stops r git name c) :=
        List.find?_cons_of_neg (by simpa using stops)
      rw [later, ends_of_again turn]
      exact ih rfl

/-- A call with a walker that was reset. -/
theorem lastCommit_fresh : LastCommit r git start name {}
    ((git.order [start]).find? fun c => decide (Stops r git name c), {}) :=
  ends_of_queue rfl

theorem lastCommit_iff_isFirst : LastCommit r git start name {} (some c, {}) ↔
    IsFirst (Stops r git name) (git.order [start]) c := by
  rw [← find?_eq_some_iff_isFirst]
  constructor
  · intro ended
    exact (Prod.mk.inj (ended.unique lastCommit_fresh)).1.symm
  · intro found
    rw [← found]
    exact lastCommit_fresh

end turns

/-! ## The entries of a tree -/

section entries
variable {ω ν : Type} [DecidableEq ν] (r : Repository ω ν) (git : Libgit2 ω) (start : ω)

/-- The loop of `entries` over the names of a tree, with one walker for all calls. -/
inductive Calls : Walker ω → List (Text × Option ω) → Walker ω → Prop
  | nil (w : Walker ω) : Calls w [] w
  | cons {w w' w'' : Walker ω} {name : Text} {c : Option ω} {calls : List (Text × Option ω)}
    (first : LastCommit r git start name w (c, w')) (rest : Calls w' calls w'') :
    Calls w ((name, c) :: calls) w''

variable {r git start}

/-- Every call finds the walker reset, and leaves it so: none changes what the next one finds. -/
theorem calls_reset {calls : List (Text × Option ω)} {w : Walker ω}
    (run : Calls r git start {} calls w) : w = {} ∧ ∀ call ∈ calls,
      call.2 = (git.order [start]).find? fun c => decide (Stops r git call.1 c) := by
  generalize fresh : ({} : Walker ω) = w₀ at run
  induction run with
  | nil => exact ⟨rfl, fun _ mem => absurd mem List.not_mem_nil⟩
  | cons first rest ih =>
    subst fresh
    obtain ⟨rfl, rfl⟩ := Prod.mk.inj (first.unique lastCommit_fresh)
    obtain ⟨reset, found⟩ := ih rfl
    exact ⟨reset, List.forall_mem_cons.mpr ⟨rfl, found⟩⟩

theorem exists_calls (names : List Text) :
    ∃ calls, calls.map Prod.fst = names ∧ Calls r git start {} calls {} := by
  induction names with
  | nil => exact ⟨[], rfl, .nil _⟩
  | cons name names ih =>
    obtain ⟨calls, same, run⟩ := ih
    exact ⟨(name, _) :: calls, by rw [List.map_cons, same], .cons lastCommit_fresh run⟩

end entries

/-! ## The commit of an entry -/

section law
variable {ω ν : Type} [DecidableEq ν] (r : Repository ω ν) (git : Libgit2 ω) (start : ω)
  (name : Text)

/-- The loop finds the first commit that it visits of those that introduce or change the entry,
one that can be reached, and leaves the walker reset. -/
def Meets : Prop := ∃ c, LastCommit r git start name {} (some c, {}) ∧
  r.history.Reaches start c ∧ IsFirst (Introduces r name) (git.order [start]) c

/-- What is visited before the commit of an entry has parents, and no changed path that the name
selects as a pattern. That commit has one, when it has parents. -/
def Undisturbed : Prop := ∀ c, IsFirst (Introduces r name) (git.order [start]) c →
  (r.parents c = [] ∨ Selected r git name c) ∧
    ∀ b ∈ before (Introduces r name) (git.order [start]), r.parents b ≠ [] ∧ ¬ Selected r git name b

variable {r git start name}

omit [DecidableEq ν] in
theorem present_of_reaches (there : (r.lookup start).isSome = true) {c : ω}
    (reached : r.history.Reaches start c) : (r.lookup c).isSome = true :=
  reached.closed (p := fun c => (r.lookup c).isSome = true) there fun child _ => r.closed child

omit [DecidableEq ν] in
/-- An entry that is there was introduced by a commit of the walk. -/
theorem exists_commit (visits : Visits r git start) (present : entry r name start ≠ noEntry) :
    ∃ c, IsFirst (Introduces r name) (git.order [start]) c := by
  obtain ⟨c, reached, introduces⟩ := History.exists_introduces (h := r.history) _ _ present
  exact exists_isFirst ⟨c, (visits.all c).mpr reached, introduces⟩

theorem stops_iff (visits : Visits r git start) (there : (r.lookup start).isSome = true) {c : ω}
    (visited : c ∈ git.order [start]) :
    Stops r git name c ↔ r.parents c = [] ∨ Selected r git name c :=
  and_iff_right (present_of_reaches there ((visits.all c).mp visited))

/-- The loop against the commit of an entry. -/
theorem meets_of_isFirst (visits : Visits r git start) (there : (r.lookup start).isSome = true)
    {c : ω} (first : IsFirst (Introduces r name) (git.order [start]) c) :
    Meets r git start name ↔ (r.parents c = [] ∨ Selected r git name c) ∧
      ∀ b ∈ before (Introduces r name) (git.order [start]),
        r.parents b ≠ [] ∧ ¬ Selected r git name b := by
  have meets : Meets r git start name ↔ IsFirst (Stops r git name) (git.order [start]) c := by
    constructor
    · rintro ⟨c', ended, -, first'⟩
      rw [first.unique first']
      exact lastCommit_iff_isFirst.mp ended
    · intro found
      exact ⟨c, lastCommit_iff_isFirst.mpr found, (visits.all c).mp first.mem, first⟩
  rw [meets, first.iff, stops_iff visits there first.mem]
  refine and_congr_right fun _ => forall₂_congr fun b mem => ?_
  rw [stops_iff visits there (mem_of_mem_before mem), not_or]

/-! ### Names without special characters -/

omit [DecidableEq ν] in
theorem lookup_eq_none {path : Text} {tree : List (Text × ν)} (absent : path ∉ tree.map Prod.fst) :
    tree.lookup path = none := by
  rw [List.lookup_eq_none_iff]
  intro file mem
  have other : path ≠ file.1 := fun same => absent (same ▸ List.mem_map_of_mem mem)
  simpa using other

theorem mem_changedPaths {path : Text} {old new : List (Text × ν)} :
    path ∈ changedPaths old new ↔ old.lookup path ≠ new.lookup path := by
  rw [changedPaths, List.mem_filter, decide_eq_true_eq, and_iff_right_iff_imp]
  intro differ
  rw [List.map_append, List.mem_append]
  by_contra absent
  obtain ⟨old_, new_⟩ := not_or.mp absent
  exact differ ((lookup_eq_none old_).trans (lookup_eq_none new_).symm)

/-- A pathspec that is the name of an entry and nothing else. -/
def IsPlain (git : Libgit2 ω) (name : Text) : Prop :=
  ∀ path, git.selects name path = true ↔ Under name path

theorem deltas_ne_nil_iff (plain : IsPlain git name) {parent c : ω} :
    deltas git name (r.tree parent) (r.tree c) ≠ [] ↔ entry r name c ≠ entry r name parent := by
  constructor
  · intro some_ same
    obtain ⟨path, mem⟩ := List.exists_mem_of_ne_nil _ some_
    obtain ⟨changed, selected⟩ := List.mem_filter.mp mem
    have under := (plain path).mp selected
    have here := congrFun same path
    rw [entry, entry, if_pos under, if_pos under] at here
    exact mem_changedPaths.mp changed here.symm
  · intro differ none_
    refine differ (funext fun path => ?_)
    unfold entry
    split
    next under =>
      by_contra other
      have changed : path ∈ deltas git name (r.tree parent) (r.tree c) :=
        List.mem_filter.mpr ⟨mem_changedPaths.mpr fun same => other same.symm,
          (plain path).mpr under⟩
      rw [none_] at changed
      cases changed
    · rfl

/-- With parents, a plain name selects a change if and only if the entry is changed. -/
theorem selected_iff (plain : IsPlain git name) {c : ω} (child : r.parents c ≠ []) :
    Selected r git name c ↔ Introduces r name c := by
  obtain ⟨parent, others, line⟩ := List.exists_cons_of_ne_nil child
  have introduces : Introduces r name c ↔ entry r name c ≠ entry r name parent := by
    rw [Introduces, History.Introduces, show r.history.parents c = parent :: others from line]
  rw [introduces, ← deltas_ne_nil_iff plain, Selected, line]
  simp

/-- For a plain name only the roots are in the way, those that do not have the entry. -/
theorem meets_plain_iff (plain : IsPlain git name) (visits : Visits r git start)
    (there : (r.lookup start).isSome = true) (present : entry r name start ≠ noEntry) :
    Meets r git start name ↔
      ∀ b ∈ before (Introduces r name) (git.order [start]), r.parents b ≠ [] := by
  obtain ⟨c, first⟩ := exists_commit visits present
  rw [meets_of_isFirst visits there first]
  constructor
  · exact fun all b mem => (all.2 b mem).1
  · intro children
    refine ⟨?_, fun b mem => ⟨children b mem, fun selected => ?_⟩⟩
    · by_cases root : r.parents c = []
      · exact .inl root
      · exact .inr ((selected_iff plain root).mpr first.holds)
    · exact not_of_mem_before mem ((selected_iff plain (children b mem)).mp selected)

variable (r git start name) in
/-- `last_commit` finds the commit of an entry if and only if nothing disturbs it. -/
theorem lastCommit_iff (visits : Visits r git start) (there : (r.lookup start).isSome = true)
    (present : entry r name start ≠ noEntry) :
    Meets r git start name ↔ Undisturbed r git start name := by
  obtain ⟨c, first⟩ := exists_commit visits present
  rw [meets_of_isFirst visits there first]
  constructor
  · intro here c' first'
    rwa [first'.unique first]
  · exact fun all => all c first

end law

/-! ## Roots and patterns -/

/-- Two histories that were merged; and a file whose name is a pattern, which another file was
changed after. -/
def demoObjects : Objects Nat Nat where
  lookup
    | 0 => some ⟨[], [("a", 1)]⟩
    | 1 => some ⟨[], [("b", 1)]⟩
    | 2 => some ⟨[0, 1], [("a", 1), ("b", 1)]⟩
    | 3 => some ⟨[0], [("a", 1), ("*", 1)]⟩
    | 4 => some ⟨[3], [("a", 2), ("*", 1)]⟩
    | _ => none

theorem demo_parents : ∀ c, ∀ parent ∈ demoObjects.parents c, parent < c ∧ parent < 5
  | 0, parent, mem => by cases mem
  | 1, parent, mem => by cases mem
  | 2, parent, mem => by revert parent; decide
  | 3, parent, mem => by revert parent; decide
  | 4, parent, mem => by revert parent; decide
  | _ + 5, parent, mem => by cases mem

def demoRepository : Repository Nat Nat where
  toObjects := demoObjects
  acyclic := Subrelation.wf (fun {parent child} mem => (demo_parents child parent mem).1)
    Nat.lt_wfRel.wf
  closed := fun c parent mem => by
    have all : ∀ c < 5, (demoObjects.lookup c).isSome = true := by decide
    exact all parent (demo_parents c parent mem).2

/-- The newest commit comes first, and a star selects every path. -/
def demoGit : Libgit2 Nat where
  order
    | [2] => [2, 1, 0]
    | [4] => [4, 3, 0]
    | _ => []
  selects pathspec path := decide (pathspec = "*" ∨ Under pathspec path)

theorem demo_visits : Visits demoRepository demoGit 2 := by
  refine ⟨by decide, fun c => ⟨fun mem => ?_, fun reached => ?_⟩⟩
  · have top : ∀ c ∈ demoObjects.parents 2, demoRepository.history.Reaches 2 c :=
      fun c mem => .single mem
    have cases_ : c = 2 ∨ c ∈ demoObjects.parents 2 := by
      revert mem
      revert c
      decide
    rcases cases_ with rfl | mem
    · exact .refl
    · exact top c mem
  · exact reached.closed (p := fun c => c ∈ demoGit.order [2]) (by decide) (by decide)

theorem lastCommit_iff_demo : Meets demoRepository demoGit 2 "b" ↔
    Undisturbed demoRepository demoGit 2 "b" := by
  refine lastCommit_iff demoRepository demoGit 2 "b" demo_visits (by decide) fun absent => ?_
  have file := congrFun absent "b"
  exact absurd file (by decide)

/-- The root of the other history has no such file, and the last commit has not changed the
file with the star. -/
theorem other_commit_found :
    LastCommit demoRepository demoGit 2 "a" {} (some 1, {}) ∧
      entry demoRepository "a" 1 = noEntry ∧ ¬ Meets demoRepository demoGit 2 "a" ∧
      LastCommit demoRepository demoGit 4 "*" {} (some 4, {}) ∧
      entry demoRepository "*" 4 = entry demoRepository "*" 3 ∧
      ¬ Meets demoRepository demoGit 4 "*" := by
  have merged : ((demoGit.order [2]).find? fun c =>
      decide (Stops demoRepository demoGit "a" c)) = some 1 := by decide
  have starred : ((demoGit.order [4]).find? fun c =>
      decide (Stops demoRepository demoGit "*" c)) = some 4 := by decide
  have found : LastCommit demoRepository demoGit 2 "a" {} (some 1, {}) :=
    merged ▸ lastCommit_fresh
  have found' : LastCommit demoRepository demoGit 4 "*" {} (some 4, {}) :=
    starred ▸ lastCommit_fresh
  have absent : entry demoRepository "a" 1 = noEntry := by
    funext path
    unfold entry
    split
    next under =>
      have other : path ≠ lit "b" := by
        rintro rfl
        exact absurd under (by decide)
      have tree : demoRepository.tree 1 = [(lit "b", 1)] := rfl
      rw [tree, List.lookup_cons, beq_eq_false_iff_ne.mpr other]
      rfl
    · rfl
  have same : entry demoRepository "*" 4 = entry demoRepository "*" 3 := by
    funext path
    unfold entry
    split
    next under =>
      have other : path ≠ lit "a" := by
        rintro rfl
        exact absurd under (by decide)
      have tree : demoRepository.tree 4 = [(lit "a", 2), (lit "*", 1)] := rfl
      have tree' : demoRepository.tree 3 = [(lit "a", 1), (lit "*", 1)] := rfl
      simp only [tree, tree', List.lookup_cons, beq_eq_false_iff_ne.mpr other]
    · rfl
  refine ⟨found, absent, ?_, found', same, ?_⟩
  · rintro ⟨c, ended, -, first⟩
    obtain rfl : c = 1 := Option.some.inj (Prod.mk.inj (ended.unique found)).1
    exact first.holds absent
  · rintro ⟨c, ended, -, first⟩
    obtain rfl : c = 4 := Option.some.inj (Prod.mk.inj (ended.unique found')).1
    exact first.holds same

end LastCommits
