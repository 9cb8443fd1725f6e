import Fiy.ByteStrings
import Fiy.KeyedTables
import Fiy.GuardedRuns
import Fiy.SharedLocks

/-!
# The cache of repository objects

`LocalRepo::get_repo` and `get_repos` share objects through a table of weak pointers and a
list of recently used ones. Threads interleave at lock acquisitions, accesses to the table
and drops of references. Who drops the last reference to an object erases its path from
the table, under the lock, wherever that happens. The stack of a thread says what it does
next; what it is interrupted in lies below.
-/

namespace RepoCache

open ByteStrings KeyedTables SharedLocks GuardedRuns

/-- What matters of an object. -/
structure LocalRepo where
  path : Text
  /-- made by `get_repos`, whose deleter erases the path before the destructor does -/
  deleter : Bool
  deriving DecidableEq, Repr

/-- The next step of a thread. -/
inductive Task
  /-- `get_repo` locks, for reading and then for writing -/
  | lock (mode : Mode) (path : Text)
  | find (mode : Mode) (path : Text)
  /-- unlocks between the two -/
  | unlockRead (path : Text)
  | create (path : Text)
  /-- `cache_lru_push` takes its own mutex -/
  | push (mode : Mode) (id : Nat)
  | insert (mode : Mode) (id : Nat)
  /-- destroys the elements of the list, one by one -/
  | clear (mode : Mode) (id : Nat)
  | pushed (mode : Mode)
  /-- unlocks and returns -/
  | leave (mode : Mode)
  | lockBatch (paths : List Text)
  /-- the loop of `get_repos` -/
  | batch (paths : List Text)
  | createBatch (path : Text) (paths : List Text)
  /-- the deleter and the destructor -/
  | lockErase (id : Nat) (again : Bool)
  | erase (id : Nat) (again : Bool)
  | unlockErase (id : Nat) (again : Bool)
  deriving DecidableEq, Repr

/-- How the step asks for `m_cache_mtx`. -/
def Task.requests : Task → Option Mode
  | .lock mode _ => some mode
  | .lockBatch _ | .lockErase _ _ => some .write
  | _ => none

/-- How the thread has `m_cache_mtx` before the step. -/
def Task.region : Task → Option Mode
  | .lock _ _ | .lockBatch _ | .lockErase _ _ => none
  | .find mode _ | .push mode _ | .insert mode _ | .clear mode _ | .pushed mode | .leave mode =>
    some mode
  | .unlockRead _ => some .read
  | .create _ | .batch _ | .createBatch _ _ | .erase _ _ | .unlockErase _ _ => some .write

structure State where
  /-- `m_cache`: the object whose weak pointer is stored -/
  cache : Table Text Nat
  /-- `m_cache_lru` -/
  cacheLru : List Nat
  /-- `m_cache_mtx` -/
  lock : SharedLock Nat
  /-- the thread that has `m_cache_lru_mutex` -/
  lruHolder : Option Nat
  object : Nat → LocalRepo
  /-- the number of the next object -/
  fresh : Nat
  /-- the references of the threads: thread and object -/
  handles : List (Nat × Nat)
  tasks : Nat → List Task

def start : State where
  cache := ∅
  cacheLru := []
  lock := .free
  lruHolder := none
  object := fun _ => ⟨[], false⟩
  fresh := 0
  handles := []
  tasks := fun _ => []

namespace State

/-- There is a reference to the object. -/
def Live (s : State) (id : Nat) : Prop := id ∈ s.cacheLru ∨ ∃ h ∈ s.handles, h.2 = id

instance (s : State) (id : Nat) : Decidable (s.Live id) := inferInstanceAs (Decidable (_ ∨ _))

/-- `m_cache.find`, and `lock` of the weak pointer. -/
def find (s : State) (path : Text) : Option Nat :=
  (s.cache.lookup path).filter fun id => decide (s.Live id)

def goTo (s : State) (t : Nat) (tasks : List Task) : State :=
  { s with tasks := Function.update s.tasks t tasks }

def unlock (s : State) (t : Nat) (mode : Mode) : State := { s with lock := s.lock.unlock t mode }

def take (s : State) (t id : Nat) : State := { s with handles := (t, id) :: s.handles }

/-- A new object, and the first reference to it, with what the table is then. -/
def make (s : State) (t : Nat) (path : Text) (deleter : Bool) (cache : Table Text Nat) : State :=
  { s with
    cache
    object := Function.update s.object s.fresh ⟨path, deleter⟩
    fresh := s.fresh + 1
    handles := (t, s.fresh) :: s.handles }

/-- A thread has dropped a reference. It destroys the object if that was the last one. -/
def dropped (s : State) (t id : Nat) (rest : List Task) : State :=
  if s.Live id then s.goTo t rest
  else s.goTo t (.lockErase id (s.object id).deleter :: rest)

end State

section steps
variable (max : Nat)

/-- One step of a thread; `none` while it waits. `max` is `m_lru_max_size`. -/
def runTask (s : State) (t : Nat) (rest : List Task) : Task → Option State
  | .lock mode path => (s.lock.tryLock t mode).map fun lock =>
    { s with lock }.goTo t (.find mode path :: rest)
  | .find mode path => match s.find path with
    | some id => some ((s.take t id).goTo t (.push mode id :: rest))
    | none => match mode with
      | .read => some (s.goTo t (.unlockRead path :: rest))
      | .write => some (s.goTo t (.create path :: rest))
  | .unlockRead path => some ((s.unlock t .read).goTo t (.lock .write path :: rest))
  | .create path =>
    some ((s.make t path false (s.cache.insert path s.fresh)).goTo t (.leave .write :: rest))
  | .push mode id =>
    if max = 0 then some (s.goTo t (.leave mode :: rest))
    else if s.lruHolder.isSome then none
    else some ({ s with lruHolder := some t }.goTo t (.insert mode id :: rest))
  | .insert mode id =>
    if s.cacheLru.length < max then
      some ({ s with cacheLru := s.cacheLru ++ [id] }.goTo t (.pushed mode :: rest))
    else some (s.goTo t (.clear mode id :: rest))
  | .clear mode id => match s.cacheLru with
    | [] => some ({ s with cacheLru := [id] }.goTo t (.pushed mode :: rest))
    | first :: more => some ({ s with cacheLru := more }.dropped t first (.clear mode id :: rest))
  | .pushed mode => some ({ s with lruHolder := none }.goTo t (.leave mode :: rest))
  | .leave mode => some ((s.unlock t mode).goTo t rest)
  | .lockBatch paths => (s.lock.tryLock t .write).map fun lock =>
    { s with lock }.goTo t (.batch paths :: rest)
  | .batch [] => some (s.goTo t (.leave .write :: rest))
  | .batch (path :: paths) => match s.find path with
    | some id => some ((s.take t id).goTo t (.batch paths :: rest))
    | none => some (s.goTo t (.createBatch path paths :: rest))
  | .createBatch path paths =>
    some ((s.make t path true (emplace s.cache path s.fresh).2).goTo t (.batch paths :: rest))
  | .lockErase id again => (s.lock.tryLock t .write).map fun lock =>
    { s with lock }.goTo t (.erase id again :: rest)
  | .erase id again =>
    some ({ s with cache := s.cache.erase (s.object id).path }.goTo t (.unlockErase id again :: rest))
  | .unlockErase id again =>
    some ((s.unlock t .write).goTo t (if again then .lockErase id false :: rest else rest))

inductive Event
  | getRepo (t : Nat) (path : Text)
  | getRepos (t : Nat) (paths : List Text)
  /-- a caller drops a reference -/
  | drop (t id : Nat)
  /-- a caller copies a reference for a thread -/
  | share (t u id : Nat)
  /-- the constructor throws; references in the vector are left for the thread to drop -/
  | throws (t : Nat)
  | run (t : Nat)
  deriving DecidableEq, Repr

/-- Callers do something while they are in none of the functions. -/
def step (s : State) : Event → Option State
  | .getRepo t path => if s.tasks t = [] then some (s.goTo t [.lock .read path]) else none
  | .getRepos t paths => if s.tasks t = [] then some (s.goTo t [.lockBatch paths]) else none
  | .drop t id =>
    if s.tasks t = [] ∧ (t, id) ∈ s.handles then
      some ({ s with handles := s.handles.erase (t, id) }.dropped t id [])
    else none
  | .share t u id => if s.tasks t = [] ∧ (t, id) ∈ s.handles then some (s.take u id) else none
  | .throws t => match s.tasks t with
    | .create _ :: rest | .createBatch _ _ :: rest => some (s.goTo t (.leave .write :: rest))
    | _ => none
  | .run t => match s.tasks t with
    | [] => none
    | task :: rest => runTask max s t rest task

end steps

/-- The cache does what it is for: one object for a path, which is found while there is a
reference to it, and nobody waits for a lock that he has. -/
structure Coherent (s : State) : Prop where
  one : ∀ id other, s.Live id → s.Live other → (s.object id).path = (s.object other).path →
    id = other
  mapped : ∀ id, s.Live id → s.cache.lookup (s.object id).path = some id
  alone : ∀ t task rest, s.tasks t = task :: rest → task.requests ≠ none → ¬ s.lock.Holds t

/-- A step is harmless unless the purge of the list drops a last reference, `get_repos`
creates an object while the pointer to the one before is still there, or the path of an
object is erased after a later object has taken it. -/
def Harmless (s : State) : Event → Prop
  | .run t => match s.tasks t with
    | .clear _ _ :: _ => ∀ first more, s.cacheLru = first :: more →
      { s with cacheLru := more }.Live first
    | .createBatch path _ :: _ => s.cache.lookup path = none
    | .erase id _ :: _ => ∀ other, s.cache.lookup (s.object id).path = some other → ¬ s.Live other
    | _ => True
  | _ => True

/-! ## The invariant -/

def regionOf : List Task → Option Mode
  | [] => none
  | task :: _ => task.region

def State.region (s : State) (t : Nat) : Option Mode := regionOf (s.tasks t)

/-- What a thread relies on before a step: the object it pushes is its own, and there is no
object yet where it creates one. -/
def State.Relies (s : State) (t : Nat) : Task → Prop
  | .push _ id | .insert _ id | .clear _ id => (t, id) ∈ s.handles
  | .create path | .createBatch path _ => ∀ id, s.Live id → (s.object id).path ≠ path
  | _ => True

structure Stored (s : State) : Prop where
  mapped : ∀ id, s.Live id → s.cache.lookup (s.object id).path = some id
  known : ∀ id, s.Live id → id < s.fresh
  keyed : ∀ path id, s.cache.lookup path = some id → id < s.fresh ∧ (s.object id).path = path

structure Good (s : State) : Prop where
  /-- no destruction interrupts anything -/
  single : ∀ t, (s.tasks t).length ≤ 1
  agrees : s.lock.Agrees s.region
  stored : Stored s
  relies : ∀ t task rest, s.tasks t = task :: rest → s.Relies t task

theorem good_start : Good start where
  single := fun _ => Nat.zero_le 1
  agrees := SharedLock.agrees_free
  stored := by
    refine ⟨?_, ?_, ?_⟩
    · rintro id (listed | ⟨h, held, _⟩)
      · cases listed
      · cases held
    · rintro id (listed | ⟨h, held, _⟩)
      · cases listed
      · cases held
    · intro path id found
      cases found
  relies := by
    intro t task rest here
    cases here

section frames
variable {s s₁ : State} {t : Nat}

theorem tasks_goTo (tasks : List Task) (u : Nat) :
    (s.goTo t tasks).tasks u = if u = t then tasks else s.tasks u := by
  by_cases same : u = t <;> simp [State.goTo, same]

theorem region_goTo (tasks : List Task) :
    (s.goTo t tasks).region = Function.update s.region t (regionOf tasks) := by
  funext u
  by_cases same : u = t
  · subst same
    simp [State.region, State.goTo]
  · simp [State.region, State.goTo, same]

theorem region_of_tasks {task : Task} {rest : List Task} (here : s.tasks t = task :: rest) :
    s.region t = task.region := by
  rw [State.region, here]
  rfl

theorem region_of_idle (idle : s.tasks t = []) : s.region t = none := by
  rw [State.region, idle]
  rfl

theorem Good.rest_nil (good : Good s) {task : Task} {rest : List Task}
    (here : s.tasks t = task :: rest) : rest = [] := by
  have bound := good.single t
  rw [here, List.length_cons] at bound
  exact List.eq_nil_of_length_eq_zero (by omega)

/-- The invariant of a state is put together from its parts. -/
theorem Good.goTo (good : Good s) {tasks : List Task} (same : s₁.tasks = s.tasks)
    (short : tasks.length ≤ 1)
    (agrees : s₁.lock.Agrees (Function.update s.region t (regionOf tasks))) (stored : Stored s₁)
    (mine : ∀ task rest, tasks = task :: rest → s₁.Relies t task)
    (others : ∀ u task rest, u ≠ t → s.tasks u = task :: rest → s₁.Relies u task) :
    Good (s₁.goTo t tasks) where
  single := by
    intro u
    by_cases own : u = t
    · subst own
      simpa [State.goTo] using short
    · simpa [State.goTo, own, same] using good.single u
  agrees := by
    rw [region_goTo]
    have regions : s₁.region = s.region := by
      funext u
      rw [State.region, State.region, same]
    rw [regions]
    exact agrees
  stored := ⟨stored.mapped, stored.known, stored.keyed⟩
  relies := by
    intro u task rest here
    by_cases own : u = t
    · subst own
      rw [tasks_goTo, if_pos rfl] at here
      have relied := mine task rest here
      cases task <;> exact relied
    · rw [tasks_goTo, if_neg own, same] at here
      have relied := others u task rest own here
      cases task <;> exact relied

/-- A thread takes or drops references to objects that there are, and leaves those of the
other threads alone. -/
structure Quiet (s s₁ : State) (t : Nat) : Prop where
  object : s₁.object = s.object
  fresh : s₁.fresh = s.fresh
  tasks : s₁.tasks = s.tasks
  live : ∀ id, s₁.Live id → s.Live id
  handles : ∀ u id, u ≠ t → (u, id) ∈ s.handles → (u, id) ∈ s₁.handles

theorem Quiet.refl (s : State) (t : Nat) : Quiet s s t :=
  ⟨rfl, rfl, rfl, fun _ live => live, fun _ _ _ kept => kept⟩

theorem Quiet.relies (quiet : Quiet s s₁ t) {u : Nat} (other : u ≠ t) {task : Task}
    (relied : s.Relies u task) : s₁.Relies u task := by
  cases task with
  | push mode id => exact quiet.handles u id other relied
  | insert mode id => exact quiet.handles u id other relied
  | clear mode id => exact quiet.handles u id other relied
  | create path =>
    intro id live
    rw [quiet.object]
    exact relied id (quiet.live id live)
  | createBatch path paths =>
    intro id live
    rw [quiet.object]
    exact relied id (quiet.live id live)
  | _ => trivial

theorem Quiet.stored (quiet : Quiet s s₁ t) (cache : s₁.cache = s.cache) (stored : Stored s) :
    Stored s₁ := by
  refine ⟨?_, ?_, ?_⟩
  · intro id live
    rw [cache, quiet.object]
    exact stored.mapped id (quiet.live id live)
  · intro id live
    rw [quiet.fresh]
    exact stored.known id (quiet.live id live)
  · intro path id found
    rw [cache] at found
    rw [quiet.fresh, quiet.object]
    exact stored.keyed path id found

/-- A step that takes and drops references only. -/
theorem Good.quiet (good : Good s) (quiet : Quiet s s₁ t) (cache : s₁.cache = s.cache)
    {tasks : List Task} (short : tasks.length ≤ 1)
    (agrees : s₁.lock.Agrees (Function.update s.region t (regionOf tasks)))
    (mine : ∀ task rest, tasks = task :: rest → s₁.Relies t task) : Good (s₁.goTo t tasks) :=
  good.goTo quiet.tasks short agrees (quiet.stored cache good.stored) mine
    fun u task rest other there => quiet.relies other (good.relies u task rest there)

theorem quiet_take {u id : Nat} (live : s.Live id) : Quiet s (s.take u id) t := by
  refine ⟨rfl, rfl, rfl, ?_, ?_⟩
  · rintro other (listed | ⟨h, held, rfl⟩)
    · exact Or.inl listed
    · rcases List.mem_cons.mp held with rfl | held
      · exact live
      · exact Or.inr ⟨h, held, rfl⟩
  · intro u other _ held
    exact List.mem_cons_of_mem _ held

theorem live_of_handle {id : Nat} (held : (t, id) ∈ s.handles) : s.Live id :=
  Or.inr ⟨(t, id), held, rfl⟩

/-- Adding an own object to the list. -/
theorem quiet_append {id : Nat} (held : (t, id) ∈ s.handles) (lru : List Nat)
    (same : ∀ other ∈ lru, other ∈ s.cacheLru) :
    Quiet s { s with cacheLru := lru ++ [id] } t := by
  refine ⟨rfl, rfl, rfl, ?_, fun _ _ _ kept => kept⟩
  rintro other (listed | there)
  · rcases List.mem_append.mp listed with old | new
    · exact Or.inl (same other old)
    · rw [List.mem_singleton.mp new]
      exact live_of_handle held
  · exact Or.inr there

theorem quiet_clear {first : Nat} {more : List Nat} (lru : s.cacheLru = first :: more) :
    Quiet s { s with cacheLru := more } t := by
  refine ⟨rfl, rfl, rfl, ?_, fun _ _ _ kept => kept⟩
  rintro other (listed | there)
  · exact Or.inl (lru ▸ List.mem_cons_of_mem first listed)
  · exact Or.inr there

theorem quiet_mutex (holder : Option Nat) : Quiet s { s with lruHolder := holder } t :=
  ⟨rfl, rfl, rfl, fun _ live => live, fun _ _ _ kept => kept⟩

theorem quiet_drop (id : Nat) : Quiet s { s with handles := s.handles.erase (t, id) } t := by
  refine ⟨rfl, rfl, rfl, ?_, ?_⟩
  · rintro other (listed | ⟨h, held, rfl⟩)
    · exact Or.inl listed
    · exact Or.inr ⟨h, List.mem_of_mem_erase held, rfl⟩
  · intro u other different held
    refine (List.mem_erase_of_ne ?_).mpr held
    intro same
    exact different (congrArg Prod.fst same)

/-- What is found is referenced, and stored under its path. -/
theorem find_eq_some {path : Text} {id : Nat} (found : s.find path = some id) : s.Live id := by
  have := (Option.filter_eq_some_iff.mp found).2
  simpa using this

/-- What is not found is not there. -/
theorem absent_of_find (stored : Stored s) {path : Text} (missing : s.find path = none) :
    ∀ id, s.Live id → (s.object id).path ≠ path := by
  rintro id live rfl
  rw [State.find, stored.mapped id live] at missing
  simp [live] at missing

end frames

/-! ## What creates and erases -/

section changes
variable {s : State} {t : Nat}

theorem live_make {path : Text} {deleter : Bool} {cache : Table Text Nat} {id : Nat} :
    (s.make t path deleter cache).Live id ↔ id = s.fresh ∨ s.Live id := by
  constructor
  · rintro (listed | ⟨h, held, rfl⟩)
    · exact Or.inr (Or.inl listed)
    · rcases List.mem_cons.mp held with rfl | held
      · exact Or.inl rfl
      · exact Or.inr (Or.inr ⟨h, held, rfl⟩)
  · rintro (rfl | listed | ⟨h, held, rfl⟩)
    · exact Or.inr ⟨(t, s.fresh), List.mem_cons_self, rfl⟩
    · exact Or.inl listed
    · exact Or.inr ⟨h, List.mem_cons_of_mem _ held, rfl⟩

theorem object_make_of_lt (path : Text) (deleter : Bool) (cache : Table Text Nat) {id : Nat}
    (old : id < s.fresh) : (s.make t path deleter cache).object id = s.object id :=
  Function.update_of_ne (Nat.ne_of_lt old) _ _

theorem object_make_new (path : Text) (deleter : Bool) (cache : Table Text Nat) :
    (s.make t path deleter cache).object s.fresh = ⟨path, deleter⟩ := Function.update_self _ _ _

/-- An object for a path without one is stored over whatever is there. -/
theorem Stored.make (stored : Stored s) {path : Text} (deleter : Bool)
    (absent : ∀ id, s.Live id → (s.object id).path ≠ path) :
    Stored (s.make t path deleter (s.cache.insert path s.fresh)) := by
  have lookup : ∀ other, (s.make t path deleter (s.cache.insert path s.fresh)).cache.lookup other =
      if other = path then some s.fresh else s.cache.lookup other :=
    fun other => lookup_insert_eq _ _ other _
  refine ⟨?_, ?_, ?_⟩
  · intro id live
    rw [lookup]
    rcases live_make.mp live with rfl | live
    · rw [object_make_new, if_pos rfl]
    · rw [object_make_of_lt _ _ _ (stored.known id live), if_neg (absent id live)]
      exact stored.mapped id live
  · intro id live
    rcases live_make.mp live with rfl | live
    · exact Nat.lt_succ_self _
    · exact Nat.lt_succ_of_lt (stored.known id live)
  · intro other id found
    rw [lookup] at found
    split at found
    next same =>
      cases found
      rw [object_make_new]
      exact ⟨Nat.lt_succ_self _, same.symm⟩
    · obtain ⟨old, named⟩ := stored.keyed other id found
      rw [object_make_of_lt _ _ _ old]
      exact ⟨Nat.lt_succ_of_lt old, named⟩

/-- Nobody else creates an object or looks for one to create at that time. -/
theorem Good.relies_make (good : Good s) (writes : s.region t = some .write) (path : Text)
    (deleter : Bool) (cache : Table Text Nat) {u : Nat} {task : Task} {rest : List Task}
    (other : u ≠ t) (there : s.tasks u = task :: rest) :
    (s.make t path deleter cache).Relies u task := by
  have relied := good.relies u task rest there
  have elsewhere : task.region ≠ some .write := by
    intro section_
    exact other (good.agrees.writer_unique (by rw [region_of_tasks there, section_]) writes)
  cases task with
  | push mode id => exact List.mem_cons_of_mem _ relied
  | insert mode id => exact List.mem_cons_of_mem _ relied
  | clear mode id => exact List.mem_cons_of_mem _ relied
  | create path => exact absurd rfl elsewhere
  | createBatch path paths => exact absurd rfl elsewhere
  | _ => trivial

/-- Erasing the path of an object that nobody refers to, as long as no other object has it. -/
theorem Stored.erase (stored : Stored s) {path : Text}
    (unused : ∀ other, s.cache.lookup path = some other → ¬ s.Live other) :
    Stored { s with cache := s.cache.erase path } := by
  refine ⟨?_, stored.known, ?_⟩
  · intro id live
    have mapped := stored.mapped id live
    change (s.cache.erase path).lookup (s.object id).path = some id
    rw [lookup_erase_eq, if_neg]
    · exact mapped
    · intro same
      exact unused id (same ▸ mapped) live
  · intro other id found
    change (s.cache.erase path).lookup other = some id at found
    rw [lookup_erase_eq] at found
    split at found
    · cases found
    · exact stored.keyed other id found

end changes

/-! ## Steps -/

section steps
variable {max : Nat} {s s' : State} {t : Nat}

/-- Who asks for the lock is in no section under it, and relies on nothing. -/
theorem region_of_requests {task : Task} (asks : task.requests ≠ none) : task.region = none := by
  cases task <;> first | rfl | exact absurd rfl asks

theorem relies_of_requests {task : Task} (asks : task.requests ≠ none) : s.Relies t task := by
  cases task <;> trivial

/-- A thread goes on, with the lock as it is. -/
theorem Good.stays (good : Good s) {s₁ : State} {task next : Task} {rest : List Task}
    (here : s.tasks t = task :: rest) (quiet : Quiet s s₁ t) (cache : s₁.cache = s.cache)
    (lock : s₁.lock = s.lock) (region : next.region = task.region) (relied : s₁.Relies t next) :
    Good (s₁.goTo t (next :: rest)) := by
  obtain rfl := good.rest_nil here
  refine good.quiet quiet cache (Nat.le_refl 1) ?_ ?_
  · rw [lock]
    exact good.agrees.stay ((region_of_tasks here).trans region.symm)
  · intro other rest same
    cases same
    exact relied

/-- A thread takes the lock. -/
theorem Good.locks (good : Good s) {task next : Task} {rest : List Task} {mode : Mode}
    {lock : SharedLock Nat} (here : s.tasks t = task :: rest) (outside : task.region = none)
    (taken : s.lock.tryLock t mode = some lock) (inside : next.region = some mode)
    (relied : s.Relies t next) : Good ({ s with lock }.goTo t (next :: rest)) := by
  obtain rfl := good.rest_nil here
  have quiet : Quiet s { s with lock } t := ⟨rfl, rfl, rfl, fun _ live => live, fun _ _ _ kept => kept⟩
  refine good.quiet quiet rfl (Nat.le_refl 1) ?_ ?_
  · have agrees := good.agrees.lock ((region_of_tasks here).trans outside) taken
    rwa [← inside] at agrees
  · intro other rest same
    cases same
    cases next <;> exact relied

/-- A thread gives the lock back, and may have something left to do. -/
theorem Good.unlocks (good : Good s) {task : Task} {rest tasks : List Task} {mode : Mode}
    (here : s.tasks t = task :: rest) (inside : task.region = some mode) (short : tasks.length ≤ 1)
    (outside : ∀ next ∈ tasks, next.requests ≠ none) : Good ((s.unlock t mode).goTo t tasks) := by
  have quiet : Quiet s (s.unlock t mode) t :=
    ⟨rfl, rfl, rfl, fun _ live => live, fun _ _ _ kept => kept⟩
  refine good.quiet quiet rfl short ?_ ?_
  · have region : regionOf tasks = none := by
      cases tasks with
      | nil => rfl
      | cons next more => exact region_of_requests (outside next List.mem_cons_self)
    rw [region]
    exact good.agrees.unlock ((region_of_tasks here).trans inside)
  · intro next more same
    exact relies_of_requests (outside next (same ▸ List.mem_cons_self))

theorem Good.unlocks_to (good : Good s) {task next : Task} {rest : List Task} {mode : Mode}
    (here : s.tasks t = task :: rest) (inside : task.region = some mode)
    (outside : next.requests ≠ none) : Good ((s.unlock t mode).goTo t [next]) := by
  refine good.unlocks here inside (Nat.le_refl 1) ?_
  intro other listed
  exact List.mem_singleton.mp listed ▸ outside

/-- A thread creates an object for a path that has none, while it has the lock for writing. -/
theorem Good.makes (good : Good s) {task next : Task} {rest : List Task} {path : Text}
    {deleter : Bool} (here : s.tasks t = task :: rest) (writes : task.region = some .write)
    (absent : ∀ id, s.Live id → (s.object id).path ≠ path) (region : next.region = some .write)
    (relied : (s.make t path deleter (s.cache.insert path s.fresh)).Relies t next) :
    Good ((s.make t path deleter (s.cache.insert path s.fresh)).goTo t (next :: rest)) := by
  obtain rfl := good.rest_nil here
  have here_ := region_of_tasks here
  refine good.goTo rfl (Nat.le_refl 1) ?_ (good.stored.make deleter absent) ?_ ?_
  · exact good.agrees.stay (here_.trans (writes.trans region.symm))
  · intro other more same
    cases same
    exact relied
  · intro u other more different there
    exact good.relies_make (here_.trans writes) path deleter _ different there

/-- Dropping a reference that is not the last one, or outside of all sections. -/
theorem Good.drops (good : Good s) {s₁ : State} (quiet : Quiet s s₁ t) (cache : s₁.cache = s.cache)
    (lock : s₁.lock = s.lock) {id : Nat} {rest : List Task} (short : rest.length ≤ 1)
    (region : s.region t = regionOf rest) (relied : ∀ task more, rest = task :: more → s₁.Relies t task)
    (harmless : s₁.Live id ∨ rest = []) : Good (s₁.dropped t id rest) := by
  unfold State.dropped
  split
  · refine good.quiet quiet cache short ?_ relied
    rw [lock]
    exact good.agrees.stay region
  next gone =>
    obtain rfl := harmless.resolve_left gone
    refine good.quiet quiet cache (Nat.le_refl 1) ?_ ?_
    · rw [lock]
      exact good.agrees.stay region
    · intro task more same
      cases same
      trivial

/-- A function is called. -/
theorem Good.begins (good : Good s) {task : Task} (idle : s.tasks t = [])
    (asks : task.requests ≠ none) : Good (s.goTo t [task]) := by
  refine good.quiet (Quiet.refl s t) rfl (Nat.le_refl 1) ?_ ?_
  · exact good.agrees.stay ((region_of_idle idle).trans (region_of_requests asks).symm)
  · intro next rest same
    cases same
    exact relies_of_requests asks

theorem good_runTask (good : Good s) {task : Task} {rest : List Task}
    (here : s.tasks t = task :: rest) (harmless : Harmless s (.run t))
    (moved : runTask max s t rest task = some s') : Good s' := by
  have nil := good.rest_nil here
  have relied := good.relies t task rest here
  cases task with
  | lock mode path =>
    obtain ⟨lock, taken, rfl⟩ := Option.map_eq_some_iff.mp moved
    exact good.locks here rfl taken rfl trivial
  | find mode path =>
    simp only [runTask] at moved
    cases found : s.find path with
    | some id =>
      simp only [found] at moved
      cases moved
      exact good.stays here (quiet_take (find_eq_some found)) rfl rfl rfl List.mem_cons_self
    | none =>
      simp only [found] at moved
      cases mode with
      | read =>
        cases moved
        exact good.stays here (Quiet.refl s t) rfl rfl rfl trivial
      | write =>
        cases moved
        exact good.stays here (Quiet.refl s t) rfl rfl rfl (absent_of_find good.stored found)
  | unlockRead path =>
    cases moved
    subst nil
    exact good.unlocks_to here rfl (Option.some_ne_none _)
  | create path =>
    cases moved
    exact good.makes here rfl relied rfl trivial
  | push mode id =>
    simp only [runTask] at moved
    split at moved
    · cases moved
      exact good.stays here (Quiet.refl s t) rfl rfl rfl trivial
    · split at moved
      · cases moved
      · cases moved
        exact good.stays here (quiet_mutex _) rfl rfl rfl relied
  | insert mode id =>
    simp only [runTask] at moved
    split at moved
    · cases moved
      exact good.stays here (quiet_append relied s.cacheLru fun _ listed => listed) rfl rfl rfl trivial
    · cases moved
      exact good.stays here (Quiet.refl s t) rfl rfl rfl relied
  | clear mode id =>
    simp only [runTask] at moved
    split at moved
    · cases moved
      exact good.stays here (quiet_append relied [] fun _ listed => nomatch listed) rfl rfl rfl trivial
    next first more lru =>
      cases moved
      subst nil
      have kept : { s with cacheLru := more }.Live first := by
        simp only [Harmless, here] at harmless
        exact harmless first more lru
      refine good.drops (quiet_clear lru) rfl rfl (Nat.le_refl 1) (region_of_tasks here) ?_
        (Or.inl kept)
      intro task rest same
      cases same
      exact relied
  | pushed mode =>
    cases moved
    exact good.stays here (quiet_mutex _) rfl rfl rfl trivial
  | leave mode =>
    cases moved
    subst nil
    exact good.unlocks here rfl (Nat.zero_le 1) fun next listed => nomatch listed
  | lockBatch paths =>
    obtain ⟨lock, taken, rfl⟩ := Option.map_eq_some_iff.mp moved
    exact good.locks here rfl taken rfl trivial
  | batch paths =>
    cases paths with
    | nil =>
      cases moved
      exact good.stays here (Quiet.refl s t) rfl rfl rfl trivial
    | cons path paths =>
      simp only [runTask] at moved
      cases found : s.find path with
      | some id =>
        simp only [found] at moved
        cases moved
        exact good.stays here (quiet_take (find_eq_some found)) rfl rfl rfl trivial
      | none =>
        simp only [found] at moved
        cases moved
        exact good.stays here (Quiet.refl s t) rfl rfl rfl (absent_of_find good.stored found)
  | createBatch path paths =>
    simp only [Harmless, here] at harmless
    have vacant : path ∉ s.cache := AList.lookup_eq_none.mp harmless
    simp only [runTask, emplace_of_notMem vacant] at moved
    cases moved
    exact good.makes here rfl relied rfl trivial
  | lockErase id again =>
    obtain ⟨lock, taken, rfl⟩ := Option.map_eq_some_iff.mp moved
    exact good.locks here rfl taken rfl trivial
  | erase id again =>
    cases moved
    subst nil
    simp only [Harmless, here] at harmless
    refine good.goTo rfl (Nat.le_refl 1) ?_ (good.stored.erase harmless) ?_ ?_
    · exact good.agrees.stay (region_of_tasks here)
    · intro task rest same
      cases same
      trivial
    · intro u task rest _ there
      have kept := good.relies u task rest there
      cases task <;> exact kept
  | unlockErase id again =>
    cases moved
    subst nil
    cases again with
    | false => exact good.unlocks here rfl (Nat.zero_le 1) fun next listed => nomatch listed
    | true => exact good.unlocks_to here rfl (Option.some_ne_none _)

theorem good_step (good : Good s) {e : Event} (harmless : Harmless s e)
    (moved : step max s e = some s') : Good s' := by
  cases e with
  | getRepo t path =>
    simp only [step] at moved
    split at moved
    next idle =>
      cases moved
      exact good.begins idle (Option.some_ne_none _)
    · cases moved
  | getRepos t paths =>
    simp only [step] at moved
    split at moved
    next idle =>
      cases moved
      exact good.begins idle (Option.some_ne_none _)
    · cases moved
  | drop t id =>
    simp only [step] at moved
    split at moved
    next can =>
      cases moved
      refine good.drops (quiet_drop id) rfl rfl (Nat.zero_le 1) (region_of_idle can.1) ?_
        (Or.inr rfl)
      intro task rest same
      cases same
    · cases moved
  | share t u id =>
    simp only [step] at moved
    split at moved
    next can =>
      cases moved
      have goes : Good ((s.take u id).goTo t []) :=
        good.quiet (quiet_take (live_of_handle can.2)) rfl (Nat.zero_le 1)
          (good.agrees.stay (region_of_idle can.1)) fun task rest same => nomatch same
      have same : (s.take u id).goTo t [] = s.take u id := by
        rw [State.goTo, ← can.1]
        exact congrArg (fun tasks => { s.take u id with tasks }) (Function.update_eq_self t s.tasks)
      rwa [same] at goes
    · cases moved
  | throws t =>
    simp only [step] at moved
    split at moved
    next here =>
      cases moved
      exact good.stays here (Quiet.refl s t) rfl rfl rfl trivial
    next here =>
      cases moved
      exact good.stays here (Quiet.refl s t) rfl rfl rfl trivial
    · cases moved
  | run t =>
    simp only [step] at moved
    split at moved
    · cases moved
    next task rest here => exact good_runTask good here harmless moved

theorem coherent_of_good (good : Good s) : Coherent s where
  one := by
    intro id other live also same
    have first := good.stored.mapped id live
    rw [same, good.stored.mapped other also] at first
    exact (Option.some.inj first).symm
  mapped := good.stored.mapped
  alone := by
    intro t task rest here asks holds
    have inside := (SharedLock.Agrees.holds_iff good.agrees).mp holds
    exact inside ((region_of_tasks here).trans (region_of_requests asks))

/-- Who drops a last reference during the purge asks for the lock he has. -/
theorem not_coherent_clear (good : Good s) {mode : Mode} {id first : Nat} {more : List Nat}
    {rest : List Task} (here : s.tasks t = .clear mode id :: rest)
    (last : ¬ { s with cacheLru := more }.Live first) :
    ¬ Coherent ({ s with cacheLru := more }.dropped t first (.clear mode id :: rest)) := by
  rw [State.dropped, if_neg last]
  intro coherent
  have holds : s.lock.Holds t := by
    rw [SharedLock.Agrees.holds_iff good.agrees, region_of_tasks here]
    exact Option.some_ne_none _
  refine coherent.alone t (.lockErase first (s.object first).deleter) (.clear mode id :: rest) ?_
    (Option.some_ne_none _) holds
  rw [tasks_goTo, if_pos rfl]

/-- The new object is not what the table has. -/
theorem not_coherent_createBatch (good : Good s) {path : Text} {old : Nat} {tasks : List Task}
    (taken : s.cache.lookup path = some old) :
    ¬ Coherent ((s.make t path true (emplace s.cache path s.fresh).2).goTo t tasks) := by
  have listed : path ∈ s.cache := by
    rw [← AList.lookup_isSome, taken]
    rfl
  rw [emplace_of_mem listed]
  have live : (s.make t path true s.cache).Live s.fresh := live_make.mpr (Or.inl rfl)
  intro coherent
  have mapped : s.cache.lookup ((s.make t path true s.cache).object s.fresh).path = some s.fresh :=
    coherent.mapped s.fresh live
  rw [object_make_new, taken] at mapped
  cases mapped
  exact absurd (good.stored.keyed path _ taken).1 (Nat.lt_irrefl _)

/-- The later object is not found any more. -/
theorem not_coherent_erase (good : Good s) {path : Text} {other : Nat} {tasks : List Task}
    (there : s.cache.lookup path = some other) (live : s.Live other) :
    ¬ Coherent ({ s with cache := s.cache.erase path }.goTo t tasks) := by
  intro coherent
  have mapped : (s.cache.erase path).lookup (s.object other).path = some other :=
    coherent.mapped other live
  rw [(good.stored.keyed path other there).2, lookup_erase_eq, if_pos rfl] at mapped
  cases mapped

/-- Each of the three steps does harm at once. -/
theorem harmless_of_coherent (good : Good s) {e : Event} (moved : step max s e = some s')
    (coherent : Coherent s') : Harmless s e := by
  cases e with
  | run t =>
    simp only [step] at moved
    simp only [Harmless]
    split at moved
    · cases moved
    next task rest here =>
      rw [here]
      cases task with
      | clear mode id =>
        intro first more lru
        simp only [runTask, lru] at moved
        cases moved
        by_contra last
        exact not_coherent_clear good here last coherent
      | createBatch path paths =>
        cases moved
        cases taken : s.cache.lookup path with
        | none => exact taken
        | some old => exact absurd coherent (not_coherent_createBatch good taken)
      | erase id again =>
        cases moved
        intro other there live
        exact not_coherent_erase good there live coherent
      | _ => trivial
  | _ => trivial

end steps

/-- Along any interleaving the cache is coherent exactly as long as all steps are harmless. -/
theorem coherent_iff (max : Nat) (es : List Event) :
    EveryState (step max) Coherent start es ↔ EveryStep (step max) Harmless start es :=
  everyState_iff (fun _ => coherent_of_good) (fun _ _ _ good moved harmless =>
    good_step good harmless moved) (fun _ _ _ good moved coherent =>
    harmless_of_coherent good moved coherent) good_start es

/-! ## Three runs -/

def runs (t steps : Nat) : List Event := List.replicate steps (.run t)

/-- A thread gets a new object by `get_repo`. -/
def creates (t : Nat) (path : Text) : List Event := .getRepo t path :: runs t 7

/-- The second object of a path is created before the destructor of the first one erases
it, and a third one after that. -/
def lateErase : List Event :=
  creates 0 "a/x" ++ [.drop 0 0] ++ creates 1 "a/x" ++ runs 0 3 ++ creates 2 "a/x"

/-- `get_repos` finds the pointer to the first object, which nobody refers to any more. -/
def staleEntry : List Event :=
  creates 0 "a/x" ++ [.drop 0 0, .getRepos 1 ["a/x"]] ++ runs 1 3

/-- The list has the last reference to the first object when the second one is pushed. -/
def purge : List Event :=
  creates 0 "a/x" ++ [.getRepo 0 "a/x"] ++ runs 0 6 ++ [.drop 0 0, .drop 0 0] ++
    creates 0 "a/y" ++ [.getRepo 0 "a/y"] ++ runs 0 5

/-- Two objects of one path, an object that is not found, and a thread that waits for the
lock it has. -/
theorem cache_not_coherent :
    ((runFrom (step 30) start lateErase).any fun s =>
      s.Live 1 ∧ s.Live 2 ∧ (s.object 1).path = (s.object 2).path) = true ∧
    ¬ EveryState (step 30) Coherent start lateErase ∧
    ((runFrom (step 30) start staleEntry).any fun s =>
      s.Live 1 ∧ s.cache.lookup (s.object 1).path = some 0) = true ∧
    ¬ EveryState (step 30) Coherent start staleEntry ∧
    ((runFrom (step 1) start purge).any fun s =>
      (s.tasks 0).head? = some (.lockErase 0 false) ∧ s.lock.Holds 0) = true ∧
    ¬ EveryState (step 1) Coherent start purge := by
  have late : ((runFrom (step 30) start lateErase).any fun s =>
      s.Live 1 ∧ s.Live 2 ∧ (s.object 1).path = (s.object 2).path) = true := by decide +kernel
  have stale : ((runFrom (step 30) start staleEntry).any fun s =>
      s.Live 1 ∧ s.cache.lookup (s.object 1).path = some 0) = true := by decide +kernel
  have locked : ((runFrom (step 1) start purge).any fun s =>
      (s.tasks 0).head? = some (.lockErase 0 false) ∧ s.lock.Holds 0) = true := by decide +kernel
  refine ⟨late, ?_, stale, ?_, locked, ?_⟩
  · intro every
    obtain ⟨s, ran, bad⟩ := (Option.any_eq_true _ _).mp late
    obtain ⟨first, second, same⟩ := of_decide_eq_true bad
    exact absurd ((every.last ran).one 1 2 first second same) (by decide)
  · intro every
    obtain ⟨s, ran, bad⟩ := (Option.any_eq_true _ _).mp stale
    obtain ⟨live, found⟩ := of_decide_eq_true bad
    have mapped := (every.last ran).mapped 1 live
    rw [found] at mapped
    exact absurd mapped (by decide)
  · intro every
    obtain ⟨s, ran, bad⟩ := (Option.any_eq_true _ _).mp locked
    obtain ⟨top, holds⟩ := of_decide_eq_true bad
    obtain ⟨rest, here⟩ := List.head?_eq_some_iff.mp top
    exact (every.last ran).alone 0 _ rest here (Option.some_ne_none _) holds

end RepoCache
