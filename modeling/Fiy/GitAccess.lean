import Fiy.GitSearch

/-!
# Access levels of repositories

A local repository has a row and grants. `LocalRepo::can_access` decides from the cached
visibility and the grants, `BasicRepo::can_access_local` from the row. Where a visibility
refuses to read without a look at the grants, a higher level can be had and this one not;
and the two functions differ about the owner, the other instances and the grants.
-/

namespace GitAccess

open ByteStrings ModLibrary GitRepos GitSearch

/-! ## The tables as they are read -/

/-- The row of a name. The names are unique. -/
def lookup (t : Tables) (owner name : Text) : Option (Int × RepoRow) :=
  t.repos.find? fun e => e.2.userName = owner ∧ e.2.repoName = name

/-- The columns of a row as `LocalRepo` has them. -/
def columns (e : Int × RepoRow) : RepoColumns where
  description := e.2.description.getD []
  visibility := getInt e.2.visibility
  createTs := e.2.createTs
  id := getInt e.1

/-- The statements of the access checks, on tables. -/
def reading (t : Tables) (b : Backend) : Backend :=
  { b with
    selectRepo owner name := .ok ((lookup t owner name).map columns)
    selectForkOf path := .ok <|
      (t.forks.find? fun fork => fork.toRepoPath = path).map ForkRow.fromRepoPath
    selectLevels path user := .ok <|
      (t.access.filter fun grant => grant.repoPath = path ∧ grant.userName = user).map
        fun grant => getInt grant.level }

/-- The table grants this level, or a higher one. -/
def Granted (t : Tables) (path user : Text) (min : Access) : Prop :=
  ∃ grant ∈ t.access, (grant.repoPath = path ∧ grant.userName = user) ∧
    min.level ≤ getInt grant.level

instance (t : Tables) (path user : Text) (min : Access) : Decidable (Granted t path user min) :=
  List.decidableBEx _ t.access

theorem Granted.lower {t : Tables} {path user : Text} {low high : Access}
    (granted : Granted t path user high) (le : low.level ≤ high.level) :
    Granted t path user low := by
  obtain ⟨grant, mem, names, level⟩ := granted
  exact ⟨grant, mem, names, Int.le_trans le level⟩

variable (t : Tables) (b : Backend)

/-- The search of the grants. -/
theorem userCanAccessLocal_reading (repo : LocalRepo) (min : Access) (user domain : Option Text) :
    userCanAccessLocal (reading t b) repo min user domain =
      .ok (decide (Granted t repo.path (userStr user domain) min)) := by
  have search : ((t.access.filter fun grant => grant.repoPath = repo.path ∧
      grant.userName = userStr user domain).map fun grant => getInt grant.level).any
        (fun level => min.level ≤ level) =
      decide (Granted t repo.path (userStr user domain) min) := by
    rw [Bool.eq_iff_iff, decide_eq_true_iff]
    simp only [List.any_eq_true, List.mem_map, List.mem_filter, decide_eq_true_eq, Granted]
    constructor
    · rintro ⟨_, ⟨grant, ⟨mem, names⟩, rfl⟩, le⟩
      exact ⟨grant, mem, names, le⟩
    · rintro ⟨grant, mem, names, le⟩
      exact ⟨_, ⟨grant, ⟨mem, names⟩, rfl⟩, le⟩
  simp only [userCanAccessLocal, reading, Except.map, search]

/-- The repository as it is loaded from its row. -/
def loaded (repo : BasicRepo) (e : Int × RepoRow) : LocalRepo :=
  { repo with
    description := (columns e).description
    visibility := (columns e).visibility
    createTs := (columns e).createTs
    id := (columns e).id
    forkOf := ((t.forks.find? fun fork => fork.toRepoPath = repo.path).map
      ForkRow.fromRepoPath).getD [] }

theorem getRepo_reading {repo : BasicRepo} {e : Int × RepoRow}
    (row : lookup t repo.owner repo.name = some e) :
    getRepo (reading t b) repo = .ok (loaded t repo e) := by
  simp only [getRepo, reading, row, Option.map_some]
  rfl

/-! ## `LocalRepo::can_access` -/

variable (repo : LocalRepo) (user domain : Option Text)

/-- Only somebody who is not the owner gets past the visibility when reading. -/
theorem not_owned_of_visibilityRead_none (open' : visibilityRead repo user domain = none) :
    ¬ repo.OwnedBy user domain := by
  intro owned
  simp only [visibilityRead, if_pos owned] at open'
  split_ifs at open'

theorem level_le_owner (min : Access) : min.level ≤ Access.owner.level := by
  cases min <;> decide

theorem canAccess_read {repo : LocalRepo} {user domain : Option Text} {min : Access}
    (here : repo.IsLocal) (reads : min.level ≤ Access.read.level) :
    canAccess (reading t b) repo min user domain = .ok ((visibilityRead repo user domain).getD
      (decide (Granted t repo.path (userStr user domain) min))) := by
  simp only [canAccess, not_not.2 here, if_false, if_pos reads]
  cases decided : visibilityRead repo user domain with
  | some decision => rfl
  | none =>
    simp only [if_neg (not_owned_of_visibilityRead_none repo user domain decided),
      userCanAccessLocal_reading, Option.getD_none]

theorem canAccess_write {repo : LocalRepo} {user domain : Option Text} {min : Access}
    (here : repo.IsLocal) (writes : Access.read.level < min.level) :
    canAccess (reading t b) repo min user domain = .ok (decide (repo.OwnedBy user domain ∨
      Granted t repo.path (userStr user domain) min)) := by
  simp only [canAccess, not_not.2 here, if_false, if_neg (Int.not_le.2 writes),
    userCanAccessLocal_reading]
  by_cases owned : repo.OwnedBy user domain
  · simp only [owned, if_true, true_or, level_le_owner]
  · simp only [owned, if_false, false_or]

/-- The visibility refuses to read, whatever the grants are. -/
def ReadRefused : Prop :=
  (repo.visibility = 2 ∧ user = none) ∨
  (repo.visibility = 1 ∧ ¬ (user.isSome ∧ domain = none)) ∨
  (repo.visibility < 0 ∨ 3 < repo.visibility)

/-- Whoever has a level has the levels below it. -/
def MonotoneAccess : Prop :=
  ∀ low high : Access, Access.read.level ≤ low.level → low.level ≤ high.level →
    high.level ≤ Access.owner.level →
    canAccess (reading t b) repo high user domain = .ok true →
    canAccess (reading t b) repo low user domain = .ok true

theorem visibilityRead_eq_false_iff :
    visibilityRead repo user domain = some false ↔ ReadRefused repo user domain := by
  simp only [visibilityRead, ReadRefused]
  rcases user with _ | user <;> rcases domain with _ | domain <;> split_ifs <;> simp <;> omega

/-- The owner is refused to read only by a visibility that does not exist. -/
theorem canAccess_refused {repo : LocalRepo} {user domain : Option Text} {min : Access}
    (here : repo.IsLocal) (reads : min.level ≤ Access.read.level)
    (refused : ReadRefused repo user domain) :
    canAccess (reading t b) repo min user domain = .ok false := by
  rw [canAccess_read t b here reads, (visibilityRead_eq_false_iff repo user domain).2 refused]
  rfl

theorem level_read_of_le {low : Access} (read : Access.read.level ≤ low.level)
    (reads : low.level ≤ Access.read.level) : low = .read := by
  cases low <;> simp_all [Access.level]

/-- A level above reading is at least the one of writing. -/
theorem write_le {high : Access} (writes : Access.read.level < high.level) :
    Access.write.level ≤ high.level := by
  cases high <;> simp_all [Access.level]

/-- Levels are monotone unless the visibility refuses to read to the owner, or to somebody
who was granted more than reading. -/
theorem monotoneAccess_iff (here : repo.IsLocal) :
    MonotoneAccess t b repo user domain ↔ ¬ (ReadRefused repo user domain ∧
      (repo.OwnedBy user domain ∨ Granted t repo.path (userStr user domain) .write)) := by
  have write_access : canAccess (reading t b) repo .write user domain =
      .ok (decide (repo.OwnedBy user domain ∨
        Granted t repo.path (userStr user domain) .write)) :=
    canAccess_write t b here (by decide)
  constructor
  · rintro monotone ⟨refused, writer⟩
    have reads := monotone .read .write (by decide) (by decide) (by decide)
      (by rw [write_access, decide_eq_true writer])
    rw [canAccess_refused t b here (by decide) refused] at reads
    cases reads
  · intro allowed low high read le _ access
    by_cases writes : Access.read.level < low.level
    · -- both levels are decided by the owner and the grants
      rw [canAccess_write t b here (Int.lt_of_lt_of_le writes le), Except.ok.injEq,
        decide_eq_true_iff] at access
      rw [canAccess_write t b here writes, decide_eq_true (access.imp_right (·.lower le))]
    · have reads := Int.not_lt.1 writes
      by_cases more : Access.read.level < high.level
      · rw [canAccess_write t b here more, Except.ok.injEq, decide_eq_true_iff] at access
        rw [canAccess_read t b here reads]
        cases decided : visibilityRead repo user domain with
        | none =>
          have granted := access.resolve_left
            (not_owned_of_visibilityRead_none repo user domain decided)
          rw [Option.getD_none, decide_eq_true (granted.lower le)]
        | some decision =>
          cases decision with
          | true => rfl
          | false =>
            exact absurd ⟨(visibilityRead_eq_false_iff repo user domain).1 decided,
              access.imp_right (·.lower (write_le more))⟩ allowed
      · obtain rfl := level_read_of_le read reads
        obtain rfl := level_read_of_le le (Int.not_lt.1 more)
        exact access

/-- A repository of alice that bob of another instance may write to. -/
def sharedTables : Tables where
  repos := [(7, ⟨"alice", "r", none, 1, 5, 5⟩)]
  forks := []
  access := [{ repoPath := "alice/r", userName := "bob@c.d", level := 2 }]
  likes := []
  tickets := []

def sharedName : BasicRepo := { owner := "alice", name := "r" }

def sharedRepo : LocalRepo := { sharedName with visibility := 1, id := 7, createTs := 5 }

/-- A backend whose other statements give nothing. -/
def idleBackend : Backend where
  selectRepo _ _ := .ok none
  selectForkOf _ := .ok none
  selectLevels _ _ := .ok []
  countForks _ := .ok 0
  countLikes _ := .ok 0
  countTickets _ := .ok 0
  countLikesUnbound := .ok 0
  selectLikes _ _ _ := .ok []
  repoExists _ _ := .ok false
  insertRepo _ _ _ _ := .error .sqlite
  isDirectory _ := .ok false
  createDirectory _ := .ok false
  initBare _ _ := false
  openDirectory _ := { defaultBranch := [], branchesCount := 0, tagsCount := 0, tip _ := none }
  httpBackend _ := .ok none

/-- He writes, and does not read. -/
theorem writes_without_reading :
    getRepo (reading sharedTables idleBackend) sharedName = .ok sharedRepo ∧
    canAccess (reading sharedTables idleBackend) sharedRepo .write (some "bob") (some "c.d") =
      .ok true ∧
    canAccess (reading sharedTables idleBackend) sharedRepo .read (some "bob") (some "c.d") =
      .ok false ∧
    ¬ MonotoneAccess sharedTables idleBackend sharedRepo (some "bob") (some "c.d") := by
  refine ⟨rfl, by decide, by decide, fun monotone => ?_⟩
  have reads := monotone .read .write (by decide) (by decide) (by decide) (by decide)
  exact absurd reads (by decide)

/-- On the same tables, levels are monotone for the owner. -/
theorem monotoneAccess_iff_owner :
    MonotoneAccess sharedTables idleBackend sharedRepo (some "alice") none ↔
      ¬ (ReadRefused sharedRepo (some "alice") none ∧
        (sharedRepo.OwnedBy (some "alice") none ∨
          Granted sharedTables sharedRepo.path (userStr (some "alice") none) .write)) :=
  monotoneAccess_iff sharedTables idleBackend sharedRepo (some "alice") none rfl

/-! ## `BasicRepo::can_access_local` -/

/-- What the row says about reading. The grants do not matter. -/
def rowRead (visibility : Int) (user domain : Option Text) : Bool :=
  if visibility = 3 then true
  else if visibility = 2 then user.isSome && domain.isSome
  else if visibility = 1 then user.isSome && domain.isNone
  else false

/-- `BasicRepo::can_access_local`. The name of the owner is compared without the domain. -/
def canAccessLocal (b : Backend) (repo : BasicRepo) (min : Access) (user domain : Option Text) :
    Except Fault Bool :=
  if ¬ repo.IsLocal then .ok true
  else if user = some repo.owner then .ok (decide (min.level ≤ Access.owner.level))
  else if min.level ≤ Access.read.level then
    (b.selectRepo repo.owner repo.name).map fun row => match row with
      | none => false
      | some row => rowRead row.visibility user domain
  else if user = none then .ok false
  else userCanAccessLocal b { repo with } min user domain

section agreement
variable {t b} {repo : BasicRepo} {e : Int × RepoRow} {user domain : Option Text} {min : Access}

theorem canAccessLocal_namesake (here : repo.IsLocal) (name : user = some repo.owner) :
    canAccessLocal (reading t b) repo min user domain = .ok true := by
  simp only [canAccessLocal, not_not.2 here, if_false, if_pos name, level_le_owner, decide_true]

theorem canAccessLocal_read (here : repo.IsLocal)
    (row : lookup t repo.owner repo.name = some e) (name : user ≠ some repo.owner)
    (reads : min.level ≤ Access.read.level) :
    canAccessLocal (reading t b) repo min user domain =
      .ok (rowRead (getInt e.2.visibility) user domain) := by
  simp only [canAccessLocal, not_not.2 here, if_false, if_neg name, if_pos reads]
  simp only [reading, row, Option.map_some, Except.map, columns]

theorem canAccessLocal_write (here : repo.IsLocal) (name : user ≠ some repo.owner)
    (writes : Access.read.level < min.level) :
    canAccessLocal (reading t b) repo min user domain = .ok (decide (user ≠ none ∧
      Granted t repo.path (userStr user domain) min)) := by
  simp only [canAccessLocal, not_not.2 here, if_false, if_neg name,
    if_neg (Int.not_le.2 writes), userCanAccessLocal_reading]
  by_cases anonymous : user = none
  · simp only [anonymous, if_true, ne_eq, not_true, false_and, decide_false]
  · simp only [anonymous, if_false, ne_eq, not_false_iff, true_and]

/-- Where the two checks differ. The owner reads behind a visibility that does not exist;
a user of another instance has the name of the owner, and neither the visibility nor a
grant lets him in; another user of this instance reads what other instances may read; a
grant opens a private repository for reading; a grant for nobody opens it for more. -/
def ChecksPart (t : Tables) (repo : BasicRepo) (visibility : Int) (min : Access)
    (user domain : Option Text) : Prop :=
  if user = some repo.owner then
    if domain = none then
      min.level ≤ Access.read.level ∧ (visibility < 0 ∨ 3 < visibility)
    else if min.level ≤ Access.read.level then
      ¬ (visibility = 3 ∨ visibility = 2 ∨
        visibility = 0 ∧ Granted t repo.path (userStr user domain) min)
    else ¬ Granted t repo.path (userStr user domain) min
  else if min.level ≤ Access.read.level then
    (visibility = 2 ∧ user ≠ none ∧ domain = none) ∨
      visibility = 0 ∧ Granted t repo.path (userStr user domain) min
  else user = none ∧ Granted t repo.path (userStr user domain) min

theorem visibilityRead_owner {repo : LocalRepo} (owned : repo.OwnedBy user domain) :
    visibilityRead repo user domain = some (decide (0 ≤ repo.visibility ∧ repo.visibility ≤ 3)) := by
  obtain ⟨rfl, rfl⟩ := id owned
  simp only [visibilityRead, if_pos owned]
  split_ifs <;> simp <;> omega

/-- Others differ from the row where other instances or the grants may come in. -/
theorem visibilityRead_other {repo : LocalRepo} (other : ¬ repo.OwnedBy user domain)
    (granted : Bool) :
    (visibilityRead repo user domain).getD granted =
      if repo.visibility = 2 then user.isSome
      else if repo.visibility = 0 then granted
      else rowRead repo.visibility user domain := by
  simp only [visibilityRead, if_neg other, rowRead]
  split_ifs <;> first | rfl | omega

/-- The owner of a row that is loaded. -/
theorem canAccess_loaded_owner (here : repo.IsLocal)
    (owned : domain = none ∧ user = some repo.owner) :
    canAccess (reading t b) (loaded t repo e) min user domain = .ok (decide
      (Access.read.level < min.level ∨
        (0 ≤ getInt e.2.visibility ∧ getInt e.2.visibility ≤ 3))) := by
  have hereLoaded : (loaded t repo e).IsLocal := here
  have ownedLoaded : (loaded t repo e).OwnedBy user domain := owned
  by_cases writes : Access.read.level < min.level
  · rw [canAccess_write t b hereLoaded writes]
    simp only [ownedLoaded, writes, true_or]
  · rw [canAccess_read t b hereLoaded (Int.not_lt.1 writes), visibilityRead_owner ownedLoaded]
    simp only [Option.getD_some, writes, false_or]
    rfl

/-- Anybody else. -/
theorem canAccess_loaded_other (here : repo.IsLocal)
    (other : ¬ (domain = none ∧ user = some repo.owner)) :
    canAccess (reading t b) (loaded t repo e) min user domain = .ok
      (if min.level ≤ Access.read.level ∧ getInt e.2.visibility = 2 then user.isSome
      else if min.level ≤ Access.read.level ∧ getInt e.2.visibility ≠ 0 then
        rowRead (getInt e.2.visibility) user domain
      else decide (Granted t repo.path (userStr user domain) min)) := by
  have hereLoaded : (loaded t repo e).IsLocal := here
  have otherLoaded : ¬ (loaded t repo e).OwnedBy user domain := other
  have path : (loaded t repo e).path = repo.path := rfl
  have visibility : (loaded t repo e).visibility = getInt e.2.visibility := rfl
  by_cases reads : min.level ≤ Access.read.level
  · rw [canAccess_read t b hereLoaded reads, visibilityRead_other otherLoaded, path, visibility]
    by_cases fediverse : getInt e.2.visibility = 2
    · simp only [reads, fediverse, true_and, if_true]
    · by_cases closed : getInt e.2.visibility = 0
      · simp [reads, closed]
      · simp only [reads, fediverse, closed, true_and, if_false, ne_eq, not_false_iff, if_true]
  · rw [canAccess_write t b hereLoaded (Int.not_le.1 reads), path]
    simp only [reads, otherLoaded, false_or, false_and, if_false]

/-- The two checks agree outside of these cases. -/
theorem checks_agree_iff (here : repo.IsLocal) (row : lookup t repo.owner repo.name = some e)
    (b : Backend) (min : Access) (user domain : Option Text) :
    canAccessLocal (reading t b) repo min user domain =
        (getRepo (reading t b) repo).bind
          (fun loaded => canAccess (reading t b) loaded min user domain) ↔
      ¬ ChecksPart t repo (getInt e.2.visibility) min user domain := by
  simp only [getRepo_reading t b row, Except.bind]
  by_cases name : user = some repo.owner
  · rw [canAccessLocal_namesake here name, ChecksPart, if_pos name]
    by_cases local' : domain = none
    · rw [canAccess_loaded_owner here ⟨local', name⟩, if_pos local']
      simp only [Except.ok.injEq, eq_comm (a := true), decide_eq_true_eq]
      omega
    · rw [canAccess_loaded_other here fun owned => local' owned.1, if_neg local']
      generalize getInt e.2.visibility = visibility
      have remote : domain.isNone = false :=
        Option.isNone_eq_false_iff.2 (Option.isSome_iff_ne_none.2 local')
      by_cases reads : min.level ≤ Access.read.level
      · by_cases fediverse : visibility = 2
        · simp [reads, fediverse, name]
        · by_cases closed : visibility = 0
          · simp [reads, closed]
          · simp [reads, fediverse, closed, rowRead, remote]
      · simp [reads]
  · have other : ¬ (domain = none ∧ user = some repo.owner) := fun owned => name owned.2
    rw [canAccess_loaded_other here other, ChecksPart, if_neg name]
    by_cases reads : min.level ≤ Access.read.level
    · rw [canAccessLocal_read here row name reads, if_pos reads]
      generalize getInt e.2.visibility = visibility
      by_cases fediverse : visibility = 2
      · cases user <;> cases domain <;> simp [reads, fediverse, rowRead]
      · by_cases closed : visibility = 0
        · simp [reads, closed, rowRead]
        · simp [reads, fediverse, closed]
    · rw [canAccessLocal_write here name (Int.not_le.1 reads), if_neg reads]
      cases user <;> simp [reads]

/-- Somebody of another instance with the name of the owner has every level for the one
check, and none for the other. -/
theorem namesake_is_owner :
    canAccessLocal (reading sharedTables idleBackend) sharedName .owner
        (some "alice") (some "c.d") = .ok true ∧
      (getRepo (reading sharedTables idleBackend) sharedName).bind
          (fun loaded => canAccess (reading sharedTables idleBackend) loaded .owner
            (some "alice") (some "c.d")) = .ok false := by
  decide

/-- On the same tables, the checks agree about bob's writing. -/
theorem checks_agree_iff_bob :
    canAccessLocal (reading sharedTables idleBackend) sharedName .write
        (some "bob") (some "c.d") =
      (getRepo (reading sharedTables idleBackend) sharedName).bind
        (fun loaded => canAccess (reading sharedTables idleBackend) loaded .write
          (some "bob") (some "c.d")) ↔
    ¬ ChecksPart sharedTables sharedName (getInt 1) .write
      (some "bob") (some "c.d") :=
  checks_agree_iff (t := sharedTables) (e := (7, ⟨"alice", "r", none, 1, 5, 5⟩))
    (show sharedName.IsLocal from rfl) rfl idleBackend .write (some "bob") (some "c.d")

end agreement

end GitAccess
