import Fiy.GitRepos

/-!
# What the creation of a repository leaves behind

`LocalRepo::create` with the directories and the rows it works on, when any of its calls may
fail. There is no undo, so what a failure leaves depends on the step that failed.
-/

namespace RepoCreation

open ByteStrings GitRepos

/-! ## Stores and calls -/

/-- A row that `create` adds. -/
structure CreatedRow where
  repo : BasicRepo
  description : Text
  visibility : Int
  createTs : Int
  deriving DecidableEq, Repr

/-- The directories below the data directory, and the rows of `Repos`. -/
structure Stores where
  dirs : List Text
  rows : List CreatedRow
  deriving DecidableEq, Repr

/-- `SELECT 1 FROM Repos` by owner and name -/
def Stores.HasRow (s : Stores) (owner name : Text) : Prop :=
  ∃ row ∈ s.rows, row.repo.owner = owner ∧ row.repo.name = name

instance (s : Stores) (owner name : Text) : Decidable (s.HasRow owner name) :=
  inferInstanceAs (Decidable (∃ row ∈ s.rows, _))

/-- How a call that changes a store ends. -/
inductive Attempt
  | done
  | refused
  | throws (fault : Fault)
  deriving DecidableEq, Repr

/-- How the calls of one creation end. -/
structure Calls where
  /-- the check for a row, when it throws -/
  exists_ : Option Fault
  /-- `is_directory`, when it throws -/
  isDirectory : Option Fault
  userDirectory : Attempt
  repoDirectory : Attempt
  initBare : Bool
  insert : Attempt
  deriving DecidableEq, Repr

/-- Nothing fails. -/
def healthy : Calls := ⟨none, none, .done, .done, true, .done⟩

def userReposDir (dataDir : Text) (repo : BasicRepo) : Text :=
  dataDir ++ lit "/repos/" ++ repo.owner

def repoPath (dataDir : Text) (repo : BasicRepo) : Text :=
  userReposDir dataDir repo ++ lit "/" ++ repo.name

/-- `std::filesystem::create_directory`: nothing is done for a directory that is there. -/
def createDirectory (attempt : Attempt) (path : Text) (s : Stores) : Except Fault Bool × Stores :=
  if path ∈ s.dirs then (.ok false, s)
  else match attempt with
    | .done => (.ok true, { s with dirs := path :: s.dirs })
    | .refused => (.ok false, s)
    | .throws fault => (.error fault, s)

section create
variable (calls : Calls) (dataDir : Text) (now : Int) (repo : BasicRepo) (description : Text)
  (visibility : Int)

/-- The directory of the owner, which may be there. -/
def ensureUserDir (s : Stores) : Except Fault Bool × Stores :=
  match calls.isDirectory with
  | some fault => (.error fault, s)
  | none =>
    if userReposDir dataDir repo ∈ s.dirs then (.ok true, s)
    else createDirectory calls.userDirectory (userReposDir dataDir repo) s

/-- The bare repository and the row. A statement that leaves a required column out throws. -/
def finishRepo (s : Stores) : Except Fault (Option Text) × Stores :=
  if ¬ calls.initBare then (.ok (some "5XX: Server Error: Failed to create bare git repo."), s)
  else if requiredColumns.any (· ∉ createdColumns) then (.error .sqlite, s)
  else match calls.insert with
    | .done =>
      (.ok none, { s with rows := ⟨repo, description, visibility, now⟩ :: s.rows })
    | .refused => (.ok (some "5XX: Database Error: Failed to create database entry"), s)
    | .throws fault => (.error fault, s)

/-- `LocalRepo::create` -/
def create (s : Stores) : Except Fault (Option Text) × Stores :=
  if ¬ repo.IsLocal then (.ok (some "4XX: Cannot create non-local repo"), s)
  else match calls.exists_ with
    | some fault => (.error fault, s)
    | none =>
      if s.HasRow repo.owner repo.name then
        (.ok (some "4XX: Repo with same name already exists"), s)
      else match ensureUserDir calls dataDir repo s with
        | (.error fault, s) => (.error fault, s)
        | (.ok false, s) => (.ok (some "5XX: Failed to create user repos directory"), s)
        | (.ok true, s) =>
          match createDirectory calls.repoDirectory (repoPath dataDir repo) s with
          | (.error fault, s) => (.error fault, s)
          | (.ok false, s) => (.ok (some "5XX: Failed to create repo directory"), s)
          | (.ok true, s) => finishRepo calls now repo description visibility s

end create

/-! ## The calls of the handler -/

/-- What the calls return to the creation of `GitRepos`. -/
def backendOf (b : Backend) (calls : Calls) (dataDir : Text) (repo : BasicRepo) (s : Stores) :
    Backend :=
  { b with
    repoExists := fun owner name => match calls.exists_ with
      | some fault => .error fault
      | none => .ok (decide (s.HasRow owner name))
    isDirectory := fun path => match calls.isDirectory with
      | some fault => .error fault
      | none => .ok (decide (path ∈ s.dirs))
    createDirectory := fun path =>
      (createDirectory (if path = repoPath dataDir repo then calls.repoDirectory
        else calls.userDirectory) path s).1
    initBare := fun _ _ => calls.initBare
    insertRepo := fun _ _ _ _ => match calls.insert with
      | .done => .ok true
      | .refused => .ok false
      | .throws fault => .error fault }

section spec
variable {calls : Calls} {dataDir : Text} {now : Int} {repo : BasicRepo} {description : Text}
  {visibility : Int} {s : Stores}

theorem repoPath_ne : repoPath dataDir repo ≠ userReposDir dataDir repo := by
  intro same
  have length := congrArg List.length same
  simp only [repoPath, List.length_append] at length
  have slash : (lit "/").length = 1 := rfl
  omega

/-! ## Steps -/

/-- The stores when the directory of the owner is there. -/
def withUserDir (dataDir : Text) (repo : BasicRepo) (s : Stores) : Stores :=
  if userReposDir dataDir repo ∈ s.dirs then s
  else { s with dirs := userReposDir dataDir repo :: s.dirs }

theorem mem_withUserDir : repoPath dataDir repo ∈ (withUserDir dataDir repo s).dirs ↔
    repoPath dataDir repo ∈ s.dirs := by
  unfold withUserDir
  split
  · rfl
  · exact List.mem_cons.trans (or_iff_right repoPath_ne)

theorem rows_withUserDir : (withUserDir dataDir repo s).rows = s.rows := by
  unfold withUserDir
  split
  · rfl
  · rfl

theorem ensureUserDir_made (asked : calls.isDirectory = none)
    (user : userReposDir dataDir repo ∈ s.dirs ∨ calls.userDirectory = .done) :
    ensureUserDir calls dataDir repo s = (.ok true, withUserDir dataDir repo s) := by
  simp only [ensureUserDir, withUserDir, asked]
  by_cases there : userReposDir dataDir repo ∈ s.dirs
  · rw [if_pos there, if_pos there]
  · simp only [if_neg there, createDirectory, user.resolve_left there]

/-- Without the directory of the owner nothing has changed. -/
theorem ensureUserDir_not (failed : ¬ (calls.isDirectory = none ∧
      (userReposDir dataDir repo ∈ s.dirs ∨ calls.userDirectory = .done))) :
    ∃ result, ensureUserDir calls dataDir repo s = (result, s) ∧ result ≠ .ok true := by
  unfold ensureUserDir
  rcases asked : calls.isDirectory with - | fault
  · simp only [asked, true_and, not_or] at failed
    simp only [if_neg failed.1, createDirectory]
    rcases attempt : calls.userDirectory with - | - | fault
    · exact absurd attempt failed.2
    · exact ⟨_, rfl, nofun⟩
    · exact ⟨_, rfl, nofun⟩
  · exact ⟨_, rfl, nofun⟩

/-- What a call returns depends only on whether the directory is there. -/
theorem createDirectory_same {attempt : Attempt} {path : Text} {s s' : Stores}
    (same : path ∈ s.dirs ↔ path ∈ s'.dirs) :
    (createDirectory attempt path s).1 = (createDirectory attempt path s').1 := by
  unfold createDirectory
  by_cases there : path ∈ s'.dirs
  · rw [if_pos (same.mpr there), if_pos there]
  · rw [if_neg fun mem => there (same.mp mem), if_neg there]
    cases attempt with
    | done | refused | throws => rfl

/-- What the end returns does not depend on the stores. -/
theorem finishRepo_result (calls : Calls) (s : Stores) :
    (finishRepo calls now repo description visibility s).1 =
      if calls.initBare = true then .error .sqlite
      else .ok (some "5XX: Server Error: Failed to create bare git repo.") := by
  unfold finishRepo
  by_cases init : calls.initBare = true
  · rw [if_neg (not_not.mpr init), if_pos (by decide), if_pos init]
  · rw [if_pos init, if_neg init]

/-- The creation of `GitRepos` is what this one returns. -/
theorem create_result (b : Backend) : createRepo (backendOf b calls dataDir repo s) dataDir now repo
    description visibility = (create calls dataDir now repo description visibility s).1 := by
  have other : userReposDir dataDir repo ≠ repoPath dataDir repo := repoPath_ne.symm
  have user : dataDir ++ lit "/repos/" ++ repo.owner = userReposDir dataDir repo := rfl
  have path : userReposDir dataDir repo ++ lit "/" ++ repo.name = repoPath dataDir repo := rfl
  have missing : requiredColumns.any (fun name => decide (name ∉ createdColumns)) = true := by
    decide
  unfold createRepo
  simp only [user, path, missing, if_true]
  by_cases here : repo.IsLocal
  · rcases checked : calls.exists_ with - | fault
    · by_cases row : s.HasRow repo.owner repo.name
      · simp [create, here, backendOf, checked, row, bind, Except.bind, pure, Except.pure]
      · rcases asked : calls.isDirectory with - | fault
        · by_cases made : userReposDir dataDir repo ∈ s.dirs ∨ calls.userDirectory = .done
          · have ensured : ensureUserDir calls dataDir repo s =
                (.ok true, withUserDir dataDir repo s) := ensureUserDir_made asked made
            have repeated : (createDirectory calls.repoDirectory (repoPath dataDir repo)
                (withUserDir dataDir repo s)).1 =
                  (createDirectory calls.repoDirectory (repoPath dataDir repo) s).1 :=
              createDirectory_same mem_withUserDir
            have rest : (create calls dataDir now repo description visibility s).1 =
                match (createDirectory calls.repoDirectory (repoPath dataDir repo) s).1 with
                | .error fault => .error fault
                | .ok false => .ok (some "5XX: Failed to create repo directory")
                | .ok true => if calls.initBare = true then .error .sqlite
                  else .ok (some "5XX: Server Error: Failed to create bare git repo.") := by
              simp only [create, here, not_true, if_false, checked, if_neg row, ensured,
                ← repeated]
              rcases createDirectory calls.repoDirectory (repoPath dataDir repo)
                (withUserDir dataDir repo s) with ⟨fault | - | -, left⟩
              · rfl
              · rfl
              · exact finishRepo_result calls left
            rw [rest]
            by_cases there : userReposDir dataDir repo ∈ s.dirs
            · rcases made_ : (createDirectory calls.repoDirectory (repoPath dataDir repo) s).1
                with fault | - | -
              · simp [here, backendOf, checked, row, asked, there, made_, bind, Except.bind]
              · simp [here, backendOf, checked, row, asked, there, made_, bind, Except.bind, pure,
                  Except.pure]
              · rcases init : calls.initBare with - | -
                all_goals simp [here, backendOf, checked, row, asked, there, made_, init, bind,
                  Except.bind, pure, Except.pure]
            · have new : (createDirectory calls.userDirectory (userReposDir dataDir repo) s).1 =
                  .ok true := by
                rw [made.resolve_left there, createDirectory, if_neg there]
              rcases made_ : (createDirectory calls.repoDirectory (repoPath dataDir repo) s).1
                with fault | - | -
              · simp [here, backendOf, checked, row, asked, there, new, other, made_, bind,
                  Except.bind]
              · simp [here, backendOf, checked, row, asked, there, new, other, made_, bind,
                  Except.bind, pure, Except.pure]
              · rcases init : calls.initBare with - | -
                all_goals simp [here, backendOf, checked, row, asked, there, new, other, made_,
                  init, bind, Except.bind, pure, Except.pure]
          · rw [not_or] at made
            rcases attempt : calls.userDirectory with - | - | fault
            · exact absurd attempt made.2
            · simp [create, here, backendOf, checked, row, asked, ensureUserDir, createDirectory,
                made, other, attempt, bind, Except.bind, pure, Except.pure]
            · simp [create, here, backendOf, checked, row, asked, ensureUserDir, createDirectory,
                made, other, attempt, bind, Except.bind]
        · simp [create, here, backendOf, checked, row, asked, ensureUserDir, bind, Except.bind]
    · simp [create, here, backendOf, checked, bind, Except.bind]
  · simp [create, here, pure, Except.pure]

/-! ## All or nothing -/

/-- A failed creation leaves neither a directory nor a row behind, a successful one both, and
nothing but the repository itself stands in the way of success. -/
structure AllOrNothing (calls : Calls) (dataDir : Text) (now : Int) (repo : BasicRepo)
    (description : Text) (visibility : Int) (s : Stores) : Prop where
  failed : (create calls dataDir now repo description visibility s).1 ≠ .ok none →
    (repoPath dataDir repo ∈ (create calls dataDir now repo description visibility s).2.dirs →
      repoPath dataDir repo ∈ s.dirs) ∧
    (create calls dataDir now repo description visibility s).2.rows = s.rows
  made : (create calls dataDir now repo description visibility s).1 = .ok none →
    repoPath dataDir repo ∈ (create calls dataDir now repo description visibility s).2.dirs ∧
    (create calls dataDir now repo description visibility s).2.HasRow repo.owner repo.name
  new : repo.IsLocal → ¬ s.HasRow repo.owner repo.name → repoPath dataDir repo ∉ s.dirs →
    calls = healthy → (create calls dataDir now repo description visibility s).1 = .ok none

/-- The directory of the repository is made. -/
structure Made (calls : Calls) (dataDir : Text) (repo : BasicRepo) (s : Stores) : Prop where
  here : repo.IsLocal
  checked : calls.exists_ = none
  rowless : ¬ s.HasRow repo.owner repo.name
  asked : calls.isDirectory = none
  user : userReposDir dataDir repo ∈ s.dirs ∨ calls.userDirectory = .done
  fresh : repoPath dataDir repo ∉ s.dirs
  directory : calls.repoDirectory = .done

/-- The statement leaves out a column that must have a value, so no row is ever added. -/
theorem finishRepo_rows : (finishRepo calls now repo description visibility s).1 ≠ .ok none ∧
    (finishRepo calls now repo description visibility s).2 = s := by
  unfold finishRepo
  split
  · exact ⟨nofun, rfl⟩
  · rw [if_pos (by decide)]
    exact ⟨nofun, rfl⟩

/-- The end of a creation that has not made the directory of the repository. -/
structure Unmade (dataDir : Text) (repo : BasicRepo) (s : Stores)
    (ended : Except Fault (Option Text) × Stores) : Prop where
  failed : ended.1 ≠ .ok none
  rows : ended.2.rows = s.rows
  dirs : repoPath dataDir repo ∈ ended.2.dirs → repoPath dataDir repo ∈ s.dirs

/-- The end of one that has: the directory stays, and there is no row. -/
structure Left (dataDir : Text) (repo : BasicRepo) (s : Stores)
    (ended : Except Fault (Option Text) × Stores) : Prop where
  failed : ended.1 ≠ .ok none
  rows : ended.2.rows = s.rows
  dirs : repoPath dataDir repo ∈ ended.2.dirs

theorem create_made (made : Made calls dataDir repo s) :
    Left dataDir repo s (create calls dataDir now repo description visibility s) := by
  have user := ensureUserDir_made made.asked made.user
  have fresh : repoPath dataDir repo ∉ (withUserDir dataDir repo s).dirs := fun mem =>
    made.fresh (mem_withUserDir.mp mem)
  simp only [create, made.here, not_true, if_false, made.checked, if_neg made.rowless, user,
    createDirectory, if_neg fresh, made.directory]
  have ends : ∀ left : Stores,
      (finishRepo calls now repo description visibility left).1 ≠ .ok none ∧
        (finishRepo calls now repo description visibility left).2 = left :=
    fun left => finishRepo_rows
  refine ⟨(ends _).1, ?_, ?_⟩
  · rw [(ends _).2]
    exact rows_withUserDir
  · rw [(ends _).2]
    exact List.mem_cons_self

/-- Nothing of the repository when the directory of the owner could not be made. -/
theorem unmade_user {ended : Except Fault Bool} (other : ended ≠ .ok true)
    (next : Stores → Except Fault (Option Text) × Stores) :
    Unmade dataDir repo s (match (ended, s) with
      | (.error fault, s) => (.error fault, s)
      | (.ok false, s) => (.ok (some "5XX: Failed to create user repos directory"), s)
      | (.ok true, s) => next s) := by
  rcases ended with fault | - | -
  · exact ⟨nofun, rfl, id⟩
  · exact ⟨nofun, rfl, id⟩
  · exact absurd rfl other

theorem create_unmade (unmade : ¬ Made calls dataDir repo s) :
    Unmade dataDir repo s (create calls dataDir now repo description visibility s) := by
  unfold create
  split
  · exact ⟨nofun, rfl, id⟩
  next here =>
  split
  · exact ⟨nofun, rfl, id⟩
  next checked =>
  split
  · exact ⟨nofun, rfl, id⟩
  next rowless =>
  by_cases user : calls.isDirectory = none ∧
      (userReposDir dataDir repo ∈ s.dirs ∨ calls.userDirectory = .done)
  · rw [ensureUserDir_made user.1 user.2]
    simp only [createDirectory]
    by_cases there : repoPath dataDir repo ∈ (withUserDir dataDir repo s).dirs
    · rw [if_pos there]
      exact ⟨nofun, rows_withUserDir, mem_withUserDir.mp⟩
    · rw [if_neg there]
      rcases attempt : calls.repoDirectory with - | - | fault
      · refine absurd ⟨not_not.mp here, checked, rowless, user.1, user.2, ?_, attempt⟩ unmade
        exact fun mem => there (mem_withUserDir.mpr mem)
      · exact ⟨nofun, rows_withUserDir, mem_withUserDir.mp⟩
      · exact ⟨nofun, rows_withUserDir, mem_withUserDir.mp⟩
  · obtain ⟨result, ended, other⟩ := ensureUserDir_not user
    rw [ended]
    exact unmade_user other _

variable (calls dataDir now repo description visibility s) in
/-- A creation is all or nothing if and only if it does not get as far as the directory. -/
theorem allOrNothing_iff : AllOrNothing calls dataDir now repo description visibility s ↔
    ¬ Made calls dataDir repo s := by
  constructor
  · intro whole made
    have left : Left dataDir repo s (create calls dataDir now repo description visibility s) :=
      create_made made
    exact made.fresh ((whole.failed left.failed).1 left.dirs)
  · intro unmade
    have ended : Unmade dataDir repo s (create calls dataDir now repo description visibility s) :=
      create_unmade unmade
    refine ⟨fun _ => ⟨ended.dirs, ended.rows⟩, fun made => absurd made ended.failed, ?_⟩
    rintro here rowless fresh rfl
    exact absurd ⟨here, rfl, rowless, rfl, .inr rfl, fresh, rfl⟩ unmade

theorem create_failed : (create calls dataDir now repo description visibility s).1 ≠ .ok none := by
  by_cases made : Made calls dataDir repo s
  · exact (create_made made).failed
  · exact (create_unmade made).failed

theorem create_rows : (create calls dataDir now repo description visibility s).2.rows = s.rows := by
  by_cases made : Made calls dataDir repo s
  · exact (create_made made).rows
  · exact (create_unmade made).rows

theorem createDirectory_keeps {attempt : Attempt} {path other : Text} (there : other ∈ s.dirs) :
    other ∈ (createDirectory attempt path s).2.dirs := by
  unfold createDirectory
  split
  · exact there
  · cases attempt with
    | done => exact List.mem_cons_of_mem _ there
    | refused | throws => exact there

/-- The directory of the owner is there, whatever happens next. -/
theorem create_userDir (here : repo.IsLocal) (checked : calls.exists_ = none)
    (rowless : ¬ s.HasRow repo.owner repo.name) (asked : calls.isDirectory = none)
    (user : userReposDir dataDir repo ∈ s.dirs ∨ calls.userDirectory = .done) :
    userReposDir dataDir repo ∈
      (create calls dataDir now repo description visibility s).2.dirs := by
  have there : userReposDir dataDir repo ∈ (withUserDir dataDir repo s).dirs := by
    unfold withUserDir
    split
    next old => exact old
    · exact List.mem_cons_self
  have kept : userReposDir dataDir repo ∈ (createDirectory calls.repoDirectory
      (repoPath dataDir repo) (withUserDir dataDir repo s)).2.dirs := createDirectory_keeps there
  simp only [create, here, not_true, if_false, checked, if_neg rowless,
    ensureUserDir_made asked user]
  split
  next ended => exact (congrArg (fun e => userReposDir dataDir repo ∈ e.2.dirs) ended).mp kept
  next ended => exact (congrArg (fun e => userReposDir dataDir repo ∈ e.2.dirs) ended).mp kept
  next left ended =>
    have same : (finishRepo calls now repo description visibility left).2 = left :=
      finishRepo_rows.2
    rw [same]
    exact (congrArg (fun e => userReposDir dataDir repo ∈ e.2.dirs) ended).mp kept

/-- A directory that was left behind blocks the next creation, even when nothing fails. -/
theorem create_blocked (here : repo.IsLocal) (rowless : ¬ s.HasRow repo.owner repo.name)
    (there : repoPath dataDir repo ∈ s.dirs) :
    (create healthy dataDir now repo description visibility s).1 =
      .ok (some "5XX: Failed to create repo directory") := by
  have user : ensureUserDir healthy dataDir repo s = (.ok true, withUserDir dataDir repo s) :=
    ensureUserDir_made rfl (.inr rfl)
  simp only [create, here, not_true, if_false, healthy, if_neg rowless]
  rw [show ensureUserDir ⟨none, none, .done, .done, true, .done⟩ dataDir repo s = _ from user]
  simp only [createDirectory, if_pos (mem_withUserDir.mpr there)]

end spec

/-- The first repository of alice, when nothing fails: its directory is left without a row, and
the next attempt fails for it. -/
theorem first_repo_left :
    let alices : BasicRepo := ⟨[], "alice", "site"⟩
    let after := create healthy "/data" 0 alices [] 1 ⟨[], []⟩
    ¬ AllOrNothing healthy "/data" 0 alices [] 1 ⟨[], []⟩ ∧ after.1 = .error .sqlite ∧
      after.2 = ⟨["/data/repos/alice/site", "/data/repos/alice"], []⟩ ∧
      (create healthy "/data" 0 alices [] 1 after.2).1 =
        .ok (some "5XX: Failed to create repo directory") := by
  refine ⟨fun whole => ?_, by decide, by decide, by decide⟩
  have made := whole.new rfl (by decide) (by decide) rfl
  exact absurd made (by decide)

end RepoCreation
