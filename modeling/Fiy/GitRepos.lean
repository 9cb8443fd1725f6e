import Fiy.ModLibrary

/-!
# Repositories of the git mod

A repository is named by an address, which `from_path` takes apart, and loaded from the
database. What the database, libgit2 and the file system do is in one record, so that
every outcome of a statement can be considered.
-/

namespace GitRepos

open ByteStrings ModConnectors ModLibrary

/-- Why a handler does not return. -/
inductive Fault
  /-- `std::out_of_range` -/
  | outOfRange
  /-- `SQLite::Exception` -/
  | sqlite
  /-- `nlohmann::json::type_error` -/
  | json
  /-- `std::filesystem::filesystem_error` -/
  | filesystem
  /-- `std::runtime_error` of a process that cannot be started -/
  | process
  /-- a loop does not end -/
  | endless
  deriving DecidableEq, Repr

/-! ## Names -/

/-- `BasicRepo` -/
structure BasicRepo where
  inst : Text := []
  owner : Text := []
  name : Text := []
  deriving DecidableEq, Repr

namespace BasicRepo

def ownerUser (repo : BasicRepo) : Text :=
  if repo.inst = [] then repo.owner else repo.owner ++ lit "@" ++ repo.inst

/-- The canonical path. -/
def path (repo : BasicRepo) : Text := repo.ownerUser ++ lit "/" ++ repo.name

def IsLocal (repo : BasicRepo) : Prop := repo.inst = []

instance (repo : BasicRepo) : Decidable repo.IsLocal := inferInstanceAs (Decidable (_ = _))

/-- `fs_path` -/
def fsPath (dataDir : Text) (repo : BasicRepo) : Text :=
  dataDir ++ lit (if repo.IsLocal then "/repos/" else "/mirrors/") ++ repo.path

theorem IsLocal.path {repo : BasicRepo} (here : repo.IsLocal) :
    repo.path = repo.owner ++ lit "/" ++ repo.name := by
  simp only [BasicRepo.path, ownerUser, if_pos (show repo.inst = [] from here)]

end BasicRepo

/-- The last part of `from_path`, behind the slash that ends the owner. `before` is how
much of the address is in front of it. -/
def parseName (repo : BasicRepo) (before : Nat) (rest : Text) : Except Fault (Bool × BasicRepo) :=
  if rest = [] then .ok (false, repo)
  else
    let name := rest.takeWhile fun b => b ≠ 47 ∧ b ≠ 63
    -- the comparison with the last four bytes starts in front of a short address
    if before + name.length < 4 then .error .outOfRange
    else
      let name := if lit ".git" <:+ name then name.take (name.length - 4) else name
      .ok (name ≠ [], { repo with name })

/-- The part of `from_path` behind leading slashes and an at sign. -/
def parseOwner (domain url : Text) : Except Fault (Bool × BasicRepo) :=
  if url.length < 3 then .ok (false, {})
  else match cut 47 url with
    | none => .ok (false, {})
    | some (user, rest) => match cut 64 user with
      | none =>
        if 64 ∈ rest then .ok (false, {})
        else parseName { owner := user } (user.length + 1) rest
      | some (owner, inst) =>
        parseName { owner, inst := if inst = domain then [] else inst } (user.length + 1) rest

/-- `from_path`: its result, and what it has put into the object. -/
def fromPath (domain url : Text) : Except Fault (Bool × BasicRepo) :=
  if url.length < 3 then .ok (false, {})
  else if url.all (· = 47) then .error .outOfRange
  else
    let url := if url.head? = some 47 then url.dropWhile (· = 47) else url
    if url.length < 3 then .ok (false, {})
    else parseOwner domain (if url.head? = some 64 then url.tail else url)

example : fromPath "a.b" "//@alice@a.b/x.git/y?z" = .ok (true, ⟨[], "alice", "x"⟩) := by decide
example : fromPath "a.b" "/a/b" = .error .outOfRange := by decide

/-! ## What is stored -/

/-- The columns of `Repos` that `LocalRepo` reads. -/
structure RepoColumns where
  description : Text
  visibility : Int
  createTs : Int
  id : Int
  deriving DecidableEq, Repr

/-- `LocalRepo`. An object without a row is not valid. -/
structure LocalRepo extends BasicRepo where
  description : Text := []
  visibility : Int := 0
  forkOf : Text := []
  id : Int := -1
  createTs : Int := -1
  deriving DecidableEq, Repr

def LocalRepo.valid (repo : LocalRepo) : Bool := repo.createTs ≠ -1

/-- `GitUser` -/
structure GitUser where
  fiyUser : Text := []
  name : Text := []
  email : Text := []
  deriving DecidableEq, Repr

/-- `GitRepo::Commit` -/
structure Commit where
  id : Text := []
  message : Text := []
  ts : Int := 0
  author : GitUser := {}
  deriving DecidableEq, Repr

inductive EntryType
  | invalid
  | commit
  | directory
  | file
  deriving DecidableEq, Repr

/-- `GitRepo::Entry` -/
structure Entry where
  type : EntryType
  path : Text
  lastCommit : Commit
  deriving DecidableEq, Repr

/-- What libgit2 finds at the tip of a branch. -/
structure BranchTip where
  commitsCount : Int
  lastCommit : Commit
  files : List Entry
  deriving DecidableEq, Repr

/-- What libgit2 finds in the directory of a repository. -/
structure GitDirectory where
  defaultBranch : Text
  branchesCount : Int
  tagsCount : Int
  tip : Text → Option BranchTip

/-- A column of a search result. -/
inductive Cell
  | text (value : Text)
  | number (value : Int)
  deriving DecidableEq, Repr

/-- The environment of `git http-backend`. -/
structure Cgi where
  requestMethod : Text
  serverProtocol : Text
  serverName : Text
  serverPort : Text
  pathInfo : Text
  queryString : Text
  pathTranslated : Text
  remoteAddr : Text
  remoteUser : Text
  headers : Option Text
  body : Text
  deriving DecidableEq, Repr

/-- The statements on the database, libgit2, the file system and the backend process. An
error is the exception that the call ends with. -/
structure Backend where
  /-- `SELECT description, visibility, createTs, id FROM Repos` by owner and name -/
  selectRepo : Text → Text → Except Fault (Option RepoColumns)
  /-- `SELECT fromRepoPath FROM RepoForks` by the path of the fork -/
  selectForkOf : Text → Except Fault (Option Text)
  /-- `SELECT level FROM RepoAccess` by path and user -/
  selectLevels : Text → Text → Except Fault (List Int)
  /-- `SELECT COUNT(*) FROM RepoForks` by the path that was forked -/
  countForks : Text → Except Fault Int
  /-- `SELECT COUNT(*) FROM RepoLikes` by path -/
  countLikes : Text → Except Fault Int
  /-- `SELECT COUNT(*) FROM RepoTickets` by number -/
  countTickets : Int → Except Fault Int
  /-- the same count of likes by user, whose parameter is never bound -/
  countLikesUnbound : Except Fault Int
  /-- `SELECT repoPath FROM RepoLikes` by user, limit and offset -/
  selectLikes : Text → Nat → Nat → Except Fault (List Text)
  /-- `SELECT 1 FROM Repos` by owner and name -/
  repoExists : Text → Text → Except Fault Bool
  /-- `INSERT INTO Repos`: whether a row was added -/
  insertRepo : BasicRepo → Text → Int → Int → Except Fault Bool
  isDirectory : Text → Except Fault Bool
  createDirectory : Text → Except Fault Bool
  /-- `git_repository_init_ext` of a bare repository with a description -/
  initBare : Text → Text → Bool
  openDirectory : Text → GitDirectory
  /-- `git http-backend`: its output, when it ends with status 0 -/
  httpBackend : Cgi → Except Fault (Option Text)

/-- `LocalRepo::LocalRepo`, by way of `get_repo`. An object that is still alive was loaded
from the same rows. -/
def getRepo (b : Backend) (repo : BasicRepo) : Except Fault LocalRepo := do
  match ← b.selectRepo repo.owner repo.name with
  | none => return { repo with }
  | some row =>
    let forkOf ← b.selectForkOf repo.path
    return { repo with
      description := row.description, visibility := row.visibility, createTs := row.createTs,
      id := row.id, forkOf := forkOf.getD [] }

/-! ## Access -/

/-- `BasicRepo::Access` -/
inductive Access
  | error
  | blocked
  | read
  | write
  | admin
  | owner
  deriving DecidableEq, Repr

def Access.level : Access → Int
  | .error => -1
  | .blocked => 0
  | .read => 1
  | .write => 2
  | .admin => 3
  | .owner => 4

/-- The user is the local owner. -/
def LocalRepo.OwnedBy (repo : LocalRepo) (user domain : Option Text) : Prop :=
  domain = none ∧ user = some repo.owner

instance (repo : LocalRepo) (user domain : Option Text) : Decidable (repo.OwnedBy user domain) :=
  inferInstanceAs (Decidable (_ ∧ _))

/-- How a user is named in the tables. -/
def userStr (user domain : Option Text) : Text :=
  user.getD [] ++ match domain with
    | none => []
    | some domain => lit "@" ++ domain

/-- `user_can_access_local` -/
def userCanAccessLocal (b : Backend) (repo : LocalRepo) (min : Access)
    (user domain : Option Text) : Except Fault Bool :=
  (b.selectLevels repo.path (userStr user domain)).map fun levels =>
    levels.any fun level => min.level ≤ level

/-- What the visibility says about reading, when it decides. -/
def visibilityRead (repo : LocalRepo) (user domain : Option Text) : Option Bool :=
  if repo.visibility = 3 then some true
  else if repo.visibility = 2 then some user.isSome
  else if repo.visibility = 1 then some (user.isSome && domain.isNone)
  else if repo.visibility = 0 then if repo.OwnedBy user domain then some true else none
  else some false

/-- `LocalRepo::can_access` -/
def canAccess (b : Backend) (repo : LocalRepo) (min : Access) (user domain : Option Text) :
    Except Fault Bool :=
  if ¬ repo.IsLocal then .ok true
  else
    let decided := if min.level ≤ Access.read.level then visibilityRead repo user domain else none
    match decided with
    | some decision => .ok decision
    | none =>
      if repo.OwnedBy user domain then .ok (decide (min.level ≤ Access.owner.level))
      else userCanAccessLocal b repo min user domain

/-! ## Creation -/

/-- The columns of `Repos` that must have a value and have no default. -/
def requiredColumns : List Text := ["userName", "repoName", "createTs", "lastUpdateTs"]

/-- The columns that `LocalRepo::create` gives a value. -/
def createdColumns : List Text := ["userName", "repoName", "description", "visibility", "createTs"]

/-- `LocalRepo::create`: `none` is success. The statement fails when a required column is
left out. -/
def createRepo (b : Backend) (dataDir : Text) (now : Int) (repo : BasicRepo) (description : Text)
    (visibility : Int) : Except Fault (Option Text) := do
  if ¬ repo.IsLocal then return some "4XX: Cannot create non-local repo"
  if ← b.repoExists repo.owner repo.name then
    return some "4XX: Repo with same name already exists"
  let userReposDir := dataDir ++ lit "/repos/" ++ repo.owner
  let repoPath := userReposDir ++ lit "/" ++ repo.name
  if !(← b.isDirectory userReposDir) then
    if !(← b.createDirectory userReposDir) then
      return some "5XX: Failed to create user repos directory"
  if !(← b.createDirectory repoPath) then
    return some "5XX: Failed to create repo directory"
  if !(b.initBare repoPath description) then
    return some "5XX: Server Error: Failed to create bare git repo."
  if requiredColumns.any (· ∉ createdColumns) then .error .sqlite
  else if ← b.insertRepo repo description visibility now then return none
  else return some "5XX: Database Error: Failed to create database entry"

end GitRepos
