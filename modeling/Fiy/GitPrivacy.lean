import Fiy.GitAnswers
import Fiy.PathWalks

/-!
# What a requester sees of a repository without access

Two states of the database and the directories differ in the data of one repository that
the requester may not read. Pages check the access first. The information of the API does
not, and the statement of the search has a rule of its own, so these requests are the ones
that can tell the states apart; and the backend, where it opens another directory than the
one that was checked.
-/

namespace GitPrivacy

open ByteStrings ModConnectors ModLibrary WebText GitRepos GitPages GitSearch GitRouter GitAnswers
  PathWalks

/-! ## States -/

/-- The libraries and programs that look at the file system, where `Content` is what can be
at a place. A call depends on the places its path leads through, and on those below the
directory when it opens or fills one; the backend process on the places it opens, which it
finds by its environment. -/
structure GitLibs (Content : Type) where
  /-- the working directory -/
  here : List Text
  read : (List Text → Content) → Text → GitDirectory
  read_touches : ∀ content content' dir, (∀ place, Touches here dir place →
    content place = content' place) → read content dir = read content' dir
  http : (List Text → Content) → Cgi → Except Fault (Option Text)
  opens : Cgi → List Text → Prop
  http_opens : ∀ content content' cgi, (∀ place, opens cgi place →
    content place = content' place) → http content cgi = http content' cgi
  isDirectory : (List Text → Content) → Text → Except Fault Bool
  isDirectory_visits : ∀ content content' dir, (∀ place, Visits here dir place →
    content place = content' place) → isDirectory content dir = isDirectory content' dir
  createDirectory : (List Text → Content) → Text → Except Fault Bool
  createDirectory_visits : ∀ content content' dir, (∀ place, Visits here dir place →
    content place = content' place) → createDirectory content dir = createDirectory content' dir
  initBare : (List Text → Content) → Text → Text → Bool
  initBare_touches : ∀ content content' dir, (∀ place, Touches here dir place →
    content place = content' place) → initBare content dir = initBare content' dir

/-- The tables with their keys, and the file system. -/
structure GitState (Content : Type) where
  tables : Tables
  content : List Text → Content
  ids : ∀ e ∈ tables.repos, ∀ e' ∈ tables.repos, e.1 = e'.1 → e = e'
  names : ∀ e ∈ tables.repos, ∀ e' ∈ tables.repos,
    e.2.userName = e'.2.userName → e.2.repoName = e'.2.repoName → e = e'

section states
variable {Content : Type}

/-- The row of a name. -/
def GitState.lookup (s : GitState Content) (owner name : Text) : Option (Int × RepoRow) :=
  s.tables.repos.find? fun e => e.2.userName = owner ∧ e.2.repoName = name

/-- The backend as it works on a state. -/
def GitState.backend (libs : GitLibs Content) (host : GitHost) (s : GitState Content) :
    GitBackend where
  selectRepo owner name := .ok <| (s.lookup owner name).map fun e =>
    ⟨e.2.description.getD [], e.2.visibility, e.2.createTs, e.1⟩
  selectForkOf path := .ok <|
    (s.tables.forks.find? fun fork => fork.toRepoPath = path).map ForkRow.fromRepoPath
  selectLevels path user := .ok <|
    (s.tables.access.filter fun grant => grant.repoPath = path ∧ grant.userName = user).map
      AccessRow.level
  countForks path := .ok (s.tables.forks.countP fun fork => fork.fromRepoPath = path)
  countLikes path := .ok (s.tables.likesOf path)
  countTickets id := .ok (s.tables.ticketsOf id)
  countLikesUnbound := .ok 0
  selectLikes user limit offset := .ok <|
    (((s.tables.likes.filter fun like => like.user = user).map LikeRow.repoPath).drop offset).take
      limit
  repoExists owner name := .ok <|
    s.tables.repos.any fun e => e.2.userName = owner ∧ e.2.repoName = name
  insertRepo _ _ _ _ := .error .sqlite
  isDirectory := libs.isDirectory s.content
  createDirectory := libs.createDirectory s.content
  initBare := libs.initBare s.content
  openDirectory := libs.read s.content
  httpBackend := libs.http s.content
  search search user inst := s.tables.search host search user inst

/-- A repository of this instance: its number and its names. -/
structure RepoKey where
  id : Int
  owner : Text
  name : Text
  deriving DecidableEq, Repr

def RepoKey.basic (r : RepoKey) : BasicRepo := { owner := r.owner, name := r.name }

def RepoKey.path (r : RepoKey) : Text := r.owner ++ lit "/" ++ r.name

/-- The row is one of this repository, and a valid one. -/
structure IsRowOf (r : RepoKey) (row : RepoRow) : Prop where
  userName : row.userName = r.owner
  repoName : row.repoName = r.name
  valid : row.createTs ≠ -1

/-- The place is in the directory of the repository. -/
def RepoKey.Owns (r : RepoKey) (libs : GitLibs Content) (host : GitHost) (place : List Text) :
    Prop :=
  Inside place (resolve libs.here (r.basic.fsPath host.dataDir))

/-- The states differ in the data of one repository only: in its row, in its parent, its
access rights, likes and tickets, and in its directory. -/
structure SameBut (libs : GitLibs Content) (host : GitHost) (r : RepoKey)
    (s s' : GitState Content) : Prop where
  rows : ∃ before after row row', s.tables.repos = before ++ (r.id, row) :: after ∧
    s'.tables.repos = before ++ (r.id, row') :: after ∧ IsRowOf r row ∧ IsRowOf r row'
  forks : (s.tables.forks.filter fun fork => fork.toRepoPath ≠ r.path) =
    s'.tables.forks.filter fun fork => fork.toRepoPath ≠ r.path
  access : (s.tables.access.filter fun grant => grant.repoPath ≠ r.path) =
    s'.tables.access.filter fun grant => grant.repoPath ≠ r.path
  likes : (s.tables.likes.filter fun like => like.repoPath ≠ r.path) =
    s'.tables.likes.filter fun like => like.repoPath ≠ r.path
  tickets : (s.tables.tickets.filter fun id => id ≠ r.id) =
    s'.tables.tickets.filter fun id => id ≠ r.id
  content : ∀ place, ¬ r.Owns libs host place → s.content place = s'.content place
  /-- What is stored under the path of the repository is not another one's. -/
  path : ∀ e ∈ s.tables.repos, e.1 ≠ r.id → e.2.path ≠ r.path
  /-- What is in the directory of the repository is not another one's. -/
  apart : ∀ e ∈ s.tables.repos, e.1 ≠ r.id → ∀ place,
    Touches libs.here (host.dataDir ++ lit "/repos/" ++ e.2.path) place → ¬ r.Owns libs host place

/-- The requester does not have this access to the repository. -/
def Denied (libs : GitLibs Content) (host : GitHost) (s : GitState Content) (r : RepoKey)
    (req : ModRequest) (access : Access) : Prop :=
  ∀ repo, getRepo (s.backend libs host).toBackend r.basic = .ok repo →
    canAccess (s.backend libs host).toBackend repo access req.user req.domain = .ok false

/-! ## Requests that look behind the access -/

/-- A request to the API below this path. -/
def IsApi (req : ModRequest) (sub : Text) : Prop :=
  lit "/api" <+: req.path ∧ lit "/repo" <+: apiPath req.path ∧ sub <+: (apiPath req.path).drop 5

/-- The request goes to the API of repositories, or to pages and other routes. -/
def IsRepoRequest (req : ModRequest) : Prop :=
  ¬ (lit "/api" <+: req.path ∧ ¬ lit "/repo" <+: apiPath req.path ∧
    lit "/user/" <+: apiPath req.path)

/-- The request goes to the routes of repositories. -/
structure IsRoute (host : GitHost) (req : ModRequest) : Prop where
  asset : staticAssetRouter host req.path req = .ok none
  user : userRouter host req.path req = .ok none
  api : ¬ lit "/api" <+: req.path
  form : ¬ lit "/repo" <+: req.path

/-- The number of the forks of `path` that are the repository's own. -/
def ownForks (t : Tables) (r : RepoKey) (path : Text) : Nat :=
  t.forks.countP fun fork => fork.toRepoPath = r.path ∧ fork.fromRepoPath = path

/-- The requester, as the access rule of a search takes it. -/
abbrev searcherOf (host : GitHost) (req : ModRequest) : Option (Text × Int) :=
  Tables.searcher host.domain (req.user.getD []) (req.domain.getD [])

/-- The search does not depend on the repository: it is not selected, and neither its
access rights nor its parent decide about other repositories. -/
structure Unselected (host : GitHost) (r : RepoKey) (req : ModRequest) (s : GitState Content)
    (search : RepoSearch) : Prop where
  row : ∀ e ∈ s.tables.repos, e.1 = r.id →
    s.tables.selects host search (searcherOf host req) e.2 = false
  rights : search.visibility.getD 0 = 0 → ∀ user level, searcherOf host req = some (user, level) →
      ∀ e ∈ s.tables.repos, e.1 ≠ r.id → user ++ lit "/" ++ e.2.repoName ≠ r.path
  parent : search.forks ≠ .any → ∀ e ∈ s.tables.repos, e.1 ≠ r.id → e.2.repoName ≠ r.path

/-- The condition under which the states are not told apart. -/
structure Harmless (libs : GitLibs Content) (host : GitHost) (r : RepoKey)
    (s s' : GitState Content) (req : ModRequest) : Prop where
  /-- The information is asked of another repository, which the repository is no fork of,
  or of the same one in both states. -/
  info : IsApi req "/info" → ∀ valid basic,
    fromPath host.domain ((apiPath req.path).drop 10) = .ok (valid, basic) → basic.IsLocal →
      ∀ repo, getRepo (s.backend libs host).toBackend basic = .ok repo → repo.valid = true →
        ¬ (basic.owner = r.owner ∧ basic.name = r.name) ∧
          ownForks s.tables r (host.globalPath basic) =
            ownForks s'.tables r (host.globalPath basic)
  search : IsApi req "/search" →
    Unselected host r req s (searchOf host.domain ((apiPath req.path).drop 12)) ∧
      Unselected host r req s' (searchOf host.domain ((apiPath req.path).drop 12))
  /-- Without the access to read the repository there is none to write it. -/
  write : IsRoute host req → fromPath host.domain req.path = .ok (true, r.basic) →
    IsCgi (subpathOf req.path) → lit "git-receive-pack" <:+: req.path →
      Denied libs host s r req .write ∧ Denied libs host s' r req .write
  /-- When the access to another repository was checked, the backend does not open the
  directory of this one. -/
  confined : IsRoute host req → ∀ {basic}, fromPath host.domain req.path = .ok (true, basic) →
    basic.IsLocal → ¬ (basic.owner = r.owner ∧ basic.name = r.name) →
      IsCgi (subpathOf req.path) → ∀ {repo},
        getRepo (s.backend libs host).toBackend basic = .ok repo → repo.valid = true →
          canAccess (s.backend libs host).toBackend repo (cgiAccess req) req.user req.domain =
            .ok true →
          ∀ place, libs.opens (host.repoCgi req) place → ¬ r.Owns libs host place
  /-- A new repository is not made in the directory of this one. -/
  create : lit "/repo" <+: req.path → lit "/new" <+: req.path.drop 5 → req.method = .post →
    ∀ user fields, req.user = some user → req.domain = none →
      parseFormUrlEncoded req.body = some fields →
      let repo := (fields.foldl (createField host) {}).repo
      repo.IsLocal → repo.owner = user →
        (s.backend libs host).repoExists user repo.name = .ok false → ∀ place,
          Touches libs.here (host.dataDir ++ lit "/repos/" ++ user ++ lit "/" ++ repo.name) place →
            ¬ r.Owns libs host place

end states

/-! ## What both states give -/

section tables
variable {α : Type} {l l' : List α} {p q : α → Prop} [DecidablePred p] [DecidablePred q]

/-- A selection among the rows that are the same selects the same. -/
theorem filter_eq_of_imp (same : (l.filter fun a => p a) = l'.filter fun a => p a)
    (imp : ∀ a, q a → p a) : (l.filter fun a => q a) = l'.filter fun a => q a := by
  have narrow : ∀ l : List α, ((l.filter fun a => p a).filter fun a => q a) =
      l.filter fun a => q a := by
    intro l
    rw [List.filter_filter]
    refine List.filter_congr fun a _ => ?_
    by_cases selected : q a
    · simp [selected, imp a selected]
    · simp [selected]
  rw [← narrow l, same, narrow l']

theorem find?_eq_of_imp (same : (l.filter fun a => p a) = l'.filter fun a => p a)
    (imp : ∀ a, q a → p a) : (l.find? fun a => q a) = l'.find? fun a => q a := by
  rw [← List.head?_filter, ← List.head?_filter, filter_eq_of_imp same imp]

theorem countP_eq_of_imp (same : (l.filter fun a => p a) = l'.filter fun a => p a)
    (imp : ∀ a, q a → p a) : (l.countP fun a => q a) = l'.countP fun a => q a := by
  rw [List.countP_eq_length_filter, List.countP_eq_length_filter, filter_eq_of_imp same imp]

theorem any_eq_of_imp (same : (l.filter fun a => p a) = l'.filter fun a => p a)
    (imp : ∀ a, q a → p a) : (l.any fun a => q a) = l'.any fun a => q a := by
  rw [← List.isSome_find?, ← List.isSome_find?, find?_eq_of_imp same imp]

/-- The rest of the routers matters when this one does not handle the request. -/
theorem orElse_congr {handled next next' : Handled} (same : handled = .ok none → next = next') :
    orElse handled next = orElse handled next' := by
  match handled with
  | .ok none => exact same rfl
  | .ok (some _) => rfl
  | .error _ => rfl

end tables

section agreement
variable {Content : Type} {libs : GitLibs Content} {host : GitHost} {r : RepoKey}
variable {s s' : GitState Content} {req : ModRequest}

/-- An object of another repository. -/
structure Other (libs : GitLibs Content) (host : GitHost) (r : RepoKey) (repo : LocalRepo) :
    Prop where
  id : repo.id ≠ r.id
  path : repo.path ≠ r.path
  apart : ∀ place, Touches libs.here (repo.fsPath host.dataDir) place → ¬ r.Owns libs host place

/-! ### What is stored under other paths and numbers -/

section stored
variable (same : SameBut libs host r s s') {path : Text} (other : path ≠ r.path)
include same other

theorem SameBut.likesOf : s.tables.likesOf path = s'.tables.likesOf path := by
  refine countP_eq_of_imp same.likes ?_
  rintro like rfl
  exact other

theorem SameBut.parentOf : (s.tables.forks.find? fun fork => fork.toRepoPath = path) =
    s'.tables.forks.find? fun fork => fork.toRepoPath = path := by
  refine find?_eq_of_imp same.forks ?_
  rintro fork rfl
  exact other

end stored

theorem SameBut.ticketsOf (same : SameBut libs host r s s') {id : Int} (other : id ≠ r.id) :
    s.tables.ticketsOf id = s'.tables.ticketsOf id := by
  refine countP_eq_of_imp same.tickets ?_
  rintro ticket rfl
  exact other

section other
variable (same : SameBut libs host r s s') {repo : LocalRepo} (other : Other libs host r repo)
include same other

theorem SameBut.selectLevels (user : Text) :
    (s.backend libs host).selectLevels repo.path user =
      (s'.backend libs host).selectLevels repo.path user := by
  have grants : (s.tables.access.filter fun grant =>
        grant.repoPath = repo.path ∧ grant.userName = user) =
      s'.tables.access.filter fun grant =>
        grant.repoPath = repo.path ∧ grant.userName = user := by
    refine filter_eq_of_imp same.access ?_
    rintro grant ⟨ours, -⟩
    rw [ours]
    exact other.path
  exact congrArg (fun grants => Except.ok (grants.map AccessRow.level)) grants

theorem SameBut.canAccess (access : Access) (user domain : Option Text) :
    canAccess (s.backend libs host).toBackend repo access user domain =
      canAccess (s'.backend libs host).toBackend repo access user domain := by
  simp only [GitRepos.canAccess, userCanAccessLocal, same.selectLevels other]

theorem SameBut.countLikes : (s.backend libs host).countLikes repo.path =
    (s'.backend libs host).countLikes repo.path :=
  congrArg (fun count : Nat => Except.ok (count : Int)) (same.likesOf other.path)

theorem SameBut.countTickets : (s.backend libs host).countTickets repo.id =
    (s'.backend libs host).countTickets repo.id :=
  congrArg (fun count : Nat => Except.ok (count : Int)) (same.ticketsOf other.id)

theorem SameBut.openDirectory :
    (s.backend libs host).openDirectory (repo.fsPath host.dataDir) =
      (s'.backend libs host).openDirectory (repo.fsPath host.dataDir) :=
  libs.read_touches _ _ _ fun place touched => same.content place (other.apart place touched)

theorem SameBut.repoPageData :
    host.repoPageData (s.backend libs host).toBackend repo =
      host.repoPageData (s'.backend libs host).toBackend repo := by
  have forks : ∀ t : GitState Content, ∀ path, ∀ f : Int → Except Fault GitHost.RepoPageData,
      ((t.backend libs host).countForks path >>= f) =
        f (t.tables.forks.countP fun fork => fork.fromRepoPath = path) := fun _ _ _ => rfl
  simp only [GitHost.repoPageData, same.openDirectory other, same.countLikes other,
    same.countTickets other, forks]

end other

/-- All forks of a path are the repository's own or those of others. -/
theorem countForks_eq (t : Tables) (r : RepoKey) (path : Text) :
    (t.forks.countP fun fork => fork.fromRepoPath = path) = ownForks t r path +
      t.forks.countP fun fork => fork.fromRepoPath = path ∧ fork.toRepoPath ≠ r.path := by
  unfold ownForks
  induction t.forks with
  | nil => rfl
  | cons fork forks ih =>
    by_cases parent : fork.fromRepoPath = path <;> by_cases own : fork.toRepoPath = r.path <;>
      simp [parent, own, ih] <;> omega

theorem SameBut.countForks (same : SameBut libs host r s s') {path : Text}
    (own : ownForks s.tables r path = ownForks s'.tables r path) :
    (s.backend libs host).countForks path = (s'.backend libs host).countForks path := by
  have others : (s.tables.forks.countP fun fork =>
        fork.fromRepoPath = path ∧ fork.toRepoPath ≠ r.path) =
      s'.tables.forks.countP fun fork =>
        fork.fromRepoPath = path ∧ fork.toRepoPath ≠ r.path :=
    countP_eq_of_imp same.forks fun _ both => both.2
  refine congrArg (fun count : Nat => Except.ok (count : Int)) ?_
  rw [countForks_eq s.tables r, countForks_eq s'.tables r, own, others]

theorem SameBut.infoDto (same : SameBut libs host r s s') {repo : LocalRepo}
    (other : Other libs host r repo)
    (own : ownForks s.tables r (host.globalPath repo.toBasicRepo) =
      ownForks s'.tables r (host.globalPath repo.toBasicRepo)) :
    host.infoDto (s.backend libs host).toBackend repo =
      host.infoDto (s'.backend libs host).toBackend repo := by
  simp only [GitHost.infoDto, same.openDirectory other, same.countLikes other,
    same.countTickets other, same.countForks own]

/-! ## Objects -/

theorem SameBut.row_mem (same : SameBut libs host r s s') :
    ∃ row, (r.id, row) ∈ s.tables.repos ∧ IsRowOf r row := by
  obtain ⟨before, after, row, row', rows, -, is, -⟩ := same.rows
  exact ⟨row, by rw [rows]; simp, is⟩

/-- A row with other names has another number. -/
theorem SameBut.other_row (same : SameBut libs host r s s') {e : Int × RepoRow}
    (mem : e ∈ s.tables.repos) (names : ¬ (e.2.userName = r.owner ∧ e.2.repoName = r.name)) :
    e.1 ≠ r.id := by
  intro id
  obtain ⟨row, ours, is⟩ := same.row_mem
  obtain rfl := s.ids e mem _ ours id
  exact names ⟨is.userName, is.repoName⟩

theorem lookup_some {s : GitState Content} {owner name : Text} {e : Int × RepoRow}
    (found : s.lookup owner name = some e) :
    e ∈ s.tables.repos ∧ e.2.userName = owner ∧ e.2.repoName = name :=
  ⟨List.mem_of_find?_eq_some found, by simpa using List.find?_some found⟩

/-- A lookup by other names finds the same. -/
theorem SameBut.lookup_other (same : SameBut libs host r s s') {owner name : Text}
    (names : ¬ (owner = r.owner ∧ name = r.name)) : s.lookup owner name = s'.lookup owner name := by
  obtain ⟨before, after, row, row', rows, rows', is, is'⟩ := same.rows
  have skip : ∀ row, IsRowOf r row → ¬ (row.userName = owner ∧ row.repoName = name) := by
    rintro row is ⟨user, repo⟩
    exact names ⟨user.symm.trans is.userName, repo.symm.trans is.repoName⟩
  unfold GitState.lookup
  rw [rows, rows', List.find?_append, List.find?_append, List.find?_cons_of_neg,
    List.find?_cons_of_neg]
  · simpa using skip row' is'
  · simpa using skip row is

/-- The object a name is looked up to. -/
def GitState.object (s : GitState Content) (basic : BasicRepo) : LocalRepo :=
  match s.lookup basic.owner basic.name with
  | none => { basic with }
  | some e =>
    { basic with
      description := e.2.description.getD [], visibility := e.2.visibility
      createTs := e.2.createTs, id := e.1
      forkOf := ((s.tables.forks.find? fun fork => fork.toRepoPath = basic.path).map
        ForkRow.fromRepoPath).getD [] }

theorem getRepo_eq (libs : GitLibs Content) (host : GitHost) (s : GitState Content)
    (basic : BasicRepo) :
    getRepo (s.backend libs host).toBackend basic = .ok (s.object basic) := by
  have row : (s.backend libs host).selectRepo basic.owner basic.name =
      .ok ((s.lookup basic.owner basic.name).map fun e =>
        ⟨e.2.description.getD [], e.2.visibility, e.2.createTs, e.1⟩) := rfl
  unfold getRepo GitState.object
  rw [row]
  cases s.lookup basic.owner basic.name <;> rfl

theorem object_basic (s : GitState Content) (basic : BasicRepo) :
    (s.object basic).toBasicRepo = basic := by
  unfold GitState.object
  split <;> rfl

/-- A valid object of another repository has a row of its own. -/
theorem SameBut.object_other (same : SameBut libs host r s s') {basic : BasicRepo}
    (names : ¬ (basic.owner = r.owner ∧ basic.name = r.name)) (here : basic.IsLocal)
    (valid : (s.object basic).valid = true) : Other libs host r (s.object basic) := by
  cases found : s.lookup basic.owner basic.name with
  | none => simp [GitState.object, found, LocalRepo.valid] at valid
  | some e =>
    obtain ⟨mem, owner, name⟩ := lookup_some found
    have id := same.other_row mem (by rwa [owner, name])
    have path : basic.path = e.2.path := by rw [here.path, ← owner, ← name, RepoRow.path]
    constructor
    · simpa [GitState.object, found] using id
    · rw [object_basic, path]
      exact same.path e mem id
    · rw [object_basic, BasicRepo.fsPath, if_pos here, path]
      exact same.apart e mem id

/-- The object of another repository, or of none, is the same in both states. -/
theorem SameBut.object_eq (same : SameBut libs host r s s') {basic : BasicRepo}
    (names : ¬ (basic.owner = r.owner ∧ basic.name = r.name)) (here : basic.IsLocal) :
    s.object basic = s'.object basic := by
  unfold GitState.object
  rw [← same.lookup_other names]
  cases found : s.lookup basic.owner basic.name with
  | none => rfl
  | some e =>
    obtain ⟨mem, owner, name⟩ := lookup_some found
    have path : basic.path ≠ r.path := by
      rw [here.path, ← owner, ← name]
      exact same.path e mem (same.other_row mem (by rwa [owner, name]))
    simp only [same.parentOf path]

/-- The object of the repository is valid in both states. -/
theorem object_valid {t : GitState Content} {before after : List (Int × RepoRow)} {row : RepoRow}
    (rows : t.tables.repos = before ++ (r.id, row) :: after) (is : IsRowOf r row) :
    (t.object r.basic).valid = true := by
  have mem : (r.id, row) ∈ t.tables.repos := by rw [rows]; simp
  cases found : t.lookup r.basic.owner r.basic.name with
  | none =>
    have absent := List.find?_eq_none.mp found _ mem
    simp [is.userName, is.repoName, RepoKey.basic] at absent
  | some e =>
    obtain ⟨found_mem, owner, name⟩ := lookup_some found
    obtain rfl := t.names e found_mem _ mem (owner.trans is.userName.symm)
      (name.trans is.repoName.symm)
    simpa [GitState.object, found, LocalRepo.valid] using is.valid

theorem SameBut.valid (same : SameBut libs host r s s') :
    (s.object r.basic).valid = true ∧ (s'.object r.basic).valid = true := by
  obtain ⟨before, after, row, row', rows, rows', is, is'⟩ := same.rows
  exact ⟨object_valid rows is, object_valid rows' is'⟩

/-! ## Search -/

/-- The tables say the same about a row of another repository. -/
structure AgreeOn (t t' : Tables) (e : Int × RepoRow) : Prop where
  likes : t.likesOf e.2.path = t'.likesOf e.2.path
  tickets : t.ticketsOf e.1 = t'.ticketsOf e.1
  parent : (t.forks.find? fun fork => fork.toRepoPath = e.2.path) =
    t'.forks.find? fun fork => fork.toRepoPath = e.2.path

theorem AgreeOn.sortKey {t t' : Tables} {e : Int × RepoRow} (agree : AgreeOn t t' e)
    (sort : SearchSort) : t.sortKey sort e.2 = t'.sortKey sort e.2 := by
  cases sort <;> simp only [Tables.sortKey, agree.likes]

theorem AgreeOn.column {t t' : Tables} {e : Int × RepoRow} (agree : AgreeOn t t' e)
    (part : Part) : t.column e.1 e.2 part = t'.column e.1 e.2 part := by
  cases part <;> simp only [Tables.column, agree.likes, agree.tickets, agree.parent]

/-- The result is made of the selected rows. -/
theorem search_congr {t t' : Tables} {host : GitHost} {search : RepoSearch} {user inst : Text}
    (selected : (t.repos.filter fun e =>
        t.selects host search (Tables.searcher host.domain user inst) e.2) =
      t'.repos.filter fun e =>
        t'.selects host search (Tables.searcher host.domain user inst) e.2)
    (agree : ∀ e ∈ t.repos, t.selects host search (Tables.searcher host.domain user inst) e.2 →
      AgreeOn t t' e) :
    t.search host search user inst = t'.search host search user inst := by
  have keyed : ∀ e ∈ t.repos.filter fun e =>
      t.selects host search (Tables.searcher host.domain user inst) e.2,
        AgreeOn t t' e := by
    intro e mem
    rw [List.mem_filter] at mem
    exact agree e mem.1 mem.2
  simp only [Tables.search, ← selected]
  generalize (t.repos.filter fun e =>
    t.selects host search (Tables.searcher host.domain user inst) e.2) = rows at keyed
  have keys : (rows.map fun e => (t.sortKey search.sort e.2, e)) =
      rows.map fun e => (t'.sortKey search.sort e.2, e) :=
    List.map_congr_left fun e mem => by rw [(keyed e mem).sortKey]
  have cells : ∀ shown : List (Int × RepoRow), (∀ e ∈ shown, e ∈ rows) →
      shown.map (fun e => search.fieldsOrDefault.map (t.column e.1 e.2)) =
        shown.map fun e => search.fieldsOrDefault.map (t'.column e.1 e.2) :=
    fun shown sub => List.map_congr_left fun e mem =>
      List.map_congr_left fun part _ => (keyed e (sub e mem)).column part
  rw [← keys, cells]
  intro e mem
  have mem := List.mem_of_mem_drop (List.mem_of_mem_take mem)
  obtain ⟨entry, entry_mem, rfl⟩ := List.mem_map.mp mem
  obtain ⟨e, selected_mem, rfl⟩ := List.mem_map.mp (List.mem_mergeSort.mp entry_mem)
  exact selected_mem

theorem SameBut.agreeOn (same : SameBut libs host r s s') {e : Int × RepoRow}
    (mem : e ∈ s.tables.repos) (other : e.1 ≠ r.id) : AgreeOn s.tables s'.tables e := by
  have path : e.2.path ≠ r.path := same.path e mem other
  constructor
  · exact same.likesOf path
  · exact same.ticketsOf other
  · exact same.parentOf path

section selected
variable {search : RepoSearch}

/-- The access rule reads rights under the name of the requester. -/
theorem SameBut.accessCondition (same : SameBut libs host r s s')
    (unselected : Unselected host r req s search) (used : search.visibility.getD 0 = 0)
    {e : Int × RepoRow} (mem : e ∈ s.tables.repos) (other : e.1 ≠ r.id) :
    s.tables.accessCondition (searcherOf host req) e.2 =
      s'.tables.accessCondition (searcherOf host req) e.2 := by
  cases found : searcherOf host req with
  | none => rfl
  | some requester =>
    obtain ⟨user, level⟩ := requester
    refine congrArg (decide (level < e.2.visibility) || ·) (any_eq_of_imp same.access ?_)
    rintro grant ⟨named, -, path⟩
    rw [path, named]
    exact unselected.rights used user level found e mem other

theorem SameBut.selects (same : SameBut libs host r s s') (unselected : Unselected host r req s search)
    {e : Int × RepoRow} (mem : e ∈ s.tables.repos) (other : e.1 ≠ r.id) :
    s.tables.selects host search (searcherOf host req) e.2 =
      s'.tables.selects host search (searcherOf host req) e.2 := by
  have forks : search.forks ≠ .any → (s.tables.forks.any fun fork =>
        fork.toRepoPath = e.2.repoName && fork.user = e.2.userName) =
      s'.tables.forks.any fun fork =>
        fork.toRepoPath = e.2.repoName && fork.user = e.2.userName := by
    intro filtered
    simp only [← Bool.decide_and]
    refine any_eq_of_imp same.forks ?_
    rintro fork ⟨ours, -⟩
    rw [ours]
    exact unselected.parent filtered e mem other
  have access := fun used => same.accessCondition unselected used mem other
  have likes := (same.agreeOn mem other).likes
  -- the rule and the forks are looked at for some filters only
  rcases shown : search.visibility with _ | _ | level <;> cases kind : search.forks <;>
    simp [Tables.selects, shown, kind, likes, access, forks]

/-- Both states select the same rows. -/
theorem SameBut.selected (same : SameBut libs host r s s') (unselected : Unselected host r req s search)
    (unselected' : Unselected host r req s' search) :
    (s.tables.repos.filter fun e => s.tables.selects host search (searcherOf host req) e.2) =
      s'.tables.repos.filter fun e =>
        s'.tables.selects host search (searcherOf host req) e.2 := by
  obtain ⟨before, after, row, row', rows, rows', is, is'⟩ := same.rows
  have hidden := unselected.row (r.id, row) (by rw [rows]; simp) rfl
  have hidden' := unselected'.row (r.id, row') (by rw [rows']; simp) rfl
  have around : ∀ e, e ∈ s.tables.repos → e ∈ s'.tables.repos →
      s.tables.selects host search (searcherOf host req) e.2 =
        s'.tables.selects host search (searcherOf host req) e.2 := by
    intro e mem mem'
    by_cases ours : e.1 = r.id
    · rw [unselected.row e mem ours, unselected'.row e mem' ours]
    · exact same.selects unselected mem ours
  rw [rows, rows'] at around
  rw [rows, rows', List.filter_append, List.filter_append, List.filter_cons_of_neg (by simpa),
    List.filter_cons_of_neg (by simpa)]
  refine congrArg₂ (· ++ ·) (List.filter_congr ?_) (List.filter_congr ?_)
  · intro e mem
    exact around e (by simp [mem]) (by simp [mem])
  · intro e mem
    exact around e (by simp [mem]) (by simp [mem])

theorem SameBut.search_eq (same : SameBut libs host r s s')
    (unselected : Unselected host r req s search)
    (unselected' : Unselected host r req s' search) :
    (s.backend libs host).search search (req.user.getD []) (req.domain.getD []) =
      (s'.backend libs host).search search (req.user.getD []) (req.domain.getD []) := by
  refine search_congr (same.selected unselected unselected') ?_
  intro e mem selected
  refine same.agreeOn mem ?_
  intro ours
  rw [unselected.row e mem ours] at selected
  exact Bool.noConfusion selected

end selected

/-! ## The API -/

theorem basic_eq {basic : BasicRepo} (here : basic.IsLocal)
    (names : basic.owner = r.owner ∧ basic.name = r.name) : basic = r.basic := by
  obtain ⟨inst, owner, name⟩ := basic
  obtain rfl : inst = [] := here
  obtain ⟨rfl, rfl⟩ := names
  rfl

/-- Whether there is a repository of a name is no secret. -/
theorem SameBut.valid_eq (same : SameBut libs host r s s') {basic : BasicRepo} (here : basic.IsLocal) :
    (s.object basic).valid = (s'.object basic).valid := by
  by_cases names : basic.owner = r.owner ∧ basic.name = r.name
  · rw [basic_eq here names, same.valid.1, same.valid.2]
  · rw [same.object_eq names here]

/-- Handlers of the API agree when they do on the repository that is named. -/
theorem SameBut.namedRepo (same : SameBut libs host r s s') {path : Text}
    {loaded loaded' : LocalRepo → Handled}
    (agree : ∀ valid basic, fromPath host.domain path = .ok (valid, basic) → basic.IsLocal →
      (s.object basic).valid = true → loaded (s.object basic) = loaded' (s'.object basic)) :
    namedRepo host (s.backend libs host) path loaded =
      namedRepo host (s'.backend libs host) path loaded' := by
  unfold GitRouter.namedRepo
  cases parsed : fromPath host.domain path with
  | error fault => rfl
  | ok found =>
    obtain ⟨valid, basic⟩ := found
    by_cases here : basic.IsLocal
    · simp only [andThen, here, not_true_eq_false, if_false, getRepo_eq, ← same.valid_eq here]
      split
      · next loads => exact agree valid basic parsed here loads
      · rfl
    · simp only [andThen, here, not_false_eq_true, if_true]

theorem SameBut.repoInfo (same : SameBut libs host r s s') {path : Text}
    (elsewhere : ∀ valid basic, fromPath host.domain path = .ok (valid, basic) → basic.IsLocal →
      ∀ repo, getRepo (s.backend libs host).toBackend basic = .ok repo → repo.valid = true →
      ¬ (basic.owner = r.owner ∧ basic.name = r.name) ∧
        ownForks s.tables r (host.globalPath basic) =
          ownForks s'.tables r (host.globalPath basic)) :
    repoInfo host (s.backend libs host) path = repoInfo host (s'.backend libs host) path := by
  refine same.namedRepo ?_
  intro valid basic parsed here loads
  obtain ⟨names, own⟩ :=
    elsewhere valid basic parsed here _ (getRepo_eq libs host s basic) loads
  have other := same.object_other names here loads
  have info : host.infoDto (s.backend libs host).toBackend (s.object basic) =
      host.infoDto (s'.backend libs host).toBackend (s.object basic) :=
    same.infoDto other (by rwa [object_basic])
  rw [← same.object_eq names here, info]

theorem SameBut.repoTree (same : SameBut libs host r s s') (path : Text) :
    repoTree host (s.backend libs host) path = repoTree host (s'.backend libs host) path :=
  same.namedRepo fun _ _ _ _ _ => rfl

theorem SameBut.repoApi (same : SameBut libs host r s s') (harmless : Harmless libs host r s s' req)
    (api : lit "/api" <+: req.path) (repo : lit "/repo" <+: apiPath req.path) :
    repoApi host (s.backend libs host) ((apiPath req.path).drop 5) req =
      repoApi host (s'.backend libs host) ((apiPath req.path).drop 5) req := by
  unfold GitRouter.repoApi
  refine ite_congr rfl ?_ fun _ => ite_congr rfl ?_ fun _ => ite_congr rfl ?_ fun _ => rfl
  · intro info
    rw [List.drop_drop]
    exact same.repoInfo (harmless.info ⟨api, repo, info⟩)
  · intro _
    exact same.repoTree _
  · intro search
    obtain ⟨unselected, unselected'⟩ := harmless.search ⟨api, repo, search⟩
    rw [List.drop_drop]
    simp only [repoSearch, same.search_eq unselected unselected']

theorem SameBut.apiRouter (same : SameBut libs host r s s') (harmless : Harmless libs host r s s' req)
    (route : IsRepoRequest req) :
    apiRouter host (s.backend libs host) req.path req =
      apiRouter host (s'.backend libs host) req.path req := by
  unfold GitRouter.apiRouter
  by_cases api : lit "/api" <+: req.path
  · have handlers : apiHandlers host (s.backend libs host) (apiPath req.path) req =
        apiHandlers host (s'.backend libs host) (apiPath req.path) req := by
      unfold apiHandlers
      by_cases repo : lit "/repo" <+: apiPath req.path
      · simp only [if_pos repo]
        exact same.repoApi harmless api repo
      · have user : ¬ lit "/user/" <+: apiPath req.path := fun user => route ⟨api, repo, user⟩
        simp only [if_neg repo, if_neg user]
    rw [handlers]
  · simp only [if_pos api]

/-! ## Pages, forms and the backend -/

theorem SameBut.repoExists (same : SameBut libs host r s s') (owner name : Text) :
    (s.backend libs host).repoExists owner name = (s'.backend libs host).repoExists owner name := by
  obtain ⟨before, after, row, row', rows, rows', is, is'⟩ := same.rows
  refine congrArg Except.ok ?_
  simp only [rows, rows', List.any_append, List.any_cons, is.userName, is.repoName, is'.userName,
    is'.repoName]

/-- A creation that does not look into the directory of the repository ends the same way. -/
theorem SameBut.createRepo (same : SameBut libs host r s s') {repo : BasicRepo}
    (apart : repo.IsLocal → (s.backend libs host).repoExists repo.owner repo.name = .ok false →
      ∀ place, Touches libs.here
        (host.dataDir ++ lit "/repos/" ++ repo.owner ++ lit "/" ++ repo.name) place →
          ¬ r.Owns libs host place) (description : Text) (visibility : Int) :
    createRepo (s.backend libs host).toBackend host.dataDir host.now repo description visibility =
      createRepo (s'.backend libs host).toBackend host.dataDir host.now repo description
        visibility := by
  unfold GitRepos.createRepo
  refine ite_congr rfl (fun _ => rfl) fun local_ => ?_
  rw [← same.repoExists repo.owner repo.name]
  obtain ⟨taken, exists_⟩ : ∃ taken, (s.backend libs host).repoExists repo.owner repo.name =
      .ok taken := ⟨_, rfl⟩
  cases taken with
  | true => rw [exists_]; rfl
  | false =>
  rw [exists_]
  have touched : ∀ place, Touches libs.here
      (host.dataDir ++ lit "/repos/" ++ repo.owner ++ lit "/" ++ repo.name) place →
        s.content place = s'.content place :=
    fun place touches => same.content place (apart (not_not.mp local_) exists_ place touches)
  have visited : ∀ place, Visits libs.here (host.dataDir ++ lit "/repos/" ++ repo.owner) place →
      s.content place = s'.content place := by
    intro place visits
    have below := visits.slash (by simp [lit]) repo.name
    rw [List.append_cons] at below
    exact touched place (Or.inl below)
  have exist : (s.backend libs host).isDirectory (host.dataDir ++ lit "/repos/" ++ repo.owner) =
      (s'.backend libs host).isDirectory (host.dataDir ++ lit "/repos/" ++ repo.owner) :=
    libs.isDirectory_visits _ _ _ visited
  have parent : (s.backend libs host).createDirectory
        (host.dataDir ++ lit "/repos/" ++ repo.owner) =
      (s'.backend libs host).createDirectory (host.dataDir ++ lit "/repos/" ++ repo.owner) :=
    libs.createDirectory_visits _ _ _ visited
  have made : (s.backend libs host).createDirectory
        (host.dataDir ++ lit "/repos/" ++ repo.owner ++ lit "/" ++ repo.name) =
      (s'.backend libs host).createDirectory
        (host.dataDir ++ lit "/repos/" ++ repo.owner ++ lit "/" ++ repo.name) :=
    libs.createDirectory_visits _ _ _ fun place visits => touched place (Or.inl visits)
  have filled : (s.backend libs host).initBare
        (host.dataDir ++ lit "/repos/" ++ repo.owner ++ lit "/" ++ repo.name) =
      (s'.backend libs host).initBare
        (host.dataDir ++ lit "/repos/" ++ repo.owner ++ lit "/" ++ repo.name) :=
    libs.initBare_touches _ _ _ touched
  have added : (s.backend libs host).insertRepo = (s'.backend libs host).insertRepo := rfl
  simp only [exist, parent, made, filled, added]

theorem SameBut.repoCreatePost (same : SameBut libs host r s s')
    (apart : ∀ user fields, req.user = some user → req.domain = none →
      parseFormUrlEncoded req.body = some fields →
      let repo := (fields.foldl (createField host) {}).repo
      repo.IsLocal → repo.owner = user →
        (s.backend libs host).repoExists user repo.name = .ok false → ∀ place,
          Touches libs.here (host.dataDir ++ lit "/repos/" ++ user ++ lit "/" ++ repo.name) place →
            ¬ r.Owns libs host place) :
    repoCreatePost host (s.backend libs host) req =
      repoCreatePost host (s'.backend libs host) req := by
  unfold GitRouter.repoCreatePost
  cases user : req.user with
  | none => rfl
  | some name => cases domain : req.domain with
    | some _ => rfl
    | none => cases body : parseFormUrlEncoded req.body with
      | none => rfl
      | some fields =>
        unfold createFrom
        refine ite_congr rfl (fun _ => rfl) fun owner => ?_
        obtain rfl := not_not.mp owner
        rw [same.createRepo fun here free => apart _ fields user domain body here rfl free]

theorem SameBut.repoForms (same : SameBut libs host r s s')
    (harmless : Harmless libs host r s s' req) (form : lit "/repo" <+: req.path) :
    repoForms host (s.backend libs host) (req.path.drop 5) req =
      repoForms host (s'.backend libs host) (req.path.drop 5) req := by
  unfold GitRouter.repoForms
  refine ite_congr rfl (fun _ => rfl) fun _ => ite_congr rfl (fun new => ?_) fun _ => rfl
  refine ite_congr rfl (fun _ => rfl) fun _ => ite_congr rfl (fun post => ?_) fun _ => rfl
  exact same.repoCreatePost (harmless.create form new post)

/-- The repository itself is not shown. -/
theorem repoPage_denied {t : GitState Content} (denied : Denied libs host t r req .read) :
    repoPage host (t.backend libs host) (t.object r.basic) req = unauthenticated host req := by
  unfold GitRouter.repoPage
  rw [denied _ (getRepo_eq libs host t r.basic)]
  rfl

theorem SameBut.repoPage_other (same : SameBut libs host r s s') {repo : LocalRepo}
    (other : Other libs host r repo) :
    repoPage host (s.backend libs host) repo req =
      repoPage host (s'.backend libs host) repo req := by
  simp only [GitRouter.repoPage, same.canAccess other, same.repoPageData other]

/-- What the backend answers when the access is denied. -/
theorem repoCgi_denied {t : GitState Content} (denied : Denied libs host t r req (cgiAccess req)) :
    repoCgi host (t.backend libs host) (t.object r.basic) req =
      if lit "git/" <+: findHeader req "User-Agent" then
        reply 401 "WWW-Authenticate: Basic charset=\"UTF-8\"" []
      else unauthenticated host req := by
  unfold GitRouter.repoCgi
  rw [denied _ (getRepo_eq libs host t r.basic)]
  rfl

theorem SameBut.repoCgi_other (same : SameBut libs host r s s') {repo : LocalRepo}
    (other : Other libs host r repo)
    (confined : GitRepos.canAccess (s.backend libs host).toBackend repo (cgiAccess req) req.user
      req.domain = .ok true →
        ∀ place, libs.opens (host.repoCgi req) place → ¬ r.Owns libs host place) :
    repoCgi host (s.backend libs host) repo req = repoCgi host (s'.backend libs host) repo req := by
  unfold GitRouter.repoCgi
  rw [← same.canAccess other]
  cases checked : GitRepos.canAccess (s.backend libs host).toBackend repo (cgiAccess req) req.user
      req.domain with
  | error fault => rfl
  | ok allowed =>
    cases allowed with
    | false => rfl
    | true =>
      have output : libs.http s.content (host.repoCgi req) =
          libs.http s'.content (host.repoCgi req) := by
        refine libs.http_opens _ _ _ ?_
        intro place opened
        exact same.content place (confined checked place opened)
      simp only [andThen, if_true, gitRepoCgi, GitState.backend, output]

/-- Only a page of the repository and what `git` serves depend on the state. -/
theorem localRepo_congr {b b' : GitBackend} {repo repo' : LocalRepo} {subpath : Text}
    (page : IsPage subpath → repoPage host b repo req = repoPage host b' repo' req)
    (cgi : ¬ IsPage subpath → ¬ lit "commit/" <+: subpath → ¬ lit "tickets" <+: subpath →
      repoCgi host b repo req = repoCgi host b' repo' req) :
    localRepo host b repo subpath req = localRepo host b' repo' subpath req := by
  unfold localRepo
  refine ite_congr rfl page fun page => ?_
  refine ite_congr rfl (fun _ => rfl) fun commit => ?_
  exact ite_congr rfl (fun _ => rfl) fun tickets => cgi page commit tickets

theorem localRepo_self (denied : Denied libs host s r req .read)
    (denied' : Denied libs host s' r req .read) (harmless : Harmless libs host r s s' req)
    (route : IsRoute host req)
    (parsed : fromPath host.domain req.path = .ok (true, r.basic)) :
    localRepo host (s.backend libs host) (s.object r.basic) (subpathOf req.path) req =
      localRepo host (s'.backend libs host) (s'.object r.basic) (subpathOf req.path) req := by
  refine localRepo_congr (fun _ => ?_) fun page commit tickets => ?_
  · rw [repoPage_denied denied, repoPage_denied denied']
  · have both : Denied libs host s r req (cgiAccess req) ∧
        Denied libs host s' r req (cgiAccess req) := by
      unfold cgiAccess
      by_cases push : lit "git-receive-pack" <:+: req.path
      · rw [if_pos push]
        exact harmless.write route parsed ⟨page, commit, tickets⟩ push
      · rw [if_neg push]
        exact ⟨denied, denied'⟩
    rw [repoCgi_denied both.1, repoCgi_denied both.2]

theorem SameBut.localRepo_other (same : SameBut libs host r s s')
    (harmless : Harmless libs host r s s' req) (route : IsRoute host req) {basic : BasicRepo}
    (parsed : fromPath host.domain req.path = .ok (true, basic)) (here : basic.IsLocal)
    (names : ¬ (basic.owner = r.owner ∧ basic.name = r.name))
    (valid : (s.object basic).valid = true) :
    localRepo host (s.backend libs host) (s.object basic) (subpathOf req.path) req =
      localRepo host (s'.backend libs host) (s.object basic) (subpathOf req.path) req := by
  have other := same.object_other names here valid
  refine localRepo_congr (fun _ => same.repoPage_other other) fun page commit tickets => ?_
  refine same.repoCgi_other other ?_
  exact harmless.confined route parsed here names ⟨page, commit, tickets⟩
    (getRepo_eq libs host s basic) valid

theorem SameBut.repoRouter (same : SameBut libs host r s s') (denied : Denied libs host s r req .read)
    (denied' : Denied libs host s' r req .read) (harmless : Harmless libs host r s s' req)
    (asset : staticAssetRouter host req.path req = .ok none)
    (user : userRouter host req.path req = .ok none) (api : ¬ lit "/api" <+: req.path) :
    repoRouter host (s.backend libs host) req.path req =
      repoRouter host (s'.backend libs host) req.path req := by
  unfold GitRouter.repoRouter
  refine ite_congr rfl (fun _ => rfl) fun _ => ?_
  refine ite_congr rfl (fun form => same.repoForms harmless form) fun form => ?_
  have route : IsRoute host req := ⟨asset, user, api, form⟩
  cases parsed : fromPath host.domain req.path with
  | error fault => rfl
  | ok found =>
    obtain ⟨valid, basic⟩ := found
    cases valid with
    | false => rfl
    | true =>
      by_cases here : basic.IsLocal
      · simp only [andThen, here, not_true_eq_false, if_false, getRepo_eq, ← same.valid_eq here,
          Bool.not_true, Bool.false_eq_true]
        refine ite_congr rfl (fun loads => ?_) fun _ => rfl
        by_cases names : basic.owner = r.owner ∧ basic.name = r.name
        · obtain rfl := basic_eq here names
          exact localRepo_self denied denied' harmless route parsed
        · rw [← same.object_eq names here]
          exact same.localRepo_other harmless route parsed here names loads
      · simp only [andThen, here, not_false_eq_true, if_true, Bool.not_true, Bool.false_eq_true,
          if_false]

/-- The states are not told apart. -/
theorem SameBut.handleRequest (same : SameBut libs host r s s')
    (denied : Denied libs host s r req .read) (denied' : Denied libs host s' r req .read)
    (harmless : Harmless libs host r s s' req) (request : IsRepoRequest req) :
    handleRequest host (s.backend libs host) req =
      handleRequest host (s'.backend libs host) req := by
  unfold GitRouter.handleRequest
  refine orElse_congr fun asset => orElse_congr fun user => ?_
  rw [← same.apiRouter harmless request]
  refine orElse_congr fun skipped => ?_
  rw [same.repoRouter denied denied' harmless asset user fun api => apiRouter_ne req api skipped]

end agreement

/-! ## The law -/

/-- The requester gets the same responses in both states, whatever peers answer. -/
def SameResponses {Content : Type} (libs : GitLibs Content) (host : GitHost)
    (s s' : GitState Content) (req : ModRequest) : Prop :=
  ∀ peer, answers host peer (handleRequest host (s.backend libs host) req) =
    answers host peer (handleRequest host (s'.backend libs host) req)

/-- Directories have no content, and the backend does not look at them. -/
def demoLibs : GitLibs Unit where
  here := []
  read _ _ := ⟨"main", 1, 0, fun _ => none⟩
  read_touches _ _ _ _ := rfl
  http _ _ := .ok none
  opens _ _ := False
  http_opens _ _ _ _ := rfl
  isDirectory _ _ := .ok true
  isDirectory_visits _ _ _ _ := rfl
  createDirectory _ _ := .ok true
  createDirectory_visits _ _ _ _ := rfl
  initBare _ _ _ := true
  initBare_touches _ _ _ _ := rfl

/-- `alice/secret` -/
def secret : RepoKey := ⟨1, "alice", "secret"⟩

def secretRow (description : Text) (visibility : Int) : RepoRow where
  userName := "alice"
  repoName := "secret"
  description := some description
  visibility := visibility
  createTs := 0
  lastUpdateTs := 0

/-- The repository is the only one. -/
def onlySecret (description : Text) (visibility : Int) : GitState Unit where
  tables := ⟨[(1, secretRow description visibility)], [], [], [], []⟩
  content _ := ()
  ids := by simp
  names := by simp

theorem onlySecret_same (host : GitHost) (description description' : Text)
    (visibility visibility' : Int) :
    SameBut demoLibs host secret (onlySecret description visibility)
      (onlySecret description' visibility') where
  rows := ⟨[], [], _, _, rfl, rfl, ⟨rfl, rfl, by simp [secretRow]⟩,
    ⟨rfl, rfl, by simp [secretRow]⟩⟩
  forks := rfl
  access := rfl
  likes := rfl
  tickets := rfl
  content _ _ := rfl
  path := by simp [onlySecret, secret]
  apart := by simp [onlySecret, secret]

theorem denied_of_object {Content : Type} {libs : GitLibs Content} {host : GitHost} {r : RepoKey}
    {s : GitState Content} {req : ModRequest} {access : Access}
    (denied : canAccess (s.backend libs host).toBackend (s.object r.basic) access req.user
      req.domain = .ok false) : Denied libs host s r req access := by
  intro repo found
  rw [getRepo_eq, Except.ok.injEq] at found
  rwa [← found]

/-- An anonymous request. -/
def anonymous (path : Text) : ModRequest where
  method := .get
  path := path
  body := []
  domain := none
  user := none
  headers := none

def clone : ModRequest := anonymous "/alice/secret/info/refs?service=git-upload-pack"

/-- The information of a private repository. -/
def infoOfSecret : ModRequest := anonymous "/api/repo/info/alice/secret"

/-- A search among the repositories that are shown to other instances. -/
def searchFederated : ModRequest := anonymous "/api/repo/search?visibility=2"

end GitPrivacy
