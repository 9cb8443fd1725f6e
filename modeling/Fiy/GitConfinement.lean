import Fiy.GitRouter
import Fiy.PathWalks

/-!
# Where the git backend works

The repository whose access is checked comes from the parsed address, and the directory
the backend works in from the address as it stands. The backend finds the repository by
`PATH_TRANSLATED`, and how it reads the service from a query is a parameter.
-/

namespace GitConfinement

open ByteStrings ModConnectors ModLibrary GitRepos GitPages GitRouter PathWalks

section runs
variable (host : GitHost) (b : GitBackend) (req : ModRequest)

/-- The request runs the backend, by way of a repository object. -/
def Runs (repo : LocalRepo) (cgi : Cgi) : Prop :=
  .httpCgi repo cgi ∈ effects (repoRouter host b req.path req)

instance (repo : LocalRepo) (cgi : Cgi) : Decidable (Runs host b req repo cgi) :=
  inferInstanceAs (Decidable (_ ∈ _))

/-- The requester's access to the repository was checked, with success. -/
def Checked (repo : LocalRepo) (access : Access) : Prop :=
  canAccess b.toBackend repo access req.user req.domain = .ok true

instance (repo : LocalRepo) (access : Access) : Decidable (Checked b req repo access) :=
  inferInstanceAs (Decidable (_ = _))

end runs

section law
variable (host : GitHost) (b : GitBackend) (here : List Text) (service : Text → Option Text)

/-- The backend takes the request for a push: by the end of the path, or by the query. -/
def IsPush (cgi : Cgi) : Prop :=
  lit "/git-receive-pack" <:+ cgi.pathTranslated ∨
    service cgi.queryString = some "git-receive-pack"

/-- The backend works in the repository whose access was checked, and a push needs the access
to write. -/
structure Safe (req : ModRequest) (repo : LocalRepo) (cgi : Cgi) : Prop where
  checked : ∃ access, Checked b req repo access
  confined : Inside (resolve here cgi.pathTranslated) (resolve here (repo.fsPath host.dataDir))
  push : IsPush service cgi → Checked b req repo .write

/-- The directory of the mod's data. -/
def dataPlace : List Text := resolve here (host.dataDir ++ lit "/")

/-- The directory of a local repository. -/
def repoPlace (repo : BasicRepo) : List Text :=
  walk (dataPlace host here) (moves (lit "repos/" ++ repo.path))

/-- The moves of an address as it stands, behind the directory of the data. -/
def addressMoves (path : Text) : List (Move Text) :=
  moves (lit "repos" ++ GitHost.beforeQuery path)

/-- The address as it stands leads to the directory of the repository, and from there it
does not climb up; or it starts inside that directory and stays there. -/
def Leads (repo : BasicRepo) (path : Text) : Prop :=
  (∃ below, dataPlace host here = below ++ repoPlace host here repo ∧
      Stays below.length (addressMoves path)) ∨
    ∃ before after, addressMoves path = before ++ after ∧
      walk (dataPlace host here) before = repoPlace host here repo ∧ Stays 0 after

/-- The condition under which a run of the backend is safe. -/
structure Condition (req : ModRequest) (repo : LocalRepo) : Prop where
  leads : Leads host here repo.toBasicRepo req.path
  push : service (GitHost.queryString req.path) = some "git-receive-pack" →
    lit "git-receive-pack" <:+: req.path ∨ Checked b req repo .write

end law

/-! ## The one way to the backend -/

section inversion
variable {host : GitHost} {b : GitBackend} {req : ModRequest} {repo : LocalRepo} {cgi : Cgi}

theorem mem_andThen {α : Type} {call : Except Fault α} {rest : α → Handled} {e : GitEffect} :
    e ∈ effects (andThen call rest) ↔ ∃ a, call = .ok a ∧ e ∈ effects (rest a) := by
  cases call with
  | error fault => simp [andThen, effects]
  | ok a => simp [andThen]

theorem not_mem_reply (status : Int) (headers body : Text) :
    .httpCgi repo cgi ∉ effects (reply status headers body) := by simp [reply, effects]

theorem not_mem_unauthenticated :
    .httpCgi repo cgi ∉ effects (unauthenticated host req) := by
  unfold unauthenticated
  split <;> simp [reply, effects]

theorem getRepo_names {b : Backend} {basic : BasicRepo} (found : getRepo b basic = .ok repo) :
    repo.toBasicRepo = basic := by
  simp only [getRepo, bind, Except.bind] at found
  split at found
  · cases found
  · split at found
    · cases found
      rfl
    · split at found
      · cases found
      · cases found
        rfl

theorem mem_gitRepoCgi {repo' : LocalRepo}
    (run : .httpCgi repo cgi ∈ effects (gitRepoCgi host b repo' req)) :
    repo = repo' ∧ cgi = host.repoCgi req := by
  unfold gitRepoCgi at run
  split at run <;> simpa [effects] using run

theorem mem_repoCgi {repo' : LocalRepo}
    (run : .httpCgi repo cgi ∈ effects (repoCgi host b repo' req)) :
    repo = repo' ∧ cgi = host.repoCgi req ∧ Checked b req repo' (cgiAccess req) := by
  obtain ⟨allowed, checked, run⟩ := mem_andThen.mp run
  cases allowed with
  | true =>
    obtain ⟨same, cgi⟩ := mem_gitRepoCgi (by simpa using run)
    exact ⟨same, cgi, checked⟩
  | false =>
    simp only [Bool.false_eq_true, if_false] at run
    split at run
    · exact absurd run (not_mem_reply _ _ _)
    · exact absurd run not_mem_unauthenticated

theorem mem_localRepo {repo' : LocalRepo} {subpath : Text}
    (run : .httpCgi repo cgi ∈ effects (localRepo host b repo' subpath req)) :
    .httpCgi repo cgi ∈ effects (repoCgi host b repo' req) := by
  unfold localRepo at run
  split at run
  · -- a page
    obtain ⟨allowed, -, run⟩ := mem_andThen.mp run
    split at run
    · obtain ⟨data, -, run⟩ := mem_andThen.mp run
      exact absurd run (not_mem_reply _ _ _)
    · exact absurd run not_mem_unauthenticated
  split at run
  · rw [repoCommit] at run
    split at run <;> simp [effects] at run
  split at run
  · simp [effects] at run
  · exact run

theorem not_mem_repoCreateGet : .httpCgi repo cgi ∉ effects (repoCreateGet host req) := by
  unfold repoCreateGet
  split
  · exact not_mem_unauthenticated
  · exact not_mem_reply _ _ _
  · exact not_mem_reply _ _ _

theorem not_mem_createFrom {user : Text} {form : CreateForm} :
    .httpCgi repo cgi ∉ effects (createFrom host b user form) := by
  -- the request to the owner's instance is no run of the backend
  have done : .httpCgi repo cgi ∉ (if form.repo.inst = [] then []
      else [.requestMod form.repo.inst (.created form.repo user)] : List GitEffect) := by
    split <;> simp
  unfold createFrom
  generalize (if form.repo.inst = [] then []
    else [.requestMod form.repo.inst (.created form.repo user)] : List GitEffect) = before at done
  split
  · simpa [effects] using done
  · split <;> simpa [effects] using done

theorem not_mem_repoCreatePost : .httpCgi repo cgi ∉ effects (repoCreatePost host b req) := by
  unfold repoCreatePost
  split
  · exact not_mem_unauthenticated
  · exact not_mem_reply _ _ _
  · split
    · exact not_mem_reply _ _ _
    · exact not_mem_createFrom

theorem not_mem_repoForms {path : Text} :
    .httpCgi repo cgi ∉ effects (repoForms host b path req) := by
  unfold repoForms
  split
  · exact not_mem_unauthenticated
  split
  · split
    · exact not_mem_repoCreateGet
    · split
      · exact not_mem_repoCreatePost
      · simp [effects]
  · simp [effects]

/-- The backend is run for a repository of this instance that the address names, after its
access check. -/
theorem Runs.inv (run : Runs host b req repo cgi) :
    fromPath host.domain req.path = .ok (true, repo.toBasicRepo) ∧ repo.IsLocal ∧
      cgi = host.repoCgi req ∧ Checked b req repo (cgiAccess req) := by
  unfold Runs repoRouter at run
  split at run
  · simp [effects] at run
  split at run
  · exact absurd run not_mem_repoForms
  obtain ⟨⟨valid, basic⟩, named, run⟩ := mem_andThen.mp run
  cases valid with
  | false => simp [effects] at run
  | true =>
    simp only [Bool.not_true, Bool.false_eq_true, if_false] at run
    split at run
    · simp [effects] at run
    next away =>
      obtain ⟨loaded, found, run⟩ := mem_andThen.mp run
      split at run
      · obtain ⟨rfl, made, checked⟩ := mem_repoCgi (mem_localRepo run)
        obtain rfl := getRepo_names found
        exact ⟨named, not_not.mp away, made, checked⟩
      · simp [effects] at run

end inversion

/-! ## The condition -/

/-- A push by the end of the path is one that is seen in the address. -/
theorem literal_of_suffix {front path : Text}
    (push : lit "/git-receive-pack" <:+ front ++ lit "/repos" ++ path) :
    lit "git-receive-pack" <:+: path := by
  rcases List.suffix_or_suffix_of_suffix push (List.suffix_append _ _) with short | ⟨part, whole⟩
  · exact (List.suffix_cons 47 _).isInfix.trans short.isInfix
  · -- what is missing of the text would end in the last letter of `/repos`
    obtain ⟨rest, same⟩ := push
    rw [← whole, ← List.append_assoc] at same
    have ends : rest ++ part = front ++ lit "/repos" := List.append_cancel_right same
    rcases List.eq_nil_or_concat' part with rfl | ⟨init, last, rfl⟩
    · rw [List.nil_append] at whole
      rw [whole]
      exact (List.suffix_cons 47 _).isInfix
    · have letter : last = 115 := by
        have both := congrArg List.getLast? ends
        have ends' : (lit "/repos").getLast? = some 115 := rfl
        rw [← List.append_assoc, List.getLast?_concat, List.getLast?_append, ends'] at both
        exact Option.some.inj both
      have inside : (115 : Byte) ∈ lit "/git-receive-pack" := by
        rw [← whole, ← letter]
        simp
      exact absurd inside (by decide)

/-- The directory of a local repository, as its object gives it. -/
theorem resolve_fsPath {host : GitHost} {repo : BasicRepo} (local_ : repo.IsLocal)
    (here : List Text) :
    resolve here (repo.fsPath host.dataDir) = repoPlace host here repo := by
  have path : repo.fsPath host.dataDir = host.dataDir ++ 47 :: (lit "repos/" ++ repo.path) := by
    have slash : lit "/repos/" = 47 :: lit "repos/" := rfl
    rw [BasicRepo.fsPath, if_pos local_, slash, List.append_assoc, List.cons_append]
  rw [path, resolve_slash]
  rfl

theorem resolve_pathTranslated (host : GitHost) (req : ModRequest) (here : List Text) :
    resolve here (host.repoCgi req).pathTranslated =
      walk (dataPlace host here) (addressMoves req.path) := by
  have path : (host.repoCgi req).pathTranslated =
      host.dataDir ++ 47 :: (lit "repos" ++ GitHost.beforeQuery req.path) := by
    have slash : lit "/repos" = 47 :: lit "repos" := rfl
    rw [GitHost.repoCgi, slash, List.append_assoc, List.cons_append]
  rw [path, resolve_slash]
  rfl

/-- A run of the backend is safe exactly when the request meets the condition. -/
theorem safe_iff {host : GitHost} {b : GitBackend} {req : ModRequest} {repo : LocalRepo} {cgi : Cgi}
    (run : Runs host b req repo cgi) (here : List Text) (service : Text → Option Text) :
    Safe host b here service req repo cgi ↔ Condition host b here service req repo := by
  obtain ⟨-, local_, rfl, checked⟩ := run.inv
  have leads : Inside (resolve here (host.repoCgi req).pathTranslated)
      (resolve here (repo.fsPath host.dataDir)) ↔ Leads host here repo.toBasicRepo req.path := by
    rw [resolve_fsPath local_, resolve_pathTranslated]
    exact inside_walk_iff
  constructor
  · intro safe
    exact ⟨leads.mp safe.confined, fun push => Or.inr (safe.push (Or.inr push))⟩
  · intro condition
    refine ⟨⟨_, checked⟩, leads.mpr condition.leads, ?_⟩
    have seen : lit "git-receive-pack" <:+: req.path → Checked b req repo .write := by
      intro literal
      rwa [cgiAccess, if_pos literal] at checked
    rintro (path | query)
    · exact seen ((literal_of_suffix path).trans (List.takeWhile_prefix _).isInfix)
    · exact (condition.push query).elim seen id

/-! ## Addresses that lead elsewhere -/

/-- How the backend reads its parameter: decoded, and the last one counts. -/
def lastService (query : Text) : Option Text :=
  ((query.splitOn 38).reverse.find? fun param => (GitSearch.keyValue param).1 = "service").map
    fun param => WebText.uriDecode (GitSearch.keyValue param).2

/-- There are a public repository of alice and a private one of bob. -/
def twoRepos : GitBackend :=
  { demoBackend with
    selectRepo := fun owner name =>
      .ok (if owner = "alice" ∧ name = "open" then some ⟨[], 3, 1, 1⟩
        else if owner = "bob" ∧ name = "secret" then some ⟨[], 0, 1, 2⟩
        else none) }

def openRepo : LocalRepo :=
  { owner := "alice", name := "open", visibility := 3, createTs := 1, id := 1 }

/-- An anonymous request for an address. -/
def fetch (path : Text) : ModRequest where
  method := .get
  path
  body := []
  domain := none
  user := none
  headers := none

def ordinary : ModRequest := fetch "/alice/open/info/refs?service=git-upload-pack"

theorem ordinary_safe_iff :
    Safe demoHost twoRepos [] lastService ordinary openRepo (demoHost.repoCgi ordinary) ↔
      Condition demoHost twoRepos [] lastService ordinary openRepo :=
  safe_iff (by decide +kernel) [] lastService

/-- Through a public repository, the backend is sent to a private one. -/
def sideways : ModRequest := fetch "/alice/open/../../bob/secret/info/refs?service=git-upload-pack"

/-- A push is asked for with another spelling of the service. -/
def disguised : ModRequest := fetch "/alice/open/info/refs?service=git%2Dreceive-pack"

theorem sideways_not_safe :
    (Runs demoHost twoRepos sideways openRepo (demoHost.repoCgi sideways) ∧
      ¬ Safe demoHost twoRepos [] lastService sideways openRepo (demoHost.repoCgi sideways)) ∧
    Runs demoHost twoRepos disguised openRepo (demoHost.repoCgi disguised) ∧
      ¬ Safe demoHost twoRepos [] lastService disguised openRepo (demoHost.repoCgi disguised) := by
  refine ⟨⟨by decide +kernel, ?_⟩, by decide +kernel, ?_⟩
  · intro safe
    exact absurd safe.confined (by decide +kernel)
  · intro safe
    have push : IsPush lastService (demoHost.repoCgi disguised) := Or.inr (by decide +kernel)
    exact absurd (safe.push push) (by decide +kernel)

end GitConfinement
