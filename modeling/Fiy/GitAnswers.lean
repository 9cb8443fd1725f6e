import Fiy.GitRouter

/-!
# How often the git mod answers a request

The host gives up a request when its callback is invoked, so every request has to be
answered once. The routers report whether they handled a request, and each of them either
leaves it to the next one or has to answer it. For every handler it is said, in terms of
the request and of what its calls return, when it does one of both.
-/

namespace GitAnswers

open ByteStrings HttpMessages ModConnectors ModLibrary WebText GitRepos GitPages GitSearch GitRouter

section counting
variable (host : GitHost) (peer : Text → Option ModResponse)

/-- The invocations of the request's callback, when each peer answers once. -/
def answers (handled : Handled) : List ModResponse :=
  (effects handled).flatMap (GitEffect.answers host peer)

/-- The request is answered once. -/
def Once (handled : Handled) : Prop := (answers host peer handled).length = 1

/-- The request is answered once or left to the next router. -/
def Settled (handled : Handled) : Prop := handled = .ok none ∨ Once host peer handled

variable {host peer}

@[simp]
theorem settled_skip : Settled host peer (.ok none) := Or.inl rfl

@[simp]
theorem settled_error (fault : Fault) : ¬ Settled host peer (.error { fault }) := by
  rintro (skipped | once)
  · cases skipped
  · simp [Once, answers, effects] at once

@[simp]
theorem settled_done (done : List GitEffect) :
    Settled host peer (.ok (some done)) ↔
      (done.flatMap (GitEffect.answers host peer)).length = 1 := by
  simp [Settled, Once, answers, effects]

@[simp]
theorem settled_reply (status : Int) (headers body : Text) :
    Settled host peer (reply status headers body) := by
  rw [reply, settled_done]
  rfl

@[simp]
theorem settled_sendToPeer : ¬ Settled host peer sendToPeer := by
  rw [sendToPeer, settled_done]
  simp

@[simp]
theorem settled_andThen {α : Type} (call : Except Fault α) (rest : α → Handled) :
    Settled host peer (andThen call rest) ↔ ∃ a, call = .ok a ∧ Settled host peer (rest a) := by
  cases call with
  | error fault => simp [andThen]
  | ok a => simp [andThen]

@[simp]
theorem settled_ite (p : Prop) [Decidable p] (handled other : Handled) :
    Settled host peer (if p then handled else other) ↔
      (p → Settled host peer handled) ∧ (¬ p → Settled host peer other) := by
  by_cases h : p <;> simp [h]

/-- A router that settles the request hands it on at most to one that answers it once. -/
theorem once_orElse {handled next : Handled} (answered : Once host peer next) :
    Once host peer (orElse handled next) ↔ Settled host peer handled := by
  unfold orElse
  split
  · simpa using answered
  next skipped => exact ⟨Or.inr, fun settled => settled.resolve_left skipped⟩

/-- Behind the last router every request is answered. -/
@[simp]
theorem settled_orElse (handled : Handled) (status : Int) (headers body : Text) :
    Settled host peer (orElse handled (reply status headers body)) ↔
      Settled host peer handled := by
  unfold orElse
  split <;> simp

end counting

section returning
variable {α β : Type}

/-- The call does not throw. -/
def Returns (call : Except Fault α) : Prop := ∃ a, call = .ok a

theorem returns_pure (a : α) : Returns (pure a : Except Fault α) := ⟨a, rfl⟩

theorem returns_error (fault : Fault) : ¬ Returns (.error fault : Except Fault α) := by
  rintro ⟨a, returned⟩
  cases returned

theorem returns_bind (call : Except Fault α) (rest : α → Except Fault β) :
    Returns (call >>= rest) ↔ ∃ a, call = .ok a ∧ Returns (rest a) := by
  cases call with
  | error fault => simp [Returns, bind, Except.bind]
  | ok a => simp [Returns, bind, Except.bind]

theorem returns_ite (p : Prop) [Decidable p] (call other : Except Fault α) :
    Returns (if p then call else other) ↔ (p → Returns call) ∧ (¬ p → Returns other) := by
  by_cases h : p <;> simp [h]

end returning

section conditions
variable (host : GitHost) (b : GitBackend)

/-! ## The API -/

/-- The address can be parsed and names a repository of this instance, which can be
looked up. -/
def Loads (path : Text) (repo : LocalRepo) : Prop :=
  ∃ valid basic, fromPath host.domain path = .ok (valid, basic) ∧ basic.IsLocal ∧
    getRepo b.toBackend basic = .ok repo

/-- The information on a repository can be put together and written. -/
def InfoOnce (path : Text) : Prop :=
  ∃ repo, Loads host b path repo ∧ (repo.valid = true →
    ∃ dto body, host.infoDto b.toBackend repo = .ok dto ∧ host.infoJson dto = some body)

def TreeOnce (path : Text) : Prop := ∃ repo, Loads host b path repo

/-- The database refuses the statement, or its rows can be written. -/
def SearchOnce (path : Text) (req : ModRequest) : Prop :=
  let result := b.search (searchOf host.domain path) (req.user.getD []) (req.domain.getD [])
  result = .error .sqlite ∨ ∃ rows body, result = .ok rows ∧ host.resultsJson rows = some body

/-- The query ends, and the list is read if its parameters are valid. -/
def LikesOnce (user : Text) (req : ModRequest) : Prop :=
  ∃ params, queryParams req.path = some params ∧ ∀ limit, likesLimit params = some limit →
    likesPageValid params = true → ∃ repos, b.selectLikes user limit 0 = .ok repos

/-- The user is one of this instance, and the table of likes can be read where it is. -/
def UserOnce (path : Text) (req : ModRequest) : Prop :=
  let userStr := path.takeWhile fun c => c ≠ 47 ∧ c ≠ 63 ∧ c ≠ 35
  let rest := path.drop userStr.length
  userStr ≠ path →
    ((apiUser userStr).2 = [] ∨ (apiUser userStr).2 = host.domain) ∧
    (lit "/likes_count" <+: rest → ∃ count, b.countLikesUnbound = .ok count) ∧
    (¬ lit "/likes_count" <+: rest → lit "/likes" <+: rest → LikesOnce b (apiUser userStr).1 req)

/-- A path behind `/api` or `/api/v1`. -/
def ApiOnce (path : Text) (req : ModRequest) : Prop :=
  (lit "/repo" <+: path → let path := path.drop 5
    (lit "/info" <+: path → InfoOnce host b (path.drop 5)) ∧
    (¬ lit "/info" <+: path → lit "/tree" <+: path → TreeOnce host b (path.drop 5)) ∧
    (¬ lit "/info" <+: path → ¬ lit "/tree" <+: path → lit "/search" <+: path →
      SearchOnce host b (path.drop 7) req)) ∧
  (¬ lit "/repo" <+: path → lit "/user/" <+: path → UserOnce host b (path.drop 6) req)

/-! ## Repositories -/

/-- The directory of a repository or the repository in it is not made. -/
def NotMade (repoPath description : Text) : Prop :=
  b.createDirectory repoPath = .ok false ∨
    b.createDirectory repoPath = .ok true ∧ b.initBare repoPath description = false

/-- The creation ends before it adds a row: the name is taken, or something is not made. -/
def StopsEarly (repo : BasicRepo) (description : Text) : Prop :=
  let userReposDir := host.dataDir ++ lit "/repos/" ++ repo.owner
  let repoPath := userReposDir ++ lit "/" ++ repo.name
  b.repoExists repo.owner repo.name = .ok true ∨
    b.repoExists repo.owner repo.name = .ok false ∧
      (b.isDirectory userReposDir = .ok false ∧
          (b.createDirectory userReposDir = .ok false ∨
            b.createDirectory userReposDir = .ok true ∧ NotMade b repoPath description) ∨
        b.isDirectory userReposDir = .ok true ∧ NotMade b repoPath description)

/-- The form is not one, or its owner is a user of this instance, who is someone else or
whose repository is not made. -/
def CreateOnce (req : ModRequest) : Prop :=
  ∀ user fields, req.user = some user → req.domain = none →
    parseFormUrlEncoded req.body = some fields →
    let form := fields.foldl (createField host) {}
    form.repo.inst = [] ∧
      (form.repo.owner = user → StopsEarly host b form.repo form.description)

def PageOnce (repo : LocalRepo) (req : ModRequest) : Prop :=
  ∃ allowed, canAccess b.toBackend repo .read req.user req.domain = .ok allowed ∧
    (allowed = true → ∃ data, host.repoPageData b.toBackend repo = .ok data)

def CgiOnce (repo : LocalRepo) (req : ModRequest) : Prop :=
  ∃ allowed, canAccess b.toBackend repo (cgiAccess req) req.user req.domain = .ok allowed ∧
    (allowed = true → ∃ output, b.httpBackend (host.repoCgi req) = .ok output)

/-- The address can be parsed, and a repository of this instance can be looked up and does
what the subpath asks for. -/
def RepoOnce (path : Text) (req : ModRequest) : Prop :=
  path ≠ [] →
    (lit "/repo" <+: path → lit "/new" <+: path.drop 5 → req.method = .post → CreateOnce host b req) ∧
    (¬ lit "/repo" <+: path → ∃ valid basic, fromPath host.domain path = .ok (valid, basic) ∧
      (valid = true → basic.IsLocal → ∃ repo, getRepo b.toBackend basic = .ok repo ∧
        (repo.valid = true →
          (IsPage (subpathOf path) → PageOnce host b repo req) ∧
          (IsCgi (subpathOf path) → CgiOnce host b repo req))))

/-- A file or a page of a user. -/
def IsStatic (path : Text) : Prop :=
  IsLanding path ∨ (assetFor path).isSome = true ∨ (userOf path).isSome = true

/-- The condition under which a request is answered once. -/
def AnswersOnce (req : ModRequest) : Prop :=
  ¬ IsStatic req.path →
    (lit "/api" <+: req.path → ApiOnce host b (apiPath req.path) req) ∧
    (¬ lit "/api" <+: req.path → RepoOnce host b req.path req)

end conditions

section handlers
variable {host : GitHost} {b : GitBackend} {peer : Text → Option ModResponse}

theorem settled_namedRepo (path : Text) (loaded : LocalRepo → Handled) :
    Settled host peer (namedRepo host b path loaded) ↔
      ∃ repo, Loads host b path repo ∧ (repo.valid = true → Settled host peer (loaded repo)) := by
  simp only [namedRepo, settled_andThen, settled_ite, settled_sendToPeer, settled_skip]
  constructor
  · rintro ⟨⟨valid, basic⟩, parsed, here, found⟩
    have here : basic.IsLocal := not_not.mp here
    obtain ⟨repo, loads, settled, -⟩ := found (not_not.mpr here)
    exact ⟨repo, ⟨valid, basic, parsed, here, loads⟩, settled⟩
  · rintro ⟨repo, ⟨valid, basic, parsed, here, loads⟩, settled⟩
    exact ⟨(valid, basic), parsed, fun away => away here,
      fun _ => ⟨repo, loads, settled, fun _ => trivial⟩⟩

theorem settled_repoInfo (path : Text) :
    Settled host peer (repoInfo host b path) ↔ InfoOnce host b path := by
  simp only [repoInfo, settled_namedRepo, settled_andThen, InfoOnce]
  refine exists_congr fun repo => and_congr_right fun _ => imp_congr_right fun _ =>
    exists_congr fun dto => ?_
  cases host.infoJson dto with
  | none => simp
  | some body => simp

theorem settled_repoTree (path : Text) :
    Settled host peer (repoTree host b path) ↔ TreeOnce host b path := by
  simp [repoTree, settled_namedRepo, TreeOnce]

theorem settled_repoSearch (path : Text) (req : ModRequest) :
    Settled host peer (repoSearch host b path req) ↔ SearchOnce host b path req := by
  simp only [repoSearch, SearchOnce]
  cases b.search (searchOf host.domain path) (req.user.getD []) (req.domain.getD []) with
  | error fault => cases fault <;> simp
  | ok rows => cases written : host.resultsJson rows <;> simp [written]

theorem settled_repoApi (path : Text) (req : ModRequest) :
    Settled host peer (repoApi host b path req) ↔
      (lit "/info" <+: path → InfoOnce host b (path.drop 5)) ∧
      (¬ lit "/info" <+: path → lit "/tree" <+: path → TreeOnce host b (path.drop 5)) ∧
      (¬ lit "/info" <+: path → ¬ lit "/tree" <+: path → lit "/search" <+: path →
        SearchOnce host b (path.drop 7) req) := by
  rw [repoApi, settled_ite, settled_ite, settled_ite, settled_repoInfo, settled_repoTree,
    settled_repoSearch]
  by_cases info : lit "/info" <+: path
  · simp only [info, not_true_eq_false, true_imp_iff, false_imp_iff, and_true]
  · by_cases tree : lit "/tree" <+: path <;> simp [info, tree]

theorem settled_userLikes (user : Text) (req : ModRequest) :
    Settled host peer (userLikes b user req) ↔ LikesOnce b user req := by
  simp only [userLikes, LikesOnce]
  cases queryParams req.path with
  | none => simp
  | some params => cases h : likesLimit params <;> simp [h]

theorem settled_userApi (path : Text) (req : ModRequest) :
    Settled host peer (userApi host b path req) ↔ UserOnce host b path req := by
  simp only [userApi, UserOnce, settled_ite, settled_reply, settled_sendToPeer, settled_andThen,
    settled_userLikes, settled_skip, true_and, implies_true, imp_false, and_true, not_and_or,
    not_not]
  refine imp_congr_right fun _ => ?_
  constructor
  · rintro ⟨here, lists⟩
    exact ⟨here, lists here⟩
  · rintro ⟨here, lists⟩
    exact ⟨here, fun _ => lists⟩

/-- A handler of the API that leaves the request gets it answered with 404. -/
theorem settled_apiRouter {path : Text} {req : ModRequest} (api : lit "/api" <+: path) :
    Settled host peer (apiRouter host b path req) ↔ ApiOnce host b (apiPath path) req := by
  rw [apiRouter, if_neg (not_not.mpr api), settled_ite, settled_orElse, apiHandlers, settled_ite,
    settled_ite, settled_repoApi, settled_userApi, ApiOnce]
  by_cases whole : apiPath path = []
  · simp [whole, lit]
  · simp [whole]

/-! ## Repositories -/

@[simp]
theorem settled_unauthenticated (req : ModRequest) :
    Settled host peer (unauthenticated host req) := by
  unfold unauthenticated
  split <;> simp [GitEffect.answers]

theorem settled_repoCreateGet (req : ModRequest) : Settled host peer (repoCreateGet host req) := by
  unfold repoCreateGet
  split <;> simp

/-- The statement that adds the row always fails. -/
theorem required_missing : requiredColumns.any (· ∉ createdColumns) = true := by decide

theorem returns_createRepo {repo : BasicRepo} (here : repo.IsLocal) (description : Text)
    (visibility : Int) :
    Returns (createRepo b.toBackend host.dataDir host.now repo description visibility) ↔
      StopsEarly host b repo description := by
  simp only [createRepo, here, not_true_eq_false, if_false, required_missing, if_true, StopsEarly,
    NotMade, returns_bind, returns_ite, returns_pure, returns_error, Bool.exists_bool,
    Bool.not_eq_true', Bool.true_eq_false, not_not, true_imp_iff, false_imp_iff,
    and_true, true_and, not_false_eq_true, imp_false, implies_true, Bool.not_eq_true]
  rw [or_comm]

theorem createRepo_remote {repo : BasicRepo} (away : ¬ repo.IsLocal) (description : Text)
    (visibility : Int) :
    createRepo b.toBackend host.dataDir host.now repo description visibility =
      .ok (some "4XX: Cannot create non-local repo") := by
  simp [createRepo, away, pure, Except.pure]

/-- A form for another instance is answered by its instance and here. -/
theorem settled_createFrom (user : Text) (form : CreateForm) :
    Settled host peer (createFrom host b user form) ↔ form.repo.inst = [] ∧
      (form.repo.owner = user → StopsEarly host b form.repo form.description) := by
  by_cases here : form.repo.inst = []
  · rw [createFrom, if_pos here, settled_ite, ← returns_createRepo here _ form.visibility]
    have answered : ∀ res : ModResponse,
        Settled host peer (.ok (some ([] ++ [.respond res]))) := fun res => by
      simp [GitEffect.answers]
    simp only [answered, here, implies_true, true_and, ne_eq, not_not]
    refine imp_congr_right fun _ => ?_
    cases createRepo b.toBackend host.dataDir host.now form.repo form.description
        form.visibility with
    | error fault => simp [returns_error]
    | ok err => cases err <;> simp [Returns, GitEffect.answers]
  · have twice : ∀ res : ModResponse, ¬ Settled host peer (.ok (some
        ([.requestMod form.repo.inst (.created form.repo user)] ++ [.respond res]))) :=
      fun res => by simp [GitEffect.answers]
    rw [createFrom, if_neg here, settled_ite, createRepo_remote here]
    simp only [twice, here, false_and, iff_false]
    tauto

theorem settled_repoCreatePost (req : ModRequest) :
    Settled host peer (repoCreatePost host b req) ↔ CreateOnce host b req := by
  unfold repoCreatePost CreateOnce
  cases req.user with
  | none => simp
  | some user => cases req.domain with
    | some domain => simp
    | none => cases parseFormUrlEncoded req.body with
      | none => simp
      | some fields => simp [settled_createFrom]

/-! ## Pages and the backend -/

theorem settled_repoPage (repo : LocalRepo) (req : ModRequest) :
    Settled host peer (repoPage host b repo req) ↔ PageOnce host b repo req := by
  simp [repoPage, PageOnce]

theorem settled_repoCommit (subpath : Text) : Settled host peer (repoCommit subpath) := by
  simp [repoCommit, GitEffect.answers]

theorem settled_gitRepoCgi (repo : LocalRepo) (req : ModRequest) :
    Settled host peer (gitRepoCgi host b repo req) ↔
      ∃ output, b.httpBackend (host.repoCgi req) = .ok output := by
  unfold gitRepoCgi
  cases b.httpBackend (host.repoCgi req) with
  | error fault => simp [Settled, Once, answers, effects, GitEffect.answers]
  | ok output => cases output <;> simp [GitEffect.answers]

theorem settled_repoCgi (repo : LocalRepo) (req : ModRequest) :
    Settled host peer (repoCgi host b repo req) ↔ CgiOnce host b repo req := by
  simp [repoCgi, CgiOnce, settled_gitRepoCgi]

theorem settled_localRepo (repo : LocalRepo) (subpath : Text) (req : ModRequest) :
    Settled host peer (localRepo host b repo subpath req) ↔
      (IsPage subpath → PageOnce host b repo req) ∧ (IsCgi subpath → CgiOnce host b repo req) := by
  rw [localRepo, settled_ite, settled_ite, settled_ite, settled_repoPage, settled_repoCgi]
  simp only [settled_repoCommit, settled_skip, implies_true, true_and, IsCgi, and_imp]

/-- The forms are for users of this instance. -/
theorem locality_level (req : ModRequest) :
    Locality.inst.level < (locality req host.domain).level ↔
      req.user = none ∨ req.domain ≠ none := by
  unfold locality
  split
  · simp_all [Locality.level]
  · split <;> simp_all [Locality.level]
  · simp_all [Locality.level]

theorem settled_repoForms (path : Text) (req : ModRequest) :
    Settled host peer (repoForms host b path req) ↔
      (lit "/new" <+: path → req.method = .post → CreateOnce host b req) := by
  rw [repoForms, settled_ite, locality_level, settled_ite, settled_ite, settled_ite,
    settled_repoCreatePost]
  by_cases stranger : req.user = none ∨ req.domain ≠ none
  · have never : CreateOnce host b req := by
      intro user fields named here
      rcases stranger with anonymous | remote
      · cases named.symm.trans anonymous
      · exact absurd here remote
    simp [stranger, never]
  · simp only [stranger, settled_repoCreateGet, settled_skip, false_imp_iff, true_and,
      implies_true, not_false_eq_true, true_imp_iff, and_true]
    refine imp_congr_right fun _ => ?_
    constructor
    · intro post posted
      exact post (by rw [posted]; simp) posted
    · exact fun post _ => post

theorem settled_repoRouter (path : Text) (req : ModRequest) :
    Settled host peer (repoRouter host b path req) ↔ RepoOnce host b path req := by
  simp only [repoRouter, RepoOnce, settled_ite, settled_skip, settled_repoForms, settled_andThen,
    implies_true, true_and, settled_localRepo, Prod.exists, Bool.not_eq_true', and_true, not_not]
  refine imp_congr_right fun _ => and_congr_right fun _ => imp_congr_right fun _ =>
    exists_congr fun valid => exists_congr fun basic => and_congr_right fun _ => ?_
  have forwarded : Settled host peer (.ok (some [.requestMod basic.inst .peer])) := by
    simp [GitEffect.answers]
  cases valid with
  | false => simp
  | true => simp [forwarded]

/-- A router that leaves the request passes it on, and otherwise is the one to answer it. -/
theorem once_orElse_iff {handled next : Handled} :
    Once host peer (orElse handled next) ↔
      if handled = .ok none then Once host peer next else Once host peer handled := by
  unfold orElse
  split
  · simp
  next other => rw [if_neg other]

theorem once_reply (status : Int) (headers body : Text) :
    Once host peer (reply status headers body) := by
  simp [Once, answers, reply, effects, GitEffect.answers]

/-- What a router has not left is answered once exactly when it is settled. -/
theorem once_iff_settled {handled : Handled} (taken : handled ≠ .ok none) :
    Once host peer handled ↔ Settled host peer handled :=
  ⟨Or.inr, fun settled => settled.resolve_left taken⟩

theorem orElse_reply_ne (handled : Handled) (status : Int) (headers body : Text) :
    orElse handled (reply status headers body) ≠ .ok none := by
  unfold orElse
  split
  · simp [reply]
  next other => exact other

/-- The API leaves nothing below its prefix. -/
theorem apiRouter_ne {path : Text} (req : ModRequest) (api : lit "/api" <+: path) :
    apiRouter host b path req ≠ .ok none := by
  rw [apiRouter, if_neg (not_not.mpr api)]
  split
  · simp [reply]
  · exact orElse_reply_ne _ _ _ _

/-- What the API does not get, the repositories do. -/
theorem once_later (req : ModRequest) :
    Once host peer (orElse (apiRouter host b req.path req)
        (orElse (repoRouter host b req.path req) (reply 404 [] "Not Found"))) ↔
      (lit "/api" <+: req.path → ApiOnce host b (apiPath req.path) req) ∧
      (¬ lit "/api" <+: req.path → RepoOnce host b req.path req) := by
  rw [once_orElse_iff]
  by_cases api : lit "/api" <+: req.path
  · have taken : apiRouter host b req.path req ≠ .ok none := apiRouter_ne req api
    rw [if_neg taken, once_iff_settled taken, settled_apiRouter api]
    simp only [api, true_imp_iff, not_true_eq_false, false_imp_iff, and_true]
  · have skipped : apiRouter host b req.path req = .ok none := by rw [apiRouter, if_pos api]
    rw [if_pos skipped, once_orElse (once_reply _ _ _), settled_repoRouter]
    simp only [api, false_imp_iff, true_and, not_false_eq_true, true_imp_iff]

theorem reply_ne (status : Int) (headers body : Text) : reply status headers body ≠ .ok none := by
  simp [reply]

end handlers

/-- The form of a new repository, for an owner on another instance. -/
def createElsewhere : ModRequest where
  method := .post
  path := "/repo/new"
  body := "repo-owner=bob@c.d&repo-name=x"
  domain := none
  user := some "alice"
  headers := none

/-- A question about a repository of another instance. -/
def infoElsewhere : ModRequest where
  method := .get
  path := "/api/repo/info/bob@c.d/tool"
  body := []
  domain := none
  user := some "alice"
  headers := none

end GitAnswers
