import Mathlib.Data.List.Infix
import Fiy.WebText
import Fiy.GitSearch

/-!
# Requests to the git mod

Four routers are tried in turn. A router does not handle a request, or it handles it with
what it does to the outside: responses, requests to peers, runs of the backend. A handler
that does not return has done something before, or nothing.
-/

namespace GitRouter

open ByteStrings HttpMessages ModConnectors ModLibrary WebText GitRepos GitPages GitSearch

/-- What the callback of a forwarded request does with the answer. -/
inductive Relay
  | peer
  /-- the form of a new repository went to the instance of its owner -/
  | created (repo : BasicRepo) (userStr : Text)
  deriving DecidableEq, Repr

inductive GitEffect
  | respond (res : ModResponse)
  /-- `request_mod`: the host calls back with the peer's answer -/
  | requestMod (domain : Text) (relay : Relay)
  /-- `http_cgi` of a repository -/
  | httpCgi (repo : LocalRepo) (cgi : Cgi)
  deriving DecidableEq, Repr

/-- A handler ends early, after what it has done. -/
structure Crash where
  fault : Fault
  done : List GitEffect := []
  deriving DecidableEq, Repr

/-- `none` is not handled. -/
abbrev Handled := Except Crash (Option (List GitEffect))

def reply (status : Int) (headers body : Text) : Handled :=
  .ok (some [.respond (respond status headers body)])

/-- The rest of a handler, unless a call throws. -/
def andThen {α : Type} (call : Except Fault α) (rest : α → Handled) : Handled :=
  match call with
  | .error fault => .error { fault }
  | .ok a => rest a

/-- The next router, when this one does not handle the request. -/
def orElse (handled next : Handled) : Handled :=
  match handled with
  | .ok none => next
  | handled => handled

/-- A backend with the search. -/
structure GitBackend extends Backend where
  search : RepoSearch → Text → Text → Except Fault (List (List Cell))

section handlers
variable (host : GitHost) (b : GitBackend)

/-! ## Files and user pages -/

/-- The files behind fixed paths, with their headers. -/
def assets : List (Text × Text × Text) :=
  [("/main.css", "Content-Type: text/css\nCache-Control: max-age=604800", "/main.css"),
   ("/logo.svg", "Content-type: image/svg+xml\nCache-Control: max-age=604800", "/logo.svg"),
   ("/favicon.ico", "Content-type: image/x-icon\nCache-Control: max-age=604800", "/favicon.ico"),
   ("/fa/fa.css", "Content-Type: text/css\nCache-Control: max-age=604800", "font-awesome.css")]

/-- The fonts behind the start of a path, with their headers. -/
def fonts : List (Text × Text × Text) :=
  [("eot", "Content-Type: application/vnd.ms-fontobject\nCache-Control: max-age=604800",
      "fontawesome-webfont.eot"),
   ("woff2", "Content-Type: font/woff2\nCache-Control: max-age=604800",
      "fontawesome-webfont.woff2"),
   ("woff", "Content-Type: font/woff\nCache-Control: max-age=604800", "fontawesome-webfont.woff"),
   ("ttf", "Content-Type: font/ttf\nCache-Control: max-age=604800", "fontawesome-webfont.ttf"),
   ("svg", "Cache-Control: max-age=604800", "fontawesome-webfont.svg")]

def fontPrefix : Text := "/fonts/fontawesome-webfont."

/-- The file a path is served from. -/
def assetFor (path : Text) : Option (Text × Text × Text) :=
  (assets.find? fun asset => path = asset.1).or
    (if fontPrefix <+: path then fonts.find? fun font => font.1 <+: path.drop 27 else none)

/-- The landing page -/
def IsLanding (path : Text) : Prop := path.head? = some 47 ∧ (path.length = 1 ∨ path[1]? = some 63)

instance (path : Text) : Decidable (IsLanding path) := inferInstanceAs (Decidable (_ ∧ _))

/-- `static_asset_router` -/
def staticAssetRouter (path : Text) (req : ModRequest) : Handled :=
  if IsLanding path then
    reply 200 "Content-Type: text/html; charset=utf-8\nCache-Control: max-age=604800"
      (host.landingPage (match req.user with
        | none => lit "//" ++ host.domain ++ lit "/portal"
        | some user => host.baseUri ++ lit "/" ++ user))
  else match assetFor path with
    | some (_, headers, file) => reply 200 headers (host.file file)
    | none => .ok none

/-- The user a path of one component names. -/
def userOf (path : Text) : Option Text :=
  let path := if path.head? = some 47 then path.tail else path
  let user := path.takeWhile fun c => c ≠ 47 ∧ c ≠ 63 ∧ c ≠ 35
  match path.drop user.length with
  | 47 :: rest =>
    if rest = [] ∨ rest.head? = some 63 ∨ rest.head? = some 35 then some user else none
  | _ => some user

/-- The requester, when it is a local user. -/
def requestUser (req : ModRequest) : Text := if req.domain = none then req.user.getD [] else []

/-- `user_router` -/
def userRouter (path : Text) (req : ModRequest) : Handled :=
  match userOf path with
  | none => .ok none
  | some user => reply 200 "Content-Type: text/html; charset=UTF-8\nCache-control: max-age=300"
      (host.userPage user (requestUser req))

/-! ## The API -/

/-- `send_to_peer` makes a copy of the request and does not send it. -/
def sendToPeer : Handled := .ok (some [])

def jsonHeader : Text := "Content-type: application/json"
def plainHeader : Text := "Content-type: text/plain"

/-- The repository an API path names: what `from_path` returns is not looked at. -/
def namedRepo (path : Text) (loaded : LocalRepo → Handled) : Handled :=
  andThen (fromPath host.domain path) fun (_, basic) =>
    if ¬ basic.IsLocal then sendToPeer
    else andThen (getRepo b.toBackend basic) fun repo =>
      if repo.valid then loaded repo else .ok none

/-- `GET /api/repo/info` -/
def repoInfo (path : Text) : Handled :=
  namedRepo host b path fun repo => andThen (host.infoDto b.toBackend repo) fun dto =>
    match host.infoJson dto with
    | none => .error { fault := .json }
    | some body => reply 200 "Content-Type: application/json" body

/-- `GET /api/repo/tree` -/
def repoTree (path : Text) : Handled :=
  namedRepo host b path fun _ => reply 500 plainHeader "not implemented"

/-- `GET /api/repo/search`: exceptions of the database are caught, others are not. -/
def repoSearch (path : Text) (req : ModRequest) : Handled :=
  match b.search (searchOf host.domain path) (req.user.getD []) (req.domain.getD []) with
  | .error .sqlite => reply 500 jsonHeader "[]"
  | .error fault => .error { fault }
  | .ok rows => match host.resultsJson rows with
    | none => .error { fault := .json }
    | some body => reply 200 jsonHeader body

/-- `repo_api` -/
def repoApi (path : Text) (req : ModRequest) : Handled :=
  if lit "/info" <+: path then repoInfo host b (path.drop 5)
  else if lit "/tree" <+: path then repoTree host b (path.drop 5)
  else if lit "/search" <+: path then repoSearch host b (path.drop 7) req
  else .ok none

/-- `query_params`: the loop goes back by one byte, for ever, at a last parameter with an
equals sign. -/
def queryParams (path : Text) : Option (List (Text × Text)) :=
  match cut 63 path with
  | none => some []
  | some (_, q) =>
    let params := q.splitOn 38
    if 61 ∈ params.getLastD [] then none else some (params.map keyValue)

/-- The first parameter of this name. -/
def param (params : List (Text × Text)) (key : Text) : Option Text :=
  (params.find? fun param => param.1 = key).map Prod.snd

/-- The limit of a list: `none` when it is not valid. -/
def likesLimit (params : List (Text × Text)) : Option Nat :=
  match (param params "limit").or (param params "n") with
  | none => some 200
  | some value => ((int32 value).filter fun n => 0 ≤ n ∧ n ≤ 10000).map Int.toNat

/-- The page of a list is checked and not used. -/
def likesPageValid (params : List (Text × Text)) : Bool :=
  match param params "page" with
  | none => true
  | some value => (int32 value).any (0 ≤ ·)

/-- The list of liked repositories. -/
def likesJson : List Text → Text
  | [] => "[]"
  | repo :: repos =>
    lit "[\"" ++ repo ++ repos.flatMap (fun repo => lit "\",\"" ++ repo) ++ lit "\"]"

/-- `GET /api/user/<user>/likes` -/
def userLikes (user : Text) (req : ModRequest) : Handled :=
  match queryParams req.path with
  | none => .error { fault := .endless }
  | some params => match likesLimit params with
    | none => reply 400 "Content-Type: text/plain" "Invalid limit parameter"
    | some limit =>
      if likesPageValid params then
        andThen (b.selectLikes user limit 0) fun repos => reply 200 jsonHeader (likesJson repos)
      else reply 400 "Content-Type: text/plain" "Invalid page parameter"

/-- The user an API path names, and the domain if it has one. -/
def apiUser (userStr : Text) : Text × Text :=
  (cut 64 (if userStr.head? = some 64 then userStr.tail else userStr)).getD
    (if userStr.head? = some 64 then userStr.tail else userStr, [])

/-- `user_api` -/
def userApi (path : Text) (req : ModRequest) : Handled :=
  let userStr := path.takeWhile fun c => c ≠ 47 ∧ c ≠ 63 ∧ c ≠ 35
  if userStr = path then
    reply 404 plainHeader "/api/user/:user endpoint expected user string"
  else
    let (user, domain) := apiUser userStr
    if domain ≠ [] ∧ domain ≠ host.domain then sendToPeer
    else
      let path := path.drop userStr.length
      if lit "/likes_count" <+: path then
        andThen b.countLikesUnbound fun count => reply 200 jsonHeader (decimalInt count)
      else if lit "/likes" <+: path then userLikes b user req
      else .ok none

/-- A path without the prefix of the API. -/
def apiPath (path : Text) : Text :=
  if lit "/v1" <+: path.drop 4 then (path.drop 4).drop 3 else path.drop 4

/-- What is behind the prefix; `ticket_api` handles nothing. -/
def apiHandlers (path : Text) (req : ModRequest) : Handled :=
  if lit "/repo" <+: path then repoApi host b (path.drop 5) req
  else if lit "/user/" <+: path then userApi host b (path.drop 6) req
  else .ok none

/-- `api_router` -/
def apiRouter (path : Text) (req : ModRequest) : Handled :=
  if ¬ lit "/api" <+: path then .ok none
  else if apiPath path = [] then reply 400 "Not Found" []
  else orElse (apiHandlers host b (apiPath path) req) (reply 404 [] "Not Found")

/-! ## Repositories -/

/-- `unauthenticated` -/
def unauthenticated (req : ModRequest) : Handled :=
  match req.user with
  | none => .ok (some [.respond { status := 303, headers := some (lit "Location: " ++
      host.hostBaseUri ++ lit "/portal/login") }])
  | some _ => reply 401 [] []

/-- `repo_create_get` -/
def repoCreateGet (req : ModRequest) : Handled :=
  match req.user, req.domain with
  | none, _ => unauthenticated host req
  | some _, some _ => reply 401 [] []
  | some user, none =>
    reply 200 "Content-Type: text/html; charset=utf-8" (host.repoCreatePage user)

/-- The fields of a new repository. -/
structure CreateForm where
  repo : BasicRepo := {}
  description : Text := []
  visibility : Int := 1
  deriving DecidableEq, Repr

/-- The field `repo-owner`, with or without an instance. -/
def setOwner (repo : BasicRepo) (v : Text) : BasicRepo :=
  let v := v.dropWhile (· = 64)
  match cut 64 v.reverse with
  | none => { repo with owner := v }
  | some (inst, owner) =>
    { repo with owner := owner.reverse
                inst := if inst.reverse = host.domain then [] else inst.reverse }

def createField (form : CreateForm) (field : Text × Text) : CreateForm :=
  let (k, v) := field
  if k = "repo-owner" then { form with repo := setOwner host form.repo v }
  else if k = "repo-name" then { form with repo := { form.repo with name := v } }
  else if k = "repo-description" then { form with description := v }
  else if k = "repo-visibility" then { form with visibility := (strtolValue v).getD 0 }
  else form

/-- The links on the error pages of the creation. -/
def createLinks (userStr : Text) : List (Text × Text) :=
  [(host.baseUri ++ userStr, "Profile"), (host.baseUri ++ lit "/repo/new", "Create Repo")]

/-- The page that leads to a repository. -/
def redirectPage (repo : BasicRepo) : Text :=
  lit "<meta http-equiv=\"refresh\" content=\"0; url=" ++ host.baseUri ++ lit "/" ++ repo.path ++
    lit "\" />"

/-- What the mod answers when the creation ends with this message. -/
def createFailed (repo : BasicRepo) (userStr err : Text) : ModResponse :=
  let own := err.head? = some 52
  respond (if own then 400 else 500) "Content-type: text/html; charset=utf-8" <|
    host.errorPage (lit "Failed to Create " ++ repo.path)
      (lit "Repo creation failed with the following message: " ++ err ++ lit ". <br>" ++
        (if own then lit "You may want to try again with different options or make sure you have the necessary permissions."
          else lit "You may want to contact your instance administrator if errors persist."))
      (createLinks host userStr)

/-- `repo_create_post` with the fields of the form. A repository of another instance is
requested from it, and then the creation goes on here. -/
def createFrom (user : Text) (form : CreateForm) : Handled :=
  let done := if form.repo.inst = [] then []
    else [.requestMod form.repo.inst (.created form.repo user)]
  if form.repo.owner ≠ user then .ok (some (done ++ [.respond (respond 401 [] [])]))
  else match createRepo b.toBackend host.dataDir host.now form.repo form.description
      form.visibility with
    | .error fault => .error { fault, done }
    | .ok (some err) => .ok (some (done ++ [.respond (createFailed host form.repo user err)]))
    | .ok none => .ok (some (done ++ [.respond (respond 200
        "Content-Type: text/html; charset=utf-8" (redirectPage host form.repo))]))

def repoCreatePost (req : ModRequest) : Handled :=
  match req.user, req.domain with
  | none, _ => unauthenticated host req
  | some _, some _ => reply 401 [] []
  | some user, none => match parseFormUrlEncoded req.body with
    | none => reply 400 [] "Invalid Form Body"
    | some fields => createFrom host b user (fields.foldl (createField host) {})

/-- What follows the name of the repository in a path. -/
def subpathOf (path : Text) : Text :=
  -- from the slash behind the user
  let named := (path.dropWhile (· = 47)).dropWhile (· ≠ 47)
  let rest := if 47 ∈ named.tail then named.tail.dropWhile (· ≠ 47)
    else named.dropWhile fun c => c ≠ 63 ∧ c ≠ 35
  rest.dropWhile (· = 47)

/-- The page of a repository. -/
def repoPage (repo : LocalRepo) (req : ModRequest) : Handled :=
  andThen (canAccess b.toBackend repo .read req.user req.domain) fun allowed =>
    if allowed then andThen (host.repoPageData b.toBackend repo) fun data =>
      reply 200 "Content-Type: text/html" (host.repoPage data (requestUser req))
    else unauthenticated host req

/-- A commit: only its number is checked. -/
def repoCommit (subpath : Text) : Handled :=
  let commitId := subpath.takeWhile fun c => c ≠ 47 ∧ c ≠ 63 ∧ c ≠ 35
  if 100 < commitId.length ∨ ¬ commitId.all fun c => (97 ≤ c && c ≤ 102) || isDigit c then
    .ok (some [.respond { status := 400, headers := some [], body := "Invalid commit id" }])
  else .ok none

/-- The access that the backend asks for. -/
def cgiAccess (req : ModRequest) : Access :=
  if lit "git-receive-pack" <:+: req.path then .write else .read

/-- `git_repo_cgi` -/
def gitRepoCgi (repo : LocalRepo) (req : ModRequest) : Handled :=
  let run := .httpCgi repo (host.repoCgi req)
  match b.httpBackend (host.repoCgi req) with
  | .error fault => .error { fault, done := [run] }
  | .ok none => .ok (some [run, .respond (respond 500 "Git CGI failed" [])])
  | .ok (some output) => .ok (some [run, .respond (GitHost.parseCgiOutput output)])

/-- Everything else goes to the backend. -/
def repoCgi (repo : LocalRepo) (req : ModRequest) : Handled :=
  andThen (canAccess b.toBackend repo (cgiAccess req) req.user req.domain) fun allowed =>
    if allowed then gitRepoCgi host b repo req
    else if lit "git/" <+: findHeader req "User-Agent" then
      reply 401 "WWW-Authenticate: Basic charset=\"UTF-8\"" []
    else unauthenticated host req

/-- The subpath of the page of a repository. -/
def IsPage (subpath : Text) : Prop :=
  subpath = [] ∨ subpath.head? = some 63 ∨ subpath.head? = some 35

instance (subpath : Text) : Decidable (IsPage subpath) := inferInstanceAs (Decidable (_ ∨ _))

/-- The subpath is left to the backend. -/
def IsCgi (subpath : Text) : Prop :=
  ¬ IsPage subpath ∧ ¬ lit "commit/" <+: subpath ∧ ¬ lit "tickets" <+: subpath

/-- A path below a repository of this instance. -/
def localRepo (repo : LocalRepo) (subpath : Text) (req : ModRequest) : Handled :=
  if IsPage subpath then repoPage host b repo req
  else if lit "commit/" <+: subpath then repoCommit (subpath.drop 7)
  -- `ticket_router` handles nothing
  else if lit "tickets" <+: subpath then .ok none
  else repoCgi host b repo req

/-- The forms below `/repo`. -/
def repoForms (path : Text) (req : ModRequest) : Handled :=
  if Locality.inst.level < (locality req host.domain).level then unauthenticated host req
  else if lit "/new" <+: path then
    if req.method = .get then repoCreateGet host req
    else if req.method = .post then repoCreatePost host b req
    else .ok none
  else .ok none

/-- `repo_router` -/
def repoRouter (path : Text) (req : ModRequest) : Handled :=
  if path = [] then .ok none
  else if lit "/repo" <+: path then repoForms host b (path.drop 5) req
  else andThen (fromPath host.domain path) fun (valid, basic) =>
    if !valid then .ok none
    else if ¬ basic.IsLocal then .ok (some [.requestMod basic.inst .peer])
    else andThen (getRepo b.toBackend basic) fun repo =>
      if repo.valid then localRepo host b repo (subpathOf path) req else .ok none

/-- `handle_request` -/
def handleRequest (req : ModRequest) : Handled :=
  orElse (staticAssetRouter host req.path req) <|
    orElse (userRouter host req.path req) <|
      orElse (apiRouter host b req.path req) <|
        orElse (repoRouter host b req.path req) <|
          reply 404 [] "Not Found"

/-- The callback of a forwarded request answers the request with this. -/
def Relay.answer (res : Option ModResponse) : Relay → ModResponse
  | .peer => res.getD (respond 500 "Content-type: text/html" "Peer error")
  | .created repo userStr => match res with
    | none => respond 500 "Content-Type: text/html" <| host.errorPage "Peer Request Failed"
        (lit "Failed to create repo " ++ repo.path ++
          lit " due to an unknown communication error with peer " ++ repo.inst ++
          lit ". You can safely try again. If " ++ repo.inst ++
          lit " is not down and has not disabled federation You may want to reach out to your instance's administrator or the peer's administrator in order to figure out what's wrong.")
        (createLinks host userStr)
    | some res =>
      if res.status = 200 then
        respond 200 "Content-Type: text/html; charset=utf-8" (redirectPage host repo)
      else res

/-- The answers an effect leads to, given what peers answer. -/
def GitEffect.answers (peer : Text → Option ModResponse) : GitEffect → List ModResponse
  | .respond res => [res]
  | .requestMod domain relay => [relay.answer host (peer domain)]
  | .httpCgi .. => []

end handlers

/-- What a handler did, whether it returned or not. -/
def effects : Handled → List GitEffect
  | .error crash => crash.done
  | .ok done => done.getD []

/-! ## A host and a backend for examples -/

/-- Templates are only named. -/
def demoHost : GitHost where
  domain := "a.b"
  baseUri := "https://a.b/git"
  now := 0
  userInfo := fun _ => 1
  jsonString := fun t => some (34 :: t ++ [34])
  base64Decode := fun _ => none
  dataDir := "/data"
  render := fun file _ => file
  file := fun file => file
  timeStr := decimalInt
  like := fun text pattern => text = pattern

/-- There is nothing in the tables, and everything can be made. -/
def demoBackend : GitBackend where
  selectRepo := fun _ _ => .ok none
  selectForkOf := fun _ => .ok none
  selectLevels := fun _ _ => .ok []
  countForks := fun _ => .ok 0
  countLikes := fun _ => .ok 0
  countTickets := fun _ => .ok 0
  countLikesUnbound := .ok 0
  selectLikes := fun _ _ _ => .ok []
  repoExists := fun _ _ => .ok false
  insertRepo := fun _ _ _ _ => .error .sqlite
  isDirectory := fun _ => .ok true
  createDirectory := fun _ => .ok true
  initBare := fun _ _ => true
  openDirectory := fun _ => ⟨[], 0, 0, fun _ => none⟩
  httpBackend := fun _ => .ok none
  search := fun _ _ _ => .ok []

end GitRouter
