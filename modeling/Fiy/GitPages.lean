import Fiy.GitRepos

/-!
# Pages, JSON and the backend process of the git mod

The texts that the handlers send. Templates are files in the mod's directory, and filling
one in is a parameter, as is the output of a date.
-/

namespace GitPages

open ByteStrings HttpMessages ModConnectors ModLibrary GitRepos

structure GitHost extends ModHost where
  dataDir : Text
  /-- a template file with its tags replaced -/
  render : Text → List (Text × Text) → Text
  /-- a file that is sent as it is -/
  file : Text → Text
  /-- `Pages::time_str` -/
  timeStr : Int → Text
  /-- the operator `LIKE` of the database -/
  like : Text → Text → Bool

namespace GitHost
variable (host : GitHost)

/-- `host_base_uri` -/
def hostBaseUri : Text :=
  (if host.baseUri[4]? = some 115 then lit "https://" else lit "http://") ++ host.domain

/-! ## Pages -/

def landingPage (profileUrl : Text) : Text :=
  host.render "/landing.html" [("profile_url", profileUrl)]

def userPage (user requestUser : Text) : Text :=
  host.render "/user.html" [("fiy_user", user), ("request_user", requestUser),
    ("fiy_display_name", user), ("fiy_user_bio", [])]

/-- `repo_create_page`, which is only called without organizations. -/
def repoCreatePage (user : Text) : Text :=
  host.render "/repo_create.html" [("fiy_user", user), ("orgs_option_list", [])]

def errorPage (title description : Text) (links : List (Text × Text)) : Text :=
  host.render "/error.html" [("error_title", title), ("error_description", description),
    ("links", links.flatMap fun link =>
      lit "| <a href=\"" ++ link.1 ++ lit "\">" ++ link.2 ++ lit "</a> ")]

/-- `time_diff_str` -/
def timeDiffStr (ts : Int) : Text :=
  let secs := (ts - host.now).natAbs
  let dist := lit (if ts < host.now then " ago" else " from now")
  if 1 < secs / 31449600 then decimal (secs / 31449600) ++ lit " years" ++ dist
  else if secs / 31449600 = 1 then lit (if ts < host.now then "last year" else "next year")
  else if 1 < secs / 2592000 then decimal (secs / 2592000) ++ lit " months" ++ dist
  else if 1 < secs / 604800 then decimal (secs / 604800) ++ lit " weeks" ++ dist
  else if 1 < secs / 86400 then decimal (secs / 86400) ++ lit " days" ++ dist
  else if 1 < secs / 3600 then decimal (secs / 3600) ++ lit " hours" ++ dist
  else if 1 < secs / 60 then decimal (secs / 60) ++ lit " minutes" ++ dist
  else "just now"

/-- `profile_link` of a commit's author -/
def profileLink (user : GitUser) : Text :=
  if user.fiyUser ≠ [] then
    lit "<a href=\"" ++ host.baseUri ++ lit "/" ++ user.fiyUser ++ lit "\">" ++ user.fiyUser ++
      lit "</a>"
  else
    let title := if user.name = [] then if user.email = [] then lit "unknown" else user.email
      else if user.email = [] then user.name else user.name ++ lit " <" ++ user.email ++ lit ">"
    let shown := if user.name = [] then if user.email = [] then lit "<unknown>" else user.email
      else user.name
    lit "<span title=\"" ++ title ++ lit "\">" ++ shown ++ lit "</span>"

/-- The first line. -/
def firstLine (message : Text) : Text := message.takeWhile (· ≠ newline)

def entryIcon : EntryType → Text
  | .directory => [240, 159, 147, 129]
  | .commit => [240, 159, 147, 141]
  | .file => [240, 159, 147, 132]
  | .invalid => [63]

/-- `entries_html`, one entry -/
def entryHtml (name : Text) (e : Entry) : Text :=
  lit "<tr><td class=\"file-name\"><span class=\"file-icon\">" ++ entryIcon e.type ++
    lit "</span> " ++ e.path ++ lit "</td><td class=\"file-commit-msg\"><a href=\"" ++ name ++
    lit "/commit/" ++ e.lastCommit.id ++ lit "\">" ++ firstLine e.lastCommit.message ++
    lit "</a></td><td class=\"file-time\" title=\"" ++ host.timeStr e.lastCommit.ts ++ lit "\">" ++
    host.timeDiffStr e.lastCommit.ts ++ lit "</td></tr>\n"

/-- `RepoPageData`. The fields have these values until they are found out. -/
structure RepoPageData extends BasicRepo where
  files : List Entry := []
  lastCommit : Commit := {}
  activeBranch : Text
  visibility : Int
  commitsCount : Int := -1
  branchesCount : Int
  likesCount : Int
  ticketsCount : Int
  description : Text

/-- `visibility_strs` -/
def visibilityStr (visibility : Int) : Text :=
  (["Private", "Instance private", "Federated", "Public"] : List Text).getD visibility.toNat []

/-- `repo_page`. The count of forks is a constant, and the commits are counted as tags. -/
def repoPage (data : RepoPageData) (requestUser : Text) : Text :=
  let pfpUrl := fun user => host.hostBaseUri ++ lit "/mods/contacts/pfp/" ++ user
  host.render "/repo.html" [
    ("repo_owner_pfp", pfpUrl data.ownerUser),
    ("last_commit_author_pfp", pfpUrl data.lastCommit.author.fiyUser),
    ("last_commit_author", host.profileLink data.lastCommit.author),
    ("last_commit_time", host.timeStr data.lastCommit.ts),
    ("last_commit_time_diff", host.timeDiffStr data.lastCommit.ts),
    ("last_commit_id", data.lastCommit.id),
    ("last_commit_msg", firstLine data.lastCommit.message),
    ("mod_baseurl", host.baseUri),
    ("repo_branch", data.activeBranch),
    ("repo_branches_count", decimalInt data.branchesCount),
    ("repo_commits_count", decimalInt data.commitsCount),
    ("repo_description", data.description),
    ("repo_forks_count", decimalInt (-1)),
    ("repo_likes_count", decimalInt data.likesCount),
    ("repo_name", data.name),
    ("repo_owner", data.ownerUser),
    ("repo_tags_count", decimalInt data.commitsCount),
    ("repo_tickets_count", decimalInt data.ticketsCount),
    ("repo_visibility", visibilityStr data.visibility),
    ("repo_clone_url", host.baseUri ++ lit "/" ++ data.path),
    ("repo_entries_html", data.files.flatMap (host.entryHtml data.name)),
    ("request_user", requestUser),
    ("fiy_domain", host.domain)]

/-- How `forks_count` names a repository. -/
def globalPath (repo : BasicRepo) : Text :=
  repo.owner ++ lit "@" ++ (if repo.inst = [] then host.domain else repo.inst) ++ lit "/" ++ repo.name

/-- `get_repo_page_data` for the default branch. The counts of tags and forks are read too. -/
def repoPageData (b : Backend) (repo : LocalRepo) : Except Fault RepoPageData := do
  let git := b.openDirectory (repo.fsPath host.dataDir)
  let data : RepoPageData :=
    { repo with
      activeBranch := git.defaultBranch, branchesCount := git.branchesCount, likesCount := -1,
      ticketsCount := -1 }
  let data := match git.tip git.defaultBranch with
    | none => data
    | some tip =>
      { data with commitsCount := tip.commitsCount, lastCommit := tip.lastCommit, files := tip.files }
  let likesCount ← b.countLikes repo.path
  let _ ← b.countForks (host.globalPath repo.toBasicRepo)
  let ticketsCount ← b.countTickets repo.id
  return { data with likesCount, ticketsCount }

/-! ## JSON -/

/-- `DTORepoInfo`. The time of the creation keeps its default. -/
structure DTORepoInfo where
  inst : Text
  owner : Text
  name : Text
  description : Text
  forkOf : Text
  visibility : Int
  defaultBranch : Text
  branchesCount : Int
  likesCount : Int
  ticketsCount : Int
  forksCount : Int
  tagsCount : Int
  deriving DecidableEq, Repr

/-- `get_info_dto` -/
def infoDto (b : Backend) (repo : LocalRepo) : Except Fault DTORepoInfo := do
  let likesCount ← b.countLikes repo.path
  let forksCount ← b.countForks (host.globalPath repo.toBasicRepo)
  let ticketsCount ← b.countTickets repo.id
  let git := b.openDirectory (repo.fsPath host.dataDir)
  return { repo with
    inst := if repo.inst = [] then host.domain else repo.inst
    defaultBranch := git.defaultBranch, branchesCount := git.branchesCount
    tagsCount := git.tagsCount, likesCount, ticketsCount, forksCount }

/-- `to_json().dump()`: `none` when the library throws. Keys are in the order of `std::map`. -/
def infoJson (dto : DTORepoInfo) : Option Text := do
  let defaultBranch ← host.jsonString dto.defaultBranch
  let description ← host.jsonString dto.description
  let forkOf ← host.jsonString dto.forkOf
  let inst ← host.jsonString dto.inst
  let name ← host.jsonString dto.name
  let owner ← host.jsonString dto.owner
  some <| lit "\x7b\"branches_count\":" ++ decimalInt dto.branchesCount ++
    lit ",\"class\":\"repo.info\",\"create_ts\":0,\"default_branch\":" ++ defaultBranch ++
    lit ",\"description\":" ++ description ++ lit ",\"fork_of\":" ++ forkOf ++
    lit ",\"forks_count\":" ++ decimalInt dto.forksCount ++ lit ",\"instance\":" ++ inst ++
    lit ",\"likes_count\":" ++ decimalInt dto.likesCount ++ lit ",\"name\":" ++ name ++
    lit ",\"owner\":" ++ owner ++ lit ",\"tags_count\":" ++ decimalInt dto.tagsCount ++
    lit ",\"tickets_count\":" ++ decimalInt dto.ticketsCount ++ lit ",\"visibility\":" ++
    decimalInt dto.visibility ++ lit "\x7d"

/-- The items of an array between commas. -/
def commaSeparated : List Text → Text
  | [] => []
  | [item] => item
  | item :: items => item ++ lit "," ++ commaSeparated items

def cellJson : Cell → Option Text
  | .text value => host.jsonString value
  | .number value => some (decimalInt value)

/-- The search result, without the page data that no request can ask for. -/
def resultsJson (rows : List (List Cell)) : Option Text := do
  let rows ← rows.mapM fun row => do
    let cells ← row.mapM host.cellJson
    some (lit "[" ++ commaSeparated cells ++ lit "]")
  some (lit "\x7b\"results\":[" ++ commaSeparated rows ++ lit "]\x7d")

/-! ## The backend process -/

/-- `fiy_http_verb_strings` -/
def verbStrings : List Text :=
  ["<unknown>", "DELETE", "GET", "HEAD", "POST", "PUT", "CONNECT", "OPTIONS", "TRACE", "COPY",
    "LOCK", "MKCOL", "MOVE", "PROPFIND", "PROPPATCH", "SEARCH", "UNLOCK", "BIND", "REBIND",
    "UNBIND", "ACL", "REPORT", "MKACTIVITY", "CHECKOUT", "MERGE", "M-SEARCH", "NOTIFY",
    "SUBSCRIBE", "UNSUBSCRIBE", "PATCH", "PURGE", "MKCALENDAR", "LINK", "UNLINK"]

def methodStr : Verb → Text
  | .get => "GET"
  | .post => "POST"
  | .other code => verbStrings.getD code []

/-- The part of a path in front of its query. -/
def beforeQuery (path : Text) : Text := path.takeWhile (· ≠ 63)

/-- The query of a path. -/
def queryString (path : Text) : Text := ((cut 63 path).map Prod.snd).getD []

/-- `git_repo_cgi`, up to the start of the process -/
def repoCgi (req : ModRequest) : Cgi :=
  let https := host.baseUri[4]? = some 115
  let subpath := (host.baseUri.drop (if https then 8 else 7)).dropWhile (· ≠ 47)
  { requestMethod := methodStr req.method
    serverProtocol := if https then "https" else "http"
    serverName := host.domain
    serverPort := match cut 58 host.domain with
      | some (_, port) => port
      | none => if https then "443" else "80"
    pathInfo := if subpath = [] ∨ subpath = [47] then beforeQuery req.path else subpath ++ req.path
    queryString := queryString req.path
    pathTranslated := host.dataDir ++ lit "/repos" ++ beforeQuery req.path
    remoteAddr := req.domain.getD host.domain
    remoteUser := if req.user = none then [] else userStr req.user req.domain
    headers := req.headers
    body := req.body }

/-- A header line of the output, put into the response. -/
def cgiHeader (ret : ModResponse) (line : Text) : ModResponse :=
  let (header, value) := (cut 58 line).getD (line, line)
  if iequals header "status" then
    { ret with status := (strtol value).getD 500 }
  else { ret with headers := some (ret.headers.getD [] ++ line ++ [newline]) }

/-- The text before and after the first line end. -/
def cutLine : Text → Option (Text × Text)
  | 13 :: 10 :: rest => some ([], rest)
  | b :: rest => (cutLine rest).map fun p => (b :: p.1, p.2)
  | [] => none

/-- `parse_cgi_output`, with a bound on the lines -/
def parseCgiFrom : Nat → ModResponse → Text → ModResponse
  | 0, ret, _ => ret
  | lines + 1, ret, s => match cutLine s with
    | none => if s = [] then ret else cgiHeader ret s
    | some ([], body) => { ret with body }
    | some (line, rest) =>
      let ret := cgiHeader ret line
      if rest = [] ∨ rest.head? = some newline then { ret with body := rest }
      else parseCgiFrom lines ret rest

def parseCgiOutput (s : Text) : ModResponse := parseCgiFrom (s.length + 1) { status := 200 } s

example : parseCgiOutput "Status: 404 Not Found\r\nExpires: 0\r\n\r\nno" =
    { status := 404, headers := some "Expires: 0\n", body := "no" } := by decide

end GitHost

end GitPages
