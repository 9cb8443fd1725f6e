import Fiy.GitPages

/-!
# Searching repositories

The parameters of `/api/repo/search` and the statement that is put together from them.
What the statement selects is a function of the rows of the tables.
-/

namespace GitSearch

open ByteStrings GitRepos GitPages

/-- `RepoSearch::Parts` -/
inductive Part
  | invalid
  | internalId
  | path
  | description
  | likes
  | visibility
  | fork
  | createTs
  | updateTs
  | tickets
  deriving DecidableEq, Repr

/-- `RepoSearch::Sort` -/
inductive SearchSort
  | age
  | likes
  | name
  | editDate
  deriving DecidableEq, Repr

inductive BooleanFilter
  | any
  | yes
  | no
  deriving DecidableEq, Repr

/-- `RepoSearch`. The visibility is `none` without a filter. -/
structure RepoSearch where
  owner : Text := []
  nameLike : Text := []
  descriptionLike : Text := []
  query : Text := []
  minLikes : Int := -1
  limit : Nat := 20
  page : Nat := 0
  sort : SearchSort := .name
  orderDesc : Bool := true
  forks : BooleanFilter := .any
  visibility : Option Nat := none
  fields : List Part := []
  deriving DecidableEq, Repr

/-! ## Parameters -/

/-- One parameter: a key, and a value behind the first equals sign. -/
def keyValue (param : Text) : Text × Text := (cut 61 param).getD (param, [])

/-- The parameters of the loops over a query: one separator in front is dropped. -/
def paramTexts (q : Text) : List Text :=
  if q = [] then []
  else (if q.head? = some 38 ∨ q.head? = some 63 then q.tail else q).splitOn 38

/-- The text up to the separator `%2C` and behind it. -/
def cutComma : Text → Option (Text × Text)
  | 37 :: 50 :: 67 :: rest => some ([], rest)
  | b :: rest => (cutComma rest).map fun p => (b :: p.1, p.2)
  | [] => none

def splitComma : Nat → Text → List Text
  | 0, csv => [csv]
  | fuel + 1, csv => match cutComma csv with
    | none => [csv]
    | some (part, rest) => part :: splitComma fuel rest

/-- The table in `set_fields` -/
def partNamed (name : Text) : Part :=
  if name = "id" ∨ name = "1" then .internalId
  else if name = "path" ∨ name = "2" then .path
  else if name = "description" ∨ name = "3" then .description
  else if name = "likes" ∨ name = "4" then .likes
  else if name = "visibility" ∨ name = "5" then .visibility
  else if name = "fork" ∨ name = "6" then .fork
  else if name = "created" ∨ name = "7" then .createTs
  else if name = "updated" ∨ name = "8" then .updateTs
  else if name = "tickets" ∨ name = "9" then .tickets
  else .invalid

/-- `set_fields`: an empty last part is not a field. -/
def fieldParts (csv : Text) : List Part :=
  let parts := if 44 ∈ csv then csv.splitOn 44 else splitComma csv.length csv
  (if parts.getLast? = some [] then parts.dropLast else parts).map partNamed

/-- `set_owner` -/
def ownerParam (domain owner : Text) : Text :=
  let name := owner.takeWhile fun b => b ≠ 64 ∧ b ≠ 37
  if owner.drop (name.length + 1) = domain ∧ name.length < owner.length then name else owner

/-- `std::from_chars` into an `int32_t` -/
def int32 (t : Text) : Option Int :=
  (fromChars t 10).filter fun n => -2147483648 ≤ n ∧ n ≤ 2147483647

/-- `std::from_chars` into an `uint16_t`, which has no sign -/
def uint16 (t : Text) : Option Nat :=
  if t.head? = some 45 then none
  else ((fromChars t 10).filter fun n => n ≤ 65535).map Int.toNat

/-- One parameter of the search. -/
def applyParam (domain : Text) (search : RepoSearch) (param : Text × Text) : RepoSearch :=
  let (key, value) := param
  if key = "asc" then { search with orderDesc := false }
  else if key = "desc" then { search with orderDesc := true }
  else if key = "forks" then { search with forks := if value = "no" then .no else .yes }
  else if key = "visibility" then
    let n := (value.headD 0).toNat
    { search with visibility := some (if 48 ≤ n ∧ n ≤ 51 then n - 48 else 3) }
  else if key = "owner" then { search with owner := ownerParam domain value }
  else if key = "sort" then
    { search with
      sort := if value = "age" then .age
        else if value = "likes" then .likes
        else if value = "name" then .name
        else if value = "edit" then .editDate
        else search.sort }
  else if key = "name" then { search with nameLike := lit "%" ++ value ++ lit "%" }
  else if key = "description" then { search with descriptionLike := lit "%" ++ value ++ lit "%" }
  else if key = "q" ∨ key = "query" then { search with query := value }
  else if key = "min_likes" then { search with minLikes := (int32 value).getD search.minLikes }
  else if key = "n" ∨ key = "limit" then { search with limit := (uint16 value).getD search.limit }
  else if key = "page" then { search with page := (uint16 value).getD search.page }
  else if key = "fields" then { search with fields := search.fields ++ fieldParts value }
  else search

/-- The search a path asks for, from what follows `/search`. -/
def searchOf (domain path : Text) : RepoSearch :=
  (paramTexts (if path.head? = some 47 then path.tail else path)).foldl
    (fun search param => applyParam domain search (keyValue param)) {}

example : (searchOf "a.b" "?owner=bob@a.b&fields=id%2Cpath&visibility=7&n=5").owner = "bob" ∧
    (searchOf "a.b" "?owner=bob@a.b&fields=id%2Cpath&visibility=7&n=5").visibility = some 3 := by
  decide

/-! ## The statement -/

/-- A row of `Repos`. -/
structure RepoRow where
  userName : Text
  repoName : Text
  description : Option Text
  visibility : Int
  createTs : Int
  lastUpdateTs : Int
  deriving DecidableEq, Repr

/-- A row of `RepoForks`. -/
structure ForkRow where
  fromRepoPath : Text
  toRepoPath : Text
  user : Text
  deriving DecidableEq, Repr

/-- A row of `RepoAccess`. -/
structure AccessRow where
  repoPath : Text
  userName : Text
  level : Int
  deriving DecidableEq, Repr

/-- A row of `RepoLikes`. -/
structure LikeRow where
  user : Text
  repoPath : Text
  deriving DecidableEq, Repr

structure Tables where
  /-- the rows of `Repos` by number, in the order of the numbers -/
  repos : List (Int × RepoRow)
  forks : List ForkRow
  access : List AccessRow
  likes : List LikeRow
  /-- the repository numbers of the tickets -/
  tickets : List Int
  deriving DecidableEq, Repr

def RepoRow.path (row : RepoRow) : Text := row.userName ++ lit "/" ++ row.repoName

namespace Tables
variable (t : Tables)

def likesOf (path : Text) : Nat := t.likes.countP fun like => like.repoPath = path

def ticketsOf (id : Int) : Nat := t.tickets.countP (· = id)

/-- The requester as a user string, and the visibility above which the rule lets
everything through; `none` for anonymous requesters. -/
def searcher (domain user inst : Text) : Option (Text × Int) :=
  if user = [] then none
  else if inst = [] ∨ inst = domain then some (user, 1)
  else some (user ++ lit "@" ++ inst, 2)

/-- The access rule of the statement. In the subquery `userName` is the one of
`RepoAccess`, so the path is made of the requester and the name of the repository. -/
def accessCondition (requester : Option (Text × Int)) (row : RepoRow) : Bool :=
  match requester with
  | none => decide (3 ≤ row.visibility)
  | some (user, visibility) => decide (visibility < row.visibility) ||
      t.access.any fun grant => decide (grant.userName = user ∧ 0 < grant.level ∧
        grant.repoPath = grant.userName ++ lit "/" ++ row.repoName)

/-- The conditions of the statement. The access rule is left out when the filter asks for
anything but private repositories. -/
def selects (host : GitHost) (search : RepoSearch) (requester : Option (Text × Int))
    (row : RepoRow) : Bool :=
  (match search.visibility with
    | none | some 0 => t.accessCondition requester row
    | some _ => true) &&
  (search.owner = [] || row.userName = search.owner) &&
  (match search.visibility with
    | none => true
    | some visibility => decide (row.visibility = visibility)) &&
  (decide (search.minLikes ≤ 0) || decide (search.minLikes < t.likesOf row.path)) &&
  (match search.forks with
    | .any => true
    | .yes => t.forks.any fun fork => fork.toRepoPath = row.repoName && fork.user = row.userName
    | .no => !t.forks.any fun fork => fork.toRepoPath = row.repoName && fork.user = row.userName) &&
  (search.nameLike = [] || host.like row.repoName search.nameLike) &&
  (search.descriptionLike = [] || row.description.any (host.like · search.descriptionLike)) &&
  (search.query = [] || host.like row.repoName search.query ||
    row.description.any (host.like · search.query))

/-- A column of a result row, read the way `row_json` reads its field. -/
def column (id : Int) (row : RepoRow) : Part → Cell
  | .invalid => .text "invalid field"
  | .internalId => .number id
  | .path => .text row.path
  | .description => .text (row.description.getD [])
  | .likes => .number (t.likesOf row.path)
  | .visibility => .number row.visibility
  | .fork => .text (((t.forks.find? fun fork => fork.toRepoPath = row.path).map
      ForkRow.fromRepoPath).getD [])
  | .createTs => .number row.createTs
  | .updateTs => .number row.lastUpdateTs
  | .tickets => .number (t.ticketsOf id)

/-- What the results are ordered by. -/
def sortKey (sort : SearchSort) (row : RepoRow) : Int × Text :=
  match sort with
  | .age => (row.createTs, [])
  | .likes => (t.likesOf row.path, [])
  | .name | .editDate => (0, row.repoName)

end Tables

/-- The field is written as the name of a column. -/
def Part.bare : Part → Bool
  | .internalId | .description | .visibility | .createTs | .updateTs => true
  | _ => false

/-- The columns of the statement. There is no comma behind the parent of a fork: the name of
a column that follows becomes part of its alias, and anything else is an error. -/
def selectColumns : List Part → Option (List Part)
  | [] => some []
  | [part] => some [part]
  | .fork :: next :: parts =>
    if next.bare then (selectColumns parts).map (.fork :: ·) else none
  | part :: parts => (selectColumns parts).map (part :: ·)

/-- `default_fields` -/
def RepoSearch.fieldsOrDefault (search : RepoSearch) : List Part :=
  if search.fields = [] then [.path, .description] else search.fields

/-- `page * limit`, an `int` that wraps around. -/
def RepoSearch.offset (search : RepoSearch) : Int :=
  ((search.page * search.limit : Nat) : Int).bmod 4294967296

/-- It is the product when that fits. -/
theorem RepoSearch.offset_eq_iff {search : RepoSearch} :
    search.offset = (search.page * search.limit : Nat) ↔
      search.page * search.limit ≤ 2147483647 := by
  unfold offset
  generalize search.page * search.limit = n
  rw [Int.bmod_def]
  split
  · omega
  · omega

theorem RepoSearch.offset_first {search : RepoSearch} (first : search.page = 0) :
    search.offset = 0 := by
  have none_ : search.page * search.limit = 0 := by rw [first, Nat.zero_mul]
  unfold offset
  rw [none_]
  decide

def keyLe (a b : Int × Text) : Bool := a.1 < b.1 || (a.1 = b.1 && decide (a.2 ≤ b.2))

/-- `RepoSearch::search`: the rows of the result. The statement that orders by the last edit
lacks a blank. -/
def Tables.search (host : GitHost) (t : Tables) (search : RepoSearch) (user inst : Text) :
    Except Fault (List (List Cell)) :=
  let fields := search.fieldsOrDefault
  match selectColumns fields with
  | none => .error .sqlite
  | some columns =>
    if search.sort = .editDate then .error .sqlite
    else
      let selected := t.repos.filter fun e =>
        t.selects host search (Tables.searcher host.domain user inst) e.2
      let keyed := selected.map fun e => (t.sortKey search.sort e.2, e)
      let sorted := keyed.mergeSort fun a b =>
        if search.orderDesc then keyLe b.1 a.1 else keyLe a.1 b.1
      let rows := ((sorted.map Prod.snd).drop search.offset.toNat).take search.limit
      -- a field that lost its column cannot be read
      if columns.length < fields.length ∧ rows ≠ [] then .error .sqlite
      else .ok (rows.map fun e => fields.map (t.column e.1 e.2))

theorem ok_of_ite {ε α : Type} {lost : Prop} [Decidable lost] {fault : ε} {a a' : α}
    (found : (if lost then Except.error fault else Except.ok a) = .ok a') : a = a' := by
  split at found
  · cases found
  · exact Except.ok.inj found

/-- Sorting by a key keeps the rows. -/
theorem keyed_sort_perm {α κ : Type} (key : α → κ) (le : κ × α → κ × α → Bool) (rows : List α) :
    (((rows.map fun e => (key e, e)).mergeSort le).map Prod.snd).Perm rows := by
  have sorted := (List.mergeSort_perm (rows.map fun e => (key e, e)) le).map Prod.snd
  rwa [List.map_map, show Prod.snd ∘ (fun e => (key e, e)) = id from rfl, List.map_id] at sorted

/-- A search that comes through has the selected rows in some order, from the offset on. -/
theorem search_rows {host : GitHost} {t : Tables} {search : RepoSearch} {user inst : Text}
    {rows : List (List Cell)} (found : t.search host search user inst = .ok rows) :
    ∃ sorted : List (Int × RepoRow),
      sorted.Perm (t.repos.filter fun e =>
        t.selects host search (Tables.searcher host.domain user inst) e.2) ∧
      rows = ((sorted.drop search.offset.toNat).take search.limit).map fun e =>
        search.fieldsOrDefault.map (t.column e.1 e.2) := by
  simp only [Tables.search] at found
  split at found
  · cases found
  by_cases edit : search.sort = .editDate
  · rw [if_pos edit] at found
    cases found
  rw [if_neg edit] at found
  exact ⟨_, keyed_sort_perm _ _ _, (ok_of_ite found).symm⟩

end GitSearch
