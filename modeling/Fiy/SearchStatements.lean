import Fiy.GitSearch
import Fiy.SqlQueries

/-!
# The statements of a search

`RepoSearch::search` puts its statement together from fragments, and runs the binders of the
placeholders afterwards. What it executes is compared with the selection that is meant.
-/

namespace SearchStatements

open ByteStrings GitRepos GitSearch SqlTexts SqlQueries

/-! ## `DB::QueryBuilder` -/

/-- What a binder binds when it is run, and the next index. -/
abbrev BindFunction := Nat → List (Nat × Value) × Nat

/-- A binder that binds these values one after another. -/
def bindAll : List Value → BindFunction
  | [], index => ([], index)
  | v :: values, index =>
    ((index, v) :: (bindAll values (index + 1)).1, (bindAll values (index + 1)).2)

structure QueryBuilder where
  stmt : Text := []
  bindParams : List BindFunction := []
  firstCond : Bool := true

/-- A statement with what is bound to its placeholders. -/
structure Statement where
  text : Text
  bound : List (Nat × Value)
  deriving DecidableEq, Repr

namespace QueryBuilder

def part (qb : QueryBuilder) (text : Text) : QueryBuilder := { qb with stmt := qb.stmt ++ text }

/-- `part` with a function that is called when parameters are bound. -/
def bindPart (qb : QueryBuilder) (text : Text) (func : BindFunction) : QueryBuilder :=
  { qb.part text with bindParams := qb.bindParams ++ [func] }

def andCond (qb : QueryBuilder) : QueryBuilder :=
  if qb.firstCond then { qb.part " WHERE " with firstCond := false } else qb.part " AND "

/-- The binders are run one after another, from the index 1 on. -/
def runBinders : List BindFunction → BindFunction
  | [], index => ([], index)
  | func :: funcs, index =>
    ((func index).1 ++ (runBinders funcs (func index).2).1, (runBinders funcs (func index).2).2)

def build (qb : QueryBuilder) : Statement := ⟨qb.stmt, (runBinders qb.bindParams 1).1⟩

def replaceStart (qb : QueryBuilder) (firstChars : Nat) (replacement : Text) : QueryBuilder :=
  { qb with stmt := replacement ++ qb.stmt.drop firstChars }

end QueryBuilder

/-! ## `RepoSearch::search` -/

/-- A search that may ask for the number of its results. -/
structure PagedSearch extends RepoSearch where
  pageData : Bool := false
  deriving DecidableEq, Repr

/-- What a field adds to the columns. -/
def fieldPart : Part → Text
  | .invalid => "'invalid field' AS invalid,"
  | .internalId => "id,"
  | .path => "CONCAT(userName, '/', repoName) as path,"
  | .description => "description,"
  | .likes => "(SELECT COUNT(*) FROM RepoLikes WHERE repoPath=CONCAT(userName, '/', repoName)) as likes,"
  | .visibility => "visibility,"
  | .fork => "(SELECT fromRepoPath FROM RepoForks WHERE toRepoPath=CONCAT(userName, '/', repoName) LIMIT 1) as fork"
  | .createTs => "createTs,"
  | .updateTs => "lastUpdateTs,"
  | .tickets => "(SELECT COUNT(*) FROM RepoTickets WHERE repoId=id) as tickets,"

/-- The last comma is taken away. -/
def dropComma (text : Text) : Text := if text.getLast? = some 44 then text.dropLast else text

/-- `fields_select_part` -/
def fieldsSelectPart (fields : List Part) : Text :=
  dropComma (lit "SELECT " ++ fields.flatMap fieldPart) ++ lit " FROM Repos"

section search
variable (search : PagedSearch) (requester : Option (Text × Int))

/-- The access rule for a requester and the visibility above which he sees everything. -/
def accessPart (qb : QueryBuilder) : QueryBuilder :=
  let qb := qb.andCond
  match requester with
  | none => qb.part "visibility >= 3"
  | some (user, visibility) =>
    qb.bindPart (lit "(visibility > " ++ decimalInt visibility ++ lit " OR EXISTS (" ++
      lit "SELECT 1 FROM RepoAccess WHERE userName=? AND level > 0" ++
      lit " AND repoPath=concat(userName, '/', repoName)))") (bindAll [.text user])

def visibilityPart (qb : QueryBuilder) : QueryBuilder :=
  match search.visibility with
  | none => qb
  | some visibility => qb.andCond.bindPart "visibility=?" (bindAll [.int visibility])

def forksPart (qb : QueryBuilder) : QueryBuilder :=
  if search.forks ≠ .any then
    let qb := qb.andCond
    let qb := if search.forks = .no then qb.part "NOT " else qb
    qb.part "EXISTS (SELECT 1 FROM RepoForks WHERE toRepoPath=repoName AND user=userName)"
  else qb

/-- The conditions. -/
def whereParts (qb : QueryBuilder) : QueryBuilder :=
  let qb := if search.visibility = none ∨ search.visibility = some 0 then accessPart requester qb
    else qb
  let qb := if search.owner ≠ [] then
      qb.andCond.bindPart "userName=? " (bindAll [.text search.owner])
    else qb
  let qb := visibilityPart search qb
  let qb := if 0 < search.minLikes then
      qb.andCond.bindPart
        "(SELECT COUNT(*) FROM RepoLikes WHERE repoPath=concat(userName, '/', repoName)) > ?"
        (bindAll [.int search.minLikes])
    else qb
  let qb := forksPart search qb
  let qb := if search.nameLike ≠ [] then
      qb.andCond.bindPart "repoName LIKE ?" (bindAll [.text search.nameLike])
    else qb
  let qb := if search.descriptionLike ≠ [] then
      qb.andCond.bindPart "description LIKE ?" (bindAll [.text search.descriptionLike])
    else qb
  if search.query ≠ [] then
    qb.andCond.bindPart "(repoName LIKE ? OR description LIKE ?) "
      (bindAll [.text search.query, .text search.query])
  else qb

def sortPart : SearchSort → Text
  | .editDate => "lastUpdateTs"
  | .age => " createTs"
  | .name => " repoName"
  | .likes =>
    " (SELECT COUNT(*) FROM RepoLikes WHERE repoPath=CONCAT(userName, '/', repoName))"

/-- Order, limit and offset. -/
def orderParts (qb : QueryBuilder) : QueryBuilder :=
  let qb := qb.part " ORDER BY"
  let qb := qb.part (sortPart search.sort)
  let qb := qb.part (if search.orderDesc then " DESC" else " ASC")
  let qb := qb.bindPart " LIMIT ?" (bindAll [.int search.limit])
  if search.page ≠ 0 then qb.bindPart " OFFSET ?" (bindAll [.int search.offset]) else qb

/-- The statements of a search in the order they are executed. For the number of results the
start is replaced in the builder that goes on, and the copy is left alone. -/
def searchStatements : List Statement :=
  let fieldsSelect := fieldsSelectPart search.fieldsOrDefault
  let qb := whereParts search requester (QueryBuilder.part {} fieldsSelect)
  if search.pageData then
    let qb := qb.replaceStart fieldsSelect.length "SELECT COUNT(*) FROM Repos"
    [qb.build, (orderParts search qb).build]
  else [(orderParts search qb).build]

/-! ## The selection that is meant -/

/-- The path of the row of `Repos`. -/
def pathExpr : Expr := .concat (.column "userName") (.string "/") (.column "repoName")

/-- The expression of a field, and its name. -/
def fieldColumn : Part → Expr × Option Text
  | .invalid => (.string "invalid field", some "invalid")
  | .internalId => (.column "id", none)
  | .path => (pathExpr, some "path")
  | .description => (.column "description", none)
  | .likes => (.count "RepoLikes" (.binary .equal (.column "repoPath") pathExpr), some "likes")
  | .visibility => (.column "visibility", none)
  | .fork => (.first "fromRepoPath" "RepoForks" (.binary .equal (.column "toRepoPath") pathExpr),
      some "fork")
  | .createTs => (.column "createTs", none)
  | .updateTs => (.column "lastUpdateTs", none)
  | .tickets => (.count "RepoTickets" (.binary .equal (.column "repoId") (.column "id")),
      some "tickets")

/-- The rule about access. -/
def accessExpr : Option (Text × Int) → Expr
  | none => .binary .atLeast (.column "visibility") (.number 3)
  | some (user, visibility) =>
    .either (.binary .greater (.column "visibility") (.number visibility.toNat))
      (.found "RepoAccess" (.both (.both
        (.binary .equal (.column "userName") (.param (.text user)))
        (.binary .greater (.column "level") (.number 0)))
        (.binary .equal (.column "repoPath") pathExpr)))

def forkExpr : Expr := .found "RepoForks" (.both
  (.binary .equal (.column "toRepoPath") (.column "repoName"))
  (.binary .equal (.column "user") (.column "userName")))

def forkConditions : BooleanFilter → List Expr
  | .any => []
  | .yes => [forkExpr]
  | .no => [.not forkExpr]

def likesExpr : Expr := .count "RepoLikes" (.binary .equal (.column "repoPath") pathExpr)

/-- One condition for each filter, in the order of the filters. -/
def conditions : List Expr :=
  (if search.visibility = none ∨ search.visibility = some 0 then [accessExpr requester] else []) ++
  (if search.owner ≠ [] then [.binary .equal (.column "userName") (.param (.text search.owner))]
    else []) ++
  (search.visibility.elim [] fun visibility =>
    [.binary .equal (.column "visibility") (.param (.int visibility))]) ++
  (if 0 < search.minLikes then [.binary .greater likesExpr (.param (.int search.minLikes))]
    else []) ++
  forkConditions search.forks ++
  (if search.nameLike ≠ [] then [.binary .like (.column "repoName") (.param (.text search.nameLike))]
    else []) ++
  (if search.descriptionLike ≠ [] then
    [.binary .like (.column "description") (.param (.text search.descriptionLike))] else []) ++
  (if search.query ≠ [] then
    [.either (.binary .like (.column "repoName") (.param (.text search.query)))
      (.binary .like (.column "description") (.param (.text search.query)))] else [])

def sortExpr : SearchSort → Expr
  | .editDate => .column "lastUpdateTs"
  | .age => .column "createTs"
  | .name => .column "repoName"
  | .likes => likesExpr

/-- The selection of a search: the columns of the fields, the filters, the order and the page. -/
def selection : Select where
  columns := search.fieldsOrDefault.map fieldColumn
  table := "Repos"
  conditions := conditions search requester
  order := some (sortExpr search.sort, search.orderDesc)
  limit := some (.int search.limit)
  offset := if search.page = 0 then none else some (.int (search.page * search.limit : Nat))

end search

end SearchStatements
