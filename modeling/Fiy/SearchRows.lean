import Fiy.SearchStatements

/-!
# The rows of a search

What the columns of a selection evaluate to, and how they are read.
-/

namespace SearchRows

open ByteStrings GitRepos GitSearch SqlTexts SqlQueries SearchStatements

section rows

def repoRow (id : Int) (row : RepoRow) : Row :=
  [("id", .int id), ("userName", .text row.userName), ("repoName", .text row.repoName),
    ("description", row.description.elim .null .text), ("visibility", .int row.visibility),
    ("createTs", .int row.createTs), ("lastUpdateTs", .int row.lastUpdateTs)]

def forkRow (row : ForkRow) : Row :=
  [("fromRepoPath", .text row.fromRepoPath), ("toRepoPath", .text row.toRepoPath),
    ("user", .text row.user)]

def accessRow (row : AccessRow) : Row :=
  [("repoPath", .text row.repoPath), ("userName", .text row.userName), ("level", .int row.level)]

def likeRow (row : LikeRow) : Row := [("user", .text row.user), ("repoPath", .text row.repoPath)]

def ticketRow (id : Int) : Row := [("repoId", .int id)]

/-- The tables by name. -/
def world (host : GitPages.GitHost) (t : Tables) : World where
  rows := fun table =>
    if table = "Repos" then t.repos.map fun e => repoRow e.1 e.2
    else if table = "RepoForks" then t.forks.map forkRow
    else if table = "RepoAccess" then t.access.map accessRow
    else if table = "RepoLikes" then t.likes.map likeRow
    else if table = "RepoTickets" then t.tickets.map ticketRow
    else []
  like := host.like

/-- How `row_json` reads the column of a field: `getString`, `getInt64` or `getInt`. A number is
not read of a text. -/
def readCell (part : Part) (v : Value) : Option Cell :=
  match part with
  | .invalid | .description | .path | .fork => some (.text v.shown)
  | .createTs | .internalId | .likes | .tickets | .updateTs => match v with
    | .int n => some (.number n)
    | _ => none
  | .visibility => match v with
    | .int n => some (.number (ModLibrary.getInt n))
    | _ => none

/-- `row_json`: the column of every field is read. -/
def rowJson : List Part → List Value → Option (List Cell)
  | [], _ => some []
  | _ :: _, [] => none
  | part :: parts, v :: values =>
    (readCell part v).bind fun cell => (rowJson parts values).map (cell :: ·)

variable (host : GitPages.GitHost) (t : Tables) (id : Int) (row : RepoRow)

theorem eval_path (env : List Row) (user : resolve env "userName" = .text row.userName)
    (name : resolve env "repoName" = .text row.repoName) :
    pathExpr.eval (world host t) env = .text row.path := by
  simp only [pathExpr, Expr.eval, user, name]
  simp only [Value.shown, RepoRow.path, List.append_assoc]

/-- Where a column is compared with something that is not NULL. -/
theorem truth_equal (w : World) (env : List Row) {a b : Expr} {v u : Value}
    (left : a.eval w env = v) (right : b.eval w env = u) (some_ : v ≠ .null) (some' : u ≠ .null) :
    ((Expr.binary .equal a b).eval w env).truth = some (decide (v = u)) := by
  rw [Expr.eval, truth_ofTruth, left, right, Operator.apply, if_neg (not_or.mpr ⟨some_, some'⟩)]

theorem rows_likes : (world host t).rows "RepoLikes" = t.likes.map likeRow := rfl
theorem rows_forks : (world host t).rows "RepoForks" = t.forks.map forkRow := rfl
theorem rows_tickets : (world host t).rows "RepoTickets" = t.tickets.map ticketRow := rfl

theorem eval_likes :
    likesExpr.eval (world host t) [repoRow id row] = .int (t.likesOf row.path) := by
  rw [likesExpr, Expr.eval, rows_likes, List.countP_map, Tables.likesOf]
  refine congrArg (fun n : Nat => Value.int n) (List.countP_congr fun like _ => ?_)
  have path := eval_path host t row [likeRow like, repoRow id row] rfl rfl
  have found : (Expr.column "repoPath").eval (world host t) [likeRow like, repoRow id row] =
      .text like.repoPath := rfl
  rw [Function.comp, truth_equal _ _ found path nofun nofun]
  simp

theorem eval_tickets : (Expr.count "RepoTickets" (.binary .equal (.column "repoId")
    (.column "id"))).eval (world host t) [repoRow id row] = .int (t.ticketsOf id) := by
  rw [Expr.eval, rows_tickets, List.countP_map, Tables.ticketsOf]
  refine congrArg (fun n : Nat => Value.int n) (List.countP_congr fun ticket _ => ?_)
  have found : (Expr.column "repoId").eval (world host t) [ticketRow ticket, repoRow id row] =
      .int ticket := rfl
  have here : (Expr.column "id").eval (world host t) [ticketRow ticket, repoRow id row] =
      .int id := rfl
  rw [Function.comp, truth_equal _ _ found here nofun nofun]
  simp

theorem eval_fork : ((Expr.first "fromRepoPath" "RepoForks" (.binary .equal (.column "toRepoPath")
    pathExpr)).eval (world host t) [repoRow id row]).shown =
      ((t.forks.find? fun fork => fork.toRepoPath = row.path).map ForkRow.fromRepoPath).getD [] := by
  rw [Expr.eval, rows_forks, List.find?_map]
  have same : (fun fork => decide ((Expr.eval (world host t) [forkRow fork, repoRow id row]
      (.binary .equal (.column "toRepoPath") pathExpr)).truth = some true)) =
        fun fork : ForkRow => decide (fork.toRepoPath = row.path) := by
    funext fork
    have path := eval_path host t row [forkRow fork, repoRow id row] rfl rfl
    have found : (Expr.column "toRepoPath").eval (world host t) [forkRow fork, repoRow id row] =
        .text fork.toRepoPath := rfl
    rw [truth_equal _ _ found path nofun nofun]
    simp
  have composed : ((fun r => decide ((Expr.eval (world host t) (r :: [repoRow id row])
      (.binary .equal (.column "toRepoPath") pathExpr)).truth = some true)) ∘ forkRow) = _ := same
  rw [composed]
  cases t.forks.find? fun fork => decide (fork.toRepoPath = row.path) with
  | none => rfl
  | some fork => rfl

/-- The column of a field is what the field shows. -/
theorem readCell_column (small : ModLibrary.getInt row.visibility = row.visibility) (part : Part) :
    readCell part ((fieldColumn part).1.eval (world host t) [repoRow id row]) =
      some (t.column id row part) := by
  cases part with
  | invalid | internalId | createTs | updateTs => rfl
  | path =>
    simp only [fieldColumn, eval_path host t row [repoRow id row] rfl rfl]
    rfl
  | description =>
    have shown : (row.description.elim Value.null .text).shown = row.description.getD [] := by
      cases row.description with
      | none => rfl
      | some text => rfl
    exact congrArg (fun text => some (Cell.text text)) shown
  | likes =>
    change readCell .likes (likesExpr.eval (world host t) [repoRow id row]) = _
    rw [eval_likes]
    rfl
  | visibility => exact congrArg (fun n => some (Cell.number n)) small
  | fork => exact congrArg (fun text => some (Cell.text text)) (eval_fork host t id row)
  | tickets =>
    simp only [fieldColumn, eval_tickets]
    rfl

/-- `row_json` reads the column of every field. -/
theorem rowJson_columns (small : ModLibrary.getInt row.visibility = row.visibility)
    (fields : List Part) :
    rowJson fields ((fields.map fieldColumn).map fun column =>
        column.1.eval (world host t) [repoRow id row]) =
      some (fields.map (t.column id row)) := by
  induction fields with
  | nil => rfl
  | cons part fields ih =>
    rw [List.map_cons, List.map_cons, rowJson, readCell_column host t id row small, ih]
    rfl

end rows

end SearchRows
