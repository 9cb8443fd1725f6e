import Mathlib.Algebra.BigOperators.Group.List.Basic
import Mathlib.Algebra.GroupWithZero.Nat
import Fiy.SqlTexts

/-!
# Queries

Expressions and selections of one table with the values that are bound to their placeholders,
the tokens they are written with, and what they evaluate to in a world of tables.
-/

namespace SqlQueries

open ByteStrings SqlTexts

inductive Value
  | null
  | int (n : Int)
  | text (t : Text)
  deriving DecidableEq, Repr

inductive Operator
  | equal
  | greater
  | atLeast
  | like
  deriving DecidableEq, Repr

/-- Expressions. A subquery reads one table. -/
inductive Expr
  | column (name : Text)
  | string (value : Text)
  | number (n : Nat)
  /-- a placeholder with what is bound to it -/
  | param (v : Value)
  | concat (a b c : Expr)
  | binary (op : Operator) (a b : Expr)
  | both (a b : Expr)
  | either (a b : Expr)
  | not (a : Expr)
  | found (table : Text) (where_ : Expr)
  | count (table : Text) (where_ : Expr)
  | first (name table : Text) (where_ : Expr)
  deriving DecidableEq, Repr

/-! ## Tokens -/

/-- A name or a key word. -/
def word (name : Text) : Token := .word (name.map lowerByte)

def placeholder : Token := .symbol "?"

def Operator.token : Operator → Token
  | .equal => .symbol "="
  | .greater => .symbol ">"
  | .atLeast => .symbol ">="
  | .like => word "LIKE"

@[simp] theorem word_ne (name : Text) : word name ≠ placeholder := nofun
@[simp] theorem string_ne (value : Text) : Token.string value ≠ placeholder := nofun
@[simp] theorem comma_ne : Token.symbol "," ≠ placeholder := by decide
@[simp] theorem star_ne : Token.symbol "*" ≠ placeholder := by decide
@[simp] theorem opened_ne : Token.symbol "(" ≠ placeholder := by decide
@[simp] theorem closed_ne : Token.symbol ")" ≠ placeholder := by decide

@[simp]
theorem operator_ne (op : Operator) : op.token ≠ placeholder := by
  cases op with
  | equal | greater | atLeast => decide
  | like => exact nofun

namespace Expr

def tokens : Expr → List Token
  | .column name => [word name]
  | .string value => [.string value]
  | .number n => [word (decimal n)]
  | .param _ => [placeholder]
  | .concat a b c => word "CONCAT" :: .symbol "(" ::
      (a.tokens ++ .symbol "," :: (b.tokens ++ .symbol "," :: (c.tokens ++ [.symbol ")"])))
  | .binary op a b => a.tokens ++ op.token :: b.tokens
  | .both a b => a.tokens ++ word "AND" :: b.tokens
  | .either a b => .symbol "(" :: (a.tokens ++ word "OR" :: (b.tokens ++ [.symbol ")"]))
  | .not a => word "NOT" :: a.tokens
  | .found table where_ => word "EXISTS" :: .symbol "(" :: word "SELECT" :: word "1" ::
      word "FROM" :: word table :: word "WHERE" :: (where_.tokens ++ [.symbol ")"])
  | .count table where_ => .symbol "(" :: word "SELECT" :: word "COUNT" :: .symbol "(" ::
      .symbol "*" :: .symbol ")" :: word "FROM" :: word table :: word "WHERE" ::
      (where_.tokens ++ [.symbol ")"])
  | .first name table where_ => .symbol "(" :: word "SELECT" :: word name :: word "FROM" ::
      word table :: word "WHERE" :: (where_.tokens ++ [word "LIMIT", word "1", .symbol ")"])

/-- What is bound to the placeholders, in the order they stand in. -/
def values : Expr → List Value
  | .column _ | .string _ | .number _ => []
  | .param v => [v]
  | .concat a b c => a.values ++ (b.values ++ c.values)
  | .binary _ a b | .both a b | .either a b => a.values ++ b.values
  | .not a => a.values
  | .found _ where_ | .count _ where_ | .first _ _ where_ => where_.values

/-- Every placeholder has one value. -/
theorem placeholders (e : Expr) : e.tokens.count placeholder = e.values.length := by
  induction e with
  | column | string | number | param => simp [tokens, values]
  | concat a b c iha ihb ihc => simp [tokens, values, iha, ihb, ihc]
  | binary op a b iha ihb | both a b iha ihb | either a b iha ihb =>
    simp [tokens, values, iha, ihb]
  | not a ih => simpa [tokens, values] using ih
  | found table where_ ih | count table where_ ih | first name table where_ ih =>
    simpa [tokens, values] using ih

end Expr

/-- A selection from one table. -/
structure Select where
  /-- expressions, with the names they are given -/
  columns : List (Expr × Option Text)
  table : Text
  conditions : List Expr := []
  /-- the key, and whether the greatest comes first -/
  order : Option (Expr × Bool) := none
  limit : Option Value := none
  offset : Option Value := none
  deriving DecidableEq, Repr

namespace Select

def columnTokens (column : Expr × Option Text) : List Token :=
  column.1.tokens ++ (column.2.elim [] fun name => [word "AS", word name])

def whereTokens (conditions : List Expr) : List Token :=
  if conditions = [] then []
  else word "WHERE" :: [word "AND"].intercalate (conditions.map Expr.tokens)

def orderTokens (order : Expr × Bool) : List Token :=
  word "ORDER" :: word "BY" :: (order.1.tokens ++ [word (if order.2 then "DESC" else "ASC")])

def tokens (s : Select) : List Token :=
  word "SELECT" :: ([.symbol ","].intercalate (s.columns.map columnTokens) ++
    ([word "FROM", word s.table] ++ (whereTokens s.conditions ++
      (s.order.elim [] orderTokens ++
        (s.limit.elim [] (fun _ => [word "LIMIT", placeholder]) ++
          s.offset.elim [] (fun _ => [word "OFFSET", placeholder]))))))

/-- How many rows there are, whatever is selected of them. -/
def countTokens (s : Select) : List Token :=
  [word "SELECT", word "COUNT", .symbol "(", .symbol "*", .symbol ")", word "FROM",
    word s.table] ++ whereTokens s.conditions

def whereValues (conditions : List Expr) : List Value := conditions.flatMap Expr.values

def values (s : Select) : List Value :=
  (s.columns.map Prod.fst).flatMap Expr.values ++ (whereValues s.conditions ++
    (s.order.elim [] (fun order => order.1.values) ++ (s.limit.toList ++ s.offset.toList)))

theorem count_intercalate {sep : Token} (other : sep ≠ placeholder) (parts : List (List Token)) :
    ([sep].intercalate parts).count placeholder =
      (parts.map (List.count placeholder)).sum := by
  induction parts with
  | nil => rfl
  | cons part parts ih =>
    cases parts with
    | nil => simp
    | cons next parts =>
      rw [List.intercalate_cons_cons, List.count_append, List.count_append, ih]
      simp [other]

theorem intercalate_snoc {sep : Token} {parts : List (List Token)} (ne : parts ≠ [])
    (part : List Token) : [sep].intercalate (parts ++ [part]) =
      [sep].intercalate parts ++ sep :: part := by
  induction parts with
  | nil => exact absurd rfl ne
  | cons first parts ih =>
    cases parts with
    | nil => exact List.intercalate_cons_cons.trans (by simp)
    | cons next parts =>
      rw [List.intercalate_cons_cons, List.append_assoc, ← ih (List.cons_ne_nil _ _)]
      exact List.intercalate_cons_cons

/-- What is in front of one condition more. -/
def keyword (conditions : List Expr) : Text := if conditions = [] then "WHERE" else "AND"

theorem whereTokens_snoc (conditions : List Expr) (e : Expr) :
    whereTokens (conditions ++ [e]) = whereTokens conditions ++
      word (keyword conditions) :: e.tokens := by
  have some_ : conditions ++ [e] ≠ [] := List.append_ne_nil_of_right_ne_nil _ (List.cons_ne_nil _ _)
  by_cases empty : conditions = []
  · rw [empty]
    simp [whereTokens, keyword]
  · have mapped : conditions.map Expr.tokens ≠ [] := fun none => empty (List.map_eq_nil_iff.mp none)
    rw [whereTokens, whereTokens, keyword, if_neg some_, if_neg empty, if_neg empty, List.map_append,
      List.map_singleton, intercalate_snoc mapped]
    rfl

theorem sum_placeholders (es : List Expr) :
    ((es.map Expr.tokens).map (List.count placeholder)).sum = (es.flatMap Expr.values).length := by
  induction es with
  | nil => rfl
  | cons e es ih =>
    rw [List.map_cons, List.map_cons, List.sum_cons, ih, e.placeholders, List.flatMap_cons,
      List.length_append]

theorem count_whereTokens (conditions : List Expr) :
    (whereTokens conditions).count placeholder = (whereValues conditions).length := by
  unfold whereTokens
  split
  next empty =>
    rw [empty]
    rfl
  · rw [List.count_cons_of_ne (word_ne _), count_intercalate (word_ne _), sum_placeholders]
    rfl

theorem count_columnTokens (column : Expr × Option Text) :
    (columnTokens column).count placeholder = column.1.values.length := by
  rw [columnTokens, List.count_append, column.1.placeholders]
  cases column.2 with
  | none => rfl
  | some name => simp

/-- Every placeholder of a selection has one value. -/
theorem placeholders (s : Select) : s.tokens.count placeholder = s.values.length := by
  have columns : ([.symbol ","].intercalate (s.columns.map columnTokens)).count placeholder =
      ((s.columns.map Prod.fst).flatMap Expr.values).length := by
    rw [count_intercalate comma_ne, ← sum_placeholders, List.map_map, List.map_map, List.map_map]
    refine congrArg List.sum (List.map_congr_left fun column _ => ?_)
    exact (count_columnTokens column).trans column.1.placeholders.symm
  have order : (s.order.elim [] orderTokens).count placeholder =
      (s.order.elim [] fun order => order.1.values).length := by
    cases s.order with
    | none => rfl
    | some order => simpa [orderTokens] using order.1.placeholders
  have limit : ∀ {name : Text} (v : Option Value),
      (v.elim [] fun _ => [word name, placeholder]).count placeholder = v.toList.length := by
    intro name v
    cases v with
    | none => rfl
    | some v => simp
  rw [tokens, List.count_cons_of_ne (word_ne _), List.count_append, List.count_append,
    List.count_append, List.count_append, List.count_append, columns, count_whereTokens, order,
    limit, limit]
  simp only [values, List.length_append]
  simp

theorem count_placeholders (s : Select) :
    s.countTokens.count placeholder = (whereValues s.conditions).length := by
  rw [countTokens, List.count_append, count_whereTokens]
  simp

end Select

/-! ## Evaluation -/

/-- The columns of a row by name. -/
abbrev Row := List (Text × Value)

structure World where
  rows : Text → List Row
  like : Text → Text → Bool

def Row.get (row : Row) (name : Text) : Option Value :=
  (row.find? fun column => column.1 = name).map Prod.snd

/-- A name is looked for in the rows that are in scope, the innermost first. -/
def resolve (env : List Row) (name : Text) : Value :=
  (env.findSome? fun row => row.get name).getD .null

/-- As an argument of `CONCAT`, which takes NULL for the empty text. -/
def Value.shown : Value → Text
  | .null => []
  | .int n => decimalInt n
  | .text t => t

/-- NULL is less than numbers, and numbers are less than texts. -/
def Value.less : Value → Value → Bool
  | .null, .int _ | .null, .text _ | .int _, .text _ => true
  | .int m, .int n => m < n
  | .text t, .text u => decide (t < u)
  | _, _ => false

/-- NULL is neither true nor false. -/
def Value.truth : Value → Option Bool
  | .null => none
  | .int n => some (n ≠ 0)
  | .text _ => some false

def Value.ofTruth : Option Bool → Value
  | none => .null
  | some b => .int (if b then 1 else 0)

@[simp]
theorem truth_ofTruth (b : Option Bool) : (Value.ofTruth b).truth = b := by
  rcases b with - | - | -
  all_goals rfl

def Operator.apply (like : Text → Text → Bool) (op : Operator) (a b : Value) : Option Bool :=
  if a = .null ∨ b = .null then none
  else some <| match op with
    | .equal => a = b
    | .greater => b.less a
    | .atLeast => b.less a || a = b
    | .like => like a.shown b.shown

/-- `AND` and `OR` of three truth values. -/
def bothOf : Option Bool → Option Bool → Option Bool
  | some false, _ | _, some false => some false
  | some true, some true => some true
  | _, _ => none

def eitherOf : Option Bool → Option Bool → Option Bool
  | some true, _ | _, some true => some true
  | some false, some false => some false
  | _, _ => none

/-- The value of an expression for the rows in scope. -/
def Expr.eval (w : World) (env : List Row) : Expr → Value
  | .column name => resolve env name
  | .string value => .text value
  | .number n => .int n
  | .param v => v
  | .concat a b c => .text ((a.eval w env).shown ++ ((b.eval w env).shown ++ (c.eval w env).shown))
  | .binary op a b => .ofTruth (op.apply w.like (a.eval w env) (b.eval w env))
  | .both a b => .ofTruth (bothOf (a.eval w env).truth (b.eval w env).truth)
  | .either a b => .ofTruth (eitherOf (a.eval w env).truth (b.eval w env).truth)
  | .not a => .ofTruth ((a.eval w env).truth.map (! ·))
  | .found table where_ =>
    .ofTruth (some ((w.rows table).any fun row => (where_.eval w (row :: env)).truth = some true))
  | .count table where_ =>
    .int ((w.rows table).countP fun row => (where_.eval w (row :: env)).truth = some true)
  | .first name table where_ =>
    (((w.rows table).find? fun row => (where_.eval w (row :: env)).truth = some true).map
      fun row => resolve (row :: env) name).getD .null

/-- The rows of a page. A negative limit is none, and a negative offset is 0. -/
def window {α : Type} (limit offset : Option Value) (rows : List α) : List α :=
  let rest := match offset with
    | some (.int n) => rows.drop n.toNat
    | _ => rows
  match limit with
  | some (.int n) => if n < 0 then rest else rest.take n.toNat
  | _ => rest

namespace Select
variable (w : World) (s : Select)

/-- The rows that are selected. -/
def selected : List Row :=
  (w.rows s.table).filter fun row => s.conditions.all fun e => (e.eval w [row]).truth = some true

/-- In the order of their keys, and as they are where the keys are equal. -/
def sorted (rows : List Row) : List Row :=
  match s.order with
  | none => rows
  | some (key, desc) => rows.mergeSort fun a b =>
      if desc then !(key.eval w [a]).less (key.eval w [b])
      else !(key.eval w [b]).less (key.eval w [a])

/-- The result rows. -/
def run : List (List Value) :=
  (window s.limit s.offset (s.sorted w (s.selected w))).map fun row =>
    s.columns.map fun column => column.1.eval w [row]

/-- The number that `COUNT(*)` gives. -/
def runCount : Nat := (s.selected w).length

end Select

end SqlQueries
