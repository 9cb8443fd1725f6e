import Fiy.SearchStatements

/-!
# The conditions of a search

The builder holds what it started with, followed by one condition for each filter.
-/

namespace SearchConditions

open ByteStrings GitRepos GitSearch SqlTexts SqlQueries SearchStatements

theorem bindAll_append (values more : List Value) (index : Nat) :
    bindAll (values ++ more) index =
      ((bindAll values index).1 ++ (bindAll more (bindAll values index).2).1,
        (bindAll more (bindAll values index).2).2) := by
  induction values generalizing index with
  | nil => rfl
  | cons v values ih =>
    rw [List.cons_append, bindAll, ih, bindAll]
    rfl

theorem bindAll_eq (values : List Value) (index : Nat) :
    (bindAll values index).1 = (values.zipIdx index).map Prod.swap := by
  induction values generalizing index with
  | nil => rfl
  | cons v values ih =>
    rw [bindAll, List.zipIdx_cons, List.map_cons, ih]
    rfl

theorem runBinders_append (funcs : List BindFunction) (func : BindFunction) (index : Nat) :
    QueryBuilder.runBinders (funcs ++ [func]) index =
      ((QueryBuilder.runBinders funcs index).1 ++ (func (QueryBuilder.runBinders funcs index).2).1,
        (func (QueryBuilder.runBinders funcs index).2).2) := by
  induction funcs generalizing index with
  | nil =>
    rw [List.nil_append, QueryBuilder.runBinders, QueryBuilder.runBinders]
    simp only [QueryBuilder.runBinders, List.append_nil, List.nil_append]
  | cons first funcs ih =>
    rw [List.cons_append, QueryBuilder.runBinders, ih, QueryBuilder.runBinders]
    simp only [List.append_assoc]

/-- The builder has what it started with, followed by the conditions. -/
structure Holds (start : Text) (qb : QueryBuilder) (conditions : List Expr) : Prop where
  text : ∃ more, qb.stmt = start ++ more ∧ ∀ {t : Text} {read : List Token}, Reads t read →
    Reads (t ++ more) (read ++ Select.whereTokens conditions)
  bound : ∀ index, QueryBuilder.runBinders qb.bindParams index =
    bindAll (Select.whereValues conditions) index
  first : qb.firstCond = decide (conditions = [])

section holds
variable {start : Text} {qb : QueryBuilder} {conditions : List Expr}

theorem holds_start (start : Text) : Holds start (QueryBuilder.part {} start) [] where
  text := by
    refine ⟨[], (List.append_nil start).symm, fun {t read} reads => ?_⟩
    rw [List.append_nil]
    exact (List.append_nil read).symm ▸ reads
  bound := fun _ => rfl
  first := rfl

theorem andCond_part (holds : Holds start qb conditions) (piece : Text) :
    (qb.andCond.part piece).stmt =
      qb.stmt ++ 32 :: (Select.keyword conditions ++ 32 :: piece) := by
  rw [QueryBuilder.andCond, holds.first, Select.keyword]
  by_cases empty : conditions = []
  · rw [if_pos (decide_eq_true empty), if_pos empty]
    exact List.append_assoc _ _ _
  · rw [if_neg (fun same => empty (of_decide_eq_true same)), if_neg empty]
    exact List.append_assoc _ _ _

theorem reads_keyword (conditions : List Expr) :
    Reads (Select.keyword conditions) [word (Select.keyword conditions)] := by
  rw [Select.keyword]
  split
  · decide
  · decide

/-- What a condition adds to the text. -/
theorem holds_text (holds : Holds start qb conditions) {e : Expr} {piece : Text}
    (reads : Reads piece e.tokens) :
    ∃ more, (qb.andCond.part piece).stmt = start ++ more ∧
      ∀ {t : Text} {read : List Token}, Reads t read →
        Reads (t ++ more) (read ++ Select.whereTokens (conditions ++ [e])) := by
  obtain ⟨more, text, keeps⟩ := holds.text
  refine ⟨more ++ 32 :: (Select.keyword conditions ++ 32 :: piece), ?_, fun {t read} before => ?_⟩
  · rw [andCond_part holds, text, List.append_assoc]
  · have whole := (keeps before).blank ((reads_keyword conditions).blank reads)
    rw [Select.whereTokens_snoc, ← List.append_assoc, ← List.append_assoc]
    exact whole

theorem andCond_binders (qb : QueryBuilder) : qb.andCond.bindParams = qb.bindParams := by
  unfold QueryBuilder.andCond
  split
  · rfl
  · rfl

theorem andCond_first (qb : QueryBuilder) : qb.andCond.firstCond = false := by
  unfold QueryBuilder.andCond
  split
  · rfl
  next later => exact Bool.eq_false_iff.mpr later

/-- A condition with its binder. -/
theorem holds_bind (holds : Holds start qb conditions) {e : Expr} {piece : Text}
    (reads : Reads piece e.tokens) :
    Holds start (qb.andCond.bindPart piece (bindAll e.values)) (conditions ++ [e]) where
  text := holds_text holds reads
  bound := by
    intro index
    rw [QueryBuilder.bindPart, andCond_binders, runBinders_append, holds.bound]
    simp only [Select.whereValues, List.flatMap_append, List.flatMap_singleton, bindAll_append]
  first := by
    rw [QueryBuilder.bindPart, QueryBuilder.part, andCond_first]
    exact (decide_eq_false (List.append_ne_nil_of_right_ne_nil _ (List.cons_ne_nil _ _))).symm

/-- A condition without placeholders. -/
theorem holds_part (holds : Holds start qb conditions) {e : Expr} {piece : Text}
    (reads : Reads piece e.tokens) (none_ : e.values = []) :
    Holds start (qb.andCond.part piece) (conditions ++ [e]) where
  text := holds_text holds reads
  bound := by
    intro index
    rw [QueryBuilder.part, andCond_binders, holds.bound, Select.whereValues, Select.whereValues,
      List.flatMap_append, List.flatMap_singleton, none_, List.append_nil]
  first := by
    rw [QueryBuilder.part, andCond_first]
    exact (decide_eq_false (List.append_ne_nil_of_right_ne_nil _ (List.cons_ne_nil _ _))).symm

theorem Holds.skip (holds : Holds start qb conditions) : Holds start qb (conditions ++ []) :=
  (List.append_nil conditions).symm ▸ holds

theorem holds_filter {p : Prop} [Decidable p] (holds : Holds start qb conditions) (e : Expr)
    {piece : Text} (reads : Reads piece e.tokens) :
    Holds start (if p then qb.andCond.bindPart piece (bindAll e.values) else qb)
      (conditions ++ if p then [e] else []) := by
  split
  · exact holds_bind holds reads
  · exact holds.skip

/-! ### The filters -/

variable (search : PagedSearch)

/-- What the filters add is read as their conditions. -/
theorem reads_filters :
    Reads "userName=? " (Expr.binary .equal (.column "userName") (.param .null)).tokens ∧
      Reads "visibility=?" (Expr.binary .equal (.column "visibility") (.param .null)).tokens ∧
      Reads "(SELECT COUNT(*) FROM RepoLikes WHERE repoPath=concat(userName, '/', repoName)) > ?"
        (Expr.binary .greater likesExpr (.param .null)).tokens ∧
      Reads "repoName LIKE ?" (Expr.binary .like (.column "repoName") (.param .null)).tokens ∧
      Reads "description LIKE ?"
        (Expr.binary .like (.column "description") (.param .null)).tokens ∧
      Reads "(repoName LIKE ? OR description LIKE ?) "
        (Expr.either (.binary .like (.column "repoName") (.param .null))
          (.binary .like (.column "description") (.param .null))).tokens ∧
      Reads "visibility >= 3" (accessExpr none).tokens ∧
      Reads "EXISTS (SELECT 1 FROM RepoForks WHERE toRepoPath=repoName AND user=userName)"
        forkExpr.tokens ∧
      Reads (lit "NOT " ++
          lit "EXISTS (SELECT 1 FROM RepoForks WHERE toRepoPath=repoName AND user=userName)")
        (Expr.not forkExpr).tokens := by
  repeat rw [lit_ofList]
  decide +kernel

/-- Whatever is bound. -/
theorem reads_owner (v : Value) :
    Reads "userName=? " (Expr.binary .equal (.column "userName") (.param v)).tokens :=
  reads_filters.1

theorem reads_visibility (v : Value) :
    Reads "visibility=?" (Expr.binary .equal (.column "visibility") (.param v)).tokens :=
  reads_filters.2.1

theorem reads_likes (v : Value) : Reads
    "(SELECT COUNT(*) FROM RepoLikes WHERE repoPath=concat(userName, '/', repoName)) > ?"
    (Expr.binary .greater likesExpr (.param v)).tokens :=
  reads_filters.2.2.1

theorem reads_name (v : Value) :
    Reads "repoName LIKE ?" (Expr.binary .like (.column "repoName") (.param v)).tokens :=
  reads_filters.2.2.2.1

theorem reads_description (v : Value) :
    Reads "description LIKE ?" (Expr.binary .like (.column "description") (.param v)).tokens :=
  reads_filters.2.2.2.2.1

theorem reads_query (v : Value) : Reads "(repoName LIKE ? OR description LIKE ?) "
    (Expr.either (.binary .like (.column "repoName") (.param v))
      (.binary .like (.column "description") (.param v))).tokens :=
  reads_filters.2.2.2.2.2.1

theorem reads_public : Reads "visibility >= 3" (accessExpr none).tokens :=
  reads_filters.2.2.2.2.2.2.1

theorem reads_fork : Reads
    "EXISTS (SELECT 1 FROM RepoForks WHERE toRepoPath=repoName AND user=userName)"
    forkExpr.tokens :=
  reads_filters.2.2.2.2.2.2.2.1

theorem reads_unforked : Reads (lit "NOT " ++
      lit "EXISTS (SELECT 1 FROM RepoForks WHERE toRepoPath=repoName AND user=userName)")
    (Expr.not forkExpr).tokens :=
  reads_filters.2.2.2.2.2.2.2.2

theorem reads_access {user : Text} {visibility : Int} (known : visibility = 1 ∨ visibility = 2) :
    Reads (lit "(visibility > " ++ decimalInt visibility ++ lit " OR EXISTS (" ++
        lit "SELECT 1 FROM RepoAccess WHERE userName=? AND level > 0" ++
        lit " AND repoPath=concat(userName, '/', repoName)))")
      (accessExpr (some (user, visibility))).tokens := by
  change Reads _ (accessExpr (some ([], visibility))).tokens
  rw [lit_ofList, lit_ofList, lit_ofList, lit_ofList]
  rcases known with rfl | rfl
  · decide +kernel
  · decide +kernel

/-- The visibilities above which requesters see everything. -/
def Known (requester : Option (Text × Int)) : Prop :=
  ∀ user visibility, requester = some (user, visibility) → visibility = 1 ∨ visibility = 2

theorem known_searcher (domain user inst : Text) : Known (Tables.searcher domain user inst) := by
  intro name visibility found
  unfold Tables.searcher at found
  split at found
  · cases found
  · split at found
    · cases found
      exact .inl rfl
    · cases found
      exact .inr rfl

theorem holds_access {requester : Option (Text × Int)} (known : Known requester)
    (holds : Holds start qb conditions) :
    Holds start (accessPart requester qb) (conditions ++ [accessExpr requester]) := by
  cases requester with
  | none => exact holds_part holds reads_public rfl
  | some pair => exact holds_bind holds (reads_access (known pair.1 pair.2 rfl))

theorem holds_visibility (holds : Holds start qb conditions) :
    Holds start (visibilityPart search qb) (conditions ++ search.visibility.elim [] fun visibility =>
      [.binary .equal (.column "visibility") (.param (.int visibility))]) := by
  unfold visibilityPart
  cases search.visibility with
  | none => exact holds.skip
  | some visibility =>
    exact holds_bind holds
      (e := .binary .equal (.column "visibility") (.param (.int visibility))) (reads_visibility _)

theorem part_part (qb : QueryBuilder) (t u : Text) : (qb.part t).part u = qb.part (t ++ u) := by
  simp only [QueryBuilder.part, List.append_assoc]

theorem holds_forks (holds : Holds start qb conditions) :
    Holds start (forksPart search qb) (conditions ++ forkConditions search.forks) := by
  cases kind : search.forks with
  | any =>
    rw [forksPart, if_neg (not_not.mpr kind)]
    exact holds.skip
  | yes =>
    simp only [forksPart, kind]
    exact holds_part holds reads_fork rfl
  | no =>
    simp only [forksPart, kind]
    have both := holds_part holds reads_unforked rfl
    rw [← part_part] at both
    exact both

/-- The conditions are those of the filters. -/
theorem holds_whereParts {requester : Option (Text × Int)} (known : Known requester)
    (holds : Holds start qb []) :
    Holds start (whereParts search requester qb)
      (SearchStatements.conditions search requester) := by
  have access : Holds start (if search.visibility = none ∨ search.visibility = some 0 then
      accessPart requester qb else qb) (if search.visibility = none ∨ search.visibility = some 0
        then [accessExpr requester] else []) := by
    split
    · exact holds_access known holds
    · exact holds
  have owner := holds_filter (p := search.owner ≠ []) access
    (.binary .equal (.column "userName") (.param (.text search.owner))) (reads_owner _)
  have likes := holds_filter (p := 0 < search.minLikes) (holds_visibility search owner)
    (.binary .greater likesExpr (.param (.int search.minLikes))) (reads_likes _)
  have name := holds_filter (p := search.nameLike ≠ []) (holds_forks search likes)
    (.binary .like (.column "repoName") (.param (.text search.nameLike))) (reads_name _)
  have description := holds_filter (p := search.descriptionLike ≠ []) name
    (.binary .like (.column "description") (.param (.text search.descriptionLike)))
    (reads_description _)
  exact holds_filter (p := search.query ≠ []) description
    (.either (.binary .like (.column "repoName") (.param (.text search.query)))
      (.binary .like (.column "description") (.param (.text search.query)))) (reads_query _)

end holds

end SearchConditions
