import Fiy.SearchColumns
import Fiy.SearchConditions
import Fiy.SearchRows

/-!
# The texts of a search

What a search executes against the selection that is meant. Its statement is read as the
selection unless a blank or a comma is missing, or its start has been replaced.
-/

namespace SearchTexts

open ByteStrings GitRepos GitSearch SqlTexts SqlQueries SearchStatements SearchColumns
open SearchConditions SearchRows

section whole
variable (search : PagedSearch)

/-- What the binders of the page bind. -/
def pageValues : List Value :=
  .int search.limit :: if search.page = 0 then [] else [.int search.offset]

/-- The text behind the conditions. -/
def orderText (key : Text) : Text :=
  lit " ORDER BY" ++ (key ++ ((if search.orderDesc then lit " DESC" else lit " ASC") ++
    (lit " LIMIT ?" ++ if search.page = 0 then [] else lit " OFFSET ?")))

/-- The key without the blank in front of it. -/
def keyText : SearchSort → Text
  | .editDate => "lastUpdateTs"
  | .age => "createTs"
  | .name => "repoName"
  | .likes => "(SELECT COUNT(*) FROM RepoLikes WHERE repoPath=CONCAT(userName, '/', repoName))"

theorem sortPart_eq {sort : SearchSort} (other : sort ≠ .editDate) :
    sortPart sort = 32 :: keyText sort := by
  cases sort with
  | editDate => exact absurd rfl other
  | age | likes | name =>
    rw [sortPart, keyText, lit_ofList, lit_ofList]
    decide +kernel

theorem reads_key (sort : SearchSort) : Reads (keyText sort) (sortExpr sort).tokens := by
  cases sort with
  | editDate | age | likes | name =>
    rw [keyText, lit_ofList]
    decide +kernel

theorem orderParts_stmt (qb : QueryBuilder) :
    (orderParts search qb).stmt = qb.stmt ++ orderText search (sortPart search.sort) := by
  unfold orderParts orderText
  by_cases first : search.page = 0
  · rw [if_neg (not_not.mpr first), if_pos first]
    cases search.orderDesc with
    | false => simp [QueryBuilder.bindPart, QueryBuilder.part, List.append_assoc]
    | true => simp [QueryBuilder.bindPart, QueryBuilder.part, List.append_assoc]
  · rw [if_pos first, if_neg first]
    cases search.orderDesc with
    | false => simp [QueryBuilder.bindPart, QueryBuilder.part, List.append_assoc]
    | true => simp [QueryBuilder.bindPart, QueryBuilder.part, List.append_assoc]

theorem runBinders_snoc {funcs : List BindFunction} {values : List Value}
    (bound : ∀ index, QueryBuilder.runBinders funcs index = bindAll values index)
    (more : List Value) (index : Nat) :
    QueryBuilder.runBinders (funcs ++ [bindAll more]) index = bindAll (values ++ more) index := by
  rw [runBinders_append, bound, bindAll_append]

theorem orderParts_bound (qb : QueryBuilder) {values : List Value}
    (bound : ∀ index, QueryBuilder.runBinders qb.bindParams index = bindAll values index) :
    (orderParts search qb).build.bound =
      ((values ++ pageValues search).zipIdx 1).map Prod.swap := by
  have limited := runBinders_snoc bound [.int search.limit]
  rw [← bindAll_eq, QueryBuilder.build]
  refine congrArg Prod.fst ?_
  unfold orderParts pageValues
  by_cases first : search.page = 0
  · rw [if_neg (not_not.mpr first), if_pos first]
    exact limited 1
  · rw [if_pos first, if_neg first]
    exact (runBinders_snoc limited [.int search.offset] 1).trans
      (congrArg (bindAll · 1) (List.append_assoc _ _ _))

/-- Order and page of the selection. -/
def orderRead (requester : Option (Text × Int)) : List Token :=
  (selection search requester).order.elim [] Select.orderTokens ++
    ((selection search requester).limit.elim [] (fun _ => [word "LIMIT", placeholder]) ++
      (selection search requester).offset.elim [] (fun _ => [word "OFFSET", placeholder]))

theorem reads_page : Reads (lit "LIMIT ?" ++ if search.page = 0 then [] else lit " OFFSET ?")
    ([word "LIMIT", placeholder] ++ (if search.page = 0 then none
      else some (Value.int (search.page * search.limit : Nat))).elim []
        (fun _ => [word "OFFSET", placeholder])) := by
  by_cases first : search.page = 0
  · rw [if_pos first, if_pos first]
    decide
  · rw [if_neg first, if_neg first]
    change Reads _ ([word "LIMIT", placeholder] ++ [word "OFFSET", placeholder])
    decide

theorem reads_order {t : Text} {read : List Token} (reads : Reads t read)
    (requester : Option (Text × Int)) :
    Reads (t ++ orderText search (32 :: keyText search.sort))
      (read ++ orderRead search requester) := by
  have start : Reads (lit "ORDER BY") [word "ORDER", word "BY"] := by decide
  have direction : Reads (if search.orderDesc then lit "DESC" else lit "ASC")
      [word (if search.orderDesc then "DESC" else "ASC")] := by
    cases search.orderDesc with
    | false => decide
    | true => decide
  have whole := reads.blank (start.blank ((reads_key search.sort).blank
    (direction.blank (reads_page search))))
  have text : orderText search (32 :: keyText search.sort) =
      32 :: (lit "ORDER BY" ++ 32 :: (keyText search.sort ++
        32 :: ((if search.orderDesc then lit "DESC" else lit "ASC") ++
          32 :: (lit "LIMIT ?" ++ if search.page = 0 then [] else lit " OFFSET ?")))) := by
    unfold orderText
    cases search.orderDesc with
    | false => rfl
    | true => rfl
  have ordered : orderRead search requester = [word "ORDER", word "BY"] ++
      ((sortExpr search.sort).tokens ++ ([word (if search.orderDesc then "DESC" else "ASC")] ++
        ([word "LIMIT", placeholder] ++ (if search.page = 0 then none
          else some (Value.int (search.page * search.limit : Nat))).elim []
            (fun _ => [word "OFFSET", placeholder])))) := by
    simp only [orderRead, selection, Option.elim, Select.orderTokens, List.cons_append,
      List.append_assoc, List.nil_append]
  rw [text, ordered]
  exact whole

/-! ## The statements -/

theorem fieldsSelectPart_eq {fields : List Part} (ne : fields ≠ []) :
    fieldsSelectPart fields = lit "SELECT " ++ (columnsText fields ++ lit " FROM Repos") := by
  obtain ⟨part, fields, rfl⟩ := List.exists_cons_of_ne_nil ne
  have some_ : (part :: fields).flatMap fieldPart ≠ [] := fun empty =>
    fieldPart_ne part (List.append_eq_nil_iff.mp empty).1
  rw [fieldsSelectPart, dropComma_append _ some_, List.append_assoc]
  rfl

theorem fieldsOrDefault_ne : search.fieldsOrDefault ≠ [] := by
  unfold RepoSearch.fieldsOrDefault
  split
  · exact List.cons_ne_nil _ _
  next other => exact other

/-- The tokens in front of the order. -/
def frontRead (requester : Option (Text × Int)) : List Token :=
  [word "SELECT"] ++ ([.symbol ","].intercalate
    ((search.fieldsOrDefault.map fieldColumn).map Select.columnTokens) ++
      [word "FROM", word "Repos"]) ++ Select.whereTokens (conditions search requester)

theorem selection_tokens (requester : Option (Text × Int)) :
    (selection search requester).tokens =
      frontRead search requester ++ orderRead search requester := by
  simp only [Select.tokens, frontRead, orderRead, selection, List.cons_append, List.append_assoc,
    List.nil_append]

/-- What follows the columns of the builder when it holds the conditions. -/
def Keeps (requester : Option (Text × Int)) (more : Text) : Prop :=
  ∀ {t : Text} {read : List Token}, Reads t read →
    Reads (t ++ more) (read ++ Select.whereTokens (conditions search requester))

variable {search} in
/-- With a comma behind every fork. -/
theorem reads_front {requester : Option (Text × Int)} {more : Text}
    (keeps : Keeps search requester more) :
    Reads (lit "SELECT " ++ (joinedColumns search.fieldsOrDefault ++ lit " FROM Repos") ++ more)
      (frontRead search requester) := by
  have start : Reads (lit "SELECT") [word "SELECT"] := by decide
  have table : Reads (lit "FROM Repos") [word "FROM", word "Repos"] := by decide
  exact keeps (start.blank ((reads_joined (fieldsOrDefault_ne search)).blank table))

variable {search} in
/-- And a blank in front of the key. -/
theorem reads_joined_text {requester : Option (Text × Int)} {more : Text}
    (keeps : Keeps search requester more) :
    Reads (lit "SELECT " ++ (joinedColumns search.fieldsOrDefault ++ lit " FROM Repos") ++ more ++
        orderText search (32 :: keyText search.sort))
      (selection search requester).tokens := by
  rw [selection_tokens]
  exact reads_order search (reads_front keeps) requester

/-- A statement is read like this, and every placeholder has its value. -/
structure Executes (statement : Statement) (read : List Token) (values : List Value) : Prop where
  text : tokens statement.text = read
  bound : statement.bound = (values.zipIdx 1).map Prod.swap
  each : values.length = read.count placeholder

/-- The search executes the selection that is meant, after the number of its rows if that is
asked for, and reads of every row the columns of its fields. -/
structure Meets (requester : Option (Text × Int)) : Prop where
  statements : ∃ totals result, searchStatements search requester = totals ++ [result] ∧
    Executes result (selection search requester).tokens (selection search requester).values ∧
    (search.pageData = false ∧ totals = [] ∨ search.pageData = true ∧ ∃ total, totals = [total] ∧
      Executes total (selection search requester).countTokens
        (Select.whereValues (conditions search requester)))
  columns : ∀ (host : GitPages.GitHost) (t : Tables) (id : Int) (row : RepoRow),
    ModLibrary.getInt row.visibility = row.visibility →
      rowJson search.fieldsOrDefault ((selection search requester).columns.map fun column =>
        column.1.eval (world host t) [repoRow id row]) =
          some (search.fieldsOrDefault.map (t.column id row))

/-- The searches whose statement is not damaged. -/
structure Sound : Prop where
  forks : .fork ∉ search.fieldsOrDefault.dropLast
  sort : search.sort ≠ .editDate
  counted : search.pageData = false
  page : search.page * search.limit ≤ 2147483647

/-! ### Values -/

theorem fieldColumn_values (part : Part) : (fieldColumn part).1.values = [] := by
  cases part with
  | invalid | internalId | path | description | likes | visibility | fork | createTs | updateTs
    | tickets => rfl

theorem sortExpr_values (sort : SearchSort) : (sortExpr sort).values = [] := by
  cases sort with
  | editDate | age | likes | name => rfl

theorem numbered_values (values : List Value) :
    ((values.zipIdx 1).map Prod.swap).map Prod.snd = values := by
  rw [List.map_map]
  exact List.zipIdx_map_fst 1 values

/-- Only the conditions and the page have placeholders. -/
theorem selection_values (requester : Option (Text × Int)) :
    (selection search requester).values =
      Select.whereValues (conditions search requester) ++ (.int search.limit ::
        if search.page = 0 then [] else [.int (search.page * search.limit : Nat)]) := by
  have columns : ((search.fieldsOrDefault.map fieldColumn).map Prod.fst).flatMap Expr.values = [] := by
    refine List.flatMap_eq_nil_iff.mpr fun e mem => ?_
    rw [List.map_map] at mem
    obtain ⟨part, -, rfl⟩ := List.mem_map.mp mem
    exact fieldColumn_values part
  simp only [Select.values, selection, columns, Option.elim, sortExpr_values, List.nil_append,
    Option.toList]
  by_cases first : search.page = 0
  · rw [if_pos first, if_pos first]
    rfl
  · rw [if_neg first, if_neg first]
    rfl

theorem pageValues_eq_iff : pageValues search = (.int search.limit ::
      if search.page = 0 then [] else [.int (search.page * search.limit : Nat)]) ↔
    search.page * search.limit ≤ 2147483647 := by
  unfold pageValues
  by_cases first : search.page = 0
  · rw [if_pos first, if_pos first, first, Nat.zero_mul]
    exact iff_of_true rfl (Nat.zero_le _)
  · rw [if_neg first, if_neg first, ← RepoSearch.offset_eq_iff]
    simp

/-! ### Texts -/

/-- What is executed when the number of the results is not asked for. -/
theorem statements_plain {requester : Option (Text × Int)} (known : Known requester)
    (uncounted : search.pageData = false) : ∃ result more,
    searchStatements search requester = [result] ∧
      result.text = lit "SELECT " ++ (columnsText search.fieldsOrDefault ++ lit " FROM Repos") ++
        more ++ orderText search (sortPart search.sort) ∧
      result.bound = ((Select.whereValues (conditions search requester) ++
        pageValues search).zipIdx 1).map Prod.swap ∧ Keeps search requester more := by
  have holds := holds_whereParts search known (holds_start (fieldsSelectPart search.fieldsOrDefault))
  obtain ⟨more, text, keeps⟩ := holds.text
  refine ⟨_, more, if_neg (uncounted ▸ Bool.false_ne_true), ?_,
    orderParts_bound search _ holds.bound, keeps⟩
  change (orderParts search _).stmt = _
  rw [orderParts_stmt, text, fieldsSelectPart_eq (fieldsOrDefault_ne search)]

/-- The start of the statement that goes on is replaced. -/
theorem statements_counted {requester : Option (Text × Int)} (counted : search.pageData = true) :
    ∃ total result, searchStatements search requester = [total, result] ∧
      [word "SELECT", word "COUNT"] <+: tokens result.text := by
  refine ⟨_, _, if_pos counted, ?_⟩
  change _ <+: tokens (orderParts search _).stmt
  rw [orderParts_stmt, QueryBuilder.replaceStart, List.append_assoc]
  have start : [word "SELECT", word "COUNT"] <+:
      (scan .between (lit "SELECT COUNT(*) FROM Repos")).1 := by decide
  exact start.trans (scan_front _ _)

theorem column_start (part : Part) : ∃ first rest,
    Select.columnTokens (fieldColumn part) = first :: rest ∧ first ≠ word "COUNT" := by
  cases part with
  | invalid | internalId | path | description | likes | visibility | fork | createTs | updateTs
    | tickets => exact ⟨_, _, rfl, by decide⟩

/-- The selection starts with a column. -/
theorem selection_start (requester : Option (Text × Int)) :
    ¬ [word "SELECT", word "COUNT"] <+: (selection search requester).tokens := by
  obtain ⟨part, parts, fields⟩ := List.exists_cons_of_ne_nil (fieldsOrDefault_ne search)
  obtain ⟨first, rest, column, other⟩ := column_start part
  rintro ⟨more, same⟩
  simp only [Select.tokens, selection, fields, List.map_cons, column,
    List.intercalate_cons_cons_left] at same
  exact other (List.cons.inj (List.cons.inj same).2).1.symm

theorem count_sortPart (sort : SearchSort) :
    (sortPart sort).count 44 = (32 :: keyText sort).count 44 := by
  by_cases edit : sort = .editDate
  · rw [edit]
    decide
  · rw [sortPart_eq edit]

theorem count_orderText (key : Text) : (orderText search key).count 44 = key.count 44 := by
  have direction : (if search.orderDesc then lit " DESC" else lit " ASC").count 44 = 0 := by
    cases search.orderDesc with
    | false => decide
    | true => decide
  have page : (if search.page = 0 then [] else lit " OFFSET ?").count 44 = 0 := by
    split
    · rfl
    · decide
  have order : (lit " ORDER BY").count 44 = 0 := by decide
  have limit : (lit " LIMIT ?").count 44 = 0 := by decide
  rw [orderText, List.count_append, List.count_append, List.count_append, List.count_append,
    direction, page, order, limit]
  omega

variable {search}

/-- Without a comma behind a fork the statement is not read as the selection. -/
theorem forkless_of_text {requester : Option (Text × Int)} {more : Text}
    (keeps : Keeps search requester more)
    (same : tokens (lit "SELECT " ++ (columnsText search.fieldsOrDefault ++ lit " FROM Repos") ++
      more ++ orderText search (sortPart search.sort)) = (selection search requester).tokens) :
    .fork ∉ search.fieldsOrDefault.dropLast := by
  have commas := congrArg (occurs 44) (same.trans (reads_joined_text keeps).2.symm)
  rw [occurs_tokens (by decide) (by decide) (by decide),
    occurs_tokens (by decide) (by decide) (by decide)] at commas
  simp only [List.count_append, count_orderText, count_sortPart] at commas
  have missing := columnsText_commas (fieldsOrDefault_ne search)
  have none_ : search.fieldsOrDefault.dropLast.count .fork = 0 := by omega
  exact List.count_eq_zero.mp none_

/-- Without the blank in front of the key neither. -/
theorem sorted_of_text {requester : Option (Text × Int)} {more : Text}
    (keeps : Keeps search requester more)
    (same : tokens (lit "SELECT " ++ (joinedColumns search.fieldsOrDefault ++ lit " FROM Repos") ++
      more ++ orderText search (sortPart search.sort)) = (selection search requester).tokens) :
    search.sort ≠ .editDate := by
  intro edit
  have glued : Reads (lit "ORDER BYlastUpdateTs") [word "ORDER", word "BYlastUpdateTs"] := by
    decide
  obtain ⟨rest, split⟩ : ∃ rest, orderText search (sortPart .editDate) =
      32 :: (lit "ORDER BYlastUpdateTs" ++ 32 :: rest) := by
    unfold orderText
    cases search.orderDesc with
    | false => exact ⟨_, rfl⟩
    | true => exact ⟨_, rfl⟩
  have front := reads_front keeps
  rw [edit, split, tokens_blank front.1, front.2, tokens_blank glued.1, glued.2,
    selection_tokens] at same
  have order := List.append_cancel_left same
  simp only [orderRead, selection, Option.elim, Select.orderTokens, List.cons_append] at order
  have by_ := (List.cons.inj (List.cons.inj order).2).1
  exact absurd by_ (by decide)

/-- The text is read as the selection when neither is missing. -/
theorem text_iff {requester : Option (Text × Int)} {more : Text}
    (keeps : Keeps search requester more) :
    tokens (lit "SELECT " ++ (columnsText search.fieldsOrDefault ++ lit " FROM Repos") ++ more ++
      orderText search (sortPart search.sort)) = (selection search requester).tokens ↔
    .fork ∉ search.fieldsOrDefault.dropLast ∧ search.sort ≠ .editDate := by
  constructor
  · intro same
    have forkless := forkless_of_text keeps same
    refine ⟨forkless, sorted_of_text keeps ?_⟩
    rw [← columnsText_joined (fieldsOrDefault_ne search) forkless]
    exact same
  · rintro ⟨forkless, sort⟩
    rw [columnsText_joined (fieldsOrDefault_ne search) forkless, sortPart_eq sort]
    exact (reads_joined_text keeps).2

variable (search) in
/-- A search executes the statement that is meant if and only if it is sound. -/
theorem meets_iff {requester : Option (Text × Int)} (known : Known requester) :
    Meets search requester ↔ Sound search := by
  have columns : ∀ (host : GitPages.GitHost) (t : Tables) (id : Int) (row : RepoRow),
      ModLibrary.getInt row.visibility = row.visibility →
        rowJson search.fieldsOrDefault ((selection search requester).columns.map fun column =>
          column.1.eval (world host t) [repoRow id row]) =
            some (search.fieldsOrDefault.map (t.column id row)) :=
    fun host t id row small => rowJson_columns host t id row small search.fieldsOrDefault
  cases counted : search.pageData with
  | true =>
    refine iff_of_false (fun meets => ?_) fun sound =>
      Bool.false_ne_true (sound.counted.symm.trans counted)
    obtain ⟨totals, result, run, executes, -⟩ := meets.statements
    obtain ⟨total, result', run', start⟩ := statements_counted search counted
    have last := congrArg List.getLast? (run.symm.trans run')
    rw [List.getLast?_concat] at last
    obtain rfl : result = result' := Option.some.inj last
    rw [executes.text] at start
    exact selection_start search requester start
  | false =>
    obtain ⟨result, more, run, text, bound, keeps⟩ := statements_plain search known counted
    constructor
    · intro meets
      obtain ⟨totals, result', run', executes, -⟩ := meets.statements
      have last := congrArg List.getLast? (run'.symm.trans run)
      rw [List.getLast?_concat] at last
      obtain rfl : result' = result := Option.some.inj last
      have read := executes.text
      rw [text] at read
      obtain ⟨forkless, sort⟩ := (text_iff keeps).mp read
      refine ⟨forkless, sort, counted, ?_⟩
      have values := congrArg (List.map Prod.snd) (executes.bound.symm.trans bound)
      rw [numbered_values, numbered_values, selection_values] at values
      exact (pageValues_eq_iff search).mp (List.append_cancel_left values).symm
    · intro sound
      refine ⟨⟨[], result, run, ?_, .inl ⟨counted, rfl⟩⟩, columns⟩
      refine ⟨?_, ?_, (Select.placeholders _).symm⟩
      · rw [text]
        exact (text_iff keeps).mpr ⟨sound.forks, sound.sort⟩
      · rw [bound, selection_values, (pageValues_eq_iff search).mpr sound.page]

/-- For every requester: without a fork in front of another field, another order than by the
last edit, no number of results, and an offset that fits. -/
theorem search_meets_iff (search : PagedSearch) (domain user inst : Text) :
    Meets search (Tables.searcher domain user inst) ↔ Sound search :=
  meets_iff search (known_searcher domain user inst)

end whole

/-- A fork in front of another field, the order by the last edit, the number of results, and a
page that is too far. -/
theorem search_damaged :
    ¬ Meets { fields := [.fork, .internalId] } (Tables.searcher "a.b" "bob" []) ∧
      ¬ Meets { sort := .editDate } (Tables.searcher "a.b" "bob" []) ∧
      ¬ Meets { pageData := true } (Tables.searcher "a.b" "bob" []) ∧
      ¬ Meets { limit := 65535, page := 65535 } (Tables.searcher "a.b" "bob" []) := by
  have known := known_searcher "a.b" "bob" []
  refine ⟨fun meets => ?_, fun meets => ?_, fun meets => ?_, fun meets => ?_⟩
  · exact absurd ((meets_iff _ known).mp meets).forks (by decide)
  · exact ((meets_iff _ known).mp meets).sort rfl
  · exact absurd ((meets_iff _ known).mp meets).counted (by decide)
  · exact absurd ((meets_iff _ known).mp meets).page (by decide)

end SearchTexts
