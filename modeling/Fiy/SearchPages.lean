import Fiy.SearchStatements

/-!
# Pages of a search

The limit and the page of a query string go into fields of 16 bits, and their product into an
`int`. What is bound to the statement decides which rows of the order are on a page.
-/

namespace SearchPages

open ByteStrings GitRepos GitSearch SqlQueries SearchStatements

/-- `RepoSearch::MAX_RESULTS` -/
def maxResults : Nat := 1000

/-! ## Pages -/

section pages
variable {α : Type}

/-- The rows of an order that the statement of a search gives. -/
def pageRows (search : RepoSearch) (rows : List α) : List α :=
  window (some (.int search.limit)) (if search.page = 0 then none else some (.int search.offset)) rows

theorem pageRows_eq (search : RepoSearch) (rows : List α) :
    pageRows search rows = (rows.drop search.offset.toNat).take search.limit := by
  have limit : ¬ (search.limit : Int) < 0 := by omega
  unfold pageRows window
  by_cases first : search.page = 0
  · rw [if_pos first, RepoSearch.offset_first first]
    simp only [limit, if_false, Int.toNat_natCast, Int.toNat_zero, List.drop_zero]
  · rw [if_neg first]
    simp only [limit, if_false, Int.toNat_natCast]

theorem length_pageRows (search : RepoSearch) (rows : List α) :
    (pageRows search rows).length ≤ search.limit := by
  rw [pageRows_eq]
  exact List.length_take_le _ _

/-- Pages whose offsets fit are one after another. -/
theorem pages_take (search : RepoSearch) (rows : List α) (count : Nat)
    (fit : ∀ k < count, k * search.limit ≤ 2147483647) :
    (List.range count).flatMap (fun k => pageRows { search with page := k } rows) =
      rows.take (count * search.limit) := by
  induction count with
  | zero =>
    rw [Nat.zero_mul]
    rfl
  | succ count ih =>
    have last : pageRows { search with page := count } rows =
        (rows.drop (count * search.limit)).take search.limit := by
      rw [pageRows_eq, RepoSearch.offset_eq_iff.mpr (fit count (Nat.lt_succ_self count))]
      rfl
    rw [List.range_succ, List.flatMap_append, ih fun k less => fit k (Nat.lt_succ_of_lt less),
      List.flatMap_singleton, last, Nat.succ_mul, List.take_add]

end pages

/-! ## Query strings -/

/-- What a query string has for the field of the limit. -/
def limitParam (param : Text × Text) : Option Nat :=
  if param.1 = "n" ∨ param.1 = "limit" then uint16 param.2 else none

/-- The parameters of what follows `/search`. -/
def queryParts (path : Text) : List (Text × Text) :=
  (paramTexts (if path.head? = some 47 then path.tail else path)).map keyValue

theorem searchOf_eq (domain path : Text) :
    searchOf domain path = (queryParts path).foldl (applyParam domain) {} := by
  rw [searchOf, queryParts, List.foldl_map]

theorem uint16_le {t : Text} {n : Nat} (read : uint16 t = some n) : n ≤ 65535 := by
  unfold uint16 at read
  split at read
  · cases read
  · obtain ⟨m, found, rfl⟩ := Option.map_eq_some_iff.mp read
    have small := (Option.filter_eq_some_iff.mp found).2
    simp only [decide_eq_true_eq] at small
    omega

/-- One parameter sets the limit, or leaves it. -/
theorem limit_applyParam (domain : Text) (search : RepoSearch) (param : Text × Text) :
    (applyParam domain search param).limit = (limitParam param).getD search.limit := by
  obtain ⟨key, value⟩ := param
  by_cases limit : key = "n" ∨ key = "limit"
  · rw [limitParam, if_pos limit]
    rcases limit with rfl | rfl
    · rfl
    · rfl
  · rw [limitParam, if_neg limit]
    simp only [applyParam, if_neg limit, apply_ite RepoSearch.limit, ite_self, Option.getD_none]

theorem page_applyParam (domain : Text) (search : RepoSearch) (param : Text × Text)
    (small : search.page ≤ 65535) : (applyParam domain search param).page ≤ 65535 := by
  obtain ⟨key, value⟩ := param
  by_cases page : key = "page"
  · subst page
    change (uint16 value).getD search.page ≤ 65535
    cases read : uint16 value with
    | none => exact small
    | some n => exact uint16_le read
  · have same : (applyParam domain search (key, value)).page = search.page := by
      simp only [applyParam, if_neg page, apply_ite RepoSearch.page, ite_self]
    exact same.trans_le small

/-- The limit is the last one that is read. -/
theorem limit_searchOf (domain path : Text) : (searchOf domain path).limit =
    (((queryParts path).filterMap limitParam).getLast?).getD 20 := by
  have fold : ∀ (params : List (Text × Text)) (search : RepoSearch),
      (params.foldl (applyParam domain) search).limit =
        ((params.filterMap limitParam).getLast?).getD search.limit := by
    intro params
    induction params with
    | nil => exact fun search => rfl
    | cons param params ih =>
      intro search
      rw [List.foldl_cons, ih, limit_applyParam, List.filterMap_cons]
      cases limitParam param with
      | none => rfl
      | some n =>
        rw [List.getLast?_cons]
        cases (params.filterMap limitParam).getLast? with
        | none => rfl
        | some m => rfl
  rw [searchOf_eq, fold]

theorem page_searchOf (domain path : Text) : (searchOf domain path).page ≤ 65535 := by
  have fold : ∀ (params : List (Text × Text)) (search : RepoSearch), search.page ≤ 65535 →
      (params.foldl (applyParam domain) search).page ≤ 65535 := by
    intro params
    induction params with
    | nil => exact fun search small => small
    | cons param params ih =>
      exact fun search small => ih _ (page_applyParam domain search param small)
  rw [searchOf_eq]
  exact fold _ _ (by decide)

/-! ## Bounds -/

/-- The search stays below the limit on results, and its pages are those of the order. -/
structure Paged (search : RepoSearch) : Prop where
  limit : search.limit ≤ maxResults
  results : ∀ (host : GitPages.GitHost) (t : Tables) (user inst : Text) (rows : List (List Cell)),
    t.search host search user inst = .ok rows → rows.length ≤ search.limit
  offset : search.offset = (search.page * search.limit : Nat)
  pages : ∀ {α : Type} (rows : List α) (count : Nat), count ≤ 65536 →
    (List.range count).flatMap (fun k => pageRows { search with page := k } rows) =
      rows.take (count * search.limit)

theorem length_search {host : GitPages.GitHost} {t : Tables} {search : RepoSearch}
    {user inst : Text} {rows : List (List Cell)}
    (found : t.search host search user inst = .ok rows) : rows.length ≤ search.limit := by
  obtain ⟨sorted, -, rfl⟩ := search_rows found
  rw [List.length_map]
  exact List.length_take_le _ _

/-- A query string is paged if and only if the last limit that is read in it is small enough. -/
theorem paged_iff (domain path : Text) : Paged (searchOf domain path) ↔
    ∀ n ∈ ((queryParts path).filterMap limitParam).getLast?, n ≤ maxResults := by
  have limit := limit_searchOf domain path
  constructor
  · intro paged n last
    have small := paged.limit
    rw [limit, last] at small
    exact small
  · intro small
    have bounded : (searchOf domain path).limit ≤ maxResults := by
      rw [limit]
      cases last : ((queryParts path).filterMap limitParam).getLast? with
      | none => exact Nat.le_of_ble_eq_true rfl
      | some n => exact small n last
    have product : ∀ k ≤ 65535, k * (searchOf domain path).limit ≤ 2147483647 := fun k less =>
      (Nat.mul_le_mul less bounded).trans (Nat.le_of_ble_eq_true rfl)
    exact ⟨bounded, fun host t user inst rows found => length_search found,
      RepoSearch.offset_eq_iff.mpr (product _ (page_searchOf domain path)),
      fun rows count few => pages_take _ rows count fun k less => product k (by omega)⟩

/-- The greatest limit and page that are read. -/
theorem greatest_page :
    ¬ Paged (searchOf "a.b" "?limit=65535&page=65535") ∧
      (searchOf "a.b" "?limit=65535&page=65535").limit = 65535 ∧
      (searchOf "a.b" "?limit=65535&page=65535").offset = -131071 := by
  have limit : (searchOf "a.b" "?limit=65535&page=65535").limit = 65535 := by decide
  refine ⟨fun paged => ?_, limit, by decide⟩
  have small := paged.limit
  rw [limit] at small
  exact absurd small (by decide)

end SearchPages
