import Fiy.RowTables
import Fiy.GitAccess
import Fiy.GitRouter

/-!
# What a search shows of the repositories a requester may read

The statement of the search has an access rule of its own, which is left out for some
filters, and filters that are not quite what they are called. So rows are selected that the
requester may not read, and rows are left out that he may.
-/

namespace SearchVisibility

open ByteStrings ModLibrary GitRepos GitPages GitSearch GitAccess

/-! ## Selections -/

section rows
variable (host : GitHost) (t : Tables) (search : RepoSearch)

/-- The rows of a search that is not cut off, in some order. -/
theorem search_perm {user inst : Text} {rows : List (List Cell)} (whole : search.page = 0)
    (enough : t.repos.length ≤ search.limit) (found : t.search host search user inst = .ok rows) :
    rows.Perm ((t.repos.filter fun e =>
      t.selects host search (Tables.searcher host.domain user inst) e.2).map fun e =>
        search.fieldsOrDefault.map (t.column e.1 e.2)) := by
  obtain ⟨sorted, kept, rfl⟩ := search_rows found
  have length := kept.length_eq.trans_le (List.length_filter_le _ t.repos)
  rw [RepoSearch.offset_first whole, Int.toNat_zero, List.drop_zero,
    List.take_of_length_le (length.trans enough)]
  exact kept.map _

/-! ## What is wanted -/

/-- A user of this instance has no domain, and an anonymous requester no name. -/
def requester (user : Text) : Option Text := if user = [] then none else some user

def requesterDomain (inst : Text) : Option Text :=
  if inst = [] ∨ inst = host.domain then none else some inst

def repoOf (row : RepoRow) : BasicRepo := { owner := row.userName, name := row.repoName }

/-- The filters that the statement applies as they are meant. -/
def passes (row : RepoRow) : Bool :=
  (search.owner = [] || row.userName = search.owner) &&
  (match search.visibility with
    | none => true
    | some visibility => decide (row.visibility = visibility)) &&
  (search.nameLike = [] || host.like row.repoName search.nameLike) &&
  (search.descriptionLike = [] || row.description.any (host.like · search.descriptionLike)) &&
  (search.query = [] || host.like row.repoName search.query ||
    row.description.any (host.like · search.query))

/-- The repository is a fork. -/
def isFork (row : RepoRow) : Bool := t.forks.any fun fork => fork.toRepoPath = row.path

/-- What the statement takes for one: the path of the fork is compared with its name. -/
def isForkByName (row : RepoRow) : Bool :=
  t.forks.any fun fork => fork.toRepoPath = row.repoName && fork.user = row.userName

def forksPass (filter : BooleanFilter) (fork : Bool) : Bool :=
  match filter with
  | .any => true
  | .yes => fork
  | .no => !fork

/-- The repository satisfies the filters, and `LocalRepo::can_access` lets the requester
read it. -/
def wanted (b : Backend) (user inst : Text) (e : Int × RepoRow) : Bool :=
  passes host search e.2 && decide (search.minLikes ≤ t.likesOf e.2.path) &&
    forksPass search.forks (isFork t e.2) &&
    decide (canAccess (reading t b) (loaded t (repoOf e.2) e) .read (requester user)
      (requesterDomain host inst) = .ok true)

/-! ## What is selected instead -/

/-- The repository can be read: by its visibility, by its owner, or by a grant. -/
def Readable (row : RepoRow) (user domain : Option Text) : Prop :=
  getInt row.visibility = 3 ∨ (getInt row.visibility = 2 ∧ user ≠ none) ∨
    (getInt row.visibility = 1 ∧ user ≠ none ∧ domain = none) ∨
    (getInt row.visibility = 0 ∧ ((domain = none ∧ user = some row.userName) ∨
      Granted t row.path (userStr user domain) .read))

/-- The repository is listed: the filter asks for anything but private repositories, or the
visibility is above a bound, or there is a grant for one of this name that belongs to the
requester himself. -/
def Listed (row : RepoRow) (user domain : Option Text) : Prop :=
  (search.visibility ≠ none ∧ search.visibility ≠ some 0) ∨
  (user = none ∧ 3 ≤ row.visibility) ∨
  (user ≠ none ∧ ((if domain = none then 1 else 2) < row.visibility ∨
    ∃ grant ∈ t.access, grant.userName = userStr user domain ∧ 0 < grant.level ∧
      grant.repoPath = userStr user domain ++ lit "/" ++ row.repoName))

/-- A repository the requester may read is not listed, has no more likes than are asked for,
or is taken for a fork or for none. -/
def LeftOut (row : RepoRow) (user domain : Option Text) : Prop :=
  (Readable t row user domain ∧ search.minLikes ≤ t.likesOf row.path ∧
    forksPass search.forks (isFork t row) = true) ∧
  (¬ Listed t search row user domain ∨
    (0 < search.minLikes ∧ search.minLikes = t.likesOf row.path) ∨
    forksPass search.forks (isForkByName t row) = false)

/-- A repository is listed that the requester may not read, or that is taken for a fork or for
none. -/
def Added (row : RepoRow) (user domain : Option Text) : Prop :=
  (Listed t search row user domain ∧
    (search.minLikes ≤ 0 ∨ search.minLikes < t.likesOf row.path) ∧
    forksPass search.forks (isForkByName t row) = true) ∧
  (¬ Readable t row user domain ∨ forksPass search.forks (isFork t row) = false)

/-! ## The two rules -/

variable {user inst : Text}

theorem canAccess_iff_readable (b : Backend) (e : Int × RepoRow) (user domain : Option Text) :
    canAccess (reading t b) (loaded t (repoOf e.2) e) .read user domain = .ok true ↔
      Readable t e.2 user domain := by
  have path : (loaded t (repoOf e.2) e).path = e.2.path := BasicRepo.IsLocal.path rfl
  have owned : (loaded t (repoOf e.2) e).OwnedBy user domain ↔
      domain = none ∧ user = some e.2.userName := Iff.rfl
  have visibility : (loaded t (repoOf e.2) e).visibility = getInt e.2.visibility := rfl
  have here : (loaded t (repoOf e.2) e).IsLocal := rfl
  rw [canAccess_read t b here (by decide), Except.ok.injEq, path]
  simp only [visibilityRead, visibility, owned, Readable]
  generalize getInt e.2.visibility = v
  by_cases open' : v = 3
  · simp [open']
  by_cases fediverse : v = 2
  · simp [fediverse, Option.isSome_iff_ne_none]
  by_cases instance' : v = 1
  · simp [instance', Option.isSome_iff_ne_none]
  by_cases closed : v = 0
  · by_cases own : domain = none ∧ user = some e.2.userName <;> simp [closed, own]
  · simp [open', fediverse, instance', closed]

theorem accessCondition_some_iff (name : Text) (bound : Int) (row : RepoRow) :
    t.accessCondition (some (name, bound)) row = true ↔
      bound < row.visibility ∨ ∃ grant ∈ t.access, grant.userName = name ∧ 0 < grant.level ∧
        grant.repoPath = name ++ lit "/" ++ row.repoName := by
  simp only [Tables.accessCondition, Bool.or_eq_true, decide_eq_true_eq, List.any_eq_true]
  refine or_congr_right (exists_congr fun grant => and_congr_right fun _ => ?_)
  constructor
  · rintro ⟨rfl, level, path⟩
    exact ⟨rfl, level, path⟩
  · rintro ⟨rfl, level, path⟩
    exact ⟨rfl, level, path⟩

/-- The requester as the statement knows him. -/
theorem searcher_eq (user inst : Text) :
    Tables.searcher host.domain user inst =
      if requester user = none then none
      else some (userStr (requester user) (requesterDomain host inst),
        if requesterDomain host inst = none then 1 else 2) := by
  by_cases anonymous : user = []
  · simp [Tables.searcher, requester, anonymous]
  · by_cases here : inst = [] ∨ inst = host.domain
    · simp [Tables.searcher, requester, requesterDomain, anonymous, here, userStr]
    · simp [Tables.searcher, requester, requesterDomain, anonymous, here, userStr]

theorem listed_iff (user inst : Text) (row : RepoRow) :
    (match search.visibility with
      | none | some 0 => t.accessCondition (Tables.searcher host.domain user inst) row
      | some _ => true) = true ↔
      Listed t search row (requester user) (requesterDomain host inst) := by
  have rule : t.accessCondition (Tables.searcher host.domain user inst) row = true ↔
      (requester user = none ∧ 3 ≤ row.visibility) ∨
      (requester user ≠ none ∧
        ((if requesterDomain host inst = none then 1 else 2) < row.visibility ∨
        ∃ grant ∈ t.access, grant.userName = userStr (requester user) (requesterDomain host inst) ∧
          0 < grant.level ∧ grant.repoPath =
            userStr (requester user) (requesterDomain host inst) ++ lit "/" ++ row.repoName)) := by
    rw [searcher_eq]
    by_cases anonymous : requester user = none
    · rw [if_pos anonymous]
      simp [Tables.accessCondition, anonymous]
    · rw [if_neg anonymous, accessCondition_some_iff]
      simp only [anonymous, false_and, false_or, ne_eq, not_false_eq_true, true_and]
  unfold Listed
  rcases search.visibility with _ | _ | v
  · simp only [rule, ne_eq, not_true_eq_false, false_and, false_or]
  · simp only [rule, ne_eq, not_true_eq_false, and_false, false_or]
  · simp

theorem selects_iff (row : RepoRow) :
    t.selects host search (Tables.searcher host.domain user inst) row = true ↔
      passes host search row = true ∧
      Listed t search row (requester user) (requesterDomain host inst) ∧
      (search.minLikes ≤ 0 ∨ search.minLikes < t.likesOf row.path) ∧
      forksPass search.forks (isForkByName t row) = true := by
  rw [← listed_iff]
  simp only [Tables.selects, passes, Bool.and_eq_true, forksPass, isForkByName]
  have likes : (decide (search.minLikes ≤ 0) ||
      decide (search.minLikes < t.likesOf row.path)) = true ↔
      search.minLikes ≤ 0 ∨ search.minLikes < t.likesOf row.path := by
    simp only [Bool.or_eq_true, decide_eq_true_eq]
  rw [likes]
  have forks : ∀ filter : BooleanFilter, (match filter with
      | .any => true
      | .yes => t.forks.any fun fork =>
        decide (fork.toRepoPath = row.repoName) && decide (fork.user = row.userName)
      | .no => !t.forks.any fun fork =>
        decide (fork.toRepoPath = row.repoName) && decide (fork.user = row.userName)) =
      forksPass filter (isForkByName t row) := fun filter => by cases filter <;> rfl
  rw [forks]
  tauto

theorem wanted_iff (b : Backend) (user inst : Text) (e : Int × RepoRow) :
    wanted host t search b user inst e = true ↔
      passes host search e.2 = true ∧
      Readable t e.2 (requester user) (requesterDomain host inst) ∧
      search.minLikes ≤ t.likesOf e.2.path ∧
      forksPass search.forks (isFork t e.2) = true := by
  simp only [wanted, Bool.and_eq_true, decide_eq_true_eq, canAccess_iff_readable]
  tauto

/-- Two conjunctions agree when neither holds without the other. -/
theorem and_iff_and_iff {kept shown due : Prop} :
    (kept ∧ shown ↔ kept ∧ due) ↔ (kept → ¬ (due ∧ ¬ shown) ∧ ¬ (shown ∧ ¬ due)) := by
  tauto

end rows

/-- Alice has a private repository, and one for the users of all instances. -/
def alicesRepos : Tables where
  repos := [(3, ⟨"alice", "r", none, 0, 5, 5⟩), (4, ⟨"alice", "s", none, 2, 5, 5⟩)]
  forks := []
  access := []
  likes := []
  tickets := []

end SearchVisibility
