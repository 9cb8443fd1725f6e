import Fiy.PageRoutes
import Fiy.PathWalks
import Fiy.RepoCreation
import Fiy.UriComponents
import Mathlib.Data.Set.Insert

/-!
# Where repositories are created

The name of a new repository is taken from the form as it is. It becomes the end of a path,
which the system reads segment by segment up to a zero byte, and the end of an address, which
`from_path` reads.
-/

namespace CreatedPlaces

open ByteStrings WebText UriComponents PathWalks ModConnectors ModLibrary GitRepos GitPages
  GitRouter LocalAccounts RepoAddresses RepoCreation PageRoutes

/-! ## Directories on a disk -/

/-- The directories and the other files that are there, by their places. There are no links. -/
structure Disk where
  /-- the working directory -/
  here : List Text
  dirs : List (List Text)
  files : List (List Text)
  /-- no directory can be made there: no room, no permission, or the name is too long -/
  refuses : List Text → Bool

/-- The segments of a path as a system call gets it, without the slashes at its end. -/
def segments (path : Text) : List Text := ((cstr path).rdropWhile (· = 47)).splitOn 47

/-- The last segment designates a directory that is there. -/
def EndsInDots (path : Text) : Prop := (segments path).getLast? ∈ [some [], some ".", some ".."]

instance (path : Text) : Decidable (EndsInDots path) := inferInstanceAs (Decidable (_ ∈ _))

namespace Disk
variable (disk : Disk)

def place (path : Text) : List Text := resolve disk.here (cstr path)

/-- There is a directory wherever these moves lead to on their way. -/
def Through (start : List Text) (way : List (Move Text)) : Prop :=
  ∀ before ∈ way.inits, walk start before ∈ disk.dirs

instance (start : List Text) (way : List (Move Text)) : Decidable (disk.Through start way) :=
  inferInstanceAs (Decidable (∀ before ∈ way.inits, _))

def start (path : Text) : List Text := if path.head? = some 47 then [] else disk.here

/-- There are directories on the way to the last segment. -/
def Reaches (path : Text) : Prop :=
  cstr path ≠ [] ∧
    disk.Through (disk.start (cstr path)) ((segments path).dropLast.map segmentMove)

instance (path : Text) : Decidable (disk.Reaches path) := inferInstanceAs (Decidable (_ ∧ _))

/-- `std::filesystem::is_directory` -/
def IsDirectory (path : Text) : Prop := disk.Reaches path ∧ disk.place path ∈ disk.dirs

instance (path : Text) : Decidable (disk.IsDirectory path) := inferInstanceAs (Decidable (_ ∧ _))

/-- `std::filesystem::create_directory`, by way of `mkdir` -/
def createDirectory (path : Text) : Except Fault Bool × Disk :=
  if ¬ disk.Reaches path then (.error .filesystem, disk)
  else if disk.place path ∈ disk.dirs then (.ok false, disk)
  else if EndsInDots path ∨ disk.place path ∈ disk.files ∨ disk.refuses (disk.place path) then
    (.error .filesystem, disk)
  else (.ok true, { disk with dirs := disk.place path :: disk.dirs })

/-- The same, as a call of the creation. -/
def attempt (path : Text) : Attempt := match (disk.createDirectory path).1 with
  | .ok true => .done
  | .ok false => .refused
  | .error fault => .throws fault

end Disk

/-! ## Creations -/

/-- What a creation finds: the disk, the rows, and how its calls on the other stores end. -/
structure World where
  disk : Disk
  rows : List CreatedRow
  others : Calls

namespace World
variable (w : World) (host : GitHost) (form : CreateForm)

/-- The calls on the directories end as they do on the disk. -/
def calls (dataDir : Text) (repo : BasicRepo) : Calls :=
  { w.others with
    isDirectory := none
    userDirectory := w.disk.attempt (userReposDir dataDir repo)
    repoDirectory := (w.disk.createDirectory (userReposDir dataDir repo)).2.attempt
      (repoPath dataDir repo) }

/-- Of the directories only the one of the owner is asked for. -/
def stores (dataDir : Text) (repo : BasicRepo) : Stores where
  dirs := if w.disk.IsDirectory (userReposDir dataDir repo) then [userReposDir dataDir repo] else []
  rows := w.rows

/-- `LocalRepo::create` with the fields of a form. -/
def create : Except Fault (Option Text) × Stores :=
  RepoCreation.create (w.calls host.dataDir form.repo) host.dataDir host.now form.repo
    form.description form.visibility (w.stores host.dataDir form.repo)

/-- The backend of the handler in this world. -/
def backend (b : GitBackend) : GitBackend where
  toBackend := backendOf b.toBackend (w.calls host.dataDir form.repo) host.dataDir form.repo
    (w.stores host.dataDir form.repo)
  search := b.search

/-- The paths of the directories that were made. -/
def made : List Text :=
  (w.create host form).2.dirs.filter (· ∉ (w.stores host.dataDir form.repo).dirs)

end World

/-! ## Requests -/

section requests
variable (host : GitHost) (req : ModRequest)

/-- The form with which a request gets to `LocalRepo::create`. -/
def asked : Option CreateForm :=
  match req.user, req.domain, parseFormUrlEncoded req.body with
  | some user, none, some fields =>
    let form := fields.foldl (createField host) {}
    if form.repo.owner = user then some form else none
  | _, _, _ => none

/-- How the mod answers when the creation has ended. -/
def conclude (form : CreateForm) (ended : Except Fault (Option Text)) : Handled :=
  let done := if form.repo.inst = [] then []
    else [.requestMod form.repo.inst (.created form.repo form.repo.owner)]
  match ended with
  | .error fault => .error { fault, done }
  | .ok (some err) =>
    .ok (some (done ++ [.respond (createFailed host form.repo form.repo.owner err)]))
  | .ok none => .ok (some (done ++ [.respond (respond 200
      "Content-Type: text/html; charset=utf-8" (redirectPage host form.repo))]))

variable {host req}

/-- Without such a form nothing is asked of the stores. -/
theorem repoCreatePost_unasked (unasked : asked host req = none) (b b' : GitBackend) :
    repoCreatePost host b req = repoCreatePost host b' req := by
  unfold repoCreatePost
  unfold asked at unasked
  split
  · rfl
  · rfl
  next user given away =>
    rw [given, away] at unasked
    split
    · rfl
    next fields parsed =>
      simp only [parsed] at unasked
      split at unasked
      · cases unasked
      next other =>
        rw [createFrom, createFrom, if_pos other, if_pos other]

/-- For the owner a form is one creation, and its answer. -/
theorem createFrom_own {user : Text} {form : CreateForm} (own : form.repo.owner = user)
    (b : GitBackend) : createFrom host b user form =
      conclude host form (createRepo b.toBackend host.dataDir host.now form.repo
        form.description form.visibility) := by
  subst own
  cases made : createRepo b.toBackend host.dataDir host.now form.repo form.description
      form.visibility with
  | error fault =>
    rw [createFrom, if_neg (not_not.mpr rfl), made]
    rfl
  | ok err =>
    cases err with
    | none =>
      rw [createFrom, if_neg (not_not.mpr rfl), made]
      rfl
    | some err =>
      rw [createFrom, if_neg (not_not.mpr rfl), made]
      rfl

/-- The handler is the creation that its form asks for. -/
theorem repoCreatePost_asked {form : CreateForm} (found : asked host req = some form)
    (b : GitBackend) : repoCreatePost host b req =
      conclude host form (createRepo b.toBackend host.dataDir host.now form.repo
        form.description form.visibility) := by
  unfold asked at found
  split at found
  next user fields given away parsed =>
    simp only at found
    split at found
    next own =>
      cases found
      rw [repoCreatePost, given, away]
      simp only [parsed]
      exact createFrom_own own b
    · cases found
  · cases found

/-- A request in a world. -/
theorem repoCreatePost_world {form : CreateForm} (found : asked host req = some form)
    (b : GitBackend) (w : World) :
    repoCreatePost host (w.backend host form b) req =
      conclude host form (w.create host form).1 := by
  rw [repoCreatePost_asked found]
  exact congrArg (conclude host form) (create_result b.toBackend)

end requests

/-! ## Names and places -/

/-- The directory of the repositories. -/
def reposPlace (here : List Text) (dataDir : Text) : List Text :=
  resolve here (dataDir ++ lit "/repos")

/-- The directory that is made for a repository. -/
def placeOf (here : List Text) (dataDir : Text) (repo : BasicRepo) : List Text :=
  resolve here (cstr (repoPath dataDir repo))

/-- The directory is the place of one name in that of the owner, and the address of the
repository is read as the owner and the name. -/
structure Sound (domain dataDir : Text) (here : List Text) (owner name : Text) : Prop where
  inPlace : ∃ c, segmentMove c = .down c ∧ 47 ∉ c ∧
    placeOf here dataDir ⟨[], owner, name⟩ = c :: owner :: reposPlace here dataDir
  addressed : fromPath domain (owner ++ 47 :: name) = .ok (true, ⟨[], owner, name⟩)

/-- A name that is one segment, also where the system reads it, and comes back from an
address. -/
structure Fine (name : Text) : Prop where
  named : name ≠ []
  plain : Plain name
  bare : ¬ lit ".git" <:+ name
  down : cstr name ∉ [[], lit ".", lit ".."]

section places
variable {here : List Text} {domain dataDir owner name : Text}

theorem cstr_append {front : Text} (whole : 0 ∉ front) (rest : Text) :
    cstr (front ++ rest) = front ++ cstr rest := by
  refine List.takeWhile_append_of_pos fun b mem => decide_eq_true ?_
  rintro rfl
  exact whole mem

theorem cstr_front (t : Text) : cstr t <+: t := List.takeWhile_prefix _

theorem moves_flat {segment : Text} (flat : 47 ∉ segment) :
    moves segment = [segmentMove segment] := by
  rw [moves, List.splitOn_eq_singleton flat, List.map_singleton]

theorem resolve_below {dir : Text} (some_ : dir ≠ []) (rest : Text) :
    resolve here (dir ++ 47 :: rest) = walk (resolve here dir) (moves rest) := by
  rw [resolve, resolve, moves_slash, walk_append, List.head?_append_of_ne_nil dir some_]

theorem segmentMove_down {segment : Text} (down : segment ∉ [[], lit ".", lit ".."]) :
    segmentMove segment = .down segment := by
  simp only [List.mem_cons, List.not_mem_nil, or_false, not_or] at down
  rw [segmentMove, if_neg (not_or.mpr ⟨down.1, down.2.1⟩), if_neg down.2.2]

theorem not_mem_dots {segment : Text} (down : segmentMove segment = .down segment) :
    segment ∉ [[], lit ".", lit ".."] := by
  intro mem
  simp only [List.mem_cons, List.not_mem_nil, or_false] at mem
  rcases mem with rfl | rfl | rfl
  · exact absurd down (by decide)
  · exact absurd down (by decide)
  · exact absurd down (by decide)

theorem name_down (signup : usernameError owner = none) : segmentMove owner = .down owner := by
  refine segmentMove_down fun mem => ?_
  simp only [List.mem_cons, List.not_mem_nil, or_false] at mem
  rcases mem with rfl | rfl | rfl
  · exact absurd (name_sized signup).1 (by decide)
  · exact absurd signup (by decide)
  · exact absurd signup (by decide)

theorem name_whole (signup : usernameError owner = none) : 0 ∉ owner :=
  name_without signup (by decide)

theorem name_flat (signup : usernameError owner = none) : 47 ∉ owner :=
  fun mem => (name_plain signup 47 mem).1 rfl

theorem reposDir_whole (whole : 0 ∉ dataDir) : 0 ∉ dataDir ++ lit "/repos" := by
  rw [List.mem_append, not_or]
  exact ⟨whole, by decide⟩

theorem userReposDir_eq (dataDir : Text) (repo : BasicRepo) :
    userReposDir dataDir repo = dataDir ++ lit "/repos" ++ 47 :: repo.owner := by
  have slash : lit "/repos/" = lit "/repos" ++ [47] := by decide
  rw [userReposDir, slash, ← List.append_assoc, List.append_assoc _ [47], List.singleton_append]

theorem repoPath_eq (dataDir : Text) (repo : BasicRepo) :
    repoPath dataDir repo = userReposDir dataDir repo ++ 47 :: repo.name := by
  have slash : lit "/" = [47] := by decide
  rw [repoPath, slash, List.append_assoc, List.singleton_append]

theorem userReposDir_whole (whole : 0 ∉ dataDir) (signup : usernameError owner = none) :
    0 ∉ userReposDir dataDir ⟨[], owner, name⟩ := by
  rw [userReposDir_eq, List.mem_append, List.mem_cons, not_or, not_or]
  exact ⟨reposDir_whole whole, by decide, name_whole signup⟩

/-- The directory of the owner. -/
theorem resolve_userReposDir (signup : usernameError owner = none) :
    resolve here (userReposDir dataDir ⟨[], owner, name⟩) = owner :: reposPlace here dataDir := by
  have some_ : dataDir ++ lit "/repos" ≠ [] :=
    List.append_ne_nil_of_right_ne_nil _ (by decide)
  rw [userReposDir_eq, resolve_below some_, moves_flat (name_flat signup), name_down signup]
  rfl

/-- A repository is made where the name leads to from the directory of the owner. -/
theorem placeOf_eq (whole : 0 ∉ dataDir) (signup : usernameError owner = none) :
    placeOf here dataDir ⟨[], owner, name⟩ =
      walk (owner :: reposPlace here dataDir) (moves (cstr name)) := by
  have some_ : userReposDir dataDir ⟨[], owner, name⟩ ≠ [] := by
    rw [userReposDir_eq]
    exact List.append_ne_nil_of_right_ne_nil _ (List.cons_ne_nil _ _)
  have read : cstr (repoPath dataDir ⟨[], owner, name⟩) =
      userReposDir dataDir ⟨[], owner, name⟩ ++ 47 :: cstr name := by
    rw [repoPath_eq, cstr_append (userReposDir_whole whole signup)]
    exact congrArg _ (List.takeWhile_cons_of_pos (by decide))
  rw [placeOf, read, resolve_below some_, resolve_userReposDir signup]

theorem parseName_back {repo repo' : BasicRepo} {before : Nat} {rest : Text}
    (read : parseName repo before rest = .ok (true, repo')) :
    rest ≠ [] ∧ dropGit (component rest) = repo'.name := by
  by_cases more : rest = []
  · rw [parseName, if_pos more] at read
    cases read
  · refine ⟨more, ?_⟩
    by_cases short : before + (component rest).length < 4
    · have thrown : parseName repo before rest = .error .outOfRange := by
        rw [parseName, if_neg more]
        exact if_pos short
      rw [thrown] at read
      cases read
    · rw [parseName_eq more (Nat.not_lt.mp short)] at read
      simp only [Except.ok.injEq, Prod.mk.injEq] at read
      rw [← read.2]

/-- Nothing was taken from a name that is read as itself. -/
theorem component_of_back (back : dropGit (component name) = name) :
    component name = name ∧ ¬ lit ".git" <:+ name := by
  have kept := (dropGit_front (component name)).length_le
  rw [back] at kept
  have whole : component name = name := (List.takeWhile_prefix _).eq_of_length_le kept
  refine ⟨whole, fun git => ?_⟩
  have taken := congrArg List.length (dropGit_add name)
  rw [whole] at back
  rw [back, if_pos git, List.length_append] at taken
  have sized : (lit ".git").length = 4 := by decide
  omega

/-- The address of a repository is read back when the name has nothing that separates parts. -/
theorem addressed_iff (signup : usernameError owner = none) :
    fromPath domain (owner ++ 47 :: name) = .ok (true, ⟨[], owner, name⟩) ↔
      name ≠ [] ∧ Plain name ∧ ¬ lit ".git" <:+ name := by
  have sized := (name_sized signup).1
  have user : owner ≠ [] := fun empty => absurd (empty ▸ sized) (by decide)
  have flat : 47 ∉ owner := name_flat signup
  obtain ⟨first, others, start⟩ := List.exists_cons_of_ne_nil user
  have letter := name_plain signup first (start ▸ List.mem_cons_self)
  have here_ : address (owner ++ 47 :: name) = owner ++ 47 :: name := by
    refine address_append 0 false ?_ ?_
    · rw [start]
      exact fun same => letter.1 (Option.some.inj same)
    · rw [start]
      exact fun same => letter.2.1 (Option.some.inj same)
  constructor
  · intro read
    have slashes : ¬ (3 ≤ (owner ++ 47 :: name).length ∧ ∀ b ∈ owner ++ 47 :: name, b = 47) :=
      fun all => letter.1 (all.2 first (by simp [start]))
    have long : 3 ≤ (owner ++ 47 :: name).length := by
      rw [List.length_append, List.length_cons]
      omega
    rw [fromPath_eq, if_neg slashes, here_, parseOwner_cut long (cut_append flat name)] at read
    have absent : 64 ∉ owner := fun mem => (name_plain signup 64 mem).2.1 rfl
    by_cases at_ : 64 ∈ owner ∨ 64 ∉ name
    · rw [if_pos at_] at read
      obtain ⟨named, back⟩ := parseName_back read
      obtain ⟨whole, bare⟩ := component_of_back back
      refine ⟨named, fun b mem => ?_, bare⟩
      rw [← whole] at mem
      refine ⟨(not_mem_component mem).1, ?_, (not_mem_component mem).2⟩
      rintro rfl
      rw [whole] at mem
      exact at_.elim absent fun other => other mem
    · rw [if_neg at_] at read
      cases read
  · rintro ⟨named, plain, bare⟩
    let f : Form := {
      slashes := 0, escaped := false, user := owner, inst := none, repo := name, git := false
      rest := []
      user_ne := user
      user_plain := name_plain signup
      inst_plain := fun inst none_ => absurd none_ (Option.not_mem_none inst)
      repo_ne := named
      repo_plain := plain
      repo_bare := fun _ => bare
      rest_starts := .inl rfl }
    have owner_ : f.owner = owner := List.append_nil owner
    have named_ : f.named = name := List.append_nil name
    have text : f.text = owner ++ 47 :: name := by
      rw [Form.text, owner_, named_, List.append_nil]
      rfl
    have some_ : 1 ≤ name.length := List.length_pos_iff.mpr named
    rw [← text, fromPath_form domain f (by rw [owner_, named_]; omega) (.inr List.not_mem_nil)]
    rfl

/-- The place of a fine name. -/
theorem placeOf_flat (whole : 0 ∉ dataDir) (signup : usernameError owner = none)
    (flat : 47 ∉ name) : placeOf here dataDir ⟨[], owner, name⟩ =
      move (owner :: reposPlace here dataDir) (segmentMove (cstr name)) := by
  have flat' : 47 ∉ cstr name := fun mem => flat ((cstr_front name).subset mem)
  rw [placeOf_eq whole signup, moves_flat flat']
  rfl

theorem Fine.flat (fine : Fine name) : 47 ∉ name := fun mem => (fine.plain 47 mem).1 rfl

theorem Fine.placeOf (fine : Fine name) (whole : 0 ∉ dataDir)
    (signup : usernameError owner = none) : placeOf here dataDir ⟨[], owner, name⟩ =
      cstr name :: owner :: reposPlace here dataDir := by
  rw [placeOf_flat whole signup fine.flat, segmentMove_down fine.down]
  rfl

theorem sound_iff_fine (whole : 0 ∉ dataDir) (signup : usernameError owner = none) :
    Sound domain dataDir here owner name ↔ Fine name := by
  constructor
  · intro sound
    obtain ⟨named, plain, bare⟩ := (addressed_iff signup).mp sound.addressed
    refine ⟨named, plain, bare, fun dots => ?_⟩
    obtain ⟨c, -, -, there⟩ := sound.inPlace
    have flat : 47 ∉ name := fun mem => (plain 47 mem).1 rfl
    rw [placeOf_flat whole signup flat] at there
    -- the move is none that goes down
    have sized := congrArg List.length there
    simp only [List.mem_cons, List.not_mem_nil, or_false] at dots
    rcases dots with empty | dot | dots
    · rw [empty, show segmentMove [] = .stay from rfl] at sized
      simp [move] at sized
    · rw [dot, show segmentMove (lit ".") = .stay from by decide] at sized
      simp [move] at sized
    · rw [dots, show segmentMove (lit "..") = .up from by decide] at sized
      simp only [move, List.length_tail, List.length_cons] at sized
      omega
  · intro fine
    refine ⟨⟨cstr name, segmentMove_down fine.down, ?_, fine.placeOf whole signup⟩,
      (addressed_iff signup).mpr ⟨fine.named, fine.plain, fine.bare⟩⟩
    exact fun mem => fine.flat ((cstr_front name).subset mem)

end places

/-! ## Requests for a name -/

section bodies
variable {key value : Text}

theorem parsePair_last (named : key ≠ []) (some_ : value ≠ []) :
    parsePair (uriEncode key ++ 61 :: uriEncode value) = some ((key, value), []) := by
  have equals : (61 : Byte) ∉ uriEncode key := notMem_uriEncode (by decide) key
  have ampersand : (38 : Byte) ∉ uriEncode value := notMem_uriEncode (by decide) value
  rw [parsePair, cut_append equals]
  simp only [cut_eq_none_iff.mpr ampersand, Option.getD_none, uriDecode_uriEncode]
  exact if_neg (not_or.mpr ⟨named, some_⟩)

theorem parsePair_more (named : key ≠ []) (some_ : value ≠ []) (rest : Text) :
    parsePair (uriEncode key ++ 61 :: (uriEncode value ++ 38 :: rest)) =
      some ((key, value), rest) := by
  have equals : (61 : Byte) ∉ uriEncode key := notMem_uriEncode (by decide) key
  have ampersand : (38 : Byte) ∉ uriEncode value := notMem_uriEncode (by decide) value
  rw [parsePair, cut_append equals]
  simp only [cut_append ampersand, Option.getD_some, uriDecode_uriEncode]
  exact if_neg (not_or.mpr ⟨named, some_⟩)

/-- A body with the two fields; an empty name is left out. -/
def formBody (owner name : Text) : Text :=
  uriEncode "repo-owner" ++ 61 :: (uriEncode owner ++
    if name = [] then [] else 38 :: (uriEncode "repo-name" ++ 61 :: uriEncode name))

theorem parse_formBody {owner : Text} (user : owner ≠ []) (name : Text) :
    parseFormUrlEncoded (formBody owner name) = some
      ((lit "repo-owner", owner) :: if name = [] then [] else [(lit "repo-name", name)]) := by
  rw [parseFormUrlEncoded_eq, formBody]
  by_cases empty : name = []
  · rw [if_pos empty, if_pos empty, List.append_nil, parsePair_last (by decide) user]
    rfl
  · have more : uriEncode (lit "repo-name") ++ 61 :: uriEncode name ≠ [] :=
      List.append_ne_nil_of_right_ne_nil _ (List.cons_ne_nil _ _)
    rw [if_neg empty, if_neg empty, parsePair_more (by decide) user]
    simp only [if_neg more]
    rw [parseFormUrlEncoded_eq, parsePair_last (by decide) empty]
    rfl

/-- The request of a user for a repository. -/
def post (owner name : Text) : ModRequest where
  method := .post
  path := "/repo/new"
  body := formBody owner name
  domain := none
  user := some owner
  headers := none

/-- Every name can be asked for. -/
theorem asked_post (host : GitHost) {owner : Text} (signup : usernameError owner = none)
    (name : Text) : asked host (post owner name) = some { repo := ⟨[], owner, name⟩ } := by
  have user : owner ≠ [] := fun empty => absurd (empty ▸ (name_sized signup).1) (by decide)
  have absent : 64 ∉ owner := fun mem => (name_plain signup 64 mem).2.1 rfl
  have set_ : setOwner host {} owner = ⟨[], owner, []⟩ := by
    have kept : owner.dropWhile (fun b => decide (b = 64)) = owner := by
      obtain ⟨first, others, rfl⟩ := List.exists_cons_of_ne_nil user
      refine List.dropWhile_cons_of_neg fun same => absent ?_
      rw [of_decide_eq_true same]
      exact List.mem_cons_self
    rw [setOwner]
    simp only [kept, cut_eq_none_iff.mpr (fun mem => absent (List.mem_reverse.mp mem))]
  have first : createField host {} (lit "repo-owner", owner) = { repo := ⟨[], owner, []⟩ } := by
    rw [createField, if_pos rfl, set_]
  have second : createField host { repo := ⟨[], owner, []⟩ } (lit "repo-name", name) =
      { repo := ⟨[], owner, name⟩ } := by
    rw [createField, if_neg (by decide), if_pos rfl]
  have fold : ((lit "repo-owner", owner) ::
      if name = [] then [] else [(lit "repo-name", name)]).foldl (createField host) {} =
        { repo := ⟨[], owner, name⟩ } := by
    by_cases empty : name = []
    · rw [if_pos empty, List.foldl_cons, first, empty]
      rfl
    · rw [if_neg empty, List.foldl_cons, first, List.foldl_cons, second]
      rfl
  simp only [asked, post, parse_formBody user, fold, if_true]

end bodies

/-! ## Directories that are made -/

section making
variable {disk : Disk} {dir name : Text}

theorem cstr_below (whole : 0 ∉ dir) (name : Text) :
    cstr (dir ++ 47 :: name) = dir ++ 47 :: cstr name := by
  rw [cstr_append whole]
  exact congrArg _ (List.takeWhile_cons_of_pos (by decide))

theorem segments_below (whole : 0 ∉ dir) (some_ : cstr name ≠ []) (flat : 47 ∉ cstr name) :
    segments (dir ++ 47 :: name) = dir.splitOn 47 ++ [cstr name] := by
  have kept : (dir ++ 47 :: cstr name).rdropWhile (fun b => decide (b = 47)) =
      dir ++ 47 :: cstr name := by
    rw [List.rdropWhile_eq_self_iff]
    intro full same
    have last : (dir ++ 47 :: cstr name).getLast full ∈ cstr name := by
      simp only [List.getLast_append_of_ne_nil _ (List.cons_ne_nil _ _), List.getLast_cons some_]
      exact List.getLast_mem some_
    rw [of_decide_eq_true same] at last
    exact flat last
  rw [segments, cstr_below whole, kept, List.splitOn_append_cons_self,
    List.splitOn_eq_singleton flat]

theorem dropLast_segments (whole : 0 ∉ dir) (some_ : cstr name ≠ []) (flat : 47 ∉ cstr name) :
    (segments (dir ++ 47 :: name)).dropLast.map segmentMove = moves dir := by
  rw [segments_below whole some_ flat, List.dropLast_concat]
  rfl

theorem reaches_below (whole : 0 ∉ dir) (dir_ : dir ≠ []) (some_ : cstr name ≠ [])
    (flat : 47 ∉ cstr name) :
    disk.Reaches (dir ++ 47 :: name) ↔ disk.Through (disk.start dir) (moves dir) := by
  have start : disk.start (cstr (dir ++ 47 :: name)) = disk.start dir := by
    rw [cstr_below whole, Disk.start, Disk.start, List.head?_append_of_ne_nil dir dir_]
  have full : cstr (dir ++ 47 :: name) ≠ [] := by
    rw [cstr_below whole]
    exact List.append_ne_nil_of_left_ne_nil dir_ _
  rw [Disk.Reaches, start, dropLast_segments whole some_ flat]
  exact and_iff_right full

theorem place_below (whole : 0 ∉ dir) (dir_ : dir ≠ []) (flat : 47 ∉ cstr name)
    (down : segmentMove (cstr name) = .down (cstr name)) :
    disk.place (dir ++ 47 :: name) = cstr name :: resolve disk.here dir := by
  rw [Disk.place, cstr_below whole, resolve_below dir_, moves_flat flat, down]
  rfl

/-- One name in a directory that can be reached is made. -/
theorem attempt_below (whole : 0 ∉ dir) (dir_ : dir ≠ []) (flat : 47 ∉ cstr name)
    (down : segmentMove (cstr name) = .down (cstr name))
    (through : disk.Through (disk.start dir) (moves dir))
    (fresh : cstr name :: resolve disk.here dir ∉ disk.dirs)
    (free : cstr name :: resolve disk.here dir ∉ disk.files)
    (grants : disk.refuses (cstr name :: resolve disk.here dir) = false) :
    disk.attempt (dir ++ 47 :: name) = .done := by
  have dots := not_mem_dots down
  have some_ : cstr name ≠ [] := fun empty => dots (empty ▸ List.mem_cons_self)
  have reaches : disk.Reaches (dir ++ 47 :: name) :=
    (reaches_below whole dir_ some_ flat).mpr through
  have ends : ¬ EndsInDots (dir ++ 47 :: name) := by
    rw [EndsInDots, segments_below whole some_ flat, List.getLast?_concat]
    intro mem
    refine dots ?_
    simpa using mem
  have place : disk.place (dir ++ 47 :: name) = cstr name :: resolve disk.here dir :=
    place_below whole dir_ flat down
  have refused : ¬ (EndsInDots (dir ++ 47 :: name) ∨
      disk.place (dir ++ 47 :: name) ∈ disk.files ∨
        disk.refuses (disk.place (dir ++ 47 :: name)) = true) := by
    rw [place, grants]
    simp [ends, free]
  rw [Disk.attempt, Disk.createDirectory, if_neg (not_not.mpr reaches),
    if_neg (place ▸ fresh), if_neg refused]

theorem through_concat {start : List Text} {way : List (Move Text)} {m : Move Text} :
    disk.Through start (way ++ [m]) ↔
      disk.Through start way ∧ walk start (way ++ [m]) ∈ disk.dirs := by
  simp only [Disk.Through, List.mem_inits, List.prefix_concat_iff]
  constructor
  · intro all
    exact ⟨fun before front => all before (.inr front), all _ (.inl rfl)⟩
  · rintro ⟨front, last⟩ before (rfl | start)
    · exact last
    · exact front before start

end making

section stores
variable {w : World} {dataDir : Text} {repo : BasicRepo}

theorem stores_old (there : w.disk.IsDirectory (userReposDir dataDir repo)) :
    w.stores dataDir repo = ⟨[userReposDir dataDir repo], w.rows⟩ := by
  rw [World.stores, if_pos there]

theorem stores_new (absent : ¬ w.disk.IsDirectory (userReposDir dataDir repo)) :
    w.stores dataDir repo = ⟨[], w.rows⟩ := by
  rw [World.stores, if_neg absent]

section calls
variable {host : GitHost} {form : CreateForm} (here : form.repo.IsLocal)
  (checked : w.others.exists_ = none)
  (rowless : ¬ (w.stores host.dataDir form.repo).HasRow form.repo.owner form.repo.name)
include here checked rowless

/-- Without the directory of the owner a creation makes it first. -/
theorem made_of_owner (absent : ¬ w.disk.IsDirectory (userReposDir host.dataDir form.repo))
    (directory : w.disk.attempt (userReposDir host.dataDir form.repo) = .done) :
    userReposDir host.dataDir form.repo ∈ w.made host form := by
  have called : (w.calls host.dataDir form.repo).userDirectory = .done := directory
  have fresh : userReposDir host.dataDir form.repo ∉ (w.stores host.dataDir form.repo).dirs := by
    rw [stores_new absent]
    exact List.not_mem_nil
  have made : userReposDir host.dataDir form.repo ∈ (w.create host form).2.dirs :=
    create_userDir here checked rowless rfl (.inr called)
  exact List.mem_filter.mpr ⟨made, decide_eq_true fresh⟩

/-- In the directory of the owner a creation makes what the disk lets it make. -/
theorem made_of_repo (there : w.disk.IsDirectory (userReposDir host.dataDir form.repo))
    (directory : w.disk.attempt (repoPath host.dataDir form.repo) = .done) :
    repoPath host.dataDir form.repo ∈ w.made host form := by
  have same : (w.disk.createDirectory (userReposDir host.dataDir form.repo)).2 = w.disk := by
    rw [Disk.createDirectory, if_neg (not_not.mpr there.1), if_pos there.2]
  have called : (w.calls host.dataDir form.repo).repoDirectory = .done := by
    rw [World.calls, same, directory]
  have fresh : repoPath host.dataDir form.repo ∉ (w.stores host.dataDir form.repo).dirs := by
    rw [stores_old there]
    exact fun mem => repoPath_ne (List.mem_singleton.mp mem)
  have old : userReposDir host.dataDir form.repo ∈ (w.stores host.dataDir form.repo).dirs := by
    rw [stores_old there]
    exact List.mem_cons_self
  have made : Made (w.calls host.dataDir form.repo) host.dataDir form.repo
      (w.stores host.dataDir form.repo) :=
    ⟨here, checked, rowless, rfl, .inl old, fresh, called⟩
  exact List.mem_filter.mpr ⟨(create_made made).dirs, decide_eq_true fresh⟩

end calls

end stores

/-! ### On a disk with the data directory -/

def demoRepos : List Text := ["repos", "data"]

/-- There is the directory of the repositories, and more. -/
def dataDisk (more : List (List Text)) : Disk where
  here := []
  dirs := more ++ [demoRepos, [lit "data"], []]
  files := []
  refuses := fun _ => false

/-- Nothing fails but for the directories. -/
def worldOf (disk : Disk) : World := ⟨disk, [], healthy⟩

section demo
variable {owner name : Text} {more : List (List Text)}

theorem through_repos : (dataDisk more).Through [] (moves (lit "/data" ++ lit "/repos")) := by
  have closed : ∀ before ∈ (moves (lit "/data" ++ lit "/repos")).inits,
      walk [] before ∈ [demoRepos, [lit "data"], []] := by decide
  exact fun before mem => List.mem_append_right _ (closed before mem)

theorem cstr_owner (signup : usernameError owner = none) : cstr owner = owner :=
  cstr_eq_self_iff.mpr (name_whole signup)

theorem demo_sized : ∀ place ∈ [demoRepos, [lit "data"], []], place.length ≤ 2 := by decide

theorem reposPlace_demo : reposPlace [] demoHost.dataDir = demoRepos := by decide

/-- The directory of a new owner is made. -/
theorem attempt_owner (signup : usernameError owner = none)
    (fresh : owner :: demoRepos ∉ (dataDisk more).dirs) :
    (dataDisk more).attempt (userReposDir demoHost.dataDir ⟨[], owner, name⟩) = .done := by
  have there : resolve (dataDisk more).here (demoHost.dataDir ++ lit "/repos") = demoRepos :=
    reposPlace_demo
  rw [userReposDir_eq]
  refine attempt_below (by decide) (by decide) ?_ ?_ through_repos ?_ ?_ rfl
  · rw [cstr_owner signup]
    exact name_flat signup
  · rw [cstr_owner signup, name_down signup]
  · rwa [cstr_owner signup, there]
  · exact List.not_mem_nil

theorem place_owner (signup : usernameError owner = none) :
    (dataDisk more).place (userReposDir demoHost.dataDir ⟨[], owner, name⟩) =
      owner :: demoRepos := by
  rw [Disk.place, cstr_eq_self_iff.mpr (userReposDir_whole (by decide) signup),
    resolve_userReposDir signup]
  exact congrArg _ reposPlace_demo

theorem moves_owner (signup : usernameError owner = none) :
    moves (userReposDir demoHost.dataDir ⟨[], owner, name⟩) =
      moves (lit "/data" ++ lit "/repos") ++ [.down owner] := by
  rw [userReposDir_eq, moves_slash, moves_flat (name_flat signup), name_down signup]
  rfl

theorem not_hasRow {disk : Disk} {dataDir : Text} {repo : BasicRepo} :
    ¬ ((worldOf disk).stores dataDir repo).HasRow owner name := by
  rintro ⟨row, mem, -⟩
  cases mem

/-- The first request of an owner makes a directory, whatever the name is. -/
theorem made_owner (signup : usernameError owner = none) (name : Text) :
    (worldOf (dataDisk [])).made demoHost { repo := ⟨[], owner, name⟩ } ≠ [] := by
  have fresh : owner :: demoRepos ∉ (dataDisk []).dirs := fun mem =>
    absurd (demo_sized _ mem) (by simp [demoRepos])
  have absent : ¬ (dataDisk []).IsDirectory (userReposDir demoHost.dataDir ⟨[], owner, name⟩) := by
    rintro ⟨-, there⟩
    rw [place_owner signup] at there
    exact fresh there
  exact List.ne_nil_of_mem (made_of_owner rfl rfl not_hasRow absent (attempt_owner signup fresh))

/-- With the directory of the owner, a fine name makes one for the repository. -/
theorem made_repo (signup : usernameError owner = none) (fine : Fine name) :
    repoPath demoHost.dataDir ⟨[], owner, name⟩ ∈
      (worldOf (dataDisk [owner :: demoRepos])).made demoHost
        { repo := ⟨[], owner, name⟩ } := by
  let disk := dataDisk [owner :: demoRepos]
  let userDir := userReposDir demoHost.dataDir ⟨[], owner, name⟩
  have place : disk.place userDir = owner :: demoRepos := place_owner signup
  have start : disk.start userDir = [] := by
    have slash : userDir.head? = some 47 := rfl
    rw [Disk.start, if_pos slash]
  have through : disk.Through (disk.start userDir) (moves userDir) := by
    rw [start, moves_owner signup, through_concat]
    refine ⟨through_repos, ?_⟩
    rw [walk_append, show walk [] (moves (lit "/data" ++ lit "/repos")) = demoRepos by
      decide]
    exact List.mem_cons_self
  have reaches : disk.Reaches userDir := by
    have owned : cstr owner = owner := cstr_owner signup
    refine (userReposDir_eq _ _ ▸ (reaches_below (by decide) (by decide) ?_ ?_).mpr through_repos :)
    · rw [owned]
      rintro rfl
      exact absurd (name_sized signup).1 (by decide)
    · rw [owned]
      exact name_flat signup
  have there : disk.IsDirectory userDir := ⟨reaches, place ▸ List.mem_cons_self⟩
  have flat : 47 ∉ cstr name := fun mem => fine.flat ((cstr_front name).subset mem)
  have here : resolve disk.here userDir = owner :: demoRepos :=
    resolve_userReposDir signup
  have directory : disk.attempt (repoPath demoHost.dataDir ⟨[], owner, name⟩) = .done := by
    rw [repoPath_eq]
    refine attempt_below (userReposDir_whole (by decide) signup) ?_ flat
      (segmentMove_down fine.down) through ?_ List.not_mem_nil rfl
    · exact List.cons_ne_nil _ _
    · change cstr name :: resolve disk.here userDir ∉ disk.dirs
      rw [here]
      intro mem
      rcases List.mem_cons.mp mem with same | mem
      · exact absurd (congrArg List.length same) (by simp)
      · exact absurd (demo_sized _ mem) (by simp [demoRepos])
  exact made_of_repo rfl rfl not_hasRow there directory

end demo

/-! ## Repositories in order -/

/-- A creation for an owner and a name that a request asks for. -/
structure Run (host : GitHost) (here : List Text) (pair : Text × Text) (w : World)
    (form : CreateForm) : Prop where
  at_ : w.disk.here = here
  request : ∃ req, asked host req = some form
  owner : form.repo.owner = pair.1
  name : form.repo.name = pair.2

/-- The directory of the repository is made. -/
def MakesRepo (host : GitHost) (w : World) (form : CreateForm) : Prop :=
  repoPath host.dataDir form.repo ∈ w.made host form

/-- Nothing is made for a pair of an owner and a name that is not sound, and two of the pairs
have two directories. -/
structure InOrder (pairs : Set (Text × Text)) : Prop where
  sound : ∀ (host : GitHost) (here : List Text), 0 ∉ host.dataDir → ∀ pair ∈ pairs,
    ∀ w form, Run host here pair w form → w.made host form ≠ [] →
      Sound host.domain host.dataDir here pair.1 pair.2
  apart : ∀ (host : GitHost) (here : List Text), 0 ∉ host.dataDir →
    ∀ pair ∈ pairs, ∀ pair' ∈ pairs, pair ≠ pair' → ∀ w form w' form',
      Run host here pair w form → Run host here pair' w' form' → MakesRepo host w form →
        MakesRepo host w' form' → w.disk.place (repoPath host.dataDir form.repo) ≠
          w'.disk.place (repoPath host.dataDir form'.repo)

theorem run_post {owner : Text} (signup : usernameError owner = none) (name : Text)
    (more : List (List Text)) : Run demoHost [] (owner, name) (worldOf (dataDisk more))
      { repo := ⟨[], owner, name⟩ } :=
  ⟨rfl, ⟨_, asked_post demoHost signup name⟩, rfl, rfl⟩

theorem Run.place {host : GitHost} {here : List Text} {pair : Text × Text} {w : World}
    {form : CreateForm} (run : Run host here pair w form) :
    w.disk.place (repoPath host.dataDir form.repo) =
      placeOf here host.dataDir ⟨[], pair.1, pair.2⟩ := by
  rw [← run.owner, ← run.name, ← run.at_]
  rfl

/-- Repositories are in order if and only if their names are fine, and no two of one owner agree
up to a zero byte. -/
theorem inOrder_iff (pairs : Set (Text × Text))
    (signup : ∀ pair ∈ pairs, usernameError pair.1 = none) :
    InOrder pairs ↔ (∀ pair ∈ pairs, Fine pair.2) ∧ ∀ pair ∈ pairs, ∀ pair' ∈ pairs,
      pair.1 = pair'.1 → cstr pair.2 = cstr pair'.2 → pair = pair' := by
  constructor
  · intro order
    have fine : ∀ pair ∈ pairs, Fine pair.2 := by
      intro pair mem
      have run := run_post (signup pair mem) pair.2 []
      have made := made_owner (signup pair mem) pair.2
      exact (sound_iff_fine (by decide) (signup pair mem)).mp
        (order.sound demoHost [] (by decide) pair mem _ _ run made)
    refine ⟨fine, fun pair mem pair' mem' owner name => ?_⟩
    by_contra other
    have user := signup pair mem
    have user' := signup pair' mem'
    refine order.apart demoHost [] (by decide) pair mem pair' mem' other _ _ _ _
      (run_post user pair.2 _) (run_post user' pair'.2 _) (made_repo user (fine pair mem))
      (made_repo user' (fine pair' mem')) ?_
    have places : ∀ pair ∈ pairs, placeOf [] demoHost.dataDir ⟨[], pair.1, pair.2⟩ =
        cstr pair.2 :: pair.1 :: reposPlace [] demoHost.dataDir := fun pair mem =>
      (fine pair mem).placeOf (by decide) (signup pair mem)
    refine (places pair mem).trans ?_
    rw [owner, name]
    exact (places pair' mem').symm
  · rintro ⟨fine, apart⟩
    constructor
    · intro host here whole pair mem w form run made
      exact (sound_iff_fine whole (signup pair mem)).mpr (fine pair mem)
    · intro host here whole pair mem pair' mem' other w form w' form' run run' _ _ same
      rw [run.place, run'.place, (fine pair mem).placeOf whole (signup pair mem),
        (fine pair' mem').placeOf whole (signup pair' mem')] at same
      obtain ⟨name, rest⟩ := List.cons.inj same
      exact other (apart pair mem pair' mem' (List.cons.inj rest).1 name)

theorem inOrder_iff_alice :
    InOrder {(lit "alice", lit "site")} ↔
      (∀ pair ∈ ({(lit "alice", lit "site")} : Set (Text × Text)), Fine pair.2) ∧
        ∀ pair ∈ ({(lit "alice", lit "site")} : Set (Text × Text)),
          ∀ pair' ∈ ({(lit "alice", lit "site")} : Set (Text × Text)),
            pair.1 = pair'.1 → cstr pair.2 = cstr pair'.2 → pair = pair' := by
  refine inOrder_iff _ fun pair mem => ?_
  rw [Set.mem_singleton_iff.mp mem]
  decide

/-- Alice asks for a name that leads into the directory of bob. -/
def intruding : ModRequest := post "alice" "../bob/site"

/-- alice and bob have repositories. -/
def bothUsers : World :=
  worldOf (dataDisk [lit "alice" :: demoRepos, lit "bob" :: demoRepos])

theorem other_directory_made :
    let form : CreateForm := { repo := ⟨[], "alice", "../bob/site"⟩ }
    asked demoHost intruding = some form ∧
      bothUsers.made demoHost form = [lit "/data/repos/alice/../bob/site"] ∧
      bothUsers.disk.place "/data/repos/alice/../bob/site" =
        lit "site" :: lit "bob" :: demoRepos ∧
      ¬ InOrder {pair | usernameError pair.1 = none} := by
  have request : asked demoHost intruding = some { repo := ⟨[], "alice", "../bob/site"⟩ } :=
    asked_post demoHost (by decide) _
  have made : bothUsers.made demoHost { repo := ⟨[], "alice", "../bob/site"⟩ } =
      [lit "/data/repos/alice/../bob/site"] := by decide +kernel
  refine ⟨request, made, by decide, fun order => ?_⟩
  have user : (lit "alice", lit "../bob/site") ∈
      {pair : Text × Text | usernameError pair.1 = none} :=
    show usernameError "alice" = none by decide
  have sound := order.sound demoHost [] (by decide) _ user bothUsers
    { repo := ⟨[], "alice", "../bob/site"⟩ } ⟨rfl, ⟨_, request⟩, rfl, rfl⟩
    (by rw [made]; exact List.cons_ne_nil _ _)
  have refused : fromPath demoHost.domain (lit "alice" ++ 47 :: lit "../bob/site") =
      .ok (true, ⟨[], "alice", ".."⟩) := by decide
  exact absurd (refused.symm.trans sound.addressed) (by decide)

end CreatedPlaces
