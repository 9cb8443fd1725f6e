import Mathlib.Algebra.Group.Nat.Defs
import Fiy.GitRepos

/-!
# Trees of a repository between instances

The encoder and the decoder of `DTORepoTree`, with the parts they share, and those of the users
in it. The decoder returns false, throws, or reads behind the end of an object.
-/

namespace RepoDtos

open ByteStrings GitRepos

/-- Why a decoder does not return. -/
inductive Halt
  /-- `nlohmann::json::type_error` -/
  | typeError
  /-- an iterator is read that is at the end -/
  | pastEnd
  deriving DecidableEq, Repr

/-! ## JSON -/

/-- The values of the library. A number that was stored as a signed one is not unsigned, whatever
its value is, and the order of fields is not observed. -/
inductive Json
  | null
  | bool (value : Bool)
  | integer (value : Int)
  | unsigned (value : Nat)
  | float (bits : UInt64)
  | string (value : Text)
  | array (elements : List Json)
  | object (fields : List (Text × Json))

namespace Json

/-- A field of an object, if there is one. -/
def find (key : Text) : Json → Option Json
  | object fields => fields.lookup key
  | _ => none

def isObject : Json → Bool
  | object _ => true
  | _ => false

def string? : Json → Option Text
  | string value => some value
  | _ => none

def array? : Json → Option (List Json)
  | array elements => some elements
  | _ => none

/-- A number without a fraction, as a signed one of 64 bits. -/
def int64? : Json → Option Int
  | integer value => some value
  | unsigned value => some (Int.bmod value (2 ^ 64))
  | _ => none

end Json

/-! ## Users -/

/-- `canonical_user`; an at sign in front is part of the name. -/
def canonicalUser (domain : Text) (u : GitUser) : Text :=
  if 64 ∈ u.fiyUser.tail then u.fiyUser else u.fiyUser ++ lit "@" ++ domain

/-- `set_user` -/
def setUser (domain canonical : Text) (u : GitUser) : GitUser :=
  match cut 64 canonical with
  | some (user, inst) => { u with fiyUser := if inst = domain then user else canonical }
  | none => { u with fiyUser := canonical }

/-- `to_json` of a user -/
def userToJson (domain : Text) (u : GitUser) : Json :=
  .object ((if u.name ≠ [] then [(lit "name", .string u.name)] else []) ++
    (if u.email ≠ [] then [(lit "email", .string u.email)] else []) ++
    -- the test of `has_user` is inverted
    (if ¬ u.fiyUser ≠ [] then [(lit "user", .string (canonicalUser domain u))] else []))

/-- A text field that may be missing. -/
def textField (key : Text) (json : Json) : Except Halt (Option Text) :=
  match json.find key with
  | none => .ok none
  | some value => match value.string? with
    | none => .error .typeError
    | some text => .ok (some text)

/-- `from_json` of a user -/
def userFromJson (domain : Text) (json : Json) (u : GitUser) : Except Halt GitUser := do
  if ¬ json.isObject then return u
  let name ← textField "name" json
  let email ← textField "email" json
  let user ← textField "user" json
  let u := { u with name := name.getD u.name, email := email.getD u.email }
  return match user with
    | none => u
    | some user => setUser domain user u

/-! ## Commits and entries -/

/-- `GitRepo::Commit`, with its committer. The id is the text in its buffer. -/
structure TreeCommit extends Commit where
  committer : GitUser := {}
  deriving DecidableEq, Repr

/-- `GitRepo::Entry` -/
structure TreeEntry where
  type : EntryType := .invalid
  path : Text := []
  lastCommit : TreeCommit := {}
  deriving DecidableEq, Repr

/-- `GIT_OID_HEXSZ` -/
def oidHexSize : Nat := 40

/-- `strncpy` of a whole text over the text of a buffer. -/
def strncpy (buffer text : Text) : Text :=
  cstr (cstr text ++ List.replicate (text.length - (cstr text).length) 0 ++
    buffer.drop text.length)

/-- `id_str` -/
def setId (commit : TreeCommit) (id : Text) : Option TreeCommit :=
  if oidHexSize ≤ id.length then none else some { commit with id := strncpy commit.id id }

/-- `commit_from_json`. Behind the test for the time nothing is reached. -/
def commitFromJson (commit : TreeCommit) (json : Json) : Except Halt (Bool × TreeCommit) :=
  if ¬ json.isObject then .ok (false, commit)
  else match (json.find "id").bind Json.string? with
    | none => .ok (false, commit)
    | some id => match setId commit id with
      | none => .ok (false, commit)
      | some commit =>
        let message := ((json.find "message").bind Json.string?).getD commit.message
        match json.find "ts" with
        | none => .error .pastEnd
        | some _ => .ok (false, { commit with message })

/-- The number of an enumerator. -/
def typeNumber : EntryType → Nat
  | .invalid => 0
  | .commit => 1
  | .directory => 2
  | .file => 3

/-- The type of an entry, by its number or by its name. -/
def typeFromJson : Json → Option EntryType
  | .unsigned 3 => some .file
  | .unsigned 2 => some .directory
  | .unsigned 1 => some .commit
  | .string name =>
    if name = "BLOB" ∨ name = "FILE" then some .file
    else if name = "DIR" ∨ name = "DIRECTORY" then some .directory
    else if name = "COMMIT" then some .commit
    else none
  | _ => none

/-- One turn of the loop over the entries; `none` when the decoder returns false. -/
def entryFromJson (json : Json) : Except Halt (Option TreeEntry) :=
  if ¬ json.isObject then .ok none
  else
    -- an entry without a commit keeps the default one
    match (json.find "commit").elim (.ok (true, {})) (commitFromJson {}) with
    | .error halt => .error halt
    | .ok (false, _) => .ok none
    | .ok (true, lastCommit) => match (json.find "path").bind Json.string? with
      | none => .ok none
      | some path => .ok (((json.find "type").bind typeFromJson).map fun type =>
          { type, path, lastCommit })

/-! ## Trees -/

/-- `DTORepoTree`; the number of its commits is not exchanged. -/
structure DTORepoTree where
  lastCommit : TreeCommit := {}
  activeBranch : Text := []
  path : Text := []
  entries : List TreeEntry := []
  deriving DecidableEq, Repr

/-- How the library stores an enumerator depends on its version. -/
def enumJson (signed : Bool) (value : Nat) : Json :=
  if signed then .integer value else .unsigned value

def entryToJson (signed : Bool) (e : TreeEntry) : Json :=
  .object [("commit", .object [("id", .string e.lastCommit.id),
      ("message", .string e.lastCommit.message), ("ts", .integer e.lastCommit.ts)]),
    ("path", .string e.path), ("type", enumJson signed (typeNumber e.type))]

/-- A user of the last commit. -/
def personToJson (domain : Text) (u : GitUser) : Json :=
  .object [("name", .string u.name), ("email", .string u.email),
    ("user", .string (canonicalUser domain u))]

def lastToJson (domain : Text) (commit : TreeCommit) : Json :=
  .object [("ts", .integer commit.ts), ("message", .string commit.message),
    ("id", .string commit.id), ("author", personToJson domain commit.author),
    ("committer", personToJson domain commit.committer)]

/-- `DTORepoTree::to_json` -/
def treeToJson (domain : Text) (signed : Bool) (t : DTORepoTree) : Json :=
  .object [("class", .string "repo.tree"),
    ("entries", .array (t.entries.map (entryToJson signed))),
    ("commit", lastToJson domain t.lastCommit), ("branch", .string t.activeBranch),
    ("path", .string t.path)]

/-- The loop over the entries. -/
def entriesFromJson : List Json → DTORepoTree → Except Halt (Bool × DTORepoTree)
  | [], t => .ok (true, t)
  | json :: rest, t => match entryFromJson json with
    | .error halt => .error halt
    | .ok none => .ok (false, t)
    | .ok (some e) => entriesFromJson rest { t with entries := t.entries ++ [e] }

/-- The last commit of a tree, of which the time and the id are read. -/
def lastFromJson (json : Json) (t : DTORepoTree) : Bool × DTORepoTree :=
  match (json.find "ts").bind Json.int64? with
  | none => (false, t)
  | some ts =>
    let t := { t with lastCommit := { t.lastCommit with ts } }
    match (json.find "id").bind Json.string? with
    | none => (false, t)
    | some id => match setId t.lastCommit id with
      | none => (false, t)
      | some lastCommit => (true, { t with lastCommit })

/-- The end of `from_json`. -/
def refsFromJson (json : Json) (t : DTORepoTree) : Bool × DTORepoTree :=
  match (json.find "branch").bind Json.string? with
  | none => (false, t)
  | some activeBranch =>
    let t := { t with activeBranch }
    match (json.find "path").bind Json.string? with
    | none => (false, t)
    | some path => (true, { t with path })

/-- `DTORepoTree::from_json` -/
def treeFromJson (json : Json) (t : DTORepoTree) : Except Halt (Bool × DTORepoTree) :=
  match entriesFromJson (((json.find "entries").bind Json.array?).getD []) t with
  | .error halt => .error halt
  | .ok (false, t) => .ok (false, t)
  | .ok (true, t) =>
    match (json.find "commit").elim (true, t) fun commit =>
        if commit.isObject then lastFromJson commit t else (true, t) with
    | (false, t) => .ok (false, t)
    | (true, t) => .ok (refsFromJson json t)

/-! ## What is accepted -/

section accepted
variable {domain : Text} {signed : Bool}

/-- No commit of an entry is ever read: where there is a time, the decoder gives up. -/
theorem commitFromJson_not (commit : TreeCommit) (json : Json) (read : TreeCommit) :
    commitFromJson commit json ≠ .ok (true, read) := by
  unfold commitFromJson
  split
  · nofun
  split
  · nofun
  split
  · nofun
  split
  · nofun
  · nofun

/-- With a time, a commit is refused. -/
theorem commitFromJson_timed (commit : TreeCommit) {json ts : Json}
    (timed : json.find "ts" = some ts) :
    ∃ left, commitFromJson commit json = .ok (false, left) := by
  unfold commitFromJson
  split
  · exact ⟨_, rfl⟩
  split
  · exact ⟨_, rfl⟩
  split
  · exact ⟨_, rfl⟩
  · rw [timed]
    exact ⟨_, rfl⟩

theorem entryFromJson_encoded (signed : Bool) (e : TreeEntry) :
    entryFromJson (entryToJson signed e) = .ok none := by
  obtain ⟨commit, found, timed⟩ : ∃ commit, (entryToJson signed e).find "commit" = some commit ∧
      commit.find "ts" = some (.integer e.lastCommit.ts) := ⟨_, rfl, rfl⟩
  obtain ⟨left, read⟩ := commitFromJson_timed {} timed
  have object : ¬ ¬ (entryToJson signed e).isObject = true := not_not.mpr rfl
  rw [entryFromJson, if_neg object, found, Option.elim_some, read]

/-- A tree with an entry is given up at the first one. -/
theorem entriesFromJson_encoded (signed : Bool) (entries : List TreeEntry) (t : DTORepoTree) :
    entriesFromJson (entries.map (entryToJson signed)) t = .ok (decide (entries = []), t) := by
  cases entries with
  | nil => rfl
  | cons e entries => rw [List.map_cons, entriesFromJson, entryFromJson_encoded]; rfl

theorem strncpy_nil (text : Text) : strncpy [] text = cstr text := by
  have ends : ∀ n, (List.replicate n (0 : Byte)).takeWhile (· ≠ 0) = [] := by
    intro n
    cases n with
    | zero => rfl
    | succ n => exact List.takeWhile_cons_of_neg (by decide)
  have letters : ∀ b ∈ cstr text, (b ≠ 0 : Bool) = true := fun b mem =>
    List.mem_takeWhile_imp (p := fun b : Byte => decide (b ≠ 0)) mem
  rw [strncpy, List.drop_nil, List.append_nil, cstr, List.takeWhile_append_of_pos letters, ends,
    List.append_nil]

/-- What the decoder makes of an encoded tree: an entry, or an id of the full length, and it
gives up. -/
theorem treeFromJson_encoded (domain : Text) (signed : Bool) (t : DTORepoTree) :
    treeFromJson (treeToJson domain signed t) {} = .ok (
      if t.entries ≠ [] then (false, {})
      else if oidHexSize ≤ t.lastCommit.id.length then
        (false, { lastCommit := { ts := t.lastCommit.ts } })
      else (true, {
        lastCommit := { ts := t.lastCommit.ts, id := cstr t.lastCommit.id }
        activeBranch := t.activeBranch, path := t.path })) := by
  have entries : (((treeToJson domain signed t).find "entries").bind Json.array?).getD [] =
      t.entries.map (entryToJson signed) := rfl
  have commit : (treeToJson domain signed t).find "commit" =
      some (lastToJson domain t.lastCommit) := rfl
  have refs : ∀ t', refsFromJson (treeToJson domain signed t) t' =
      (true, { t' with activeBranch := t.activeBranch, path := t.path }) := fun _ => rfl
  have last : lastFromJson (lastToJson domain t.lastCommit) {} =
      match setId { ts := t.lastCommit.ts } t.lastCommit.id with
      | none => (false, { lastCommit := { ts := t.lastCommit.ts } })
      | some lastCommit => (true, { lastCommit }) := rfl
  rw [treeFromJson, entries, entriesFromJson_encoded]
  by_cases some_ : t.entries = []
  · rw [decide_eq_true some_, if_neg (not_not.mpr some_)]
    simp only [commit, Option.elim_some]
    rw [if_pos (show (lastToJson domain t.lastCommit).isObject = true from rfl), last, setId]
    by_cases long : oidHexSize ≤ t.lastCommit.id.length
    · rw [if_pos long, if_pos long]
    · rw [if_neg long, if_neg long, strncpy_nil]
      simp only [refs]
  · rw [decide_eq_false some_, if_pos some_]

end accepted

/-! ## Round trips -/

section roundTrips
variable (domain : Text) (signed : Bool)

/-- The same name, email and canonical user. -/
def SameUser (u u' : GitUser) : Prop :=
  u'.name = u.name ∧ u'.email = u.email ∧ canonicalUser domain u' = canonicalUser domain u

/-- `get<GitUser>(json(u))` restores the user. -/
def UserRestored (u : GitUser) : Prop :=
  ∃ u', userFromJson domain (userToJson domain u) {} = .ok u' ∧ SameUser domain u u'

/-- What is exchanged of an entry. -/
def shown (e : TreeEntry) : EntryType × Text × Text × Text × Int :=
  (e.type, e.path, e.lastCommit.id, e.lastCommit.message, e.lastCommit.ts)

/-- A tree is restored by another one. -/
structure SameTree (t t' : DTORepoTree) : Prop where
  entries : t'.entries.map shown = t.entries.map shown
  id : t'.lastCommit.id = t.lastCommit.id
  message : t'.lastCommit.message = t.lastCommit.message
  ts : t'.lastCommit.ts = t.lastCommit.ts
  author : SameUser domain t.lastCommit.author t'.lastCommit.author
  committer : SameUser domain t.lastCommit.committer t'.lastCommit.committer
  activeBranch : t'.activeBranch = t.activeBranch
  path : t'.path = t.path

/-- `from_json(to_json(t))` on a fresh tree returns true and restores the tree. -/
def TreeRestored (t : DTORepoTree) : Prop :=
  ∃ t', treeFromJson (treeToJson domain signed t) {} = .ok (true, t') ∧ SameTree domain t t'

/-- A full-length object id in lower-case hexadecimal digits. -/
def IsObjectId (id : Text) : Prop :=
  id.length = oidHexSize ∧ ∀ b ∈ id, isDigit b = true ∨ 97 ≤ b ∧ b ≤ 102

instance (id : Text) : Decidable (IsObjectId id) := inferInstanceAs (Decidable (_ ∧ _))

/-- A tree as a repository has it. -/
structure Exchanged (t : DTORepoTree) : Prop where
  types : ∀ e ∈ t.entries, e.type ≠ .invalid
  ids : ∀ e ∈ t.entries, IsObjectId e.lastCommit.id
  last : IsObjectId t.lastCommit.id

variable {domain signed}

/-- The trees that come back: only those without entries and without the data of a commit. -/
theorem treeRestored_iff {t : DTORepoTree} : TreeRestored domain signed t ↔
    t.entries = [] ∧ t.lastCommit.id.length < oidHexSize ∧ 0 ∉ t.lastCommit.id ∧
      t.lastCommit.message = [] ∧ SameUser domain t.lastCommit.author {} ∧
      SameUser domain t.lastCommit.committer {} := by
  rw [TreeRestored, treeFromJson_encoded]
  constructor
  · rintro ⟨t', read, same⟩
    split at read
    · cases read
    next some_ =>
    split at read
    · cases read
    next long =>
    cases read
    exact ⟨not_not.mp some_, Nat.not_le.mp long, cstr_eq_self_iff.mp same.id, same.message.symm,
      same.author, same.committer⟩
  · rintro ⟨none_, short, whole, message, author, committer⟩
    rw [if_neg (not_not.mpr none_), if_neg (Nat.not_le.mpr short)]
    refine ⟨_, rfl, ?_, cstr_eq_self_iff.mpr whole, message.symm, rfl, author, committer, rfl, rfl⟩
    rw [none_]

/-- A user without an account on an instance is written as an at sign and the domain. -/
theorem setUser_canonical {u u' : GitUser} (none_ : u.fiyUser = []) :
    setUser domain (canonicalUser domain u) u' = { u' with fiyUser := [] } := by
  have written : canonicalUser domain u = 64 :: domain := by
    rw [canonicalUser, none_]
    rfl
  have cut_ : cut 64 (64 :: domain) = some ([], domain) := cut_append List.not_mem_nil domain
  rw [setUser, written, cut_]
  exact congrArg (fun user => { u' with fiyUser := user }) (if_pos rfl)

/-- What is read back of a user: never the account. -/
theorem userFromJson_encoded (u : GitUser) :
    userFromJson domain (userToJson domain u) {} = .ok { name := u.name, email := u.email } := by
  obtain ⟨user, name, email⟩ := u
  cases user with
  | nil =>
    -- the account that is written is none
    have read : setUser domain (canonicalUser domain ⟨[], name, email⟩) ⟨[], name, email⟩ =
      ⟨[], name, email⟩ := setUser_canonical rfl
    have fields : userFromJson domain (userToJson domain ⟨[], name, email⟩) {} =
        .ok (setUser domain (canonicalUser domain ⟨[], name, email⟩) ⟨[], name, email⟩) := by
      cases name with
      | nil => cases email with
        | nil => rfl
        | cons b email => rfl
      | cons b name => cases email with
        | nil => rfl
        | cons c email => rfl
    rw [fields, read]
  | cons a user => cases name with
    | nil => cases email with
      | nil => rfl
      | cons b email => rfl
    | cons b name => cases email with
      | nil => rfl
      | cons c email => rfl

/-- A user is restored without an account, or with one that is written like none. -/
theorem userRestored_iff {u : GitUser} : UserRestored domain u ↔
    u.fiyUser = [] ∨ u.fiyUser = 64 :: domain ∧ 64 ∈ domain := by
  have empty : canonicalUser domain { name := u.name, email := u.email } = 64 :: domain := rfl
  rw [UserRestored, userFromJson_encoded]
  have only : (∃ u', Except.ok (ε := Halt) { name := u.name, email := u.email } = .ok u' ∧
      SameUser domain u u') ↔ canonicalUser domain u = 64 :: domain := by
    constructor
    · rintro ⟨u', read, -, -, same⟩
      cases read
      exact same.symm.trans empty
    · exact fun same => ⟨_, rfl, rfl, rfl, empty.trans same.symm⟩
  rw [only, canonicalUser]
  by_cases at_ : 64 ∈ u.fiyUser.tail
  · rw [if_pos at_]
    have some_ : u.fiyUser ≠ [] := by
      intro none_
      rw [none_] at at_
      cases at_
    constructor
    · intro same
      rw [same] at at_
      exact .inr ⟨same, at_⟩
    · rintro (none_ | ⟨same, -⟩)
      · exact absurd none_ some_
      · exact same
  · rw [if_neg at_]
    have whole : u.fiyUser ++ lit "@" ++ domain = u.fiyUser ++ 64 :: domain := by
      rw [List.append_assoc]
      rfl
    rw [whole, List.append_left_eq_self]
    constructor
    · exact .inl
    · rintro (none_ | ⟨same, mem⟩)
      · exact none_
      · rw [same] at at_
        exact absurd mem at_

/-- No tree of a repository is restored, and of the users those that have no account. -/
theorem restored_iff (domain : Text) (signed : Bool) :
    (∀ t, Exchanged t → ¬ TreeRestored domain signed t) ∧
      ∀ u, UserRestored domain u ↔ u.fiyUser = [] ∨ u.fiyUser = 64 :: domain ∧ 64 ∈ domain := by
  refine ⟨fun t exchanged restored => ?_, fun u => userRestored_iff⟩
  have short := (treeRestored_iff.mp restored).2.1
  rw [exchanged.last.1] at short
  exact lt_irrefl _ short

end roundTrips

/-- A commit of alice. -/
def demoCommit : TreeCommit where
  id := "0123456789abcdef0123456789abcdef01234567"
  message := "first"
  ts := 1
  author := ⟨"alice", "Alice", "alice@a.b"⟩
  committer := ⟨"alice", "Alice", "alice@a.b"⟩

/-- A tree with one file. -/
def demoTree : DTORepoTree where
  lastCommit := demoCommit
  activeBranch := "main"
  path := []
  entries := [⟨.file, "README.md", demoCommit⟩]

theorem demo_not_restored :
    Exchanged demoTree ∧ ¬ TreeRestored "a.b" false demoTree ∧
      treeFromJson (treeToJson "a.b" false demoTree) {} = .ok (false, {}) ∧
      ¬ UserRestored "a.b" demoCommit.author := by
  have id : IsObjectId demoCommit.id := by decide +kernel
  have given_up : treeFromJson (treeToJson "a.b" false demoTree) {} = .ok (false, {}) := by
    rw [treeFromJson_encoded]
    rfl
  refine ⟨⟨by decide, by simpa [demoTree] using id, id⟩, ?_, given_up, ?_⟩
  · rintro ⟨t', read, -⟩
    rw [given_up] at read
    cases read
  · rw [userRestored_iff]
    decide

end RepoDtos
