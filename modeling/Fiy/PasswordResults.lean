import Fiy.HttpMessages
import Fiy.LocalAccounts
import Fiy.ModAccess

/-!
# The result of a password check and who reads it

`auth_user` with its five ways out, over a table that may not be readable, and the two
callers that hand its value on: the function pointer mods get, and the route network
mods call. A missing row has the result of a right password, and a stored value is
compared only as far as a digest goes.
-/

namespace PasswordResults

open ByteStrings KeyedTables HttpMessages HostEnvironment LocalAccounts ModAccess

/-- What the statement on the `Users` table finds. -/
inductive Query
  /-- preparing it throws, which happens before the `try` -/
  | unprepared
  /-- binding or stepping throws `SQLite::Exception` -/
  | failing
  | ready (users : Table Text UserRow)

/-- `LocalUsers::auth_user(username, password)`; `none` is an exception that leaves it. -/
def authUser (c : Crypto) (cfg : Config) (q : Query) (username password : Text) :
    Option Int :=
  match q with
  | .unprepared => none
  | .failing => some (-1)
  | .ready users => match users.lookup username with
    | none => some 0
    | some row =>
      some (if LocalUser.checkPasswordHash c cfg password row.hashedPassword then 0 else 1)

/-- `local_login_impl`, which gets C strings. -/
def localLoginImpl (c : Crypto) (cfg : Config) (q : Query) (username password : Text) :
    Option Int :=
  authUser c cfg q (cstr username) (cstr password)

/-- `login_user_internal`, with the tokens of the network connectors. -/
def loginUserInternal (c : Crypto) (cfg : Config) (q : Query)
    (connectors : Table Text ModConnector) (req : Request) : Option Response :=
  let token := req.fields.value "fiy-auth"
  let username := req.fields.value "fiy-user"
  let password := req.fields.value "fiy-pass"
  if token ∉ connectors then some { status := 401 }
  else (authUser c cfg q username password).map fun (r : Int) =>
    { status := if r = 0 then 200 else if r = 1 then 401 else 500 }

/-- Where the statement succeeds this is the check the rest of the server makes. -/
theorem authUser_ready (c : Crypto) (cfg : Config) (us : LocalUsers)
    (username password : Text) :
    authUser c cfg (.ready us.db) username password =
      some (us.authPassword c cfg username password) := by
  simp only [authUser, LocalUsers.authPassword]
  cases us.db.lookup username <;> rfl

section
variable (c : Crypto) (cfg : Config) (q : Query) (username password : Text)

/-- There is a row of this name with the hash of this password. -/
def Right : Prop :=
  ∃ users row, q = .ready users ∧ users.lookup username = some row ∧
    row.hashedPassword = LocalUser.hashPassword c cfg password

/-- The check returns, and it returns zero for the right credentials only, which are
what both callers accept. -/
structure Exact : Prop where
  result : ∃ r, authUser c cfg q username password = some r ∧
    (r = 0 ↔ Right c cfg q username password)
  modLogin : ∀ u p, cstr u = username → cstr p = password →
    (localLoginImpl c cfg q u p = some 0 ↔ Right c cfg q username password)
  netLogin : ∀ connectors (req : Request), req.fields.value "fiy-auth" ∈ connectors →
    req.fields.value "fiy-user" = username → req.fields.value "fiy-pass" = password →
    ((∃ res, loginUserInternal c cfg q connectors req = some res ∧ res.status = 200) ↔
      Right c cfg q username password)

/-- The statement can be prepared, and a table that is read has a row of this name,
which does not go on after the hash of the password. -/
def Settled : Prop :=
  match q with
  | .unprepared => False
  | .failing => True
  | .ready users => ∃ row, users.lookup username = some row ∧
    (LocalUser.hashPassword c cfg password <+: row.hashedPassword →
      row.hashedPassword.length = 64)

end

section
variable {c : Crypto} {cfg : Config} {q : Query} {username password : Text}

/-- Everything up to the length of a digest agrees. -/
theorem checkPasswordHash_iff_prefix {stored : Text} :
    LocalUser.checkPasswordHash c cfg password stored = true ↔
      LocalUser.hashPassword c cfg password <+: stored := by
  have size : (LocalUser.hashPassword c cfg password).length = 64 := (c.sha512 _).property
  rw [LocalUser.checkPasswordHash, List.prefix_iff_eq_take, size]
  constructor
  · intro accepted
    split at accepted
    · cases accepted
    · simpa using accepted
  · intro same
    have long : ¬ stored.length < 64 := by
      intro short
      have := congrArg List.length same
      rw [size, List.length_take] at this
      omega
    rw [if_neg long]
    simpa using same

/-- A prefix of the same length is the whole. -/
theorem hash_prefix_iff_eq {stored : Text}
    (whole : LocalUser.hashPassword c cfg password <+: stored → stored.length = 64) :
    LocalUser.hashPassword c cfg password <+: stored ↔
      stored = LocalUser.hashPassword c cfg password := by
  have size : (LocalUser.hashPassword c cfg password).length = 64 := (c.sha512 _).property
  constructor
  · intro begins
    exact (begins.eq_of_length (size.trans (whole begins).symm)).symm
  · rintro rfl
    exact List.prefix_rfl

/-- A result of zero is what both callers accept. -/
theorem callers_accept_iff {r : Int} (returned : authUser c cfg q username password = some r) :
    (∀ u p, cstr u = username → cstr p = password →
      (localLoginImpl c cfg q u p = some 0 ↔ r = 0)) ∧
    ∀ connectors (req : Request), req.fields.value "fiy-auth" ∈ connectors →
      req.fields.value "fiy-user" = username → req.fields.value "fiy-pass" = password →
      ((∃ res, loginUserInternal c cfg q connectors req = some res ∧ res.status = 200) ↔
        r = 0) := by
  constructor
  · rintro u p rfl rfl
    rw [localLoginImpl, returned, Option.some.injEq]
  · intro connectors req known named secret
    simp only [loginUserInternal, known, not_true_eq_false, if_false, named, secret, returned,
      Option.map_some, Option.some.injEq, exists_eq_left']
    by_cases zero : r = 0
    · simp [zero]
    · by_cases one : r = 1 <;> simp [zero, one]

theorem exact_of_result {r : Int} (returned : authUser c cfg q username password = some r)
    (right : r = 0 ↔ Right c cfg q username password) : Exact c cfg q username password := by
  obtain ⟨modLogin, netLogin⟩ := callers_accept_iff returned
  refine ⟨⟨r, returned, right⟩, ?_, ?_⟩
  · intro u p hu hp
    exact (modLogin u p hu hp).trans right
  · intro connectors req known named secret
    exact (netLogin connectors req known named secret).trans right

theorem right_of_row {users : Table Text UserRow} {row : UserRow}
    (found : users.lookup username = some row) :
    Right c cfg (.ready users) username password ↔
      row.hashedPassword = LocalUser.hashPassword c cfg password := by
  constructor
  · rintro ⟨_, _, heq, hrow, same⟩
    cases heq
    rw [found] at hrow
    cases hrow
    exact same
  · intro same
    exact ⟨users, row, rfl, found, same⟩

/-- A name that nobody has is let in. -/
theorem not_exact_of_unknown {users : Table Text UserRow} (unknown : users.lookup username = none) :
    ¬ Exact c cfg (.ready users) username password := by
  rintro ⟨⟨r, returned, right⟩, _, _⟩
  simp only [authUser, unknown, Option.some.injEq] at returned
  obtain ⟨_, row, heq, hrow, _⟩ := right.mp returned.symm
  cases heq
  rw [unknown] at hrow
  cases hrow

/-- Where there is a row, only what is stored behind a digest can let others in. -/
theorem exact_of_row_iff {users : Table Text UserRow} {row : UserRow}
    (found : users.lookup username = some row) : Exact c cfg (.ready users) username password ↔
      (LocalUser.hashPassword c cfg password <+: row.hashedPassword →
        row.hashedPassword.length = 64) := by
  constructor
  · rintro ⟨⟨r, returned, right⟩, _, _⟩ begins
    rw [right_of_row found] at right
    simp only [authUser, found, checkPasswordHash_iff_prefix.mpr begins, if_true,
      Option.some.injEq] at returned
    rw [right.mp returned.symm]
    exact (c.sha512 _).property
  · intro whole
    apply exact_of_result (r := if LocalUser.checkPasswordHash c cfg password
      row.hashedPassword then 0 else 1)
    · simp only [authUser, found]
    · rw [right_of_row found, ← hash_prefix_iff_eq whole, ← checkPasswordHash_iff_prefix]
      split <;> simp [*]

/-- The check is exact when the statement was prepared, the name has a row and the row
holds no more than a digest where it begins with the right one. -/
theorem exact_iff : Exact c cfg q username password ↔ Settled c cfg q username password := by
  cases q with
  | unprepared =>
    constructor
    · rintro ⟨⟨r, returned, _⟩, _, _⟩
      cases returned
    · exact False.elim
  | failing =>
    constructor
    · intro _
      trivial
    · intro _
      apply exact_of_result (r := -1) rfl
      simp [Right]
  | ready users =>
    cases found : users.lookup username with
    | none =>
      constructor
      · intro checked
        exact absurd checked (not_exact_of_unknown found)
      · rintro ⟨row, hrow, _⟩
        rw [found] at hrow
        cases hrow
    | some row =>
      rw [exact_of_row_iff found]
      simp [Settled, found]

end

/-- Nobody has this name, and any password of it is right. -/
theorem unknown_user_accepted :
    authUser demoCrypto (demoConfig "a.net" "k") (.ready ∅) "nobody" "guess" = some 0 ∧
    localLoginImpl demoCrypto (demoConfig "a.net" "k") (.ready ∅) "nobody" "guess" = some 0 ∧
    loginUserInternal demoCrypto (demoConfig "a.net" "k") (.ready ∅)
      ((∅ : Table Text ModConnector).insert "net" (.net "localhost:7000" ".m" false))
      ⟨.post, "/login", [("fiy-auth", "net"), ("fiy-user", "nobody"), ("fiy-pass", "guess")], []⟩ =
        some { status := 200 } ∧
    ¬ Exact demoCrypto (demoConfig "a.net" "k") (.ready ∅) "nobody" "guess" := by
  exact ⟨by decide, by decide, by decide, not_exact_of_unknown rfl⟩

end PasswordResults
