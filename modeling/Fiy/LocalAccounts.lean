import Fiy.KeyedTables
import Fiy.HostEnvironment

/-!
# Accounts of this instance

`LocalUsers` is a database table behind two caches. The username cache only ever
holds an account under its own name, and that is a field of the state. Statements
are taken to succeed; a row is a row of the `Users` table, whose password column may
hold any bytes.
-/

namespace LocalAccounts

open ByteStrings KeyedTables HostEnvironment

structure LocalUser where
  username : Text
  isAdmin : Bool
  email : Text
  joinedTs : Int
  deriving DecidableEq, Repr

namespace LocalUser

def usernameMaxLength : Nat := 32
def nameMaxLength : Nat := 128
def emailMaxLength : Nat := 255

def hashPassword (c : Crypto) (cfg : Config) (password : Text) : Text :=
  (c.sha512 (password ++ cfg.salt)).val

/-- Only as many bytes as a digest has are compared. -/
def checkPasswordHash (c : Crypto) (cfg : Config) (provided dbHp : Text) : Bool :=
  if dbHp.length < 64 then false else hashPassword c cfg provided = dbHp.take 64

theorem checkPasswordHash_self (c : Crypto) (cfg : Config) (password : Text) :
    checkPasswordHash c cfg password (hashPassword c cfg password) = true := by
  have hlen : (hashPassword c cfg password).length = 64 := (c.sha512 _).property
  simp [checkPasswordHash, hlen, List.take_of_length_le]

end LocalUser

/-- The names signup refuses although they are well formed. -/
def reservedUsernames : List Text :=
  ["api", "mod", "app", "help", "home", "index", "new", "about", "error", "create",
    "delete", "post", "view", "search", "notifications"].map lit

/-- The message signup answers a name with, when it refuses it for its text alone. -/
def usernameError (username : Text) : Option Text :=
  if !username.all fun b => isAlnum b || b = 95 then
    some "Username should contain only alphanumeric characters"
  else if username.length > LocalUser.usernameMaxLength ∨ username = [] then
    some (lit "Username must be less than " ++ decimal LocalUser.usernameMaxLength
      ++ lit " characters")
  else if username.length = 1 ∨ username ∈ reservedUsernames ∨ lit "settings" <:+ username then
    some "Username is reserved, try a different one"
  else none

structure UserRow where
  isAdmin : Bool
  hashedPassword : Text
  email : Text
  joinTs : Int
  deriving DecidableEq, Repr

/-- What the token cache keeps under a token. -/
structure Grant where
  user : LocalUser
  expiration : Int
  deriving DecidableEq, Repr

/-- A default value stands for a failed login. -/
structure AuthToken where
  user : Option LocalUser := none
  token : Text := []
  expiration : Int := 0
  deriving DecidableEq, Repr

/-- 2 weeks. -/
def AuthToken.sessionLifetime : Int := 60 * 60 * 24 * 14

structure LocalUsers where
  usernameCache : Table Text LocalUser
  tokenCache : Table Text Grant
  db : Table Text UserRow
  named : ∀ name user, usernameCache.lookup name = some user → user.username = name

namespace LocalUsers

def empty : LocalUsers := ⟨∅, ∅, ∅, fun _ _ h => by cases h⟩

/-- The account a row of the table describes. -/
def rowUser (username : Text) (row : UserRow) : LocalUser :=
  ⟨username, row.isAdmin, row.email, row.joinTs⟩

/-- `m_username_cache[username] = user` for an account read from the table. -/
def cacheUser (us : LocalUsers) (username : Text) (row : UserRow) : LocalUsers :=
  { us with
    usernameCache := us.usernameCache.insert username (rowUser username row)
    named := by
      intro name user h
      rw [lookup_insert_eq] at h
      split at h
      · cases h
        simp [rowUser, *]
      · exact us.named name user h }

def getUser (us : LocalUsers) (username : Text) : Option LocalUser × LocalUsers :=
  match us.usernameCache.lookup username with
  | some user => (some user, us)
  | none => match us.db.lookup username with
    | none => (none, us)
    | some row => (some (rowUser username row), us.cacheUser username row)

/-- `auth_user(username, password)`: 0 on success and when there is no such row, 1 on
a wrong password. The third result, -1, is for database errors. -/
def authPassword (c : Crypto) (cfg : Config) (us : LocalUsers) (username password : Text) :
    Int :=
  match us.db.lookup username with
  | none => 0
  | some row => if LocalUser.checkPasswordHash c cfg password row.hashedPassword then 0 else 1

/-- `auth_user(auth_token)`; expired tokens are left to the cron thread. -/
def authToken (us : LocalUsers) (token : Text) : Option LocalUser :=
  (us.tokenCache.lookup token).map Grant.user

/-- A generated string that is taken is replaced by the next one; `none` while all
of them are taken. -/
def authorizeUser (us : LocalUsers) (user : LocalUser) (now : Int) (generated : List Text) :
    Option (AuthToken × LocalUsers) :=
  (generated.find? fun token => token ∉ us.tokenCache).map fun token =>
    let expiration := now + AuthToken.sessionLifetime
    (⟨some user, token, expiration⟩,
      { us with tokenCache := us.tokenCache.insert token ⟨user, expiration⟩ })

def loginUser (c : Crypto) (cfg : Config) (now : Int) (us : LocalUsers)
    (username password : Text) (generated : List Text) : Option (AuthToken × LocalUsers) :=
  match us.getUser username with
  | (none, us) => some ({}, us)
  | (some user, us) =>
    if authPassword c cfg us username password ≠ 0 then some ({}, us)
    else us.authorizeUser user now generated

/-- `add_user`. The flag is false where the statement violates the primary key, which
the source reports as an exception that its caller turns into the same answer. -/
def addUser (c : Crypto) (cfg : Config) (us : LocalUsers) (user : LocalUser)
    (password : Text) : Bool × LocalUsers :=
  match emplace us.db user.username
    ⟨user.isAdmin, LocalUser.hashPassword c cfg password, user.email, user.joinedTs⟩ with
  | (added, db) => (added, { us with db })

/-- `deauth_token` -/
def deauthToken (us : LocalUsers) (token : Text) : LocalUsers :=
  { us with tokenCache := us.tokenCache.erase token }

/-- `cron`: tokens are dropped once their time is over. -/
def cron (us : LocalUsers) (now : Int) : LocalUsers :=
  { us with tokenCache := eraseIf (fun _ grant => decide (grant.expiration < now)) us.tokenCache }

/-- What `delete_user` does to the caches. A token of the very object that was found is
one of its name; the mods, which are told in between, are left out. -/
def forget (us : LocalUsers) (username : Text) : LocalUsers :=
  { us with
    usernameCache := us.usernameCache.erase username
    tokenCache := eraseIf (fun _ grant => decide (grant.user.username = username)) us.tokenCache
    named := by
      intro name user h
      rw [lookup_erase_eq] at h
      split at h
      · cases h
      · exact us.named name user h }

/-- The statement that removes the row. -/
def eraseRow (us : LocalUsers) (username : Text) : LocalUsers :=
  { us with db := us.db.erase username }

/-- `delete_user` -/
def deleteUser (us : LocalUsers) (username : Text) : LocalUsers :=
  match us.getUser username with
  | (none, us) => us
  | (some _, us) => (us.forget username).eraseRow username

/-- An account is found under the name it has. -/
theorem getUser_username {us : LocalUsers} {username : Text} {user : LocalUser}
    (h : (us.getUser username).1 = some user) : user.username = username := by
  simp only [getUser] at h
  split at h
  · rename_i cached hcached
    cases h
    exact us.named username _ hcached
  · split at h
    · cases h
    · cases h
      rfl

/-- There is an account of this name: a cached one or a row. -/
def Exists (us : LocalUsers) (username : Text) : Prop :=
  username ∈ us.usernameCache ∨ username ∈ us.db

theorem getUser_isSome_iff (us : LocalUsers) (username : Text) :
    (us.getUser username).1.isSome = true ↔ us.Exists username := by
  simp only [getUser, Exists, ← AList.lookup_isSome]
  cases hc : us.usernameCache.lookup username with
  | some user => simp
  | none => cases hd : us.db.lookup username <;> simp

/-- Where there is an account, `get_user` finds it. -/
theorem exists_iff_getUser (us : LocalUsers) (username : Text) :
    us.Exists username ↔ ∃ user, (us.getUser username).1 = some user := by
  rw [← us.getUser_isSome_iff, Option.isSome_iff_exists]

/-- Looking an account up changes neither tokens nor rows. -/
theorem getUser_frame (us : LocalUsers) (username : Text) :
    (us.getUser username).2.tokenCache = us.tokenCache ∧
      (us.getUser username).2.db = us.db := by
  simp only [getUser]
  split
  · exact ⟨rfl, rfl⟩
  · split <;> exact ⟨rfl, rfl⟩

/-- A name without an account changes nothing. -/
theorem getUser_of_missing {us : LocalUsers} {username : Text}
    (missing : ¬ us.Exists username) : us.getUser username = (none, us) := by
  have uncached : us.usernameCache.lookup username = none :=
    AList.lookup_eq_none.mpr fun cached => missing (Or.inl cached)
  have unlisted : us.db.lookup username = none :=
    AList.lookup_eq_none.mpr fun listed => missing (Or.inr listed)
  simp [getUser, uncached, unlisted]

/-! ## Logging in -/

section login
variable {c : Crypto} {cfg : Config} {us us' : LocalUsers} {username password : Text}

/-- There is an account of this name, and its row, if it has one, has this password. -/
def Valid (us : LocalUsers) (c : Crypto) (cfg : Config) (username password : Text) : Prop :=
  us.Exists username ∧ authPassword c cfg us username password = 0

/-- One of the strings that are drawn is not a token yet. -/
def FreshToken (us : LocalUsers) (generated : List Text) : Prop :=
  ∃ token ∈ generated, token ∉ us.tokenCache

theorem authorizeUser_some_iff (us : LocalUsers) (user : LocalUser) (now : Int)
    (generated : List Text) :
    (∃ token us', us.authorizeUser user now generated = some (token, us')) ↔
      us.FreshToken generated := by
  constructor
  · rintro ⟨token, us', drawn⟩
    obtain ⟨t, ht, _⟩ := Option.map_eq_some_iff.mp drawn
    exact ⟨t, List.mem_of_find?_eq_some ht, by simpa using List.find?_some ht⟩
  · rintro ⟨t, drawn, free⟩
    cases hfind : generated.find? (fun token => token ∉ us.tokenCache) with
    | none => exact absurd free (by simpa using List.find?_eq_none.mp hfind t drawn)
    | some first =>
      simp only [authorizeUser, hfind, Option.map_some]
      exact ⟨_, _, rfl⟩

theorem authorizeUser_user {user : LocalUser} {now : Int} {generated : List Text}
    {token : AuthToken} (h : us.authorizeUser user now generated = some (token, us')) :
    token.user = some user := by
  obtain ⟨t, _, heq⟩ := Option.map_eq_some_iff.mp h
  cases heq
  rfl

/-- Valid credentials get a token for the account. -/
theorem loginUser_of_valid (valid : us.Valid c cfg username password) (now : Int)
    (generated : List Text) :
    ∃ (user : LocalUser) (us' : LocalUsers),
      us.loginUser c cfg now username password generated =
        us'.authorizeUser user now generated ∧ us'.tokenCache = us.tokenCache := by
  obtain ⟨present, right⟩ := valid
  obtain ⟨tokens, rows⟩ := us.getUser_frame username
  have exist := us.getUser_isSome_iff username
  rcases hget : us.getUser username with ⟨found, us'⟩
  simp only [hget] at tokens rows exist
  obtain ⟨user, rfl⟩ := Option.isSome_iff_exists.mp (exist.mpr present)
  have right' : authPassword c cfg us' username password = 0 := by
    rw [← right]
    simp only [authPassword, rows]
  exact ⟨user, us', by simp [loginUser, hget, right'], tokens⟩

/-- Any other credentials get the default token. -/
theorem loginUser_of_invalid (invalid : ¬ us.Valid c cfg username password) (now : Int)
    (generated : List Text) :
    ∃ us', us.loginUser c cfg now username password generated = some ({}, us') := by
  obtain ⟨_, rows⟩ := us.getUser_frame username
  have exist := us.getUser_isSome_iff username
  rcases hget : us.getUser username with ⟨found, us'⟩
  simp only [hget] at rows exist
  cases found with
  | none => exact ⟨us', by simp [loginUser, hget]⟩
  | some user =>
    have wrong : authPassword c cfg us' username password ≠ 0 := by
      intro right
      refine invalid ⟨exist.mp rfl, ?_⟩
      rw [← right]
      simp only [authPassword, rows]
    exact ⟨us', by simp [loginUser, hget, wrong]⟩

/-- A new account is there, and the password it was made with is right. -/
theorem addUser_of_missing (user : LocalUser) (missing : ¬ us.Exists user.username)
    (c : Crypto) (cfg : Config) (password : Text) :
    ∃ us', us.addUser c cfg user password = (true, us') ∧
      us'.Valid c cfg user.username password ∧ us'.tokenCache = us.tokenCache := by
  have unlisted : user.username ∉ us.db := fun listed => missing (Or.inr listed)
  rw [addUser, emplace_of_notMem unlisted]
  refine ⟨_, rfl, ⟨Or.inr ?_, ?_⟩, rfl⟩
  · simp
  · simp [authPassword, LocalUser.checkPasswordHash_self]

end login

end LocalUsers

end LocalAccounts
