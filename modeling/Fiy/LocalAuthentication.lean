import Fiy.Sessions

/-!
# Which local user a request proves to be

A request proves a user by a token the cache holds, in its own cookie, or by a Basic
header with the password of that user's row. `find_user_local` is compared with
that for every state and every connection. It differs in two ways: it returns the
account a Basic header names whatever the password check said, and it prefers the
cookie the connection remembers to the one the request carries.
-/

namespace LocalAuthentication

open ByteStrings KeyedTables HttpMessages HostEnvironment WebText LocalAccounts ModAccess Sessions

/-- The request's own cookie is a token issued to this user. -/
def TokenIssued (h : Host) (r : Request) (u : LocalUser) : Prop :=
  ∃ token, ownToken r = some token ∧ h.users.authToken token = some u

/-- The stored hash of this account is the hash of this password. -/
def PasswordMatches (h : Host) (username password : Text) : Prop :=
  ∃ row, h.users.db.lookup username = some row ∧
    row.hashedPassword = LocalUser.hashPassword h.crypto h.config password

/-- The request's Basic header has this user's name and password. -/
def PasswordProved (h : Host) (r : Request) (u : LocalUser) : Prop :=
  ∃ password, basicCredentials h.crypto r.fields = some (u.username, password) ∧
    PasswordMatches h u.username password

/-- Whoever local authentication finds has proved to be that user. -/
def Authenticates (h : Host) (s : Session) : Prop :=
  ∀ u, (findUserLocal h s).1 = some u → TokenIssued h s.req u ∨ PasswordProved h s.req u

/-- The user the request's own cookie belongs to. -/
def tokenUser (h : Host) (r : Request) : Option LocalUser :=
  (ownToken r).bind h.users.authToken

theorem tokenIssued_iff {h : Host} {r : Request} {u : LocalUser} :
    TokenIssued h r u ↔ tokenUser h r = some u := by
  simp [TokenIssued, tokenUser, Option.bind_eq_some_iff]

/-- With a remembered cookie: it is unknown, or its user is proved by the request
itself. Without one: the Basic header names no account, or the password is right, or
the account is the one the request's own cookie belongs to. -/
def Vouched (h : Host) (s : Session) : Prop :=
  match s.heldToken with
  | some token =>
    h.users.authToken token = none ∨ h.users.authToken token = tokenUser h s.req ∨
      ∃ u, h.users.authToken token = some u ∧ PasswordProved h s.req u
  | none => ∀ username password,
    basicCredentials h.crypto s.req.fields = some (username, password) →
      h.users.Exists username →
        PasswordMatches h username password ∨
          tokenUser h s.req = (h.users.getUser username).1

theorem vouched_of_token {h : Host} {s : Session} {token : Text}
    (held : s.heldToken = some token) : Authenticates h s ↔ Vouched h s := by
  simp only [Authenticates, Vouched, findUserLocal_user, localAccount, held]
  constructor
  · intro proved
    cases hu : h.users.authToken token with
    | none => exact Or.inl rfl
    | some u =>
      rcases proved u hu with issued | password
      · exact Or.inr (Or.inl (tokenIssued_iff.mp issued).symm)
      · exact Or.inr (Or.inr ⟨u, rfl, password⟩)
  · rintro (unknown | same | ⟨v, hv, password⟩) u hu
    · rw [unknown] at hu
      cases hu
    · exact Or.inl (tokenIssued_iff.mpr (same ▸ hu))
    · rw [hv] at hu
      cases hu
      exact Or.inr password

theorem vouched_of_no_token {h : Host} {s : Session} (held : s.heldToken = none) :
    Authenticates h s ↔ Vouched h s := by
  simp only [Authenticates, Vouched, findUserLocal_user, localAccount, held]
  cases basic : basicCredentials h.crypto s.req.fields with
  | none => simp
  | some creds =>
    obtain ⟨username, password⟩ := creds
    constructor
    · intro proved name pass hcreds present
      cases hcreds
      obtain ⟨u, hu⟩ := (LocalUsers.exists_iff_getUser h.users username).mp present
      rcases proved u hu with issued | ⟨pass, hpass, hmatch⟩
      · exact Or.inr ((tokenIssued_iff.mp issued).trans hu.symm)
      · rw [basic] at hpass
        cases hpass
        exact Or.inl hmatch
    · intro condition u hu
      have name : u.username = username := LocalUsers.getUser_username hu
      have present : h.users.Exists username :=
        (LocalUsers.exists_iff_getUser h.users username).mpr ⟨u, hu⟩
      rcases condition username password rfl present with hmatch | same
      · exact Or.inr ⟨password, by rw [basic, name], by rw [name]; exact hmatch⟩
      · exact Or.inl (tokenIssued_iff.mpr (same.trans hu))

/-- Local authentication is sound exactly where the credentials vouch for the user. -/
theorem authenticates_iff (h : Host) (s : Session) : Authenticates h s ↔ Vouched h s := by
  cases held : s.heldToken with
  | some token => exact vouched_of_token held
  | none => exact vouched_of_no_token held

/-- On the first request of a connection only a Basic header can go wrong. -/
theorem accept_vouched_iff (h : Host) (r : Request) :
    Vouched h (Session.accept r) ↔
      (ownToken r = none → ∀ username password,
        basicCredentials h.crypto r.fields = some (username, password) →
          h.users.Exists username → PasswordMatches h username password) := by
  simp only [Vouched, heldToken_accept, tokenUser]
  cases own : ownToken r with
  | some token => simp [Session.accept, own]
  | none =>
    simp only [Session.accept, own, Option.bind_none, forall_const]
    constructor
    · intro condition username password basic present
      rcases condition username password basic present with hmatch | same
      · exact hmatch
      · have found := (LocalUsers.getUser_isSome_iff h.users username).mpr present
        rw [← same] at found
        cases found
    · exact fun condition username password basic present =>
        Or.inl (condition username password basic present)

/-- `alice:wrong` -/
def wrongPassword : Request where
  method := .get
  target := "/portal"
  fields := [("Authorization", "Basic YWxpY2U6d3Jvbmc=")]
  body := []

/-- A wrong password logs `alice` in. -/
theorem wrong_password_accepted : ¬ Authenticates demoHost (Session.accept wrongPassword) := by
  have credentials : basicCredentials demoHost.crypto wrongPassword.fields =
      some (lit "alice", lit "wrong") := by decide
  have found : ((findUserLocal demoHost (Session.accept wrongPassword)).1.map
      LocalUser.username) = some (lit "alice") := by decide
  obtain ⟨u, hu, _⟩ := Option.map_eq_some_iff.mp found
  intro proved
  rcases proved u hu with ⟨token, htoken, _⟩ | ⟨password, basic, row, hrow, hash⟩
  · have absent : ownToken wrongPassword = none := by decide
    rw [Session.accept, absent] at htoken
    cases htoken
  · rw [Session.accept, credentials] at basic
    obtain ⟨name, pass⟩ := Prod.mk.inj (Option.some.inj basic)
    rw [← name] at hrow
    rw [← pass] at hash
    have different : ((demoHost.users.db.lookup (lit "alice")).map fun row =>
        decide (row.hashedPassword =
          LocalUser.hashPassword demoHost.crypto demoHost.config (lit "wrong"))) =
        some false := by decide
    rw [hrow] at different
    simp [hash] at different

end LocalAuthentication
