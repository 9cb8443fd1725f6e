import Fiy.GuardedRuns
import Fiy.LocalAccounts

/-!
# The life of a session token

Runs of the operations on `LocalUsers`, one after another, at any clock and with any
strings from the generator. The token cache is compared with the history of the run:
a token is worth what the last login that issued it made it, unless something has
ended it since.
-/

namespace SessionTokens

open ByteStrings KeyedTables HostEnvironment LocalAccounts LocalAccounts.LocalUsers GuardedRuns

inductive Op
  | addUser (user : LocalUser) (password : Text)
  | login (username password : Text) (generated : List Text)
  | auth (token : Text)
  | deauth (token : Text)
  | delete (username : Text)
  | cron
  deriving DecidableEq, Repr

structure Event where
  now : Int
  op : Op
  deriving DecidableEq, Repr

section runs
variable (c : Crypto) (cfg : Config)

/-- What an operation leaves; a login that draws no free string does not return. -/
def next (us : LocalUsers) (e : Event) : Option LocalUsers :=
  match e.op with
  | .addUser user password => some (us.addUser c cfg user password).2
  | .login username password generated =>
    (us.loginUser c cfg e.now username password generated).map Prod.snd
  | .auth _ => some us
  | .deauth token => some (us.deauthToken token)
  | .delete username => some (us.deleteUser username)
  | .cron => some (us.cron e.now)

abbrev Step (us : LocalUsers) (e : Event) (us' : LocalUsers) : Prop :=
  next c cfg us e = some us'

/-- The password is the one stored for the account. -/
def Matches (us : LocalUsers) (username password : Text) : Prop :=
  ∃ row, us.db.lookup username = some row ∧
    LocalUser.checkPasswordHash c cfg password row.hashedPassword = true

/-- The event is a login of this account that succeeds and returns this token. -/
def Issues (us : LocalUsers) (e : Event) (token username : Text) : Prop :=
  ∃ password generated issued us', e.op = .login username password generated ∧
    Matches c cfg us username password ∧
    us.loginUser c cfg e.now username password generated = some (issued, us') ∧
    issued.user.isSome = true ∧ issued.token = token

/-- The event ends a token of this account that is good until `expiration`. -/
def Ends (token username : Text) (expiration : Int) (e : Event) : Prop :=
  match e.op with
  | .deauth t => t = token
  | .delete u => u = username
  | .cron => expiration < e.now
  | _ => False

/-- Neither does the event end the token nor is the token issued anew. -/
def Keeps (token username : Text) (expiration : Int) (us : LocalUsers) (e : Event) : Prop :=
  ¬ Ends token username expiration e ∧ ∀ u, ¬ Issues c cfg us e token u

/-- A server that has just been started. -/
def start (db : Table Text UserRow) : LocalUsers := { LocalUsers.empty with db }

/-- The last event that issued the token was a login of this account, and since then the
token was kept. -/
def Live (first : LocalUsers) (es : List Event) (last : LocalUsers)
    (token username : Text) : Prop :=
  ∃ before e after us us', es = before ++ e :: after ∧ Run (Step c cfg) first before us ∧
    Issues c cfg us e token username ∧ Step c cfg us e us' ∧
    Run (Restrict (Step c cfg) (Keeps c cfg token username (e.now + AuthToken.sessionLifetime)))
      us' after last

end runs

/-! ## One step -/

/-- The cache holds the token, for this account and until this time. -/
def Holds (us : LocalUsers) (token username : Text) (expiration : Int) : Prop :=
  ∃ grant, us.tokenCache.lookup token = some grant ∧ grant.user.username = username ∧
    grant.expiration = expiration

/-- Accounts in the caches have a row. -/
structure Backed (us : LocalUsers) : Prop where
  cached : ∀ name ∈ us.usernameCache, name ∈ us.db
  granted : ∀ token grant, us.tokenCache.lookup token = some grant →
    grant.user.username ∈ us.db

theorem backed_start (db : Table Text UserRow) : Backed (start db) where
  cached := by
    intro name h
    exact absurd h (AList.notMem_empty name)
  granted := by
    intro token grant h
    cases h

section backed
variable {us : LocalUsers}

/-- A row that is there may be cached. -/
theorem Backed.cacheUser (backed : Backed us) {username : Text} (listed : username ∈ us.db)
    (row : UserRow) : Backed (us.cacheUser username row) := by
  refine ⟨?_, backed.granted⟩
  intro name cached
  rcases (AList.mem_insert _).mp cached with rfl | cached
  · exact listed
  · exact backed.cached name cached

/-- A lookup caches rows of the table only. -/
theorem Backed.getUser (backed : Backed us) (username : Text) :
    Backed (us.getUser username).2 := by
  simp only [LocalUsers.getUser]
  split
  · exact backed
  · split
    · exact backed
    · rename_i row found
      exact backed.cacheUser (AList.lookup_isSome.mp (by simp [found])) row

theorem Backed.addUser (backed : Backed us) (c : Crypto) (cfg : Config) (user : LocalUser)
    (password : Text) : Backed (us.addUser c cfg user password).2 := by
  simp only [LocalUsers.addUser]
  by_cases listed : user.username ∈ us.db
  · rw [emplace_of_mem listed]
    exact backed
  · rw [emplace_of_notMem listed]
    constructor
    · intro name cached
      exact (AList.mem_insert _).mpr (Or.inr (backed.cached name cached))
    · intro token grant found
      exact (AList.mem_insert _).mpr (Or.inr (backed.granted token grant found))

/-- A token may be issued to an account that has a row. -/
theorem Backed.issue (backed : Backed us) {user : LocalUser} (listed : user.username ∈ us.db)
    (token : Text) (expiration : Int) :
    Backed { us with tokenCache := us.tokenCache.insert token ⟨user, expiration⟩ } := by
  refine ⟨backed.cached, ?_⟩
  intro t grant held
  simp only [lookup_insert_eq] at held
  split at held
  · cases held
    exact listed
  · exact backed.granted t grant held

theorem Backed.deauthToken (backed : Backed us) (token : Text) :
    Backed (us.deauthToken token) := by
  refine ⟨backed.cached, ?_⟩
  intro t grant held
  simp only [LocalUsers.deauthToken, lookup_erase_eq] at held
  split at held
  · cases held
  · exact backed.granted t grant held

theorem Backed.cron (backed : Backed us) (now : Int) : Backed (us.cron now) := by
  refine ⟨backed.cached, ?_⟩
  intro t grant held
  simp only [LocalUsers.cron, lookup_eraseIf, Option.filter_eq_some_iff] at held
  exact backed.granted t grant held.1

/-- Neither cache has anything of the account. -/
structure Cleared (us : LocalUsers) (username : Text) : Prop where
  uncached : username ∉ us.usernameCache
  tokens : ∀ token grant, us.tokenCache.lookup token = some grant →
    grant.user.username ≠ username

theorem cleared_forget (us : LocalUsers) (username : Text) :
    Cleared (us.forget username) username := by
  constructor
  · simp [LocalUsers.forget]
  · intro token grant held
    simp only [LocalUsers.forget, lookup_eraseIf, Option.filter_eq_some_iff] at held
    simpa using held.2

theorem Backed.forget (backed : Backed us) (username : Text) :
    Backed (us.forget username) := by
  constructor
  · intro name cached
    exact backed.cached name (AList.mem_erase.mp cached).2
  · intro t grant held
    simp only [LocalUsers.forget, lookup_eraseIf, Option.filter_eq_some_iff] at held
    exact backed.granted t grant held.1

/-- The row may go once the caches are cleared. -/
theorem Backed.eraseRow (backed : Backed us) {username : Text} (cleared : Cleared us username) :
    Backed (us.eraseRow username) := by
  constructor
  · intro name cached
    have other : name ≠ username := fun same => cleared.uncached (same ▸ cached)
    exact AList.mem_erase.mpr ⟨other, backed.cached name cached⟩
  · intro t grant held
    exact AList.mem_erase.mpr ⟨cleared.tokens t grant held, backed.granted t grant held⟩

theorem Backed.listed (backed : Backed us) {username : Text} (present : us.Exists username) :
    username ∈ us.db :=
  present.elim (backed.cached username) id

end backed

section steps
variable {c : Crypto} {cfg : Config} {us us' : LocalUsers}

/-- Everything a login can do: nothing but a lookup, or the issue of a token that was
not in use. -/
theorem loginUser_cases {now : Int} {username password : Text} {generated : List Text}
    {issued : AuthToken}
    (h : us.loginUser c cfg now username password generated = some (issued, us')) :
    issued = {} ∧ us' = (us.getUser username).2 ∨
    ∃ user token, (us.getUser username).1 = some user ∧
      authPassword c cfg us username password = 0 ∧ token ∉ us.tokenCache ∧
      issued = ⟨some user, token, now + AuthToken.sessionLifetime⟩ ∧
      us' = { (us.getUser username).2 with
        tokenCache := us.tokenCache.insert token ⟨user, now + AuthToken.sessionLifetime⟩ } := by
  obtain ⟨tokens, rows⟩ := us.getUser_frame username
  rcases hget : us.getUser username with ⟨found, looked⟩
  simp only [hget] at tokens rows
  simp only [loginUser, hget] at h
  cases found with
  | none =>
    cases h
    exact Or.inl ⟨rfl, rfl⟩
  | some user =>
    simp only at h
    split at h
    · cases h
      exact Or.inl ⟨rfl, rfl⟩
    · rename_i right
      obtain ⟨token, drawn, heq⟩ := Option.map_eq_some_iff.mp h
      have free : token ∉ us.tokenCache := by
        rw [← tokens]
        simpa using List.find?_some drawn
      cases heq
      refine Or.inr ⟨user, token, rfl, ?_, free, rfl, by rw [tokens]⟩
      simpa [authPassword, rows] using right

theorem Issues.fresh {e : Event} {token username : Text}
    (issue : Issues c cfg us e token username) : token ∉ us.tokenCache := by
  obtain ⟨password, generated, issued, us', -, -, login, some, rfl⟩ := issue
  rcases loginUser_cases login with ⟨rfl, -⟩ | ⟨user, token, -, -, free, rfl, -⟩
  · cases some
  · exact free

/-- A password that is not refused is the one in the row. -/
theorem Backed.matches (backed : Backed us) {username password : Text}
    (present : (us.getUser username).1.isSome = true)
    (right : authPassword c cfg us username password = 0) :
    Matches c cfg us username password := by
  have listed := backed.listed ((us.getUser_isSome_iff username).mp present)
  obtain ⟨row, found⟩ := Option.isSome_iff_exists.mp (AList.lookup_isSome.mpr listed)
  refine ⟨row, found, ?_⟩
  simpa [authPassword, found] using right

/-- Operations keep the caches within the table. -/
theorem Backed.next {e : Event} (backed : Backed us)
    (h : SessionTokens.next c cfg us e = some us') : Backed us' := by
  rcases e with ⟨now, op⟩
  cases op with
  | addUser user password =>
    cases h
    exact backed.addUser c cfg user password
  | login username password generated =>
    obtain ⟨⟨issued, last⟩, login, rfl⟩ := Option.map_eq_some_iff.mp h
    have looked := backed.getUser username
    obtain ⟨tokens, rows⟩ := us.getUser_frame username
    rcases loginUser_cases login with ⟨-, rfl⟩ | ⟨user, token, found, -, -, -, rfl⟩
    · exact looked
    · have listed : user.username ∈ (us.getUser username).2.db := by
        rw [rows, getUser_username found]
        exact backed.listed ((us.exists_iff_getUser username).mpr ⟨user, found⟩)
      rw [← tokens]
      exact looked.issue listed token _
  | auth token =>
    cases h
    exact backed
  | deauth token =>
    cases h
    exact backed.deauthToken token
  | delete username =>
    cases h
    have looked := backed.getUser username
    simp only [deleteUser]
    split
    · rename_i mid hget
      simpa [hget] using looked
    · rename_i user mid hget
      rw [hget] at looked
      exact (looked.forget username).eraseRow (cleared_forget mid username)
  | cron =>
    cases h
    exact backed.cron now

theorem Holds.mem {token username : Text} {expiration : Int}
    (held : Holds us token username expiration) : token ∈ us.tokenCache := by
  obtain ⟨grant, found, -, -⟩ := held
  exact AList.lookup_isSome.mp (by simp [found])

/-- Filtering the token cache by what only depends on the account and the time. -/
theorem holds_eraseIf {us us' : LocalUsers} (gone : Text → Int → Bool)
    (filtered : us'.tokenCache =
      eraseIf (fun _ grant => gone grant.user.username grant.expiration) us.tokenCache)
    (token username : Text) (expiration : Int) :
    Holds us' token username expiration ↔
      Holds us token username expiration ∧ gone username expiration = false := by
  simp only [Holds, filtered, lookup_eraseIf, Option.filter_eq_some_iff]
  constructor
  · rintro ⟨grant, ⟨found, kept⟩, rfl, rfl⟩
    exact ⟨⟨grant, found, rfl, rfl⟩, by simpa using kept⟩
  · rintro ⟨⟨grant, found, rfl, rfl⟩, kept⟩
    exact ⟨grant, ⟨found, by simp [kept]⟩, rfl, rfl⟩

theorem holds_congr {us us' : LocalUsers} (same : us'.tokenCache = us.tokenCache)
    (token username : Text) (expiration : Int) :
    Holds us' token username expiration ↔ Holds us token username expiration := by
  simp only [Holds, same]

/-- Only a login issues tokens. -/
theorem not_issues {e : Event} (other : ∀ u p g, e.op ≠ .login u p g) (token username : Text) :
    ¬ Issues c cfg us e token username := by
  rintro ⟨password, generated, issued, us', op, -⟩
  exact other _ _ _ op

/-- A login that returns this token issues it. -/
theorem issues_login_iff {now : Int} {username password : Text} {generated : List Text}
    {issued : AuthToken} (backed : Backed us)
    (login : us.loginUser c cfg now username password generated = some (issued, us'))
    (token account : Text) :
    Issues c cfg us ⟨now, .login username password generated⟩ token account ↔
      account = username ∧ issued.user.isSome = true ∧ issued.token = token := by
  constructor
  · rintro ⟨p, g, issued', us'', op, -, login', some, rfl⟩
    cases op
    rw [login] at login'
    cases login'
    exact ⟨rfl, some, rfl⟩
  · rintro ⟨rfl, some, rfl⟩
    refine ⟨password, generated, issued, us', rfl, ?_, login, some, rfl⟩
    rcases loginUser_cases login with ⟨rfl, -⟩ | ⟨user, t, found, right, -⟩
    · cases some
    · exact backed.matches (by simp [found]) right

/-- A deletion ends the tokens of the account and no others. -/
theorem holds_deleteUser_iff (backed : Backed us) (account token username : Text)
    (expiration : Int) :
    Holds (us.deleteUser account) token username expiration ↔
      Holds us token username expiration ∧ account ≠ username := by
  obtain ⟨tokens, rows⟩ := us.getUser_frame account
  have exist := us.getUser_isSome_iff account
  rcases hget : us.getUser account with ⟨found, mid⟩
  simp only [hget] at tokens rows exist
  rw [← holds_congr tokens]
  cases found with
  | none =>
    -- without an account there is no token of it either
    have unlisted : account ∉ us.db := fun listed => by
      simpa using exist.mpr (Or.inr listed)
    have other : Holds mid token username expiration → account ≠ username := by
      rw [holds_congr tokens]
      rintro ⟨grant, held, rfl, -⟩ rfl
      exact unlisted (backed.granted token grant held)
    simp only [deleteUser, hget]
    exact ⟨fun held => ⟨held, other held⟩, And.left⟩
  | some user =>
    have filtered : (us.deleteUser account).tokenCache =
        eraseIf (fun _ grant => decide (grant.user.username = account)) mid.tokenCache := by
      simp [deleteUser, hget, forget, eraseRow]
    rw [holds_eraseIf (fun u _ => decide (u = account)) filtered]
    simp [eq_comm]

/-- After any step a token is held because this step issued it, or because it was held
before and the step did not end it. -/
theorem holds_next_iff {e : Event} (backed : Backed us)
    (h : SessionTokens.next c cfg us e = some us') (token username : Text) (expiration : Int) :
    Holds us' token username expiration ↔
      (Issues c cfg us e token username ∧ expiration = e.now + AuthToken.sessionLifetime) ∨
      (Holds us token username expiration ∧ ¬ Ends token username expiration e) := by
  rcases e with ⟨now, op⟩
  cases op with
  | addUser user password =>
    cases h
    have same : (us.addUser c cfg user password).2.tokenCache = us.tokenCache := by
      simp [LocalUsers.addUser]
    simp [holds_congr same, not_issues, Ends]
  | login account password generated =>
    obtain ⟨⟨issued, last⟩, login, rfl⟩ := Option.map_eq_some_iff.mp h
    have tokens := (us.getUser_frame account).1
    rw [issues_login_iff backed login]
    rcases loginUser_cases login with ⟨rfl, rfl⟩ | ⟨user, t, found, -, free, rfl, rfl⟩
    · simp [holds_congr tokens, Ends]
    · have named := getUser_username found
      by_cases ht : token = t
      · subst ht
        have unheld : ¬ Holds us token username expiration := fun held => free held.mem
        have granted : Holds { (us.getUser account).2 with
            tokenCache := us.tokenCache.insert token ⟨user, now + AuthToken.sessionLifetime⟩ }
            token username expiration ↔
              account = username ∧ now + AuthToken.sessionLifetime = expiration := by
          simp [Holds, named]
        rw [granted]
        simp [unheld, eq_comm]
      · simp [Holds, ht, Ne.symm ht, Ends]
  | auth t =>
    cases h
    simp [not_issues, Ends]
  | deauth t =>
    cases h
    simp only [not_issues, ne_eq, reduceCtorEq, not_false_eq_true, implies_true, false_and,
      false_or]
    by_cases ht : token = t
    · simp [Holds, deauthToken, lookup_erase_eq, ht, Ends]
    · simp [Holds, deauthToken, ht, Ne.symm ht, Ends]
  | delete account =>
    cases h
    simp only [not_issues, ne_eq, reduceCtorEq, not_false_eq_true, implies_true, false_and,
      false_or, Ends]
    exact holds_deleteUser_iff backed account token username expiration
  | cron =>
    cases h
    simp only [not_issues, ne_eq, reduceCtorEq, not_false_eq_true, implies_true, false_and,
      false_or, Ends]
    rw [holds_eraseIf (fun _ exp => decide (exp < now)) rfl]
    simp

end steps

/-! ## Whole runs -/

section runs
variable {c : Crypto} {cfg : Config}

/-- A token was held for one of two reasons: it was so from the start and kept, or it was
issued on the way and kept since. -/
theorem holds_run_iff {first last : LocalUsers} {es : List Event} (backed : Backed first)
    (run : Run (Step c cfg) first es last) (token username : Text) (expiration : Int) :
    Holds last token username expiration ↔
      (Holds first token username expiration ∧
        Run (Restrict (Step c cfg) (Keeps c cfg token username expiration)) first es last) ∨
      ∃ before e after us us', es = before ++ e :: after ∧ Run (Step c cfg) first before us ∧
        Issues c cfg us e token username ∧ Step c cfg us e us' ∧
        expiration = e.now + AuthToken.sessionLifetime ∧
        Run (Restrict (Step c cfg) (Keeps c cfg token username expiration)) us' after last := by
  induction run with
  | refl s =>
    simp only [List.nil_eq, List.append_eq_nil_iff, reduceCtorEq, and_false, false_and,
      exists_false, or_false]
    exact ⟨fun held => ⟨held, .refl s⟩, And.left⟩
  | @cons first mid last e es step run ih =>
    have one := holds_next_iff backed step token username expiration
    constructor
    · intro held
      rcases (ih (backed.next step)).mp held with
        ⟨heldMid, kept⟩ | ⟨before, x, after, us, us', rfl, upto, issue, at_, exp, kept⟩
      · rcases one.mp heldMid with ⟨issue, exp⟩ | ⟨heldFirst, going⟩
        · exact Or.inr ⟨[], e, es, first, mid, rfl, .refl first, issue, step, exp, kept⟩
        · have keeps : Keeps c cfg token username expiration first e :=
            ⟨going, fun u issue => issue.fresh heldFirst.mem⟩
          exact Or.inl ⟨heldFirst, .cons ⟨step, keeps⟩ kept⟩
      · exact Or.inr ⟨e :: before, x, after, us, us', rfl, .cons step upto, issue, at_, exp, kept⟩
    · rintro (⟨heldFirst, kept⟩ | ⟨before, x, after, us, us', split, upto, issue, at_, exp, kept⟩)
      · cases kept with
        | @cons _ mid' _ _ _ guarded rest =>
          have same : mid' = mid := Option.some.inj (guarded.1.symm.trans step)
          subst same
          have heldMid := one.mpr (Or.inr ⟨heldFirst, guarded.2.1⟩)
          exact (ih (backed.next step)).mpr (Or.inl ⟨heldMid, rest⟩)
      · cases upto with
        | refl =>
          obtain ⟨rfl, rfl⟩ : e = x ∧ es = after := by simpa using split
          have same : us' = mid := Option.some.inj (at_.symm.trans step)
          subst same
          exact (ih (backed.next step)).mpr (Or.inl ⟨one.mpr (Or.inl ⟨issue, exp⟩), kept⟩)
        | @cons _ mid' _ y before step' upto =>
          obtain ⟨rfl, rfl⟩ : e = y ∧ es = before ++ x :: after := by simpa using split
          have same : mid' = mid := Option.some.inj (step'.symm.trans step)
          subst same
          exact (ih (backed.next step)).mpr
            (Or.inr ⟨before, x, after, us, us', rfl, upto, issue, at_, exp, kept⟩)

/-- A token is answered with the account that holds it. -/
theorem authToken_eq_some_iff (us : LocalUsers) (token username : Text) :
    (us.authToken token).map LocalUser.username = some username ↔
      ∃ expiration, Holds us token username expiration := by
  simp only [authToken, Holds, Option.map_eq_some_iff]
  constructor
  · rintro ⟨user, ⟨grant, found, rfl⟩, rfl⟩
    exact ⟨grant.expiration, grant, found, rfl, rfl⟩
  · rintro ⟨expiration, grant, found, rfl, -⟩
    exact ⟨grant.user, ⟨grant, found, rfl⟩, rfl⟩

/-- In every run, a token is worth the account whose login issued it last, if nothing has
ended it since; and no login issues a token that is worth anything. -/
theorem authToken_iff_live {db : Table Text UserRow} {es : List Event} {us : LocalUsers}
    (run : Run (Step c cfg) (start db) es us) (token : Text) :
    (∀ username, (us.authToken token).map LocalUser.username = some username ↔
      Live c cfg (start db) es us token username) ∧
    ∀ e username, Issues c cfg us e token username → us.authToken token = none := by
  constructor
  · intro username
    have unheld : ∀ expiration, ¬ Holds (start db) token username expiration :=
      fun _ held => absurd held.mem (AList.notMem_empty token)
    simp only [authToken_eq_some_iff, holds_run_iff (backed_start db) run, unheld, false_and,
      false_or, Live]
    constructor
    · rintro ⟨expiration, before, e, after, us, us', split, upto, issue, step, rfl, kept⟩
      exact ⟨before, e, after, us, us', split, upto, issue, step, kept⟩
    · rintro ⟨before, e, after, us, us', split, upto, issue, step, kept⟩
      exact ⟨_, before, e, after, us, us', split, upto, issue, step, rfl, kept⟩
  · intro e username issue
    have free := AList.lookup_eq_none.mpr issue.fresh
    simp [authToken, free]

def demoAlice : LocalUser := ⟨lit "alice", false, [], 0⟩

/-- She signs up, logs in and logs in again: the generator draws a used string first. -/
def demoRun : List Event :=
  [⟨0, .addUser demoAlice (lit "pw")⟩, ⟨1, .login (lit "alice") (lit "pw") [lit "x"]⟩,
    ⟨2, .login (lit "alice") (lit "pw") [lit "x", lit "y"]⟩, ⟨3, .deauth (lit "x")⟩]

def demoEnd : LocalUsers :=
  (runFrom (next demoCrypto (demoConfig "a.net" "k")) (start ∅) demoRun).getD (start ∅)

theorem demo_authToken_iff_live :
    Live demoCrypto (demoConfig "a.net" "k") (start ∅) demoRun demoEnd (lit "y") (lit "alice") ∧
    ∀ e username, Issues demoCrypto (demoConfig "a.net" "k") demoEnd e (lit "y") username →
      demoEnd.authToken (lit "y") = none := by
  have ends : runFrom (next demoCrypto (demoConfig "a.net" "k")) (start ∅) demoRun =
      some demoEnd := rfl
  obtain ⟨worth, fresh⟩ := authToken_iff_live (run_of_runFrom ends) (lit "y")
  exact ⟨(worth (lit "alice")).mp (by decide), fresh⟩

end runs

end SessionTokens
