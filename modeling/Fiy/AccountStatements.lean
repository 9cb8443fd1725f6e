import Fiy.StatementScripts
import Fiy.SessionTokens
import Mathlib.Data.Fintype.EquivFin

/-!
# Account calls, statement by statement

The calls of one thread on `LocalUsers`, where each use of a statement can end with an
exception. What is compared are the answers of later calls with and without a call that
failed. A name that is taken is the case where the insertion fails by itself.
-/

namespace AccountStatements

open ByteStrings KeyedTables LocalAccounts StatementScripts
open HostEnvironment hiding Fault
open SessionTokens (start)

/-- The prepared statements of `LocalUsers`, all of them with values to bind. -/
inductive Statement
  /-- of `add_user` -/
  | insertUser
  /-- of `get_user` -/
  | selectUser
  /-- of `auth_user` -/
  | selectPassword
  /-- of `delete_user` -/
  | deleteRow
  deriving DecidableEq, Repr

/-- A use of a statement ends with an exception. -/
inductive Strike
  /-- where it is prepared -/
  | preparing
  /-- where its values are bound -/
  | binding
  | inStep
  deriving DecidableEq, Repr

def Strike.fault : Strike → Fault
  | preparing => .refused
  | binding => .refused
  | inStep => .raises

/-- The statements that are struck in a call. No call uses one twice. -/
abbrev Strikes := Statement → Option Strike

def Strikes.none : Strikes := fun _ => Option.none

theorem unstruck (q : Statement) : Strikes.none q = Option.none := rfl

abbrev AccountThread := Thread Statement LocalUsers

/-! ## Statements -/

def use (q : Statement) (step : LocalUsers → Option LocalUsers) :
    Action Statement LocalUsers Unit where
  statement := q
  bound := true
  step := fun us => (step us).map fun us => (us, true)
  leave := fun _ _ => none

/-- The thread after a use of a statement, or an exception. -/
def Strikes.exec (strikes : Strikes) (q : Statement) (step : LocalUsers → Option LocalUsers)
    (th : AccountThread) : Bool × AccountThread :=
  match (use q step).run ((strikes q).map Strike.fault) th with
  | (.raised, th) => (false, th)
  | (_, th) => (true, th)

/-- A row for a name that has one violates the primary key. -/
def insertUser (c : Crypto) (cfg : Config) (user : LocalUser) (password : Text)
    (us : LocalUsers) : Option LocalUsers :=
  match us.addUser c cfg user password with
  | (true, us) => some us
  | (false, _) => none

section insertion
variable {c : Crypto} {cfg : Config} {user : LocalUser} {password : Text} {us : LocalUsers}

theorem insertUser_taken (taken : user.username ∈ us.db) :
    insertUser c cfg user password us = none := by
  rw [insertUser, LocalUsers.addUser, emplace_of_mem taken]

theorem insertUser_free (free : user.username ∉ us.db) :
    insertUser c cfg user password us = some { us with
      db := us.db.insert user.username
        ⟨user.isAdmin, LocalUser.hashPassword c cfg password, user.email, user.joinedTs⟩ } := by
  rw [insertUser, LocalUsers.addUser, emplace_of_notMem free]

end insertion

/-! ## Calls -/

/-- `add_user`. No answer is an exception. -/
def addUser (c : Crypto) (cfg : Config) (strikes : Strikes) (user : LocalUser) (password : Text)
    (th : AccountThread) : Option Bool × AccountThread :=
  match strikes.exec .insertUser (insertUser c cfg user password) th with
  | (true, th) => (some true, th)
  | (false, th) => (none, th)

/-- `get_user`. The statement is used when the name is not cached. -/
def getUser (strikes : Strikes) (username : Text) (th : AccountThread) :
    Option (Option LocalUser) × AccountThread :=
  let found (th : AccountThread) :=
    (some (th.data.getUser username).1, { th with data := (th.data.getUser username).2 })
  if username ∈ th.data.usernameCache then found th
  else match strikes.exec .selectUser some th with
    | (true, th) => found th
    | (false, th) => (none, th)

/-- `auth_user(username, password)`. The statement is prepared outside of the handler, which
turns exceptions into -1. -/
def authPassword (c : Crypto) (cfg : Config) (strikes : Strikes) (username password : Text)
    (th : AccountThread) : Option Int × AccountThread :=
  if strikes .selectPassword = some .preparing then (none, th)
  else match strikes.exec .selectPassword some th with
    | (true, th) => (some (LocalUsers.authPassword c cfg th.data username password), th)
    | (false, th) => (some (-1), th)

/-- The caches without an account. -/
def forget (username : Text) (th : AccountThread) : AccountThread :=
  { th with data := th.data.forget username }

/-- The part of `delete_user` after the account is found. The caches forget it before the
row is removed. -/
def eraseAccount (strikes : Strikes) (username : Text) (th : AccountThread) :
    Option Unit × AccountThread :=
  match strikes.exec .deleteRow (fun us => some (us.eraseRow username)) (forget username th) with
  | (true, th) => (some (), th)
  | (false, th) => (none, th)

/-- `delete_user` -/
def deleteUser (strikes : Strikes) (username : Text) (th : AccountThread) :
    Option Unit × AccountThread :=
  match getUser strikes username th with
  | (none, th) => (none, th)
  | (some none, th) => (some (), th)
  | (some (some _), th) => eraseAccount strikes username th

/-- `authorize_user`. The answer is missing while all strings that are drawn are taken. -/
def authorizeUser (user : LocalUser) (now : Int) (generated : List Text) (th : AccountThread) :
    Option AuthToken × AccountThread :=
  match th.data.authorizeUser user now generated with
  | some (token, us) => (some token, { th with data := us })
  | none => (none, th)

/-- The part of `login_user` after the account is found. -/
def loginFound (c : Crypto) (cfg : Config) (strikes : Strikes) (now : Int)
    (username password : Text) (generated : List Text) (user : LocalUser) (th : AccountThread) :
    Option (Option AuthToken) × AccountThread :=
  match authPassword c cfg strikes username password th with
  | (none, th) => (none, th)
  | (some code, th) =>
    if code ≠ 0 then (some (some {}), th)
    else
      let drawn := authorizeUser user now generated th
      (some drawn.1, drawn.2)

/-- `login_user` -/
def loginUser (c : Crypto) (cfg : Config) (strikes : Strikes) (now : Int)
    (username password : Text) (generated : List Text) (th : AccountThread) :
    Option (Option AuthToken) × AccountThread :=
  match getUser strikes username th with
  | (none, th) => (none, th)
  | (some none, th) => (some (some {}), th)
  | (some (some user), th) => loginFound c cfg strikes now username password generated user th

inductive Call
  | addUser (user : LocalUser) (password : Text)
  | getUser (username : Text)
  | authPassword (username password : Text)
  | authToken (token : Text)
  | login (now : Int) (username password : Text) (generated : List Text)
  | deauth (token : Text)
  | cron (now : Int)
  | deleteUser (username : Text)

inductive Answer
  | exception
  | added (b : Bool)
  | user (found : Option LocalUser)
  | code (n : Int)
  | token (drawn : Option AuthToken)
  | nothing
  deriving DecidableEq, Repr

/-- An answer, or an exception. -/
def answer {α : Type} (make : α → Answer) (out : Option α × AccountThread) :
    Answer × AccountThread :=
  ((out.1.map make).getD .exception, out.2)

theorem answer_exception {α : Type} {make : α → Answer} {out : Option α × AccountThread}
    (failed : (answer make out).1 = .exception) (other : ∀ a, make a ≠ .exception) :
    out.1 = none := by
  rcases out with ⟨_ | a, th⟩
  · rfl
  · exact absurd failed (other a)

def Call.run (c : Crypto) (cfg : Config) (strikes : Strikes) (th : AccountThread) :
    Call → Answer × AccountThread
  | .addUser user password =>
    answer .added (AccountStatements.addUser c cfg strikes user password th)
  | .getUser username => answer .user (AccountStatements.getUser strikes username th)
  | .authPassword username password =>
    answer .code (AccountStatements.authPassword c cfg strikes username password th)
  | .authToken token => (.user (th.data.authToken token), th)
  | .login now username password generated =>
    answer .token (loginUser c cfg strikes now username password generated th)
  | .deauth token => (.nothing, { th with data := th.data.deauthToken token })
  | .cron now => (.nothing, { th with data := th.data.cron now })
  | .deleteUser username =>
    answer (fun _ => .nothing) (AccountStatements.deleteUser strikes username th)

/-- The answers of calls in a row in which nothing is struck. -/
def answers (c : Crypto) (cfg : Config) : List Call → AccountThread → List Answer
  | [], _ => []
  | call :: calls, th =>
    let out := call.run c cfg .none th
    out.1 :: answers c cfg calls out.2

/-- A call of a run, with what is struck in it. -/
structure Event where
  call : Call
  strikes : Strikes

/-- The thread after a run. -/
def after (c : Crypto) (cfg : Config) (es : List Event) (th : AccountThread) : AccountThread :=
  es.foldl (fun th e => (e.call.run c cfg e.strikes th).2) th

/-- A thread of a server that has just been started. -/
def startThread (db : Table Text UserRow) : AccountThread := ⟨start db, fun _ => false, none⟩

/-- The statement of `auth_user` ends with an exception. -/
def AuthFailed (c : Crypto) (cfg : Config) (strikes : Strikes) (username password : Text)
    (th : AccountThread) : Prop :=
  (authPassword c cfg strikes username password th).1 = none ∨
    (authPassword c cfg strikes username password th).1 = some (-1)

/-- A statement of `login_user` does. -/
def LoginFailed (c : Crypto) (cfg : Config) (strikes : Strikes) (username password : Text)
    (th : AccountThread) : Prop :=
  (getUser strikes username th).1 = none ∨
    ((getUser strikes username th).1.join.isSome = true ∧
      AuthFailed c cfg strikes username password (getUser strikes username th).2)

/-- A statement that the call uses does, for whatever reason. -/
def Failed (c : Crypto) (cfg : Config) (strikes : Strikes) (th : AccountThread) : Call → Prop
  | .authPassword username password => AuthFailed c cfg strikes username password th
  | .login _ username password _ => LoginFailed c cfg strikes username password th
  | call => (call.run c cfg strikes th).1 = .exception

/-- No later calls have an answer that they would not have without this call. -/
def Invisible (c : Crypto) (cfg : Config) (strikes : Strikes) (call : Call)
    (th : AccountThread) : Prop :=
  ∀ later, answers c cfg later (call.run c cfg strikes th).2 = answers c cfg later th

/-- Each call of the run that fails is invisible to whatever calls come after it. -/
def FailuresInvisible (c : Crypto) (cfg : Config) (db : Table Text UserRow) (es : List Event) :
    Prop :=
  ∀ pre e post, es = pre ++ e :: post →
    Failed c cfg e.strikes (after c cfg pre (startThread db)) e.call →
      Invisible c cfg e.strikes e.call (after c cfg pre (startThread db))

/-! ## Harmless failures -/

/-- `get_user` comes to its statement. -/
def Selects (us : LocalUsers) (username : Text) : Prop := username ∉ us.usernameCache

/-- A statement of `get_user` is not struck in its step. -/
def SelectHarmless (us : LocalUsers) (strikes : Strikes) (username : Text) : Prop :=
  Selects us username → strikes .selectUser ≠ some .inStep

/-- `get_user` has an account to give. -/
def Reaches (us : LocalUsers) (strikes : Strikes) (username : Text) : Prop :=
  us.Exists username ∧ (Selects us username → strikes .selectUser = none)

/-- No statement of the call fails in its step, and no row stays whose account has lost its
tokens. -/
def Harmless (us : LocalUsers) (strikes : Strikes) : Call → Prop
  | .addUser user _ =>
    strikes .insertUser ≠ some .inStep ∧ (strikes .insertUser = none → user.username ∉ us.db)
  | .getUser username => SelectHarmless us strikes username
  | .authPassword _ _ => strikes .selectPassword ≠ some .inStep
  | .login _ username _ _ => SelectHarmless us strikes username ∧
    (Reaches us strikes username → strikes .selectPassword ≠ some .inStep)
  | .deleteUser username => SelectHarmless us strikes username ∧
    (Reaches us strikes username → strikes .deleteRow ≠ some .inStep ∧
      (strikes .deleteRow ≠ none →
        ∀ token grant, us.tokenCache.lookup token = some grant → grant.user.username ≠ username))
  | _ => True

/-! ## Uses of statements -/

/-- The statement is left without a reset. -/
def spoil (q : Statement) (th : AccountThread) : AccountThread :=
  { th with rejects := Function.update th.rejects q true }

@[simp]
theorem spoil_self (q : Statement) (th : AccountThread) : (spoil q th).rejects q = true := by
  simp [spoil]

theorem spoil_other {q q' : Statement} {th : AccountThread} (other : q' ≠ q) :
    (spoil q th).rejects q' = th.rejects q' := Function.update_of_ne other _ _

section uses
variable {strikes : Strikes} {q : Statement} {f : LocalUsers → Option LocalUsers}
  {t : AccountThread} {us : LocalUsers}

theorem exec_rejected (rejected : t.rejects q = true) : strikes.exec q f t = (false, t) := by
  simp [Strikes.exec, Action.run, use, rejected]

theorem exec_early (struck : strikes q ≠ none) (early : strikes q ≠ some .inStep) :
    strikes.exec q f t = (false, t) := by
  cases rejected : t.rejects q with
  | true => exact exec_rejected rejected
  | false =>
    cases strike : strikes q with
    | none => exact absurd strike struck
    | some place =>
      cases place with
      | inStep => exact absurd strike early
      | preparing => simp [Strikes.exec, Action.run, use, rejected, strike, Strike.fault]
      | binding => simp [Strikes.exec, Action.run, use, rejected, strike, Strike.fault]

theorem exec_inStep (usable : t.rejects q = false) (struck : strikes q = some .inStep) :
    strikes.exec q f t = (false, spoil q t) := by
  simp [Strikes.exec, Action.run, use, usable, struck, Strike.fault, Action.reject, spoil]

theorem exec_violation (usable : t.rejects q = false) (unstruck : strikes q = none)
    (violation : f t.data = none) : strikes.exec q f t = (false, spoil q t) := by
  simp [Strikes.exec, Action.run, use, usable, unstruck, violation, Action.reject, spoil]

theorem exec_done (usable : t.rejects q = false) (unstruck : strikes q = none)
    (done : f t.data = some us) : strikes.exec q f t = (true, { t with data := us }) := by
  simp [Strikes.exec, Action.run, use, usable, unstruck, done, Action.afterStep]

end uses

/-! ## One call -/

section calls
variable {strikes : Strikes} {username : Text} {t : AccountThread}

/-- `get_user` as it is without statements. -/
def found (username : Text) (t : AccountThread) : Option (Option LocalUser) × AccountThread :=
  (some (t.data.getUser username).1, { t with data := (t.data.getUser username).2 })

theorem getUser_goes (usable : t.rejects .selectUser = false)
    (unstruck : Selects t.data username → strikes .selectUser = none) :
    getUser strikes username t = found username t := by
  by_cases cached : username ∈ t.data.usernameCache
  · simp [getUser, cached, found]
  · simp [getUser, cached, exec_done usable (unstruck cached) rfl, found]

theorem getUser_early (selects : Selects t.data username) (struck : strikes .selectUser ≠ none)
    (early : strikes .selectUser ≠ some .inStep) : getUser strikes username t = (none, t) := by
  simp [getUser, show username ∉ t.data.usernameCache from selects, exec_early struck early]

theorem getUser_inStep (usable : t.rejects .selectUser = false)
    (selects : Selects t.data username) (struck : strikes .selectUser = some .inStep) :
    getUser strikes username t = (none, spoil .selectUser t) := by
  simp [getUser, show username ∉ t.data.usernameCache from selects, exec_inStep usable struck]

theorem getUser_rejected (rejected : t.rejects .selectUser = true)
    (selects : Selects t.data username) : getUser strikes username t = (none, t) := by
  simp [getUser, show username ∉ t.data.usernameCache from selects, exec_rejected rejected]

section password
variable (c : Crypto) (cfg : Config) {password : Text}

theorem authPassword_done (usable : t.rejects .selectPassword = false)
    (unstruck : strikes .selectPassword = none) :
    authPassword c cfg strikes username password t =
      (some (LocalUsers.authPassword c cfg t.data username password), t) := by
  simp [authPassword, unstruck, exec_done (f := some) usable unstruck rfl]

theorem authPassword_rejected (rejected : t.rejects .selectPassword = true)
    (prepared : strikes .selectPassword ≠ some .preparing) :
    authPassword c cfg strikes username password t = (some (-1), t) := by
  simp [authPassword, prepared, exec_rejected rejected]

theorem authPassword_early (struck : strikes .selectPassword ≠ none)
    (early : strikes .selectPassword ≠ some .inStep) :
    ∃ out, authPassword c cfg strikes username password t = (out, t) := by
  rw [authPassword, exec_early struck early]
  split
  · exact ⟨none, rfl⟩
  · exact ⟨some (-1), rfl⟩

theorem authPassword_inStep (usable : t.rejects .selectPassword = false)
    (struck : strikes .selectPassword = some .inStep) :
    authPassword c cfg strikes username password t =
      (some (-1), spoil .selectPassword t) := by
  simp [authPassword, struck, exec_inStep usable struck]

end password

/-- What is left of the account when its row is not removed. -/
theorem eraseAccount_rejected (rejected : t.rejects .deleteRow = true) :
    eraseAccount strikes username t = (none, forget username t) := by
  simp only [eraseAccount, exec_rejected (t := forget username t) rejected]

theorem eraseAccount_early (struck : strikes .deleteRow ≠ none)
    (early : strikes .deleteRow ≠ some .inStep) :
    eraseAccount strikes username t = (none, forget username t) := by
  simp only [eraseAccount, exec_early struck early]

theorem eraseAccount_inStep (usable : t.rejects .deleteRow = false)
    (struck : strikes .deleteRow = some .inStep) :
    eraseAccount strikes username t = (none, spoil .deleteRow (forget username t)) := by
  simp only [eraseAccount, exec_inStep (t := forget username t) usable struck]

theorem eraseAccount_done (usable : t.rejects .deleteRow = false)
    (unstruck : strikes .deleteRow = none) :
    eraseAccount strikes username t =
      (some (), { t with data := (t.data.forget username).eraseRow username }) := by
  simp only [eraseAccount, exec_done (f := fun us => some (us.eraseRow username))
    (t := forget username t) usable unstruck rfl]
  rfl

theorem deleteUser_found {user : LocalUser} (usable : t.rejects .selectUser = false)
    (unstruck : Selects t.data username → strikes .selectUser = none)
    (account : (t.data.getUser username).1 = some user) :
    deleteUser strikes username t = eraseAccount strikes username (found username t).2 := by
  simp [deleteUser, getUser_goes usable unstruck, found, account]

theorem loginUser_found {user : LocalUser} (c : Crypto) (cfg : Config) (now : Int)
    (password : Text) (generated : List Text) (usable : t.rejects .selectUser = false)
    (unstruck : Selects t.data username → strikes .selectUser = none)
    (account : (t.data.getUser username).1 = some user) :
    loginUser c cfg strikes now username password generated t =
      loginFound c cfg strikes now username password generated user (found username t).2 := by
  simp [loginUser, getUser_goes usable unstruck, found, account]

end calls

/-! ## Caches that agree with the table -/

/-- What is cached under a name is what its row describes. -/
def Faithful (us : LocalUsers) : Prop :=
  ∀ name user, us.usernameCache.lookup name = some user →
    (us.db.lookup name).map (LocalUsers.rowUser name) = some user

section faithful
variable {us : LocalUsers}

theorem faithful_start (db : Table Text UserRow) : Faithful (start db) := by
  intro name user cached
  cases cached

/-- Then an account is found exactly where there is a row. -/
theorem Faithful.getUser (faithful : Faithful us) (username : Text) :
    (us.getUser username).1 = (us.db.lookup username).map (LocalUsers.rowUser username) := by
  rw [LocalUsers.getUser]
  cases cached : us.usernameCache.lookup username with
  | some user => exact (faithful username user cached).symm
  | none => cases us.db.lookup username <;> rfl

theorem Faithful.after_getUser (faithful : Faithful us) (username : Text) :
    Faithful (us.getUser username).2 := by
  rw [LocalUsers.getUser]
  cases us.usernameCache.lookup username with
  | some user => exact faithful
  | none =>
    cases listed : us.db.lookup username with
    | none => exact faithful
    | some row =>
      intro name user cached
      simp only [LocalUsers.cacheUser, lookup_insert_eq] at cached ⊢
      split at cached
      · subst_vars
        rw [listed]
        exact cached
      · exact faithful name user cached

theorem Faithful.forget (faithful : Faithful us) (username : Text) :
    Faithful (us.forget username) := by
  intro name user cached
  simp only [LocalUsers.forget, lookup_erase_eq] at cached
  split at cached
  · cases cached
  · exact faithful name user cached

/-- The row may go once the account is forgotten. -/
theorem Faithful.eraseRow (faithful : Faithful us) (username : Text) :
    Faithful ((us.forget username).eraseRow username) := by
  intro name user cached
  simp only [LocalUsers.forget, LocalUsers.eraseRow, lookup_erase_eq] at cached ⊢
  split at cached
  · cases cached
  · rename_i other
    rw [if_neg other]
    exact faithful name user cached

theorem Faithful.insertUser {c : Crypto} {cfg : Config} {user : LocalUser} {password : Text}
    {us' : LocalUsers} (faithful : Faithful us)
    (inserted : AccountStatements.insertUser c cfg user password us = some us') : Faithful us' := by
  by_cases taken : user.username ∈ us.db
  · rw [insertUser_taken taken] at inserted
    cases inserted
  · rw [insertUser_free taken] at inserted
    cases inserted
    intro name cachedUser cached
    have row := faithful name cachedUser cached
    have other : name ≠ user.username := by
      rintro rfl
      rw [AList.lookup_eq_none.mpr taken] at row
      cases row
    simp only [lookup_insert_eq, if_neg other]
    exact row

end faithful

/-! ## Threads that answer alike -/

/-- Two threads with the same rows and tokens, and the same statements to use. -/
structure Same (th th' : AccountThread) : Prop where
  rejects : th.rejects = th'.rejects
  selects : th.rejects .selectUser = false
  db : th.data.db = th'.data.db
  tokens : th.data.tokenCache = th'.data.tokenCache
  faithful : Faithful th.data
  faithful' : Faithful th'.data

theorem Same.trans {t u v : AccountThread} (first : Same t u) (second : Same u v) : Same t v where
  rejects := first.rejects.trans second.rejects
  selects := first.selects
  db := first.db.trans second.db
  tokens := first.tokens.trans second.tokens
  faithful := first.faithful
  faithful' := second.faithful'

section same
variable (c : Crypto) (cfg : Config) {th th' : AccountThread}

theorem Same.usable (same : Same th th') {q : Statement} {b : Bool} (left : th.rejects q = b) :
    th'.rejects q = b := by
  rw [← same.rejects, left]

theorem Same.getUser (same : Same th th') (username : Text) :
    ∃ out mid mid', getUser .none username th = (out, mid) ∧
      getUser .none username th' = (out, mid') ∧ Same mid mid' := by
  obtain ⟨tokens, rows⟩ := th.data.getUser_frame username
  obtain ⟨tokens', rows'⟩ := th'.data.getUser_frame username
  have first : AccountStatements.getUser .none username th = found username th :=
    getUser_goes same.selects fun _ => unstruck _
  have second : AccountStatements.getUser .none username th' = found username th' :=
    getUser_goes (same.usable same.selects) fun _ => unstruck _
  have result : (th'.data.getUser username).1 = (th.data.getUser username).1 := by
    rw [same.faithful.getUser, same.faithful'.getUser, same.db]
  refine ⟨_, _, (found username th').2, first, ?_, ?_⟩
  · rw [second, found, result]
  · exact
      { rejects := same.rejects
        selects := same.selects
        db := rows.trans (same.db.trans rows'.symm)
        tokens := tokens.trans (same.tokens.trans tokens'.symm)
        faithful := same.faithful.after_getUser username
        faithful' := same.faithful'.after_getUser username }

theorem Same.addUser (same : Same th th') (user : LocalUser) (password : Text) :
    (addUser c cfg .none user password th).1 = (addUser c cfg .none user password th').1 ∧
      Same (addUser c cfg .none user password th).2 (addUser c cfg .none user password th').2 := by
  cases usable : th.rejects .insertUser with
  | true =>
    have usable' := same.usable usable
    simp only [AccountStatements.addUser, exec_rejected usable, exec_rejected usable']
    exact ⟨trivial, same⟩
  | false =>
    have usable' := same.usable usable
    by_cases taken : user.username ∈ th.data.db
    · have taken' : user.username ∈ th'.data.db := same.db ▸ taken
      simp only [AccountStatements.addUser,
        exec_violation usable (unstruck _) (insertUser_taken taken),
        exec_violation usable' (unstruck _) (insertUser_taken taken')]
      exact ⟨trivial,
        { same with
          rejects := by rw [spoil, spoil, same.rejects]
          selects := (spoil_other (by decide)).trans same.selects }⟩
    · have free' : user.username ∉ th'.data.db := same.db ▸ taken
      simp only [AccountStatements.addUser, exec_done usable (unstruck _) (insertUser_free taken),
        exec_done usable' (unstruck _) (insertUser_free free')]
      exact ⟨trivial,
        { same with
          db := by rw [same.db]
          faithful := same.faithful.insertUser (insertUser_free taken)
          faithful' := same.faithful'.insertUser (insertUser_free free') }⟩

theorem Same.authPassword (same : Same th th') (username password : Text) :
    ∃ code, authPassword c cfg .none username password th = (some code, th) ∧
      authPassword c cfg .none username password th' = (some code, th') := by
  cases usable : th.rejects .selectPassword with
  | true =>
    have usable' := same.usable usable
    exact ⟨-1, authPassword_rejected c cfg usable nofun, authPassword_rejected c cfg usable' nofun⟩
  | false =>
    have usable' := same.usable usable
    refine ⟨_, authPassword_done c cfg usable (unstruck _), ?_⟩
    rw [authPassword_done c cfg usable' (unstruck _)]
    simp only [LocalUsers.authPassword, same.db]

theorem Same.eraseAccount (same : Same th th') (username : Text) :
    (eraseAccount .none username th).1 = (eraseAccount .none username th').1 ∧
      Same (eraseAccount .none username th).2 (eraseAccount .none username th').2 := by
  have forgotten : Same (forget username th) (forget username th') :=
    { same with
      tokens := by simp only [forget, LocalUsers.forget, same.tokens]
      faithful := same.faithful.forget username
      faithful' := same.faithful'.forget username }
  cases usable : th.rejects .deleteRow with
  | true =>
    have usable' := same.usable usable
    rw [eraseAccount_rejected usable, eraseAccount_rejected usable']
    exact ⟨rfl, forgotten⟩
  | false =>
    have usable' := same.usable usable
    rw [eraseAccount_done usable (unstruck _), eraseAccount_done usable' (unstruck _)]
    exact ⟨rfl,
      { forgotten with
        db := congrArg (AList.erase username) same.db
        faithful := same.faithful.eraseRow username
        faithful' := same.faithful'.eraseRow username }⟩

theorem Same.deleteUser (same : Same th th') (username : Text) :
    (deleteUser .none username th).1 = (deleteUser .none username th').1 ∧
      Same (deleteUser .none username th).2 (deleteUser .none username th').2 := by
  obtain ⟨out, mid, mid', first, second, next⟩ := same.getUser username
  rw [AccountStatements.deleteUser, AccountStatements.deleteUser, first, second]
  match out with
  | none => exact ⟨rfl, next⟩
  | some none => exact ⟨rfl, next⟩
  | some (some _) => exact next.eraseAccount username

/-- Strings are drawn against the same tokens. -/
theorem Same.authorizeUser (same : Same th th') (user : LocalUser) (now : Int)
    (generated : List Text) :
    (authorizeUser user now generated th).1 = (authorizeUser user now generated th').1 ∧
      Same (authorizeUser user now generated th).2 (authorizeUser user now generated th').2 := by
  simp only [AccountStatements.authorizeUser, LocalUsers.authorizeUser, ← same.tokens]
  cases generated.find? fun token => token ∉ th.data.tokenCache with
  | none => exact ⟨rfl, same⟩
  | some token =>
    exact ⟨rfl, { same with tokens := rfl }⟩

theorem Same.loginUser (same : Same th th') (now : Int) (username password : Text)
    (generated : List Text) :
    (loginUser c cfg .none now username password generated th).1 =
        (loginUser c cfg .none now username password generated th').1 ∧
      Same (loginUser c cfg .none now username password generated th).2
        (loginUser c cfg .none now username password generated th').2 := by
  obtain ⟨out, mid, mid', first, second, next⟩ := same.getUser username
  rw [AccountStatements.loginUser, AccountStatements.loginUser, first, second]
  match out with
  | none => exact ⟨rfl, next⟩
  | some none => exact ⟨rfl, next⟩
  | some (some user) =>
    obtain ⟨code, checked, checked'⟩ := next.authPassword c cfg username password
    obtain ⟨token, drawn⟩ := next.authorizeUser user now generated
    simp only [loginFound, checked, checked']
    split
    · exact ⟨rfl, next⟩
    · exact ⟨congrArg some token, drawn⟩

/-- One call. -/
theorem Same.run (same : Same th th') (call : Call) :
    (call.run c cfg .none th).1 = (call.run c cfg .none th').1 ∧
      Same (call.run c cfg .none th).2 (call.run c cfg .none th').2 := by
  cases call with
  | addUser user password =>
    obtain ⟨result, next⟩ := same.addUser c cfg user password
    exact ⟨by simp only [Call.run, answer, result], next⟩
  | getUser username =>
    obtain ⟨out, mid, mid', first, second, next⟩ := same.getUser username
    simp only [Call.run, first, second]
    exact ⟨rfl, next⟩
  | authPassword username password =>
    obtain ⟨code, checked, checked'⟩ := same.authPassword c cfg username password
    simp only [Call.run, checked, checked']
    exact ⟨rfl, same⟩
  | authToken token =>
    exact ⟨by simp only [Call.run, LocalUsers.authToken, same.tokens], same⟩
  | login now username password generated =>
    obtain ⟨result, next⟩ := same.loginUser c cfg now username password generated
    exact ⟨by simp only [Call.run, answer, result], next⟩
  | deauth token =>
    exact ⟨rfl, { same with tokens := congrArg (AList.erase token) same.tokens }⟩
  | cron now =>
    have tokens : (th.data.cron now).tokenCache = (th'.data.cron now).tokenCache := by
      simp only [LocalUsers.cron, same.tokens]
    exact ⟨rfl, { same with tokens }⟩
  | deleteUser username =>
    obtain ⟨result, next⟩ := same.deleteUser username
    exact ⟨by simp only [Call.run, answer, result], next⟩

/-- All calls. -/
theorem Same.answers (same : Same th th') (calls : List Call) :
    answers c cfg calls th = answers c cfg calls th' := by
  induction calls generalizing th th' with
  | nil => rfl
  | cons call calls ih =>
    obtain ⟨result, next⟩ := same.run c cfg call
    simp only [AccountStatements.answers, result, ih next]

end same

/-! ## Threads on which nothing was left without a reset -/

structure Clean (th : AccountThread) : Prop where
  usable : ∀ q, th.rejects q = false
  faithful : Faithful th.data

theorem clean_start (db : Table Text UserRow) : Clean (startThread db) :=
  ⟨fun _ => rfl, faithful_start db⟩

/-- A clean thread with the same rows and tokens. -/
theorem Clean.same {th : AccountThread} (clean : Clean th) {us : LocalUsers}
    (faithful : Faithful us) (db : us.db = th.data.db)
    (tokens : us.tokenCache = th.data.tokenCache) : Same { th with data := us } th where
  rejects := rfl
  selects := clean.usable _
  db := db
  tokens := tokens
  faithful := faithful
  faithful' := clean.faithful

theorem Clean.self {th : AccountThread} (clean : Clean th) : Same th th :=
  clean.same clean.faithful rfl rfl

section clean
variable (c : Crypto) (cfg : Config) {strikes : Strikes} {th : AccountThread}

/-- `get_user` either goes through, or is stopped before or in its step. -/
theorem Clean.getUser_cases (clean : Clean th) (strikes : Strikes) (username : Text) :
    ((Selects th.data username → strikes .selectUser = none) ∧
        getUser strikes username th = found username th) ∨
      getUser strikes username th = (none, th) ∨
      Selects th.data username ∧ strikes .selectUser = some .inStep ∧
        getUser strikes username th = (none, spoil .selectUser th) := by
  by_cases selects : Selects th.data username
  · by_cases unstruck : strikes .selectUser = none
    · exact .inl ⟨fun _ => unstruck, getUser_goes (clean.usable _) fun _ => unstruck⟩
    · by_cases inStep : strikes .selectUser = some .inStep
      · exact .inr (.inr ⟨selects, inStep, getUser_inStep (clean.usable _) selects inStep⟩)
      · exact .inr (.inl (getUser_early selects unstruck inStep))
  · exact .inl ⟨fun h => absurd h selects, getUser_goes (clean.usable _) fun h => absurd h selects⟩

/-- Where nothing is struck, the calls do what is said of `LocalUsers`. -/
theorem Clean.plain_deleteUser (clean : Clean th) (username : Text) :
    deleteUser .none username th =
      (some (), { th with data := th.data.deleteUser username }) := by
  have goes : getUser .none username th = found username th :=
    getUser_goes (clean.usable _) fun _ => unstruck _
  rw [deleteUser, goes, LocalUsers.deleteUser]
  rcases account : th.data.getUser username with ⟨_ | user, us⟩
  · simp only [found, account]
  · simp only [found, account]
    exact eraseAccount_done (t := { th with data := us }) (clean.usable _) (unstruck _)

theorem Clean.plain_loginUser (clean : Clean th) (now : Int) (username password : Text)
    (generated : List Text) :
    loginUser c cfg .none now username password generated th =
      match th.data.loginUser c cfg now username password generated with
      | some (token, us) => (some (some token), { th with data := us })
      | none => (some none, { th with data := (th.data.getUser username).2 }) := by
  have goes : getUser .none username th = found username th :=
    getUser_goes (clean.usable _) fun _ => unstruck _
  rw [loginUser, goes, LocalUsers.loginUser]
  rcases account : th.data.getUser username with ⟨_ | user, us⟩
  · simp only [found, account]
  · have checked : authPassword c cfg .none username password { th with data := us } =
        (some (LocalUsers.authPassword c cfg us username password), { th with data := us }) :=
      authPassword_done c cfg (t := { th with data := us }) (clean.usable _) (unstruck _)
    simp only [found, account, loginFound, checked]
    split
    · rfl
    · simp only [authorizeUser]
      cases us.authorizeUser user now generated with
      | none => rfl
      | some drawn => rfl

theorem Clean.after_found (clean : Clean th) (username : Text) : Clean (found username th).2 :=
  ⟨clean.usable, clean.faithful.after_getUser username⟩

theorem Clean.found_same (clean : Clean th) (username : Text) : Same (found username th).2 th := by
  obtain ⟨tokens, rows⟩ := th.data.getUser_frame username
  exact clean.same (clean.faithful.after_getUser username) rows tokens

/-! ### Calls that are harmless -/

theorem Clean.addUser {user : LocalUser} (clean : Clean th) (password : Text)
    (harmless : Harmless th.data strikes (.addUser user password)) :
    Clean (addUser c cfg strikes user password th).2 ∧
      ((addUser c cfg strikes user password th).1 = none →
        Same (addUser c cfg strikes user password th).2 th) := by
  unfold AccountStatements.addUser
  by_cases unstruck : strikes .insertUser = none
  · have row : insertUser c cfg user password th.data = some _ :=
      insertUser_free (harmless.2 unstruck)
    rw [exec_done (clean.usable _) unstruck row]
    exact ⟨⟨clean.usable, clean.faithful.insertUser row⟩, nofun⟩
  · rw [exec_early unstruck harmless.1]
    exact ⟨clean, fun _ => clean.self⟩

theorem Clean.getUser {username : Text} (clean : Clean th)
    (harmless : SelectHarmless th.data strikes username) :
    Clean (getUser strikes username th).2 ∧ Same (getUser strikes username th).2 th := by
  rcases clean.getUser_cases strikes username with
    ⟨-, goes⟩ | stops | ⟨selects, struck, -⟩
  · rw [goes]
    exact ⟨clean.after_found username, clean.found_same username⟩
  · rw [stops]
    exact ⟨clean, clean.self⟩
  · exact absurd struck (harmless selects)

theorem Clean.authPassword (clean : Clean th) (username password : Text)
    (harmless : strikes .selectPassword ≠ some .inStep) :
    ∃ out, authPassword c cfg strikes username password th = (out, th) := by
  by_cases unstruck : strikes .selectPassword = none
  · exact ⟨_, authPassword_done c cfg (clean.usable _) unstruck⟩
  · exact authPassword_early c cfg unstruck harmless

theorem authorizeUser_clean (clean : Clean th) (user : LocalUser) (now : Int)
    (generated : List Text) : Clean (authorizeUser user now generated th).2 := by
  simp only [authorizeUser, LocalUsers.authorizeUser]
  cases generated.find? fun token => token ∉ th.data.tokenCache with
  | none => exact clean
  | some token => exact ⟨clean.usable, clean.faithful⟩

theorem Clean.loginUser {username : Text} (clean : Clean th) (now : Int) (password : Text)
    (generated : List Text)
    (harmless : Harmless th.data strikes (.login now username password generated)) :
    Clean (loginUser c cfg strikes now username password generated th).2 ∧
      (LoginFailed c cfg strikes username password th →
        Same (loginUser c cfg strikes now username password generated th).2 th) := by
  unfold AccountStatements.loginUser LoginFailed
  rcases clean.getUser_cases strikes username with
    ⟨unstruck, goes⟩ | stops | ⟨selects, struck, -⟩
  · have mid := clean.after_found username
    have same := clean.found_same username
    rw [goes]
    cases account : (th.data.getUser username).1 with
    | none =>
      simp only [found, account] at mid same ⊢
      exact ⟨mid, fun _ => same⟩
    | some user =>
      have present : th.data.Exists username :=
        (th.data.exists_iff_getUser username).mpr ⟨user, account⟩
      obtain ⟨out, checked⟩ := mid.authPassword c cfg username password
        (harmless.2 ⟨present, unstruck⟩)
      simp only [found, account] at mid same checked ⊢
      simp only [loginFound, AuthFailed, checked]
      cases out with
      | none => exact ⟨mid, fun _ => same⟩
      | some code =>
        simp only
        split
        · exact ⟨mid, fun _ => same⟩
        · rename_i right
          refine ⟨authorizeUser_clean mid user now generated, fun failed => ?_⟩
          rcases failed with none | ⟨-, none | wrong⟩
          · cases none
          · cases none
          · cases wrong
            exact absurd (by decide) right
  · rw [stops]
    exact ⟨clean, fun _ => clean.self⟩
  · exact absurd struck (harmless.1 selects)

theorem Clean.eraseAccount {username : Text} (clean : Clean th)
    (harmless : strikes .deleteRow ≠ some .inStep ∧ (strikes .deleteRow ≠ none →
      ∀ token grant, th.data.tokenCache.lookup token = some grant →
        grant.user.username ≠ username)) :
    Clean (eraseAccount strikes username th).2 ∧
      ((eraseAccount strikes username th).1 = none →
        Same (eraseAccount strikes username th).2 th) := by
  by_cases unstruck : strikes .deleteRow = none
  · rw [eraseAccount_done (clean.usable _) unstruck]
    exact ⟨⟨clean.usable, clean.faithful.eraseRow username⟩, nofun⟩
  · rw [eraseAccount_early unstruck harmless.1]
    have faithful := clean.faithful.forget username
    have tokens : (th.data.forget username).tokenCache = th.data.tokenCache := by
      change eraseIf (fun _ (grant : Grant) => decide (grant.user.username = username)) _ = _
      apply eraseIf_of_forall
      intro token grant held
      exact decide_eq_false (harmless.2 unstruck token grant held)
    exact ⟨⟨clean.usable, faithful⟩, fun _ => clean.same faithful rfl tokens⟩

theorem Clean.deleteUser {username : Text} (clean : Clean th)
    (harmless : Harmless th.data strikes (.deleteUser username)) :
    Clean (deleteUser strikes username th).2 ∧ ((deleteUser strikes username th).1 = none →
      Same (deleteUser strikes username th).2 th) := by
  unfold AccountStatements.deleteUser
  rcases clean.getUser_cases strikes username with
    ⟨unstruck, goes⟩ | stops | ⟨selects, struck, -⟩
  · have mid := clean.after_found username
    have same := clean.found_same username
    rw [goes]
    cases account : (th.data.getUser username).1 with
    | none =>
      simp only [found, account] at mid ⊢
      exact ⟨mid, nofun⟩
    | some user =>
      have present : th.data.Exists username :=
        (th.data.exists_iff_getUser username).mpr ⟨user, account⟩
      have tokens := (th.data.getUser_frame username).1
      have last := harmless.2 ⟨present, unstruck⟩
      rw [← tokens] at last
      have erased := mid.eraseAccount last
      simp only [found, account] at same erased ⊢
      exact ⟨erased.1, fun failed => (erased.2 failed).trans same⟩
  · rw [stops]
    exact ⟨clean, fun _ => clean.self⟩
  · exact absurd struck (harmless.1 selects)

/-- A harmless call leaves nothing without a reset, and a failed one nothing at all. -/
theorem Clean.run (clean : Clean th) {call : Call} (harmless : Harmless th.data strikes call) :
    Clean (call.run c cfg strikes th).2 ∧
      (Failed c cfg strikes th call → Same (call.run c cfg strikes th).2 th) := by
  cases call with
  | addUser user password =>
    obtain ⟨after, same⟩ := clean.addUser c cfg password harmless
    exact ⟨after, fun failed => same (answer_exception failed nofun)⟩
  | getUser username =>
    obtain ⟨after, same⟩ := clean.getUser harmless
    exact ⟨after, fun _ => same⟩
  | authPassword username password =>
    obtain ⟨out, checked⟩ := clean.authPassword c cfg username password harmless
    simp only [Call.run, answer, checked]
    exact ⟨clean, fun _ => clean.self⟩
  | authToken token => exact ⟨clean, nofun⟩
  | login now username password generated =>
    exact clean.loginUser c cfg now password generated harmless
  | deauth token => exact ⟨⟨clean.usable, clean.faithful⟩, nofun⟩
  | cron now => exact ⟨⟨clean.usable, clean.faithful⟩, nofun⟩
  | deleteUser username =>
    obtain ⟨after, same⟩ := clean.deleteUser harmless
    exact ⟨after, fun failed => same (answer_exception failed nofun)⟩

/-! ### Calls that are not -/

/-- A name that a table does not have. -/
theorem exists_new {α : Type} (t : Table Text α) : ∃ name, name ∉ t := by
  obtain ⟨name, new⟩ := Infinite.exists_notMem_finset t.keys.toFinset
  exact ⟨name, fun listed => new (List.mem_toFinset.mpr listed)⟩

theorem spoiled_insert (clean : Clean th) :
    ∃ later, answers c cfg later (spoil .insertUser th) ≠ answers c cfg later th := by
  obtain ⟨name, new⟩ := exists_new th.data.db
  refine ⟨[.addUser ⟨name, false, [], 0⟩ []], fun same => ?_⟩
  have row : insertUser c cfg ⟨name, false, [], 0⟩ [] th.data = some _ := insertUser_free new
  simp only [answers, Call.run, addUser, exec_rejected (spoil_self _ _),
    exec_done (clean.usable _) (unstruck _) row]
    at same
  cases same

theorem spoiled_select (clean : Clean th) :
    ∃ later, answers c cfg later (spoil .selectUser th) ≠ answers c cfg later th := by
  obtain ⟨name, new⟩ := exists_new th.data.usernameCache
  refine ⟨[.getUser name], fun same => ?_⟩
  have goes : getUser .none name th = found name th :=
    getUser_goes (clean.usable _) fun _ => unstruck _
  have stops : getUser .none name (spoil .selectUser th) = (none, spoil .selectUser th) :=
    getUser_rejected (spoil_self .selectUser th) new
  simp only [answers, Call.run, goes, stops] at same
  cases same

theorem spoiled_password (clean : Clean th) (us : LocalUsers) :
    ∃ later, answers c cfg later (spoil .selectPassword { th with data := us }) ≠
      answers c cfg later th := by
  refine ⟨[.authPassword [] []], fun same => ?_⟩
  let left := spoil .selectPassword { th with data := us }
  change answers c cfg _ left = _ at same
  have checked : authPassword c cfg .none [] [] th = _ :=
    authPassword_done c cfg (clean.usable _) (unstruck _)
  have fails : authPassword c cfg .none [] [] left = (some (-1), left) :=
    authPassword_rejected c cfg (spoil_self _ _) nofun
  simp only [answers, Call.run, answer, checked, fails, LocalUsers.authPassword] at same
  split at same
  · cases same
  · split at same <;> cases same

/-- The row is still there, and cannot be removed on this thread any more. -/
theorem spoiled_delete {username : Text} {user : LocalUser} (clean : Clean th)
    (account : (th.data.getUser username).1 = some user) :
    ∃ later, answers c cfg later (spoil .deleteRow (forget username (found username th).2)) ≠
      answers c cfg later th := by
  let left := spoil .deleteRow (forget username (found username th).2)
  refine ⟨[.deleteUser username], fun same => ?_⟩
  change answers c cfg _ left = _ at same
  have mid := clean.found_same username
  have again : ((forget username (found username th).2).data.getUser username).1 = some user := by
    refine ((mid.faithful.forget username).getUser username).trans ?_
    change ((found username th).2.data.db.lookup username).map _ = _
    rw [mid.db, ← clean.faithful.getUser, account]
  have goes : deleteUser .none username th = eraseAccount .none username (found username th).2 :=
    deleteUser_found (clean.usable _) (fun _ => unstruck _) account
  have stops : deleteUser .none username left =
      eraseAccount .none username (found username left).2 :=
    deleteUser_found ((spoil_other (by decide)).trans (clean.usable _)) (fun _ => unstruck _) again
  have rejected : (found username left).2.rejects .deleteRow = true :=
    spoil_self .deleteRow (forget username (found username th).2)
  simp only [answers, Call.run, goes, stops, eraseAccount_rejected rejected,
    eraseAccount_done (t := (found username th).2) (clean.usable _) (unstruck _)] at same
  cases same

/-- The account is logged out everywhere. -/
theorem forgotten_token {username token : Text} {grant : Grant} (th' : AccountThread)
    (tokens : th'.data.tokenCache = th.data.tokenCache)
    (held : th.data.tokenCache.lookup token = some grant) (own : grant.user.username = username) :
    ∃ later, answers c cfg later (forget username th') ≠ answers c cfg later th := by
  refine ⟨[.authToken token], fun same => ?_⟩
  simp only [answers, Call.run, LocalUsers.authToken, forget, LocalUsers.forget, lookup_eraseIf,
    tokens, held, Option.filter_some, own] at same
  cases same

theorem addUser_harmful {user : LocalUser} (clean : Clean th) (password : Text)
    (harmful : ¬ Harmless th.data strikes (.addUser user password)) :
    addUser c cfg strikes user password th = (none, spoil .insertUser th) := by
  unfold Harmless at harmful
  by_cases struck : strikes .insertUser = some .inStep
  · simp only [AccountStatements.addUser, exec_inStep (clean.usable _) struck]
  · obtain ⟨unstruck, taken⟩ := Classical.not_imp.mp fun new => harmful ⟨struck, new⟩
    simp only [AccountStatements.addUser,
      exec_violation (clean.usable _) unstruck (insertUser_taken (not_not.mp taken))]

theorem select_harmful {username : Text} (clean : Clean th)
    (harmful : ¬ SelectHarmless th.data strikes username) :
    getUser strikes username th = (none, spoil .selectUser th) := by
  unfold SelectHarmless at harmful
  obtain ⟨selects, struck⟩ := Classical.not_imp.mp harmful
  exact getUser_inStep (clean.usable _) selects (not_not.mp struck)

theorem visible {t : AccountThread} {call : Call}
    (left : (call.run c cfg strikes th).2 = t)
    (seen : ∃ later, answers c cfg later t ≠ answers c cfg later th) :
    ¬ Invisible c cfg strikes call th := by
  intro invisible
  obtain ⟨later, different⟩ := seen
  exact different (left ▸ invisible later)

/-- Any other call fails, and is seen. -/
theorem Clean.harmful (clean : Clean th) {call : Call}
    (harmful : ¬ Harmless th.data strikes call) :
    Failed c cfg strikes th call ∧ ¬ Invisible c cfg strikes call th := by
  cases call with
  | addUser user password =>
    have fails := addUser_harmful c cfg clean password harmful
    refine ⟨?_, visible c cfg ?_ (spoiled_insert c cfg clean)⟩
    · simp only [Failed, Call.run, fails, answer]
      rfl
    · simp only [Call.run, fails, answer]
  | getUser username =>
    have fails := select_harmful clean harmful
    refine ⟨?_, visible c cfg ?_ (spoiled_select c cfg clean)⟩
    · simp only [Failed, Call.run, fails, answer]
      rfl
    · simp only [Call.run, fails, answer]
  | authPassword username password =>
    have fails : AccountStatements.authPassword c cfg strikes username password th = _ :=
      authPassword_inStep c cfg (clean.usable _) (not_not.mp harmful)
    refine ⟨.inr (congrArg Prod.fst fails),
      visible c cfg ?_ (spoiled_password c cfg clean th.data)⟩
    simp only [Call.run, answer, fails]
  | authToken token => exact absurd trivial harmful
  | login now username password generated =>
    by_cases select : SelectHarmless th.data strikes username
    · obtain ⟨⟨present, unstruck⟩, struck⟩ :=
        Classical.not_imp.mp fun rest => harmful ⟨select, rest⟩
      obtain ⟨user, account⟩ := (LocalUsers.exists_iff_getUser _ _).mp present
      have goes := getUser_goes (clean.usable _) unstruck
      have fails : AccountStatements.authPassword c cfg strikes username password
          (found username th).2 = _ :=
        authPassword_inStep c cfg ((clean.after_found username).usable _) (not_not.mp struck)
      refine ⟨.inr ?_, visible c cfg ?_ (spoiled_password c cfg clean (found username th).2.data)⟩
      · rw [goes, AuthFailed, fails]
        simp only [found, account]
        exact ⟨rfl, .inr trivial⟩
      · simp only [Call.run, loginUser_found c cfg now password generated (clean.usable _) unstruck
          account, answer, loginFound, fails]
        rfl
    · have fails := select_harmful clean select
      refine ⟨.inl (congrArg Prod.fst fails), visible c cfg ?_ (spoiled_select c cfg clean)⟩
      simp only [Call.run, AccountStatements.loginUser, fails, answer]
  | deauth token => exact absurd trivial harmful
  | cron now => exact absurd trivial harmful
  | deleteUser username =>
    by_cases select : SelectHarmless th.data strikes username
    · obtain ⟨⟨present, unstruck⟩, rest⟩ :=
        Classical.not_imp.mp fun rest => harmful ⟨select, rest⟩
      obtain ⟨user, account⟩ := (LocalUsers.exists_iff_getUser _ _).mp present
      have goes := deleteUser_found (clean.usable _) unstruck account
      by_cases struck : strikes .deleteRow = some .inStep
      · rw [eraseAccount_inStep ((clean.after_found username).usable _) struck] at goes
        refine ⟨?_, visible c cfg ?_ (spoiled_delete c cfg clean account)⟩
        · simp only [Failed, Call.run, goes, answer]
          rfl
        · simp only [Call.run, goes, answer]
      · obtain ⟨early, lost⟩ := Classical.not_imp.mp fun kept => rest ⟨struck, kept⟩
        push Not at lost
        obtain ⟨token, grant, held, own⟩ := lost
        rw [eraseAccount_early early struck] at goes
        refine ⟨?_, visible c cfg ?_ (forgotten_token c cfg (found username th).2
          (th.data.getUser_frame username).1 held own)⟩
        · simp only [Failed, Call.run, goes, answer]
          rfl
        · simp only [Call.run, goes, answer]
    · have fails := select_harmful clean select
      refine ⟨?_, visible c cfg ?_ (spoiled_select c cfg clean)⟩
      · simp only [Failed, Call.run, AccountStatements.deleteUser, fails, answer]
        rfl
      · simp only [Call.run, AccountStatements.deleteUser, fails, answer]

end clean

/-! ## Runs -/

section runs
variable (c : Crypto) (cfg : Config) {th : AccountThread} {es : List Event}

theorem after_snoc (es : List Event) (e : Event) (th : AccountThread) :
    after c cfg (es ++ [e]) th = (e.call.run c cfg e.strikes (after c cfg es th)).2 := by
  simp [after]

/-- Harmless calls leave the thread clean. -/
theorem Clean.after (clean : Clean th) (harmless : ∀ pre e post, es = pre ++ e :: post →
      Harmless (AccountStatements.after c cfg pre th).data e.strikes e.call) :
    Clean (AccountStatements.after c cfg es th) := by
  induction es using List.reverseRecOn with
  | nil => exact clean
  | append_singleton es e ih =>
    have before := ih fun pre e' post split => harmless pre e' (post ++ [e]) (by simp [split])
    rw [after_snoc]
    exact (before.run c cfg (harmless es e [] rfl)).1

/-- Failures that nobody sees leave it clean as well. -/
theorem clean_of_invisible {db : Table Text UserRow} (invisible : FailuresInvisible c cfg db es)
    {pre post : List Event} (split : es = pre ++ post) :
    Clean (AccountStatements.after c cfg pre (startThread db)) := by
  induction pre using List.reverseRecOn generalizing post with
  | nil => exact clean_start db
  | append_singleton pre e ih =>
    have cut : es = pre ++ e :: post := by simp [split]
    have before := ih cut
    have harmless : Harmless (AccountStatements.after c cfg pre (startThread db)).data e.strikes
        e.call := by
      by_contra harmful
      obtain ⟨failed, seen⟩ := before.harmful c cfg harmful
      exact seen (invisible pre e post cut failed)
    rw [after_snoc]
    exact (before.run c cfg harmless).1

/-- The failures of a run are invisible exactly when its calls are harmless where they are
made. -/
theorem failures_invisible_iff (db : Table Text UserRow) (es : List Event) :
    FailuresInvisible c cfg db es ↔ ∀ pre e post, es = pre ++ e :: post →
      Harmless (after c cfg pre (startThread db)).data e.strikes e.call := by
  constructor
  · intro invisible pre e post split
    by_contra harmful
    obtain ⟨failed, seen⟩ := (clean_of_invisible c cfg invisible split).harmful c cfg harmful
    exact seen (invisible pre e post split failed)
  · intro harmless pre e post split failed later
    have clean : Clean (after c cfg pre (startThread db)) :=
      (clean_start db).after c cfg fun front e' back cut =>
        harmless front e' (back ++ e :: post) (by simp [split, cut])
    exact ((clean.run c cfg (harmless pre e post split)).2 failed).answers c cfg later

end runs

def demoUser (username : Text) : LocalUser where
  username
  isAdmin := false
  email := []
  joinedTs := 0

/-- Two people sign up as alice at the same time, and on the thread of the second one nobody
can sign up any more. -/
theorem taken_name_blocks :
    ¬ FailuresInvisible demoCrypto (demoConfig "a.net" "key") ∅
      [⟨.addUser (demoUser "alice") "one", .none⟩, ⟨.addUser (demoUser "alice") "two", .none⟩] := by
  intro invisible
  have same := invisible [⟨.addUser (demoUser "alice") "one", .none⟩]
    ⟨.addUser (demoUser "alice") "two", .none⟩ [] rfl rfl [.addUser (demoUser "bob") "three"]
  revert same
  decide +kernel

end AccountStatements
