import Fiy.SessionTokens

/-!
# Deleting an account while other calls run

Calls on `LocalUsers` are interleaved at their lock-held sections and their database
statements. `delete_user` holds the lock over its statement, so its section is two
steps: other calls can only reach the table in between. Calls are numbered in the order
they start, and the state remembers which deletions have returned and which additions
have started, since the law is about that history.
-/

namespace AccountDeletion

open ByteStrings KeyedTables HostEnvironment LocalAccounts LocalAccounts.LocalUsers GuardedRuns
open SessionTokens (Backed backed_start Cleared cleared_forget)

/-- What `get_user` is called for. -/
inductive Purpose
  | get
  | login (password : Text)
  | delete
  deriving DecidableEq, Repr

/-- A call in flight is at the section or the statement it does next. -/
inductive Call
  /-- `get_user` reads the cache -/
  | lookup (purpose : Purpose) (username : Text)
  /-- and the table, after a miss -/
  | select (purpose : Purpose) (username : Text)
  /-- and fills the cache with what was found -/
  | store (purpose : Purpose) (username : Text) (row : UserRow)
  /-- `auth_user(username, password)` -/
  | check (username password : Text) (user : LocalUser)
  | authorize (user : LocalUser)
  /-- `delete_user` takes the lock and clears the caches -/
  | forget (username : Text)
  /-- and deletes the row; it returns with the lock -/
  | eraseRow (username : Text)
  | insert (user : LocalUser) (password : Text)
  | auth (token : Text)
  | deauth (token : Text)
  | cron
  deriving DecidableEq, Repr

inductive Reply
  | user (found : Option LocalUser)
  | token (issued : AuthToken)
  | added (success : Bool)
  | done
  deriving DecidableEq, Repr

inductive Progress
  | goesOn (call : Call)
  | returned (reply : Reply)
  deriving DecidableEq, Repr

/-- The call goes on with what `get_user` returns. -/
def Purpose.resume (username : Text) (found : Option LocalUser) : Purpose → Progress
  | .get => .returned (.user found)
  | .login password => match found with
    | none => .returned (.token {})
    | some user => .goesOn (.check username password user)
  | .delete => match found with
    | none => .returned .done
    | some _ => .goesOn (.forget username)

section atomic
variable (c : Crypto) (cfg : Config)

/-- One step of a call. `authorize_user` goes on drawing while all strings are taken. -/
def atomic (now : Int) (generated : List Text) (us : LocalUsers) :
    Call → Option (Progress × LocalUsers)
  | .lookup purpose username => match us.usernameCache.lookup username with
    | some user => some (purpose.resume username (some user), us)
    | none => some (.goesOn (.select purpose username), us)
  | .select purpose username => match us.db.lookup username with
    | none => some (purpose.resume username none, us)
    | some row => some (.goesOn (.store purpose username row), us)
  | .store purpose username row =>
    some (purpose.resume username (some (rowUser username row)), us.cacheUser username row)
  | .check username password user =>
    if authPassword c cfg us username password ≠ 0 then some (.returned (.token {}), us)
    else some (.goesOn (.authorize user), us)
  | .authorize user => (us.authorizeUser user now generated).map fun issued =>
    (.returned (.token issued.1), issued.2)
  | .forget username => some (.goesOn (.eraseRow username), us.forget username)
  | .eraseRow username => some (.returned .done, us.eraseRow username)
  | .insert user password =>
    let added := us.addUser c cfg user password
    some (.returned (.added added.1), added.2)
  | .auth token => some (.returned (.user (us.authToken token)), us)
  | .deauth token => some (.returned .done, us.deauthToken token)
  | .cron => some (.returned .done, us.cron now)

/-- A call that nobody interrupts. -/
def alone (now : Int) (generated : List Text) :
    Nat → LocalUsers → Call → Option (Reply × LocalUsers)
  | 0, _, _ => none
  | steps + 1, us, call => match atomic c cfg now generated us call with
    | none => none
    | some (.returned reply, us) => some (reply, us)
    | some (.goesOn call, us) => alone now generated steps us call

end atomic

/-- The step needs the lock, for reading or for writing. -/
def Call.locks : Call → Bool
  | .lookup .. | .store .. | .authorize _ | .forget _ | .auth _ | .deauth _ | .cron => true
  | .select .. | .check .. | .eraseRow _ | .insert .. => false

/-- The step is done while the call has the lock already. -/
def Call.holds : Call → Bool
  | .eraseRow _ => true
  | _ => false

/-- The name a call of `delete_user` is about. -/
def Call.deletes : Call → Option Text
  | .lookup .delete username | .select .delete username | .store .delete username _
  | .forget username | .eraseRow username => some username
  | _ => none

structure Server where
  users : LocalUsers
  /-- the `delete_user` call that has the lock between two steps -/
  holder : Option Nat
  calls : Nat → Option Call
  /-- the number of the next call -/
  fresh : Nat
  /-- the `add_user` calls so far -/
  additions : List (Text × Nat)
  /-- the `delete_user` calls that returned, with the number of the next call at that time -/
  deletions : List (Text × Nat)

def start (db : Table Text UserRow) : Server where
  users := SessionTokens.start db
  holder := none
  calls := fun _ => none
  fresh := 0
  additions := []
  deletions := []

inductive Op
  | getUser (username : Text)
  | login (username password : Text)
  | delete (username : Text)
  | addUser (user : LocalUser) (password : Text)
  | auth (token : Text)
  | deauth (token : Text)
  | cron
  deriving DecidableEq, Repr

def Op.call : Op → Call
  | .getUser username => .lookup .get username
  | .login username password => .lookup (.login password) username
  | .delete username => .lookup .delete username
  | .addUser user password => .insert user password
  | .auth token => .auth token
  | .deauth token => .deauth token
  | .cron => .cron

def Op.adds : Op → Option Text
  | .addUser user _ => some user.username
  | _ => none

inductive Event
  | begin (op : Op)
  | advance (id : Nat) (now : Int) (generated : List Text)
  deriving DecidableEq, Repr

/-- The state after a step of a call. -/
def Server.after (s : Server) (id : Nat) (call : Call) (us : LocalUsers) : Progress → Server
  | .goesOn next => { s with
      users := us
      holder := if next.holds then some id else s.holder
      calls := Function.update s.calls id (some next) }
  | .returned _ => { s with
      users := us
      holder := if call.holds then none else s.holder
      calls := Function.update s.calls id none
      deletions := match call.deletes with
        | some username => (username, s.fresh) :: s.deletions
        | none => s.deletions }

section steps
variable (c : Crypto) (cfg : Config)

/-- `none`: there is no such call, it waits for the lock, or it draws in vain. -/
def step (s : Server) : Event → Option Server
  | .begin op => some { s with
      calls := Function.update s.calls s.fresh (some op.call)
      fresh := s.fresh + 1
      additions := match op.adds with
        | some username => (username, s.fresh) :: s.additions
        | none => s.additions }
  | .advance id now generated => match s.calls id with
    | none => none
    | some call =>
      if call.locks && s.holder.isSome then none
      else (atomic c cfg now generated s.users call).map fun r => s.after id call r.2 r.1

abbrev Step (s : Server) (e : Event) (t : Server) : Prop := step c cfg s e = some t

/-- Nothing is left of the account: no token, no cache entry and no way to log in. -/
structure Gone (us : LocalUsers) (username : Text) : Prop where
  tokens : ∀ token grant, us.tokenCache.lookup token = some grant →
    grant.user.username ≠ username
  uncached : username ∉ us.usernameCache
  login : ∀ c cfg now password generated,
    ∃ us', us.loginUser c cfg now username password generated = some ({}, us')

/-- A deletion has returned, the calls that started before have ended, and no addition has
started since: then nothing is left. -/
def Final (s : Server) : Prop :=
  ∀ username n, (username, n) ∈ s.deletions → (∀ id < n, s.calls id = none) →
    (∀ id, (username, id) ∈ s.additions → id < n) → Gone s.users username

/-- The row an account was read from is still there when the account enters a cache, and
a row is not added on behalf of a call that a deletion has overtaken. -/
def Timely (s : Server) : Event → Prop
  | .begin _ => True
  | .advance id _ _ => match s.calls id with
    | some (.store _ username _) => username ∈ s.users.db
    | some (.authorize user) => user.username ∈ s.users.db
    | some (.insert user _) => user.username ∉ s.users.db →
      ∀ n, (user.username, n) ∈ s.deletions → n ≤ id
    | _ => True

end steps

/-! ## One step of a call -/

section atomic
variable {c : Crypto} {cfg : Config} {now : Int} {generated : List Text} {us us' : LocalUsers}
  {call : Call} {progress : Progress}

/-- Without the lock, the caches are not written. -/
theorem atomic_caches (h : atomic c cfg now generated us call = some (progress, us'))
    (unlocked : call.locks = false) :
    us'.usernameCache = us.usernameCache ∧ us'.tokenCache = us.tokenCache := by
  cases call with
  | select purpose username =>
    simp only [atomic] at h
    split at h <;> cases h <;> exact ⟨rfl, rfl⟩
  | check username password user =>
    simp only [atomic] at h
    split at h <;> cases h <;> exact ⟨rfl, rfl⟩
  | eraseRow username =>
    cases h
    exact ⟨rfl, rfl⟩
  | insert user password =>
    cases h
    exact ⟨rfl, rfl⟩
  | _ => cases unlocked

/-- Only an addition makes a row. -/
theorem atomic_rows (h : atomic c cfg now generated us call = some (progress, us'))
    {username : Text} (listed : username ∈ us'.db) :
    username ∈ us.db ∨ ∃ user password, call = .insert user password ∧
      user.username = username := by
  cases call with
  | lookup purpose name =>
    simp only [atomic] at h
    split at h <;> cases h <;> exact Or.inl listed
  | select purpose name =>
    simp only [atomic] at h
    split at h <;> cases h <;> exact Or.inl listed
  | check name password user =>
    simp only [atomic] at h
    split at h <;> cases h <;> exact Or.inl listed
  | authorize user =>
    obtain ⟨issued, hissued, heq⟩ := Option.map_eq_some_iff.mp h
    obtain ⟨token, -, rfl⟩ := Option.map_eq_some_iff.mp hissued
    cases heq
    exact Or.inl listed
  | eraseRow name =>
    cases h
    exact Or.inl (AList.mem_erase.mp listed).2
  | insert user password =>
    cases h
    by_cases there : user.username ∈ us.db
    · simp only [addUser, emplace_of_mem there] at listed
      exact Or.inl listed
    · simp only [addUser, emplace_of_notMem there] at listed
      rcases (AList.mem_insert _).mp listed with same | listed
      · exact Or.inr ⟨user, password, rfl, same.symm⟩
      · exact Or.inl listed
  | _ =>
    cases h
    exact Or.inl listed

/-- Caches stay within the table when what enters them has a row. -/
theorem atomic_backed (backed : Backed us)
    (h : atomic c cfg now generated us call = some (progress, us'))
    (stores : ∀ purpose username row, call = .store purpose username row → username ∈ us.db)
    (issues : ∀ user, call = .authorize user → user.username ∈ us.db)
    (erases : ∀ username, call = .eraseRow username → Cleared us username) : Backed us' := by
  cases call with
  | lookup purpose name =>
    simp only [atomic] at h
    split at h <;> cases h <;> exact backed
  | select purpose name =>
    simp only [atomic] at h
    split at h <;> cases h <;> exact backed
  | store purpose name row =>
    cases h
    exact backed.cacheUser (stores _ _ _ rfl) row
  | check name password user =>
    simp only [atomic] at h
    split at h <;> cases h <;> exact backed
  | authorize user =>
    obtain ⟨issued, hissued, heq⟩ := Option.map_eq_some_iff.mp h
    obtain ⟨token, -, rfl⟩ := Option.map_eq_some_iff.mp hissued
    cases heq
    exact backed.issue (issues _ rfl) token _
  | forget name =>
    cases h
    exact backed.forget name
  | eraseRow name =>
    cases h
    exact backed.eraseRow (erases _ rfl)
  | insert user password =>
    cases h
    exact backed.addUser c cfg user password
  | auth token =>
    cases h
    exact backed
  | deauth token =>
    cases h
    exact backed.deauthToken token
  | cron =>
    cases h
    exact backed.cron now

/-- What a call goes on with never adds a row, and it has the lock only after it cleared
the caches. -/
theorem atomic_goesOn {next : Call}
    (h : atomic c cfg now generated us call = some (.goesOn next, us')) :
    (∀ user password, next ≠ .insert user password) ∧
      ∀ username, next = .eraseRow username → call = .forget username ∧
        us' = us.forget username := by
  cases call with
  | lookup purpose name =>
    simp only [atomic] at h
    split at h
    · cases purpose <;> cases h <;> simp
    · cases h
      simp
  | select purpose name =>
    simp only [atomic] at h
    split at h
    · cases purpose <;> cases h
    · cases h
      simp
  | store purpose name row => cases purpose <;> cases h <;> simp
  | check name password user =>
    simp only [atomic] at h
    split at h <;> cases h
    simp
  | authorize user =>
    obtain ⟨issued, -, heq⟩ := Option.map_eq_some_iff.mp h
    cases heq
  | forget name =>
    cases h
    simp
  | _ => cases h

/-- When `delete_user` returns, there is no row. -/
theorem atomic_returned {reply : Reply}
    (h : atomic c cfg now generated us call = some (.returned reply, us')) {username : Text}
    (deletes : call.deletes = some username) : username ∉ us'.db := by
  cases call with
  | lookup purpose name =>
    cases purpose <;> cases deletes
    simp only [atomic] at h
    split at h <;> cases h
  | select purpose name =>
    cases purpose <;> cases deletes
    simp only [atomic] at h
    split at h
    · rename_i missing
      cases h
      exact AList.lookup_eq_none.mp missing
    · cases h
  | store purpose name row =>
    cases purpose <;> cases deletes
    cases h
  | forget name => cases h
  | eraseRow name =>
    cases deletes
    cases h
    simp [LocalUsers.eraseRow]
  | _ => cases deletes

/-- A call that nobody interrupts does what the operation does that is written down as
one piece. -/
theorem alone_getUser (us : LocalUsers) (username : Text) :
    alone c cfg now generated 3 us (.lookup .get username) =
      some (.user (us.getUser username).1, (us.getUser username).2) := by
  cases hc : us.usernameCache.lookup username with
  | some user => simp [alone, atomic, hc, Purpose.resume, getUser]
  | none =>
    cases hd : us.db.lookup username with
    | none => simp [alone, atomic, hc, hd, Purpose.resume, getUser]
    | some row => simp [alone, atomic, hc, hd, Purpose.resume, getUser]

theorem alone_login (us : LocalUsers) (username password : Text) :
    alone c cfg now generated 5 us (.lookup (.login password) username) =
      (us.loginUser c cfg now username password generated).map fun issued =>
        (.token issued.1, issued.2) := by
  have ending : ∀ (mid : LocalUsers) (user : LocalUser) (steps : Nat),
      alone c cfg now generated (steps + 2) mid (.check username password user) =
        (if authPassword c cfg mid username password ≠ 0 then some ({}, mid)
          else mid.authorizeUser user now generated).map fun issued =>
            (.token issued.1, issued.2) := by
    intro mid user steps
    simp only [alone, atomic]
    split
    · rename_i refused
      split at refused <;> simp at refused
    · rename_i reply mid' returned
      split at returned
      · rename_i wrong
        cases returned
        simp [wrong]
      · cases returned
    · rename_i call mid' goes
      split at goes
      · cases goes
      · rename_i right
        cases goes
        simp only [if_neg right]
        cases mid.authorizeUser user now generated <;> rfl
  cases hc : us.usernameCache.lookup username with
  | some user =>
    simpa [alone, atomic, hc, Purpose.resume, loginUser, getUser] using ending us user 2
  | none =>
    cases hd : us.db.lookup username with
    | none => simp [alone, atomic, hc, hd, Purpose.resume, loginUser, getUser]
    | some row =>
      simpa [alone, atomic, hc, hd, Purpose.resume, loginUser, getUser] using
        ending (us.cacheUser username row) (rowUser username row) 0

theorem alone_delete (us : LocalUsers) (username : Text) :
    alone c cfg now generated 5 us (.lookup .delete username) =
      some (.done, us.deleteUser username) := by
  cases hc : us.usernameCache.lookup username with
  | some user => simp [alone, atomic, hc, Purpose.resume, deleteUser, getUser]
  | none =>
    cases hd : us.db.lookup username with
    | none => simp [alone, atomic, hc, hd, Purpose.resume, deleteUser, getUser]
    | some row => simp [alone, atomic, hc, hd, Purpose.resume, deleteUser, getUser]

end atomic

/-! ## Runs -/

/-- What holds in every reachable state of a timely run. -/
structure Sound (s : Server) : Prop where
  backed : Backed s.users
  /-- a call that is about to delete a row has the lock, and the caches are clear -/
  held : ∀ id username, s.calls id = some (.eraseRow username) →
    s.holder = some id ∧ Cleared s.users username
  recorded : ∀ id user password, s.calls id = some (.insert user password) →
    (user.username, id) ∈ s.additions
  deleted : ∀ username n, (username, n) ∈ s.deletions →
    (∀ id, (username, id) ∈ s.additions → id < n) → username ∉ s.users.db

theorem sound_start (db : Table Text UserRow) : Sound (start db) where
  backed := backed_start db
  held := by
    intro id username h
    cases h
  recorded := by
    intro id user password h
    cases h
  deleted := by
    intro username n h
    cases h

section runs
variable {c : Crypto} {cfg : Config} {s t : Server}

theorem sound_begin (sound : Sound s) (op : Op)
    (h : step c cfg s (.begin op) = some t) : Sound t := by
  cases h
  constructor
  · exact sound.backed
  · intro id username h
    simp only [Function.update_apply] at h
    split at h
    · cases op <;> cases h
    · exact sound.held id username h
  · intro id user password h
    simp only [Function.update_apply] at h
    split at h
    · cases op <;> cases h
      simp_all [Op.adds]
    · have known := sound.recorded id user password h
      cases op <;> simp [Op.adds, known]
  · intro username n deleted earlier
    refine sound.deleted username n deleted fun id added => earlier id ?_
    cases op <;> simp [Op.adds, added]

section advance
variable {id : Nat} {now : Int} {generated : List Text} {call : Call} {us' : LocalUsers}
  {progress : Progress}

/-- Whoever has the lock finds the caches as it left them. -/
theorem Sound.kept (sound : Sound s) (hcall : s.calls id = some call)
    (free : ¬ (call.locks && s.holder.isSome) = true)
    (one : atomic c cfg now generated s.users call = some (progress, us'))
    {other : Nat} {username : Text} (ne : other ≠ id)
    (hother : s.calls other = some (.eraseRow username)) :
    call.holds = false ∧ s.holder = some other ∧ Cleared us' username := by
  obtain ⟨holder, cleared⟩ := sound.held other username hother
  have unlocked : call.locks = false := by simpa [holder] using free
  obtain ⟨names, tokens⟩ := atomic_caches one unlocked
  refine ⟨?_, holder, ⟨by rw [names]; exact cleared.uncached, by rw [tokens]; exact cleared.tokens⟩⟩
  cases call with
  | eraseRow name =>
    have mine := (sound.held id name hcall).1
    exact absurd (Option.some.inj (holder.symm.trans mine)) ne
  | _ => rfl

/-- A timely call adds no row of an account that is to stay deleted. -/
theorem Sound.rows (sound : Sound s) (timely : Timely s (.advance id now generated))
    (hcall : s.calls id = some call)
    (one : atomic c cfg now generated s.users call = some (progress, us'))
    {username : Text} {n : Nat} (deleted : (username, n) ∈ s.deletions)
    (earlier : ∀ i, (username, i) ∈ s.additions → i < n) : username ∉ us'.db := by
  intro listed
  have missing := sound.deleted username n deleted earlier
  simp only [Timely, hcall] at timely
  rcases atomic_rows one listed with there | ⟨user, password, rfl, rfl⟩
  · exact missing there
  · have late := timely missing n deleted
    have soon := earlier id (sound.recorded id user password hcall)
    omega

theorem Sound.backed_after (sound : Sound s) (timely : Timely s (.advance id now generated))
    (hcall : s.calls id = some call)
    (one : atomic c cfg now generated s.users call = some (progress, us')) : Backed us' := by
  simp only [Timely, hcall] at timely
  refine atomic_backed sound.backed one ?_ ?_ ?_
  · rintro purpose username row rfl
    exact timely
  · rintro user rfl
    exact timely
  · rintro username rfl
    exact (sound.held id username hcall).2

theorem Sound.goesOn (sound : Sound s) (timely : Timely s (.advance id now generated))
    (hcall : s.calls id = some call) (free : ¬ (call.locks && s.holder.isSome) = true)
    {next : Call} (one : atomic c cfg now generated s.users call = some (.goesOn next, us')) :
    Sound (s.after id call us' (.goesOn next)) := by
  obtain ⟨noInsert, lockedOnly⟩ := atomic_goesOn one
  constructor
  · exact sound.backed_after timely hcall one
  · intro i username h
    simp only [Server.after, Function.update_apply] at h
    split at h
    · rename_i same
      cases h
      obtain ⟨-, rfl⟩ := lockedOnly username rfl
      exact ⟨by simp [Server.after, Call.holds, same], cleared_forget s.users username⟩
    · rename_i ne
      obtain ⟨-, holder, cleared⟩ := sound.kept hcall free one ne h
      refine ⟨?_, cleared⟩
      cases next with
      | eraseRow name =>
        obtain ⟨rfl, -⟩ := lockedOnly name rfl
        simp [Call.locks, holder] at free
      | _ => exact holder
  · intro i user password h
    simp only [Server.after, Function.update_apply] at h
    split at h
    · cases h
      exact absurd rfl (noInsert user password)
    · exact sound.recorded i user password h
  · intro username n deleted earlier
    exact sound.rows timely hcall one deleted earlier

theorem Sound.returned (sound : Sound s) (timely : Timely s (.advance id now generated))
    (hcall : s.calls id = some call) (free : ¬ (call.locks && s.holder.isSome) = true)
    {reply : Reply} (one : atomic c cfg now generated s.users call = some (.returned reply, us')) :
    Sound (s.after id call us' (.returned reply)) := by
  constructor
  · exact sound.backed_after timely hcall one
  · intro i username h
    simp only [Server.after, Function.update_apply] at h
    split at h
    · cases h
    · rename_i ne
      obtain ⟨released, holder, cleared⟩ := sound.kept hcall free one ne h
      exact ⟨by simp [Server.after, released, holder], cleared⟩
  · intro i user password h
    simp only [Server.after, Function.update_apply] at h
    split at h
    · cases h
    · exact sound.recorded i user password h
  · intro username n deleted earlier
    simp only [Server.after] at deleted
    split at deleted
    · rename_i name deletes
      rcases List.mem_cons.mp deleted with same | deleted
      · cases same
        exact atomic_returned one deletes
      · exact sound.rows timely hcall one deleted earlier
    · exact sound.rows timely hcall one deleted earlier

/-- A step of a timely call. -/
theorem sound_advance (sound : Sound s) (timely : Timely s (.advance id now generated))
    (h : step c cfg s (.advance id now generated) = some t) : Sound t := by
  simp only [step] at h
  split at h
  · cases h
  rename_i call hcall
  split at h
  · cases h
  rename_i free
  obtain ⟨⟨progress, us'⟩, one, rfl⟩ := Option.map_eq_some_iff.mp h
  cases progress with
  | goesOn next => exact sound.goesOn timely hcall free one
  | returned reply => exact sound.returned timely hcall free one

end advance

theorem sound_step {e : Event} (sound : Sound s)
    (h : Restrict (Step c cfg) Timely s e t) : Sound t := by
  cases e with
  | begin op => exact sound_begin sound op h.1
  | advance id now generated => exact sound_advance sound h.2 h.1

/-- Caches within the table have nothing of an account that has no row. -/
theorem gone_of_unlisted {us : LocalUsers} (backed : Backed us) {username : Text}
    (unlisted : username ∉ us.db) : Gone us username where
  tokens := by
    rintro token grant held rfl
    exact unlisted (backed.granted token grant held)
  uncached := fun cached => unlisted (backed.cached username cached)
  login := by
    intro c cfg now password generated
    refine loginUser_of_invalid ?_ now generated
    rintro ⟨present, -⟩
    exact unlisted (backed.listed present)

/-- In a run of timely steps deletions are final. -/
theorem deletion_final {db : Table Text UserRow} {es : List Event}
    (run : Run (Restrict (Step c cfg) Timely) (start db) es s) : Final s := by
  have sound : Sound s :=
    run.preserves (I := Sound) (fun _ _ _ sound h => sound_step sound h) (sound_start db)
  intro username n deleted _ earlier
  exact gone_of_unlisted sound.backed (sound.deleted username n deleted earlier)

def demoDb : Table Text UserRow :=
  (∅ : Table Text UserRow).insert (lit "alice") ⟨false, lit "hash", [], 0⟩

/-- A lookup reads the row, the account is deleted, and the lookup fills the cache. -/
def overtakenLookup : List Event :=
  [.begin (.getUser (lit "alice")), .begin (.delete (lit "alice")),
    .advance 0 0 [], .advance 0 0 [],
    .advance 1 0 [], .advance 1 0 [], .advance 1 0 [], .advance 1 0 [], .advance 1 0 [],
    .advance 0 0 []]

/-- A lookup that has filled the cache by then. -/
def earlyLookup : List Event :=
  [.begin (.getUser (lit "alice")), .begin (.delete (lit "alice")),
    .advance 0 0 [], .advance 0 0 [], .advance 0 0 [],
    .advance 1 0 [], .advance 1 0 [], .advance 1 0 []]

theorem earlyLookup_final :
    ∃ s, Run (Restrict (Step demoCrypto (demoConfig "a.net" "k")) Timely) (start demoDb)
      earlyLookup s ∧ Final s := by
  have run : ∃ s, Run (Restrict (Step demoCrypto (demoConfig "a.net" "k")) Timely)
      (start demoDb) earlyLookup s := by
    refine ⟨_, .cons ⟨rfl, trivial⟩ (.cons ⟨rfl, trivial⟩ (.cons ⟨rfl, trivial⟩
      (.cons ⟨rfl, trivial⟩ (.cons ⟨rfl, ?_⟩ (.cons ⟨rfl, trivial⟩ (.cons ⟨rfl, trivial⟩
      (.cons ⟨rfl, trivial⟩ (.refl _))))))))⟩
    exact AList.lookup_isSome.mp rfl
  obtain ⟨s, run⟩ := run
  exact ⟨s, run, deletion_final run⟩

/-- The deleted account is back in the cache, and every password is right for it. -/
theorem overtakenLookup_not_final :
    ∃ s, Run (Step demoCrypto (demoConfig "a.net" "k")) (start demoDb) overtakenLookup s ∧
      ¬ Final s := by
  have ends : (runFrom (step demoCrypto (demoConfig "a.net" "k")) (start demoDb)
      overtakenLookup).map (fun s => (s.deletions, s.additions, s.fresh,
        s.calls 0, s.calls 1, s.users.usernameCache.keys)) =
      some ([(lit "alice", 2)], [], 2, none, none, [lit "alice"]) := rfl
  obtain ⟨s, hs, hends⟩ := Option.map_eq_some_iff.mp ends
  simp only [Prod.mk.injEq] at hends
  obtain ⟨deletions, additions, fresh, first, second, cached⟩ := hends
  refine ⟨s, run_of_runFrom hs, fun final => ?_⟩
  have gone := final (lit "alice") 2 (by simp [deletions])
    (by
      intro id hid
      obtain rfl | rfl : id = 0 ∨ id = 1 := by omega
      · exact first
      · exact second)
    (by simp [additions])
  exact gone.uncached (AList.mem_keys.mpr (by simp [cached]))

end runs

end AccountDeletion
