import Fiy.ModLibrary

/-!
# User strings of mods

Mods keep a requester as one text and take it apart again later. The two ways of
writing it down are compared with `split_user_str`, which looks for the first `@`,
over all requesters the host can identify. The name of a remote one is whatever its
instance sends.
-/

namespace UserStrings

open ByteStrings HttpMessages HostEnvironment LocalAccounts ModConnectors ModLibrary Sessions

/-- `Request::user_str` -/
def userStr (req : ModRequest) (anonName : Text := []) : Text :=
  match req.user, req.domain with
  | none, _ => anonName
  | some user, none => user
  | some user, some domain => user ++ lit "@" ++ domain

/-- `Request::global_user_str` -/
def globalUserStr (host : ModHost) (req : ModRequest) : Text :=
  match req.user with
  | none => []
  | some user => user ++ lit "@" ++ req.domain.getD host.domain

/-- Whom `find_user` can return, besides nobody. -/
inductive Requester (host : ModHost)
  | localUser (name : Text) (acceptable : usernameError name = none)
  | remote (name domain : Text) (named : name ≠ []) (noAt : (64 : Byte) ∉ domain)
      (foreign : domain ≠ host.domain)

namespace Requester
variable {host : ModHost}

def toUser : Requester host → User
  | localUser name _ => { user := name }
  | remote name domain _ _ _ => ⟨some domain, name⟩

def name (q : Requester host) : Text := q.toUser.user

/-- The pair that splitting should give. -/
def person (q : Requester host) : Text × Text := (q.name, q.toUser.domain.getD [])

/-- What the constructor of the request record takes over unchanged. -/
def Carried (q : Requester host) : Prop := (0 : Byte) ∉ q.name ∧ q.name ≠ lit " "

/-- Splitting either string gives the requester back. -/
def Recovered (q : Requester host) : Prop :=
  ∀ r : Request,
    host.splitUserStr (userStr (modRequest r q.toUser)) = q.person ∧
    host.splitUserStr (globalUserStr host (modRequest r q.toUser)) = q.person

/-- A signup-acceptable name is made of letters, digits and underscores. -/
theorem acceptable_name {name : Text} (acceptable : usernameError name = none) :
    name ≠ [] ∧ (64 : Byte) ∉ name ∧ (0 : Byte) ∉ name ∧ name ≠ lit " " := by
  simp only [usernameError] at acceptable
  split at acceptable
  · cases acceptable
  · rename_i plain
    have plain' : ∀ b ∈ name, (isAlnum b || b = 95) = true :=
      List.all_eq_true.mp (by simpa only [Bool.not_eq_true', Bool.not_eq_false] using plain)
    split at acceptable
    · cases acceptable
    · rename_i sized
      refine ⟨fun empty => sized (Or.inr empty), ?_, ?_, ?_⟩
      · intro found
        exact absurd (plain' 64 found) (by decide)
      · intro found
        exact absurd (plain' 0 found) (by decide)
      · rintro rfl
        exact absurd (plain' 32 (by decide)) (by decide)

theorem name_ne_nil (q : Requester host) : q.name ≠ [] := by
  cases q with
  | localUser name acceptable => exact (acceptable_name acceptable).1
  | remote name domain named _ _ => exact named

theorem carried_of_local {name : Text} (acceptable : usernameError name = none) :
    (localUser name acceptable : Requester host).Carried :=
  (acceptable_name acceptable).2.2

/-- The record has the C string of the name, or no name at all for a blank. -/
theorem modRequest_user (q : Requester host) (r : Request) :
    (modRequest r q.toUser).user = if q.name = lit " " then none else some (cstr q.name) := by
  have named : q.toUser.user ≠ [] := q.name_ne_nil
  simp only [modRequest, named, false_or]
  rfl

theorem Carried.modRequest_user {q : Requester host} (carried : q.Carried) (r : Request) :
    (modRequest r q.toUser).user = some q.name := by
  rw [Requester.modRequest_user, if_neg carried.2, cstr_eq_self_iff.mpr carried.1]

/-- A name without an `@` and a domain are what the string is cut into. -/
theorem splitUserStr_append (host : ModHost) {user : Text} (noAt : (64 : Byte) ∉ user)
    (domain : Text) :
    host.splitUserStr (user ++ lit "@" ++ domain) =
      (user, if domain = host.domain then [] else domain) := by
  have parts : cut 64 (user ++ lit "@" ++ domain) = some (user, domain) := by
    rw [List.append_assoc]
    exact cut_append noAt domain
  simp only [ModHost.splitUserStr, parts]
  by_cases own : domain = host.domain
  · simp [own]
  · by_cases empty : domain = [] <;> simp [own, empty]

theorem splitUserStr_bare (host : ModHost) {user : Text} (noAt : (64 : Byte) ∉ user) :
    host.splitUserStr user = (user, []) := by
  simp only [ModHost.splitUserStr, cut_eq_none_iff.mpr noAt]

theorem recovered_of_carried {q : Requester host} (carried : q.Carried)
    (noAt : (64 : Byte) ∉ q.name) : q.Recovered := by
  intro r
  have user := carried.modRequest_user r
  cases q with
  | localUser name acceptable =>
    have domain : (modRequest r (localUser name acceptable : Requester host).toUser).domain =
      none := rfl
    constructor
    · simp only [userStr, user, domain]
      exact splitUserStr_bare host noAt
    · simp only [globalUserStr, user, domain, Option.getD_none]
      rw [splitUserStr_append host noAt, if_pos rfl]
      rfl
  | remote name dom named noAtDomain foreign =>
    have domain : (modRequest r
      (remote name dom named noAtDomain foreign : Requester host).toUser).domain = some dom := rfl
    simp only [userStr, globalUserStr, user, domain, Option.getD_some]
    rw [splitUserStr_append host noAt, if_neg foreign]
    exact ⟨rfl, rfl⟩

/-- The first part of a split string has no `@`, and is the C string of the name when
that has none either. -/
theorem carried_of_recovered {q : Requester host} (recovered : q.Recovered) :
    q.Carried ∧ (64 : Byte) ∉ q.name := by
  have given := (recovered ⟨.get, [], [], []⟩).2
  have noAt : (64 : Byte) ∉ q.name := by
    have absent := host.at_notMem_splitUserStr
      (globalUserStr host (modRequest ⟨.get, [], [], []⟩ q.toUser))
    rwa [given] at absent
  have named : q.name ≠ lit " " := by
    intro blank
    simp only [globalUserStr, modRequest_user, blank, if_true] at given
    exact q.name_ne_nil (congrArg Prod.fst given).symm
  refine ⟨⟨?_, named⟩, noAt⟩
  have noAtC : (64 : Byte) ∉ cstr q.name := fun found =>
    noAt ((List.takeWhile_sublist _).subset found)
  simp only [globalUserStr, modRequest_user, named, if_false] at given
  rw [splitUserStr_append host noAtC] at given
  exact cstr_eq_self_iff.mp (congrArg Prod.fst given)

theorem recovered_iff (q : Requester host) :
    q.Recovered ↔ (64 : Byte) ∉ q.name ∧ q.Carried := by
  constructor
  · intro recovered
    exact (carried_of_recovered recovered).symm
  · rintro ⟨noAt, carried⟩
    exact recovered_of_carried carried noAt

/-- Without an `@` in what follows it, the last `@` separates. -/
theorem at_append_inj {user user' domain domain' : Text} (noAt : (64 : Byte) ∉ domain)
    (noAt' : (64 : Byte) ∉ domain')
    (same : user ++ lit "@" ++ domain = user' ++ lit "@" ++ domain') :
    user = user' ∧ domain = domain' := by
  have cuts : ∀ u d : Text, (64 : Byte) ∉ d →
      cut 64 (u ++ lit "@" ++ d).reverse = some (d.reverse, u.reverse) := by
    intro u d absent
    have turned : (u ++ lit "@" ++ d).reverse = d.reverse ++ 64 :: u.reverse := by
      rw [List.reverse_append, List.reverse_append]
      rfl
    rw [turned]
    exact cut_append (by simpa using absent) _
  have both := cuts user domain noAt
  rw [same, cuts user' domain' noAt'] at both
  simpa [eq_comm, and_comm] using both

/-- Different requesters have different strings. -/
theorem userStr_injective {q q' : Requester host} (carried : q.Carried)
    (carried' : q'.Carried) {r r' : Request}
    (same : userStr (modRequest r q.toUser) = userStr (modRequest r' q'.toUser)) :
    q.toUser = q'.toUser := by
  have user := carried.modRequest_user r
  have user' := carried'.modRequest_user r'
  have domain : ∀ (r : Request) (u : User), (modRequest r u).domain = u.domain := fun _ _ => rfl
  simp only [userStr, user, user', domain] at same
  have at_mem : ∀ u d : Text, (64 : Byte) ∈ u ++ lit "@" ++ d := by
    intro u d
    exact List.mem_append_left d (List.mem_append_right u (List.mem_singleton.mpr rfl))
  cases q with
  | localUser name acceptable =>
    cases q' with
    | localUser name' _ => exact congrArg (User.mk none) same
    | remote name' domain' _ _ _ =>
      have absent := (acceptable_name acceptable).2.1
      have same' : name = name' ++ lit "@" ++ domain' := same
      exact absurd (same' ▸ at_mem name' domain') absent
  | remote name domain _ noAt _ =>
    cases q' with
    | localUser name' acceptable' =>
      have absent := (acceptable_name acceptable').2.1
      have same' : name ++ lit "@" ++ domain = name' := same
      exact absurd (same' ▸ at_mem name domain) absent
    | remote name' domain' _ noAt' _ =>
      obtain ⟨rfl, rfl⟩ := at_append_inj noAt noAt' same
      rfl

/-- Whom `find_user` identifies is nobody, or a requester, when accounts have acceptable
names and links have foreign domains. A peer that names nobody is left out. -/
theorem of_findUser {h h' : Host} {s s' : Session} {appId : Option Text} {u : User}
    (accounts : ∀ account, localAccount h s = some account →
      usernameError account.username = none)
    (links : ∀ token p, h.peers.getPeerFromToken token = some p →
      (64 : Byte) ∉ (h.heap p).domain ∧ (h.heap p).domain ≠ host.domain)
    (hfound : findUser h s appId = .ok (some u, h', s')) (named : u.user ≠ []) :
    u = .unauthenticated ∨ ∃ q : Requester host, q.toUser = u := by
  cases hlocal : localAccount h s with
  | some account =>
    simp only [findUser_of_local hlocal, Except.ok.injEq, Prod.mk.injEq, Option.some.injEq]
      at hfound
    exact Or.inr ⟨localUser account.username (accounts account hlocal), hfound.1⟩
  | none =>
    rw [findUser_of_peer hlocal] at hfound
    have same := findUserLocal_host h s
    cases hpeer : findPeerUser (findUserLocal h s).2.1 (findUserLocal h s).2.2.req appId with
    | error e => simp [hpeer, Except.map] at hfound
    | ok v =>
      simp only [hpeer, Except.map, Except.ok.injEq, Prod.mk.injEq] at hfound
      obtain ⟨rfl, _⟩ := hfound
      rcases findPeerUser_cases hpeer with rfl | ⟨p, name, registered, -, rfl, -⟩
      · exact Or.inl rfl
      · rw [same] at registered ⊢
        obtain ⟨noAt, foreign⟩ := links _ p registered
        exact Or.inr ⟨remote name _ named noAt foreign, rfl⟩

end Requester

/-- Strings tell requesters apart, and are taken apart again exactly for names without
an `@`. -/
theorem strings_identify (host : ModHost) :
    (∀ q : Requester host, q.Recovered ↔ (64 : Byte) ∉ q.name ∧ q.Carried) ∧
    ∀ q q' : Requester host, q.Carried → q'.Carried → ∀ r r' : Request,
      userStr (modRequest r q.toUser) = userStr (modRequest r' q'.toUser) →
        q.toUser = q'.toUser := by
  constructor
  · exact Requester.recovered_iff
  · intro q q' carried carried' r r' same
    exact Requester.userStr_injective carried carried' same

/-- The linked instance `b.net` sends this user name. -/
def namedWithAt : Request where
  method := .get
  target := "/blog"
  fields := [("Fiy-Peer", ".t"), ("Fiy-User", "bob@c.net")]
  body := []

def demoModHost : ModHost where
  domain := "a.net"
  baseUri := "https://a.net"
  now := 1000
  userInfo _ := 1
  jsonString := some
  base64Decode := some

/-- The user is found, and the string mods keep is taken apart into somebody else. -/
theorem at_in_name_not_recovered :
    (findUser demoHost (Session.accept namedWithAt) none).toOption.map Prod.fst =
      some (some ⟨some "b.net", "bob@c.net"⟩) ∧
    demoModHost.splitUserStr
      (userStr (modRequest namedWithAt ⟨some "b.net", "bob@c.net"⟩)) =
        (lit "bob", lit "c.net@b.net") ∧
    ¬ (Requester.remote "bob@c.net" "b.net" (by decide) (by decide) (by decide) :
      Requester demoModHost).Recovered := by
  refine ⟨by decide +kernel, by decide, ?_⟩
  intro recovered
  exact absurd (Requester.recovered_iff _ |>.mp recovered).1 (by decide)

end UserStrings
