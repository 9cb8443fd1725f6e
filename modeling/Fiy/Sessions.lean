import Fiy.WebText
import Fiy.LocalAccounts
import Fiy.ModAccess
import Fiy.PeerRegistry

/-!
# Server connections and who is on the other end

`Host` is the server state a handler reads, `Session` one connection with the
request it is serving and its cookie cache. The cache is filled when a reader finds
it empty and outlives the request. A peer request that is not accepted is answered
here, with the re-authentication status.
-/

namespace Sessions

open ByteStrings KeyedTables HttpMessages HostEnvironment PeerLinks PeerRegistry WebText
open LocalAccounts ModAccess

structure Host where
  crypto : Crypto
  config : Config
  now : Int
  heap : Heap
  peers : Peers
  users : LocalUsers
  mods : Mods

structure Session where
  req : Request
  cookies : Table Text Text

/-- A connection when its first request has been read. -/
def Session.accept (r : Request) : Session := ⟨r, ∅⟩

/-- `do_read` of the next request on the same connection. -/
def Session.doRead (s : Session) (r : Request) : Session := { s with req := r }

def Session.clearCookieCache (s : Session) : Session := { s with cookies := ∅ }

/-- The cookies of a request's own header. -/
def requestCookies (r : Request) : Table Text Text :=
  if r.fields.value "Cookie" = [] then ∅ else parseCookies (r.fields.value "Cookie")

/-- `get_cookies`, with the cache it leaves behind. -/
def Session.getCookies (s : Session) : Session :=
  if s.cookies.entries = [] then { s with cookies := requestCookies s.req } else s

/-- Username and password of a Basic header. The decoded text ends at its first zero
byte; the buffer is taken to be followed by one. -/
def basicCredentials (c : Crypto) (f : Fields) : Option (Text × Text) :=
  match f.find "Authorization" with
  | none => none
  | some value => match value.dropPrefix? (lit "Basic ") with
    | none => none
    | some encoded => cut 58 (cstr (c.b64Decode encoded))

def findUserLocal (h : Host) (s : Session) : Option LocalUser × Host × Session :=
  let s := s.getCookies
  match s.cookies.lookup (lit "fiy_auth") with
  | some token => (h.users.authToken token, h, s)
  | none => match basicCredentials h.crypto s.req.fields with
    | none => (none, h, s)
    | some (username, password) =>
      let r := LocalUsers.authPassword h.crypto h.config h.users username password
      -- a valid password is not forwarded anywhere else
      let fields := if r = 0 then s.req.fields.eraseFirst "Authorization" else s.req.fields
      let (user, users) := h.users.getUser username
      (user, { h with users }, { s with req := { s.req with fields } })

structure User where
  domain : Option Text := none
  user : Text
  deriving DecidableEq, Repr

namespace User

/-- Everyone who is not authenticated. The name is a blank. -/
def unauthenticated : User := { user := " " }

def str (u : User) : Text := match u.domain with
  | none => u.user
  | some domain => u.user ++ lit "@" ++ domain

end User

/-- `find_user` after local authentication failed. `.ok none` asks the peer to
re-authenticate; the MAC is only looked at when there is a mod id. -/
def findPeerUser (h : Host) (r : Request) (appId : Option Text) : Except Exn (Option User) :=
  if h.config.federation ≠ .enabled then .ok (some .unauthenticated)
  else
    let token := r.fields.value "Fiy-Peer"
    if token = [] then .ok (some .unauthenticated)
    else match h.peers.getPeerFromToken token with
      | none => .ok none
      | some p => match r.fields.find "Fiy-User" with
        | none => .error .outOfRange
        | some user =>
          let peer := h.heap p
          match appId with
          | none => .ok (some ⟨some peer.domain, user⟩)
          | some app =>
            let timeStr := r.fields.value "Fiy-Now"
            let ts := (fromChars timeStr timeStr.length).getD 0
            if h.now - ts > PeerAuth.maxResponseTime then .ok none
            else if r.fields.value "Authorization" ≠ peer.sig h.crypto app
              (r.fields.value "Fiy-Path") user r.body.length timeStr then .ok none
            else .ok (some ⟨some peer.domain, user⟩)

/-- The response sent when `find_user` returns no user. -/
def reauthResponse : Response := { status := PeerAuth.reauthHttpStatus }

def findUser (h : Host) (s : Session) (appId : Option Text) :
    Except Exn (Option User × Host × Session) :=
  match findUserLocal h s with
  | (some lu, h, s) => .ok (some { user := lu.username }, h, s)
  | (none, h, s) => (findPeerUser h s.req appId).map fun u => (u, h, s)

/-! ## What authentication reads -/

/-- The token of the request's own cookie. -/
def ownToken (r : Request) : Option Text := (requestCookies r).lookup (lit "fiy_auth")

/-- The token that `find_user_local` finds on the connection. -/
def Session.heldToken (s : Session) : Option Text :=
  s.getCookies.cookies.lookup (lit "fiy_auth")

/-- The account the held token was issued to, or the one a Basic header names. -/
def localAccount (h : Host) (s : Session) : Option LocalUser :=
  match s.heldToken with
  | some token => h.users.authToken token
  | none => match basicCredentials h.crypto s.req.fields with
    | none => none
    | some (username, _) => (h.users.getUser username).1

@[simp] theorem getCookies_req (s : Session) : s.getCookies.req = s.req := by
  rw [Session.getCookies]
  split <;> rfl

/-- A first request is answered from its own cookies. -/
theorem heldToken_accept (r : Request) : (Session.accept r).heldToken = ownToken r := rfl

theorem findUserLocal_of_token {h : Host} {s : Session} {token : Text}
    (held : s.heldToken = some token) :
    findUserLocal h s = (h.users.authToken token, h, s.getCookies) := by
  rw [Session.heldToken] at held
  simp [findUserLocal, held]

theorem findUserLocal_of_basic {h : Host} {s : Session} {username password : Text}
    (held : s.heldToken = none)
    (basic : basicCredentials h.crypto s.req.fields = some (username, password)) :
    (findUserLocal h s).1 = (h.users.getUser username).1 := by
  rw [Session.heldToken] at held
  simp [findUserLocal, held, basic]

theorem findUserLocal_of_neither {h : Host} {s : Session} (held : s.heldToken = none)
    (basic : basicCredentials h.crypto s.req.fields = none) :
    findUserLocal h s = (none, h, s.getCookies) := by
  rw [Session.heldToken] at held
  simp [findUserLocal, held, basic]

/-- The user found depends on the connection only through the token it holds. -/
theorem findUserLocal_user (h : Host) (s : Session) :
    (findUserLocal h s).1 = localAccount h s := by
  rw [localAccount]
  cases held : s.heldToken with
  | some token => rw [findUserLocal_of_token held]
  | none =>
    cases basic : basicCredentials h.crypto s.req.fields with
    | none => rw [findUserLocal_of_neither held basic]
    | some creds => exact findUserLocal_of_basic held basic

/-- Local authentication only ever removes the Authorization field, and only from a
request that is answered for its Basic header. -/
theorem findUserLocal_req (h : Host) (s : Session) :
    (findUserLocal h s).2.2.req = s.req ∨
      s.heldToken = none ∧ (basicCredentials h.crypto s.req.fields).isSome = true ∧
      (findUserLocal h s).2.2.req =
        { s.req with fields := s.req.fields.eraseFirst "Authorization" } := by
  cases held : s.heldToken with
  | some token => simp [findUserLocal_of_token held]
  | none =>
    cases basic : basicCredentials h.crypto s.req.fields with
    | none => simp [findUserLocal_of_neither held basic]
    | some creds =>
      have held' := held
      rw [Session.heldToken] at held'
      simp only [findUserLocal, held', getCookies_req, basic]
      split
      · exact Or.inr ⟨trivial, rfl, rfl⟩
      · exact Or.inl rfl

/-- Looking a user up leaves configuration, registry, heap, clock and mods alone. -/
theorem findUserLocal_host (h : Host) (s : Session) :
    (findUserLocal h s).2.1 = { h with users := (findUserLocal h s).2.1.users } := by
  cases held : s.heldToken with
  | some token => rw [findUserLocal_of_token held]
  | none =>
    cases basic : basicCredentials h.crypto s.req.fields with
    | none => rw [findUserLocal_of_neither held basic]
    | some creds =>
      rw [Session.heldToken] at held
      simp [findUserLocal, held, basic]

theorem findUser_of_local {h : Host} {s : Session} {lu : LocalUser}
    (found : localAccount h s = some lu) (appId : Option Text) :
    findUser h s appId = .ok (some { user := lu.username }, (findUserLocal h s).2) := by
  rw [← findUserLocal_user] at found
  rcases hlocal : findUserLocal h s with ⟨user, h', s'⟩
  rw [hlocal] at found
  cases found
  simp only [findUser, hlocal]

theorem findUser_of_peer {h : Host} {s : Session} (found : localAccount h s = none)
    (appId : Option Text) :
    findUser h s appId = (findPeerUser (findUserLocal h s).2.1 (findUserLocal h s).2.2.req
      appId).map fun u => (u, (findUserLocal h s).2) := by
  rw [← findUserLocal_user] at found
  rcases hlocal : findUserLocal h s with ⟨user, h', s'⟩
  rw [hlocal] at found
  cases found
  simp only [findUser, hlocal]

/-- Nobody in particular, or a user of the peer whose token came. With a mod id the request is in
time and has the MAC of this peer. -/
theorem findPeerUser_cases {h : Host} {r : Request} {appId : Option Text} {u : User}
    (hfound : findPeerUser h r appId = .ok (some u)) :
    u = .unauthenticated ∨ ∃ p name,
      h.peers.getPeerFromToken (r.fields.value "Fiy-Peer") = some p ∧
      r.fields.find "Fiy-User" = some name ∧ u = ⟨some (h.heap p).domain, name⟩ ∧
      ∀ app, appId = some app →
        h.now - (fromChars (r.fields.value "Fiy-Now")
          (r.fields.value "Fiy-Now").length).getD 0 ≤ PeerAuth.maxResponseTime ∧
        r.fields.value "Authorization" = (h.heap p).sig h.crypto app
          (r.fields.value "Fiy-Path") name r.body.length (r.fields.value "Fiy-Now") := by
  simp only [findPeerUser] at hfound
  split at hfound
  · cases hfound
    exact Or.inl rfl
  · split at hfound
    · cases hfound
      exact Or.inl rfl
    · split at hfound
      · cases hfound
      · rename_i p registered
        split at hfound
        · cases hfound
        · rename_i name named
          refine Or.inr ⟨p, name, registered, named, ?_⟩
          split at hfound
          · cases hfound
            exact ⟨rfl, nofun⟩
          · split at hfound
            · cases hfound
            · rename_i inside
              split at hfound
              · cases hfound
              · rename_i signed
                cases hfound
                refine ⟨rfl, ?_⟩
                rintro app ⟨⟩
                exact ⟨Int.not_lt.mp inside, not_not.mp signed⟩

/-- With a mod id, a remote user comes with the MAC of the peer it is taken for. -/
theorem findPeerUser_signed {h : Host} {r : Request} {app domain user : Text}
    (hfound : findPeerUser h r (some app) = .ok (some ⟨some domain, user⟩)) :
    ∃ p, h.peers.getPeerFromToken (r.fields.value "Fiy-Peer") = some p ∧
      (h.heap p).domain = domain ∧ r.fields.find "Fiy-User" = some user ∧
      r.fields.value "Authorization" = (h.heap p).sig h.crypto app
        (r.fields.value "Fiy-Path") user r.body.length (r.fields.value "Fiy-Now") := by
  rcases findPeerUser_cases hfound with same | ⟨p, name, registered, named, same, checked⟩
  · cases same
  · cases same
    exact ⟨p, registered, rfl, named, (checked app rfl).2⟩

/-! ## A concrete server

The instance `a.net` with the account `alice`, password `secret`, who is logged in
with the token `tok`. It is linked with `b.net`, whose requests carry `.t`.
-/

def demoAlice : LocalUser := ⟨"alice", false, [], 0⟩

def demoUsers : LocalUsers :=
  { LocalUsers.empty with
    tokenCache := (∅ : Table Text Grant).insert "tok" ⟨demoAlice, 5000⟩
    db := (∅ : Table Text UserRow).insert "alice"
      ⟨false, LocalUser.hashPassword demoCrypto (demoConfig "a.net" "k") "secret", [], 0⟩ }

def demoPeer : Peer where
  domain := "b.net"
  auth :=
    { symKey := "key"
      bearerTokenWeSend := ".u"
      bearerTokenWeAccept := ".t"
      linkTs := 900 }

def demoMod : Mod := ⟨"blog", "blog", some .everyone, .dll (some ⟨true⟩)⟩

def demoHost : Host where
  crypto := demoCrypto
  config := demoConfig "a.net" "k"
  now := 1000
  heap := fun _ => demoPeer
  peers :=
    { peersOut := (∅ : Table Text (Option PeerRef)).insert "b.net" (some 0)
      peersIn := (∅ : Table Text (Option PeerRef)).insert ".t" (some 0) }
  users := demoUsers
  mods := ⟨(∅ : Table Text Mod).insert "blog" demoMod, (∅ : Table Text Mod).insert "blog" demoMod⟩

end Sessions
