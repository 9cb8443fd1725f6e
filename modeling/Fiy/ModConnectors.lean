import Fiy.Sessions

/-!
# Requests that reach a mod

Both connectors identify the requester with `find_user` and pass no mod id. The
shared-library connector then asks the access checker and calls the mod; the network
connector would forward the request, through a pointer both callbacks took.
-/

namespace ModConnectors

open ByteStrings KeyedTables HttpMessages HostEnvironment PeerLinks PeerRegistry WebText
open LocalAccounts ModAccess Sessions

/-- The request record a shared library gets: `none` is a null pointer. -/
structure ModRequest where
  method : Verb
  path : Text
  body : Text
  domain : Option Text
  user : Option Text
  headers : Option Text
  deriving DecidableEq, Repr

def headerLine (field : Text × Text) : Text := field.1 ++ lit ": " ++ field.2

/-- `set_this_headers`: the loop starts at the first field again. -/
def headersString : Fields → Option Text
  | [] => none
  | first :: rest => some <| cstr <|
      headerLine first ++ (first :: rest).flatMap fun field => lit "\r\n" ++ headerLine field

/-- The constructor of `ModDllConnectorRequest`. -/
def modRequest (r : Request) (u : User) : ModRequest where
  method := r.method
  path := cstr r.target
  body := r.body
  domain := u.domain
  user := if u.user = [] ∨ u.user = lit " " then none else some (cstr u.user)
  headers := headersString r.fields

/-- What a handler does besides changing the server and the connection. -/
inductive Effect
  | respond (res : Response)
  | callMod (mod : Text) (req : ModRequest)
  | sendMod (uri : Text) (https : Bool) (req : Request)
  /-- the key request of the handshake responder -/
  | fetchKey (peer : Peer) (signature : Text)
  deriving DecidableEq, Repr

structure Served where
  effects : List Effect
  host : Host
  session : Session

/-- A handler that answers at once. -/
def answer (h : Host) (s : Session) (res : Response) : Except Fault Served :=
  .ok ⟨[.respond res], h, s⟩

def baseUri (cfg : Config) : Text := cfg.protocol ++ cfg.hostname

def unauthorizedResponse (cfg : Config) : Response where
  status := 401
  body := lit "<h1>401 - Unauthorized</h1><hr/><a href='" ++ baseUri cfg ++
    lit "/portal'>Go to portal</a>"

def notInitializedResponse : Response := { status := 500, body := "Module not initialized" }

/-- The argument each connector's `handle_request` leaves to its default. -/
def appIdArgument : ModConnector → Option Text
  | .dll _ => none
  | .net _ _ _ => none

/-- The result of `can_access`, which an empty function object refuses. -/
def accessCheck (m : Mod) (u : User) : Except Exn Bool :=
  match m.canAccess with
  | none => .ok false
  | some checker => checker.call (if u.user = [] then none else some (cstr u.user)) u.domain

/-- `ModConnectorDll::handle_request` once the user is known. -/
def dllHandle (h : Host) (s : Session) (m : Mod) (info : Option ModInfo) (u : User) :
    Except Fault Served :=
  match accessCheck m u with
  | .error e => .error (.thrown e)
  | .ok false => answer h s (unauthorizedResponse h.config)
  | .ok true => match info with
    | some ⟨true⟩ => .ok ⟨[.callMod m.id (modRequest s.req u)], h, s⟩
    | _ => answer h s notInitializedResponse

/-- `std::move` of a shared pointer: the value that is taken, and what is left. -/
def moved {α : Type} (p : Option α) : Option α × Option α := (p, none)

/-- `ModConnectorNet::handle_request` once the user is known. The new target is assigned
to a temporary and lost. The response callback takes the connection, and the request
is read through what is left of it. -/
def netHandle (h : Host) (s : Session) (uri bearerSend : Text) (https : Bool) (u : User) :
    Except Fault Served :=
  let fields := (s.req.fields.set "Fiy-User" u.str).set "Fiy-Auth" bearerSend
  let req := { s.req with fields }
  let (_session, conn) := moved (some req)
  match conn with
  | none => .error .nullDereference
  | some req => .ok ⟨[.sendMod uri https req], h, { s with req }⟩

def handleRequest (h : Host) (s : Session) (m : Mod) : Except Fault Served :=
  match findUser h s (appIdArgument m.ipc) with
  | .error e => .error (.thrown e)
  | .ok (none, h, s) => answer h s reauthResponse
  | .ok (some u, h, s) => match m.ipc with
    | .dll info => dllHandle h s m info u
    | .net uri bearerSend https => netHandle h s uri bearerSend https u

theorem appIdArgument_eq (ipc : ModConnector) : appIdArgument ipc = none := by
  cases ipc <;> rfl

/-! ## The identity of a peer request -/

/-- The request holds a registered bearer token and names a user, and nobody is
logged in. -/
structure BearerRequest (h : Host) (s : Session) (p : PeerRef) : Prop where
  nobodyLocal : localAccount h s = none
  enabled : h.config.federation = .enabled
  token : s.req.fields.value "Fiy-Peer" ≠ []
  registered : h.peers.getPeerFromToken (s.req.fields.value "Fiy-Peer") = some p
  named : (s.req.fields.find "Fiy-User").isSome = true

/-- What the peer would sign this request with, for this mod. -/
def expectedMac (h : Host) (s : Session) (m : Mod) (p : PeerRef) : Text :=
  (h.heap p).sig h.crypto m.id (s.req.fields.value "Fiy-Path")
    (s.req.fields.value "Fiy-User") s.req.body.length (s.req.fields.value "Fiy-Now")

/-- Whoever the connector takes for a remote user has signed this very request with
the key of the peer it is taken for. -/
def Authentic (h : Host) (s : Session) (m : Mod) : Prop :=
  ∀ user domain h' s',
    findUser h s (appIdArgument m.ipc) = .ok (some ⟨some domain, user⟩, h', s') →
      ∃ p, h.peers.getPeerFromToken (s.req.fields.value "Fiy-Peer") = some p ∧
        (h.heap p).domain = domain ∧
        s.req.fields.value "Authorization" = expectedMac h s m p

/-- Without a mod id the peer branch reads two fields of the request. -/
theorem findPeerUser_remote_iff (h : Host) (r : Request) (domain user : Text) :
    findPeerUser h r none = .ok (some ⟨some domain, user⟩) ↔
      h.config.federation = .enabled ∧ r.fields.value "Fiy-Peer" ≠ [] ∧
      ∃ p, h.peers.getPeerFromToken (r.fields.value "Fiy-Peer") = some p ∧
        r.fields.find "Fiy-User" = some user ∧ (h.heap p).domain = domain := by
  by_cases enabled : h.config.federation = .enabled
  · by_cases token : r.fields.value (lit "Fiy-Peer") = []
    · simp [findPeerUser, enabled, token, User.unauthenticated]
    · cases registered : h.peers.getPeerFromToken (r.fields.value (lit "Fiy-Peer")) with
      | none => simp [findPeerUser, enabled, token, registered]
      | some p =>
        cases named : r.fields.find (lit "Fiy-User") with
        | none => simp [findPeerUser, enabled, token, registered, named]
        | some name =>
          simp [findPeerUser, enabled, token, registered, named, and_comm]
  · simp [findPeerUser, enabled, User.unauthenticated]

/-- The peer branch sees the request as it arrived, up to the Authorization field. -/
theorem findPeerUser_after_local (h : Host) (s : Session) :
    findPeerUser (findUserLocal h s).2.1 (findUserLocal h s).2.2.req none =
      findPeerUser h s.req none := by
  rw [findUserLocal_host]
  rcases findUserLocal_req h s with same | ⟨_, _, erased⟩
  · simp only [findPeerUser, same]
  · simp only [findPeerUser, erased]
    rw [Fields.value_eraseFirst_other _ (by decide), Fields.find_eraseFirst_other _ (by decide)]

theorem findUser_remote_iff (h : Host) (s : Session) (domain user : Text) :
    (∃ h' s', findUser h s none = .ok (some ⟨some domain, user⟩, h', s')) ↔
      ∃ p, BearerRequest h s p ∧ s.req.fields.find "Fiy-User" = some user ∧
        (h.heap p).domain = domain := by
  have remote := findPeerUser_remote_iff h s.req domain user
  cases hlocal : localAccount h s with
  | some lu =>
    constructor
    · rintro ⟨_, _, hfound⟩
      simp [findUser_of_local hlocal] at hfound
    · rintro ⟨p, bearer, _⟩
      have nobody := bearer.nobodyLocal
      rw [hlocal] at nobody
      cases nobody
  | none =>
    rw [findUser_of_peer hlocal, findPeerUser_after_local]
    constructor
    · rintro ⟨_, _, hfound⟩
      cases hpeer : findPeerUser h s.req none with
      | error e => simp [hpeer, Except.map] at hfound
      | ok u =>
        simp only [hpeer, Except.map, Except.ok.injEq, Prod.mk.injEq] at hfound
        obtain ⟨enabled, token, p, registered, named, hdomain⟩ :=
          remote.mp (hfound.1 ▸ hpeer)
        exact ⟨p, ⟨hlocal, enabled, token, registered, by rw [named]; rfl⟩, named, hdomain⟩
    · rintro ⟨p, bearer, named, hdomain⟩
      have hpeer := remote.mpr
        ⟨bearer.enabled, bearer.token, p, bearer.registered, named, hdomain⟩
      exact ⟨_, _, by rw [hpeer]; rfl⟩

/-- A connector authenticates exactly the requests that come without a registered
bearer token, and those whose Authorization field happens to be the MAC. -/
theorem authentic_iff (h : Host) (s : Session) (m : Mod) :
    Authentic h s m ↔
      ∀ p, BearerRequest h s p →
        s.req.fields.value "Authorization" = expectedMac h s m p := by
  rw [Authentic, appIdArgument_eq]
  constructor
  · intro authentic p bearer
    obtain ⟨user, named⟩ := Option.isSome_iff_exists.mp bearer.named
    obtain ⟨h', s', hfound⟩ :=
      (findUser_remote_iff h s (h.heap p).domain user).mpr ⟨p, bearer, named, rfl⟩
    obtain ⟨q, registered, _, mac⟩ := authentic _ _ _ _ hfound
    rw [bearer.registered] at registered
    cases registered
    exact mac
  · intro signed user domain h' s' hfound
    obtain ⟨p, bearer, _, hdomain⟩ := (findUser_remote_iff h s domain user).mp ⟨h', s', hfound⟩
    exact ⟨p, bearer.registered, hdomain, signed p bearer⟩

/-- A peer's bearer token and a user name, without a signature. -/
def bearerOnly : Request where
  method := .get
  target := "/blog"
  fields := [("Fiy-Peer", ".t"), ("Fiy-User", "mallory")]
  body := []

/-- The token alone makes a remote user, at a mod of either kind. -/
theorem bearer_token_suffices :
    ¬ Authentic demoHost (Session.accept bearerOnly) demoMod ∧
    ¬ Authentic demoHost (Session.accept bearerOnly)
      { demoMod with ipc := .net "localhost:7000" ".m" false } := by
  have unsigned : bearerOnly.fields.value "Authorization" = [] := by decide
  have mac : ∀ m p, expectedMac demoHost (Session.accept bearerOnly) m p ≠ [] := by
    intro m p h
    cases h
  constructor
  all_goals
    intro authentic
    obtain ⟨p, _, _, signed⟩ := authentic _ _ _ _ rfl
    exact mac _ p (signed ▸ unsigned)

/-! ## The access policy -/

/-- The requester of an identified request. A peer request for nobody is anonymous. -/
def requester (h : Host) (s : Session) (u : User) : Requester :=
  match localAccount h s with
  | some lu => .localUser lu.username
  | none => match u.domain with
    | none => .anonymous
    | some domain => if u.user = [] then .anonymous else .remote u.user domain

/-- The same mod with this `access` field. -/
def withAccess (m : Mod) (value : Text) : Mod :=
  { m with canAccess := some (parseAccessChecker value) }

/-- The request is handed to the mod. -/
def Delivered (h : Host) (s : Session) (m : Mod) : Prop :=
  ∃ served, handleRequest h s m = .ok served ∧
    ∃ effect ∈ served.effects,
      match effect with
      | .callMod _ _ => True
      | .sendMod _ _ _ => True
      | _ => False

/-- The mod gets an identified request exactly when the policy admits the requester. -/
def Enforced (h : Host) (s : Session) (m : Mod) (value : Text) : Prop :=
  ∀ u h' s', findUser h s (appIdArgument m.ipc) = .ok (some u, h', s') →
    (Delivered h s (withAccess m value) ↔ Admits value (requester h s u))

/-- How `find_user` writes a requester down. -/
inductive Encodes : Requester → User → Prop
  | anonymous : Encodes .anonymous .unauthenticated
  | peerAnonymous (domain : Text) : Encodes .anonymous ⟨some domain, []⟩
  | localUser (name : Text) : Encodes (.localUser name) ⟨none, name⟩
  | remote (name domain : Text) (named : name ≠ []) :
      Encodes (.remote name domain) ⟨some domain, name⟩

theorem requester_encodes {h h' : Host} {s s' : Session} {u : User}
    (hfound : findUser h s none = .ok (some u, h', s')) : Encodes (requester h s u) u := by
  cases hlocal : localAccount h s with
  | some lu =>
    simp only [findUser_of_local hlocal, Except.ok.injEq, Prod.mk.injEq, Option.some.injEq]
      at hfound
    obtain ⟨rfl, _⟩ := hfound
    simp only [requester, hlocal]
    exact .localUser _
  | none =>
    rw [findUser_of_peer hlocal] at hfound
    cases hpeer : findPeerUser (findUserLocal h s).2.1 (findUserLocal h s).2.2.req none with
    | error e => simp [hpeer, Except.map] at hfound
    | ok v =>
      simp only [hpeer, Except.map, Except.ok.injEq, Prod.mk.injEq] at hfound
      obtain ⟨rfl, _⟩ := hfound
      simp only [requester, hlocal]
      rcases findPeerUser_cases hpeer with rfl | ⟨p, name, -, -, rfl, -⟩
      · exact .anonymous
      · by_cases named : name = []
        · simpa [named] using Encodes.peerAnonymous _
        · simpa [named] using Encodes.remote name _ named

/-- Where the checker agrees with the policy. Anonymous requests are told from
authenticated ones only when they come for nobody on a peer; a local user needs a
name; and a zero byte may not change whether that name is listed. -/
def PolicyKept (value : Text) (r : Requester) (u : User) : Prop :=
  match parseAccessChecker value, r with
  | .federated, .anonymous => u.domain.isSome = true
  | .instanceLocal, .anonymous => u.domain.isSome = true
  | .federated, .localUser name => name ≠ []
  | .instanceLocal, .localUser name => name ≠ []
  | .listed _, .localUser name =>
    (cstr name ∈ documentedNames (cstr value) ↔ name ∈ documentedNames value)
  | _, _ => True

/-- A blank is a separator, so nobody is listed under it. -/
theorem blank_notMem_whitelist (value : Text) : lit " " ∉ whitelist value := by
  rw [mem_whitelist_iff]
  intro listed
  have := separator_notMem listed (b := 32) (by decide)
  cases this

theorem accessCheck_iff {r : Requester} {u : User} (encoded : Encodes r u) (m : Mod)
    (value : Text) :
    (accessCheck (withAccess m value) u = .ok true ↔ Admits value r) ↔
      PolicyKept value r u := by
  rw [admits_iff]
  simp only [accessCheck, withAccess, PolicyKept]
  cases hparse : parseAccessChecker value with
  | everyone => simp [AccessChecker.call]
  | nobody => simp [AccessChecker.call]
  | federated =>
    cases encoded with
    | anonymous => simp [AccessChecker.call, User.unauthenticated, lit]
    | peerAnonymous domain => simp [AccessChecker.call]
    | localUser name => by_cases named : name = [] <;> simp [AccessChecker.call, named]
    | remote name domain named => simp [AccessChecker.call, named]
  | instanceLocal =>
    cases encoded with
    | anonymous => simp [AccessChecker.call, User.unauthenticated, lit]
    | peerAnonymous domain => simp [AccessChecker.call]
    | localUser name => by_cases named : name = [] <;> simp [AccessChecker.call, named]
    | remote name domain named => simp [AccessChecker.call]
  | listed names =>
    obtain rfl := parseAccessChecker_listed hparse
    cases encoded with
    | anonymous =>
      have blank : cstr (lit " ") = lit " " := by decide
      have unlisted := blank_notMem_whitelist value
      have present : lit " " ≠ [] := by decide
      simp [AccessChecker.call, User.unauthenticated, present, blank, unlisted]
    | peerAnonymous domain => simp [AccessChecker.call]
    | localUser name =>
      by_cases named : name = []
      · simp [AccessChecker.call, named, nil_notMem_documentedNames, cstr]
      · simp [AccessChecker.call, named, mem_whitelist_iff]
    | remote name domain named => simp [AccessChecker.call]

/-- A shared library gets the requests its checker lets through, once it is started. -/
theorem delivered_dll_iff {h h' : Host} {s s' : Session} {m : Mod} {u : User}
    {info : Option ModInfo} (hipc : m.ipc = .dll info)
    (hfound : findUser h s (appIdArgument m.ipc) = .ok (some u, h', s')) :
    Delivered h s m ↔ accessCheck m u = .ok true ∧ info = some ⟨true⟩ := by
  rw [hipc] at hfound
  simp only [Delivered, handleRequest, hipc, hfound, dllHandle]
  cases hcheck : accessCheck m u with
  | error e => simp
  | ok allowed =>
    cases allowed with
    | false => simp [answer]
    | true =>
      cases info with
      | none => simp [answer]
      | some info =>
        obtain ⟨onRequest⟩ := info
        cases onRequest <;> simp [answer]

/-- A network mod gets nothing. -/
theorem not_delivered_net {h h' : Host} {s s' : Session} {m : Mod} {u : User}
    {uri bearerSend : Text} {https : Bool} (hipc : m.ipc = .net uri bearerSend https)
    (hfound : findUser h s (appIdArgument m.ipc) = .ok (some u, h', s')) :
    ¬ Delivered h s m := by
  rw [hipc] at hfound
  simp [Delivered, handleRequest, hipc, hfound, netHandle, moved]

/-- Where each connector enforces the policy: a started library where the checker agrees
with it, every other mod where the policy refuses the requester. -/
def EnforcedWhen (h : Host) (s : Session) (m : Mod) (value : Text) : Prop :=
  ∀ u h' s', findUser h s (appIdArgument m.ipc) = .ok (some u, h', s') →
    match m.ipc with
    | .dll (some ⟨true⟩) => PolicyKept value (requester h s u) u
    | _ => ¬ Admits value (requester h s u)

/-- A request without cookies and credentials. -/
def anonymousRequest : Request := ⟨.get, "/blog", [], []⟩

end ModConnectors
