import Fiy.RequestRouting
import Fiy.PeerRequests

/-!
# Exceptions that leave a handler

Nothing around `io_context::run` catches, so an exception that leaves one of its
handlers ends the process. `Entry` lists the handlers a remote party can make run,
with everything it chooses. `with_key_cb` and the error callbacks are left out: their
definitions have no exceptions. The dereference of a null pointer in the network
connector is a different fault and is not counted here.
-/

namespace EscapedExceptions

open ByteStrings KeyedTables HttpMessages HostEnvironment PeerLinks PeerRegistry
open PeerRegistry.Peers WebText LocalAccounts ModAccess Sessions ModConnectors PeerHandshake
open PeerRequests RequestRouting

/-- The exception a computation of the source ends with. -/
def raised {α : Type} : Except Exn α → Option Exn
  | .error e => some e
  | .ok _ => none

def thrownBy {α : Type} : Except Fault α → Option Exn
  | .error (.thrown e) => some e
  | _ => none

theorem thrownBy_none_iff {α : Type} (x : Except Fault α) :
    thrownBy x = none ↔ ¬ ∃ e, x = .error (.thrown e) := by
  cases x with
  | ok a => simp [thrownBy]
  | error fault => cases fault <;> simp [thrownBy]

theorem thrownBy_map {α β : Type} (f : α → β) (x : Except Fault α) :
    thrownBy (x.map f) = thrownBy x := by
  cases x with
  | ok a => rfl
  | error fault => cases fault <;> rfl

inductive Entry
  /-- `route_request` -/
  | route (s : Session) (d : Draws)
  | findUser (s : Session) (appId : Option Text)
  /-- `with_pubkey_cb`, the callback of the responder's key request -/
  | pubkey (views : Nat → Peers) (generated : Nat → Token) (ourSecret : Token) (p : PeerRef)
      (peer : Peer) (signature : Text) (res : Response)
  /-- `handshake_cb`, with the registry its second section finds and the request of the
  mod that waits for the peer -/
  | handshake (p : PeerRef) (res : Response) (later : Peers) (appId : Text) (req : FiyRequest)

/-- `handshake_cb` and the continuation it calls: the peer it has made is sent the request
that waits. -/
def finishHandshake (h : Host) (p : PeerRef) (res : Response) (later : Peers) (appId : Text)
    (req : FiyRequest) : Except Fault (Option Request) :=
  match handshakeCb h.crypto h.now h.heap h.peers p res with
  | .error e => .error (.thrown e)
  | .ok (false, _, _) => .ok none
  | .ok (true, heap, _) =>
    if (handshakeRegister heap later p).1 then
      (peerRequest h.crypto h.now (heap p) appId req).map some
    else .ok none

def Entry.escape (site : Site) (h : Host) : Entry → Option Exn
  | .route s d => thrownBy (routeRequest site h s d)
  | .findUser s appId => raised (Sessions.findUser h s appId)
  | .pubkey views generated ourSecret p peer signature res =>
    (withPubkeyCb h.crypto h.config h.heap views generated ourSecret p peer signature res).thrown
  | .handshake p res later appId req => thrownBy (finishHandshake h p res later appId req)

/-! ## Signatures -/

/-- The key loads, the signature decodes, and the verification reaches a verdict. -/
def Usable (c : Crypto) (pubkey data b64sig : Text) : Prop :=
  ∃ key sig, c.readPubkey pubkey = some key ∧ c.readBase64 b64sig = some sig ∧
    (c.digestVerify key data sig = 1 ∨ c.digestVerify key data sig = 0)

theorem raised_verify_iff (c : Crypto) (pubkey data b64sig : Text) :
    raised (c.verify pubkey data b64sig) = none ↔ Usable c pubkey data b64sig := by
  simp only [Crypto.verify, Usable]
  cases c.readPubkey pubkey with
  | none => simp [raised]
  | some key => cases c.readBase64 b64sig with
    | none => simp [raised]
    | some sig =>
      by_cases valid : c.digestVerify key data sig = 1
      · simp [valid, raised]
      · by_cases invalid : c.digestVerify key data sig = 0
        · simp [invalid, raised]
        · simp [valid, invalid, raised]

theorem withPubkeyCb_thrown (c : Crypto) (cfg : Config) (heap : Heap) (views : Nat → Peers)
    (generated : Nat → Token) (ourSecret : Token) (p : PeerRef) (peer : Peer)
    (signature : Text) (res : Response) :
    (withPubkeyCb c cfg heap views generated ourSecret p peer signature res).thrown =
      raised (c.verify res.body (signedData peer) signature) := by
  simp only [withPubkeyCb]
  split <;> rename_i hverify <;> rw [hverify] <;> rfl

/-! ## Who is on the other end -/

/-- A request nobody is logged in for, which carries the token of a peer, says which user
it is for. -/
def NamesUser (h : Host) (s : Session) : Prop :=
  localAccount h s = none → h.config.federation = .enabled →
    s.req.fields.value "Fiy-Peer" ≠ [] →
    (h.peers.getPeerFromToken (s.req.fields.value "Fiy-Peer")).isSome = true →
    (s.req.fields.find "Fiy-User").isSome = true

theorem raised_findPeerUser_iff (h : Host) (r : Request) (appId : Option Text) :
    raised (findPeerUser h r appId) = none ↔
      (h.config.federation = .enabled → r.fields.value "Fiy-Peer" ≠ [] →
        (h.peers.getPeerFromToken (r.fields.value "Fiy-Peer")).isSome = true →
        (r.fields.find "Fiy-User").isSome = true) := by
  simp only [findPeerUser]
  split
  · rename_i off
    simp [raised, off]
  · rename_i on
    split
    · rename_i untokened
      simp [raised, untokened]
    · rename_i tokened
      cases registered : h.peers.getPeerFromToken (r.fields.value "Fiy-Peer") with
      | none => simp [raised]
      | some p =>
        cases named : r.fields.find "Fiy-User" with
        | none => simp [raised, not_not.mp on, tokened]
        | some user =>
          refine iff_of_true ?_ (by simp)
          cases appId with
          | none => rfl
          | some app =>
            dsimp only
            split
            · rfl
            · split <;> rfl

theorem raised_findUser_iff (h : Host) (s : Session) (appId : Option Text) :
    raised (Sessions.findUser h s appId) = none ↔ NamesUser h s := by
  cases hlocal : localAccount h s with
  | some lu => simp [findUser_of_local hlocal, raised, NamesUser, hlocal]
  | none =>
    have same : raised (Sessions.findUser h s appId) =
        raised (findPeerUser (findUserLocal h s).2.1 (findUserLocal h s).2.2.req appId) := by
      rw [findUser_of_peer hlocal]
      cases findPeerUser (findUserLocal h s).2.1 (findUserLocal h s).2.2.req appId <;> rfl
    have host := findUserLocal_host h s
    have config : (findUserLocal h s).2.1.config = h.config := by rw [host]
    have peers : (findUserLocal h s).2.1.peers = h.peers := by rw [host]
    have fields : (findUserLocal h s).2.2.req.fields.value "Fiy-Peer" =
          s.req.fields.value "Fiy-Peer" ∧
        (findUserLocal h s).2.2.req.fields.find "Fiy-User" = s.req.fields.find "Fiy-User" := by
      rcases findUserLocal_req h s with kept | ⟨_, _, erased⟩
      · exact ⟨by rw [kept], by rw [kept]⟩
      · rw [erased]
        exact ⟨Fields.value_eraseFirst_other _ (by decide),
          Fields.find_eraseFirst_other _ (by decide)⟩
    rw [same, raised_findPeerUser_iff, config, peers, fields.1, fields.2]
    simp [NamesUser, hlocal]

/-- The target of a request says nothing about who sent it. -/
theorem localAccount_target (h : Host) (s : Session) (target : Text) :
    localAccount h { s with req := { s.req with target } } = localAccount h s := by
  have held : Session.heldToken { s with req := { s.req with target } } = s.heldToken := by
    simp only [Session.heldToken, Session.getCookies, requestCookies]
    split <;> rfl
  rw [localAccount, localAccount, held]

/-! ## Mods -/

/-- A local user without a name is not looked for in a list of names. -/
def NamelessUnlisted (h : Host) (s : Session) (m : Mod) : Prop :=
  ∀ lu, localAccount h s = some lu → lu.username = [] →
    ∀ info, m.ipc = .dll info → ∀ names, m.canAccess ≠ some (.listed names)

theorem raised_accessCheck_iff (m : Mod) (u : User) :
    raised (accessCheck m u) = none ↔
      (u.user = [] → u.domain = none → ∀ names, m.canAccess ≠ some (.listed names)) := by
  simp only [accessCheck]
  cases m.canAccess with
  | none => simp [raised]
  | some checker =>
    cases checker with
    | everyone => simp [AccessChecker.call, raised]
    | nobody => simp [AccessChecker.call, raised]
    | federated => simp [AccessChecker.call, raised]
    | instanceLocal => simp [AccessChecker.call, raised]
    | listed names =>
      cases hdomain : u.domain with
      | some domain => simp [AccessChecker.call, raised]
      | none => by_cases nameless : u.user = [] <;> simp [AccessChecker.call, raised, nameless]

theorem thrownBy_dllHandle (h : Host) (s : Session) (m : Mod) (info : Option ModInfo)
    (u : User) : thrownBy (dllHandle h s m info u) = raised (accessCheck m u) := by
  simp only [dllHandle]
  cases accessCheck m u with
  | error e => rfl
  | ok allowed =>
    cases allowed with
    | false => rfl
    | true =>
      cases info with
      | none => rfl
      | some info =>
        obtain ⟨onRequest⟩ := info
        cases onRequest <;> rfl

theorem thrownBy_handleRequest_of_local {h : Host} {s : Session} {m : Mod} {lu : LocalUser}
    (found : localAccount h s = some lu) :
    thrownBy (handleRequest h s m) = none ↔ NamelessUnlisted h s m := by
  simp only [handleRequest, findUser_of_local found, NamelessUnlisted, found]
  cases hipc : m.ipc with
  | net uri bearerSend https => simp [thrownBy, netHandle, moved]
  | dll info => simp [thrownBy_dllHandle, raised_accessCheck_iff]

/-- Without a local user the access checker never gets two null pointers. -/
theorem thrownBy_handleRequest_of_peer {h : Host} {s : Session} {m : Mod}
    (found : localAccount h s = none) :
    thrownBy (handleRequest h s m) = none ↔ NamesUser h s := by
  rw [← raised_findUser_iff h s none]
  simp only [handleRequest, appIdArgument_eq]
  cases hfound : Sessions.findUser h s none with
  | error e => simp [thrownBy, raised]
  | ok identified =>
    obtain ⟨u, h', s'⟩ := identified
    refine iff_of_true ?_ rfl
    cases u with
    | none => rfl
    | some u =>
      cases m.ipc with
      | net uri bearerSend https => rfl
      | dll info =>
        have encoded := requester_encodes hfound
        dsimp only
        rw [thrownBy_dllHandle, raised_accessCheck_iff]
        intro nameless nowhere
        simp only [requester, found, nowhere] at encoded
        cases encoded with
        | anonymous => cases nameless
        | peerAnonymous domain => cases nowhere

theorem thrownBy_handleRequest_iff (h : Host) (s : Session) (m : Mod) :
    thrownBy (handleRequest h s m) = none ↔ NamesUser h s ∧ NamelessUnlisted h s m := by
  cases found : localAccount h s with
  | some lu =>
    have named : NamesUser h s := fun nobody => by simp [found] at nobody
    rw [thrownBy_handleRequest_of_local found]
    simp [named]
  | none =>
    have unlisted : NamelessUnlisted h s m := fun lu hlu => by simp [found] at hlu
    rw [thrownBy_handleRequest_of_peer found]
    simp [unlisted]

/-! ## Signing in -/

/-- The credentials of a form body log somebody in. -/
def LogsIn (h : Host) (body : Text) (authTokens : List Text) : Prop :=
  ∃ form, parseFormUrlEncoded body = some form ∧
    h.users.Valid h.crypto h.config (formField form "username") (formField form "password") ∧
    h.users.FreshToken authTokens

/-- The form body describes an account that can be made. -/
def SignsUp (h : Host) (body : Text) (authTokens : List Text) : Prop :=
  ∃ form, parseFormUrlEncoded body = some form ∧
    usernameError (formField form "username") = none ∧
    ¬ h.users.Exists (formField form "username") ∧
    (formField form "name").length ≤ LocalUser.nameMaxLength ∧
    (formField form "contact").length ≤ LocalUser.emailMaxLength ∧
    h.users.FreshToken authTokens

theorem loginAttempt_signedIn_iff (h : Host) (body : Text) (authTokens : List Text) :
    (∃ token h', loginAttempt h body authTokens = .signedIn token h') ↔
      LogsIn h body authTokens := by
  simp only [loginAttempt, LogsIn]
  cases hform : parseFormUrlEncoded body with
  | none => simp
  | some form =>
    simp only [Option.some.injEq, exists_eq_left']
    by_cases valid : h.users.Valid h.crypto h.config (formField form "username")
        (formField form "password")
    · obtain ⟨user, us', login, same⟩ := LocalUsers.loginUser_of_valid valid h.now authTokens
      rw [login]
      have drawn := us'.authorizeUser_some_iff user h.now authTokens
      rw [LocalUsers.FreshToken, same] at drawn
      cases hdraw : us'.authorizeUser user h.now authTokens with
      | none =>
        rw [hdraw] at drawn
        simpa [LocalUsers.FreshToken, valid] using drawn
      | some pair =>
        obtain ⟨token, us''⟩ := pair
        have fresh : h.users.FreshToken authTokens := drawn.mp ⟨token, us'', hdraw⟩
        have named := LocalUsers.authorizeUser_user hdraw
        simp [named, valid, fresh]
    · obtain ⟨us', login⟩ := LocalUsers.loginUser_of_invalid valid h.now authTokens
      rw [login]
      simp [valid]

theorem signupAttempt_signedIn_iff (h : Host) (body : Text) (authTokens : List Text) :
    (∃ token h', signupAttempt h body authTokens = .signedIn token h') ↔
      SignsUp h body authTokens := by
  simp only [signupAttempt, SignsUp]
  cases hform : parseFormUrlEncoded body with
  | none => simp
  | some form =>
    simp only [Option.some.injEq, exists_eq_left']
    cases hname : usernameError (formField form "username") with
    | some message => simp
    | none =>
      by_cases taken : h.users.Exists (formField form "username")
      · rcases hget : h.users.getUser (formField form "username") with ⟨found, us'⟩
        have exist := (h.users.getUser_isSome_iff _).mpr taken
        rw [hget] at exist
        obtain ⟨user, rfl⟩ := Option.isSome_iff_exists.mp exist
        simp [taken]
      · rw [LocalUsers.getUser_of_missing taken]
        dsimp only
        by_cases longName : (formField form "name").length > LocalUser.nameMaxLength
        · simp [longName, Nat.not_le_of_gt longName]
        · by_cases longContact : (formField form "contact").length > LocalUser.emailMaxLength
          · simp [longName, longContact, Nat.not_le_of_gt longContact]
          · obtain ⟨us', added, valid, same⟩ := LocalUsers.addUser_of_missing
              ⟨formField form "username", false, formField form "contact", h.now⟩
              taken h.crypto h.config (formField form "password")
            obtain ⟨user, us'', login, same'⟩ :=
              LocalUsers.loginUser_of_valid valid h.now authTokens
            have drawn := us''.authorizeUser_some_iff user h.now authTokens
            rw [LocalUsers.FreshToken, same', same] at drawn
            rw [if_neg longName, if_neg longContact, added]
            simp only [login]
            cases hdraw : us''.authorizeUser user h.now authTokens with
            | none =>
              rw [hdraw] at drawn
              refine iff_of_false (by simp) ?_
              rintro ⟨_, _, _, _, fresh⟩
              simpa using drawn.mpr fresh
            | some pair =>
              have fresh : h.users.FreshToken authTokens := drawn.mp ⟨_, _, hdraw⟩
              exact iff_of_true ⟨_, _, rfl⟩
                ⟨trivial, taken, Nat.le_of_not_lt longName, Nat.le_of_not_lt longContact, fresh⟩

theorem thrownBy_serveAttempt_iff (site : Site) (s : Session) (page : Nat → Text → Text)
    (a : Attempt) :
    thrownBy (serveAttempt site s page a) = none ↔
      ((∃ token h', a = .signedIn token h') → (site.urlParams s.req.target).isSome = true) := by
  cases a with
  | refused status message h => simp [serveAttempt, answer, thrownBy]
  | drawing => simp [serveAttempt, thrownBy]
  | signedIn token h =>
    simp only [serveAttempt, signIn, Session.clearCookieCache]
    cases site.urlParams s.req.target <;> simp [thrownBy, answer]

/-! ## Every handler -/

/-- What a request needs so that its handler ends without an exception. -/
def RouteGuarded (site : Site) (h : Host) (s : Session) (d : Draws) : Prop :=
  match route h s.req with
  | .login => LogsIn h s.req.body d.authTokens → (site.urlParams s.req.target).isSome = true
  | .signup => SignsUp h s.req.body d.authTokens → (site.urlParams s.req.target).isSome = true
  | .redirect => s.req.fields.find "FIY-Redirect" = none →
      (site.urlParams s.req.target).isSome = true
  | .mod (.mod (some m) _) => NamesUser h s ∧ NamelessUnlisted h s m
  | _ => True

theorem thrownBy_routeRequest_iff (site : Site) (h : Host) (s : Session) (d : Draws) :
    thrownBy (routeRequest site h s d) = none ↔ RouteGuarded site h s d := by
  simp only [routeRequest, RouteGuarded]
  cases hroute : route h s.req with
  | login =>
    dsimp only
    rw [thrownBy_serveAttempt_iff, loginAttempt_signedIn_iff]
  | signup =>
    dsimp only
    rw [thrownBy_serveAttempt_iff, signupAttempt_signedIn_iff]
  | redirect =>
    simp only [servePortalRedirect]
    cases s.req.fields.find "FIY-Redirect" with
    | some location => simp [thrownBy, answer]
    | none =>
      cases site.urlParams s.req.target with
      | none => simp [thrownBy]
      | some params =>
        refine iff_of_true ?_ fun _ => rfl
        dsimp only
        split <;> rfl
  | portalHome =>
    refine iff_of_true ?_ trivial
    simp only [servePortalHome]
    split <;> rfl
  | handshake =>
    refine iff_of_true ?_ trivial
    simp only [servePeerHandshake]
    split <;> rfl
  | mod target =>
    cases target with
    | subdomain location => exact iff_of_true rfl trivial
    | mod m uri =>
      cases m with
      | none =>
        refine iff_of_true ?_ trivial
        simp only [requestMod]
        split <;> rfl
      | some m =>
        simp only [requestMod, thrownBy_handleRequest_iff, NamesUser, NamelessUnlisted,
          localAccount_target]
  | _ => exact iff_of_true rfl trivial

/-- A reply with three lines has a signature that can be checked; and where it is right
and the peer gets registered, the request that waits can be sent. -/
def ReplyGuarded (h : Host) (p : PeerRef) (res : Response) (later : Peers)
    (req : FiyRequest) : Prop :=
  res.status = 200 → match cut newline res.body with
    | none => True
    | some (token, rest) => match cut newline rest with
      | none => True
      | some (secret, sig) =>
        let auth := (h.heap p).auth
        Usable h.crypto auth.pubkey (PeerAuth.preSig token secret) sig ∧
        (h.crypto.verify auth.pubkey (PeerAuth.preSig token secret) sig = .ok true →
          (h.heap p).domain ∉ h.peers.peersOut →
          auth.bearerTokenWeAccept ∉ h.peers.peersIn →
          (h.heap p).domain ∉ later.peersOut → Sendable req)

/-- The callback of a reply that parses, once the two registry sections are known. -/
theorem finishHandshake_parsed {h : Host} {p : PeerRef} {res : Response} {later : Peers}
    {appId : Text} {req : FiyRequest} {auth : PeerAuth} (status : res.status = 200)
    (parsed : (h.heap p).auth.handshakeParseResponse h.crypto h.now res.body =
      .ok (true, auth)) :
    thrownBy (finishHandshake h p res later appId req) = none ↔
      ((h.heap p).domain ∉ h.peers.peersOut →
        (h.heap p).auth.bearerTokenWeAccept ∉ h.peers.peersIn →
        (h.heap p).domain ∉ later.peersOut → Sendable req) := by
  have accept := PeerAuth.parseResponse_accept parsed
  simp only [finishHandshake, handshakeCb, status, ne_eq, not_true_eq_false, if_false, parsed,
    if_true]
  have added := addPeer_cases (Function.update h.heap p { h.heap p with auth }) h.peers
    (h.heap p).domain p
  have registered := handshakeRegister_cases
    (Function.update h.heap p { h.heap p with auth }) later p
  simp only [Function.update_self, accept] at added registered ⊢
  rcases added with ⟨newDomain, newToken, heq⟩ | ⟨known, heq⟩
  · simp only [heq]
    rcases registered with ⟨free, heq'⟩ | ⟨taken, heq'⟩
    · rw [heq', if_pos rfl, thrownBy_map, thrownBy_none_iff, peerRequest_thrown_iff, not_not]
      exact ⟨fun sendable _ _ _ => sendable,
        fun sendable => sendable newDomain newToken free⟩
    · rw [heq', if_neg Bool.false_ne_true]
      exact iff_of_true rfl fun _ _ free => absurd taken free
  · simp only [heq]
    refine iff_of_true rfl fun newDomain newToken _ => ?_
    rcases known with known | known
    · exact absurd known newDomain
    · exact absurd known newToken

theorem thrownBy_finishHandshake_iff (h : Host) (p : PeerRef) (res : Response)
    (later : Peers) (appId : Text) (req : FiyRequest) :
    thrownBy (finishHandshake h p res later appId req) = none ↔
      ReplyGuarded h p res later req := by
  by_cases status : res.status = 200
  · have refused : ((h.heap p).auth.handshakeParseResponse h.crypto h.now
        res.body).toOption.map Prod.fst = some false →
        thrownBy (finishHandshake h p res later appId req) = none := by
      cases hparse : (h.heap p).auth.handshakeParseResponse h.crypto h.now res.body with
      | error e => simp [Except.toOption]
      | ok parsed =>
        obtain ⟨valid, auth⟩ := parsed
        cases valid with
        | false => simp [finishHandshake, handshakeCb, status, hparse, thrownBy]
        | true => simp [Except.toOption]
    simp only [ReplyGuarded, status, forall_const]
    cases hfirst : cut newline res.body with
    | none =>
      refine iff_of_true (refused ?_) trivial
      simp only [PeerAuth.handshakeParseResponse, hfirst]
      rfl
    | some first =>
      obtain ⟨token, rest⟩ := first
      dsimp only
      cases hsecond : cut newline rest with
      | none =>
        refine iff_of_true (refused ?_) trivial
        simp only [PeerAuth.handshakeParseResponse, hfirst, hsecond]
        rfl
      | some second =>
        obtain ⟨secret, sig⟩ := second
        have usable := raised_verify_iff h.crypto (h.heap p).auth.pubkey
          (PeerAuth.preSig token secret) sig
        dsimp only
        cases hverify : h.crypto.verify (h.heap p).auth.pubkey
            (PeerAuth.preSig token secret) sig with
        | error e =>
          rw [hverify] at usable
          have unusable := mt usable.mpr (Option.some_ne_none e)
          simp [finishHandshake, handshakeCb, status, PeerAuth.handshakeParseResponse, hfirst,
            hsecond, hverify, thrownBy, unusable]
        | ok valid =>
          rw [hverify] at usable
          have used := usable.mp rfl
          cases valid with
          | false =>
            refine iff_of_true (refused ?_) ⟨used, fun valid => by cases valid⟩
            simp only [PeerAuth.handshakeParseResponse, hfirst, hsecond, hverify]
            rfl
          | true =>
            rw [finishHandshake_parsed status (by
              simp only [PeerAuth.handshakeParseResponse, hfirst, hsecond, hverify]
              rfl)]
            simp only [used, true_and, forall_const]
  · simp [finishHandshake, handshakeCb, status, ReplyGuarded, thrownBy]

/-- A request that has a domain is never built from a null pointer. -/
theorem finishHandshake_fault {h : Host} {p : PeerRef} {res : Response} {later : Peers}
    {appId : Text} {req : FiyRequest} {fault : Fault} (addressed : req.domain.isSome = true)
    (failed : finishHandshake h p res later appId req = .error fault) :
    ∃ e, fault = .thrown e := by
  simp only [finishHandshake] at failed
  split at failed
  · cases failed
    exact ⟨_, rfl⟩
  · cases failed
  · rename_i heap ps _
    split at failed
    · rcases peerRequest_cases h.crypto h.now (heap p) appId req with
        ⟨_, e, heq⟩ | ⟨_, nobody, _⟩ | ⟨_, r, heq⟩
      · rw [heq] at failed
        cases failed
        exact ⟨e, rfl⟩
      · rw [nobody] at addressed
        cases addressed
      · rw [heq] at failed
        cases failed
    · cases failed

/-- What the input of a handler needs so that no exception leaves it. -/
def Entry.Guarded (site : Site) (h : Host) : Entry → Prop
  | .route s d => RouteGuarded site h s d
  | .findUser s _ => NamesUser h s
  | .pubkey _ _ _ _ peer signature res => Usable h.crypto res.body (signedData peer) signature
  | .handshake p res later _ req => ReplyGuarded h p res later req

/-- A peer's bearer token without a user name. -/
def namelessRequest : Request := ⟨.get, "/blog", [("Fiy-Peer", ".t")], []⟩

end EscapedExceptions
