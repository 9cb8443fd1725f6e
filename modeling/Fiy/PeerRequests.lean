import Fiy.Sessions

/-!
# Requests to the mods of a peer

`request_peer` writes the identity and a MAC into header fields, and `find_user` of
the other instance reads them back. The extra headers of the mod are applied last.
Fields travel unchanged, so the text of the request is not modelled.
-/

namespace PeerRequests

open ByteStrings KeyedTables HttpMessages HostEnvironment PeerLinks PeerRegistry PeerRegistry.Peers
open WebText LocalAccounts ModAccess Sessions

/-- `fiy_request_t` as a mod fills it in: `none` is a null pointer, texts are C strings,
and the body comes with its length, which is zero for a null pointer. -/
structure FiyRequest where
  domain : Option Text
  user : Option Text
  method : Verb
  path : Option Text
  headers : Option Text
  body : Option Text
  deriving DecidableEq, Repr

/-- The view of pointer and length. -/
def FiyRequest.bodyView (req : FiyRequest) : Text := req.body.getD []

/-- The C string behind a pointer, empty for a null pointer. -/
def stringOrEmpty (p : Option Text) : Text := cstr (p.getD [])

/-- Space and tab. -/
def isHeaderBlank (b : Byte) : Bool := b = 32 || b = 9

/-- The lines are read until one has no colon. -/
def headerPairs : List Text → Fields
  | [] => []
  | line :: rest => match cut 58 line with
    | none => []
    | some (name, value) => (name, value.dropWhile isHeaderBlank) :: headerPairs rest

/-- The fields a headers string stands for. -/
def parsedHeaders (headers : Option Text) : Fields :=
  match headers with
  | none => []
  | some text => headerPairs ((cstr text).splitOn newline)

def setHeaders (f : Fields) (pairs : Fields) : Fields :=
  pairs.foldl (fun f field => f.set field.1 field.2) f

/-- `response_set_headers`; `allow_cors` is set for responses to local users. -/
def responseSetHeaders (f : Fields) (headers : Option Text) (allowCors : Bool) : Fields :=
  match headers with
  | none => f
  | some _ =>
    let f := if allowCors then
      (f.set "Access-Control-Allow-Origin" "*").set "Vary" "Origin" else f
    setHeaders f (parsedHeaders headers)

/-- The fields `request_peer` sets, in its order. -/
def peerFields (c : Crypto) (now : Int) (peer : Peer) (appId : Text) (req : FiyRequest)
    (domain : Text) : Fields :=
  let user := stringOrEmpty req.user
  let path := stringOrEmpty req.path
  let nowStr := decimalInt now
  let f : Fields := []
  let f := f.set "Fiy-Peer" peer.auth.bearerTokenWeSend
  let f := f.set "Fiy-User" user
  let f := f.set "Fiy-Path" path
  let f := f.set "Fiy-Now" nowStr
  let f := f.set "Authorization"
    (lit "FIY1 " ++ peer.sig c appId path user req.bodyView.length nowStr)
  let f := f.set "Host" (cstr domain)
  responseSetHeaders f req.headers false

/-- The HTTP request that `request_peer` builds. `method` takes every verb but the unknown
one, the host field is set from the pointer itself, and `prepare_payload` refuses a TRACE
request with a body. -/
def peerRequest (c : Crypto) (now : Int) (peer : Peer) (appId : Text) (req : FiyRequest) :
    Except Fault Request :=
  if req.method = .unknown then .error (.thrown (.invalidArgument "unknown verb"))
  else match req.domain with
    | none => .error .nullDereference
    | some domain =>
      if req.method = .trace ∧ req.bodyView ≠ [] then
        .error (.thrown (.invalidArgument "invalid request body"))
      else .ok
        { method := req.method
          target := lit "/mods/" ++ appId
          fields := peerFields c now peer appId req domain
          body := req.bodyView }

/-- A mod's request that can be written down as an HTTP request. -/
def Sendable (req : FiyRequest) : Prop :=
  req.method ≠ .unknown ∧ (req.domain.isSome = true → req.method = .trace → req.bodyView = [])

instance (req : FiyRequest) : Decidable (Sendable req) :=
  inferInstanceAs (Decidable (_ ∧ _))

/-- A request that cannot be written down throws, one for nobody dereferences a null
pointer. -/
theorem peerRequest_cases (c : Crypto) (now : Int) (peer : Peer) (appId : Text)
    (req : FiyRequest) :
    (¬ Sendable req ∧ ∃ e, peerRequest c now peer appId req = .error (.thrown e)) ∨
    (Sendable req ∧ req.domain = none ∧
      peerRequest c now peer appId req = .error .nullDereference) ∨
    (Sendable req ∧ ∃ r, peerRequest c now peer appId req = .ok r) := by
  by_cases unknown : req.method = .unknown
  · exact Or.inl ⟨fun sendable => sendable.1 unknown, _, by rw [peerRequest, if_pos unknown]⟩
  · cases hdomain : req.domain with
    | none =>
      have sendable : Sendable req := ⟨unknown, fun addressed => by simp [hdomain] at addressed⟩
      exact Or.inr (Or.inl ⟨sendable, rfl, by simp only [peerRequest, if_neg unknown, hdomain]⟩)
    | some domain =>
      by_cases refused : req.method = .trace ∧ req.bodyView ≠ []
      · refine Or.inl ⟨fun sendable => ?_, .invalidArgument "invalid request body", ?_⟩
        · exact refused.2 (sendable.2 (by rw [hdomain]; rfl) refused.1)
        · simp only [peerRequest, if_neg unknown, hdomain, if_pos refused]
      · have sendable : Sendable req := ⟨unknown, fun _ trace => by simpa [trace] using refused⟩
        refine Or.inr (Or.inr ⟨sendable, ?_⟩)
        simp only [peerRequest, if_neg unknown, hdomain, if_neg refused]
        exact ⟨_, rfl⟩

theorem peerRequest_thrown_iff (c : Crypto) (now : Int) (peer : Peer) (appId : Text)
    (req : FiyRequest) :
    (∃ e, peerRequest c now peer appId req = .error (.thrown e)) ↔ ¬ Sendable req := by
  rcases peerRequest_cases c now peer appId req with
    ⟨unsendable, e, heq⟩ | ⟨sendable, _, heq⟩ | ⟨sendable, r, heq⟩
  · exact iff_of_true ⟨e, heq⟩ unsendable
  · simp [heq, sendable]
  · simp [heq, sendable]

theorem peerRequest_ok {c : Crypto} {now : Int} {peer : Peer} {appId : Text}
    {req : FiyRequest} {r : Request} (h : peerRequest c now peer appId req = .ok r) :
    ∃ domain, r.fields = peerFields c now peer appId req domain ∧ r.body = req.bodyView := by
  simp only [peerRequest] at h
  split at h
  · cases h
  · split at h
    · cases h
    · split at h <;> cases h
      exact ⟨_, rfl, rfl⟩

/-! ## The fields the other side reads -/

theorem find_setHeaders_other (f pairs : Fields) {name : Text}
    (foreign : ∀ field ∈ pairs, iequals field.1 name = false) :
    (setHeaders f pairs).find name = f.find name := by
  induction pairs generalizing f with
  | nil => rfl
  | cons field pairs ih =>
    have tail := ih (f.set field.1 field.2) fun g hg => foreign g (List.mem_cons_of_mem _ hg)
    have head := Fields.find_set_other f field.2 (foreign field List.mem_cons_self)
    exact tail.trans head

/-- Extra headers leave alone what they do not name. -/
theorem find_responseSetHeaders_other (f : Fields) (headers : Option Text) {name : Text}
    (foreign : ∀ field ∈ parsedHeaders headers, iequals field.1 name = false) :
    (responseSetHeaders f headers false).find name = f.find name := by
  cases headers with
  | none => rfl
  | some text => exact find_setHeaders_other f _ foreign

/-- The extra headers name no identity field, no Authorization and no Cookie. -/
def Foreign (pairs : Fields) : Prop :=
  ∀ field ∈ pairs, (field.1.map lower).take 4 ≠ lit "fiy-" ∧
    iequals field.1 "Authorization" = false ∧ iequals field.1 "Cookie" = false

instance (pairs : Fields) : Decidable (Foreign pairs) :=
  inferInstanceAs (Decidable (∀ field ∈ pairs, _ ∧ _))

theorem Foreign.identity {pairs : Fields} (foreign : Foreign pairs) (name : Text)
    (reserved : (name.map lower).take 4 = lit "fiy-") :
    ∀ field ∈ pairs, iequals field.1 name = false := by
  intro field hfield
  by_contra same
  have same' : field.1.map lower = name.map lower := by simpa [iequals] using same
  exact (foreign field hfield).1 (same' ▸ reserved)

/-- What the receiver reads in a request with foreign extra headers. -/
theorem peerRequest_fields {c : Crypto} {now : Int} {peer : Peer} {appId : Text}
    {req : FiyRequest} {r : Request} (h : peerRequest c now peer appId req = .ok r)
    (foreign : Foreign (parsedHeaders req.headers)) :
    r.body = req.bodyView ∧ r.fields.find "Cookie" = none ∧
    r.fields.find "Fiy-Peer" = some peer.auth.bearerTokenWeSend ∧
    r.fields.find "Fiy-User" = some (stringOrEmpty req.user) ∧
    r.fields.find "Fiy-Path" = some (stringOrEmpty req.path) ∧
    r.fields.find "Fiy-Now" = some (decimalInt now) ∧
    r.fields.find "Authorization" = some (lit "FIY1 " ++ peer.sig c appId
      (stringOrEmpty req.path) (stringOrEmpty req.user) req.bodyView.length (decimalInt now)) := by
  obtain ⟨domain, hfields, hbody⟩ := peerRequest_ok h
  have cookie := fun f => find_responseSetHeaders_other f req.headers
    fun field hfield => (foreign field hfield).2.2
  have authorization := fun f => find_responseSetHeaders_other f req.headers
    fun field hfield => (foreign field hfield).2.1
  have identity := fun f name reserved => find_responseSetHeaders_other f req.headers
    (foreign.identity name reserved)
  rw [hfields, peerFields]
  refine ⟨hbody, ?_, ?_, ?_, ?_, ?_, ?_⟩
  · simp only [cookie]
    iterate 6 rw [Fields.find_set_other _ _ (by decide)]
    rfl
  · rw [identity _ _ (by decide)]
    iterate 5 rw [Fields.find_set_other _ _ (by decide)]
    exact Fields.find_set_self _ _ _
  · rw [identity _ _ (by decide)]
    iterate 4 rw [Fields.find_set_other _ _ (by decide)]
    exact Fields.find_set_self _ _ _
  · rw [identity _ _ (by decide)]
    iterate 3 rw [Fields.find_set_other _ _ (by decide)]
    exact Fields.find_set_self _ _ _
  · rw [identity _ _ (by decide)]
    iterate 2 rw [Fields.find_set_other _ _ (by decide)]
    exact Fields.find_set_self _ _ _
  · simp only [authorization]
    rw [Fields.find_set_other _ _ (by decide)]
    exact Fields.find_set_self _ _ _

/-! ## Two linked instances -/

/-- No line end inside and no blank around. -/
def Plain (t : Text) : Prop :=
  (13 : Byte) ∉ t ∧ newline ∉ t ∧ t.head?.all (! isHeaderBlank ·) = true ∧
    t.getLast?.all (! isHeaderBlank ·) = true

instance (t : Text) : Decidable (Plain t) := inferInstanceAs (Decidable (_ ∧ _))

/-- A request of an instance that holds a link, to the instance at its other end. -/
structure LinkedRequest where
  sender : Host
  receiver : Host
  sameCrypto : sender.crypto = receiver.crypto
  /-- the sender's object for the receiver -/
  peer : Peer
  /-- the receiver's object for the sender -/
  p : PeerRef
  sameKey : peer.auth.symKey = (receiver.heap p).auth.symKey
  sameToken : peer.auth.bearerTokenWeSend = (receiver.heap p).auth.bearerTokenWeAccept
  registered :
    receiver.peers.getPeerFromToken (receiver.heap p).auth.bearerTokenWeAccept = some p
  named : (receiver.heap p).domain = sender.config.hostname
  live : (receiver.heap p).auth.isExpired receiver.now = false
  clocks : (receiver.now - sender.now).natAbs ≤ PeerAuth.maxResponseTime
  enabled : receiver.config.federation = .enabled
  appId : Text
  req : FiyRequest
  addressed : req.domain.isSome = true
  foreign : Foreign (parsedHeaders req.headers)
  plain : Plain (stringOrEmpty req.user) ∧ Plain (stringOrEmpty req.path) ∧
    ∀ field ∈ parsedHeaders req.headers, Plain field.2

namespace LinkedRequest

/-- The receiver identifies the sender's user, for the mod the request is meant for. -/
def Accepted (l : LinkedRequest) : Prop :=
  ∃ r h s, peerRequest l.sender.crypto l.sender.now l.peer l.appId l.req = .ok r ∧
    findUser l.receiver (Session.accept r) (some l.appId) =
      .ok (some ⟨some l.sender.config.hostname, stringOrEmpty l.req.user⟩, h, s)

end LinkedRequest

/-- A signature with its scheme name in front is not the bare signature. -/
theorem prefixed_ne (sig : Text) : lit "FIY1 " ++ sig ≠ sig := by
  intro h
  have longer := congrArg List.length h
  have scheme : (lit "FIY1 ").length = 5 := rfl
  rw [List.length_append, scheme] at longer
  omega

/-- Nor are they Basic credentials. -/
theorem basicCredentials_prefixed {f : Fields} {sig : Text} (c : Crypto)
    (h : f.find "Authorization" = some (lit "FIY1 " ++ sig)) : basicCredentials c f = none := by
  rw [basicCredentials, h]
  rfl

/-- The sender prefixes its signature, and the receiver compares with the bare one. -/
theorem never_accepted (l : LinkedRequest) : ¬ l.Accepted := by
  rintro ⟨r, h, s, hr, hfound⟩
  obtain ⟨hbody, hcookie, htoken, huser, hpath, hnow, hauth⟩ := peerRequest_fields hr l.foreign
  have nobody : findUserLocal l.receiver (Session.accept r) =
      (none, l.receiver, (Session.accept r).getCookies) := by
    apply findUserLocal_of_neither
    · rw [heldToken_accept, ownToken, requestCookies, Fields.value, hcookie]
      rfl
    · exact basicCredentials_prefixed _ hauth
  have remote : findPeerUser l.receiver r (some l.appId) =
      .ok (some ⟨some l.sender.config.hostname, stringOrEmpty l.req.user⟩) := by
    simp only [findUser, nobody, getCookies_req] at hfound
    cases hpeer : findPeerUser l.receiver r (some l.appId) with
    | error e => simp [Session.accept, hpeer, Except.map] at hfound
    | ok u =>
      simp only [Session.accept, hpeer, Except.map, Except.ok.injEq, Prod.mk.injEq] at hfound
      rw [hfound.1]
  obtain ⟨q, hq, _, _, signed⟩ := findPeerUser_signed remote
  rw [Fields.value, htoken, Option.getD_some, l.sameToken, l.registered] at hq
  cases hq
  simp only [Fields.value, hauth, hpath, hnow, Option.getD_some, hbody, Peer.sig, l.sameKey,
    l.sameCrypto] at signed
  exact prefixed_ne _ signed

/-- The other end of the link of `demoHost`. -/
def demoSender : Host :=
  { demoHost with
    config := demoConfig "b.net" "l"
    heap := fun _ =>
      { domain := "a.net"
        auth :=
          { demoPeer.auth with
            bearerTokenWeSend := demoPeer.auth.bearerTokenWeAccept
            bearerTokenWeAccept := demoPeer.auth.bearerTokenWeSend } }
    peers :=
      { peersOut := (∅ : Table Text (Option PeerRef)).insert "a.net" (some 0)
        peersIn := (∅ : Table Text (Option PeerRef)).insert ".u" (some 0) } }

/-- `bob` of `b.net` reads a page of the blog on `a.net`. -/
def demoLinked : LinkedRequest where
  sender := demoSender
  receiver := demoHost
  sameCrypto := rfl
  peer := demoSender.heap 0
  p := 0
  sameKey := by decide
  sameToken := by decide
  registered := by decide
  named := by decide
  live := by decide
  clocks := by decide
  enabled := rfl
  appId := "blog"
  req := ⟨some (lit "a.net"), some (lit "bob"), .get, some (lit "/page"),
    some (lit "Accept: text/html"), none⟩
  addressed := rfl
  foreign := by decide
  plain := by decide

/-- The blog answers it with the re-authentication status. -/
theorem demo_request_refused : ¬ demoLinked.Accepted := by
  have answered : (peerRequest demoSender.crypto demoSender.now (demoSender.heap 0) "blog"
      demoLinked.req).toOption.bind (fun r =>
        (findUser demoHost (Session.accept r) (some (lit "blog"))).toOption.map Prod.fst) =
      some none := by decide
  rintro ⟨r, h, s, hr, hfound⟩
  have built : peerRequest demoSender.crypto demoSender.now (demoSender.heap 0) "blog"
      demoLinked.req = .ok r := hr
  have identified : findUser demoHost (Session.accept r) (some (lit "blog")) = .ok (some _, h, s) :=
    hfound
  rw [built] at answered
  simp only [Except.toOption, Option.bind_some, identified, Option.map_some] at answered
  cases answered

end PeerRequests
