import Fiy.HttpMessages
import Fiy.PeerRegistry

/-!
# The responder's half of the handshake

`peer_handshake` checks the request and asks the claimed domain for its key; the rest
runs in the callback of that request. Each lock-held section of the callback finds
the registry as other threads have left it, so the registry is given for every
section, and the run records what each section found and left.
-/

namespace PeerHandshake

open ByteStrings KeyedTables HttpMessages HostEnvironment PeerLinks PeerRegistry
open PeerRegistry.Peers

/-- A generated string. Its alphabet has no line end. -/
abbrev Token := { t : Text // newline ∉ t }

def notAcceptingResponse : Response where
  status := 401
  body := "This instance is not accepting federation requests right now."

def invalidBodyResponse : Response := { status := 400, body := "Invalid handshake body" }

def alreadyPeersResponse : Response := { status := 400, body := "Already peers" }

/-- A default-constructed response has status 200, and the callback assigns it to itself. -/
def noKeyResponse (peer : Peer) : Response where
  status := 200
  body := lit "Failed to get public key from domain " ++ peer.domain

def keyErrorResponse (peer : Peer) : Response where
  status := 404
  body := lit "Could not get public key from domain " ++ peer.domain

def invalidSignatureResponse : Response := { status := 401, body := "Invalid signature" }

/-- The bearer token, our part of the secret, and a signature of both. -/
def handshakeResponse (c : Crypto) (cfg : Config) (token ourSecret : Text) : Response where
  status := 200
  body := token ++ newline :: ourSecret ++
    newline :: c.sign cfg.privateKey (token ++ newline :: ourSecret)

theorem handshakeResponse_token (c : Crypto) (cfg : Config) (ourSecret : Text) {token : Text}
    (line : newline ∉ token) :
    ∃ rest, cut newline (handshakeResponse c cfg token ourSecret).body = some (token, rest) := by
  rw [handshakeResponse, List.append_assoc]
  exact ⟨_, cut_append line _⟩

/-- The answer to `GET /peer/key`. -/
def peerKeyResponse (cfg : Config) (now : Int) : Response :=
  if cfg.federation = .disabled then { status := 401 }
  else
    { status := 200
      fields := Fields.set [] "Fiy-Now" (decimalInt now)
      body := cfg.publicKey }

/-- `peer_handshake` up to the key request: a refusal, or what the request carries. -/
def peerHandshake (cfg : Config) (ps : Peers) (now : Int) (body generated : Text) :
    Except Response (Peer × Text) :=
  match cfg.federation with
  | .disabled => .error notAcceptingResponse
  | .rejectIncoming => .error notAcceptingResponse
  | .enabled => match Peer.parseHandshakeRequest body generated now with
    | none => .error invalidBodyResponse
    | some (peer, signature) =>
      if (ps.getPeerForDomain peer.domain).isSome then .error alreadyPeersResponse
      else .ok (peer, signature)

/-- The text whose signature the responder checks, from the fields of its object. -/
def signedData (peer : Peer) : Text :=
  PeerAuth.handshakePayload peer.domain peer.auth.symKey peer.auth.bearerTokenWeSend

/-- What a section found and what it left. -/
abbrev Section := Peers × Peers

structure Registration where
  /-- the loop saw another peer of this domain and gave up -/
  rival : Bool
  /-- the object, with the last token that was tried -/
  peer : Peer
  sections : List Section

def retoken (peer : Peer) (token : Text) : Peer :=
  { peer with auth := { peer.auth with bearerTokenWeAccept := token } }

/-- `sym_key += our_secret` -/
def addSecret (peer : Peer) (ourSecret : Text) : Peer :=
  { peer with auth := { peer.auth with symKey := peer.auth.symKey ++ ourSecret } }

/-- The loop over `add_peer`, with the tries that are left. Attempt `k` and the check
after it are the sections `2k + 1` and `2k + 2`. The last attempt is not checked. -/
def registrationLoop (heap : Heap) (views : Nat → Peers) (generated : Nat → Token)
    (p : PeerRef) : Nat → Nat → Peer → Registration
  | 0, k, peer =>
    let view := views (2 * k + 1)
    ⟨false, peer, [(view, (view.addPeer (Function.update heap p peer) peer.domain p).2)]⟩
  | tries + 1, k, peer =>
    let view := views (2 * k + 1)
    let (added, left) := view.addPeer (Function.update heap p peer) peer.domain p
    let check := views (2 * k + 2)
    if added then ⟨false, peer, [(view, left)]⟩
    else if (check.getPeerForDomain peer.domain).isSome then
      ⟨true, peer, [(view, left), (check, check)]⟩
    else
      let next := registrationLoop heap views generated p tries (k + 1)
        (retoken peer (generated (k + 1)).val)
      { next with sections := (view, left) :: (check, check) :: next.sections }

def maxTries : Nat := 10

/-- What the responder does on the connection and to the registry. -/
structure Responder where
  responses : List Response := []
  sections : List Section := []
  /-- the object, when the registration loop has run -/
  object : Option Peer := none
  thrown : Option Exn := none

inductive KeyReply
  | response (res : Response)
  | transportError
  deriving DecidableEq, Repr

/-- `with_pubkey_cb`. The first response is not followed by a return. -/
def withPubkeyCb (c : Crypto) (cfg : Config) (heap : Heap) (views : Nat → Peers)
    (generated : Nat → Token) (ourSecret : Token) (p : PeerRef) (peer : Peer)
    (signature : Text) (res : Response) : Responder :=
  let early := if res.status ≠ 200 then [noKeyResponse peer] else []
  match c.verify res.body (signedData peer) signature with
  | .error e => { responses := early, thrown := some e }
  | .ok false => { responses := early ++ [invalidSignatureResponse] }
  | .ok true =>
    let r := registrationLoop heap views generated p maxTries 0 (addSecret peer ourSecret.val)
    { sections := r.sections
      object := some r.peer
      responses := early ++ [if r.rival then alreadyPeersResponse
        else handshakeResponse c cfg r.peer.auth.bearerTokenWeAccept ourSecret.val] }

/-- The registry as each section finds it. Nobody else knows the new object, so no
section finds it registered before the callback has registered it. -/
structure Views (p : PeerRef) where
  view : Nat → Peers
  unknown : ∀ i d, found (view i).peersOut d ≠ some p

/-- A whole run of the responder. -/
def respond (c : Crypto) (cfg : Config) (now : Int) (heap : Heap) {p : PeerRef}
    (views : Views p) (generated : Nat → Token) (ourSecret : Token) (body : Text)
    (reply : KeyReply) : Responder :=
  match peerHandshake cfg (views.view 0) now body (generated 0).val with
  | .error res => { responses := [res], sections := [(views.view 0, views.view 0)] }
  | .ok (peer, signature) => match reply with
    | .transportError => { responses := [keyErrorResponse peer] }
    | .response res =>
      withPubkeyCb c cfg heap views.view generated ourSecret p peer signature res

/-! ## What a response promises -/

/-- The key came with status 200 and verifies the signature over the parsed fields. -/
def KeyVerified (c : Crypto) (r : Peer.HandshakeRequest) (reply : KeyReply) : Prop :=
  ∃ res, reply = .response res ∧ res.status = 200 ∧
    c.verify res.body (PeerAuth.handshakePayload (cstr r.domain) r.secret r.bearerToken)
      r.signature = .ok true

/-- The registry the run leaves maps the domain and the token in the body to the peer. -/
def Registered (p : PeerRef) (r : Peer.HandshakeRequest) (run : Responder) (body : Text) :
    Prop :=
  ∃ last token rest, run.sections.getLast? = some last ∧ cut newline body = some (token, rest) ∧
    found last.2.peersOut (cstr r.domain) = some p ∧ found last.2.peersIn token = some p

/-- One response; status 200 keeps its promises, any other leaves the registry alone. -/
def Sound (c : Crypto) (p : PeerRef) (body : Text) (reply : KeyReply) (run : Responder) :
    Prop :=
  ∃ res, run.responses = [res] ∧
    (res.status = 200 → ∃ r, Peer.splitHandshakeRequest body = some r ∧
      KeyVerified c r reply ∧ Registered p r run res.body) ∧
    (res.status ≠ 200 → ∀ s ∈ run.sections, s.2 = s.1)

/-! ## The registration loop -/

section loop
variable {heap : Heap} {views : Nat → Peers} {generated : Nat → Token} {p : PeerRef}

/-- The token of attempt `k`. -/
def tokenAt (first : Text) (generated : Nat → Token) : Nat → Text
  | 0 => first
  | k + 1 => (generated (k + 1)).val

/-- Attempt `k` finds the domain or the token taken. -/
def Taken (views : Nat → Peers) (generated : Nat → Token) (domain first : Text) (k : Nat) :
    Prop :=
  domain ∈ (views (2 * k + 1)).peersOut ∨
    tokenAt first generated k ∈ (views (2 * k + 1)).peersIn

/-- The check after attempt `k` finds a peer of this domain. -/
def Rival (views : Nat → Peers) (domain : Text) (k : Nat) : Prop :=
  ((views (2 * k + 2)).getPeerForDomain domain).isSome = true

/-- Attempt `k` is reached: all earlier ones fail and see no rival. -/
def Reached (views : Nat → Peers) (generated : Nat → Token) (domain first : Text) (k : Nat) :
    Prop :=
  ∀ i < k, Taken views generated domain first i ∧ ¬ Rival views domain i

/-- The loop stops at a rival. -/
def StopsAtRival (views : Nat → Peers) (generated : Nat → Token) (domain first : Text) :
    Prop :=
  ∃ k < maxTries, Reached views generated domain first k ∧
    Taken views generated domain first k ∧ Rival views domain k

/-- Every attempt fails, and no check sees a rival. -/
def Exhausted (views : Nat → Peers) (generated : Nat → Token) (domain first : Text) : Prop :=
  Reached views generated domain first maxTries ∧
    Taken views generated domain first maxTries

/-- How the loop ends, started at attempt `k` with the token of that attempt. -/
inductive LoopEnd (views : Nat → Peers) (generated : Nat → Token) (p : PeerRef)
    (domain first : Text) (bound : Nat) (r : Registration) : Prop
  | registered (k : Nat) (le : k ≤ bound) (reached : Reached views generated domain first k)
      (free : ¬ Taken views generated domain first k) (silent : r.rival = false)
      (token : r.peer.auth.bearerTokenWeAccept = tokenAt first generated k)
      (last : r.sections.getLast? = some (views (2 * k + 1),
        ⟨(views (2 * k + 1)).peersOut.insert domain (some p),
          (views (2 * k + 1)).peersIn.insert (tokenAt first generated k) (some p)⟩))
  | rival (k : Nat) (lt : k < bound) (reached : Reached views generated domain first k)
      (taken : Taken views generated domain first k) (seen : Rival views domain k)
      (gaveUp : r.rival = true) (unchanged : ∀ s ∈ r.sections, s.2 = s.1)
  | exhausted (reached : Reached views generated domain first bound)
      (taken : Taken views generated domain first bound) (silent : r.rival = false)
      (last : r.sections.getLast? = some (views (2 * bound + 1), views (2 * bound + 1)))

theorem attempt_cases (heap : Heap) (views : Nat → Peers) (p : PeerRef) {peer : Peer}
    {domain first : Text} {k : Nat}
    (hdomain : peer.domain = domain)
    (htoken : peer.auth.bearerTokenWeAccept = tokenAt first generated k) :
    (¬ Taken views generated domain first k ∧
      (views (2 * k + 1)).addPeer (Function.update heap p peer) peer.domain p =
        (true, ⟨(views (2 * k + 1)).peersOut.insert domain (some p),
          (views (2 * k + 1)).peersIn.insert (tokenAt first generated k) (some p)⟩)) ∨
    (Taken views generated domain first k ∧
      (views (2 * k + 1)).addPeer (Function.update heap p peer) peer.domain p =
        (false, views (2 * k + 1))) := by
  subst hdomain
  have own : (Function.update heap p peer p).auth.bearerTokenWeAccept =
      tokenAt first generated k := by simp [htoken]
  rcases addPeer_cases (Function.update heap p peer) (views (2 * k + 1)) peer.domain p with
    ⟨hd, ht, heq⟩ | ⟨hor, heq⟩
  · rw [own] at ht heq
    refine Or.inl ⟨?_, heq⟩
    rintro (taken | taken)
    · exact hd taken
    · exact ht taken
  · rw [own] at hor
    exact Or.inr ⟨hor, heq⟩

theorem registrationLoop_end (heap : Heap) {domain first : Text} (tries k : Nat) (peer : Peer)
    (hdomain : peer.domain = domain)
    (htoken : peer.auth.bearerTokenWeAccept = tokenAt first generated k)
    (reached : Reached views generated domain first k) :
    LoopEnd views generated p domain first (k + tries)
      (registrationLoop heap views generated p tries k peer) := by
  induction tries generalizing k peer with
  | zero =>
    rcases attempt_cases heap views p hdomain htoken with
      ⟨free, heq⟩ | ⟨taken, heq⟩
    · exact .registered k (Nat.le_refl k) reached free rfl htoken
        (by simp [registrationLoop, heq])
    · exact .exhausted reached taken rfl (by simp [registrationLoop, heq])
  | succ tries ih =>
    rcases attempt_cases heap views p hdomain htoken with
      ⟨free, heq⟩ | ⟨taken, heq⟩
    · have stop : registrationLoop heap views generated p (tries + 1) k peer =
          ⟨false, peer, [(views (2 * k + 1),
            ⟨(views (2 * k + 1)).peersOut.insert domain (some p),
              (views (2 * k + 1)).peersIn.insert (tokenAt first generated k) (some p)⟩)]⟩ := by
        simp [registrationLoop, heq]
      rw [stop]
      exact .registered k (Nat.le_add_right k _) reached free rfl htoken rfl
    · by_cases seen : Rival views domain k
      · have seen' : ((views (2 * k + 2)).getPeerForDomain peer.domain).isSome = true := by
          rw [hdomain]
          exact seen
        have stop : registrationLoop heap views generated p (tries + 1) k peer =
            ⟨true, peer, [(views (2 * k + 1), views (2 * k + 1)),
              (views (2 * k + 2), views (2 * k + 2))]⟩ := by
          simp [registrationLoop, heq, seen']
        rw [stop]
        exact .rival k (by omega) reached taken seen rfl (by simp)
      · have unseen : ¬ ((views (2 * k + 2)).getPeerForDomain peer.domain).isSome = true := by
          rw [hdomain]
          exact seen
        have further : Reached views generated domain first (k + 1) := by
          intro i hi
          by_cases last : i = k
          · exact last ▸ ⟨taken, seen⟩
          · exact reached i (by omega)
        have rest := ih (k + 1) (retoken peer (generated (k + 1)).val) hdomain rfl further
        have go : registrationLoop heap views generated p (tries + 1) k peer =
            { registrationLoop heap views generated p tries (k + 1)
                (retoken peer (generated (k + 1)).val) with
              sections := (views (2 * k + 1), views (2 * k + 1)) ::
                (views (2 * k + 2), views (2 * k + 2)) ::
                (registrationLoop heap views generated p tries (k + 1)
                  (retoken peer (generated (k + 1)).val)).sections } := by
          simp [registrationLoop, heq, unseen]
        rw [go]
        rw [show k + 1 + tries = k + (tries + 1) by omega] at rest
        cases rest with
        | registered j le reached free silent token last =>
          exact .registered j le reached free silent token (by simp [List.getLast?_cons, last])
        | rival j lt reached taken seen gaveUp unchanged =>
          exact .rival j lt reached taken seen gaveUp (by simpa using unchanged)
        | exhausted reached taken silent last =>
          exact .exhausted reached taken silent (by simp [List.getLast?_cons, last])

theorem registered_exclusive {domain first : Text} {k : Nat} (le : k ≤ maxTries)
    (free : ¬ Taken views generated domain first k)
    (reached : Reached views generated domain first k) :
    ¬ StopsAtRival views generated domain first ∧ ¬ Exhausted views generated domain first := by
  constructor
  · rintro ⟨j, _, reached', taken, seen⟩
    rcases Nat.lt_trichotomy j k with before | same | after
    · exact (reached j before).2 seen
    · exact free (same ▸ taken)
    · exact free (reached' k after).1
  · rintro ⟨reached', taken⟩
    rcases Nat.lt_or_eq_of_le le with before | same
    · exact free (reached' k before).1
    · exact free (same ▸ taken)

end loop

/-! ## When the responder keeps its promises -/

theorem peerHandshake_ok_iff {cfg : Config} {ps : Peers} {now : Int} {body generated : Text}
    {peer : Peer} {signature : Text} :
    peerHandshake cfg ps now body generated = .ok (peer, signature) ↔
      cfg.federation = .enabled ∧ ∃ r, Peer.splitHandshakeRequest body = some r ∧
        found ps.peersOut (cstr r.domain) = none ∧
        peer = Peer.make r.domain
          (PeerAuth.ofProvided r.secret r.bearerToken generated now) ∧
        signature = r.signature := by
  cases hstatus : cfg.federation with
  | disabled => simp [peerHandshake, hstatus]
  | rejectIncoming => simp [peerHandshake, hstatus]
  | enabled =>
    cases hsplit : Peer.splitHandshakeRequest body with
    | none => simp [peerHandshake, hstatus, Peer.parseHandshakeRequest, hsplit]
    | some r =>
      cases hknown : found ps.peersOut (cstr r.domain) with
      | none =>
        simp [peerHandshake, hstatus, Peer.parseHandshakeRequest, hsplit, Peer.make,
          getPeerForDomain, hknown, eq_comm]
      | some q =>
        simp [peerHandshake, hstatus, Peer.parseHandshakeRequest, hsplit, Peer.make,
          getPeerForDomain, hknown]

theorem peerHandshake_refusal {cfg : Config} {ps : Peers} {now : Int} {body generated : Text}
    {res : Response} (h : peerHandshake cfg ps now body generated = .error res) :
    res.status ≠ 200 := by
  simp only [peerHandshake] at h
  split at h
  · cases h
    decide
  · cases h
    decide
  · split at h
    · cases h
      decide
    · split at h <;> cases h
      decide

/-- No part of a parsed request but the signature has a line end. -/
theorem splitHandshakeRequest_lines {body : Text} {r : Peer.HandshakeRequest}
    (h : Peer.splitHandshakeRequest body = some r) : newline ∉ r.secret := by
  simp only [Peer.splitHandshakeRequest] at h
  split at h
  · cases h
  · split at h
    · cases h
    · rename_i secret rest hsecret
      split at h
      · cases h
      · split at h <;> cases h
        exact (cut_eq_some_iff.mp hsecret).2

section runs
variable {c : Crypto} {cfg : Config} {now : Int} {heap : Heap} {p : PeerRef}
variable {views : Views p} {generated : Nat → Token} {ourSecret : Token} {body : Text}

/-- A request that reaches the key callback: the key must come with status 200, and the
signature over the rotated fields must either be refused, or be accepted where the loop
stops at a rival, or where it ends and the parsed fields verify as well. -/
def Honoured (c : Crypto) (cfg : Config) (views : Views p) (generated : Nat → Token)
    (body : Text) (reply : KeyReply) : Prop :=
  cfg.federation = .enabled → ∀ r, Peer.splitHandshakeRequest body = some r →
    found (views.view 0).peersOut (cstr r.domain) = none → ∀ res, reply = .response res →
      let rotated := c.verify res.body
        (PeerAuth.handshakePayload (cstr r.domain) r.bearerToken (generated 0).val) r.signature
      let parsed := c.verify res.body
        (PeerAuth.handshakePayload (cstr r.domain) r.secret r.bearerToken) r.signature
      res.status = 200 ∧ (rotated = .ok false ∨ rotated = .ok true ∧
        (StopsAtRival views.view generated (cstr r.domain) r.secret ∨
          parsed = .ok true ∧ ¬ Exhausted views.view generated (cstr r.domain) r.secret))

/-- The callback of a key that came with status 200. -/
theorem withPubkeyCb_sound_iff {r : Peer.HandshakeRequest} {res : Response}
    (hsplit : Peer.splitHandshakeRequest body = some r) (hstatus : res.status = 200) :
    Sound c p body (.response res)
        (withPubkeyCb c cfg heap views.view generated ourSecret p
          (Peer.make r.domain (PeerAuth.ofProvided r.secret r.bearerToken (generated 0).val now))
          r.signature res) ↔
      (c.verify res.body (PeerAuth.handshakePayload (cstr r.domain) r.bearerToken
          (generated 0).val) r.signature = .ok false ∨
        c.verify res.body (PeerAuth.handshakePayload (cstr r.domain) r.bearerToken
          (generated 0).val) r.signature = .ok true ∧
        (StopsAtRival views.view generated (cstr r.domain) r.secret ∨
          c.verify res.body (PeerAuth.handshakePayload (cstr r.domain) r.secret r.bearerToken)
            r.signature = .ok true ∧
          ¬ Exhausted views.view generated (cstr r.domain) r.secret)) := by
  have data : signedData (Peer.make r.domain
      (PeerAuth.ofProvided r.secret r.bearerToken (generated 0).val now)) =
      PeerAuth.handshakePayload (cstr r.domain) r.bearerToken (generated 0).val := rfl
  simp only [withPubkeyCb, data, hstatus, ne_eq, not_true_eq_false, if_false, List.nil_append]
  cases hverify : c.verify res.body (PeerAuth.handshakePayload (cstr r.domain) r.bearerToken
    (generated 0).val) r.signature with
  | error e => simp [Sound]
  | ok valid =>
    cases valid with
    | false => simp [Sound, invalidSignatureResponse]
    | true =>
      simp only [Except.ok.injEq, Bool.true_eq_false, false_or, true_and]
      have none_before : Reached views.view generated (cstr r.domain) r.secret 0 :=
        fun i hi => absurd hi (Nat.not_lt_zero i)
      have ending : LoopEnd views.view generated p (cstr r.domain) r.secret (0 + maxTries) _ :=
        registrationLoop_end heap maxTries 0 (addSecret (Peer.make r.domain
          (PeerAuth.ofProvided r.secret r.bearerToken (generated 0).val now)) ourSecret.val)
          rfl rfl none_before
      rw [Nat.zero_add] at ending
      cases ending with
      | registered k le reached free silent token last =>
        obtain ⟨noRival, notExhausted⟩ := registered_exclusive le free reached
        have line : newline ∉ tokenAt r.secret generated k := by
          cases k with
          | zero => exact splitHandshakeRequest_lines hsplit
          | succ k => exact (generated (k + 1)).property
        simp only [silent, token, Sound, Bool.false_eq_true, if_false, List.cons.injEq, and_true,
          noRival, notExhausted, false_or, not_false_eq_true]
        constructor
        · rintro ⟨_, rfl, promise, _⟩
          obtain ⟨r', hr', ⟨res', hres', _, valid⟩, _⟩ := promise rfl
          rw [hsplit] at hr'
          cases hr'
          cases hres'
          exact valid
        · intro valid
          obtain ⟨rest, hrest⟩ := handshakeResponse_token c cfg ourSecret.val line
          refine ⟨_, rfl, fun _ => ⟨r, hsplit, ⟨res, rfl, hstatus, valid⟩,
            _, _, rest, last, hrest, ?_, ?_⟩, fun other => absurd rfl other⟩
          · simp [found]
          · simp [found]
      | rival k lt reached taken seen gaveUp unchanged =>
        have stops : StopsAtRival views.view generated (cstr r.domain) r.secret :=
          ⟨k, lt, reached, taken, seen⟩
        refine iff_of_true ⟨alreadyPeersResponse, by simp [gaveUp], ?_, fun _ => unchanged⟩
          (Or.inl stops)
        intro ok
        cases ok
      | exhausted reached taken silent last =>
        refine iff_of_false ?_ ?_
        · rintro ⟨res', hres', promise, _⟩
          simp only [silent, Bool.false_eq_true, if_false, List.cons.injEq, and_true] at hres'
          obtain ⟨r', hr', _, last', token, rest, hlast, _, hout, _⟩ := promise (hres' ▸ rfl)
          rw [last] at hlast
          cases hlast
          exact views.unknown _ _ hout
        · rintro (⟨k, lt, _, _, seen⟩ | ⟨_, notExhausted⟩)
          · exact (reached k lt).2 seen
          · exact notExhausted ⟨reached, taken⟩

/-- A key that did not come with status 200 is answered with status 200. -/
theorem withPubkeyCb_unsound {res : Response} {peer : Peer} {signature : Text}
    (hstatus : res.status ≠ 200) :
    ¬ Sound c p body (.response res)
      (withPubkeyCb c cfg heap views.view generated ourSecret p peer signature res) := by
  have early : ∃ later, (withPubkeyCb c cfg heap views.view generated ourSecret p peer
      signature res).responses = noKeyResponse peer :: later := by
    simp only [withPubkeyCb, ne_eq, hstatus, not_false_eq_true, if_true]
    split <;> exact ⟨_, rfl⟩
  rintro ⟨res', hres', promise, _⟩
  obtain ⟨later, hlater⟩ := early
  rw [hlater] at hres'
  obtain ⟨_, _, ⟨keyRes, hreply, ok, _⟩, _⟩ := promise ((List.cons.inj hres').1 ▸ rfl)
  cases hreply
  exact hstatus ok

/-- The responder is sound exactly where `Honoured` holds. -/
theorem respond_sound_iff (c : Crypto) (cfg : Config) (now : Int) (heap : Heap) {p : PeerRef}
    (views : Views p) (generated : Nat → Token) (ourSecret : Token) (body : Text)
    (reply : KeyReply) :
    Sound c p body reply (respond c cfg now heap views generated ourSecret body reply) ↔
      Honoured c cfg views generated body reply := by
  cases hshake : peerHandshake cfg (views.view 0) now body (generated 0).val with
  | error res =>
    have refused := peerHandshake_refusal hshake
    refine iff_of_true ?_ ?_
    · exact ⟨res, by simp [respond, hshake], fun ok => absurd ok refused,
        by simp [respond, hshake]⟩
    · intro enabled r hsplit unknown
      have accepted : peerHandshake cfg (views.view 0) now body (generated 0).val =
          .ok (_, r.signature) :=
        peerHandshake_ok_iff.mpr ⟨enabled, r, hsplit, unknown, rfl, rfl⟩
      rw [hshake] at accepted
      cases accepted
  | ok request =>
    obtain ⟨peer, signature⟩ := request
    obtain ⟨enabled, r, hsplit, unknown, rfl, rfl⟩ := peerHandshake_ok_iff.mp hshake
    cases reply with
    | transportError =>
      refine iff_of_true ?_ ?_
      · simp only [respond, hshake, Sound]
        refine ⟨_, rfl, fun ok => ?_, by simp⟩
        cases ok
      · intro _ r' _ _ res hres
        cases hres
    | response res =>
      simp only [respond, hshake]
      by_cases hstatus : res.status = 200
      · rw [withPubkeyCb_sound_iff hsplit hstatus]
        constructor
        · intro condition _ r' hr' _ res' hres'
          rw [hsplit] at hr'
          cases hr'
          cases hres'
          exact ⟨hstatus, condition⟩
        · intro condition
          exact (condition enabled r hsplit unknown res rfl).2
      · refine iff_of_false (withPubkeyCb_unsound hstatus) ?_
        intro condition
        exact hstatus (condition enabled r hsplit unknown res rfl).1

end runs

/-- A registry nobody else uses. -/
def emptyViews : Views 0 := ⟨fun _ => Peers.empty, fun _ _ h => by cases h⟩

/-- The claimed domain has no key page, and the request is answered with status 200. -/
theorem missing_key_accepted :
    ¬ Sound demoCrypto 0 "evil.net\ns\nt\nsignature" (.response { status := 404 })
      (respond demoCrypto (demoConfig "a.net" "k") 1000 (fun _ => ⟨[], {}⟩) emptyViews
        (fun _ => ⟨lit ".token", by decide⟩) ⟨lit ".secret", by decide⟩
        "evil.net\ns\nt\nsignature" (.response { status := 404 })) := by
  rintro ⟨res, hres, promise, _⟩
  cases hres
  obtain ⟨_, _, ⟨keyRes, hreply, ok, _⟩, _⟩ := promise rfl
  cases hreply
  cases ok

end PeerHandshake
