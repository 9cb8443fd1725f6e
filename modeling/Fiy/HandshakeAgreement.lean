import Fiy.PeerHandshake

/-!
# A handshake between two honest instances

The whole exchange over a lossless network: the initiator's key request, its
handshake request, the responder's key request and registration, and the initiator's
callback. Both instances run with federation enabled and know nothing of each other.
The bearer token the initiator generates is never put into the request, so the
responder refuses every one of them.
-/

namespace HandshakeAgreement

open ByteStrings KeyedTables HttpMessages HostEnvironment PeerLinks PeerRegistry PeerHandshake
open PeerRegistry.Peers

/-- A generated string that is not empty. -/
abbrev Draw := { t : Text // newline ∉ t ∧ t ≠ [] }

structure Instance where
  config : Config
  heap : Heap
  peers : Peers
  /-- the address of the object this handshake allocates -/
  fresh : PeerRef
  enabled : config.federation = .enabled
  hostLine : newline ∉ config.hostname
  hostNonempty : config.hostname ≠ []
  unknown : ∀ d, found peers.peersOut d ≠ some fresh

structure HonestPair where
  crypto : Crypto
  now : Int
  initiator : Instance
  responder : Instance
  signs : ∀ i ∈ [initiator, responder], ∀ m,
    crypto.verify i.config.publicKey m (crypto.sign i.config.privateKey m) = .ok true ∧
      newline ∉ crypto.sign i.config.privateKey m
  strangers : responder.config.hostname ∉ initiator.peers.peersOut ∧
    initiator.config.hostname ∉ responder.peers.peersOut
  stubs : List Draw
  ourSymkeyHalf : Draw
  generated : Nat → Draw
  ourSecret : Draw

namespace HonestPair

/-- What the handshake leaves on both sides, and the pointer it calls back with. -/
structure Outcome where
  called : Option PeerRef
  initiatorHeap : Heap
  initiatorPeers : Peers
  responderHeap : Heap
  responderPeers : Peers

/-- The responder's side. No other thread touches its registry. -/
def answer (pair : HonestPair) (body : Text) : Responder :=
  respond pair.crypto pair.responder.config pair.now pair.responder.heap
    (⟨fun _ => pair.responder.peers, fun _ => pair.responder.unknown⟩ :
      Views pair.responder.fresh)
    (fun i => ⟨(pair.generated i).val, (pair.generated i).property.1⟩)
    ⟨pair.ourSecret.val, pair.ourSecret.property.1⟩ body
    (.response (peerKeyResponse pair.initiator.config pair.now))

/-- `new_peer` on the initiator. `none`: no generated stub is free yet, or an
exception ended the initiator, or not exactly one response came back. -/
def run (pair : HonestPair) : Option Outcome :=
  let a := pair.initiator
  let b := pair.responder
  match withKeyCb pair.crypto a.config a.peers b.config.hostname
    (peerKeyResponse b.config pair.now) (pair.stubs.map Subtype.val)
    pair.ourSymkeyHalf.val with
  | none => none
  | some (none, peers) => some ⟨none, a.heap, peers, b.heap, b.peers⟩
  | some (some (peer, body), peers) =>
    let answered := pair.answer body
    let bHeap := match answered.object with
      | none => b.heap
      | some object => Function.update b.heap b.fresh object
    let bPeers := match answered.sections.getLast? with
      | none => b.peers
      | some last => last.2
    match answered.responses with
    | [res] =>
      match handshakeCb pair.crypto pair.now (Function.update a.heap a.fresh peer) peers
        a.fresh res with
      | .error _ => none
      | .ok (false, heap, peers) => some ⟨none, heap, peers, bHeap, bPeers⟩
      | .ok (true, heap, peers) =>
        let (registered, peers) := handshakeRegister heap peers a.fresh
        some ⟨if registered then some a.fresh else none, heap, peers, bHeap, bPeers⟩
    | _ => none

/-- One side is registered under the other's domain and under the token it accepts. -/
def RegisteredAs (heap : Heap) (ps : Peers) (p : PeerRef) (domain : Text) : Prop :=
  (heap p).domain = domain ∧ found ps.peersOut domain = some p ∧
    found ps.peersIn (heap p).auth.bearerTokenWeAccept = some p

/-- The caller gets a peer, and both sides hold the two ends of one link. -/
def Agreement (pair : HonestPair) : Prop :=
  ∃ o, pair.run = some o ∧
    let p := pair.initiator.fresh
    let q := pair.responder.fresh
    let a := (o.initiatorHeap p).auth
    let b := (o.responderHeap q).auth
    o.called = some p ∧
    RegisteredAs o.initiatorHeap o.initiatorPeers p pair.responder.config.hostname ∧
    RegisteredAs o.responderHeap o.responderPeers q pair.initiator.config.hostname ∧
    a.bearerTokenWeSend = b.bearerTokenWeAccept ∧
    b.bearerTokenWeSend = a.bearerTokenWeAccept ∧
    a.symKey = b.symKey

end HonestPair

/-! ## Why no handshake succeeds -/

/-- The request carries an empty bearer token: the generated one is the token to send. -/
theorem request_unparsable (c : Crypto) {cfg : Config} {half : Text} (token key : Text)
    (hostLine : newline ∉ cfg.hostname) (halfLine : newline ∉ half) :
    Peer.splitHandshakeRequest
      ((({} : PeerAuth).handshakeStart token key half).handshakeRequestBody c cfg) = none := by
  simp [PeerAuth.handshakeRequestBody, PeerAuth.handshakeStart,
    Peer.splitHandshakeRequest_join hostLine halfLine List.not_mem_nil]

/-- The responder answers it with status 400. -/
theorem request_refused (pair : HonestPair) {body : Text}
    (unparsable : Peer.splitHandshakeRequest body = none) :
    (pair.answer body).responses = [invalidBodyResponse] := by
  simp [HonestPair.answer, respond, peerHandshake, pair.responder.enabled,
    Peer.parseHandshakeRequest, unparsable]

/-- The initiator calls back with a null pointer. -/
theorem called_null (pair : HonestPair) {o : HonestPair.Outcome} (h : pair.run = some o) :
    o.called = none := by
  simp only [HonestPair.run] at h
  split at h
  · cases h
  · cases h
    rfl
  · rename_i peer body peers hkey
    have unparsable : Peer.splitHandshakeRequest body = none := by
      simp only [withKeyCb] at hkey
      split at hkey
      · cases hkey
      · obtain ⟨⟨token, ps⟩, _, heq⟩ := Option.map_eq_some_iff.mp hkey
        cases heq
        exact request_unparsable pair.crypto token _ pair.initiator.hostLine
          pair.ourSymkeyHalf.property.1
    have refused : handshakeCb pair.crypto pair.now
        (Function.update pair.initiator.heap pair.initiator.fresh peer) peers
        pair.initiator.fresh invalidBodyResponse =
          .ok (false, Function.update pair.initiator.heap pair.initiator.fresh peer, peers) := by
      simp [handshakeCb, invalidBodyResponse]
    simp only [request_refused pair unparsable, refused, Option.some.injEq] at h
    exact h ▸ rfl

/-- A reply the initiator accepts ends no better: the peer it has just added makes its
second section fail, which takes the token back. -/
theorem accepted_reply_null {c : Crypto} {now : Int} {heap heap' : Heap} {ps ps' : Peers}
    {p : PeerRef} {res : Response} (h : handshakeCb c now heap ps p res = .ok (true, heap', ps')) :
    (handshakeRegister heap' ps' p).1 = false ∧
      found (handshakeRegister heap' ps' p).2.peersIn
        (heap' p).auth.bearerTokenWeAccept = none := by
  have added : (heap' p).domain ∈ ps'.peersOut := by
    simp only [handshakeCb] at h
    split at h
    · cases h
    · split at h
      · cases h
      · rename_i parsed auth _
        cases parsed with
        | false => cases h
        | true =>
          simp only [if_true, Except.ok.injEq, Prod.mk.injEq] at h
          obtain ⟨hadd, rfl, rfl⟩ := h
          rcases addPeer_cases (Function.update heap p { heap p with auth }) ps
            (Function.update heap p { heap p with auth } p).domain p with
            ⟨_, _, heq⟩ | ⟨_, heq⟩
          · rw [heq]
            simp
          · rw [heq] at hadd
            cases hadd
  rcases handshakeRegister_cases heap' ps' p with ⟨absent, _⟩ | ⟨_, heq⟩
  · exact absurd added absent
  · rw [heq]
    simp [found]

/-- No two honest instances ever agree on a link. -/
theorem no_agreement (pair : HonestPair) : ¬ pair.Agreement := by
  rintro ⟨o, hrun, called, _⟩
  rw [called_null pair hrun] at called
  cases called

/-- `a.net` and `b.net`, with empty registries. -/
def demoPair : HonestPair where
  crypto := demoCrypto
  now := 1000
  initiator := ⟨demoConfig "a.net" "k", fun _ => ⟨[], {}⟩, Peers.empty, 0, rfl, by decide,
    by decide, fun _ h => by cases h⟩
  responder := ⟨demoConfig "b.net" "l", fun _ => ⟨[], {}⟩, Peers.empty, 0, rfl, by decide,
    by decide, fun _ h => by cases h⟩
  signs := by
    intro i hi m
    simp only [List.mem_cons, List.not_mem_nil, or_false] at hi
    rcases hi with rfl | rfl
    · exact ⟨demoCrypto_verify "k" m, newline_notMem_demoSignature (by decide) m⟩
    · exact ⟨demoCrypto_verify "l" m, newline_notMem_demoSignature (by decide) m⟩
  strangers := by decide
  stubs := [⟨".stub", by decide⟩]
  ourSymkeyHalf := ⟨".half", by decide⟩
  generated := fun _ => ⟨".token", by decide⟩
  ourSecret := ⟨".secret", by decide⟩

/-- Their handshake ends, with a null pointer. -/
theorem demo_pair_fails : ¬ demoPair.Agreement := by
  have called : demoPair.run.map HonestPair.Outcome.called = some none := by decide
  rintro ⟨o, hrun, agreed, _⟩
  rw [hrun] at called
  rw [Option.map_some, agreed] at called
  cases called

end HandshakeAgreement
