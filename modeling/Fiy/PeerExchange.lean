import Fiy.GuardedRuns
import Fiy.PendingWork
import Fiy.EscapedExceptions

/-!
# The answer to a peer request

One request of a mod, from `request_impl` through the key request, the handshake and
the request to the peer. What the two HTTP clients and a local mod have pending is a
pool of operations; each event completes one of them and runs its handler. A handler
finds the registry and the heap as other threads have left them, and texts of requests
that nothing reads are not kept. The callback of the mod is not a null pointer.
-/

namespace PeerExchange

open ByteStrings KeyedTables HttpMessages HostEnvironment PeerLinks PeerRegistry
open PeerRegistry.Peers LocalAccounts ModAccess Sessions PeerRequests EscapedExceptions
open PendingWork GuardedRuns

inductive Client
  | http
  | https
  deriving DecidableEq, Repr

/-- `new_peer` and `request_peer` use plain HTTP for a domain with a port. -/
def clientFor (domain : Text) : Client := if (58 : Byte) ∈ domain then .http else .https

/-- What the next handler of an HTTP request waits for. -/
inductive Stage
  | resolve
  | connect
  | handshake
  | write
  | read
  deriving DecidableEq, Repr

/-- Only one of the clients makes a TLS handshake. -/
def Stage.next : Client → Stage → Option Stage
  | _, .resolve => some .connect
  | .http, .connect => some .write
  | .https, .connect => some .handshake
  | _, .handshake => some .write
  | _, .write => some .read
  | _, .read => none

/-- What the callbacks of an HTTP request have captured, besides the mod's request. -/
inductive Purpose
  | key (domain : Text)
  | handshake (p : PeerRef) (peer : Peer)
  | message (domain : Text)
  /-- `ModConnectorNet` -/
  | netMod
  deriving DecidableEq, Repr

inductive Op
  | localMod
  | exchange (client : Client) (stage : Stage) (purpose : Purpose)
  /-- `on_shutdown` of the HTTPS client, which only logs -/
  | shutdown
  deriving DecidableEq, Repr

abbrev Delivery := Pool Op

/-- What a handler finds and draws: the host, the registry as the second section of
`handshake_cb` finds it, the generated strings, the address of a new object, and whether
the name of the other host can be set for TLS. -/
structure View where
  host : Host
  later : Peers
  generated : List Text
  half : Text
  object : PeerRef
  sni : Bool

/-- The error callbacks hand over a null pointer or the status -1. -/
def errCb (s : Delivery) : Purpose → Delivery
  | .key _ => s.call
  | .handshake _ _ => s.call
  | .message _ => s.call
  | .netMod => s.call

/-- `request` of one of the clients: the handler of `run` fails on the spot or waits. -/
def startRequest (v : View) (s : Delivery) (client : Client) (purpose : Purpose) : Delivery :=
  match client with
  | .http => s.enqueue (.exchange .http .resolve purpose)
  | .https =>
    if v.sni then s.enqueue (.exchange .https .resolve purpose) else errCb s purpose

def newPeer (v : View) (s : Delivery) (domain : Text) : Delivery :=
  startRequest v s (clientFor domain) (.key domain)

/-- The pointers of a request that `ModConnectorNet::handle_request` builds strings from. -/
def NetReadable (req : FiyRequest) : Prop :=
  req.path.isSome = true ∧ req.user.isSome = true ∧ req.domain.isSome = true ∧
    req.body.isSome = true

instance (req : FiyRequest) : Decidable (NetReadable req) :=
  inferInstanceAs (Decidable (_ ∧ _))

/-- `handle_request` of a mod on this host. Neither connector checks its pointers. -/
def localRequest (v : View) (s : Delivery) (req : FiyRequest) (m : Mod) : Delivery :=
  match m.ipc with
  | .dll (some ⟨true⟩) => s.enqueue .localMod
  | .dll _ => s.abort
  | .net _ _ https =>
    if NetReadable req then startRequest v s (if https then .https else .http) .netMod
    else s.abort

section request
variable (appId : Text) (req : FiyRequest)

/-- `request_peer` for a peer object. -/
def sendTo (v : View) (s : Delivery) (peer : Peer) : Delivery :=
  match peerRequest v.host.crypto v.host.now peer appId req with
  | .error _ => s.abort
  | .ok _ => startRequest v s (clientFor peer.domain) (.message peer.domain)

/-- `request_peer` for a domain. -/
def requestPeer (v : View) (s : Delivery) (domain : Text) : Delivery :=
  if domain = [] ∨ domain = v.host.config.hostname then
    match v.host.mods.getModById appId with
    | some m => localRequest v s req m
    | none => s.call
  else match v.host.peers.getPeerForDomain domain with
    | some p => sendTo appId req v s (v.host.heap p)
    | none => newPeer v s domain

/-- `request_impl`: the domain becomes a string, which a null pointer cannot. -/
def requestImpl (v : View) : Delivery :=
  match req.domain with
  | none => Pool.abort {}
  | some domain => requestPeer appId req v {} (cstr domain)

/-! ## The handlers -/

/-- `with_key_cb`; `none` while it draws a token. -/
def keyDone (v : View) (s : Delivery) (domain : Text) (res : Response) : Option Delivery :=
  (withKeyCb v.host.crypto v.host.config v.host.peers domain res v.generated v.half).map
    fun
      | (none, _) => s.call
      | (some (peer, _), _) => startRequest v s (clientFor domain) (.handshake v.object peer)

/-- The host as `handshake_cb` finds it, with the object it has captured. -/
def View.holding (v : View) (p : PeerRef) (peer : Peer) : Host :=
  { v.host with heap := Function.update v.host.heap p peer }

/-- `handshake_cb` -/
def handshakeDone (v : View) (s : Delivery) (p : PeerRef) (peer : Peer) (res : Response) :
    Delivery :=
  match finishHandshake (v.holding p peer) p res v.later appId req with
  | .error _ => s.abort
  | .ok none => s.call
  | .ok (some _) => startRequest v s (clientFor peer.domain) (.message peer.domain)

/-- The callback of `request_peer`. The re-authentication is not followed by a return. -/
def messageDone (v : View) (s : Delivery) (domain : Text) (res : Response) : Delivery :=
  let s := if res.status = PeerAuth.reauthHttpStatus then newPeer v s domain else s
  s.call

def responseCb (v : View) (s : Delivery) (res : Response) : Purpose → Option Delivery
  | .key domain => keyDone v s domain res
  | .handshake p peer => some (handshakeDone appId req v s p peer res)
  | .message domain => some (messageDone v s domain res)
  | .netMod => some s.call

/-- How a pending operation ends. -/
inductive Outcome
  | done
  | failed
  /-- `shutdownFails`: closing the socket fails with another error than `not_connected` -/
  | response (res : Response) (v : View) (shutdownFails : Bool)

/-- `on_read` of each client. Plain HTTP closes the socket after the callback and reports
an error to the error callback; HTTPS closes it first and reports nothing. -/
def onRead (v : View) (s : Delivery) (res : Response) (purpose : Purpose)
    (shutdownFails : Bool) : Client → Option Delivery
  | .http => (responseCb appId req v s res purpose).map fun s =>
    if shutdownFails && !s.ended then errCb s purpose else s
  | .https => responseCb appId req v (s.enqueue .shutdown) res purpose

/-- The handler of an operation that has been taken out of the pool. -/
def complete (s : Delivery) : Op → Outcome → Option Delivery
  | .localMod, .done => some s.call
  | .shutdown, .done => some s
  | .shutdown, .failed => some s
  | .exchange client stage purpose, .done => (stage.next client).map fun next =>
    s.enqueue (.exchange client next purpose)
  | .exchange _ _ purpose, .failed => some (errCb s purpose)
  | .exchange client .read purpose, .response res v shutdownFails =>
    onRead appId req v s res purpose shutdownFails client
  | _, _ => none

def step (s : Delivery) (e : Nat × Outcome) : Option Delivery :=
  (s.take e.1).bind fun taken => complete appId req taken.2 taken.1 e.2

def Step (s : Delivery) (e : Nat × Outcome) (t : Delivery) : Prop :=
  step appId req s e = some t

/-! ## How often the callback is called -/

/-- Every operation but the closing of a connection holds the callback once. -/
def Op.holds : Op → Nat
  | .localMod => 1
  | .exchange _ _ _ => 1
  | .shutdown => 0

section counting
variable {appId req} {v : View} {s t : Delivery} {n : Nat}

theorem errCb_owes (h : Owes Op.holds n s) (purpose : Purpose) :
    Owes Op.holds (n + 1) (errCb s purpose) := by
  cases purpose <;> exact h.call

theorem startRequest_owes (h : Owes Op.holds n s) (v : View) (client : Client)
    (purpose : Purpose) : Owes Op.holds (n + 1) (startRequest v s client purpose) := by
  cases client with
  | http => exact h.enqueue (.exchange .http .resolve purpose)
  | https =>
    rw [startRequest]
    split
    · exact h.enqueue (.exchange .https .resolve purpose)
    · exact errCb_owes h purpose

/-- A peer object gets the request, or building the request ends the process. -/
theorem sendTo_owes_iff (h : Owes Op.holds n s) (addressed : req.domain.isSome = true)
    (v : View) (peer : Peer) :
    Owes Op.holds (n + 1) (sendTo appId req v s peer) ↔ Sendable req := by
  rw [sendTo]
  rcases peerRequest_cases v.host.crypto v.host.now peer appId req with
    ⟨unsendable, e, heq⟩ | ⟨_, nobody, _⟩ | ⟨sendable, r, heq⟩
  · rw [heq]
    exact iff_of_false (not_owes_abort s) unsendable
  · rw [nobody] at addressed
    cases addressed
  · rw [heq]
    exact iff_of_true (startRequest_owes h v _ _) sendable

/-- A local mod that can be called. -/
def Callable (req : FiyRequest) (m : Mod) : Prop :=
  match m.ipc with
  | .dll info => info = some ⟨true⟩
  | .net _ _ _ => NetReadable req

theorem localRequest_owes_iff (h : Owes Op.holds n s) (v : View) (m : Mod) :
    Owes Op.holds (n + 1) (localRequest v s req m) ↔ Callable req m := by
  rw [localRequest, Callable]
  cases m.ipc with
  | dll info =>
    match info with
    | none => exact iff_of_false (not_owes_abort s) (by simp)
    | some ⟨false⟩ => exact iff_of_false (not_owes_abort s) (by simp)
    | some ⟨true⟩ => exact iff_of_true (h.enqueue .localMod) rfl
  | net uri bearerSend https =>
    dsimp only
    split
    · rename_i readable
      exact iff_of_true (startRequest_owes h v _ _) readable
    · rename_i unreadable
      exact iff_of_false (not_owes_abort s) unreadable

theorem owes_start : Owes Op.holds 0 {} := ⟨rfl, rfl⟩

variable (appId req) in
/-- A request that `request_impl` can start: it names a domain; on this host its mod, if
there is one, can be called; and for a known peer it can be written down. -/
def Acceptable (v : View) : Prop :=
  ∃ domain, req.domain = some domain ∧
    if cstr domain = [] ∨ cstr domain = v.host.config.hostname then
      ∀ m, v.host.mods.getModById appId = some m → Callable req m
    else (v.host.peers.getPeerForDomain (cstr domain)).isSome = true → Sendable req

theorem requestImpl_owes_iff (v : View) :
    Owes Op.holds 1 (requestImpl appId req v) ↔ Acceptable appId req v := by
  rw [requestImpl, Acceptable]
  cases hdomain : req.domain with
  | none => exact iff_of_false (not_owes_abort _) (by simp)
  | some domain =>
    have addressed : req.domain.isSome = true := by rw [hdomain]; rfl
    simp only [requestPeer, Option.some.injEq, exists_eq_left']
    split
    · cases v.host.mods.getModById appId with
      | none => exact iff_of_true owes_start.call (by simp)
      | some m => simpa using localRequest_owes_iff owes_start v m
    · cases v.host.peers.getPeerForDomain (cstr domain) with
      | none => exact iff_of_true (startRequest_owes owes_start v _ _) (by simp)
      | some p => simpa using sendTo_owes_iff owes_start addressed v (v.host.heap p)

/-- The continuation of a handshake gets the peer, or nothing, or never runs. -/
theorem finishHandshake_cases (h : Host) (p : PeerRef) (res : Response) (later : Peers)
    (appId : Text) (addressed : req.domain.isSome = true) :
    (¬ ReplyGuarded h p res later req ∧
      ∃ e, finishHandshake h p res later appId req = .error (.thrown e)) ∨
    (ReplyGuarded h p res later req ∧
      ∃ sent, finishHandshake h p res later appId req = .ok sent) := by
  have guarded := thrownBy_finishHandshake_iff h p res later appId req
  cases heq : finishHandshake h p res later appId req with
  | ok sent => exact Or.inr ⟨guarded.mp (by rw [heq]; rfl), sent, rfl⟩
  | error fault =>
    obtain ⟨e, rfl⟩ := finishHandshake_fault addressed heq
    rw [heq] at guarded
    refine Or.inl ⟨fun reply => ?_, e, rfl⟩
    cases guarded.mpr reply

/-- Where the response of an exchange is followed by exactly one continuation. -/
def Regular (req : FiyRequest) (v : View) (res : Response) : Purpose → Prop
  | .handshake p peer => ReplyGuarded (v.holding p peer) p res v.later req
  | .message _ => res.status ≠ PeerAuth.reauthHttpStatus
  | _ => True

/-- A response callback makes or passes on one call, or one too many, or ends the process. -/
theorem responseCb_cases (h : Owes Op.holds n s) (addressed : req.domain.isSome = true)
    {res : Response} {purpose : Purpose}
    (done : responseCb appId req v s res purpose = some t) :
    (Regular req v res purpose ∧ Owes Op.holds (n + 1) t) ∨
    (¬ Regular req v res purpose ∧ (t.ended = true ∨ Owes Op.holds (n + 2) t)) := by
  cases purpose with
  | key domain =>
    obtain ⟨⟨made, ps⟩, _, rfl⟩ := Option.map_eq_some_iff.mp done
    refine Or.inl ⟨trivial, ?_⟩
    cases made with
    | none => exact h.call
    | some made => exact startRequest_owes h v _ _
  | handshake p peer =>
    cases done
    rw [handshakeDone]
    rcases finishHandshake_cases (v.holding p peer) p res v.later appId addressed with
      ⟨unguarded, e, heq⟩ | ⟨guarded, sent, heq⟩
    · rw [heq]
      exact Or.inr ⟨unguarded, Or.inl rfl⟩
    · rw [heq]
      refine Or.inl ⟨guarded, ?_⟩
      cases sent with
      | none => exact h.call
      | some r => exact startRequest_owes h v _ _
  | message domain =>
    cases done
    rw [messageDone]
    by_cases reauth : res.status = PeerAuth.reauthHttpStatus
    · rw [if_pos reauth]
      exact Or.inr ⟨fun regular => regular reauth, Or.inr (startRequest_owes h v _ _).call⟩
    · rw [if_neg reauth]
      exact Or.inl ⟨reauth, h.call⟩
  | netMod =>
    cases done
    exact Or.inl ⟨trivial, h.call⟩

theorem onRead_owes_iff (h : Owes Op.holds n s) (addressed : req.domain.isSome = true)
    {res : Response} {purpose : Purpose} {shutdownFails : Bool} {client : Client}
    (done : onRead appId req v s res purpose shutdownFails client = some t) :
    Owes Op.holds (n + 1) t ↔
      (client = .http → shutdownFails = false) ∧ Regular req v res purpose := by
  cases client with
  | https =>
    have kept : Owes Op.holds n (s.enqueue .shutdown) := h.enqueue .shutdown
    rcases responseCb_cases kept addressed done with
      ⟨regular, owes⟩ | ⟨irregular, ended | owes⟩
    · simp [regular, owes]
    · exact iff_of_false (fun owes => by simp [owes.running] at ended) fun both => irregular both.2
    · exact iff_of_false (fun owes' => by simpa using owes'.unique owes)
        fun both => irregular both.2
  | http =>
    obtain ⟨u, hu, rfl⟩ := Option.map_eq_some_iff.mp done
    rcases responseCb_cases h addressed hu with ⟨regular, owes⟩ | ⟨irregular, ended | owes⟩
    · cases shutdownFails with
      | false => simp [regular, owes]
      | true =>
        have twice := errCb_owes owes purpose
        simp only [Bool.true_and, owes.running, Bool.not_false, if_true]
        exact iff_of_false (fun owes' => by simpa using owes'.unique twice)
          fun both => by cases both.1 trivial
    · refine iff_of_false ?_ fun both => irregular both.2
      simp only [ended, Bool.not_true, Bool.and_false, Bool.false_eq_true, if_false]
      intro owes
      simp [owes.running] at ended
    · refine iff_of_false ?_ fun both => irregular both.2
      intro owes'
      cases shutdownFails with
      | false => simpa using owes'.unique owes
      | true =>
        simp only [Bool.true_and, owes.running, Bool.not_false, if_true] at owes'
        simpa using owes'.unique (errCb_owes owes purpose)

/-- The end of an operation that neither throws nor calls back on its own. -/
def OrderlyEnd (req : FiyRequest) : Op → Outcome → Prop
  | .exchange client _ purpose, .response res v shutdownFails =>
    (client = .http → shutdownFails = false) ∧ Regular req v res purpose
  | _, _ => True

theorem complete_owes_iff (h : Owes Op.holds n s) (addressed : req.domain.isSome = true)
    {op : Op} {outcome : Outcome} (done : complete appId req s op outcome = some t) :
    Owes Op.holds (n + op.holds) t ↔ OrderlyEnd req op outcome := by
  cases op with
  | localMod =>
    cases outcome with
    | done =>
      cases done
      exact iff_of_true h.call trivial
    | failed => cases done
    | response res v shutdownFails => cases done
  | shutdown =>
    cases outcome with
    | done =>
      cases done
      exact iff_of_true h trivial
    | failed =>
      cases done
      exact iff_of_true h trivial
    | response res v shutdownFails => cases done
  | exchange client stage purpose =>
    cases outcome with
    | done =>
      obtain ⟨next, _, rfl⟩ := Option.map_eq_some_iff.mp done
      exact iff_of_true (h.enqueue (.exchange client next purpose)) trivial
    | failed =>
      cases done
      exact iff_of_true (errCb_owes h purpose) trivial
    | response res v shutdownFails =>
      cases stage with
      | read => exact onRead_owes_iff h addressed done
      | resolve => cases done
      | connect => cases done
      | handshake => cases done
      | write => cases done

/-- No response asks for re-authentication, closing a plain connection does not fail, and
a handshake reply can be checked, so that the request that waits can be sent. -/
def Orderly (req : FiyRequest) (s : Delivery) (e : Nat × Outcome) : Prop :=
  ∀ op s', s.take e.1 = some (op, s') → OrderlyEnd req op e.2

/-- One step keeps the single call exactly where it is orderly. -/
theorem step_owes_iff (h : Owes Op.holds 1 s) (addressed : req.domain.isSome = true)
    {e : Nat × Outcome} (stepped : Step appId req s e t) :
    Owes Op.holds 1 t ↔ Orderly req s e := by
  obtain ⟨⟨op, s'⟩, taken, done⟩ := Option.bind_eq_some_iff.mp stepped
  obtain ⟨m, split, rest⟩ := h.take taken
  rw [split, complete_owes_iff rest addressed done]
  constructor
  · intro orderly op' s'' taken'
    rw [taken] at taken'
    cases taken'
    exact orderly
  · exact fun orderly => orderly op s' taken

end counting

/-- Without a response an operation ends in order. -/
theorem orderly_done (s : Delivery) (i : Nat) : Orderly req s (i, .done) := by
  intro op _ _
  cases op <;> trivial

/-- The callback has been called at most once, and once when nothing is pending. -/
def AnsweredOnce (s : Delivery) : Prop := s.calls ≤ 1 ∧ (s.pending = [] → s.calls = 1)

end request

/-! ## Concrete runs -/

/-- A page of the blog on `b.net`, which is in the cache of `demoHost`. -/
def demoRequest : FiyRequest :=
  ⟨some (lit "b.net"), some (lit "alice"), .get, some (lit "/page"), none, none⟩

def demoView : View := ⟨demoHost, Peers.empty, [], [], 0, true⟩

/-- The stages of an HTTPS request up to its response. -/
def exchangeEvents (res : Response) : List (Nat × Outcome) :=
  [(0, .done), (0, .done), (0, .done), (0, .done), (0, .response res demoView false)]

end PeerExchange
