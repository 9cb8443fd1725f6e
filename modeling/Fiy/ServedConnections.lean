import Fiy.ConnectionRuns
import Fiy.WorkerPools
import Fiy.EscapedExceptions

/-!
# Connections, the pool and the mods that answer

A connection is read from again only when the response to its last request has been written.
In between, the request is with a handler, with a mod that has a pointer to a
`ModDllConnectorRequest`, or with the callbacks of the key request of a handshake. The events of
all connections, of the threads of the pool and of the mods come in any order, and each request
is served against a server state of its own. The requests that were read and the responses that
were handed to the connection are kept beside it.
-/

namespace ServedConnections

open ByteStrings KeyedTables GuardedRuns MaximalRuns HttpMessages HostEnvironment PeerLinks
open PeerRegistry Sessions ModConnectors PeerRequests RequestRouting ConnectionRuns
open EscapedExceptions (Usable raised raised_verify_iff withPubkeyCb_thrown)
open PeerHandshake (Token KeyReply Responder withPubkeyCb keyErrorResponse signedData)
open WorkerPools (ThreadPool Orderly)

/-! ## What a mod answers -/

/-- `fiy_body_t`; of a file, what seeking in it and measuring it come to. -/
inductive Body
  | empty
  | buffer (text : Text)
  | file (sought : Bool) (content : Option Text)
  deriving DecidableEq, Repr

/-- `fiy_response_t` -/
structure ModAnswer where
  status : Int
  headers : Option Text
  body : Body
  deriving DecidableEq, Repr

/-- `res.result(r->status)` takes an unsigned number of at most three digits. -/
def withStatus (status : Int) (headers : Option Text) (isLocal : Bool) (body : Text) :
    Except Exn Response :=
  if 0 ≤ status ∧ status ≤ 999 then
    .ok { status := status.toNat, fields := responseSetHeaders [] headers isLocal, body }
  else .error (.invalidArgument "invalid status-code")

/-- `ModDllConnectorRequest::respond`. Nothing is sent where seeking fails. -/
def ModAnswer.response (isLocal : Bool) (a : ModAnswer) : Except Exn (Option Response) :=
  match a.body with
  | .empty => (withStatus a.status a.headers isLocal []).map some
  | .buffer text => (withStatus a.status a.headers isLocal text).map some
  | .file false _ => .ok none
  | .file true none =>
    .ok (some { status := 500, body := "Server Error: Failed to set body" })
  | .file true (some content) => (withStatus a.status a.headers isLocal content).map some

/-- A status is looked at only where the body can be sent. -/
def ModAnswer.Fits (a : ModAnswer) : Prop :=
  a.body = .file true none ∨ (∃ content, a.body = .file false content) ∨
    (0 ≤ a.status ∧ a.status ≤ 999)

theorem withStatus_ok_iff {status : Int} {headers : Option Text} {isLocal : Bool} {body : Text} :
    (∃ res, withStatus status headers isLocal body = .ok res) ↔ 0 ≤ status ∧ status ≤ 999 := by
  unfold withStatus
  split <;> simp_all

theorem ModAnswer.fits_iff (a : ModAnswer) (isLocal : Bool) :
    a.Fits ↔ ∃ res, a.response isLocal = .ok res := by
  obtain ⟨status, headers, body⟩ := a
  have plain (text : Text) : (∃ res, (withStatus status headers isLocal text).map some = .ok res) ↔
      0 ≤ status ∧ status ≤ 999 := by
    rw [← @withStatus_ok_iff status headers isLocal text]
    cases withStatus status headers isLocal text <;> simp [Except.map]
  cases body with
  | empty => simpa [Fits, response] using (plain []).symm
  | buffer text => simpa [Fits, response] using (plain text).symm
  | file sought content =>
    cases sought with
    | false => simp [Fits, response]
    | true =>
      cases content with
      | none => simp [Fits, response]
      | some content => simpa [Fits, response] using (plain content).symm

/-! ## The server -/

/-- What a connection is at. -/
inductive Stage
  | unopened
  | reading
  /-- A request has been read and not been answered. -/
  | asked
  | writing
  | closed
  deriving DecidableEq, Repr

structure Connection where
  session : Session
  stage : Stage
  asked : List Request
  answered : List (Request × Response)

/-- Who has the connection while its request is open. -/
inductive Holder
  /-- a `ModDllConnectorRequest` -/
  | mod (isLocal : Bool)
  /-- the callbacks of the key request of `peer_handshake` -/
  | key (peer : Peer) (signature : Text)

structure Ticket where
  conn : Nat
  req : Request
  holder : Holder

structure Server where
  connections : Nat → Connection
  tickets : Table Nat Ticket
  nextTicket : Nat
  pool : ThreadPool Nat

/-- What no event of the model comes after. -/
inductive Damage
  /-- `route_request` ends with an exception, or does not end. -/
  | route (fault : Fault)
  /-- An exception leaves the callback of a mod. -/
  | answer (e : Exn)
  /-- An exception leaves the callback of the key request. -/
  | key (e : Exn)
  /-- An exception leaves a mod. -/
  | mod
  /-- The request a mod answers has been deleted. -/
  | freed
  /-- A response is sent on a connection that has none to send. -/
  | overlap

inductive State
  | up (s : Server)
  | down (d : Damage)

def State.isUp : State → Bool
  | .up _ => true
  | .down _ => false

/-- How many responses the connection was given. -/
def State.answers (c : Nat) : State → Nat
  | .up s => (s.connections c).answered.length
  | .down _ => 0

def start (threads : Nat) : Server where
  connections := fun _ => ⟨newConnection, .unopened, [], []⟩
  tickets := ∅
  nextTicket := 0
  pool := WorkerPools.start threads

/-- What the callback of a key request finds and draws. -/
structure KeyCall where
  crypto : Crypto
  config : Config
  heap : Heap
  views : Nat → Peers
  generated : Nat → Token
  ourSecret : Token
  peerRef : PeerRef
  reply : KeyReply

def KeyCall.responder (k : KeyCall) (peer : Peer) (signature : Text) : Responder :=
  match k.reply with
  | .transportError => { responses := [keyErrorResponse peer] }
  | .response res => withPubkeyCb k.crypto k.config k.heap k.views k.generated k.ourSecret
      k.peerRef peer signature res

inductive Event
  /-- `on_accept` -/
  | accept (c : Nat)
  /-- `on_read`, with the thread that `notify_one` wakes where a mod is called -/
  | read (c : Nat) (v : Visit) (woken : Option Nat)
  | readFailed (c : Nat)
  /-- a step of the pool's threads -/
  | pool (e : WorkerPools.Event Nat)
  /-- An exception leaves the mod that a thread has called. -/
  | threw (thread : Nat)
  /-- A mod answers the request it was called with, or one it was called with before. -/
  | callback (n : Nat) (a : ModAnswer)
  | keyReply (n : Nat) (k : KeyCall)
  /-- `on_write` -/
  | written (c : Nat) (ok : Bool)

namespace Server

def put (s : Server) (c : Nat) (conn : Connection) : Server :=
  { s with connections := Function.update s.connections c conn }

/-- A request is on its way through `route_request`. -/
def open_ (s : Server) (c : Nat) (session : Session) (req : Request) : Server :=
  s.put c ⟨session, .asked, (s.connections c).asked ++ [req], (s.connections c).answered⟩

/-- A handler keeps the connection for later. -/
def issue (s : Server) (t : Ticket) : Server :=
  { s with tickets := s.tickets.insert s.nextTicket t, nextTicket := s.nextTicket + 1 }

def without (s : Server) (n : Nat) : Server := { s with tickets := s.tickets.erase n }

/-- `Session::respond` -/
def respond (s : Server) (c : Nat) (req : Request) (res : Response) : State :=
  match (s.connections c).stage with
  | .asked => .up (s.put c { s.connections c with
      stage := .writing
      answered := (s.connections c).answered ++ [(req, res)] })
  | _ => .down .overlap

def respondAll (c : Nat) (req : Request) : Server → List Response → State
  | s, [] => .up s
  | s, res :: rest => match s.respond c req res with
    | .up t => respondAll c req t rest
    | .down d => .down d

/-- What `route_request` leaves to do. -/
def serve (s : Server) (c : Nat) (req : Request) (woken : Option Nat) :
    List Effect → Option State
  | [.respond res] => some (s.respond c req res)
  | [.callMod _ r] => (s.pool.next (.emplace s.nextTicket woken)).map fun pool =>
      .up ({ s with pool }.issue ⟨c, req, .mod (r.domain.isNone && r.user.isSome)⟩)
  | [.fetchKey peer signature] => some (.up (s.issue ⟨c, req, .key peer signature⟩))
  | _ => none

def read (s : Server) (c : Nat) (v : Visit) (woken : Option Nat) : Option State :=
  match visit (s.connections c).session v with
  | .error fault => some (.down (.route fault))
  | .ok served => (s.open_ c served.session v.req).serve c v.req woken served.effects

/-- `callback` of a request, which deletes it. -/
def callback (s : Server) (n : Nat) (a : ModAnswer) : State :=
  match s.tickets.lookup n with
  | some ⟨c, req, .mod isLocal⟩ => match a.response isLocal with
    | .error e => .down (.answer e)
    | .ok none => .up ((s.without n).put c { s.connections c with stage := .closed })
    | .ok (some res) => (s.without n).respond c req res
  | _ => .down .freed

def keyReply (s : Server) (n : Nat) (k : KeyCall) : Option State :=
  match s.tickets.lookup n with
  | some ⟨c, req, .key peer signature⟩ =>
    let r := k.responder peer signature
    match respondAll c req (s.without n) r.responses, r.thrown with
    | .up _, some e => some (.down (.key e))
    | t, _ => some t
  | _ => none

end Server

open Server

section
variable (keepAlive : Request → Bool)

def next : State → Event → Option State
  | .down _, _ => none
  | .up s, .accept c =>
    if (s.connections c).stage = .unopened then
      some (.up (s.put c { s.connections c with stage := .reading }))
    else none
  | .up s, .read c v woken =>
    if (s.connections c).stage = .reading then s.read c v woken else none
  | .up s, .readFailed c =>
    if (s.connections c).stage = .reading then
      some (.up (s.put c { s.connections c with stage := .closed }))
    else none
  | .up _, .pool (.emplace _ _) => none
  | .up s, .pool e => (s.pool.next e).map fun pool => .up { s with pool }
  | .up s, .threw i => match s.pool.threads[i]? with
    | some (.handling _) => some (.down .mod)
    | _ => none
  | .up s, .callback n a => if n ∈ s.pool.popped then some (s.callback n a) else none
  | .up s, .keyReply n k => s.keyReply n k
  | .up s, .written c ok =>
    if (s.connections c).stage = .writing then
      some (.up (s.put c { s.connections c with
        stage := if ok && keepAlive (s.connections c).session.req then .reading else .closed }))
    else none

def Step (s : State) (e : Event) (t : State) : Prop := next keepAlive s e = some t

end

/-! ## What every interleaving keeps -/

namespace Connection

/-- The requests that were answered, by the responses the connection was given. -/
def done (conn : Connection) : List Request := conn.answered.map Prod.fst

/-- The requests were answered in the order in which they came, and one may be open. -/
def InOrder (conn : Connection) : Prop :=
  conn.done <+: conn.asked ∧ conn.asked.length ≤ conn.done.length + 1

/-- A connection that is not closed knows whether a request is open. -/
def Sound (conn : Connection) : Prop := match conn.stage with
  | .asked | .closed => conn.InOrder
  | _ => conn.asked = conn.done

theorem Sound.inOrder {conn : Connection} (sound : conn.Sound) : conn.InOrder := by
  unfold Sound at sound
  split at sound
  · exact sound
  · exact sound
  · rw [InOrder, sound]
    exact ⟨List.prefix_refl _, Nat.le_succ _⟩

theorem Sound.settled {conn : Connection} (sound : conn.Sound) (open_ : conn.stage ≠ .asked)
    (closed : conn.stage ≠ .closed) : conn.asked = conn.done := by
  unfold Sound at sound
  split at sound
  next stage => exact absurd stage open_
  next stage => exact absurd stage closed
  next => exact sound

end Connection

/-- Every open request is held by one ticket, and every ticket holds an open request. -/
structure Paired (s : Server) : Prop where
  orderly : Orderly s.pool
  sound : ∀ c, (s.connections c).Sound
  fresh : ∀ n ∈ s.tickets, n < s.nextTicket
  queued : ∀ n c req isLocal, s.tickets.lookup n = some ⟨c, req, .mod isLocal⟩ →
    n ∈ s.pool.emplaced
  held : ∀ n t, s.tickets.lookup n = some t → (s.connections t.conn).stage = .asked ∧
    (s.connections t.conn).asked = (s.connections t.conn).done ++ [t.req]
  single : ∀ n m t u, s.tickets.lookup n = some t → s.tickets.lookup m = some u →
    t.conn = u.conn → n = m
  manned : ∀ c, (s.connections c).stage = .asked →
    ∃ n t, s.tickets.lookup n = some t ∧ t.conn = c

section invariant
variable {s : Server} {c n : Nat}

theorem paired_start (threads : Nat) : Paired (start threads) where
  orderly := WorkerPools.orderly_start threads
  sound := fun _ => rfl
  fresh := fun n mem => absurd mem (AList.notMem_empty n)
  queued := fun _ _ _ _ found => by simp [start] at found
  held := fun _ _ found => by simp [start] at found
  single := fun _ _ _ _ found => by simp [start] at found
  manned := fun _ asked => by cases asked

theorem put_self (s : Server) (c : Nat) (conn : Connection) : (s.put c conn).connections c = conn :=
  Function.update_self _ _ _

theorem put_other (s : Server) {c other : Nat} (different : other ≠ c) (conn : Connection) :
    (s.put c conn).connections other = s.connections other :=
  Function.update_of_ne different _ _

theorem sound_put {conn : Connection} (sound : ∀ c, (s.connections c).Sound) (new : conn.Sound) :
    ∀ c', ((s.put c conn).connections c').Sound := by
  intro c'
  by_cases same : c' = c
  · rw [same, put_self]
    exact new
  · rw [put_other s same]
    exact sound c'

theorem Paired.free (paired : Paired s) (idle : (s.connections c).stage ≠ .asked) :
    ∀ n t, s.tickets.lookup n = some t → t.conn ≠ c := by
  rintro n t found rfl
  exact idle (paired.held n t found).1

/-- A connection without an open request goes on. -/
theorem Paired.put (paired : Paired s) {conn : Connection}
    (idle : (s.connections c).stage ≠ .asked) (stage : conn.stage ≠ .asked) (sound : conn.Sound) :
    Paired (s.put c conn) where
  orderly := paired.orderly
  sound := sound_put paired.sound sound
  fresh := paired.fresh
  queued := paired.queued
  held := fun n t found => by
    rw [put_other s (paired.free idle n t found)]
    exact paired.held n t found
  single := paired.single
  manned := fun c' asked => by
    have other : c' ≠ c := by
      rintro rfl
      rw [put_self] at asked
      exact stage asked
    rw [put_other s other] at asked
    exact paired.manned c' asked

/-- The holder of a request gives it up, and the connection goes on. -/
theorem Paired.release (paired : Paired s) {t : Ticket} (found : s.tickets.lookup n = some t)
    {conn : Connection} (stage : conn.stage ≠ .asked) (sound : conn.Sound) :
    Paired ((s.without n).put t.conn conn) := by
  have left {m : Nat} {u : Ticket} (there : (s.without n).tickets.lookup m = some u) :
      s.tickets.lookup m = some u ∧ u.conn ≠ t.conn := by
    rw [Server.without, lookup_erase_eq] at there
    split at there
    · cases there
    next other =>
      exact ⟨there, fun same => other (paired.single m n u t there found same)⟩
  constructor
  case orderly => exact paired.orderly
  case sound => exact sound_put (s := s.without n) paired.sound sound
  case fresh => exact fun m mem => paired.fresh m (AList.mem_erase.mp mem).2
  case queued => exact fun m c req isLocal there => paired.queued m c req isLocal (left there).1
  case held =>
    intro m u there
    rw [put_other (s.without n) (left there).2]
    exact paired.held m u (left there).1
  case single =>
    exact fun m m' u u' there there' => paired.single m m' u u' (left there).1 (left there').1
  case manned =>
    intro c asked
    have other : c ≠ t.conn := by
      rintro rfl
      rw [put_self] at asked
      exact stage asked
    rw [put_other (s.without n) other] at asked
    obtain ⟨m, u, there, rfl⟩ := paired.manned c asked
    have different : m ≠ n := by
      rintro rfl
      exact other (congrArg Ticket.conn (Option.some.inj (there.symm.trans found)))
    refine ⟨m, u, ?_, rfl⟩
    change (s.tickets.erase n).lookup m = some u
    rw [lookup_erase_eq, if_neg different]
    exact there

/-- The server after the request of a ticket was answered. -/
def Server.answered (s : Server) (n : Nat) (t : Ticket) (res : Response) : Server :=
  (s.without n).put t.conn { s.connections t.conn with
    stage := .writing
    answered := (s.connections t.conn).answered ++ [(t.req, res)] }

theorem respond_without (paired : Paired s) {t : Ticket} (found : s.tickets.lookup n = some t)
    (res : Response) : (s.without n).respond t.conn t.req res = .up (s.answered n t res) := by
  have asked : ((s.without n).connections t.conn).stage = .asked := (paired.held n t found).1
  rw [Server.respond, asked]
  rfl

theorem paired_answered (paired : Paired s) {t : Ticket} (found : s.tickets.lookup n = some t)
    (res : Response) : Paired (s.answered n t res) := by
  refine paired.release found (by simp) ?_
  have whole := (paired.held n t found).2
  simp only [Connection.Sound, Connection.done, List.map_append, List.map_cons, List.map_nil]
    at whole ⊢
  exact whole

theorem paired_dropped (paired : Paired s) {t : Ticket} (found : s.tickets.lookup n = some t) :
    Paired ((s.without n).put t.conn { s.connections t.conn with stage := .closed }) :=
  paired.release found (by simp) (paired.sound t.conn).inOrder

/-- A handler answers at once. -/
theorem respond_open (s : Server) (session : Session) (req : Request) (res : Response) :
    (s.open_ c session req).respond c req res = .up (s.put c ⟨session, .writing,
      (s.connections c).asked ++ [req], (s.connections c).answered ++ [(req, res)]⟩) := by
  simp only [Server.respond, Server.open_, put_self]
  simp only [Server.put, Function.update_idem]

theorem paired_open_answered (paired : Paired s) (reading : (s.connections c).stage = .reading)
    (session : Session) (req : Request) (res : Response) :
    Paired (s.put c ⟨session, .writing,
      (s.connections c).asked ++ [req], (s.connections c).answered ++ [(req, res)]⟩) := by
  have whole : (s.connections c).asked = (s.connections c).done :=
    (paired.sound c).settled (by rw [reading]; decide) (by rw [reading]; decide)
  refine paired.put (by rw [reading]; decide) (by simp) ?_
  simp only [Connection.Sound, Connection.done, List.map_append, List.map_cons, List.map_nil]
    at whole ⊢
  rw [whole]

/-- A handler keeps the connection whose request it was given. -/
theorem Paired.issue (paired : Paired s) {session : Session} {req : Request} {holder : Holder}
    {pool : ThreadPool Nat} (reading : (s.connections c).stage = .reading)
    (orderly : Orderly pool) (more : ∀ n ∈ s.pool.emplaced, n ∈ pool.emplaced)
    (queued : ∀ isLocal, holder = .mod isLocal → s.nextTicket ∈ pool.emplaced) :
    Paired ({ s.open_ c session req with pool }.issue ⟨c, req, holder⟩) := by
  have idle : (s.connections c).stage ≠ .asked := by rw [reading]; decide
  have whole : (s.connections c).asked = (s.connections c).done :=
    (paired.sound c).settled idle (by rw [reading]; decide)
  have found {m : Nat} {u : Ticket}
      (there : (s.tickets.insert s.nextTicket ⟨c, req, holder⟩).lookup m = some u) :
      m = s.nextTicket ∧ u = ⟨c, req, holder⟩ ∨ s.tickets.lookup m = some u := by
    rw [lookup_insert_eq] at there
    split at there
    next same => exact Or.inl ⟨same, (Option.some.inj there).symm⟩
    next => exact Or.inr there
  constructor
  case orderly => exact orderly
  case sound =>
    refine sound_put paired.sound ?_
    change Connection.InOrder _
    rw [Connection.InOrder, Connection.done]
    dsimp only
    rw [whole]
    exact ⟨List.prefix_append _ _, by simp [Connection.done]⟩
  case fresh =>
    intro m mem
    rcases AList.mem_insert _ |>.mp mem with rfl | old
    · exact Nat.lt_succ_self _
    · exact Nat.lt_succ_of_lt (paired.fresh m old)
  case queued =>
    intro m c' req' isLocal there
    rcases found there with ⟨rfl, same⟩ | old
    · exact queued isLocal (congrArg Ticket.holder same).symm
    · exact more m (paired.queued m c' req' isLocal old)
  case held =>
    intro m u there
    rcases found there with ⟨rfl, rfl⟩ | old
    · change ((s.open_ c session req).connections c).stage = _ ∧
        ((s.open_ c session req).connections c).asked =
          ((s.open_ c session req).connections c).done ++ [req]
      rw [Server.open_, put_self, whole]
      exact ⟨rfl, rfl⟩
    · change ((s.open_ c session req).connections u.conn).stage = _ ∧
        ((s.open_ c session req).connections u.conn).asked =
          ((s.open_ c session req).connections u.conn).done ++ [u.req]
      rw [Server.open_, put_other s (paired.free idle m u old)]
      exact paired.held m u old
  case single =>
    intro m m' u u' there there' same
    rcases found there with ⟨rfl, rfl⟩ | old <;> rcases found there' with ⟨rfl, rfl⟩ | old'
    · rfl
    · exact absurd same.symm (paired.free idle m' u' old')
    · exact absurd same (paired.free idle m u old)
    · exact paired.single m m' u u' old old' same
  case manned =>
    intro c' asked
    by_cases same : c' = c
    · exact ⟨s.nextTicket, ⟨c, req, holder⟩, AList.lookup_insert _, same.symm⟩
    · change ((s.open_ c session req).connections c').stage = _ at asked
      rw [Server.open_, put_other s same] at asked
      obtain ⟨m, u, old, rfl⟩ := paired.manned c' asked
      have other : m ≠ s.nextTicket := by
        rintro rfl
        exact Nat.lt_irrefl _ (paired.fresh _ (AList.lookup_isSome.mp (by rw [old]; rfl)))
      exact ⟨m, u, (AList.lookup_insert_ne other).trans old, rfl⟩

end invariant

/-! ## Steps that do no damage -/

/-- The key comes with status 200, and the signature can be looked at. -/
def KeyCall.Lawful (k : KeyCall) (peer : Peer) (signature : Text) : Prop :=
  ∀ res, k.reply = .response res →
    res.status = 200 ∧ Usable k.crypto res.body (signedData peer) signature

/-- Requests are served without an exception, every mod answers each request it was called with
once and with a status, and the keys of other instances can be had and used. -/
def Lawful (s : Server) : Event → Prop
  | .read c v _ => ∃ served, visit (s.connections c).session v = .ok served
  | .threw _ => False
  | .callback n a => a.Fits ∧
      ∃ c req isLocal, s.tickets.lookup n = some ⟨c, req, .mod isLocal⟩
  | .keyReply n k => ∀ c req peer signature,
      s.tickets.lookup n = some ⟨c, req, .key peer signature⟩ → k.Lawful peer signature
  | _ => True

/-- Either this holds and the server goes on, with every request still in its place, or it does
not hold and the server does not go on. -/
def Decides (P : Prop) : State → Prop
  | .up s => P ∧ Paired s
  | .down _ => ¬ P

section steps
variable {keepAlive : Request → Bool} {s : Server} {t : State} {c n : Nat}

theorem responder_cases (k : KeyCall) (peer : Peer) (signature : Text) :
    k.Lawful peer signature ∧ (k.responder peer signature).thrown = none ∧
        (∃ res, (k.responder peer signature).responses = [res]) ∨
      ¬ k.Lawful peer signature ∧ ((k.responder peer signature).thrown ≠ none ∨
        ∃ first second rest, (k.responder peer signature).responses = first :: second :: rest) := by
  cases reply : k.reply with
  | transportError =>
    refine Or.inl ⟨fun res same => ?_, ?_⟩
    · rw [reply] at same
      cases same
    · rw [KeyCall.responder, reply]
      exact ⟨rfl, _, rfl⟩
  | response res =>
    have lawful : k.Lawful peer signature ↔
        res.status = 200 ∧ Usable k.crypto res.body (signedData peer) signature := by
      simp [KeyCall.Lawful, reply]
    rw [lawful, ← raised_verify_iff, KeyCall.responder, reply]
    simp only [withPubkeyCb]
    by_cases status : res.status = 200
    · cases k.crypto.verify res.body (signedData peer) signature with
      | error e => exact Or.inr ⟨by simp [raised], Or.inl (by simp)⟩
      | ok valid => cases valid <;> simp [status, raised]
    · refine Or.inr ⟨by simp [status], ?_⟩
      cases k.crypto.verify res.body (signedData peer) signature with
      | error e => exact Or.inl (by simp)
      | ok valid => cases valid <;> simp [status]

theorem keyReply_of_lawful (paired : Paired s) {req : Request} {peer : Peer} {signature : Text}
    (found : s.tickets.lookup n = some ⟨c, req, .key peer signature⟩) {k : KeyCall}
    (lawful : k.Lawful peer signature) : ∃ res, s.keyReply n k =
      some (.up (s.answered n ⟨c, req, .key peer signature⟩ res)) := by
  rcases responder_cases k peer signature with ⟨-, fine, res, one⟩ | ⟨fails, -⟩
  · have first := respond_without paired found res
    dsimp only at first
    exact ⟨res, by simp only [Server.keyReply, found, one, fine, respondAll, first]⟩
  · exact absurd lawful fails

theorem callback_of_response (paired : Paired s) {req : Request} {isLocal : Bool}
    (found : s.tickets.lookup n = some ⟨c, req, .mod isLocal⟩) {a : ModAnswer} {res : Response}
    (response : a.response isLocal = .ok (some res)) :
    s.callback n a = .up (s.answered n ⟨c, req, .mod isLocal⟩ res) := by
  have first := respond_without paired found res
  dsimp only at first
  simp only [Server.callback, found, response, first]

theorem decides_keyReply (paired : Paired s) {k : KeyCall} (moved : s.keyReply n k = some t) :
    Decides (Lawful s (.keyReply n k)) t := by
  have reply := moved
  simp only [Server.keyReply] at moved
  split at moved
  next c req peer signature found =>
    have lawful : Lawful s (.keyReply n k) ↔ k.Lawful peer signature := by
      simp only [Lawful, found, Option.some.injEq, Ticket.mk.injEq, Holder.key.injEq]
      constructor
      · exact fun all => all c req peer signature ⟨rfl, rfl, rfl, rfl⟩
      · rintro one _ _ _ _ ⟨-, -, rfl, rfl⟩
        exact one
    rw [lawful]
    rcases responder_cases k peer signature with ⟨holds, -⟩ | ⟨fails, bad⟩
    · obtain ⟨res, answered⟩ := keyReply_of_lawful paired found holds
      rw [answered] at reply
      cases reply
      exact ⟨holds, paired_answered paired found res⟩
    · have first (res : Response) := respond_without paired found res
      dsimp only at first
      rcases bad with thrown | ⟨res, second, rest, more⟩
      · obtain ⟨e, thrown⟩ := Option.ne_none_iff_exists'.mp thrown
        rw [thrown] at moved
        split at moved
        next =>
          cases moved
          exact fails
        next _ _ other =>
          cases t with
          | down d => exact fails
          | up s' => exact absurd rfl (other s' e (Option.some.inj moved))
      · have written : ((s.answered n ⟨c, req, .key peer signature⟩ res).connections c).stage =
            .writing := by
          rw [Server.answered, put_self]
        have twice : respondAll c req (s.without n) (res :: second :: rest) = .down .overlap := by
          simp only [respondAll, first]
          simp only [Server.respond, written]
        simp only [more, twice] at moved
        cases moved
        exact fails
  · cases moved

theorem decides_callback (paired : Paired s) (a : ModAnswer) :
    Decides (Lawful s (.callback n a)) (s.callback n a) := by
  unfold Server.callback
  split
  next c req isLocal found =>
    have lawful : Lawful s (.callback n a) ↔ ∃ res, a.response isLocal = .ok res := by
      rw [Lawful, a.fits_iff isLocal, found]
      exact and_iff_left ⟨c, req, isLocal, rfl⟩
    rw [lawful]
    cases response : a.response isLocal with
    | error e => exact fun ⟨res, same⟩ => by cases same
    | ok res =>
      cases res with
      | none => exact ⟨⟨none, rfl⟩, paired_dropped paired found⟩
      | some res =>
        have answered := callback_of_response paired found response
        simp only [Server.callback, found, response] at answered
        dsimp only
        rw [answered]
        exact ⟨⟨some res, rfl⟩, paired_answered paired found res⟩
  next none_ =>
    rintro ⟨-, c, req, isLocal, found⟩
    exact none_ c req isLocal found

theorem emplaced_next {pool pool' : ThreadPool Nat} {woken : Option Nat}
    (moved : pool.next (.emplace n woken) = some pool') :
    pool'.emplaced = pool.emplaced ++ [n] := by
  cases WorkerPools.step_iff.mp moved <;> rfl

theorem decides_read (paired : Paired s) (reading : (s.connections c).stage = .reading)
    {v : Visit} {woken : Option Nat} (moved : s.read c v woken = some t) :
    Decides (Lawful s (.read c v woken)) t := by
  simp only [Server.read] at moved
  simp only [Lawful]
  split at moved
  next fault routed =>
    cases moved
    exact fun ⟨served, same⟩ => by rw [routed] at same; cases same
  next served routed =>
    have lawful : ∃ served, visit (s.connections c).session v = .ok served := ⟨served, routed⟩
    unfold Server.serve at moved
    split at moved
    next res _ =>
      cases moved
      rw [respond_open]
      exact ⟨lawful, paired_open_answered paired reading served.session v.req res⟩
    next r _ =>
      obtain ⟨pool, put, rfl⟩ := Option.map_eq_some_iff.mp moved
      have put : s.pool.next (.emplace s.nextTicket woken) = some pool := put
      have emplaced := emplaced_next put
      refine ⟨lawful, paired.issue reading (WorkerPools.orderly_step paired.orderly put) ?_ ?_⟩
      · exact fun m mem => by rw [emplaced]; exact List.mem_append_left _ mem
      · exact fun _ _ => by rw [emplaced]; exact List.mem_append_right _ List.mem_cons_self
    next peer signature _ =>
      cases moved
      have orderly : Orderly s.pool := paired.orderly
      refine ⟨lawful, paired.issue reading orderly (fun m mem => mem) ?_⟩
      exact fun _ same => by cases same
    · cases moved

theorem paired_pool (paired : Paired s) {e : WorkerPools.Event Nat} {pool : ThreadPool Nat}
    (own : ∀ m woken, e ≠ .emplace m woken) (moved : s.pool.next e = some pool) :
    Paired { s with pool } where
  orderly := WorkerPools.orderly_step paired.orderly moved
  sound := paired.sound
  fresh := paired.fresh
  queued := fun n c req isLocal found => by
    have same : pool.emplaced = s.pool.emplaced := by
      cases WorkerPools.step_iff.mp moved with
      | unnoticed m | noticed m => exact absurd rfl (own m _)
      | waited | took | finished | woke => rfl
    rw [same]
    exact paired.queued n c req isLocal found
  held := paired.held
  single := paired.single
  manned := paired.manned

/-- A step of the pool is one of its threads, and leaves everything else alone. -/
theorem next_pool {e : WorkerPools.Event Nat} (moved : next keepAlive (.up s) (.pool e) = some t) :
    (∀ m woken, e ≠ .emplace m woken) ∧
      ∃ pool, s.pool.next e = some pool ∧ t = .up { s with pool } := by
  cases e with
  | emplace m woken => cases moved
  | pop | finish | wake =>
    obtain ⟨pool, worked, same⟩ := Option.map_eq_some_iff.mp moved
    exact ⟨nofun, pool, worked, same.symm⟩

/-- The server goes on exactly where the event is lawful: two responses never meet on one
connection otherwise. -/
theorem decides_next (paired : Paired s) {e : Event} (moved : next keepAlive (.up s) e = some t) :
    Decides (Lawful s e) t := by
  cases e with
  | accept c =>
    simp only [next] at moved
    split at moved
    next unopened =>
      cases moved
      refine ⟨trivial, paired.put (by rw [unopened]; decide) (by simp) ?_⟩
      exact (paired.sound c).settled (by rw [unopened]; decide) (by rw [unopened]; decide)
    · cases moved
  | read c v woken =>
    simp only [next] at moved
    split at moved
    next reading => exact decides_read paired reading moved
    · cases moved
  | readFailed c =>
    simp only [next] at moved
    split at moved
    next reading =>
      cases moved
      refine ⟨trivial, paired.put (by rw [reading]; decide) (by simp) ?_⟩
      exact (paired.sound c).inOrder
    · cases moved
  | pool e =>
    obtain ⟨own, pool, worked, rfl⟩ := next_pool moved
    exact ⟨trivial, paired_pool paired own worked⟩
  | threw i =>
    simp only [next] at moved
    split at moved
    · cases moved
      exact id
    · cases moved
  | callback n a =>
    simp only [next] at moved
    split at moved
    · cases moved
      exact decides_callback paired a
    · cases moved
  | keyReply n k => exact decides_keyReply paired moved
  | written c ok =>
    simp only [next] at moved
    split at moved
    next writing =>
      cases moved
      have whole := (paired.sound c).settled (by rw [writing]; decide) (by rw [writing]; decide)
      refine ⟨trivial, paired.put (by rw [writing]; decide) ?_ ?_⟩
      · dsimp only
        split <;> decide
      · simp only [Connection.Sound]
        split
        · exact (paired.sound c).inOrder
        · exact (paired.sound c).inOrder
        · exact whole
    · cases moved

/-! ### Every request has its place -/

/-- What `serve` has a case for. -/
def Placed : List Effect → Prop
  | [.respond _] | [.callMod _ _] | [.fetchKey _ _] => True
  | _ => False

theorem placed_answer {h : Host} {session : Session} {res : Response} {served : Served}
    (ok : answer h session res = .ok served) : Placed served.effects := by
  cases ok
  trivial

theorem placed_handleRequest {h : Host} {session : Session} {m : ModAccess.Mod} {served : Served}
    (ok : handleRequest h session m = .ok served) : Placed served.effects := by
  simp only [handleRequest] at ok
  split at ok
  · cases ok
  · exact placed_answer ok
  · split at ok
    · simp only [dllHandle] at ok
      split at ok
      · cases ok
      · exact placed_answer ok
      · split at ok
        · cases ok
          trivial
        · exact placed_answer ok
    · simp [netHandle, moved] at ok

theorem placed_serveAttempt {site : Site} {session : Session} {page : Nat → Text → Text}
    {attempt : Attempt} {served : Served}
    (ok : serveAttempt site session page attempt = .ok served) : Placed served.effects := by
  cases attempt with
  | refused status message h => exact placed_answer ok
  | drawing => cases ok
  | signedIn token h =>
    simp only [serveAttempt, signIn] at ok
    split at ok
    · cases ok
    · exact placed_answer ok

theorem placed_routeRequest {site : Site} {h : Host} {session : Session} {d : Draws}
    {served : Served} (ok : routeRequest site h session d = .ok served) :
    Placed served.effects := by
  simp only [routeRequest] at ok
  split at ok
  any_goals exact placed_answer ok
  · simp only [servePortalRedirect] at ok
    split at ok
    · exact placed_answer ok
    · split at ok
      · cases ok
      · split at ok <;> exact placed_answer ok
  · simp only [servePortalHome] at ok
    split at ok <;> exact placed_answer ok
  · exact placed_serveAttempt ok
  · exact placed_serveAttempt ok
  · simp only [servePeerHandshake] at ok
    split at ok
    · exact placed_answer ok
    · cases ok
      trivial
  · simp only [requestMod] at ok
    split at ok
    · split at ok <;> exact placed_answer ok
    · exact placed_handleRequest ok

theorem exists_emplace (pool : ThreadPool Nat) (n : Nat) :
    ∃ woken pool', pool.next (.emplace n woken) = some pool' := by
  by_cases waits : pool.threads.any WorkerPools.Position.isWaiting = true
  · obtain ⟨p, listed, waiting⟩ := List.any_eq_true.mp waits
    obtain ⟨i, found⟩ := List.mem_iff_getElem?.mp listed
    cases p with
    | ready | handling => cases waiting
    | waiting => exact ⟨some i, _, WorkerPools.step_iff.mpr (.noticed n i found)⟩
  · exact ⟨none, _, WorkerPools.step_iff.mpr (.unnoticed n (eq_false_of_ne_true waits))⟩

/-- A request that is read is served: no outcome of a handler is left without a step. -/
theorem exists_read (s : Server) (c : Nat) (v : Visit) : ∃ woken t, s.read c v woken = some t := by
  cases routed : visit (s.connections c).session v with
  | error fault => exact ⟨none, .down (.route fault), by rw [Server.read, routed]⟩
  | ok served =>
    have placed := placed_routeRequest routed
    obtain ⟨woken, pool, put⟩ := exists_emplace s.pool s.nextTicket
    have put : (s.open_ c served.session v.req).pool.next
        (.emplace (s.open_ c served.session v.req).nextTicket woken) = some pool := put
    refine ⟨woken, ?_⟩
    simp only [Server.read, routed]
    unfold Placed at placed
    unfold Server.serve
    split at placed
    next => exact ⟨_, rfl⟩
    next => exact ⟨_, by rw [put]; rfl⟩
    next => exact ⟨_, rfl⟩
    next => exact placed.elim

end steps

/-! ## Whole runs -/

def LawfulAt : State → Event → Prop
  | .up s, e => Lawful s e
  | .down _, _ => True

section runs
variable {keepAlive : Request → Bool} {threads : Nat} {es : List Event} {t : State}

theorem decides_run {s : Server} (paired : Paired s) (run : Run (Step keepAlive) (.up s) es t) :
    Decides (EveryStep (next keepAlive) LawfulAt (.up s) es) t := by
  induction es generalizing s with
  | nil =>
    cases run
    exact ⟨trivial, paired⟩
  | cons e es ih =>
    cases run with
    | @cons _ mid _ _ _ first rest =>
      have one := decides_next paired first
      have every : EveryStep (next keepAlive) LawfulAt (.up s) (e :: es) ↔
          Lawful s e ∧ EveryStep (next keepAlive) LawfulAt mid es := by
        have moved : next keepAlive (.up s) e = some mid := first
        simp only [EveryStep, LawfulAt, moved, Option.some.injEq, forall_eq']
      rw [every]
      cases mid with
      | down d =>
        cases rest with
        | refl => exact fun both => one both.1
        | cons moved => cases moved
      | up u =>
        obtain ⟨lawful, paired'⟩ := one
        have later := ih paired' rest
        cases t with
        | down d => exact fun both => later both.2
        | up t => exact ⟨⟨lawful, later.1⟩, later.2⟩

/-- A visitor asks for a mod. -/
def blogVisit : Visit := ⟨demoSite, demoHost, ⟨.get, "/blog", [], []⟩, ⟨[], []⟩⟩

/-- The mod answers the visitor while a thread is in it, and the response is written. -/
def blogEvents : List Event :=
  [.accept 0, .read 0 blogVisit none, .pool (.pop 0), .callback 0 ⟨200, none, .buffer "hello"⟩,
    .pool (.finish 0), .written 0 true]

/-- As long as the server goes on, each connection was given the responses to its first requests,
in order and each for its own request, and all its requests but perhaps the last are answered. The
last one is open exactly while a mod or a handshake has it, and then only one. -/
theorem answered_in_order {s : Server} (run : Run (Step keepAlive) (.up (start threads)) es (.up s))
    (c : Nat) : (s.connections c).InOrder ∧
      ((s.connections c).stage = .asked ↔ ∃! n, ∃ t, s.tickets.lookup n = some t ∧ t.conn = c) ∧
      ∀ n t, s.tickets.lookup n = some t → t.conn = c →
        (s.connections c).asked = (s.connections c).done ++ [t.req] := by
  have paired : Paired s := (decides_run (paired_start threads) run).2
  refine ⟨(paired.sound c).inOrder, ⟨fun asked => ?_, ?_⟩, ?_⟩
  · obtain ⟨n, t, found, same⟩ := paired.manned c asked
    refine ⟨n, ⟨t, found, same⟩, ?_⟩
    rintro m ⟨u, found', same'⟩
    exact paired.single m n u t found' found (same'.trans same.symm)
  · rintro ⟨n, ⟨t, found, rfl⟩, -⟩
    exact (paired.held n t found).1
  · rintro n t found rfl
    exact (paired.held n t found).2

theorem blog_answered : ∃ s, Run (Step fun _ => true) (.up (start 1)) blogEvents (.up s) ∧
    (s.connections 0).answered.length = 1 ∧ (s.connections 0).InOrder := by
  have ended : (runFrom (next fun _ => true) (.up (start 1)) blogEvents).map
      (State.answers 0) = some 1 := by
    decide +kernel
  obtain ⟨t, ran, answers⟩ := Option.map_eq_some_iff.mp ended
  cases t with
  | down d => cases answers
  | up s =>
    have run := run_of_runFrom ran
    exact ⟨s, run, answers, (answered_in_order run 0).1⟩

end runs

/-! ## No request is lost -/

/-- The steps that answer the requests that are open, without damage: nothing more is read. -/
def Answers : Event → Prop
  | .pool e => e.isWork = true
  | .callback _ a => ∀ content, a.body ≠ .file false content
  | .keyReply _ _ => True
  | _ => False

def Serves (keepAlive : Request → Bool) (s : State) (e : Event) (t : State) : Prop :=
  Step keepAlive s e t ∧ LawfulAt s e ∧ Answers e

/-- What is left to do: work of the threads, and requests that are held. -/
def left (s : Server) : Nat := WorkerPools.outstanding s.pool + s.tickets.entries.length

/-- Every request that was read by now has been answered later. -/
def AllAnswered (s t : Server) : Prop :=
  ∀ c, (s.connections c).stage ≠ .closed → (t.connections c).done = (s.connections c).asked

/-- Nothing more was read, and there is less to do. -/
structure Nearer (s t : Server) : Prop where
  paired : Paired t
  asked : ∀ c, (t.connections c).asked = (s.connections c).asked
  closed : ∀ c, (t.connections c).stage = .closed ↔ (s.connections c).stage = .closed
  threads : t.pool.threads.length = s.pool.threads.length
  less : left t < left s

section liveness
variable {keepAlive : Request → Bool} {s : Server} {n : Nat}

theorem nearer_answered (paired : Paired s) {t : Ticket} (found : s.tickets.lookup n = some t)
    (res : Response) : Nearer s (s.answered n t res) where
  paired := paired_answered paired found res
  asked := fun c => by
    by_cases same : c = t.conn
    · rw [same, Server.answered, put_self]
    · rw [Server.answered, put_other (s.without n) same]
      rfl
  closed := fun c => by
    by_cases same : c = t.conn
    · rw [same, Server.answered, put_self, (paired.held n t found).1]
      simp
    · rw [Server.answered, put_other (s.without n) same]
      rfl
  threads := rfl
  less := by
    have mem : n ∈ s.tickets.entries.keys := AList.lookup_isSome.mp (by rw [found]; rfl)
    obtain ⟨u, front, back, -, whole, erased⟩ := List.exists_of_kerase mem
    have fewer : (s.tickets.erase n).entries.length < s.tickets.entries.length := by
      change (s.tickets.entries.kerase n).length < _
      rw [erased, whole]
      simp
    simp only [left, Server.answered, Server.put, Server.without]
    omega

theorem nearer_pool (paired : Paired s) {e : WorkerPools.Event Nat} {pool : ThreadPool Nat}
    (own : e.isWork = true) (moved : s.pool.next e = some pool) : Nearer s { s with pool } where
  paired := paired_pool paired (by rintro m woken rfl; cases own) moved
  asked := fun _ => rfl
  closed := fun _ => Iff.rfl
  threads := WorkerPools.threads_run (.cons moved (.refl pool))
  less := by
    have less : WorkerPools.outstanding pool < WorkerPools.outstanding s.pool :=
      WorkerPools.outstanding_work ⟨moved, own⟩
    simp only [left]
    omega

theorem ModAnswer.sends {a : ModAnswer} (fits : a.Fits)
    (sought : ∀ content, a.body ≠ .file false content) (isLocal : Bool) :
    ∃ res, a.response isLocal = .ok (some res) := by
  have made (x : Except Exn Response) : x.map some ≠ .ok none := by
    cases x <;> simp [Except.map]
  obtain ⟨res, response⟩ := (a.fits_iff isLocal).mp fits
  cases res with
  | some res => exact ⟨res, response⟩
  | none =>
    unfold ModAnswer.response at response
    split at response
    next => exact absurd response (made _)
    next => exact absurd response (made _)
    next content body => exact absurd body (sought content)
    next => cases response
    next => exact absurd response (made _)

theorem serves_cases (paired : Paired s) {e : Event} {t : State}
    (served : Serves keepAlive (.up s) e t) : ∃ u, t = .up u ∧ Nearer s u := by
  obtain ⟨moved, lawful, answers⟩ := served
  cases e with
  | accept | read | readFailed | threw | written => exact answers.elim
  | pool e =>
    obtain ⟨-, pool, worked, rfl⟩ := next_pool moved
    exact ⟨_, rfl, nearer_pool paired answers worked⟩
  | callback n a =>
    simp only [Step, next] at moved
    split at moved
    · obtain ⟨fits, c, req, isLocal, found⟩ := lawful
      obtain ⟨res, response⟩ := a.sends fits answers isLocal
      rw [callback_of_response paired found response] at moved
      cases moved
      exact ⟨_, rfl, nearer_answered paired found res⟩
    · cases moved
  | keyReply n k =>
    have moved : s.keyReply n k = some t := moved
    cases found : s.tickets.lookup n with
    | none =>
      rw [Server.keyReply, found] at moved
      cases moved
    | some ticket =>
      obtain ⟨c, req, holder⟩ := ticket
      cases holder with
      | mod isLocal =>
        rw [Server.keyReply, found] at moved
        cases moved
      | key peer signature =>
        have holds := lawful c req peer signature found
        obtain ⟨res, answered⟩ := keyReply_of_lawful paired found holds
        rw [answered] at moved
        cases moved
        exact ⟨_, rfl, nearer_answered paired found res⟩

theorem serves_run {ws : List Event} {t : State} (paired : Paired s)
    (run : Run (Serves keepAlive) (.up s) ws t) : ∃ u, t = .up u ∧ Paired u ∧
      (∀ c, (u.connections c).asked = (s.connections c).asked) ∧
      (∀ c, (u.connections c).stage = .closed ↔ (s.connections c).stage = .closed) ∧
      u.pool.threads.length = s.pool.threads.length := by
  induction ws generalizing s with
  | nil =>
    cases run
    exact ⟨s, rfl, paired, fun _ => rfl, fun _ => Iff.rfl, rfl⟩
  | cons e ws ih =>
    cases run with
    | cons first rest =>
      obtain ⟨mid, rfl, nearer⟩ := serves_cases paired first
      obtain ⟨u, rfl, paired', asked, closed, threads⟩ := ih nearer.paired rest
      exact ⟨u, rfl, paired', fun c => (asked c).trans (nearer.asked c),
        fun c => (closed c).trans (nearer.closed c), threads.trans nearer.threads⟩

/-- A key request that fails. -/
def noKey : KeyCall where
  crypto := demoCrypto
  config := demoConfig "a.net" "k"
  heap := demoHost.heap
  views := fun _ => Peers.empty
  generated := fun _ => ⟨[], by simp⟩
  ourSecret := ⟨[], by simp⟩
  peerRef := 0
  reply := .transportError

/-- Where nothing more can be answered, nothing is open. -/
theorem none_open_of_stuck (paired : Paired s) (some_ : s.pool.threads ≠ [])
    (stuck : Stuck (Serves keepAlive) (.up s)) (c : Nat) : (s.connections c).stage ≠ .asked := by
  intro asked
  obtain ⟨n, ⟨c', req, holder⟩, found, rfl⟩ := paired.manned c asked
  cases holder with
  | key peer signature =>
    have lawful : noKey.Lawful peer signature := fun res same => by cases same
    obtain ⟨res, answered⟩ := keyReply_of_lawful paired found lawful
    refine stuck (.keyReply n noKey) _ ⟨answered, ?_, trivial⟩
    intro c req peer signature _ res same
    cases same
  | mod isLocal =>
    have idle : Stuck WorkerPools.Work s.pool := by
      rintro e pool ⟨moved, own⟩
      refine stuck (.pool e) (.up { s with pool }) ⟨?_, trivial, own⟩
      cases e with
      | emplace | wake => cases own
      | pop i | finish i =>
        change (s.pool.next _).map _ = _
        rw [show s.pool.next _ = some pool from moved]
        rfl
    have drained := WorkerPools.drained_of_stuck paired.orderly some_ rfl idle
    have begun : n ∈ s.pool.popped := by
      rw [drained.began]
      exact paired.queued n _ req isLocal found
    have fits : ModAnswer.Fits ⟨200, none, .empty⟩ := Or.inr (Or.inr (by decide))
    obtain ⟨res, response⟩ := ModAnswer.sends fits (fun _ => by simp) isLocal
    have answered := callback_of_response paired found response
    have moved : Step keepAlive (.up s) (.callback n ⟨200, none, .empty⟩)
        (.up (s.answered n ⟨c', req, .mod isLocal⟩ res)) := by
      rw [Step, next, if_pos begun, answered]
    refine stuck _ _ ⟨moved, ⟨fits, c', req, isLocal, found⟩, fun content same => by cases same⟩

theorem answered_at_end {ws : List Event} {t : State} (paired : Paired s)
    (manned : s.pool.threads ≠ []) (maximal : Maximal (Serves keepAlive) (.up s) ws t) :
    ∃ u, t = .up u ∧ AllAnswered s u := by
  obtain ⟨run, stuck⟩ := maximal
  obtain ⟨u, rfl, paired', asked, closed, threads⟩ := serves_run paired run
  have manned' : u.pool.threads ≠ [] := by
    rw [← List.length_pos_iff, threads]
    exact List.length_pos_iff.mpr manned
  refine ⟨u, rfl, fun c open_ => ?_⟩
  have none_ := none_open_of_stuck paired' manned' stuck c
  rw [← asked c]
  exact ((paired'.sound c).settled none_ fun same => open_ ((closed c).mp same)).symm

theorem descends_serves :
    Descends (Serves keepAlive) fun m t => ∃ s, t = .up s ∧ Paired s ∧ left s = m := by
  rintro m _ e t ⟨s, rfl, paired, rfl⟩ served
  obtain ⟨u, rfl, nearer⟩ := serves_cases paired served
  exact ⟨left u, nearer.less, u, rfl, nearer.paired, rfl⟩

theorem pool_respond {s u : Server} {c : Nat} {req : Request} {res : Response}
    (same : s.respond c req res = .up u) : u.pool = s.pool := by
  unfold Server.respond at same
  split at same
  · cases same
    rfl
  · cases same

theorem pool_respondAll {c : Nat} {req : Request} {responses : List Response} {s u : Server}
    (same : respondAll c req s responses = .up u) : u.pool = s.pool := by
  induction responses generalizing s with
  | nil =>
    cases same
    rfl
  | cons res rest ih =>
    rw [respondAll] at same
    split at same
    next mid first => exact (ih same).trans (pool_respond first)
    · cases same

/-- An event leaves the pool alone, or is one of the pool. -/
theorem pool_next {e : Event} {u : Server} (moved : next keepAlive (.up s) e = some (.up u)) :
    u.pool = s.pool ∨ ∃ f, s.pool.next f = some u.pool := by
  cases e with
  | accept | readFailed | written =>
    simp only [next] at moved
    split at moved
    · cases moved
      exact Or.inl rfl
    · cases moved
  | threw i =>
    simp only [next] at moved
    split at moved <;> cases moved
  | pool e =>
    obtain ⟨-, pool, worked, same⟩ := next_pool moved
    cases same
    exact Or.inr ⟨e, worked⟩
  | read c v woken =>
    simp only [next] at moved
    split at moved
    next =>
      simp only [Server.read] at moved
      split at moved
      · cases moved
      · unfold Server.serve at moved
        split at moved
        · have same := pool_respond (Option.some.inj moved)
          exact Or.inl same
        · obtain ⟨pool, put, same⟩ := Option.map_eq_some_iff.mp moved
          cases same
          exact Or.inr ⟨_, put⟩
        · cases moved
          exact Or.inl rfl
        · cases moved
    · cases moved
  | callback n a =>
    simp only [next] at moved
    split at moved
    · have same : s.callback n a = .up u := Option.some.inj moved
      unfold Server.callback at same
      split at same
      · split at same
        · cases same
        · cases same
          exact Or.inl rfl
        · have same := pool_respond same
          exact Or.inl same
      · cases same
    · cases moved
  | keyReply n k =>
    simp only [next, Server.keyReply] at moved
    split at moved
    · split at moved
      · cases moved
      · have same := pool_respondAll (Option.some.inj moved)
        exact Or.inl same
    · cases moved

/-- The number of threads does not change. -/
theorem threads_run {es : List Event} {u : Server} (run : Run (Step keepAlive) (.up s) es (.up u)) :
    u.pool.threads.length = s.pool.threads.length := by
  induction es generalizing s with
  | nil =>
    cases run
    rfl
  | cons e es ih =>
    cases run with
    | @cons _ mid _ _ _ first rest =>
      cases mid with
      | down d =>
        cases rest with
        | cons moved => cases moved
      | up mid =>
        rw [ih rest]
        rcases pool_next first with same | ⟨f, moved⟩
        · rw [same]
        · exact WorkerPools.threads_run (.cons moved (.refl _))

end liveness

/-- A mod is called with the request. -/
def isCall : List Effect → Bool
  | [.callMod _ _] => true
  | _ => false

theorem blogVisit_routed : ∃ served mod r,
    visit newConnection blogVisit = .ok served ∧ served.effects = [.callMod mod r] := by
  have called : (visit newConnection blogVisit).toOption.map (isCall ∘ Served.effects) =
      some true := by
    decide +kernel
  cases routed : visit newConnection blogVisit with
  | error fault => rw [routed] at called; cases called
  | ok served =>
    rw [routed] at called
    have called : isCall served.effects = true := Option.some.inj called
    unfold isCall at called
    split at called
    next mod r effects => exact ⟨served, mod, r, rfl, effects⟩
    · cases called

/-- Without threads, nobody takes the request of the visitor. -/
theorem blogVisit_waits (keepAlive : Request → Bool) : ∃ es s,
    Run (Step keepAlive) (.up (start 0)) es (.up s) ∧ Stuck (Serves keepAlive) (.up s) ∧
      ¬ AllAnswered s s := by
  obtain ⟨served, mod, r, routed, effects⟩ := blogVisit_routed
  let opened := (start 0).put 0 { (start 0).connections 0 with stage := .reading }
  let asked := opened.open_ 0 served.session blogVisit.req
  let held : Ticket := ⟨0, blogVisit.req, .mod (r.domain.isNone && r.user.isSome)⟩
  let waiting := { asked with pool := (start 0).pool.put 0 }.issue held
  have reading : (opened.connections 0).stage = .reading := rfl
  have first : Step keepAlive (.up (start 0)) (.accept 0) (.up opened) := rfl
  have second : Step keepAlive (.up opened) (.read 0 blogVisit none) (.up waiting) := by
    have routed : visit (opened.connections 0).session blogVisit = .ok served := routed
    simp only [Step, next, if_pos reading, Server.read, routed, effects, Server.serve]
    rfl
  refine ⟨_, waiting, .cons first (.cons second (.refl _)), ?_, ?_⟩
  · rintro e t ⟨moved, lawful, answers⟩
    cases e with
    | accept | read | readFailed | threw | written => exact answers.elim
    | pool e =>
      cases e with
      | emplace | wake => cases answers
      | pop i | finish i => cases moved
    | callback n a => cases moved
    | keyReply n k =>
      have moved : waiting.keyReply n k = some t := moved
      have only : waiting.tickets.lookup n = if n = 0 then some held else none := by
        change ((∅ : Table Nat Ticket).insert 0 held).lookup n = _
        rw [lookup_insert_eq]
        rfl
      by_cases zero : n = 0
      · rw [if_pos zero] at only
        simp only [Server.keyReply, only, held] at moved
        cases moved
      · rw [if_neg zero] at only
        simp only [Server.keyReply, only] at moved
        cases moved
  · intro answered
    have stage : (waiting.connections 0).stage = .asked := rfl
    have same : ([] : List Request) = [blogVisit.req] := answered 0 (by rw [stage]; decide)
    cases same

end ServedConnections
