import Fiy.KeyedTables
import Fiy.HttpMessages
import Fiy.PeerLinks

/-!
# The peer registry and the initiator's half of the handshake

`Peers` holds two maps of shared pointers. A pointer is an address into a heap of
`Peer` objects, so the objects can be changed while the maps refer to them. Each
definition below is one lock-held section of the source, or the straight-line code
between two of them; the callbacks of `new_peer` are split where they release the
lock.
-/

namespace PeerRegistry

open ByteStrings KeyedTables HttpMessages HostEnvironment PeerLinks

/-- The address a `std::shared_ptr<Peer>` points to. -/
abbrev PeerRef := Nat

abbrev Heap := PeerRef → Peer

structure Peers where
  /-- domain to peer -/
  peersOut : Table Text (Option PeerRef)
  /-- bearer token to peer; `none` is the placeholder of a handshake -/
  peersIn : Table Text (Option PeerRef)
  deriving DecidableEq

def Peers.empty : Peers := ⟨∅, ∅⟩

namespace Peers

def addPeer (heap : Heap) (ps : Peers) (domain : Text) (p : PeerRef) : Bool × Peers :=
  match emplace ps.peersOut domain (some p) with
  | (false, _) => (false, ps)
  | (true, out) =>
    match emplace ps.peersIn (heap p).auth.bearerTokenWeAccept (some p) with
    | (false, _) => (false, { ps with peersOut := out.erase domain })
    | (true, inn) => (true, ⟨out, inn⟩)

/-- The generated strings are tried in order; `none` while all of them are taken. -/
def newTokenStub (ps : Peers) (generated : List Text) : Option (Text × Peers) :=
  (generated.find? fun token => token ∉ ps.peersIn).map fun token =>
    (token, { ps with peersIn := ps.peersIn.insert token none })

def removePeer (heap : Heap) (ps : Peers) (domain : Text) : Bool × Peers :=
  match found ps.peersOut domain with
  | none => (false, ps)
  | some p => (true,
      { peersOut := ps.peersOut.erase domain
        peersIn := ps.peersIn.erase (heap p).auth.bearerTokenWeAccept })

def getPeerForDomain (ps : Peers) (domain : Text) : Option PeerRef := found ps.peersOut domain

def getPeerFromToken (ps : Peers) (token : Text) : Option PeerRef := found ps.peersIn token

/-- The test `prune` makes on an entry of the token map: placeholders stay. -/
def expiredEntry (heap : Heap) (now : Int) : Option PeerRef → Bool
  | none => false
  | some p => (heap p).auth.isExpired now

def prune (heap : Heap) (now : Int) (ps : Peers) : Peers where
  peersOut := eraseAll
    (ps.peersIn.entries.filterMap fun e =>
      if expiredEntry heap now e.2 then e.2.map fun p => (heap p).domain else none)
    ps.peersOut
  peersIn := eraseIf (fun _ p => expiredEntry heap now p) ps.peersIn

/-- `m_peers_in.erase` of one token, the cleanup of a failed handshake. -/
def eraseToken (ps : Peers) (token : Text) : Peers :=
  { ps with peersIn := ps.peersIn.erase token }

/-! ## The callbacks of `new_peer` -/

/-- `with_key_cb`: a request for `/peer/handshake` and its `Peer` object, or the call
of the caller's callback with a null pointer. `none` while no generated token is free. -/
def withKeyCb (c : Crypto) (cfg : Config) (ps : Peers) (domain : Text) (res : Response)
    (generated : List Text) (ourSymkeyHalf : Text) : Option (Option (Peer × Text) × Peers) :=
  if res.status ≠ 200 ∨ res.body = [] then some (none, ps)
  else (newTokenStub ps generated).map fun (token, ps) =>
    let auth := ({} : PeerAuth).handshakeStart token res.body ourSymkeyHalf
    (some (Peer.make domain auth, auth.handshakeRequestBody c cfg), ps)

/-- `handshake_cb` up to the release of the lock by `add_peer`. The flag says that the
callback goes on to its second section; otherwise it has called back with null. -/
def handshakeCb (c : Crypto) (now : Int) (heap : Heap) (ps : Peers) (p : PeerRef)
    (res : Response) : Except Exn (Bool × Heap × Peers) :=
  if res.status ≠ 200 then .ok (false, heap, ps)
  else match (heap p).auth.handshakeParseResponse c now res.body with
    | .error e => .error e
    | .ok (parsed, auth) =>
      let heap := Function.update heap p { heap p with auth }
      if parsed then
        let (added, ps) := ps.addPeer heap (heap p).domain p
        .ok (added, heap, ps)
      else .ok (false, heap, ps.eraseToken auth.bearerTokenWeAccept)

/-- The second section of `handshake_cb`. The flag says which pointer is called back. -/
def handshakeRegister (heap : Heap) (ps : Peers) (p : PeerRef) : Bool × Peers :=
  let token := (heap p).auth.bearerTokenWeAccept
  let inn := ps.peersIn.insert token (some p)
  match emplace ps.peersOut (heap p).domain (some p) with
  | (false, _) => (false, { ps with peersIn := inn.erase token })
  | (true, out) => (true, ⟨out, inn⟩)

/-- `handshake_err_cb` -/
def handshakeErrCb (heap : Heap) (ps : Peers) (p : PeerRef) : Peers :=
  ps.eraseToken (heap p).auth.bearerTokenWeAccept

/-! ## What each section does -/

/-- `add_peer` either inserts under both keys or leaves the registry as it was. -/
theorem addPeer_cases (heap : Heap) (ps : Peers) (domain : Text) (p : PeerRef) :
    (domain ∉ ps.peersOut ∧ (heap p).auth.bearerTokenWeAccept ∉ ps.peersIn ∧
      ps.addPeer heap domain p =
        (true, ⟨ps.peersOut.insert domain (some p),
          ps.peersIn.insert (heap p).auth.bearerTokenWeAccept (some p)⟩)) ∨
    ((domain ∈ ps.peersOut ∨ (heap p).auth.bearerTokenWeAccept ∈ ps.peersIn) ∧
      ps.addPeer heap domain p = (false, ps)) := by
  by_cases hd : domain ∈ ps.peersOut
  · exact Or.inr ⟨Or.inl hd, by simp [addPeer, emplace_of_mem hd]⟩
  · by_cases ht : (heap p).auth.bearerTokenWeAccept ∈ ps.peersIn
    · refine Or.inr ⟨Or.inr ht, ?_⟩
      simp [addPeer, emplace_of_notMem hd, emplace_of_mem ht,
        erase_insert_of_notMem hd]
    · exact Or.inl ⟨hd, ht, by simp [addPeer, emplace_of_notMem hd, emplace_of_notMem ht]⟩

theorem newTokenStub_some {ps ps' : Peers} {generated : List Text} {token : Text}
    (h : ps.newTokenStub generated = some (token, ps')) :
    token ∈ generated ∧ token ∉ ps.peersIn ∧
      ps' = { ps with peersIn := ps.peersIn.insert token none } := by
  obtain ⟨t, ht, heq⟩ := Option.map_eq_some_iff.mp h
  obtain ⟨rfl, rfl⟩ := Prod.mk.inj heq
  exact ⟨List.mem_of_find?_eq_some ht, by simpa using List.find?_some ht, rfl⟩

/-- The domains whose peers a prune finds expired. -/
theorem mem_pruned_domains (heap : Heap) (now : Int) (ps : Peers) (d : Text) :
    (d ∈ ps.peersIn.entries.filterMap fun e =>
      if expiredEntry heap now e.2 then e.2.map fun p => (heap p).domain else none) ↔
    ∃ t p, found ps.peersIn t = some p ∧ (heap p).auth.isExpired now = true ∧
      (heap p).domain = d := by
  rw [List.mem_filterMap]
  constructor
  · rintro ⟨⟨t, v⟩, hmem, hv⟩
    cases v with
    | none => simp [expiredEntry] at hv
    | some p =>
      have hlook : ps.peersIn.lookup t = some (some p) := AList.mem_lookup_iff.mpr hmem
      by_cases hx : (heap p).auth.isExpired now = true
      · exact ⟨t, p, by simp [found, hlook], hx, by simpa [expiredEntry, hx] using hv⟩
      · simp [expiredEntry, hx] at hv
  · rintro ⟨t, p, hfound, hx, hd⟩
    have hlook : ps.peersIn.lookup t = some (some p) := by
      simpa [found, Option.join_eq_some_iff] using hfound
    exact ⟨⟨t, some p⟩, AList.mem_lookup_iff.mp hlook, by simp [expiredEntry, hx, hd]⟩

/-- The domain map keeps a peer unless an expired one has its domain. -/
theorem found_prune_out_iff (heap : Heap) (now : Int) (ps : Peers) (d : Text) (q : PeerRef) :
    found (ps.prune heap now).peersOut d = some q ↔
      found ps.peersOut d = some q ∧
      ∀ t p, found ps.peersIn t = some p → (heap p).auth.isExpired now = true →
        (heap p).domain ≠ d := by
  have listed := mem_pruned_domains heap now ps d
  rw [found, prune, lookup_eraseAll]
  split
  · rename_i h
    obtain ⟨t, p, hp, hx, hd⟩ := listed.mp h
    constructor
    · intro hq
      cases hq
    · intro hq
      exact absurd hd (hq.2 t p hp hx)
  · rename_i h
    constructor
    · intro hq
      exact ⟨hq, fun t p hp hx hd => h (listed.mpr ⟨t, p, hp, hx, hd⟩)⟩
    · exact fun hq => hq.1

/-- What the token map finds after a prune. -/
theorem found_prune_in (heap : Heap) (now : Int) (ps : Peers) (t : Text) :
    found (ps.prune heap now).peersIn t =
      (found ps.peersIn t).filter fun p => !(heap p).auth.isExpired now := by
  rw [found, prune, lookup_eraseIf, found]
  cases hl : ps.peersIn.lookup t with
  | none => rfl
  | some v =>
    cases v with
    | none => simp [expiredEntry, Option.filter]
    | some p =>
      by_cases hx : (heap p).auth.isExpired now = true
      · simp [expiredEntry, hx, Option.filter]
      · simp [expiredEntry, hx, Option.filter]

/-- The second section inserts both entries or erases the token it just wrote. -/
theorem handshakeRegister_cases (heap : Heap) (ps : Peers) (p : PeerRef) :
    ((heap p).domain ∉ ps.peersOut ∧ handshakeRegister heap ps p =
      (true, ⟨ps.peersOut.insert (heap p).domain (some p),
        ps.peersIn.insert (heap p).auth.bearerTokenWeAccept (some p)⟩)) ∨
    ((heap p).domain ∈ ps.peersOut ∧ handshakeRegister heap ps p =
      (false, ⟨ps.peersOut,
        (ps.peersIn.insert (heap p).auth.bearerTokenWeAccept (some p)).erase
          (heap p).auth.bearerTokenWeAccept⟩)) := by
  by_cases hd : (heap p).domain ∈ ps.peersOut
  · exact Or.inr ⟨hd, by simp [handshakeRegister, emplace_of_mem hd]⟩
  · exact Or.inl ⟨hd, by simp [handshakeRegister, emplace_of_notMem hd]⟩

end Peers

end PeerRegistry
