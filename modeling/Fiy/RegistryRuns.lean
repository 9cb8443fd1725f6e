import Fiy.GuardedRuns
import Fiy.PeerRegistry

/-!
# Interleavings of the registry operations

A state is the registry, the heap its pointers refer to, and the phase of every
`new_peer` handshake, named by its `Peer` object. A label is one lock-held section
together with the bytes the remote side sent. Two sections are damaging: the
clean-up of a failed handshake and the second section of a successful one, since
both drop an entry of the token map by a key that may belong to a registered peer.
-/

namespace RegistryRuns

open ByteStrings KeyedTables GuardedRuns HttpMessages HostEnvironment PeerLinks PeerRegistry
open PeerRegistry.Peers

inductive Phase
  /-- the handshake request is in flight -/
  | requested
  /-- `add_peer` succeeded and the lock is released -/
  | registering
  | ended
  deriving DecidableEq, Repr

structure Registry where
  heap : Heap
  /-- the next address no object has -/
  fresh : PeerRef
  peers : Peers
  phase : PeerRef → Option Phase

/-- A constructed `Peers` object. What unallocated addresses hold is irrelevant. -/
def start : Registry where
  heap := fun _ => ⟨[], {}⟩
  fresh := 0
  peers := Peers.empty
  phase := fun _ => none

inductive Section
  /-- one registration attempt of a handshake responder, with its own object -/
  | addPeer (peer : Peer)
  | removePeer (domain : Text)
  | prune (now : Int)
  | newTokenStub (generated : List Text)
  | withKeyCb (domain : Text) (res : Response) (generated : List Text) (ourSymkeyHalf : Text)
  | handshakeCb (p : PeerRef) (res : Response) (now : Int)
  | handshakeRegister (p : PeerRef)
  | handshakeErrCb (p : PeerRef)

/-- `none`: the section is not due, its generator has not produced a free token yet,
or it throws. The error callback can also follow the response callback, because the
plain HTTP client reports a failed shutdown after it. -/
def step (c : Crypto) (cfg : Config) (s : Registry) : Section → Option Registry
  | .addPeer peer =>
    let heap := Function.update s.heap s.fresh peer
    some { s with
      heap
      fresh := s.fresh + 1
      peers := (s.peers.addPeer heap peer.domain s.fresh).2 }
  | .removePeer domain => some { s with peers := (s.peers.removePeer s.heap domain).2 }
  | .prune now => some { s with peers := s.peers.prune s.heap now }
  | .newTokenStub generated =>
    (s.peers.newTokenStub generated).map fun r => { s with peers := r.2 }
  | .withKeyCb domain res generated half =>
    (withKeyCb c cfg s.peers domain res generated half).map fun
      | (none, peers) => { s with peers }
      | (some (peer, _), peers) =>
        { heap := Function.update s.heap s.fresh peer
          fresh := s.fresh + 1
          peers
          phase := Function.update s.phase s.fresh (some .requested) }
  | .handshakeCb p res now =>
    if s.phase p = some .requested then
      match handshakeCb c now s.heap s.peers p res with
      | .error _ => none
      | .ok (goesOn, heap, peers) => some { s with
          heap
          peers
          phase := Function.update s.phase p (some (if goesOn then .registering else .ended)) }
    else none
  | .handshakeRegister p =>
    if s.phase p = some .registering then some { s with
      peers := (handshakeRegister s.heap s.peers p).2
      phase := Function.update s.phase p (some .ended) }
    else none
  | .handshakeErrCb p =>
    if s.phase p = some .requested ∨ s.phase p = some .ended then some { s with
      peers := handshakeErrCb s.heap s.peers p
      phase := Function.update s.phase p (some .ended) }
    else none

def Step (c : Crypto) (cfg : Config) (s : Registry) (e : Section) (t : Registry) : Prop :=
  step c cfg s e = some t

/-- The token a peer is accepted under. -/
def Registry.accepts (s : Registry) (p : PeerRef) : Text := (s.heap p).auth.bearerTokenWeAccept

def Registry.domain (s : Registry) (p : PeerRef) : Text := (s.heap p).domain

/-- The two maps are mutually inverse on non-null entries. -/
def MutuallyInverse (s : Registry) : Prop :=
  ∀ d p, found s.peers.peersOut d = some p ↔
    s.domain p = d ∧ found s.peers.peersIn (s.accepts p) = some p

/-- The token the section erases or overwrites is not the token of a registered peer. -/
def Harmless (c : Crypto) (s : Registry) : Section → Prop
  | .handshakeCb p res now =>
    res.status = 200 →
      (∃ auth, (s.heap p).auth.handshakeParseResponse c now res.body = .ok (false, auth)) →
      found s.peers.peersIn (s.accepts p) = none
  | .handshakeRegister p => found s.peers.peersIn (s.accepts p) = none
  | .handshakeErrCb p => found s.peers.peersIn (s.accepts p) = none
  | _ => True

/-! ## The invariant of the sections -/

/-- The maps are mirrors, under the keys of the objects themselves. -/
def Mirrored (s : Registry) : Prop :=
  Mirror s.domain s.accepts (found s.peers.peersOut) (found s.peers.peersIn)

/-- Every pointer in use is allocated. -/
structure Allocated (s : Registry) : Prop where
  entries : ∀ d p, found s.peers.peersOut d = some p → p < s.fresh
  handshakes : ∀ p, s.phase p ≠ none → p < s.fresh

theorem Mirrored.inverse {s : Registry} (m : Mirrored s) : MutuallyInverse s :=
  fun d p => m.found_iff d p

theorem mirrored_start : Mirrored start := mirror_empty

theorem allocated_start : Allocated start :=
  ⟨fun _ _ h => (by cases h), fun _ h => absurd rfl h⟩

section maps
variable {heap : Heap} {ps : Peers}

/-- The mirror property of a registry over a heap. -/
abbrev HeapMirror (heap : Heap) (ps : Peers) : Prop :=
  Mirror (fun p => (heap p).domain) (fun p => (heap p).auth.bearerTokenWeAccept)
    (found ps.peersOut) (found ps.peersIn)

theorem addPeer_mirror (m : HeapMirror heap ps) (p : PeerRef) :
    HeapMirror heap (ps.addPeer heap (heap p).domain p).2 := by
  rcases addPeer_cases heap ps (heap p).domain p with ⟨hd, ht, heq⟩ | ⟨_, heq⟩
  · rw [heq]
    simp only [HeapMirror, found_insert]
    exact m.add (found_of_notMem hd) (found_of_notMem ht)
  · rw [heq]
    exact m

theorem removePeer_mirror (m : HeapMirror heap ps) (domain : Text) :
    HeapMirror heap (ps.removePeer heap domain).2 := by
  cases h : found ps.peersOut domain with
  | none => simpa [removePeer, h] using m
  | some p =>
    simp only [removePeer, h, HeapMirror, found_erase]
    exact m.remove h

theorem newTokenStub_mirror (m : HeapMirror heap ps) {generated : List Text}
    {token : Text} {ps' : Peers} (h : ps.newTokenStub generated = some (token, ps')) :
    HeapMirror heap ps' := by
  obtain ⟨_, free, rfl⟩ := newTokenStub_some h
  simpa only [HeapMirror, found_insert_placeholder free] using m

/-- On mirrored maps, prune drops exactly the expired peers from both. -/
theorem prune_mirror (m : HeapMirror heap ps) (now : Int) :
    HeapMirror heap (ps.prune heap now) := by
  let keep : PeerRef → Bool := fun p => !(heap p).auth.isExpired now
  have hout : found (ps.prune heap now).peersOut = fun d => (found ps.peersOut d).filter keep := by
    funext d
    ext q
    rw [found_prune_out_iff, Option.filter_eq_some_iff]
    constructor
    · rintro ⟨hq, live⟩
      obtain ⟨hd, ht⟩ := m.named d q hq
      refine ⟨hq, ?_⟩
      by_contra hx
      exact live _ q ht (by simpa [keep] using hx) hd
    · rintro ⟨hq, live⟩
      refine ⟨hq, fun t p hp hx hd => ?_⟩
      have hfound : found ps.peersOut (heap p).domain = some p := (m.tokened t p hp).2
      rw [hd, hq] at hfound
      rw [Option.some.inj hfound] at live
      simp [keep, hx] at live
  have hin : found (ps.prune heap now).peersIn = fun t => (found ps.peersIn t).filter keep :=
    funext (found_prune_in heap now ps)
  rw [HeapMirror, hout, hin]
  exact m.filter keep

/-- Erasing one token keeps the mirror exactly when no peer is accepted under it. -/
theorem eraseToken_mirror_iff (m : HeapMirror heap ps) (token : Text) :
    HeapMirror heap (ps.eraseToken token) ↔ found ps.peersIn token = none := by
  simp only [HeapMirror, eraseToken, found_erase]
  exact m.clear_token_iff token

/-- Re-registration keeps the mirror exactly when no peer is accepted under its token. -/
theorem handshakeRegister_mirror_iff (m : HeapMirror heap ps) (p : PeerRef) :
    HeapMirror heap (handshakeRegister heap ps p).2 ↔
      found ps.peersIn (heap p).auth.bearerTokenWeAccept = none := by
  rcases handshakeRegister_cases heap ps p with ⟨hd, heq⟩ | ⟨_, heq⟩
  · rw [heq]
    simp only [HeapMirror, found_insert]
    constructor
    · intro m'
      cases hq : found ps.peersIn (heap p).auth.bearerTokenWeAccept with
      | none => rfl
      | some q =>
        obtain ⟨ht, hf⟩ := m.tokened _ q hq
        have hne : (heap q).domain ≠ (heap p).domain := by
          intro same
          rw [same, found_of_notMem hd] at hf
          cases hf
        have kept := (m'.named (heap q).domain q
          (by rw [Function.update_of_ne hne]; exact hf)).2
        rw [ht, Function.update_self] at kept
        exact absurd (Option.some.inj kept ▸ rfl) hne
    · exact fun hg => m.add (found_of_notMem hd) hg
  · rw [heq]
    simp only [HeapMirror, found_erase, found_insert, Function.update_idem]
    exact m.clear_token_iff _

/-- Objects no map refers to may change. -/
theorem heap_update_mirror (m : HeapMirror heap ps) {p : PeerRef}
    (unused : ∀ d, found ps.peersOut d ≠ some p) (peer : Peer) :
    HeapMirror (Function.update heap p peer) ps := by
  apply m.congr
  intro d q hq
  have hne : q ≠ p := fun e => unused d (e ▸ hq)
  simp [Function.update_of_ne hne]

/-- So may the fields of an object that are not its keys. -/
theorem heap_auth_mirror (m : HeapMirror heap ps) {p : PeerRef} {auth : PeerAuth}
    (same : auth.bearerTokenWeAccept = (heap p).auth.bearerTokenWeAccept) :
    HeapMirror (Function.update heap p { heap p with auth }) ps := by
  apply m.congr
  intro d q _
  by_cases hq : q = p
  · subst hq
    simp [same]
  · simp [Function.update_of_ne hq]

/-- The domain map of a section only gains the pointer the section registers. -/
theorem addPeer_out {p q : PeerRef} {domain d : Text}
    (h : found (ps.addPeer heap domain p).2.peersOut d = some q) :
    q = p ∨ found ps.peersOut d = some q := by
  rcases addPeer_cases heap ps domain p with ⟨_, _, heq⟩ | ⟨_, heq⟩
  · rw [heq, found_insert] at h
    by_cases hd : d = domain
    · subst hd
      exact Or.inl (by simpa using h.symm)
    · exact Or.inr (by simpa [hd] using h)
  · exact Or.inr (by simpa [heq] using h)

theorem handshakeRegister_out {p q : PeerRef} {d : Text}
    (h : found (handshakeRegister heap ps p).2.peersOut d = some q) :
    q = p ∨ found ps.peersOut d = some q := by
  rcases handshakeRegister_cases heap ps p with ⟨_, heq⟩ | ⟨_, heq⟩
  · rw [heq, found_insert] at h
    by_cases hd : d = (heap p).domain
    · subst hd
      exact Or.inl (by simpa using h.symm)
    · exact Or.inr (by simpa [hd] using h)
  · exact Or.inr (by simpa [heq] using h)

theorem removePeer_out {domain d : Text} {q : PeerRef}
    (h : found (ps.removePeer heap domain).2.peersOut d = some q) :
    found ps.peersOut d = some q := by
  cases hp : found ps.peersOut domain with
  | none => simpa [removePeer, hp] using h
  | some p =>
    simp only [removePeer, hp, found_erase] at h
    by_cases hd : d = domain
    · subst hd
      simp at h
    · simpa [hd] using h

end maps

/-! ## One section -/

section steps
variable {c : Crypto} {cfg : Config} {s t : Registry} {e : Section}

theorem fresh_unused (a : Allocated s) (d : Text) :
    found s.peers.peersOut d ≠ some s.fresh :=
  fun h => Nat.lt_irrefl _ (a.entries d _ h)

/-- What `handshake_cb` does to the maps when it does not throw. -/
theorem handshakeCb_mirror_iff {heap heap' : Heap} {ps ps' : Peers} {p : PeerRef}
    {res : Response} {now : Int} {goesOn : Bool} (m : HeapMirror heap ps)
    (h : handshakeCb c now heap ps p res = .ok (goesOn, heap', ps')) :
    HeapMirror heap' ps' ↔ (res.status = 200 →
      (∃ auth, (heap p).auth.handshakeParseResponse c now res.body = .ok (false, auth)) →
      found ps.peersIn (heap p).auth.bearerTokenWeAccept = none) := by
  by_cases hstatus : res.status = 200
  · simp only [handshakeCb, hstatus, ne_eq, not_true_eq_false, if_false] at h
    cases hparse : (heap p).auth.handshakeParseResponse c now res.body with
    | error x => simp [hparse] at h
    | ok r =>
      obtain ⟨parsed, auth⟩ := r
      have same := PeerAuth.parseResponse_accept hparse
      have m' := heap_auth_mirror m same
      cases parsed with
      | false =>
        simp only [hparse, Bool.false_eq_true, if_false, Except.ok.injEq, Prod.mk.injEq] at h
        obtain ⟨_, rfl, rfl⟩ := h
        rw [eraseToken_mirror_iff m', same]
        simp [hstatus]
      | true =>
        simp only [hparse, if_true, Except.ok.injEq, Prod.mk.injEq] at h
        obtain ⟨_, rfl, rfl⟩ := h
        refine iff_of_true (addPeer_mirror m' p) ?_
        rintro _ ⟨auth', failed⟩
        cases failed
  · simp only [handshakeCb, hstatus, ne_eq, not_false_eq_true, if_true, Except.ok.injEq,
      Prod.mk.injEq] at h
    obtain ⟨_, rfl, rfl⟩ := h
    simp [hstatus, m]

/-- One section preserves the mirror exactly when it is harmless. -/
theorem step_mirrored_iff (h : Step c cfg s e t) (m : Mirrored s) (a : Allocated s) :
    Mirrored t ↔ Harmless c s e := by
  cases e with
  | addPeer peer =>
    simp only [Step, step, Option.some.injEq] at h
    subst h
    have m' := heap_update_mirror m (fresh_unused a) peer
    have own : (Function.update s.heap s.fresh peer s.fresh).domain = peer.domain := by simp
    have done := addPeer_mirror m' s.fresh
    rw [own] at done
    exact iff_of_true done trivial
  | removePeer domain =>
    simp only [Step, step, Option.some.injEq] at h
    subst h
    exact iff_of_true (removePeer_mirror m domain) trivial
  | prune now =>
    simp only [Step, step, Option.some.injEq] at h
    subst h
    exact iff_of_true (prune_mirror m now) trivial
  | newTokenStub generated =>
    obtain ⟨⟨token, ps'⟩, hstub, rfl⟩ := Option.map_eq_some_iff.mp h
    exact iff_of_true (newTokenStub_mirror m hstub) trivial
  | withKeyCb domain res generated half =>
    refine iff_of_true ?_ trivial
    obtain ⟨⟨request, ps'⟩, hkey, rfl⟩ := Option.map_eq_some_iff.mp h
    simp only [withKeyCb] at hkey
    split at hkey
    · cases hkey
      exact m
    · obtain ⟨⟨token, ps''⟩, hstub, heq⟩ := Option.map_eq_some_iff.mp hkey
      cases heq
      have m' := newTokenStub_mirror m hstub
      obtain ⟨_, _, rfl⟩ := newTokenStub_some hstub
      exact heap_update_mirror m' (fresh_unused a) _
  | handshakeCb p res now =>
    simp only [Step, step] at h
    split at h
    · cases hcb : handshakeCb c now s.heap s.peers p res with
      | error x => simp [hcb] at h
      | ok r =>
        obtain ⟨goesOn, heap', ps'⟩ := r
        simp only [hcb, Option.some.injEq] at h
        subst h
        exact handshakeCb_mirror_iff m hcb
    · cases h
  | handshakeRegister p =>
    simp only [Step, step] at h
    split at h
    · cases h
      exact handshakeRegister_mirror_iff m p
    · cases h
  | handshakeErrCb p =>
    simp only [Step, step] at h
    split at h
    · cases h
      exact eraseToken_mirror_iff m _
    · cases h

theorem handshakeCb_out {heap heap' : Heap} {ps ps' : Peers} {p q : PeerRef}
    {res : Response} {now : Int} {goesOn : Bool} {d : Text}
    (h : handshakeCb c now heap ps p res = .ok (goesOn, heap', ps'))
    (hq : found ps'.peersOut d = some q) : q = p ∨ found ps.peersOut d = some q := by
  simp only [handshakeCb] at h
  split at h
  · cases h
    exact Or.inr hq
  · split at h
    · cases h
    · split at h
      · cases h
        exact addPeer_out hq
      · cases h
        exact Or.inr hq

theorem phase_update {phase : PeerRef → Option Phase} {p q : PeerRef} {x : Phase}
    {bound : PeerRef} (old : ∀ r, phase r ≠ none → r < bound) (hp : p < bound)
    (hq : Function.update phase p (some x) q ≠ none) : q < bound := by
  by_cases he : q = p
  · exact he ▸ hp
  · exact old q (by simpa [he] using hq)

theorem step_allocated (h : Step c cfg s e t) (a : Allocated s) : Allocated t := by
  cases e with
  | addPeer peer =>
    simp only [Step, step, Option.some.injEq] at h
    subst h
    refine ⟨fun d q hq => ?_, fun q hq => Nat.lt_succ_of_lt (a.handshakes q hq)⟩
    rcases addPeer_out hq with rfl | old
    · exact Nat.lt_succ_self _
    · exact Nat.lt_succ_of_lt (a.entries d q old)
  | removePeer domain =>
    simp only [Step, step, Option.some.injEq] at h
    subst h
    exact ⟨fun d q hq => a.entries d q (removePeer_out hq), a.handshakes⟩
  | prune now =>
    simp only [Step, step, Option.some.injEq] at h
    subst h
    exact ⟨fun d q hq => a.entries d q ((found_prune_out_iff _ _ _ _ _).mp hq).1,
      a.handshakes⟩
  | newTokenStub generated =>
    obtain ⟨⟨token, ps'⟩, hstub, rfl⟩ := Option.map_eq_some_iff.mp h
    obtain ⟨_, _, rfl⟩ := newTokenStub_some hstub
    exact ⟨a.entries, a.handshakes⟩
  | withKeyCb domain res generated half =>
    obtain ⟨⟨request, ps'⟩, hkey, rfl⟩ := Option.map_eq_some_iff.mp h
    simp only [withKeyCb] at hkey
    split at hkey
    · cases hkey
      exact a
    · obtain ⟨⟨token, ps''⟩, hstub, heq⟩ := Option.map_eq_some_iff.mp hkey
      cases heq
      obtain ⟨_, _, rfl⟩ := newTokenStub_some hstub
      exact ⟨fun d q hq => Nat.lt_succ_of_lt (a.entries d q hq),
        fun q hq => phase_update (fun r hr => Nat.lt_succ_of_lt (a.handshakes r hr))
          (Nat.lt_succ_self _) hq⟩
  | handshakeCb p res now =>
    simp only [Step, step] at h
    split at h
    · rename_i due
      have hp : p < s.fresh := a.handshakes p (by simp [due])
      cases hcb : handshakeCb c now s.heap s.peers p res with
      | error x => simp [hcb] at h
      | ok r =>
        obtain ⟨goesOn, heap', ps'⟩ := r
        simp only [hcb, Option.some.injEq] at h
        subst h
        refine ⟨fun d q hq => ?_, fun q hq => phase_update a.handshakes hp hq⟩
        rcases handshakeCb_out hcb hq with rfl | old
        · exact hp
        · exact a.entries d q old
    · cases h
  | handshakeRegister p =>
    simp only [Step, step] at h
    split at h
    · rename_i due
      have hp : p < s.fresh := a.handshakes p (by simp [due])
      cases h
      refine ⟨fun d q hq => ?_, fun q hq => phase_update a.handshakes hp hq⟩
      rcases handshakeRegister_out hq with rfl | old
      · exact hp
      · exact a.entries d q old
    · cases h
  | handshakeErrCb p =>
    simp only [Step, step] at h
    split at h
    · rename_i due
      have hp : p < s.fresh := a.handshakes p (by rcases due with due | due <;> simp [due])
      cases h
      exact ⟨a.entries, fun q hq => phase_update a.handshakes hp hq⟩
    · cases h

end steps

/-! ## Runs -/

/-- In a run of harmless sections the two maps stay mutually inverse. -/
theorem harmless_run_inverse (c : Crypto) (cfg : Config) (es : List Section) (s : Registry)
    (run : Run (Restrict (Step c cfg) (Harmless c)) start es s) : MutuallyInverse s := by
  have invariant : Mirrored s ∧ Allocated s :=
    run.preserves (I := fun s => Mirrored s ∧ Allocated s)
      (fun _ _ _ inv h =>
        ⟨(step_mirrored_iff h.1 inv.1 inv.2).mpr h.2, step_allocated h.1 inv.2⟩)
      ⟨mirrored_start, allocated_start⟩
  exact invariant.1.inverse

/-- A remote side that signs its reply: key, reply, and the sections they lead to. -/
def signedReplyRun : List Section :=
  [.withKeyCb "evil.net" { status := 200, body := "PEM:e" } [".stub"] ".half",
    .handshakeCb 0
      { status := 200
        body := lit "t\ns\n" ++ demoSignature "e" (PeerAuth.preSig "t" "s") } 1000,
    .handshakeRegister 0]

/-- A refused handshake, interleaved with a responder's registration. -/
def refusedReplyRun : List Section :=
  [.withKeyCb "a.net" { status := 200, body := "PEM:e" } [".stub"] ".half",
    .addPeer (Peer.make "b.net" { bearerTokenWeAccept := ".b" }),
    .handshakeCb 0 { status := 200, body := "t\ns\nforged" } 1000,
    .removePeer "b.net"]

/-- The refused handshake cleans up under a token no peer has. -/
theorem refused_reply_inverse :
    ∃ s, Run (Restrict (Step demoCrypto (demoConfig "a.net" "k")) (Harmless demoCrypto))
      start refusedReplyRun s ∧ MutuallyInverse s := by
  have run : ∃ s, Run (Restrict (Step demoCrypto (demoConfig "a.net" "k"))
      (Harmless demoCrypto)) start refusedReplyRun s := by
    refine ⟨_, .cons ⟨rfl, trivial⟩ (.cons ⟨rfl, trivial⟩ (.cons ⟨rfl, ?_⟩
      (.cons ⟨rfl, trivial⟩ (.refl _))))⟩
    exact fun _ _ => by decide
  obtain ⟨s, hs⟩ := run
  exact ⟨s, hs, harmless_run_inverse _ _ _ _ hs⟩

/-- A completed handshake loses its token entry and keeps its domain entry. -/
theorem signed_reply_breaks_inverse :
    ∃ s, Run (Step demoCrypto (demoConfig "a.net" "k")) start signedReplyRun s ∧
      ¬ MutuallyInverse s := by
  have maps : (runFrom (step demoCrypto (demoConfig "a.net" "k")) start signedReplyRun).map
      (fun s => (found s.peers.peersOut (lit "evil.net"),
        found s.peers.peersIn (s.accepts 0))) = some (some 0, none) := by decide
  obtain ⟨s, hs, hmaps⟩ := Option.map_eq_some_iff.mp maps
  obtain ⟨hout, hin⟩ := Prod.mk.inj hmaps
  refine ⟨s, run_of_runFrom hs, fun inverse => ?_⟩
  have lost := ((inverse _ 0).mp hout).2
  rw [hin] at lost
  cases lost

end RegistryRuns
