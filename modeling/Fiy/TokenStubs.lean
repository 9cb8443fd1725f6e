import Fiy.RegistryRuns

/-!
# The placeholders of handshakes in flight

`new_token_stub` reserves a token with a null entry before a handshake request is sent,
and every end of the handshake has to give it back. The reservation is made under the
token we send, the clean-up erases the token we accept, which a handshake never sets.
Each handshake's own stub is recorded beside the registry.
-/

namespace TokenStubs

universe u v

open ByteStrings KeyedTables GuardedRuns HttpMessages HostEnvironment PeerLinks PeerRegistry
open PeerRegistry.Peers RegistryRuns

/-! ## Reservations -/

section reservations
variable {ρ : Type u} {τ : Type v}

/-- Every party that is under way has a slot of its own, and nothing else holds one. -/
structure Reserved (flying : ρ → Prop) (slot : ρ → Option τ) (held : τ → Prop) : Prop where
  slotted : ∀ p, flying p → ∃ t, slot p = some t ∧ held t
  owned : ∀ t, held t → ∃ p, flying p ∧ slot p = some t
  distinct : ∀ p q, flying p → flying q → slot p = slot q → p = q

variable {flying flying' : ρ → Prop} {slot slot' : ρ → Option τ} {held held' : τ → Prop}

theorem Reserved.existsUnique (r : Reserved flying slot held) {t : τ} (taken : held t) :
    ∃ p, (flying p ∧ slot p = some t) ∧ ∀ q, flying q ∧ slot q = some t → q = p := by
  obtain ⟨p, hp, hslot⟩ := r.owned t taken
  refine ⟨p, ⟨hp, hslot⟩, ?_⟩
  rintro q ⟨hq, hslot'⟩
  exact r.distinct q p hq hp (hslot'.trans hslot.symm)

theorem Reserved.congr (r : Reserved flying slot held) (hf : ∀ p, flying' p ↔ flying p)
    (hs : ∀ p, flying p → slot' p = slot p) (hh : ∀ t, held' t ↔ held t) :
    Reserved flying' slot' held' := by
  constructor
  · intro p hp
    have old := (hf p).mp hp
    obtain ⟨t, hslot, taken⟩ := r.slotted p old
    exact ⟨t, (hs p old).trans hslot, (hh t).mpr taken⟩
  · intro t taken
    obtain ⟨p, hp, hslot⟩ := r.owned t ((hh t).mp taken)
    exact ⟨p, (hf p).mpr hp, (hs p hp).trans hslot⟩
  · intro p q hp hq same
    rw [hs p ((hf p).mp hp), hs q ((hf q).mp hq)] at same
    exact r.distinct p q ((hf p).mp hp) ((hf q).mp hq) same

/-- A newcomer takes a slot that nobody holds. -/
theorem Reserved.add (r : Reserved flying slot held) {p : ρ} {t : τ} (grounded : ¬ flying p)
    (free : ¬ held t) (hf : ∀ q, flying' q ↔ q = p ∨ flying q)
    (hnew : slot' p = some t) (hs : ∀ q, flying q → slot' q = slot q)
    (hh : ∀ u, held' u ↔ u = t ∨ held u) : Reserved flying' slot' held' := by
  have others : ∀ q, flying q → slot' q ≠ some t := by
    intro q hq same
    obtain ⟨u, hslot, taken⟩ := r.slotted q hq
    rw [hs q hq, hslot] at same
    exact free (Option.some.inj same ▸ taken)
  constructor
  · intro q hq
    rcases (hf q).mp hq with rfl | old
    · exact ⟨t, hnew, (hh t).mpr (Or.inl rfl)⟩
    · obtain ⟨u, hslot, taken⟩ := r.slotted q old
      exact ⟨u, (hs q old).trans hslot, (hh u).mpr (Or.inr taken)⟩
  · intro u taken
    rcases (hh u).mp taken with rfl | old
    · exact ⟨p, (hf p).mpr (Or.inl rfl), hnew⟩
    · obtain ⟨q, hq, hslot⟩ := r.owned u old
      exact ⟨q, (hf q).mpr (Or.inr hq), (hs q hq).trans hslot⟩
  · intro q q' hq hq' same
    rcases (hf q).mp hq with rfl | old
    · rcases (hf q').mp hq' with rfl | old'
      · rfl
      · exact absurd (same.symm.trans hnew) (others q' old')
    · rcases (hf q').mp hq' with rfl | old'
      · exact absurd (same.trans hnew) (others q old)
      · rw [hs q old, hs q' old'] at same
        exact r.distinct q q' old old' same

end reservations

/-! ## Handshakes with their stubs -/

/-- The registry, and the stub each handshake was started with. -/
structure Tracked where
  reg : Registry
  stub : PeerRef → Option Text

def start : Tracked := ⟨RegistryRuns.start, fun _ => none⟩

/-- The sections of `new_peer`, `add_peer`, `remove_peer` and `prune`. Generated tokens
are never empty. -/
inductive Op
  | addPeer (peer : Peer)
  | removePeer (domain : Text)
  | prune (now : Int)
  | withKeyCb (domain : Text) (res : Response) (generated : List { t : Text // t ≠ [] })
      (ourSymkeyHalf : Text)
  | handshakeCb (p : PeerRef) (res : Response) (now : Int)
  | handshakeRegister (p : PeerRef)
  | handshakeErrCb (p : PeerRef)

def Op.toSection : Op → Section
  | addPeer peer => .addPeer peer
  | removePeer domain => .removePeer domain
  | prune now => .prune now
  | withKeyCb domain res generated half => .withKeyCb domain res (generated.map Subtype.val) half
  | handshakeCb p res now => .handshakeCb p res now
  | handshakeRegister p => .handshakeRegister p
  | handshakeErrCb p => .handshakeErrCb p

/-- A handshake that is started is allocated, and its stub is the token it sends. -/
def step (c : Crypto) (cfg : Config) (s : Tracked) (o : Op) : Option Tracked :=
  (RegistryRuns.step c cfg s.reg o.toSection).map fun reg =>
    { reg
      stub := match o with
        | .withKeyCb _ _ _ _ =>
          if reg.fresh = s.reg.fresh then s.stub
          else Function.update s.stub s.reg.fresh
            (some (reg.heap s.reg.fresh).auth.bearerTokenWeSend)
        | _ => s.stub }

def Step (c : Crypto) (cfg : Config) (s : Tracked) (o : Op) (t : Tracked) : Prop :=
  step c cfg s o = some t

/-- The handshake has sent its request and has not called back. -/
def Tracked.InFlight (s : Tracked) (p : PeerRef) : Prop :=
  s.reg.phase p = some .requested ∨ s.reg.phase p = some .registering

/-- A null entry of the token map. -/
def Placeholder (ps : Peers) (token : Text) : Prop := ps.peersIn.lookup token = some none

/-- Each placeholder belongs to exactly one handshake in flight. -/
def Owned (s : Tracked) : Prop :=
  ∀ token, Placeholder s.reg.peers token →
    ∃ p, (s.InFlight p ∧ s.stub p = some token) ∧
      ∀ q, s.InFlight q ∧ s.stub q = some token → q = p

/-- A handshake that ends gives back its own placeholder, or leaves its peer there, and
every other entry stays. -/
def EndsCleanly (s t : Tracked) : Prop :=
  ∀ p token, s.InFlight p → ¬ t.InFlight p → s.stub p = some token →
    (t.reg.peers.peersIn.lookup token = none ∨
      t.reg.peers.peersIn.lookup token = some (some p)) ∧
    ∀ other, other ≠ token → ∀ entry, s.reg.peers.peersIn.lookup other = some entry →
      t.reg.peers.peersIn.lookup other = some entry

/-- No handshake whose key has arrived comes to an end: a reply is 200, parsed, signed and
accepted by `add_peer`, and the second section is not run yet. -/
def Unfinished (c : Crypto) (s : Tracked) : Op → Prop
  | .handshakeCb p res now => res.status = 200 ∧
    (∃ auth, (s.reg.heap p).auth.handshakeParseResponse c now res.body = .ok (true, auth)) ∧
    s.reg.domain p ∉ s.reg.peers.peersOut ∧ s.reg.accepts p ∉ s.reg.peers.peersIn
  | .handshakeRegister _ => False
  | .handshakeErrCb _ => False
  | _ => True

/-! ## Placeholders and the sections -/

section placeholders
variable {heap : Heap} {ps : Peers} {token : Text}

theorem placeholder_addPeer (domain : Text) (p : PeerRef) :
    Placeholder (ps.addPeer heap domain p).2 token ↔ Placeholder ps token := by
  rcases addPeer_cases heap ps domain p with ⟨_, free, heq⟩ | ⟨_, heq⟩
  · simp only [heq, Placeholder, lookup_insert_eq]
    by_cases own : token = (heap p).auth.bearerTokenWeAccept
    · rw [if_pos own, own, AList.lookup_eq_none.mpr free]
      simp
    · rw [if_neg own]
  · rw [heq]

/-- A registered peer's token is not a placeholder. -/
theorem placeholder_removePeer (m : HeapMirror heap ps) (domain : Text) :
    Placeholder (ps.removePeer heap domain).2 token ↔ Placeholder ps token := by
  cases hfound : found ps.peersOut domain with
  | none => simp only [removePeer, hfound]
  | some p =>
    simp only [removePeer, hfound, Placeholder, lookup_erase_eq]
    by_cases own : token = (heap p).auth.bearerTokenWeAccept
    · have taken := (m.named domain p hfound).2
      rw [if_pos own, own]
      refine iff_of_false (by simp) (fun reserved => ?_)
      rw [found, reserved] at taken
      cases taken
    · rw [if_neg own]

theorem placeholder_prune (now : Int) :
    Placeholder (ps.prune heap now) token ↔ Placeholder ps token := by
  simp only [Placeholder, prune, lookup_eraseIf]
  cases ps.peersIn.lookup token with
  | none => simp
  | some entry => cases entry <;> simp [expiredEntry, Option.filter]

theorem placeholder_stub {stub : Text} :
    Placeholder { ps with peersIn := ps.peersIn.insert stub none } token ↔
      token = stub ∨ Placeholder ps token := by
  simp only [Placeholder, lookup_insert_eq]
  by_cases own : token = stub <;> simp [own]

end placeholders

/-! ## What holds while nothing ends -/

structure Good (s : Tracked) : Prop where
  mirrored : Mirrored s.reg
  allocated : Allocated s.reg
  /-- a handshake's object is accepted under the empty token -/
  blank : ∀ p, s.reg.phase p ≠ none → s.reg.accepts p = []
  running : ∀ p, s.reg.phase p ≠ some .ended
  reserved : Reserved s.InFlight s.stub (Placeholder s.reg.peers)
  named : ¬ Placeholder s.reg.peers []

theorem Good.owned {s : Tracked} (g : Good s) : Owned s :=
  fun _ taken => g.reserved.existsUnique taken

theorem not_inFlight_start (p : PeerRef) : ¬ start.InFlight p := by
  rintro (h | h) <;> cases h

theorem good_start : Good start where
  mirrored := mirrored_start
  allocated := allocated_start
  blank _ due := absurd rfl due
  running _ h := by cases h
  reserved :=
    { slotted := fun p hp => absurd hp (not_inFlight_start p)
      owned := fun _ h => by cases h
      distinct := fun p _ hp => absurd hp (not_inFlight_start p) }
  named h := by cases h

section steps
variable {c : Crypto} {cfg : Config} {s t : Tracked} {o : Op}

theorem step_reg (h : Step c cfg s o t) : RegistryRuns.Step c cfg s.reg o.toSection t.reg := by
  obtain ⟨reg, hreg, rfl⟩ := Option.map_eq_some_iff.mp h
  exact hreg

/-- What does not end a handshake does not damage the registry. -/
theorem harmless_of_unfinished (going : Unfinished c s o) :
    Harmless c s.reg o.toSection := by
  cases o with
  | handshakeCb p res now =>
    rintro _ ⟨auth, failed⟩
    obtain ⟨_, ⟨auth', parsed⟩, _⟩ := going
    rw [parsed] at failed
    cases failed
  | handshakeRegister p => exact going.elim
  | handshakeErrCb p => exact going.elim
  | _ => trivial

/-- A section that starts no handshake and leaves the phases alone. -/
theorem Good.frame (g : Good s) (mirrored : Mirrored t.reg) (allocated : Allocated t.reg)
    (phase : t.reg.phase = s.reg.phase) (stub : t.stub = s.stub)
    (accepts : ∀ p, s.reg.phase p ≠ none → t.reg.accepts p = s.reg.accepts p)
    (placeholders : ∀ token, Placeholder t.reg.peers token ↔ Placeholder s.reg.peers token) :
    Good t where
  mirrored := mirrored
  allocated := allocated
  blank p due := by
    rw [phase] at due
    rw [accepts p due]
    exact g.blank p due
  running p := by
    rw [phase]
    exact g.running p
  reserved := g.reserved.congr (fun p => by simp only [Tracked.InFlight, phase])
    (fun p _ => by rw [stub]) placeholders
  named := fun blank => g.named ((placeholders []).mp blank)

/-- A handshake is started under a stub of its own. -/
theorem good_of_started {token : Text} {peer : Peer} (g : Good s)
    (mirrored : Mirrored t.reg) (allocated : Allocated t.reg)
    (free : token ∉ s.reg.peers.peersIn) (nonempty : token ≠ [])
    (peers : t.reg.peers = { s.reg.peers with peersIn := s.reg.peers.peersIn.insert token none })
    (phase : t.reg.phase = Function.update s.reg.phase s.reg.fresh (some .requested))
    (heap : t.reg.heap = Function.update s.reg.heap s.reg.fresh peer)
    (blank : peer.auth.bearerTokenWeAccept = [])
    (stub : t.stub = Function.update s.stub s.reg.fresh (some token)) : Good t := by
  have unused : ∀ p, s.reg.phase p ≠ none → p ≠ s.reg.fresh := by
    rintro p due rfl
    exact Nat.lt_irrefl _ (g.allocated.handshakes _ due)
  have due_of_inFlight : ∀ p, s.InFlight p → s.reg.phase p ≠ none := by
    rintro p (h | h) <;> simp [h]
  have placeholders : ∀ u, Placeholder t.reg.peers u ↔ u = token ∨ Placeholder s.reg.peers u := by
    intro u
    rw [peers]
    exact placeholder_stub
  refine ⟨mirrored, allocated, ?_, ?_, ?_, ?_⟩
  · intro p due
    rw [Registry.accepts, heap]
    by_cases new : p = s.reg.fresh
    · rw [new, Function.update_self, blank]
    · rw [phase, Function.update_of_ne new] at due
      rw [Function.update_of_ne new]
      exact g.blank p due
  · intro p
    rw [phase]
    by_cases new : p = s.reg.fresh
    · rw [new, Function.update_self]
      simp
    · rw [Function.update_of_ne new]
      exact g.running p
  · refine g.reserved.add (p := s.reg.fresh) (t := token) ?_ ?_ ?_ ?_ ?_ placeholders
    · exact fun flying => unused _ (due_of_inFlight _ flying) rfl
    · intro taken
      rw [Placeholder, AList.lookup_eq_none.mpr free] at taken
      cases taken
    · intro p
      simp only [Tracked.InFlight, phase]
      by_cases new : p = s.reg.fresh
      · simp [new]
      · simp [new]
    · rw [stub, Function.update_self]
    · intro p flying
      rw [stub, Function.update_of_ne (unused p (due_of_inFlight p flying))]
  · intro taken
    rcases (placeholders []).mp taken with same | old
    · exact nonempty same.symm
    · exact g.named old

/-- A reply that is signed and taken registers the peer and goes on. -/
theorem handshakeCb_unfinished {heap : Heap} {ps : Peers} {p : PeerRef} {res : Response}
    {now : Int} {auth : PeerAuth} (status : res.status = 200)
    (parsed : (heap p).auth.handshakeParseResponse c now res.body = .ok (true, auth))
    (newDomain : (heap p).domain ∉ ps.peersOut)
    (newToken : (heap p).auth.bearerTokenWeAccept ∉ ps.peersIn) :
    PeerRegistry.Peers.handshakeCb c now heap ps p res = .ok (true,
      Function.update heap p { heap p with auth },
      (ps.addPeer (Function.update heap p { heap p with auth }) (heap p).domain p).2) := by
  have accept := PeerAuth.parseResponse_accept parsed
  have own : (Function.update heap p { heap p with auth } p).auth.bearerTokenWeAccept =
      (heap p).auth.bearerTokenWeAccept := by
    rw [Function.update_self, accept]
  have added : (ps.addPeer (Function.update heap p { heap p with auth }) (heap p).domain p).1 =
      true := by
    rcases addPeer_cases (Function.update heap p { heap p with auth }) ps (heap p).domain p with
      ⟨_, _, heq⟩ | ⟨taken, _⟩
    · rw [heq]
    · rw [own] at taken
      exact absurd taken (not_or.mpr ⟨newDomain, newToken⟩)
  simp only [PeerRegistry.Peers.handshakeCb, status, ne_eq, not_true_eq_false, if_false, parsed,
    if_true, Function.update_self]
  rw [added]

/-- The handshake whose reply was taken is still in flight. -/
theorem good_of_going_on {p : PeerRef} {auth : PeerAuth} {res : Response} {now : Int} (g : Good s)
    (mirrored : Mirrored t.reg) (allocated : Allocated t.reg)
    (due : s.reg.phase p = some .requested)
    (parsed : (s.reg.heap p).auth.handshakeParseResponse c now res.body = .ok (true, auth))
    (peers : t.reg.peers = (s.reg.peers.addPeer
      (Function.update s.reg.heap p { s.reg.heap p with auth }) (s.reg.domain p) p).2)
    (phase : t.reg.phase = Function.update s.reg.phase p (some .registering))
    (heap : t.reg.heap = Function.update s.reg.heap p { s.reg.heap p with auth })
    (stub : t.stub = s.stub) : Good t := by
  have placeholders : ∀ u, Placeholder t.reg.peers u ↔ Placeholder s.reg.peers u := by
    intro u
    rw [peers]
    exact placeholder_addPeer _ _
  refine ⟨mirrored, allocated, ?_, ?_, g.reserved.congr ?_ (fun q _ => by rw [stub]) placeholders,
    fun blank => g.named ((placeholders []).mp blank)⟩
  · intro q hq
    rw [Registry.accepts, heap]
    by_cases own : q = p
    · subst own
      rw [Function.update_self]
      exact (PeerAuth.parseResponse_accept parsed).trans (g.blank q (by simp [due]))
    · rw [phase, Function.update_of_ne own] at hq
      rw [Function.update_of_ne own]
      exact g.blank q hq
  · intro q
    rw [phase]
    by_cases own : q = p
    · simp [own]
    · rw [Function.update_of_ne own]
      exact g.running q
  · intro q
    simp only [Tracked.InFlight, phase]
    by_cases own : q = p
    · simp [own, due]
    · simp [own]

theorem step_good (h : Step c cfg s o t) (g : Good s) (going : Unfinished c s o) : Good t := by
  have hreg := step_reg h
  have mirrored := (step_mirrored_iff hreg g.mirrored g.allocated).mpr
    (harmless_of_unfinished going)
  have allocated := step_allocated hreg g.allocated
  obtain ⟨reg, hstep, rfl⟩ := Option.map_eq_some_iff.mp h
  cases o with
  | addPeer peer =>
    simp only [Op.toSection, RegistryRuns.step, Option.some.injEq] at hstep
    subst hstep
    refine g.frame mirrored allocated rfl rfl ?_ (fun token => placeholder_addPeer _ _)
    intro p due
    have old : p ≠ s.reg.fresh := fun same =>
      Nat.lt_irrefl _ (same ▸ g.allocated.handshakes p due)
    simp [Registry.accepts, Function.update_of_ne old]
  | removePeer domain =>
    simp only [Op.toSection, RegistryRuns.step, Option.some.injEq] at hstep
    subst hstep
    exact g.frame mirrored allocated rfl rfl (fun _ _ => rfl)
      (fun token => placeholder_removePeer g.mirrored domain)
  | prune now =>
    simp only [Op.toSection, RegistryRuns.step, Option.some.injEq] at hstep
    subst hstep
    exact g.frame mirrored allocated rfl rfl (fun _ _ => rfl) (fun token => placeholder_prune now)
  | withKeyCb domain res generated half =>
    obtain ⟨⟨request, ps'⟩, hkey, rfl⟩ := Option.map_eq_some_iff.mp hstep
    simp only [PeerRegistry.Peers.withKeyCb] at hkey
    split at hkey
    · cases hkey
      exact g.frame mirrored allocated rfl (if_pos rfl) (fun _ _ => rfl) (fun _ => Iff.rfl)
    · obtain ⟨⟨token, ps''⟩, hstub, heq⟩ := Option.map_eq_some_iff.mp hkey
      cases heq
      obtain ⟨drawn, free, rfl⟩ := newTokenStub_some hstub
      obtain ⟨⟨_, nonempty⟩, _, rfl⟩ := List.mem_map.mp drawn
      refine good_of_started g mirrored allocated free nonempty rfl rfl rfl rfl ?_
      rw [if_neg (Nat.succ_ne_self _)]
      exact congrArg (fun peer : Peer =>
        Function.update s.stub s.reg.fresh (some peer.auth.bearerTokenWeSend))
        (Function.update_self s.reg.fresh _ s.reg.heap)
  | handshakeCb p res now =>
    obtain ⟨status, ⟨auth, parsed⟩, newDomain, newToken⟩ := going
    simp only [Op.toSection, RegistryRuns.step] at hstep
    split at hstep
    · rename_i due
      have cb := handshakeCb_unfinished status parsed newDomain newToken
      simp only [cb, Option.some.injEq] at hstep
      subst hstep
      exact good_of_going_on g mirrored allocated due parsed rfl rfl rfl rfl
    · cases hstep
  | handshakeRegister p => exact going.elim
  | handshakeErrCb p => exact going.elim

/-! ## What holds when something ends -/

/-- An end that touches the empty token at most leaves the stub where it is. -/
theorem not_endsCleanly {p : PeerRef} (g : Good s) (flying : s.InFlight p)
    (ended : t.reg.phase p = some .ended)
    (kept : ∀ token, token ≠ [] →
      t.reg.peers.peersIn.lookup token = s.reg.peers.peersIn.lookup token) :
    ¬ EndsCleanly s t := by
  intro clean
  obtain ⟨token, own, taken⟩ := g.reserved.slotted p flying
  have grounded : ¬ t.InFlight p := by
    rintro (h | h) <;> simp [ended] at h
  have nonempty : token ≠ [] := by
    rintro rfl
    exact g.named taken
  have still : t.reg.peers.peersIn.lookup token = some none := (kept token nonempty).trans taken
  rcases (clean p token flying grounded own).1 with gone | replaced
  · rw [still] at gone
    cases gone
  · rw [still] at replaced
    cases replaced

theorem lookup_eraseToken_other {ps : Peers} {token : Text} (nonempty : token ≠ []) :
    (ps.eraseToken []).peersIn.lookup token = ps.peersIn.lookup token := by
  rw [eraseToken, lookup_erase_eq, if_neg nonempty]

/-- The second section only touches the token the object is accepted under. -/
theorem lookup_handshakeRegister_other {heap : Heap} {ps : Peers} {p : PeerRef} {token : Text}
    (blank : (heap p).auth.bearerTokenWeAccept = []) (nonempty : token ≠ []) :
    (PeerRegistry.Peers.handshakeRegister heap ps p).2.peersIn.lookup token =
      ps.peersIn.lookup token := by
  rcases handshakeRegister_cases heap ps p with ⟨_, heq⟩ | ⟨_, heq⟩
  · rw [heq, blank, lookup_insert_eq, if_neg nonempty]
  · rw [heq, blank, lookup_erase_eq, if_neg nonempty, lookup_insert_eq, if_neg nonempty]

/-- A first section that does not go on erases the accepted token at most. -/
theorem handshakeCb_finished {heap heap' : Heap} {ps ps' : Peers} {p : PeerRef}
    {res : Response} {now : Int} {goesOn : Bool}
    (blank : (heap p).auth.bearerTokenWeAccept = [])
    (cb : PeerRegistry.Peers.handshakeCb c now heap ps p res = .ok (goesOn, heap', ps'))
    (finished : ¬ (res.status = 200 ∧
      (∃ auth, (heap p).auth.handshakeParseResponse c now res.body = .ok (true, auth)) ∧
      (heap p).domain ∉ ps.peersOut ∧ (heap p).auth.bearerTokenWeAccept ∉ ps.peersIn)) :
    goesOn = false ∧ ∀ token, token ≠ [] → ps'.peersIn.lookup token = ps.peersIn.lookup token := by
  simp only [PeerRegistry.Peers.handshakeCb] at cb
  split at cb
  · cases cb
    exact ⟨rfl, fun _ _ => rfl⟩
  · rename_i status
    split at cb
    · cases cb
    · rename_i parsed auth hparse
      have accept := PeerAuth.parseResponse_accept hparse
      split at cb
      · rename_i good
        rw [good] at hparse
        rcases addPeer_cases (Function.update heap p { heap p with auth }) ps
          (Function.update heap p { heap p with auth } p).domain p with ⟨hd, ht, _⟩ | ⟨_, heq⟩
        · simp only [Function.update_self, accept] at hd ht
          exact absurd ⟨not_not.mp status, ⟨auth, hparse⟩, hd, ht⟩ finished
        · rw [heq] at cb
          cases cb
          exact ⟨rfl, fun _ _ => rfl⟩
      · cases cb
        rw [accept, blank]
        exact ⟨rfl, fun _ nonempty => lookup_eraseToken_other nonempty⟩

/-- Whatever ends a handshake leaks its stub. -/
theorem not_endsCleanly_of_step (h : Step c cfg s o t) (g : Good s)
    (finished : ¬ Unfinished c s o) : ¬ EndsCleanly s t := by
  obtain ⟨reg, hstep, rfl⟩ := Option.map_eq_some_iff.mp h
  cases o with
  | handshakeCb p res now =>
    simp only [Op.toSection, RegistryRuns.step] at hstep
    split at hstep
    · rename_i due
      cases cb : PeerRegistry.Peers.handshakeCb c now s.reg.heap s.reg.peers p res with
      | error e => simp [cb] at hstep
      | ok r =>
        obtain ⟨goesOn, heap', ps'⟩ := r
        obtain ⟨rfl, kept⟩ := handshakeCb_finished (g.blank p (by simp [due])) cb finished
        simp only [cb, Option.some.injEq] at hstep
        subst hstep
        exact not_endsCleanly g (Or.inl due) (Function.update_self _ _ _) kept
    · cases hstep
  | handshakeRegister p =>
    simp only [Op.toSection, RegistryRuns.step] at hstep
    split at hstep
    · rename_i due
      cases hstep
      exact not_endsCleanly g (Or.inr due) (Function.update_self _ _ _)
        (fun token nonempty =>
          lookup_handshakeRegister_other (g.blank p (by simp [due])) nonempty)
    · cases hstep
  | handshakeErrCb p =>
    simp only [Op.toSection, RegistryRuns.step] at hstep
    split at hstep
    · rename_i due
      have requested := due.resolve_right (g.running p)
      have blank : (s.reg.heap p).auth.bearerTokenWeAccept = [] := g.blank p (by simp [requested])
      cases hstep
      refine not_endsCleanly g (Or.inl requested) (Function.update_self _ _ _) ?_
      intro token nonempty
      simp only [PeerRegistry.Peers.handshakeErrCb, blank]
      exact lookup_eraseToken_other nonempty
    · cases hstep
  | _ => exact absurd trivial finished

theorem update_ne_none {phase : PeerRef → Option Phase} {p q : PeerRef} {x : Phase}
    (due : phase p ≠ none) : Function.update phase q (some x) p ≠ none := by
  by_cases own : p = q
  · simp [own]
  · simpa [own] using due

/-- A handshake that was started has a phase ever after. -/
theorem phase_ne_none (h : RegistryRuns.Step c cfg s.reg o.toSection t.reg) {p : PeerRef}
    (due : s.reg.phase p ≠ none) : t.reg.phase p ≠ none := by
  generalize s.reg = r at h due
  generalize t.reg = r' at h
  cases o with
  | withKeyCb domain res generated half =>
    obtain ⟨⟨request, ps'⟩, _, rfl⟩ := Option.map_eq_some_iff.mp h
    cases request with
    | none => exact due
    | some started => exact update_ne_none due
  | handshakeCb q res now =>
    simp only [RegistryRuns.Step, Op.toSection, RegistryRuns.step] at h
    split at h
    · split at h
      · cases h
      · cases h
        exact update_ne_none due
    · cases h
  | handshakeRegister q =>
    simp only [RegistryRuns.Step, Op.toSection, RegistryRuns.step] at h
    split at h <;> cases h
    exact update_ne_none due
  | handshakeErrCb q =>
    simp only [RegistryRuns.Step, Op.toSection, RegistryRuns.step] at h
    split at h <;> cases h
    exact update_ne_none due
  | addPeer peer =>
    cases h
    exact due
  | removePeer domain =>
    cases h
    exact due
  | prune now =>
    cases h
    exact due

/-- As long as nothing ends, nothing has to be given back. -/
theorem endsCleanly_of_unfinished (h : Step c cfg s o t) (g : Good s)
    (going : Unfinished c s o) : EndsCleanly s t := by
  intro p token flying grounded _
  have running := (step_good h g going).running p
  have started : t.reg.phase p ≠ none :=
    phase_ne_none (step_reg h) (by rcases flying with due | due <;> simp [due])
  cases hphase : t.reg.phase p with
  | none => exact absurd hphase started
  | some phase =>
    cases phase with
    | requested => exact absurd (Or.inl hphase) grounded
    | registering => exact absurd (Or.inr hphase) grounded
    | ended => exact absurd hphase running

end steps

/-! ## Runs -/

/-- In a run in which no handshake whose key has arrived comes to an end, every
placeholder has its one owner. The next step keeps this and cleans up properly exactly
when it ends none either. -/
theorem unfinished_run_owned (c : Crypto) (cfg : Config) (os : List Op) (s : Tracked)
    (run : Run (Restrict (Step c cfg) (Unfinished c)) start os s) :
    Owned s ∧ ∀ o t, Step c cfg s o t →
      (Owned t ∧ EndsCleanly s t ↔ Unfinished c s o) := by
  have good : Good s := run.preserves (I := Good)
    (fun _ _ _ g h => step_good h.1 g h.2) good_start
  refine ⟨good.owned, ?_⟩
  intro o t h
  constructor
  · rintro ⟨_, clean⟩
    by_contra finished
    exact not_endsCleanly_of_step h good finished clean
  · intro going
    exact ⟨(step_good h good going).owned, endsCleanly_of_unfinished h good going⟩

/-- A handshake is started while a responder registers a peer, which is removed again. -/
def startedRun : List Op :=
  [.withKeyCb "a.net" { status := 200, body := "PEM:e" } [⟨".stub", by decide⟩] ".half",
    .addPeer (Peer.make "b.net" { bearerTokenWeAccept := ".b" }),
    .removePeer "b.net"]

theorem started_run_owned :
    ∃ s, Run (Restrict (Step demoCrypto (demoConfig "a.net" "k")) (Unfinished demoCrypto))
      start startedRun s ∧ Owned s := by
  have run : ∃ s, Run (Restrict (Step demoCrypto (demoConfig "a.net" "k"))
      (Unfinished demoCrypto)) start startedRun s :=
    ⟨_, .cons ⟨rfl, trivial⟩ (.cons ⟨rfl, trivial⟩ (.cons ⟨rfl, trivial⟩ (.refl _)))⟩
  obtain ⟨s, hs⟩ := run
  exact ⟨s, hs, (unfinished_run_owned _ _ _ _ hs).1⟩

/-- A handshake is refused with status 500. -/
def refusedRun : List Op :=
  [.withKeyCb "a.net" { status := 200, body := "PEM:e" } [⟨".stub", by decide⟩] ".half",
    .handshakeCb 0 { status := 500 } 1000]

/-- The stub stays, and nobody owns it. -/
theorem refused_handshake_leaks :
    ∃ s, Run (Step demoCrypto (demoConfig "a.net" "k")) start refusedRun s ∧
      Placeholder s.reg.peers ".stub" ∧ ¬ Owned s := by
  have outcome : (runFrom (step demoCrypto (demoConfig "a.net" "k")) start refusedRun).map
      (fun s => (s.reg.peers.peersIn.lookup (lit ".stub"), s.reg.phase 0, s.reg.fresh)) =
        some (some none, some .ended, 1) := by decide
  obtain ⟨s, hs, heq⟩ := Option.map_eq_some_iff.mp outcome
  simp only [Prod.mk.injEq] at heq
  obtain ⟨left_, ended, fresh⟩ := heq
  have run := run_of_runFrom hs
  have allocated : Allocated s.reg := run.preserves (I := fun s => Allocated s.reg)
    (fun _ _ _ a h => step_allocated (step_reg h) a) allocated_start
  refine ⟨s, run, left_, ?_⟩
  intro owned
  obtain ⟨p, ⟨flying, _⟩, _⟩ := owned _ left_
  have bound := allocated.handshakes p (by rcases flying with due | due <;> simp [due])
  rw [fresh] at bound
  obtain rfl : p = 0 := Nat.lt_one_iff.mp bound
  rcases flying with due | due <;> simp [ended] at due

end TokenStubs
