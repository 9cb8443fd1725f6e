import Fiy.DecimalTexts
import Fiy.Sessions

/-!
# The time window of peer requests

`find_user` reads the `Fiy-Now` text with `std::from_chars` in the base of its own
length, takes zero for what cannot be read, and compares one way round. What it admits
is compared with the window around the server's clock, for every text, clock and link.
The link's own age is left to `prune`.
-/

namespace RequestFreshness

open ByteStrings DecimalTexts KeyedTables HttpMessages HostEnvironment PeerLinks PeerRegistry
open LocalAccounts Sessions

/-- The number the check works with. -/
def readTime (t : Text) : Int := (fromChars t t.length).getD 0

/-- The values of `time_t`. -/
def FitsTime (n : Int) : Prop := -9223372036854775808 ≤ n ∧ n ≤ 9223372036854775807

instance (n : Int) : Decidable (FitsTime n) := inferInstanceAs (Decidable (_ ∧ _))

/-- A peer request is taken for a remote user's. -/
def Accepts (h : Host) (s : Session) (app : Text) : Prop :=
  ∃ domain user h' s', findUser h s (some app) = .ok (some ⟨some domain, user⟩, h', s')

/-- A decimal timestamp inside the window, on a link that is not too old. -/
structure Fresh (t : Text) (now : Int) (link : PeerAuth) : Prop where
  stamped : t ≠ [] ∧ ∀ b ∈ t, isDigit b = true
  close : now - ofDecimal t ≤ PeerAuth.maxResponseTime ∧
    ofDecimal t - now ≤ PeerAuth.maxResponseTime
  live : link.isExpired now = false

/-- Whatever else the request and the server hold, accepting it means that it is fresh. -/
structure Sound (t : Text) (now : Int) (link : PeerAuth) : Prop where
  fresh : ∀ (h : Host) (s : Session) (app : Text) (p : PeerRef), h.now = now →
    s.req.fields.value "Fiy-Now" = t →
    h.peers.getPeerFromToken (s.req.fields.value "Fiy-Peer") = some p →
    (h.heap p).auth = link → Accepts h s app → Fresh t now link
  noOverflow : FitsTime (now - readTime t)

/-- The number that was read is too long ago. -/
def Refused (t : Text) (now : Int) : Prop := PeerAuth.maxResponseTime < now - readTime t

instance (t : Text) (now : Int) : Decidable (Refused t now) := inferInstanceAs (Decidable (_ < _))

/-! ## What the check lets through -/

theorem findPeerUser_inWindow {h : Host} {r : Request} {app domain user : Text}
    (hfound : findPeerUser h r (some app) = .ok (some ⟨some domain, user⟩)) :
    h.now - readTime (r.fields.value "Fiy-Now") ≤ PeerAuth.maxResponseTime := by
  rcases findPeerUser_cases hfound with same | ⟨p, name, -, -, -, checked⟩
  · cases same
  · exact (checked app rfl).1

theorem Accepts.inWindow {h : Host} {s : Session} {app : Text} (accepts : Accepts h s app) :
    h.now - readTime (s.req.fields.value "Fiy-Now") ≤ PeerAuth.maxResponseTime := by
  obtain ⟨domain, user, h', s', hfound⟩ := accepts
  cases hlocal : localAccount h s with
  | some account => simp [findUser_of_local hlocal] at hfound
  | none =>
    rw [findUser_of_peer hlocal] at hfound
    have sameHost := findUserLocal_host h s
    cases hpeer : findPeerUser (findUserLocal h s).2.1 (findUserLocal h s).2.2.req
      (some app) with
    | error e => simp [hpeer, Except.map] at hfound
    | ok v =>
      simp only [hpeer, Except.map, Except.ok.injEq, Prod.mk.injEq] at hfound
      rw [hfound.1] at hpeer
      have inside := findPeerUser_inWindow hpeer
      rw [sameHost] at inside
      rcases findUserLocal_req h s with same | ⟨_, _, erased⟩
      · rwa [same] at inside
      · rw [erased] at inside
        rwa [Fields.value_eraseFirst_other _ (by decide)] at inside

/-! ## A request that leaves nothing else to refuse -/

section probe
variable (t : Text) (now : Int) (link : PeerAuth)

def probePeer : Peer := ⟨"b.net", link⟩

/-- The demonstration server at another time, with this link. -/
def probeHost : Host := { demoHost with now := now, heap := fun _ => probePeer link }

/-- A request of the peer, signed for the mod `blog`. -/
def probe : Session := Session.accept
  { method := .get
    target := "/mods/blog"
    fields := [(lit "Fiy-Peer", lit ".t"), (lit "Fiy-User", lit "bob"), (lit "Fiy-Path", lit "/"),
      (lit "Fiy-Now", t),
      (lit "Authorization", (probePeer link).sig demoCrypto "blog" "/" "bob" 0 t)]
    body := [] }

theorem probe_accepted (inside : ¬ Refused t now) :
    Accepts (probeHost now link) (probe t link) "blog" := by
  have nobody : localAccount (probeHost now link) (probe t link) = none := rfl
  have unchanged := findUserLocal_of_neither (h := probeHost now link) (s := probe t link) rfl rfl
  have inWindow : ¬ now - readTime t > PeerAuth.maxResponseTime := inside
  have time : (probe t link).req.fields.value "Fiy-Now" = t := rfl
  have found : findPeerUser (probeHost now link) (probe t link).req (some (lit "blog")) =
      .ok (some ⟨some (lit "b.net"), lit "bob"⟩) := by
    have token : (probe t link).req.fields.value (lit "Fiy-Peer") = lit ".t" := rfl
    have registered : (probeHost now link).peers.getPeerFromToken (lit ".t") = some 0 := rfl
    have named : (probe t link).req.fields.find (lit "Fiy-User") = some (lit "bob") := rfl
    have federated : (probeHost now link).config.federation = .enabled := rfl
    have signed : (probe t link).req.fields.value (lit "Authorization") =
        ((probeHost now link).heap 0).sig (probeHost now link).crypto (lit "blog")
          ((probe t link).req.fields.value (lit "Fiy-Path")) (lit "bob")
          (probe t link).req.body.length t := rfl
    have unlinked : lit ".t" ≠ [] := by decide
    simp only [findPeerUser, federated, token, registered, named, time, signed, unlinked, ne_eq,
      not_true_eq_false, if_false]
    exact if_neg inWindow
  refine ⟨lit "b.net", lit "bob", probeHost now link, (probe t link).getCookies, ?_⟩
  rw [findUser_of_peer nobody, unchanged, getCookies_req, found]
  rfl

end probe

theorem Sound.refused_or_fresh {t : Text} {now : Int} {link : PeerAuth}
    (sound : Sound t now link) : Refused t now ∨ Fresh t now link := by
  by_cases refused : Refused t now
  · exact Or.inl refused
  · exact Or.inr (sound.1 (probeHost now link) (probe t link) "blog" 0 rfl rfl rfl rfl
      (probe_accepted t now link refused))

theorem sound_of_refused_or_fresh {t : Text} {now : Int} {link : PeerAuth}
    (fits : FitsTime (now - readTime t)) (settled : Refused t now ∨ Fresh t now link) :
    Sound t now link := by
  refine ⟨?_, fits⟩
  intro h s app p hnow htime _ _ accepts
  rcases settled with refused | fresh
  · have inside := accepts.inWindow
    rw [hnow, htime] at inside
    exact absurd refused (Int.not_lt.mpr inside)
  · exact fresh

/-- Nothing but the window check stands between a text and its acceptance. -/
theorem sound_iff (t : Text) (now : Int) (link : PeerAuth) :
    Sound t now link ↔
      FitsTime (now - readTime t) ∧ (Refused t now ∨ Fresh t now link) := by
  constructor
  · intro sound
    exact ⟨sound.2, sound.refused_or_fresh⟩
  · rintro ⟨fits, settled⟩
    exact sound_of_refused_or_fresh fits settled

/-- Ten digits are read as they are meant. What is left are times too far ahead and
links that are too old. -/
theorem sound_of_ten_digits_iff {t : Text} (ten : t.length = 10)
    (digits : ∀ b ∈ t, isDigit b = true) (now : Int) (link : PeerAuth) :
    Sound t now link ↔ FitsTime (now - ofDecimal t) ∧
      (PeerAuth.maxResponseTime < now - ofDecimal t ∨
        ofDecimal t - now ≤ PeerAuth.maxResponseTime ∧ link.isExpired now = false) := by
  have written : t ≠ [] := by
    rintro rfl
    cases ten
  have bound := ofDecimal_lt_pow digits
  rw [ten] at bound
  have read : readTime t = ofDecimal t := by
    rw [readTime, ten, fromChars_of_digits digits written (by omega), Option.getD_some]
  rw [← read]
  constructor
  · intro sound
    refine ⟨sound.2, ?_⟩
    rcases sound.refused_or_fresh with old | fresh
    · exact Or.inl old
    · exact Or.inr ⟨read ▸ fresh.close.2, fresh.live⟩
  · rintro ⟨fits, old | ⟨ahead, live⟩⟩
    · exact sound_of_refused_or_fresh fits (Or.inl old)
    · apply sound_of_refused_or_fresh fits
      by_cases old : PeerAuth.maxResponseTime < now - readTime t
      · exact Or.inl old
      · rw [read] at old ahead
        exact Or.inr ⟨⟨written, digits⟩, ⟨Int.not_lt.mp old, ahead⟩, live⟩

/-! ## At 1700000000 -/

/-- A link that was made just before, or more than a week ago. -/
def linkFrom (linkTs : Int) : PeerAuth :=
  { symKey := "key", bearerTokenWeAccept := ".t", linkTs }

/-- The number that was read is let through, and the request is not fresh. -/
theorem not_sound_of_admitted {t : Text} {now : Int} {link : PeerAuth}
    (admitted : ¬ Refused t now) (stale : ¬ Fresh t now link) :
    Accepts (probeHost now link) (probe t link) "blog" ∧ ¬ Sound t now link := by
  refine ⟨probe_accepted t now link admitted, ?_⟩
  intro sound
  exact sound.refused_or_fresh.elim admitted stale

/-- A time far ahead, a text that is no number, a link that is too old although it was not
when `prune` last looked, and a difference that does not fit. -/
theorem stale_requests_accepted :
    (Accepts (probeHost 1700000000 (linkFrom 1699999000)) (probe "9999999999" (linkFrom 1699999000))
      "blog" ∧ ¬ Sound "9999999999" 1700000000 (linkFrom 1699999000)) ∧
    (Accepts (probeHost 1700000000 (linkFrom 1699999000)) (probe "1700000000x" (linkFrom 1699999000))
      "blog" ∧ ¬ Sound "1700000000x" 1700000000 (linkFrom 1699999000)) ∧
    (Accepts (probeHost 1700000000 (linkFrom 1699000000)) (probe "1700000000" (linkFrom 1699000000))
      "blog" ∧ ¬ Sound "1700000000" 1700000000 (linkFrom 1699000000)) ∧
    (demoHost.peers.prune (fun _ => probePeer (linkFrom 1699000000)) 1699600000).getPeerFromToken
      ".t" = some 0 ∧
    ¬ FitsTime (1700000000 - readTime "-33d3d8307b214009") := by
  refine ⟨not_sound_of_admitted (by decide +kernel) ?_, not_sound_of_admitted (by decide +kernel) ?_,
    not_sound_of_admitted (by decide +kernel) ?_, by decide, by decide +kernel⟩
  · intro fresh
    exact absurd fresh.close.2 (by decide)
  · intro fresh
    exact absurd fresh.stamped.2 (by decide +kernel)
  · intro fresh
    exact absurd fresh.live (by decide)

end RequestFreshness
