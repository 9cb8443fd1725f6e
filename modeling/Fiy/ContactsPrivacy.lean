import Fiy.ContactsMod

/-!
# What a requester can learn from a profile

Two databases that agree on what a requester may see of a user give the same answers.
There is one thing more the answers depend on: a user without a profile card gets one when
the profile is first asked for, and the text form of the card names its id, which counts
the cards there have ever been.
-/

namespace ContactsPrivacy

open ByteStrings RowTables ModConnectors ModLibrary ContactCards ContactsStore
open ContactsStore.Store ContactsMod

/-- The properties of a card that is not a profile card. -/
def cardContents (s : Store) (cardId : Nat) : Rows PropertyRow :=
  s.properties.filter fun id _ => s.cardProperties.any fun _ link =>
    link.propertyId = id && link.cardId = cardId

/-- The cards somebody owns, with their properties. -/
def ownedCards (s : Store) (owner : Text) : List ((Nat × CardRow) × Rows PropertyRow) :=
  (s.cards.entries.filter fun e => e.2.owner = owner).map fun e => (e, cardContents s e.1)

/-- The profile properties of a user that are visible at this level. -/
def profileContents (s : Store) (user : Text) (level : Nat) : Rows PropertyRow :=
  s.properties.filter fun id _ => s.onProfile user level id

/-- Two databases are the same in what the requester may see of the user. -/
structure Agree (req : ModRequest) (user : Text) (s s' : Store) : Prop where
  profile : (s.profileCard user).map (fun e => (e.1, e.2.updateTs)) =
    (s'.profileCard user).map fun e => (e.1, e.2.updateTs)
  visible : profileContents s user (visibility user req.user req.domain) =
    profileContents s' user (visibility user req.user req.domain)
  owned : ∀ requester, req.user = some requester → req.domain = none →
    ownedCards s requester = ownedCards s' requester

/-- If the answer names a card that is made for it, that card gets the same id. -/
def SameNewCard (host : ModHost) (req : ModRequest) (user : Text) (s s' : Store) : Prop :=
  s.profileCard user = none → host.userInfo user = 0 →
    findHeader req "Accept" ≠ "application/json" → s.cards.nextId = s'.cards.nextId

section selection
variable {req : ModRequest} {user : Text} {s s' : Store}

/-- The properties on the cards that the owner keeps of a user. -/
theorem mem_onContact_iff (s : Store) (owner user : Text) (e : Nat × PropertyRow) :
    e ∈ (s.properties.filter fun id _ => s.onContact owner user id).entries ↔
      ∃ c ∈ ownedCards s owner, c.1.2.user = some user ∧ e ∈ c.2.entries := by
  simp only [Rows.mem_filter, onContact, Rows.any, isContactOf, List.any_eq_true,
    Bool.and_eq_true, decide_eq_true_eq, ownedCards, List.mem_map, List.mem_filter]
  constructor
  · rintro ⟨mem, link, hlink, same, card, hcard, id, owner, user⟩
    refine ⟨_, ⟨card, ⟨hcard, owner⟩, rfl⟩, user, ?_⟩
    refine Rows.mem_filter.mpr ⟨mem, List.any_eq_true.mpr ⟨link, hlink, ?_⟩⟩
    simp [same, id]
  · rintro ⟨_, ⟨card, ⟨hcard, owner⟩, rfl⟩, user, contents⟩
    obtain ⟨mem, linked⟩ := Rows.mem_filter.mp contents
    obtain ⟨link, hlink, both⟩ := List.any_eq_true.mp linked
    simp only [Bool.and_eq_true, decide_eq_true_eq] at both
    exact ⟨mem, link, hlink, both.1, card, hcard, both.2.symm, owner, user⟩

theorem Agree.contacts (agree : Agree req user s s') {requester : Text}
    (known : req.user = some requester) (here : req.domain = none) :
    (s.properties.filter fun id _ => s.onContact requester user id) =
      s'.properties.filter fun id _ => s'.onContact requester user id := by
  apply Rows.ext_mem
  intro e
  rw [mem_onContact_iff, mem_onContact_iff, agree.owned requester known here]

/-- The trust level is 0 or 1 exactly for a local requester. -/
theorem visibility_le_one_iff (user : Text) (reqUser reqDomain : Option Text) :
    visibility user reqUser reqDomain ≤ 1 ↔ reqUser.isSome = true ∧ reqDomain = none := by
  cases reqUser with
  | none => simp [visibility]
  | some requester =>
    cases reqDomain with
    | none =>
      by_cases same : user = requester <;> simp [visibility, same]
    | some domain => simp [visibility]

theorem Agree.visibleTo (agree : Agree req user s s') :
    s.visibleTo user req.user req.domain = s'.visibleTo user req.user req.domain := by
  simp only [Store.visibleTo]
  refine Rows.filter_or_congr agree.visible ?_
  by_cases trusted : visibility user req.user req.domain ≤ 1
  · obtain ⟨known, here⟩ := (visibility_le_one_iff _ _ _).mp trusted
    obtain ⟨requester, known⟩ := Option.isSome_iff_exists.mp known
    have level : decide (visibility user req.user req.domain ≤ 1) = true := by simp [trusted]
    simp only [level, Bool.true_and]
    simp only [known, Option.getD_some]
    exact agree.contacts known here
  · apply Rows.ext_mem
    simp [trusted]

/-- A card that is made for a profile shows nothing new. -/
theorem visibleTo_insertCard (missing : s.profileCard user = none) (row : CardRow)
    (reqUser reqDomain : Option Text) :
    (s.insertCard row).visibleTo user reqUser reqDomain = s.visibleTo user reqUser reqDomain := by
  have unlinked : ∀ e ∈ s.cardProperties.entries, e.2.cardId ≠ s.cards.nextId := by
    intro e he
    have bound := s.issued e he
    simp only [AutoRows.nextId]
    omega
  have unlinkedProfile : ∀ e ∈ s.profileCardProperties.entries,
      e.2.cardId ≠ s.cards.nextId := by
    intro e he
    have bound := s.issuedProfile e he
    simp only [AutoRows.nextId]
    omega
  have profile : ∀ level id, (s.insertCard row).onProfile user level id =
      s.onProfile user level id := by
    intro level id
    by_cases made : row.isProfile && decide (row.user = some user)
    · have found : (s.insertCard row).profileCard user = some (s.cards.nextId, row) := by
        have none : s.cards.entries.find? (fun e =>
          e.2.isProfile && decide (e.2.user = some user)) = none := missing
        simp [profileCard, Rows.find?, Store.insertCard, AutoRows.insert, Rows.push, none, made]
      simp only [onProfile, missing, found, Rows.any, List.any_eq_false]
      intro e he
      simp [unlinkedProfile e he]
    · have still : (s.insertCard row).profileCard user = none := by
        simpa [profileCard, Rows.find?, Store.insertCard, AutoRows.insert, Rows.push, made] using
          missing
      simp only [onProfile, missing, still]
  have contact : ∀ owner id, (s.insertCard row).onContact owner user id =
      s.onContact owner user id := by
    intro owner id
    rw [Bool.eq_iff_iff]
    simp only [onContact, Rows.any, List.any_eq_true, Bool.and_eq_true, decide_eq_true_eq]
    refine exists_congr fun e => and_congr_right fun he => and_congr_right fun _ => ?_
    constructor
    · rintro ⟨card, hcard, same, kept⟩
      rcases AutoRows.mem_insert.mp hcard with old | rfl
      · exact ⟨card, old, same, kept⟩
      · exact absurd same.symm (unlinked e he)
    · rintro ⟨card, hcard, rest⟩
      exact ⟨card, AutoRows.mem_insert.mpr (Or.inl hcard), rest⟩
  simp only [Store.visibleTo, profile, contact]
  rfl

/-- What is read of a profile, once there is one. -/
def profileOf (s : Store) (user : Text) (id : Nat) (updateTs : Int)
    (reqUser reqDomain : Option Text) : VC where
  id
  owner := user
  user
  updateTs
  props := cardProps (s.visibleTo user reqUser reqDomain)

/-- The profile that is shown: the one there is, or an empty one made for a known user. -/
theorem getProfile_eq (host : ModHost) (s : Store) {user : Text} (plain : (64 : Byte) ∉ user)
    (reqUser reqDomain : Option Text) :
    (s.getProfile host user reqUser reqDomain).1 = match s.profileCard user with
      | some (id, row) => profileOf s user id row.updateTs reqUser reqDomain
      | none => if host.userInfo user ≠ 0 then {}
        else profileOf s user s.cards.nextId host.now reqUser reqDomain := by
  simp only [Store.getProfile, getProfileBase, plain, if_false]
  cases hcard : s.profileCard user with
  | some card =>
    obtain ⟨id, row⟩ := card
    have stored : VC.invalid { id, owner := user, user, updateTs := row.updateTs } = false := by
      simp [VC.invalid]
    simp [stored, profileOf]
  | none =>
    by_cases unknown : host.userInfo user ≠ 0
    · simp [unknown, VC.invalid]
    · have stored : ∀ id : Nat, VC.invalid
          { id := (id : Int), owner := user, user, updateTs := host.now } = false := by
        intro id
        simp [VC.invalid]
      simp only [unknown, if_false, saveContact, createNewContact, insertProps]
      simp [stored, profileOf, visibleTo_insertCard hcard]

/-- The JSON form shows properties only. -/
theorem toInternalJson_congr (host : ModHost) {vc vc' : VC} (props : vc.props = vc'.props) :
    vc.toInternalJson host = vc'.toInternalJson host := by
  obtain ⟨_, _, _, _, _⟩ := vc
  obtain ⟨_, _, _, _, _⟩ := vc'
  cases props
  rfl

/-- Cards with the same properties are shown alike, except that the text form also has
their id and time. -/
theorem showCard_congr (host : ModHost) (req : ModRequest) {vc vc' : VC}
    (valid : vc.invalid = vc'.invalid) (props : vc.props = vc'.props)
    (text : findHeader req "Accept" ≠ "application/json" → vc = vc') :
    showCard host req vc = showCard host req vc' := by
  simp only [showCard, valid]
  by_cases json : findHeader req "Accept" = "application/json"
  · simp only [json, toInternalJson_congr host props, if_true]
  · rw [text json]

end selection

/-! ## The answers -/

section answers
variable {host : ModHost} {req : ModRequest} {userStr user : Text} {s s' : Store}

theorem profileOf_valid (s : Store) (user : Text) (id : Nat) (updateTs : Int)
    (reqUser reqDomain : Option Text) :
    (profileOf s user id updateTs reqUser reqDomain).invalid = false := by
  simp [profileOf, VC.invalid]

/-- The answer to `GET /profile/u`. -/
theorem Agree.profileAnswer (agree : Agree req user s s')
    (here : host.splitUserStr userStr = (user, []))
    (sameNew : SameNewCard host req user s s') :
    (ContactsMod.getProfile host s userStr req).1 =
      (ContactsMod.getProfile host s' userStr req).1 := by
  have plain : (64 : Byte) ∉ user := by
    have absent := host.at_notMem_splitUserStr userStr
    rwa [here] at absent
  simp only [ContactsMod.getProfile, here, if_true, getProfile_eq host _ plain]
  have visible := agree.visibleTo
  have profile := agree.profile
  cases hcard : s.profileCard user with
  | some card =>
    rw [hcard] at profile
    obtain ⟨card', hcard', same⟩ := Option.map_eq_some_iff.mp profile.symm
    obtain ⟨id, updateTs⟩ := Prod.mk.inj same
    simp only [hcard', profileOf, visible, id, updateTs]
  | none =>
    rw [hcard] at profile
    have missing : s'.profileCard user = none := Option.map_eq_none_iff.mp profile.symm
    simp only [missing]
    by_cases unknown : host.userInfo user ≠ 0
    · simp only [if_pos unknown]
    · simp only [if_neg unknown]
      refine showCard_congr host req ?_ ?_ ?_
      · rw [profileOf_valid, profileOf_valid]
      · simp only [profileOf, visible]
      · intro text
        have known : host.userInfo user = 0 := by simpa using unknown
        simp only [profileOf, visible, sameNew hcard known text]

/-- The answer to `GET /pfp/u`. -/
theorem Agree.pfpAnswer (agree : Agree req user s s')
    (here : host.splitUserStr userStr = (user, [])) :
    ContactsMod.getPfp host s userStr req = ContactsMod.getPfp host s' userStr req := by
  have photo : s.getPfp user req.user req.domain = s'.getPfp user req.user req.domain := by
    simp only [Store.getPfp, Rows.filter_and]
    have visible := agree.visible
    simp only [profileContents] at visible
    rw [visible]
    cases known : req.user with
    | none => rfl
    | some requester =>
      cases here : req.domain with
      | none => simp only [agree.contacts known here]
      | some domain => rfl
  simp only [ContactsMod.getPfp, here, photo]

/-- Databases that agree on what the requester may see give the same answers about a local
user, when they also agree on the id of a card that is made for the answer. -/
theorem answers_agree (agree : Agree req user s s')
    (here : host.splitUserStr userStr = (user, [])) :
    ContactsMod.getPfp host s userStr req = ContactsMod.getPfp host s' userStr req ∧
      (SameNewCard host req user s s' → (ContactsMod.getProfile host s userStr req).1 =
        (ContactsMod.getProfile host s' userStr req).1) :=
  ⟨agree.pfpAnswer here, agree.profileAnswer here⟩

def demoHost : ModHost where
  domain := "a.net"
  baseUri := "https://a.net/contacts"
  now := 1700000000
  userInfo := fun user => if user = lit "alice" then 0 else 1
  jsonString := fun t => some (lit "\"" ++ t ++ lit "\"")
  base64Decode := some

/-- Somebody from elsewhere asks for the profile of alice. -/
def demoRequest : ModRequest :=
  ⟨.get, "/profile/alice", [], some "b.net", some "bob", none⟩

/-- A card that says this of alice. -/
def demoCard (visibility : Int) : VC where
  owner := "alice"
  user := "alice"
  props := [{ name := "TEL", params := [], value := "1", visibility }]

/-- Her telephone number is for her instance, or for herself. -/
def demoStore (visibility : Int) : Store :=
  (Store.empty.saveContact demoHost (demoCard visibility)).2.2

theorem demo_answers_agree :
    ContactsMod.getPfp demoHost (demoStore 0) "alice" demoRequest =
      ContactsMod.getPfp demoHost (demoStore 1) "alice" demoRequest ∧
    (ContactsMod.getProfile demoHost (demoStore 0) "alice" demoRequest).1 =
      (ContactsMod.getProfile demoHost (demoStore 1) "alice" demoRequest).1 := by
  have agree : Agree demoRequest "alice" (demoStore 0) (demoStore 1) :=
    ⟨by decide, Rows.ext (by decide), fun _ _ elsewhere => absurd elsewhere (by decide)⟩
  have old : SameNewCard demoHost demoRequest "alice" (demoStore 0) (demoStore 1) :=
    fun missing => absurd missing (by decide)
  have here : demoHost.splitUserStr "alice" = (lit "alice", []) := by decide
  obtain ⟨pfp, profile⟩ := answers_agree agree here
  exact ⟨pfp, profile old⟩

/-- A database that has had a card. -/
def usedStore : Store := (Store.empty.insertCard ⟨"bob", none, 0⟩).deleteUser "bob"

/-- The card that is made for alice tells how many cards there have been. -/
theorem new_card_tells :
    Agree demoRequest "alice" Store.empty usedStore ∧
      (ContactsMod.getProfile demoHost Store.empty "alice" demoRequest).1 ≠
        (ContactsMod.getProfile demoHost usedStore "alice" demoRequest).1 := by
  refine ⟨⟨by decide, Rows.ext (by decide), fun _ _ elsewhere => absurd elsewhere (by decide)⟩, ?_⟩
  decide

end answers

end ContactsPrivacy
