import Fiy.GuardedRuns
import Fiy.ContactsMod

/-!
# What holds of the contacts database

Every property is on exactly one card, links lead somewhere, profile cards use the links
with a visibility and other cards the links without, and nobody has two profiles. The
first three are kept by all operations of a requester who has a name. The last one is
not: a posted card can become a profile card while there is another.
-/

namespace ContactsInvariant

open ByteStrings RowTables GuardedRuns ModLibrary ContactCards ContactsStore ContactsStore.Store
open ContactsMod

/-- How many link rows, of either table, the property has. -/
def linkCount (s : Store) (propertyId : Nat) : Nat :=
  s.cardProperties.entries.countP (fun e => e.2.propertyId = propertyId) +
    s.profileCardProperties.entries.countP (fun e => e.2.propertyId = propertyId)

/-- The link leads to a card of this kind and to a property. -/
structure Points (s : Store) (profile : Bool) (link : Link) : Prop where
  card : ∃ row, (link.cardId, row) ∈ s.cards.entries ∧ row.isProfile = profile
  property : ∃ row, (link.propertyId, row) ∈ s.properties.entries

/-- The links are in order, except that properties may be out of use. -/
structure Loose (s : Store) : Prop where
  once : ∀ e ∈ s.properties.entries, linkCount s e.1 ≤ 1
  contact : ∀ e ∈ s.cardProperties.entries, Points s false e.2
  profile : ∀ e ∈ s.profileCardProperties.entries, Points s true e.2.toLink

/-- The links are in order. -/
structure Linked (s : Store) : Prop where
  once : ∀ e ∈ s.properties.entries, linkCount s e.1 = 1
  contact : ∀ e ∈ s.cardProperties.entries, Points s false e.2
  profile : ∀ e ∈ s.profileCardProperties.entries, Points s true e.2.toLink

/-- Nobody owns two profile cards. -/
def OneProfile (s : Store) : Prop :=
  ∀ e ∈ s.cards.entries, ∀ e' ∈ s.cards.entries, e.2.isProfile = true → e'.2.isProfile = true →
    e.2.owner = e'.2.owner → e.1 = e'.1

structure Consistent (s : Store) : Prop where
  linked : Linked s
  oneProfile : OneProfile s

theorem consistent_empty : Consistent empty where
  linked := by
    constructor <;> intro e he <;> exact absurd he List.not_mem_nil
  oneProfile := by
    intro e he
    exact absurd he List.not_mem_nil

theorem Linked.loose {s : Store} (h : Linked s) : Loose s :=
  ⟨fun e he => (h.once e he).le, h.contact, h.profile⟩

section links
variable {s s' : Store}

/-- A property has a link exactly when it is in use. -/
theorem linked_iff_pos (s : Store) (id : Nat) : s.linked id = true ↔ 0 < linkCount s id := by
  have either : 0 < linkCount s id ↔
      0 < s.cardProperties.entries.countP (fun e => e.2.propertyId = id) ∨
        0 < s.profileCardProperties.entries.countP (fun e => e.2.propertyId = id) := by
    simp only [linkCount]
    omega
  rw [either, List.countP_pos_iff, List.countP_pos_iff]
  simp [Store.linked, Rows.any]

/-- After pruning, all properties are in use. -/
theorem Loose.pruned (h : Loose s) : Linked s.pruneProperties := by
  have points : ∀ {profile link}, s.linked link.propertyId = true → Points s profile link →
      Points s.pruneProperties profile link := by
    intro profile link used at_
    obtain ⟨row, mem⟩ := at_.property
    exact ⟨at_.card, row, Rows.mem_filter.mpr ⟨mem, used⟩⟩
  constructor
  · intro e he
    obtain ⟨mem, used⟩ := Rows.mem_filter.mp he
    have most := h.once e mem
    have least := (linked_iff_pos s e.1).mp used
    change linkCount s e.1 = 1
    omega
  · intro e he
    refine points ?_ (h.contact e he)
    simp only [Store.linked, Rows.any, Bool.or_eq_true, List.any_eq_true]
    exact Or.inl ⟨e, he, by simp⟩
  · intro e he
    refine points ?_ (h.profile e he)
    simp only [Store.linked, Rows.any, Bool.or_eq_true, List.any_eq_true]
    exact Or.inr ⟨e, he, by simp⟩

/-- Some cards lose their links, the others stay what they are. -/
theorem Linked.restrict (h : Linked s) (gone : Nat → Bool)
    (properties : s'.properties = s.properties)
    (contacts : s'.cardProperties = s.cardProperties.filter fun _ link => !gone link.cardId)
    (profiles : s'.profileCardProperties =
      s.profileCardProperties.filter fun _ link => !gone link.cardId)
    (stay : ∀ id row, gone id = false → (id, row) ∈ s.cards.entries →
      ∃ row', (id, row') ∈ s'.cards.entries ∧ row'.isProfile = row.isProfile) : Loose s' := by
  have points : ∀ {profile link}, gone link.cardId = false → Points s profile link →
      Points s' profile link := by
    intro profile link kept at_
    obtain ⟨row, mem, kind⟩ := at_.card
    obtain ⟨row', mem', same⟩ := stay _ row kept mem
    exact ⟨⟨row', mem', same.trans kind⟩, by rw [properties]; exact at_.property⟩
  constructor
  · intro e he
    rw [properties] at he
    have before := h.once e he
    have fewer : linkCount s' e.1 ≤ linkCount s e.1 := by
      simp only [linkCount, contacts, profiles]
      exact Nat.add_le_add (List.filter_sublist.countP_le) (List.filter_sublist.countP_le)
    omega
  · intro e he
    rw [contacts] at he
    obtain ⟨mem, kept⟩ := Rows.mem_filter.mp he
    exact points (by simpa using kept) (h.contact e mem)
  · intro e he
    rw [profiles] at he
    obtain ⟨mem, kept⟩ := Rows.mem_filter.mp he
    exact points (by simpa using kept) (h.profile e mem)

/-- A new property has no link yet. -/
theorem Linked.count_next (h : Linked s) : linkCount s s.properties.nextId = 0 := by
  by_contra linked
  have used : s.linked s.properties.nextId = true :=
    (linked_iff_pos s _).mpr (Nat.pos_of_ne_zero linked)
  have old : ∃ row, (s.properties.nextId, row) ∈ s.properties.entries := by
    simp only [Store.linked, Rows.any, Bool.or_eq_true, List.any_eq_true,
      decide_eq_true_eq] at used
    rcases used with ⟨e, he, same⟩ | ⟨e, he, same⟩
    · exact same ▸ (h.contact e he).property
    · exact same ▸ (h.profile e he).property
  obtain ⟨row, mem⟩ := old
  have bound := s.properties.le_lastId mem
  simp only [Rows.nextId] at bound
  omega

/-- A new property gets its one link, of the kind its card has. -/
theorem Linked.insertProp (h : Linked s) {profile : Bool} {cardId : Nat} (p : CardProp)
    (issued : cardId ≤ s.cards.sequence) {row : CardRow}
    (card : (cardId, row) ∈ s.cards.entries) (kind : row.isProfile = profile) :
    Linked (s.insertProp profile cardId p issued).2 := by
  have fresh := h.count_next
  have old : ∀ e ∈ s.properties.entries, e.1 ≠ s.properties.nextId := by
    intro e he
    have bound := s.properties.le_lastId he
    simp only [Rows.nextId]
    omega
  have count : ∀ id, linkCount (s.insertProp profile cardId p issued).2 id =
      linkCount s id + if s.properties.nextId = id then 1 else 0 := by
    intro id
    cases profile
    · simp only [linkCount, Store.insertProp, insertLink, insertProperty, Rows.insert, Rows.push,
        Bool.false_eq_true, if_false, List.countP_append, List.countP_singleton, decide_eq_true_eq]
      omega
    · simp only [linkCount, Store.insertProp, insertProfileLink, insertProperty, Rows.insert,
        Rows.push, if_true, List.countP_append, List.countP_singleton, decide_eq_true_eq]
      omega
  have properties : (s.insertProp profile cardId p issued).2.properties =
      s.properties.insert ⟨p.name, p.params, p.value⟩ := by
    cases profile <;> rfl
  have cards := s.insertProp_cards profile cardId p issued
  have points : ∀ {kind link}, Points s kind link →
      Points (s.insertProp profile cardId p issued).2 kind link := by
    intro kind link at_
    obtain ⟨found, mem⟩ := at_.property
    refine ⟨by rw [cards]; exact at_.card, found, ?_⟩
    rw [properties]
    exact Rows.mem_insert.mpr (Or.inl mem)
  have new : Points (s.insertProp profile cardId p issued).2 profile
      ⟨cardId, s.properties.nextId⟩ := by
    refine ⟨⟨row, by rw [cards]; exact card, kind⟩, ⟨p.name, p.params, p.value⟩, ?_⟩
    rw [properties]
    exact Rows.mem_insert.mpr (Or.inr rfl)
  constructor
  · intro e he
    rw [properties] at he
    rw [count]
    rcases Rows.mem_insert.mp he with mem | rfl
    · simp [h.once e mem, Ne.symm (old e mem)]
    · simp [fresh]
  · intro e he
    cases profile
    · rcases Rows.mem_insert.mp he with mem | rfl
      · exact points (h.contact e mem)
      · exact new
    · exact points (h.contact e he)
  · intro e he
    cases profile
    · exact points (h.profile e he)
    · rcases Rows.mem_insert.mp he with mem | rfl
      · exact points (h.profile e mem)
      · exact new

theorem insertProps_cards (profile : Bool) (cardId : Nat) (ps : List CardProp) (s : Store)
    (issued : cardId ≤ s.cards.sequence) :
    (insertProps profile cardId ps s issued).2.cards = s.cards := by
  induction ps generalizing s with
  | nil => rfl
  | cons p ps ih =>
    simp only [insertProps]
    rw [ih, insertProp_cards]

theorem Linked.insertProps (h : Linked s) {profile : Bool} {cardId : Nat} (ps : List CardProp)
    (issued : cardId ≤ s.cards.sequence) {row : CardRow}
    (card : (cardId, row) ∈ s.cards.entries) (kind : row.isProfile = profile) :
    Linked (Store.insertProps profile cardId ps s issued).2 := by
  induction ps generalizing s with
  | nil => exact h
  | cons p ps ih =>
    refine ih (h.insertProp p issued card kind) _ ?_
    rw [insertProp_cards]
    exact card

/-- A new card has no links. -/
theorem Linked.insertCard (h : Linked s) (row : CardRow) : Linked (s.insertCard row) := by
  have points : ∀ {profile link}, Points s profile link →
      Points (s.insertCard row) profile link := by
    intro profile link at_
    obtain ⟨found, mem, kind⟩ := at_.card
    exact ⟨⟨found, AutoRows.mem_insert.mpr (Or.inl mem), kind⟩, at_.property⟩
  exact ⟨h.once, fun e he => points (h.contact e he), fun e he => points (h.profile e he)⟩

end links

/-! ## The operations -/

section operations
variable {s : Store}

/-- The user a card is stored with makes it a profile card when it is the owner, who has
a name. -/
theorem isProfile_iff (owner user : Text) (updateTs : Int) :
    (CardRow.mk owner (userColumn user) updateTs).isProfile = true ↔
      user ≠ [] ∧ owner = user := by
  by_cases hu : user = []
  · simp [CardRow.isProfile, userColumn, hu]
  · simp [CardRow.isProfile, userColumn, hu, eq_comm]

/-- The stored card is of the kind its properties are linked with. -/
def Filed (card : VC) : Prop := card.owner = [] → card.user = [] → card.props = []

theorem Filed.kind {card : VC} (filed : Filed card) (some : card.props ≠ []) (updateTs : Int) :
    (CardRow.mk card.owner (userColumn card.user) updateTs).isProfile =
      decide (card.owner = card.user) := by
  rw [Bool.eq_iff_iff, isProfile_iff, decide_eq_true_eq]
  constructor
  · exact And.right
  · intro same
    refine ⟨fun nobody => some (filed (same.trans nobody) nobody), same⟩

theorem Linked.insertAll (h : Linked s) {card : VC} (filed : Filed card) {cardId : Nat}
    (issued : cardId ≤ s.cards.sequence) (updateTs : Int)
    (stored : (cardId, CardRow.mk card.owner (userColumn card.user) updateTs) ∈ s.cards.entries) :
    Linked (Store.insertProps (card.owner = card.user) cardId card.props s issued).2 := by
  by_cases none : card.props = []
  · rw [none]
    exact h
  · exact h.insertProps card.props issued stored (filed.kind none updateTs)

theorem Linked.createNewContact (h : Linked s) {card : VC} (filed : Filed card)
    (host : ModHost) : Linked (s.createNewContact host card).2.2 :=
  (h.insertCard _).insertAll filed _ host.now (AutoRows.mem_insert.mpr (Or.inr rfl))

/-- A save changes an existing card of the owner. -/
def Updates (s : Store) (card : VC) : Prop := s.cards.any (isOwnCard card.id card.owner) = true

instance (s : Store) (card : VC) : Decidable (Updates s card) := by
  unfold Updates
  infer_instance

theorem updates_iff (s : Store) (card : VC) :
    Updates s card ↔ ∃ e ∈ s.cards.entries, (e.1 : Int) = card.id ∧ e.2.owner = card.owner := by
  simp [Updates, Rows.any, isOwnCard]

theorem Linked.updateContact (h : Linked s) {card : VC} (filed : Filed card)
    (host : ModHost) : Linked (s.updateContact host card).2.2 := by
  simp only [Store.updateContact]
  split
  · rename_i own
    obtain ⟨e, mem, id, owner⟩ := (updates_iff s card).mp own
    have loose : Loose ((s.updateCard { card with updateTs := host.now } host.now).removeLinks
        (· = card.id.toNat)) := by
      refine h.restrict (· = card.id.toNat) rfl rfl rfl ?_
      intro other row kept mem'
      have different : (other : Int) ≠ card.id := by
        have apart : other ≠ card.id.toNat := by simpa using kept
        omega
      refine ⟨row, AutoRows.mem_modify.mpr ⟨row, mem', ?_⟩, rfl⟩
      simp [isOwnCard, different]
    have number : card.id.toNat = e.1 := by omega
    refine Linked.insertAll loose.pruned filed _ host.now ?_
    refine AutoRows.mem_modify.mpr ⟨e.2, ?_, ?_⟩
    · simp only [number]
      exact mem
    · simp [isOwnCard, number, id, owner]
  · exact h

theorem Linked.saveContact (h : Linked s) {card : VC} (filed : Filed card) (host : ModHost) :
    Linked (s.saveContact host card).2.2 := by
  simp only [Store.saveContact]
  split
  · exact h.createNewContact filed host
  · exact h.updateContact filed host

theorem Linked.deleteUser (h : Linked s) (localUser : Text) : Linked (s.deleteUser localUser) := by
  refine Loose.pruned (h.restrict (fun cardId => s.cards.any fun id row =>
    id = cardId && row.owner = localUser) rfl rfl rfl ?_)
  intro id row kept mem
  have other : row.owner ≠ localUser := by
    rintro rfl
    have gone : (s.cards.any fun i r => i = id && r.owner = row.owner) = true :=
      List.any_eq_true.mpr ⟨_, mem, by simp⟩
    rw [kept] at gone
    cases gone
  exact ⟨row, AutoRows.mem_filter.mpr ⟨mem, by simpa using other⟩, rfl⟩

theorem getProfile_store (host : ModHost) (s : Store) (user : Text) (reqUser reqDomain : Option Text) :
    (s.getProfile host user reqUser reqDomain).2 = (s.getProfileBase host user).2 := by
  simp only [Store.getProfile]
  split <;> rfl

/-- A profile is looked up, or an empty card is added for a user without one. -/
theorem getProfileBase_cases (host : ModHost) (s : Store) (user : Text) :
    (s.getProfileBase host user).2 = s ∨ s.profileCard user = none ∧
      (s.getProfileBase host user).2 =
        s.insertCard ⟨user, userColumn user, host.now⟩ := by
  simp only [Store.getProfileBase]
  split
  · exact Or.inl rfl
  · split
    · exact Or.inl rfl
    · rename_i missing
      split
      · exact Or.inl rfl
      · exact Or.inr ⟨missing, rfl⟩

theorem deleteContact_error (s : Store) (owner : Text) (id : Int) :
    s.deleteContact owner id = .error "no such column: cardId" := by
  have unprepared : prepare cardColumns ["cardId", "owner"] = .error "no such column: cardId" := by
    decide
  simp only [Store.deleteContact, unprepared]
  rfl

/-! ## One profile card each -/

/-- Changing the card table keeps its profiles apart when the row that is new has no
profile card beside it. -/
theorem OneProfile.of_new {cards : List (Nat × CardRow)} (h : OneProfile s) (new : Nat × CardRow)
    (mem : ∀ e ∈ cards, e = new ∨ e ∈ s.cards.entries ∧ e.1 ≠ new.1)
    (alone : new.2.isProfile = true → ∀ e ∈ s.cards.entries, e.2.isProfile = true →
      e.2.owner = new.2.owner → e.1 = new.1) :
    ∀ e ∈ cards, ∀ e' ∈ cards, e.2.isProfile = true → e'.2.isProfile = true →
      e.2.owner = e'.2.owner → e.1 = e'.1 := by
  intro e he e' he' kind kind' owner
  rcases mem e he with rfl | ⟨old, -⟩
  · rcases mem e' he' with rfl | ⟨old', -⟩
    · rfl
    · exact (alone kind e' old' kind' owner.symm).symm
  · rcases mem e' he' with rfl | ⟨old', -⟩
    · exact alone kind' e old kind owner
    · exact h e old e' old' kind kind' owner

/-- The owner has no profile card besides this one. -/
def NoOtherProfile (s : Store) (owner : Text) (id : Int) : Prop :=
  ∀ e ∈ s.cards.entries, e.2.isProfile = true → e.2.owner = owner → (e.1 : Int) = id

theorem OneProfile.insertCard (h : OneProfile s) {row : CardRow}
    (alone : row.isProfile = true → NoOtherProfile s row.owner s.cards.nextId) :
    OneProfile (s.insertCard row) := by
  refine h.of_new (s.cards.nextId, row) ?_ ?_
  · intro e he
    rcases AutoRows.mem_insert.mp he with old | new
    · have bound := s.cards.bounded e old
      refine Or.inr ⟨old, ?_⟩
      simp only [AutoRows.nextId]
      omega
    · exact Or.inl new
  · intro kind e he kind' owner
    exact_mod_cast alone kind e he kind' owner

theorem OneProfile.createNewContact (h : OneProfile s) {card : VC} (unstored : card.id < 0)
    (alone : card.user ≠ [] → card.owner = card.user → NoOtherProfile s card.owner card.id)
    (host : ModHost) : OneProfile (s.createNewContact host card).2.2 := by
  have inserted : OneProfile (s.insertCard ⟨card.owner, userColumn card.user, host.now⟩) := by
    refine h.insertCard ?_
    intro kind e he kind' owner
    obtain ⟨named, own⟩ := (isProfile_iff _ _ _).mp kind
    have same := alone named own e he kind' owner
    omega
  have cards : (s.createNewContact host card).2.2.cards =
      (s.insertCard ⟨card.owner, userColumn card.user, host.now⟩).cards :=
    insertProps_cards _ _ _ _ _
  unfold OneProfile
  rw [cards]
  exact inserted

theorem OneProfile.updateContact (h : OneProfile s) {card : VC}
    (alone : Updates s card → card.user ≠ [] → card.owner = card.user →
      NoOtherProfile s card.owner card.id) (host : ModHost) :
    OneProfile (s.updateContact host card).2.2 := by
  simp only [Store.updateContact]
  split
  · rename_i own
    obtain ⟨e, mem, id, owner⟩ := (updates_iff s card).mp own
    unfold OneProfile
    rw [insertProps_cards]
    refine h.of_new (e.1, ⟨card.owner, userColumn card.user, host.now⟩) ?_ ?_
    · intro e' he'
      obtain ⟨row, old, changed⟩ := AutoRows.mem_modify.mp he'
      by_cases same : e'.1 = e.1
      · have found : row = e.2 := s.cards.unique (same ▸ old) mem
        left
        simp only [isOwnCard, same, id, found, owner, decide_true, Bool.and_self, if_true] at changed
        exact Prod.ext same changed.symm
      · have kept : isOwnCard card.id card.owner e'.1 row = false := by
          have apart : (e'.1 : Int) ≠ card.id := by omega
          simp [isOwnCard, apart]
        simp only [kept, Bool.false_eq_true, if_false] at changed
        rw [changed] at old
        exact Or.inr ⟨old, same⟩
    · intro kind e' he' kind' same
      obtain ⟨named, self⟩ := (isProfile_iff _ _ _).mp kind
      have alone' := alone own named self e' he' kind' same
      omega
  · exact h

theorem OneProfile.deleteUser (h : OneProfile s) (localUser : Text) :
    OneProfile (s.deleteUser localUser) := by
  intro e he e' he'
  exact h e (AutoRows.mem_filter.mp he).1 e' (AutoRows.mem_filter.mp he').1

/-- Somebody without a profile card has none. -/
theorem noOtherProfile_of_missing {user : Text} (missing : s.profileCard user = none) (id : Int) :
    NoOtherProfile s user id := by
  intro e he kind owner
  have none := List.find?_eq_none.mp missing e he
  have self : e.2.user = some user := by
    rw [← owner]
    simpa [CardRow.isProfile] using kind
  exact absurd (by simp [kind, self]) none

end operations

/-! ## Runs -/

inductive Event
  | save (host : ModHost) (requester body : Text)
  | getProfile (host : ModHost) (user : Text) (reqUser reqDomain : Option Text)
  | deleteContact (owner : Text) (id : Int)
  | deleteUser (localUser : Text)

/-- What an event leaves. -/
def next (s : Store) : Event → Store
  | .save host requester body => (ContactsMod.save host s requester body).2
  | .getProfile host user reqUser reqDomain => (s.getProfile host user reqUser reqDomain).2
  | .deleteContact owner id => match s.deleteContact owner id with
    | .ok (_, s) => s
    | .error _ => s
  | .deleteUser localUser => s.deleteUser localUser

abbrev Step (s : Store) (e : Event) (t : Store) : Prop := next s e = t

/-- A posted card that is stored becomes a profile card only if its owner has no other one,
and has no properties when neither its owner nor its user has a name. -/
def Regular (s : Store) : Event → Prop
  | .save host requester body =>
    let card := posted host requester body
    card.id < 0 ∨ Updates s card →
      Filed card ∧ (card.user ≠ [] → card.owner = card.user → NoOtherProfile s card.owner card.id)
  | _ => True

theorem consistent_save {s : Store} (h : Consistent s) {host : ModHost} {requester body : Text}
    (regular : Regular s (.save host requester body)) :
    Consistent (next s (.save host requester body)) := by
  simp only [next, save_store]
  generalize hcard : posted host requester body = card
  simp only [Regular, hcard] at regular
  simp only [Store.saveContact]
  split
  · rename_i unstored
    obtain ⟨filed, alone⟩ := regular (Or.inl unstored)
    exact ⟨h.linked.createNewContact filed host, h.oneProfile.createNewContact unstored alone host⟩
  · by_cases updates : Updates s card
    · obtain ⟨filed, alone⟩ := regular (Or.inr updates)
      exact ⟨h.linked.updateContact filed host, h.oneProfile.updateContact (fun _ => alone) host⟩
    · have refused : (s.updateContact host card).2.2 = s := by
        simp only [Store.updateContact]
        split
        · rename_i own
          exact absurd own updates
        · rfl
      rw [refused]
      exact h

theorem consistent_next {s : Store} (h : Consistent s) {e : Event} (regular : Regular s e) :
    Consistent (next s e) := by
  cases e with
  | save host requester body => exact consistent_save h regular
  | getProfile host user reqUser reqDomain =>
    simp only [next, getProfile_store]
    rcases getProfileBase_cases host s user with same | ⟨missing, added⟩
    · rw [same]
      exact h
    · rw [added]
      exact ⟨h.linked.insertCard _,
        h.oneProfile.insertCard fun _ => noOtherProfile_of_missing missing _⟩
  | deleteContact owner id =>
    simp only [next, deleteContact_error]
    exact h
  | deleteUser localUser =>
    exact ⟨h.linked.deleteUser localUser, h.oneProfile.deleteUser localUser⟩

/-- In every run in which no posted card becomes a second profile, the database stays
consistent. -/
theorem regular_run_consistent {es : List Event} {s : Store}
    (run : Run (Restrict Step Regular) Store.empty es s) : Consistent s := by
  refine run.preserves (I := Consistent) ?_ consistent_empty
  rintro s e t h ⟨rfl, regular⟩
  exact consistent_next h regular

def demoHost : ModHost where
  domain := "a.net"
  baseUri := "https://a.net/contacts"
  now := 1700000000
  userInfo := fun user => if user = lit "alice" then 0 else 1
  jsonString := fun t => some (lit "\"" ++ t ++ lit "\"")
  base64Decode := some

def demoCard : Text := "BEGIN:VCARD\nX-FIY-PROFILE:alice@a.net\nTEL:1\nEND:VCARD"

/-- One post of a profile, and the same again without a `UID`. -/
def profileOnce : List Event := [.save demoHost "alice" demoCard]

def profileTwice : List Event := [.save demoHost "alice" demoCard, .save demoHost "alice" demoCard]

theorem posted_demoCard : posted demoHost "alice" demoCard =
    { owner := "alice", user := "alice", props := [{ name := "TEL", params := [], value := "1" }] } := by
  decide

theorem profileOnce_consistent :
    ∃ s, Run (Restrict Step Regular) Store.empty profileOnce s ∧ Consistent s := by
  have regular : Regular Store.empty (.save demoHost "alice" demoCard) := by
    simp only [Regular, posted_demoCard]
    rintro -
    refine ⟨fun nameless => absurd nameless (by decide), fun _ _ e he => ?_⟩
    exact absurd he List.not_mem_nil
  have run : Run (Restrict Step Regular) Store.empty profileOnce _ :=
    .cons ⟨rfl, regular⟩ (.refl _)
  exact ⟨_, run, regular_run_consistent run⟩

/-- The second post makes a second profile. -/
theorem profileTwice_inconsistent :
    ∃ s, Run Step Store.empty profileTwice s ∧ ¬ Consistent s := by
  refine ⟨_, .cons rfl (.cons rfl (.refl _)), fun consistent => ?_⟩
  have first : (1, CardRow.mk "alice" (some "alice") 1700000000) ∈
      (next (next Store.empty (.save demoHost "alice" demoCard))
        (.save demoHost "alice" demoCard)).cards.entries := by decide
  have second : (2, CardRow.mk "alice" (some "alice") 1700000000) ∈
      (next (next Store.empty (.save demoHost "alice" demoCard))
        (.save demoHost "alice" demoCard)).cards.entries := by decide
  have same := consistent.oneProfile _ first _ second (by decide) (by decide) rfl
  cases same

end ContactsInvariant
