import Fiy.RowTables
import Fiy.ContactCards

/-!
# The database of the contacts mod

The tables of `db.sql` and the statements of `DB.cpp`. A card whose user is its owner is
a profile card; the links of its properties carry a visibility. Shared cards are left
out, since nothing adds one. A link refers to a number the card table has given, which
is a field of the store. Statements are taken to succeed, except one that cannot be
prepared.
-/

namespace ContactsStore

open ByteStrings RowTables ModLibrary ContactCards

structure CardRow where
  owner : Text
  /-- `NULL` for a card of nobody on this network -/
  user : Option Text
  updateTs : Int
  deriving DecidableEq, Repr

structure PropertyRow where
  name : Text
  params : Text
  value : Text
  deriving DecidableEq, Repr

structure Link where
  cardId : Nat
  propertyId : Nat
  deriving DecidableEq, Repr

structure ProfileLink extends Link where
  visibility : Int
  deriving DecidableEq, Repr

structure Store where
  cards : AutoRows CardRow
  properties : Rows PropertyRow
  cardProperties : Rows Link
  profileCardProperties : Rows ProfileLink
  issued : ∀ e ∈ cardProperties.entries, e.2.cardId ≤ cards.sequence
  issuedProfile : ∀ e ∈ profileCardProperties.entries, e.2.cardId ≤ cards.sequence

/-- A row is a profile card: `owner = user`, which is not true of `NULL`. -/
def CardRow.isProfile (row : CardRow) : Bool := row.user = some row.owner

namespace Store

def empty : Store where
  cards := AutoRows.empty
  properties := Rows.empty
  cardProperties := Rows.empty
  profileCardProperties := Rows.empty
  issued := fun _ he => absurd he List.not_mem_nil
  issuedProfile := fun _ he => absurd he List.not_mem_nil

inductive Result
  | success
  | unauthorized
  | notFound
  | error
  deriving DecidableEq, Repr

/-! ## Writing cards -/

/-- `INSERT INTO Properties` -/
def insertProperty (s : Store) (p : CardProp) : Store :=
  { s with properties := s.properties.insert ⟨p.name, p.params, p.value⟩ }

/-- The row number of a card, for an id that is a number of the table. -/
def insertLink (s : Store) (cardId propertyId : Nat) (h : cardId ≤ s.cards.sequence) : Store :=
  { s with
    cardProperties := s.cardProperties.insert ⟨cardId, propertyId⟩
    issued := by
      intro e he
      rcases Rows.mem_insert.mp he with old | rfl
      · exact s.issued e old
      · exact h }

def insertProfileLink (s : Store) (cardId propertyId : Nat) (visibility : Int)
    (h : cardId ≤ s.cards.sequence) : Store :=
  { s with
    profileCardProperties := s.profileCardProperties.insert ⟨⟨cardId, propertyId⟩, visibility⟩
    issuedProfile := by
      intro e he
      rcases Rows.mem_insert.mp he with old | rfl
      · exact s.issuedProfile e old
      · exact h }

/-- One property and its link. The property is told the number of the link row, which is
what `last_insert_rowid()` is by then. -/
def insertProp (s : Store) (profile : Bool) (cardId : Nat) (p : CardProp)
    (h : cardId ≤ s.cards.sequence) : CardProp × Store :=
  let propertyId := s.properties.nextId
  if profile then
    ({ p with id := s.profileCardProperties.nextId },
      (s.insertProperty p).insertProfileLink cardId propertyId p.visibility h)
  else
    ({ p with id := s.cardProperties.nextId },
      (s.insertProperty p).insertLink cardId propertyId h)

theorem insertProp_cards (s : Store) (profile : Bool) (cardId : Nat) (p : CardProp)
    (h : cardId ≤ s.cards.sequence) : (s.insertProp profile cardId p h).2.cards = s.cards := by
  cases profile <;> rfl

/-- The loops of `create_new_contact` and `update_contact`. -/
def insertProps (profile : Bool) (cardId : Nat) :
    List CardProp → (s : Store) → cardId ≤ s.cards.sequence → List CardProp × Store
  | [], s, _ => ([], s)
  | p :: ps, s, h =>
    let one := s.insertProp profile cardId p h
    let rest := insertProps profile cardId ps one.2 (by rw [insertProp_cards]; exact h)
    (one.1 :: rest.1, rest.2)

/-- An empty user is stored as `NULL`. -/
def userColumn (user : Text) : Option Text := if user = [] then none else some user

/-- `INSERT INTO Cards` -/
def insertCard (s : Store) (row : CardRow) : Store :=
  { s with
    cards := s.cards.insert row
    issued := fun e he => (s.issued e he).trans (Nat.le_succ _)
    issuedProfile := fun e he => (s.issuedProfile e he).trans (Nat.le_succ _) }

/-- The number of a property read with `getInt`. -/
def narrowId (p : CardProp) : CardProp := { p with id := getInt p.id }

/-- `create_new_contact`. The select after the insertion finds the new row. Only here, and
only for a profile card, the numbers of the properties are read with `getInt`. -/
def createNewContact (host : ModHost) (s : Store) (card : VC) : Result × VC × Store :=
  let id := s.cards.nextId
  let s := s.insertCard ⟨card.owner, userColumn card.user, host.now⟩
  let saved := insertProps (card.owner = card.user) id card.props s (le_refl _)
  (.success, { card with
    id, updateTs := host.now,
    props := if card.owner = card.user then saved.1.map narrowId else saved.1 }, saved.2)

/-- The property is in use. -/
def linked (s : Store) (propertyId : Nat) : Bool :=
  s.cardProperties.any (fun _ link => link.propertyId = propertyId) ||
    s.profileCardProperties.any fun _ link => link.propertyId = propertyId

/-- `prune_properties` -/
def pruneProperties (s : Store) : Store :=
  { s with properties := s.properties.filter fun id _ => s.linked id }

/-- Removes the links of some cards from both tables. -/
def removeLinks (s : Store) (ofCard : Nat → Bool) : Store :=
  { s with
    cardProperties := s.cardProperties.filter fun _ link => !ofCard link.cardId
    profileCardProperties := s.profileCardProperties.filter fun _ link => !ofCard link.cardId
    issued := fun e he => s.issued e (Rows.mem_filter.mp he).1
    issuedProfile := fun e he => s.issuedProfile e (Rows.mem_filter.mp he).1 }

/-- `WHERE id=? AND owner=?` -/
def isOwnCard (id : Int) (owner : Text) (rowId : Nat) (row : CardRow) : Bool :=
  (rowId : Int) = id && row.owner = owner

/-- `UPDATE Cards SET user=?, updateTs=? WHERE id=? AND owner=?` -/
def updateCard (s : Store) (card : VC) (now : Int) : Store :=
  { s with
    cards := s.cards.modify fun id row =>
      if isOwnCard card.id card.owner id row then
        { row with user := userColumn card.user, updateTs := now }
      else row
    issued := s.issued
    issuedProfile := s.issuedProfile }

/-- `update_contact` -/
def updateContact (host : ModHost) (s : Store) (card : VC) : Result × VC × Store :=
  let card := { card with updateTs := host.now }
  if h : s.cards.any (isOwnCard card.id card.owner) then
    let id := card.id.toNat
    let s' := (((s.updateCard card host.now).removeLinks (· = id)).pruneProperties)
    let saved := insertProps (card.owner = card.user) id card.props s' (by
      obtain ⟨e, mem, own⟩ := List.any_eq_true.mp h
      have same : (e.1 : Int) = card.id := by simpa using (Bool.and_eq_true_iff.mp own).1
      have bound := s.cards.bounded e mem
      change card.id.toNat ≤ s.cards.sequence
      omega)
    (.success, { card with props := saved.1 }, saved.2)
  else (.unauthorized, card, s)

/-- `save_contact` -/
def saveContact (host : ModHost) (s : Store) (card : VC) : Result × VC × Store :=
  if card.id < 0 then s.createNewContact host card else s.updateContact host card

/-! ## Profiles -/

/-- `WHERE owner = user AND user=?`, of which both queries take the first row -/
def profileCard (s : Store) (user : Text) : Option (Nat × CardRow) :=
  s.cards.find? fun _ row => row.isProfile && row.user = some user

/-- `get_profile_base`: a local user without a profile card gets one. -/
def getProfileBase (host : ModHost) (s : Store) (user : Text) : VC × Store :=
  if 64 ∈ user then ({}, s)
  else match s.profileCard user with
    | some (id, row) => ({ id, owner := user, user, updateTs := row.updateTs }, s)
    | none =>
      let card : VC := { owner := user, user }
      if host.userInfo user ≠ 0 then (card, s)
      else
        let saved := s.saveContact host card
        (saved.2.1, saved.2.2)

/-- `visibility`: the trust level of a requester. -/
def visibility (user : Text) (reqUser reqDomain : Option Text) : Nat :=
  match reqUser, reqDomain with
  | none, _ => 3
  | some reqUser, none => if user ≠ reqUser then 1 else 0
  | some _, some _ => 2

/-- The property is on the profile of the user and visible at this level. -/
def onProfile (s : Store) (user : Text) (level : Nat) (propertyId : Nat) : Bool :=
  match s.profileCard user with
  | none => false
  | some (id, _) => s.profileCardProperties.any fun _ link =>
    link.propertyId = propertyId && link.cardId = id && decide (link.visibility ≥ (level : Int))

/-- `WHERE owner=? AND user=?` -/
def isContactOf (owner user : Text) (row : CardRow) : Bool :=
  row.owner = owner && row.user = some user

/-- The property is on a card the owner keeps of this user. -/
def onContact (s : Store) (owner user : Text) (propertyId : Nat) : Bool :=
  s.cardProperties.any fun _ link => link.propertyId = propertyId &&
    s.cards.any fun id row => id = link.cardId && isContactOf owner user row

/-- The selection of properties that `get_profile` makes. -/
def visibleTo (s : Store) (user : Text) (reqUser reqDomain : Option Text) : Rows PropertyRow :=
  let level := visibility user reqUser reqDomain
  s.properties.filter fun id _ => s.onProfile user level id ||
    (level ≤ 1 && s.onContact (reqUser.getD []) user id)

def cardProps (rows : Rows PropertyRow) : List CardProp :=
  rows.entries.map fun e => { id := e.1, name := e.2.name, params := e.2.params, value := e.2.value }

/-- `get_profile` -/
def getProfile (host : ModHost) (s : Store) (user : Text) (reqUser reqDomain : Option Text) :
    VC × Store :=
  let base := s.getProfileBase host user
  if base.1.invalid then ({}, base.2)
  else
    ({ base.1 with
        props := base.1.props ++ cardProps (base.2.visibleTo user reqUser reqDomain) }, base.2)

/-- The first value that is not empty. -/
def firstPhoto (rows : Rows PropertyRow) : Option Text :=
  (rows.entries.map fun e => e.2.value).find? (· ≠ [])

/-- `get_pfp` -/
def getPfp (s : Store) (user : Text) (reqUser reqDomain : Option Text) : Text :=
  let own := match reqUser, reqDomain with
    | some reqUser, none => firstPhoto (s.properties.filter fun id row =>
      s.onContact reqUser user id && row.name = "PHOTO")
    | _, _ => none
  match own with
  | some photo => photo
  | none => (firstPhoto (s.properties.filter fun id row =>
      s.onProfile user (visibility user reqUser reqDomain) id && row.name = "PHOTO")).getD []

/-! ## Deleting -/

/-- Keeps the cards that pass the test. -/
def filterCards (s : Store) (keep : Nat → CardRow → Bool) : Store :=
  { s with
    cards := s.cards.filter keep
    issued := s.issued
    issuedProfile := s.issuedProfile }

/-- `delete_user` -/
def deleteUser (s : Store) (localUser : Text) : Store :=
  let owned : Nat → Bool := fun cardId =>
    s.cards.any fun id row => id = cardId && row.owner = localUser
  ((s.removeLinks owned).filterCards fun _ row => row.owner ≠ localUser).pruneProperties

def cardColumns : List Text := ["id", "owner", "user", "updateTs"].map lit

/-- A statement that names a column the table does not have cannot be prepared. -/
def prepare (columns names : List Text) : Except Text Unit :=
  match names.find? (· ∉ columns) with
  | some name => .error (lit "no such column: " ++ name)
  | none => .ok ()

/-- `delete_contact`. Its statements call the id of a card `cardId`, which is what other
tables call it. -/
def deleteContact (s : Store) (owner : Text) (id : Int) : Except Text (Result × Store) := do
  prepare cardColumns ["cardId", "owner"]
  if s.cards.any (isOwnCard id owner) then
    let s' := s.removeLinks fun cardId => (cardId : Int) = id
    prepare cardColumns ["cardId"]
    .ok (.success, (s'.filterCards fun cardId _ => (cardId : Int) ≠ id).pruneProperties)
  else .ok (.notFound, s)

end Store

end ContactsStore
