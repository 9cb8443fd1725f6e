import Fiy.StatementScripts
import Fiy.ContactsStore
import Mathlib.Data.Int.CharZero

/-!
# Writing cards, statement by statement

`create_new_contact` and `update_contact` as scripts of prepared statements, any use of
which may fail. Rows are those of the contacts database, except that the card of a link is
what was bound, which can be no card when the insertion of the card has failed. A constraint
of a table that is not met is one of the failures.
-/

namespace ContactWrites

open ByteStrings RowTables ModLibrary ContactCards ContactsStore StatementScripts
open Store (Result userColumn isOwnCard)

structure LinkRow where
  cardId : Int
  propertyId : Int
  deriving DecidableEq, Repr

structure ProfileLinkRow extends LinkRow where
  visibility : Int
  deriving DecidableEq, Repr

structure Tables where
  cards : AutoRows CardRow
  properties : Rows PropertyRow
  cardProperties : Rows LinkRow
  profileCardProperties : Rows ProfileLinkRow

/-- What the statements of a thread work on: the tables, the number of the row its
connection inserted last, and the card of the call. -/
structure Conn where
  tables : Tables
  lastRowid : Int
  card : VC

/-- The function that a statement of this name belongs to. -/
inductive Writer
  | create
  | update
  deriving DecidableEq, Repr

/-- The prepared statements. -/
inductive Stmt
  | transactionBegin
  | transactionCommit
  | transactionRollback
  | createCard
  | getCard
  | updateCard
  | removeProps1
  | removeProps2
  | pruneProperties
  | insertProp (w : Writer)
  | insertProfileProp (w : Writer)
  | insertCardProp (w : Writer)
  | lastInsertRowid (w : Writer)
  deriving DecidableEq, Repr

namespace Stmt

/-- Its values are bound before it is stepped. -/
def hasParams : Stmt → Bool
  | createCard | updateCard | removeProps1 | removeProps2 => true
  | insertProp _ | insertProfileProp _ | insertCardProp _ => true
  | _ => false

/-- The function looks at the rows that were changed or found. -/
def countsRows : Stmt → Bool
  | createCard | getCard | updateCard => true
  | insertProp _ | insertProfileProp _ | insertCardProp _ | lastInsertRowid _ => true
  | _ => false

end Stmt

/-! ## Statements -/

namespace Tables

def insertProperty (t : Tables) (p : CardProp) : Tables :=
  { t with properties := t.properties.insert ⟨p.name, p.params, p.value⟩ }

@[simp]
theorem insertProperty_cardProperties (t : Tables) (p : CardProp) :
    (t.insertProperty p).cardProperties = t.cardProperties := rfl

@[simp]
theorem insertProperty_profileCardProperties (t : Tables) (p : CardProp) :
    (t.insertProperty p).profileCardProperties = t.profileCardProperties := rfl

def insertCardProp (t : Tables) (cardId propertyId : Int) : Tables :=
  { t with cardProperties := t.cardProperties.insert ⟨cardId, propertyId⟩ }

def insertProfileProp (t : Tables) (cardId propertyId visibility : Int) : Tables :=
  { t with
    profileCardProperties := t.profileCardProperties.insert ⟨⟨cardId, propertyId⟩, visibility⟩ }

def insertCard (t : Tables) (row : CardRow) : Tables :=
  { t with cards := t.cards.insert row }

/-- `SELECT id, updateTs FROM Cards WHERE rowid=?` -/
def findCard (t : Tables) (rowid : Int) : Option (Nat × CardRow) :=
  t.cards.find? fun id _ => (id : Int) = rowid

def owns (t : Tables) (card : VC) : Bool := t.cards.any (isOwnCard card.id card.owner)

def updateCard (t : Tables) (card : VC) (now : Int) : Tables :=
  { t with
    cards := t.cards.modify fun id row =>
      if isOwnCard card.id card.owner id row then
        { row with user := userColumn card.user, updateTs := now }
      else row }

def removeProps1 (t : Tables) (cardId : Int) : Tables :=
  { t with cardProperties := t.cardProperties.filter fun _ link => link.cardId ≠ cardId }

def removeProps2 (t : Tables) (cardId : Int) : Tables :=
  { t with
    profileCardProperties := t.profileCardProperties.filter fun _ link => link.cardId ≠ cardId }

/-- The property is in use. -/
def linked (t : Tables) (propertyId : Nat) : Bool :=
  t.cardProperties.any (fun _ link => link.propertyId = (propertyId : Int)) ||
    t.profileCardProperties.any fun _ link => link.propertyId = (propertyId : Int)

def pruneProperties (t : Tables) : Tables :=
  { t with properties := t.properties.filter fun id _ => t.linked id }

end Tables

/-- A use of a statement in `save_contact`. -/
abbrev Use := Action Stmt Conn Result

/-- No step has an exception of its own. -/
def use (q : Stmt) (step : Conn → Conn × Bool) (leave : Conn → Bool → Option Result) : Use where
  statement := q
  bound := q.hasParams
  step := fun c => some (step c)
  leave := leave

/-- Goes on in any case. -/
def goOn : Conn → Bool → Option Result := fun _ _ => none

/-- `if (q.exec() == 0)` -/
def needsRows (r : Result) : Conn → Bool → Option Result :=
  fun _ rows => if rows then none else some r

/-- Without a row there is only a message in the log. -/
def qCreateCard (host : ModHost) (card : VC) : Use :=
  use .createCard (fun c =>
    ({ c with
        tables := c.tables.insertCard ⟨card.owner, userColumn card.user, host.now⟩
        lastRowid := c.tables.cards.nextId }, true)) goOn

/-- Takes the number and the time of the row, if there is one. The function gives up only
where the card then has the number -1. -/
def qGetCard : Use :=
  use .getCard (fun c => match c.tables.findCard c.lastRowid with
    | some (id, row) => ({ c with card := { c.card with id, updateTs := row.updateTs } }, true)
    | none => (c, false)) fun c _ => if c.card.id = -1 then some .error else none

def qInsertProp (w : Writer) (p : CardProp) : Use :=
  use (.insertProp w) (fun c =>
    ({ c with
        tables := c.tables.insertProperty p
        lastRowid := c.tables.properties.nextId }, true)) (needsRows .error)

def qInsertProfileProp (w : Writer) (p : CardProp) : Use :=
  use (.insertProfileProp w) (fun c =>
    ({ c with
        tables := c.tables.insertProfileProp c.card.id c.lastRowid p.visibility
        lastRowid := c.tables.profileCardProperties.nextId }, true)) (needsRows .error)

def qInsertCardProp (w : Writer) : Use :=
  use (.insertCardProp w) (fun c =>
    ({ c with
        tables := c.tables.insertCardProp c.card.id c.lastRowid
        lastRowid := c.tables.cardProperties.nextId }, true)) (needsRows .error)

/-- Tells the property of this index its number. -/
def qLastInsertRowid (w : Writer) (read : Int → Int) (i : Nat) : Use :=
  use (.lastInsertRowid w) (fun c =>
    ({ c with card := { c.card with
        props := c.card.props.modify i fun p => { p with id := read c.lastRowid } } }, true)) goOn

/-- Sets the time of the card of the call as well. -/
def qUpdateCard (host : ModHost) (card : VC) : Use :=
  use .updateCard (fun c =>
    ({ c with
        tables := c.tables.updateCard card host.now
        card := { c.card with updateTs := host.now } }, c.tables.owns card))
    (needsRows .unauthorized)

def qRemoveProps1 (card : VC) : Use :=
  use .removeProps1 (fun c => ({ c with tables := c.tables.removeProps1 card.id }, true)) goOn

def qRemoveProps2 (card : VC) : Use :=
  use .removeProps2 (fun c => ({ c with tables := c.tables.removeProps2 card.id }, true)) goOn

def qPruneProperties : Use :=
  use .pruneProperties (fun c => ({ c with tables := c.tables.pruneProperties }, true)) goOn

/-! ## Functions -/

/-- The loops over the properties, from an index on. -/
def insertProps (w : Writer) (profile : Bool) (read : Int → Int) : Nat → List CardProp → List Use
  | _, [] => []
  | i, p :: ps =>
    qInsertProp w p :: (if profile then qInsertProfileProp w p else qInsertCardProp w) ::
      qLastInsertRowid w read i :: insertProps w profile read (i + 1) ps

/-- Properties of a new profile card are told their number with `getInt`, others with
`getInt64`. -/
def newCardRead (card : VC) : Int → Int := if card.owner = card.user then getInt else id

/-- The `try` block of `create_new_contact`, without the transaction. -/
def createNewContact (host : ModHost) (card : VC) : List Use :=
  qCreateCard host card :: qGetCard ::
    insertProps .create (card.owner = card.user) (newCardRead card) 0 card.props

/-- The `try` block of `update_contact`, without the transaction. -/
def updateContact (host : ModHost) (card : VC) : List Use :=
  qUpdateCard host card :: qRemoveProps1 card :: qRemoveProps2 card :: qPruneProperties ::
    insertProps .update (card.owner = card.user) id 0 card.props

def saveScript (host : ModHost) (card : VC) : List Use :=
  if card.id < 0 then createNewContact host card else updateContact host card

/-- `ROLLBACK` restores the tables, and nothing else. -/
def restoreTables (old new : Conn) : Conn := { new with tables := old.tables }

/-- The thread with the card of a call. -/
def hand (card : VC) (th : Thread Stmt Conn) : Thread Stmt Conn :=
  { th with data := { th.data with card } }

/-- `save_contact`, where the uses of statements that the plan names fail. No result is an
exception. -/
def saveContact (plan : Plan) (host : ModHost) (card : VC) (th : Thread Stmt Conn) :
    Option Result × Thread Stmt Conn :=
  transact plan restoreTables .success .error (saveScript host card) (hand card th)

/-! ## Without faults -/

/-- What the loops insert, and the properties with the numbers they are told. -/
def savedProps (profile : Bool) (read : Int → Int) (cardId : Int) :
    List CardProp → Tables → List CardProp × Tables
  | [], t => ([], t)
  | p :: ps, t =>
    let t' := t.insertProperty p
    let told := if profile then t.profileCardProperties.nextId else t.cardProperties.nextId
    let rest := savedProps profile read cardId ps
      (if profile then t'.insertProfileProp cardId t.properties.nextId p.visibility
        else t'.insertCardProp cardId t.properties.nextId)
    ({ p with id := read told } :: rest.1, rest.2)

theorem modify_middle {α : Type} (done : List α) (a : α) (as : List α) (f : α → α) :
    (done ++ a :: as).modify done.length f = done ++ f a :: as := by
  induction done with
  | nil => rfl
  | cons b done ih => rw [List.cons_append, List.length_cons, List.modify_succ_cons, ih]; rfl

theorem course_insertProps (w : Writer) (profile : Bool) (read : Int → Int) (ps : List CardProp)
    (done : List CardProp) (t : Tables) (r : Int) (card : VC) (props : card.props = done ++ ps) :
    ∃ r', course (insertProps w profile read done.length ps) ⟨t, r, card⟩ =
      (.finished, ⟨(savedProps profile read card.id ps t).2, r',
        { card with props := done ++ (savedProps profile read card.id ps t).1 }⟩) := by
  induction ps generalizing done t r card with
  | nil =>
    refine ⟨r, ?_⟩
    rw [savedProps, ← props]
    rfl
  | cons p ps ih =>
    have told (n : Int) := modify_middle done p ps fun p => { p with id := read n }
    cases profile with
    | false =>
      obtain ⟨r', rest⟩ := ih (done ++ [{ p with id := read t.cardProperties.nextId }])
        ((t.insertProperty p).insertCardProp card.id t.properties.nextId) t.cardProperties.nextId
        { card with props := done ++ { p with id := read t.cardProperties.nextId } :: ps } (by simp)
      refine ⟨r', ?_⟩
      simpa [insertProps, course, qInsertProp, qInsertCardProp, qLastInsertRowid, use, needsRows,
        goOn, props, told, savedProps] using rest
    | true =>
      obtain ⟨r', rest⟩ := ih (done ++ [{ p with id := read t.profileCardProperties.nextId }])
        ((t.insertProperty p).insertProfileProp card.id t.properties.nextId p.visibility)
        t.profileCardProperties.nextId
        { card with props := done ++ { p with id := read t.profileCardProperties.nextId } :: ps }
        (by simp)
      refine ⟨r', ?_⟩
      simpa [insertProps, course, qInsertProp, qInsertProfileProp, qLastInsertRowid, use, needsRows,
        goOn, props, told, savedProps] using rest

theorem findCard_insertCard (t : Tables) (row : CardRow) :
    (t.insertCard row).findCard t.cards.nextId = some (t.cards.nextId, row) := by
  have older : t.cards.entries.find? (fun e => decide ((e.1 : Int) = t.cards.nextId)) = none := by
    rw [List.find?_eq_none]
    intro e he
    have bound : e.1 ≤ t.cards.sequence := t.cards.bounded e he
    rw [decide_eq_true_iff, AutoRows.nextId]
    omega
  change (t.cards.entries ++ [(t.cards.nextId, row)]).find? _ = _
  rw [List.find?_append, older]
  simp

/-- What `create_new_contact` does without faults. -/
def created (host : ModHost) (card : VC) (t : Tables) : VC × Tables :=
  let saved := savedProps (card.owner = card.user) (newCardRead card) t.cards.nextId card.props
    (t.insertCard ⟨card.owner, userColumn card.user, host.now⟩)
  ({ card with id := t.cards.nextId, updateTs := host.now, props := saved.1 }, saved.2)

theorem course_createNewContact (host : ModHost) (card : VC) (t : Tables) (r : Int) :
    ∃ r', course (createNewContact host card) ⟨t, r, card⟩ =
      (.finished, ⟨(created host card t).2, r', (created host card t).1⟩) := by
  obtain ⟨r', props⟩ := course_insertProps .create (card.owner = card.user) (newCardRead card)
    card.props [] (t.insertCard ⟨card.owner, userColumn card.user, host.now⟩) t.cards.nextId
    { card with id := t.cards.nextId, updateTs := host.now } rfl
  have new : (t.cards.nextId : Int) ≠ -1 := by omega
  refine ⟨r', ?_⟩
  simp only [createNewContact, course, qCreateCard, qGetCard, use, goOn, findCard_insertCard, new,
    if_false]
  exact props

/-- What `update_contact` does without faults to a card that is there. -/
def updated (host : ModHost) (card : VC) (t : Tables) : VC × Tables :=
  let t' := (((t.updateCard card host.now).removeProps1 card.id).removeProps2
    card.id).pruneProperties
  let saved := savedProps (card.owner = card.user) id card.id card.props t'
  ({ card with updateTs := host.now, props := saved.1 }, saved.2)

theorem course_updateContact (host : ModHost) (card : VC) (t : Tables) (r : Int)
    (own : t.owns card = true) :
    ∃ r', course (updateContact host card) ⟨t, r, card⟩ =
      (.finished, ⟨(updated host card t).2, r', (updated host card t).1⟩) := by
  obtain ⟨r', props⟩ := course_insertProps .update (card.owner = card.user) id card.props []
    (((t.updateCard card host.now).removeProps1 card.id).removeProps2 card.id).pruneProperties r
    { card with updateTs := host.now } rfl
  refine ⟨r', ?_⟩
  simp only [updateContact, course, qUpdateCard, qRemoveProps1, qRemoveProps2, qPruneProperties,
    use, goOn, needsRows, own, if_true]
  exact props

theorem course_unauthorized (host : ModHost) (card : VC) (t : Tables) (r : Int)
    (other : t.owns card = false) :
    course (updateContact host card) ⟨t, r, card⟩ = (.left .unauthorized,
      ⟨t.updateCard card host.now, r, { card with updateTs := host.now }⟩) := by
  simp only [updateContact, course, qUpdateCard, use, needsRows, other, Bool.false_eq_true,
    if_false]

/-- What a call without faults does. -/
def saved (host : ModHost) (card : VC) (t : Tables) : Result × VC × Tables :=
  if card.id < 0 then (.success, created host card t)
  else if t.owns card then (.success, updated host card t)
  else (.unauthorized, { card with updateTs := host.now }, t)

/-! ## The tables of a store -/

/-- The tables of a store. -/
def ofStore (s : Store) : Tables where
  cards := s.cards
  properties := s.properties
  cardProperties := s.cardProperties.map fun link => ⟨link.cardId, link.propertyId⟩
  profileCardProperties :=
    s.profileCardProperties.map fun link => ⟨⟨link.cardId, link.propertyId⟩, link.visibility⟩

theorem insertProp_ofStore (cardId : Nat) (p : CardProp) (s : Store)
    (h : cardId ≤ s.cards.sequence) :
    ((ofStore s).insertProperty p).insertCardProp cardId s.properties.nextId =
        ofStore (s.insertProp false cardId p h).2 ∧
      ((ofStore s).insertProperty p).insertProfileProp cardId s.properties.nextId p.visibility =
        ofStore (s.insertProp true cardId p h).2 := by
  constructor
  · simp [Tables.insertProperty, Tables.insertCardProp, ofStore, Store.insertProp,
      Store.insertProperty, Store.insertLink, Rows.map_insert]
  · simp [Tables.insertProperty, Tables.insertProfileProp, ofStore, Store.insertProp,
      Store.insertProperty, Store.insertProfileLink, Rows.map_insert]

theorem savedProps_ofStore (profile : Bool) (read : Int → Int) (cardId : Nat) (ps : List CardProp)
    (s : Store) (h : cardId ≤ s.cards.sequence) :
    savedProps profile read cardId ps (ofStore s) =
      ((Store.insertProps profile cardId ps s h).1.map fun p => { p with id := read p.id },
        ofStore (Store.insertProps profile cardId ps s h).2) := by
  induction ps generalizing s with
  | nil => rfl
  | cons p ps ih =>
    have rest := ih (s.insertProp profile cardId p h).2 (by rw [Store.insertProp_cards]; exact h)
    obtain ⟨plain, visible⟩ := insertProp_ofStore cardId p s h
    cases profile with
    | false =>
      rw [← plain] at rest
      simp only [savedProps, Store.insertProps, List.map_cons, Bool.false_eq_true, if_false]
      rw [show (ofStore s).properties = s.properties from rfl, rest]
      simp [ofStore, Store.insertProp]
    | true =>
      rw [← visible] at rest
      simp only [savedProps, Store.insertProps, List.map_cons, if_true]
      rw [show (ofStore s).properties = s.properties from rfl, rest]
      simp [ofStore, Store.insertProp]

theorem created_ofStore (host : ModHost) (card : VC) (s : Store) :
    created host card (ofStore s) = ((s.createNewContact host card).2.1,
      ofStore (s.createNewContact host card).2.2) := by
  have cards : (ofStore s).cards = s.cards := rfl
  have inserted (row : CardRow) : (ofStore s).insertCard row = ofStore (s.insertCard row) := rfl
  have props := savedProps_ofStore (card.owner = card.user) (newCardRead card) s.cards.nextId
    card.props (s.insertCard ⟨card.owner, userColumn card.user, host.now⟩) (le_refl _)
  simp only [created, cards, inserted, props, Store.createNewContact]
  by_cases profile : card.owner = card.user
  · simp only [newCardRead, profile, if_true]
    rfl
  · simp [newCardRead, profile]

theorem linked_ofStore (s : Store) (propertyId : Nat) :
    (ofStore s).linked propertyId = s.linked propertyId := by
  simp [Tables.linked, Store.linked, ofStore, Rows.any_map]

/-- The changes of an old card before its properties are inserted. -/
theorem cleaned_ofStore (card : VC) (now : Int) (s : Store) (id : Nat) (known : card.id = id) :
    ((((ofStore s).updateCard card now).removeProps1 card.id).removeProps2
        card.id).pruneProperties =
      ofStore (((s.updateCard card now).removeLinks (· = id)).pruneProperties) := by
  have removed : (((ofStore s).updateCard card now).removeProps1 card.id).removeProps2 card.id =
      ofStore ((s.updateCard card now).removeLinks (· = id)) := by
    simp [ofStore, Tables.updateCard, Tables.removeProps1, Tables.removeProps2, Store.updateCard,
      Store.removeLinks, Rows.map_filter, known]
  rw [removed]
  simp only [Tables.pruneProperties, linked_ofStore]
  rfl

theorem updated_ofStore (host : ModHost) (card : VC) (s : Store)
    (own : s.cards.any (isOwnCard card.id card.owner) = true) :
    updated host card (ofStore s) = ((s.updateContact host card).2.1,
      ofStore (s.updateContact host card).2.2) := by
  obtain ⟨e, mem, same⟩ := List.any_eq_true.mp own
  have known : card.id = e.1 := by
    have number : (e.1 : Int) = card.id := by simpa using (Bool.and_eq_true_iff.mp same).1
    exact number.symm
  have number : card.id.toNat = e.1 := by rw [known, Int.toNat_natCast]
  have cleaned := cleaned_ofStore card host.now s e.1 known
  have props := savedProps_ofStore (card.owner = card.user) id e.1 card.props
    (((s.updateCard card host.now).removeLinks (· = e.1)).pruneProperties) (s.cards.bounded e mem)
  simp only [updated, cleaned, Store.updateContact, own, dif_pos, number]
  rw [← known] at props
  rw [props]
  simp only [id_eq, List.map_id']
  rfl

/-- What a call without faults does is what the store says of it. -/
theorem saved_ofStore (host : ModHost) (card : VC) (s : Store) :
    saved host card (ofStore s) = ((s.saveContact host card).1, (s.saveContact host card).2.1,
      ofStore (s.saveContact host card).2.2) := by
  have owns : (ofStore s).owns card = s.cards.any (isOwnCard card.id card.owner) := rfl
  rw [saved, Store.saveContact, owns]
  by_cases new : card.id < 0
  · rw [if_pos new, if_pos new, created_ofStore]
    rfl
  · rw [if_neg new, if_neg new]
    cases own : s.cards.any (isOwnCard card.id card.owner) with
    | true =>
      rw [updated_ofStore host card s own]
      simp [Store.updateContact, own]
    | false => simp [Store.updateContact, own]

/-! ## Calls -/

/-- The script goes through, or is left because the card is not there. -/
theorem course_saveScript (host : ModHost) (card : VC) (t : Tables) (r : Int) :
    (∃ r', (saved host card t).1 = .success ∧ course (saveScript host card) ⟨t, r, card⟩ =
      (.finished, ⟨(saved host card t).2.2, r', (saved host card t).2.1⟩)) ∨
    (saved host card t).1 = .unauthorized ∧ (saved host card t).2.2 = t ∧
      course (saveScript host card) ⟨t, r, card⟩ = (.left .unauthorized,
        ⟨t.updateCard card host.now, r, (saved host card t).2.1⟩) := by
  unfold saveScript saved
  by_cases new : card.id < 0
  · rw [if_pos new, if_pos new]
    obtain ⟨r', goes⟩ := course_createNewContact host card t r
    exact .inl ⟨r', rfl, goes⟩
  · rw [if_neg new, if_neg new]
    cases own : t.owns card with
    | true =>
      obtain ⟨r', goes⟩ := course_updateContact host card t r own
      exact .inl ⟨r', rfl, goes⟩
    | false => exact .inr ⟨rfl, rfl, course_unauthorized host card t r own⟩

/-- Nothing fails where no statement of the script rejects its values. -/
theorem saveContact_free {t : Thread Stmt Conn} {host : ModHost} {card : VC}
    (idle : t.snapshot = none) (free : blocked (saveScript host card) t = false) :
    ∃ r', saveContact calm host card t = (some (saved host card t.data.tables).1,
      { t with data := ⟨(saved host card t.data.tables).2.2, r',
        (saved host card t.data.tables).2.1⟩ }) := by
  unfold saveContact
  rcases course_saveScript host card t.data.tables t.data.lastRowid with
    ⟨r', success, goes⟩ | ⟨refused, same, leaves⟩
  · refine ⟨r', ?_⟩
    rw [success]
    exact transact_finished restoreTables _ .error (t := hand card t) idle free goes
  · refine ⟨t.data.lastRowid, ?_⟩
    rw [refused, same]
    exact transact_left restoreTables _ .error (t := hand card t) idle free leaves

/-- Where one does, a write that would succeed is an error. -/
theorem saveContact_stuck {t : Thread Stmt Conn} {host : ModHost} {card : VC}
    (idle : t.snapshot = none) (stuck : blocked (saveScript host card) t = true)
    (possible : (saved host card t.data.tables).1 = .success) :
    (saveContact calm host card t).1 = some .error := by
  rcases course_saveScript host card t.data.tables t.data.lastRowid with
    ⟨r', success, goes⟩ | ⟨refused, same, leaves⟩
  · obtain ⟨d', blocks⟩ := transact_blocked restoreTables Result.success .error
      (t := hand card t) idle stuck goes
    unfold saveContact
    rw [blocks]
  · rw [possible] at refused
    cases refused

/-! ## Later operations -/

/-- An operation of the mod on a thread: another write, or anything that has statements of
its own. One that reads and then writes is two of them. -/
inductive Op
  | save (host : ModHost) (card : VC)
  | other (f : Tables → Text × Tables)

inductive Reply
  | saved (r : Option Result) (card : VC)
  | told (t : Text)
  deriving DecidableEq, Repr

def Op.run (th : Thread Stmt Conn) : Op → Reply × Thread Stmt Conn
  | .save host card =>
    let done := saveContact calm host card th
    (.saved done.1 done.2.data.card, done.2)
  | .other f =>
    let done := f th.data.tables
    (.told done.1, { th with data := { th.data with tables := done.2 } })

/-- The replies of operations in a row, and the tables after them. -/
def runOps : List Op → Thread Stmt Conn → List Reply × Tables
  | [], th => ([], th.data.tables)
  | op :: ops, th =>
    let done := op.run th
    let rest := runOps ops done.2
    (done.1 :: rest.1, rest.2)

theorem runOps_tail {op : Op} {ops : List Op} {th th' : Thread Stmt Conn}
    (same : runOps (op :: ops) th = runOps (op :: ops) th') :
    runOps ops (op.run th).2 = runOps ops (op.run th').2 := by
  obtain ⟨replies, tables⟩ := Prod.mk.inj same
  exact Prod.ext (List.cons.inj replies).2 tables

/-- A thread on which no write has left traces. -/
structure Clean (th : Thread Stmt Conn) : Prop where
  usable : ∀ q, th.rejects q = false
  idle : th.snapshot = none

theorem Clean.free {th : Thread Stmt Conn} (clean : Clean th) (as : List Use) :
    blocked as th = false := by
  simp [blocked, clean.usable]

/-- Two threads without traces and with the same tables. -/
structure Alike (th th' : Thread Stmt Conn) : Prop where
  clean : Clean th
  clean' : Clean th'
  tables : th.data.tables = th'.data.tables

/-- One operation does not tell such threads apart. -/
theorem Alike.run {th th' : Thread Stmt Conn} (alike : Alike th th') (op : Op) :
    (op.run th).1 = (op.run th').1 ∧ Alike (op.run th).2 (op.run th').2 := by
  cases op with
  | save host card =>
    obtain ⟨r, first⟩ := saveContact_free alike.clean.idle
      (alike.clean.free (saveScript host card))
    obtain ⟨r', second⟩ := saveContact_free alike.clean'.idle
      (alike.clean'.free (saveScript host card))
    simp only [Op.run, first, second, alike.tables]
    exact ⟨trivial, ⟨alike.clean.usable, alike.clean.idle⟩,
      ⟨alike.clean'.usable, alike.clean'.idle⟩, rfl⟩
  | other f =>
    simp only [Op.run, alike.tables]
    exact ⟨trivial, ⟨alike.clean.usable, alike.clean.idle⟩,
      ⟨alike.clean'.usable, alike.clean'.idle⟩, rfl⟩

/-- Nor do any operations. -/
theorem Alike.runOps {th th' : Thread Stmt Conn} (alike : Alike th th') (ops : List Op) :
    ContactWrites.runOps ops th = ContactWrites.runOps ops th' := by
  induction ops generalizing th th' with
  | nil =>
    rw [ContactWrites.runOps, ContactWrites.runOps, alike.tables]
  | cons op ops ih =>
    obtain ⟨reply, next⟩ := alike.run op
    simp only [ContactWrites.runOps, reply, ih next]

/-- A thread before anything has failed. -/
def fresh (c : Conn) : Thread Stmt Conn where
  data := c
  rejects := fun _ => false
  snapshot := none

theorem fresh_clean (c : Conn) : Clean (fresh c) := ⟨fun _ => rfl, rfl⟩

/-- A call without faults does what the store says of it. -/
theorem saveContact_ofStore (host : ModHost) (card : VC) (s : Store) (r : Int) (last : VC) :
    ∃ r', saveContact calm host card (fresh ⟨ofStore s, r, last⟩) =
      (some (s.saveContact host card).1,
        fresh ⟨ofStore (s.saveContact host card).2.2, r', (s.saveContact host card).2.1⟩) := by
  obtain ⟨r', goes⟩ := saveContact_free (t := fresh ⟨ofStore s, r, last⟩) rfl
    ((fresh_clean _).free (saveScript host card))
  refine ⟨r', ?_⟩
  rw [goes]
  change (some (saved host card (ofStore s)).1, fresh ⟨(saved host card (ofStore s)).2.2, r',
    (saved host card (ofStore s)).2.1⟩) = _
  rw [saved_ofStore]

/-- The call, some of whose statements fail, gives no success and has changed no table, and
no later operations give anything that they would not give without it. -/
def Invisible (host : ModHost) (card : VC) (plan : Plan) (c : Conn) : Prop :=
  let failed := saveContact plan host card (fresh c)
  (∃ r, failed.1 = some r ∧ r ≠ .success) ∧ failed.2.data.tables = c.tables ∧
    ∀ ops, runOps ops failed.2 = runOps ops (fresh c)

/-! ## Statements that were not reset -/

/-- A thread where one statement rejects its values. -/
def spoiled (c : Conn) (q : Stmt) : Thread Stmt Conn where
  data := c
  rejects := Function.update (fun _ => false) q true
  snapshot := none

/-- A card with one property, for its owner or for nobody. -/
def probe (profile : Bool) (id : Int) : VC where
  id
  owner := lit "alice"
  user := if profile then lit "alice" else []
  props := [{ name := lit "TEL", params := [], value := [] }]

/-- The statements of a new card with a property. -/
theorem create_probe (host : ModHost) (profile : Bool) :
    (saveScript host (probe profile (-1))).map Action.statement =
      [.createCard, .getCard, .insertProp .create,
        if profile then .insertProfileProp .create else .insertCardProp .create,
        .lastInsertRowid .create] := by
  cases profile <;> rfl

/-- Those of a changed one. -/
theorem update_probe (host : ModHost) (profile : Bool) (id : Nat) :
    (saveScript host (probe profile id)).map Action.statement =
      [.updateCard, .removeProps1, .removeProps2, .pruneProperties, .insertProp .update,
        if profile then .insertProfileProp .update else .insertCardProp .update,
        .lastInsertRowid .update] := by
  cases profile <;> rfl

theorem savedProps_cards (profile : Bool) (read : Int → Int) (cardId : Int) (ps : List CardProp)
    (t : Tables) : (savedProps profile read cardId ps t).2.cards = t.cards := by
  induction ps generalizing t with
  | nil => rfl
  | cons p ps ih =>
    rw [savedProps, ih]
    cases profile <;> rfl

theorem created_cards (host : ModHost) (card : VC) (t : Tables) :
    (created host card t).2.cards =
      t.cards.insert ⟨card.owner, userColumn card.user, host.now⟩ := by
  unfold created
  exact savedProps_cards _ _ _ _ _

/-- A card that was just created can be changed. -/
theorem saved_probe (host : ModHost) (profile : Bool) (t : Tables) :
    (saved host (probe profile t.cards.nextId) (saved host (probe profile (-1)) t).2.2).1 =
      .success := by
  have own : (created host (probe profile (-1)) t).2.owns (probe profile t.cards.nextId) =
      true := by
    rw [Tables.owns, created_cards, Rows.any, List.any_eq_true]
    exact ⟨(t.cards.nextId, _), AutoRows.mem_insert.mpr (.inr rfl), by simp [isOwnCard, probe]⟩
  have first : (saved host (probe profile (-1)) t).2.2 = (created host (probe profile (-1)) t).2 :=
    rfl
  have old : ¬ (probe profile t.cards.nextId).id < 0 := Int.not_lt.mpr (Int.natCast_nonneg _)
  rw [first, saved, if_neg old, own]
  rfl

theorem mem_insertProps {w : Writer} {profile : Bool} {read : Int → Int} {ps : List CardProp}
    {i : Nat} {a : Use} (mem : a ∈ insertProps w profile read i ps) :
    (∃ p, a = qInsertProp w p) ∨ (∃ p, a = qInsertProfileProp w p) ∨ a = qInsertCardProp w ∨
      ∃ j, a = qLastInsertRowid w read j := by
  induction ps generalizing i with
  | nil => cases mem
  | cons p ps ih =>
    rw [insertProps, List.mem_cons, List.mem_cons, List.mem_cons] at mem
    rcases mem with rfl | rfl | rfl | later
    · exact .inl ⟨p, rfl⟩
    · cases profile
      · exact .inr (.inr (.inl rfl))
      · exact .inr (.inl ⟨p, rfl⟩)
    · exact .inr (.inr (.inr ⟨i, rfl⟩))
    · exact ih later

theorem steady_insertProps (w : Writer) (profile : Bool) (read : Int → Int) (ps : List CardProp)
    (i : Nat) : ∀ a ∈ insertProps w profile read i ps, a.Steady := by
  intro a mem d
  rcases mem_insertProps mem with ⟨p, rfl⟩ | ⟨p, rfl⟩ | rfl | ⟨j, rfl⟩ <;> exact ⟨_, rfl, rfl⟩

/-- Values are bound where the statement has some, and no script begins a transaction. -/
theorem statement_saveScript {host : ModHost} {card : VC} {a : Use}
    (mem : a ∈ saveScript host card) :
    a.bound = a.statement.hasParams ∧ a.statement ≠ .transactionBegin := by
  have props {w : Writer} {read : Int → Int}
      (mem : a ∈ insertProps w (card.owner = card.user) read 0 card.props) :
      a.bound = a.statement.hasParams ∧ a.statement ≠ .transactionBegin := by
    rcases mem_insertProps mem with ⟨p, rfl⟩ | ⟨p, rfl⟩ | rfl | ⟨j, rfl⟩ <;>
      exact ⟨rfl, fun same => by cases same⟩
  unfold saveScript at mem
  split at mem
  · simp only [createNewContact, List.mem_cons] at mem
    rcases mem with rfl | rfl | mem
    · exact ⟨rfl, fun same => by cases same⟩
    · exact ⟨rfl, fun same => by cases same⟩
    · exact props mem
  · simp only [updateContact, List.mem_cons] at mem
    rcases mem with rfl | rfl | rfl | rfl | mem
    · exact ⟨rfl, fun same => by cases same⟩
    · exact ⟨rfl, fun same => by cases same⟩
    · exact ⟨rfl, fun same => by cases same⟩
    · exact ⟨rfl, fun same => by cases same⟩
    · exact props mem

/-- The scripts that use the statement are blocked. -/
theorem blocked_spoiled {host : ModHost} {card : VC} {c : Conn} {q : Stmt}
    (params : q.hasParams = true) :
    blocked (saveScript host card) (spoiled c q) =
      decide (q ∈ (saveScript host card).map Action.statement) := by
  rw [blocked, Bool.eq_iff_iff, List.any_eq_true, decide_eq_true_iff, List.mem_map]
  constructor
  · rintro ⟨a, mem, rejected⟩
    refine ⟨a, mem, ?_⟩
    by_contra different
    simp [spoiled, Function.update_of_ne different] at rejected
  · rintro ⟨a, mem, rfl⟩
    refine ⟨a, mem, ?_⟩
    rw [(statement_saveScript mem).1, params]
    simp [spoiled]

/-- A write that fails because of the statement is seen. -/
theorem stuck_seen {host : ModHost} {card : VC} {q : Stmt} (c c' : Conn)
    (tables : c.tables = c'.tables) (params : q.hasParams = true)
    (uses : q ∈ (saveScript host card).map Action.statement)
    (possible : (saved host card c.tables).1 = .success) :
    runOps [.save host card] (spoiled c q) ≠ runOps [.save host card] (fresh c') := by
  intro same
  have stuck := saveContact_stuck (t := spoiled c q) rfl
    ((blocked_spoiled params).trans (decide_eq_true uses)) possible
  obtain ⟨r, goes⟩ := saveContact_free (t := fresh c') rfl
    ((fresh_clean c').free (saveScript host card))
  have replies := congrArg (fun out => out.1.head?) same
  simp only [runOps, Op.run, List.head?_cons, stuck, goes, Option.some.injEq, Reply.saved.injEq]
    at replies
  rw [show (fresh c').data.tables = c.tables from tables.symm, possible] at replies
  cases replies.1

/-- The probe that uses a statement. -/
def onProfile : Stmt → Bool
  | .insertProfileProp _ => true
  | _ => false

theorem probe_uses {q : Stmt} (host : ModHost) (id : Nat) (params : q.hasParams = true) :
    q ∈ (saveScript host (probe (onProfile q) (-1))).map Action.statement ∨
      q ∈ (saveScript host (probe (onProfile q) id)).map Action.statement := by
  rw [create_probe, update_probe]
  cases q with
  | insertProp w => cases w <;> decide
  | insertProfileProp w => cases w <;> decide
  | insertCardProp w => cases w <;> decide
  | createCard | updateCard | removeProps1 | removeProps2 => decide
  | _ => cases params

/-- A statement with values that was not reset is noticed: a new card with a property, or
the change of one, fails. -/
theorem spoiled_seen (host : ModHost) (c c' : Conn) {q : Stmt} (tables : c.tables = c'.tables)
    (params : q.hasParams = true) :
    ∃ ops, runOps ops (spoiled c q) ≠ runOps ops (fresh c') := by
  let new := probe (onProfile q) (-1)
  let changed := probe (onProfile q) c.tables.cards.nextId
  by_cases first : q ∈ (saveScript host new).map Action.statement
  · exact ⟨[.save host new], stuck_seen c c' tables params first rfl⟩
  · have second : q ∈ (saveScript host changed).map Action.statement :=
      (probe_uses host c.tables.cards.nextId params).resolve_left first
    let next := saved host new c.tables
    obtain ⟨r, goes⟩ : ∃ r, saveContact calm host new (spoiled c q) =
        (some .success, spoiled ⟨next.2.2, r, next.2.1⟩ q) :=
      saveContact_free (t := spoiled c q) rfl
        ((blocked_spoiled params).trans (decide_eq_false first))
    obtain ⟨r', goes'⟩ : ∃ r', saveContact calm host new (fresh c') =
        (some .success, fresh ⟨next.2.2, r', next.2.1⟩) := by
      obtain ⟨r', goes'⟩ := saveContact_free (t := fresh c') rfl
        ((fresh_clean c').free (saveScript host new))
      rw [show (fresh c').data.tables = c.tables from tables.symm] at goes'
      exact ⟨r', goes'⟩
    refine ⟨[.save host new, .save host changed], fun same => ?_⟩
    have later := runOps_tail same
    simp only [Op.run, goes, goes'] at later
    exact stuck_seen ⟨next.2.2, r, next.2.1⟩ ⟨next.2.2, r', next.2.1⟩ rfl params second
      (saved_probe host (onProfile q) c.tables) later

/-! ## One failure -/

/-- The statements that a call without faults uses, in their order. -/
def uses (host : ModHost) (card : VC) (c : Conn) : List Stmt :=
  .transactionBegin :: trace (saveScript host card) { c with card } ++
    [match (course (saveScript host card) { c with card }).1 with
      | .finished => .transactionCommit
      | _ => .transactionRollback]

/-- When the failure of one statement does no harm. -/
def Harmless (card : VC) (c : Conn) (q : Stmt) : Fault → Prop
  | .refused => q ≠ .transactionBegin
  | .raises => q ≠ .transactionBegin ∧ q.hasParams = false
  | .zeroRows => match q with
    | .createCard => card.id = -1 ∧ c.tables.findCard c.lastRowid = none
    | .getCard => card.id = -1
    | .lastInsertRowid _ => False
    | _ => True

section endings
variable {host : ModHost} {card : VC} {c d : Conn} {p : Plan} {q : Stmt} {r : Result}

theorem invisible_of_restored (failed : saveContact p host card (fresh c) = (some r, fresh d))
    (unlike : r ≠ .success) (tables : d.tables = c.tables) : Invisible host card p c := by
  unfold Invisible
  rw [failed]
  exact ⟨⟨r, rfl, unlike⟩, tables, fun ops =>
    Alike.runOps ⟨fresh_clean d, fresh_clean c, tables⟩ ops⟩

theorem visible_of_success (done : (saveContact p host card (fresh c)).1 = some .success) :
    ¬ Invisible host card p c := by
  rintro ⟨⟨r, result, unlike⟩, -⟩
  rw [done] at result
  exact unlike (Option.some.inj result).symm

theorem visible_of_escape (escapes : (saveContact p host card (fresh c)).1 = none) :
    ¬ Invisible host card p c := by
  rintro ⟨⟨r, result, -⟩, -⟩
  rw [escapes] at result
  cases result

theorem visible_of_spoiled (failed : saveContact p host card (fresh c) = (some r, spoiled d q))
    (params : q.hasParams = true) : ¬ Invisible host card p c := by
  rintro ⟨-, tables, later⟩
  rw [failed] at tables later
  obtain ⟨ops, seen⟩ := spoiled_seen host d c tables params
  exact seen (later ops)

end endings

section failing
variable {host : ModHost} {card : VC} {c d : Conn} {pre post : List Use} {a : Use}

/-- An exception in the `try` block. -/
theorem failing_use (fault : Fault) (script : saveScript host card = pre ++ a :: post)
    (goes : course pre { c with card } = (.finished, d)) (serious : fault ≠ .zeroRows) :
    Invisible host card (single (pre.length + 1) fault) c ↔
      (fault = .raises → a.statement.hasParams = false) := by
  have bound : a.bound = a.statement.hasParams :=
    (statement_saveScript (by rw [script]; exact List.mem_append_right _ List.mem_cons_self)).1
  have fails := transact_fails restoreTables Result.success .error a post
    (t := hand card (fresh c)) serious rfl
    ((fresh_clean c).free _) goes
  rw [← script] at fails
  cases fault with
  | zeroRows => exact absurd rfl serious
  | refused =>
    have restored := invisible_of_restored (p := single (pre.length + 1) .refused)
      (d := restoreTables { c with card } d) fails (by decide) rfl
    exact iff_of_true restored fun raises => by cases raises
  | raises =>
    cases params : a.statement.hasParams with
    | false =>
      have unspoiled : a.spoil .raises (hand card (fresh c)) = hand card (fresh c) := by
        simp [Action.spoil, Action.reject, bound, params]
      rw [unspoiled] at fails
      have restored := invisible_of_restored (p := single (pre.length + 1) .raises)
        (d := restoreTables { c with card } d) fails (by decide) rfl
      exact iff_of_true restored fun _ => rfl
    | true =>
      have left : a.spoil .raises (hand card (fresh c)) = spoiled { c with card } a.statement := by
        simp [Action.spoil, Action.reject, bound, params]
        rfl
      rw [left] at fails
      have seen := visible_of_spoiled (p := single (pre.length + 1) .raises)
        (d := restoreTables { c with card } d) fails params
      exact iff_of_false seen fun harmless => by cases harmless rfl

/-- A step that reports no rows, where the function then goes on to its end. -/
theorem missed_use (script : saveScript host card = pre ++ a :: post)
    (goes : course pre { c with card } = (.finished, d))
    (through : ∃ d', course (pre ++ a.skipped :: post) { c with card } = (.finished, d')) :
    ¬ Invisible host card (single (pre.length + 1) .zeroRows) c := by
  obtain ⟨d', through⟩ := through
  have same := transact_zeroRows restoreTables Result.success .error a post
    (t := hand card (fresh c)) rfl
    ((fresh_clean c).free _) goes
  have succeeds := transact_finished restoreTables Result.success .error
    (t := hand card (fresh c)) rfl ((fresh_clean c).free _) through
  rw [← script, succeeds] at same
  exact visible_of_success (congrArg Prod.fst same)

/-- A step that reports no rows, where the function then gives up. -/
theorem checked_use (script : saveScript host card = pre ++ a :: post)
    (goes : course pre { c with card } = (.finished, d)) (r : Result) (d' : Conn)
    (unlike : r ≠ .success)
    (leaves : course (pre ++ a.skipped :: post) { c with card } = (.left r, d')) :
    Invisible host card (single (pre.length + 1) .zeroRows) c := by
  have same := transact_zeroRows restoreTables Result.success .error a post
    (t := hand card (fresh c)) rfl
    ((fresh_clean c).free _) goes
  have restores := transact_left restoreTables Result.success .error (t := hand card (fresh c)) rfl
    ((fresh_clean c).free _) leaves
  rw [← script, restores] at same
  exact invisible_of_restored (d := restoreTables { c with card } d') same unlike rfl

/-- The statements of the loops. -/
theorem zeroRows_insertProps {w : Writer} {profile : Bool} {read : Int → Int} {ps : List CardProp}
    {i : Nat} (script : saveScript host card = pre ++ a :: post)
    (goes : course pre { c with card } = (.finished, d))
    (prop : a ∈ insertProps w profile read i ps) (rest : ∀ b ∈ post, b.Steady) :
    Invisible host card (single (pre.length + 1) .zeroRows) c ↔
      Harmless card c a.statement .zeroRows := by
  have checked (leaves : ∀ d, a.leave d false = some .error) :
      Invisible host card (single (pre.length + 1) .zeroRows) c := by
    apply checked_use script goes .error d (by decide)
    rw [course_append _ goes]
    simp only [course, Action.skipped, leaves]
  rcases mem_insertProps prop with ⟨p, rfl⟩ | ⟨p, rfl⟩ | rfl | ⟨j, rfl⟩
  · exact iff_of_true (checked fun _ => rfl) trivial
  · exact iff_of_true (checked fun _ => rfl) trivial
  · exact iff_of_true (checked fun _ => rfl) trivial
  · refine iff_of_false (missed_use script goes ?_) id
    rw [course_append _ goes]
    exact course_steady rest d

/-- Those of a new card. -/
theorem zeroRows_createNewContact (new : card.id < 0)
    (split : createNewContact host card = pre ++ a :: post)
    (goes : course pre { c with card } = (.finished, d)) :
    Invisible host card (single (pre.length + 1) .zeroRows) c ↔
      Harmless card c a.statement .zeroRows := by
  have script : saveScript host card = pre ++ a :: post := (if_pos new).trans split
  have steady := steady_insertProps .create (card.owner = card.user) (newCardRead card) card.props 0
  match pre, split with
  | [], split =>
    cases split
    change Invisible host card (single 1 .zeroRows) c ↔
      card.id = -1 ∧ c.tables.findCard c.lastRowid = none
    cases found : c.tables.findCard c.lastRowid with
    | none =>
      by_cases unset : card.id = -1
      · refine iff_of_true (checked_use script goes .error { c with card } (by decide)
          ?_) ⟨unset, rfl⟩
        simp [course, Action.skipped, qCreateCard, qGetCard, use, goOn, found, unset]
      · refine iff_of_false (missed_use script goes ?_) fun harmless => unset harmless.1
        obtain ⟨d', through⟩ := course_steady steady { c with card }
        refine ⟨d', ?_⟩
        simpa [course, Action.skipped, qCreateCard, qGetCard, use, goOn, found, unset] using through
    | some entry =>
      refine iff_of_false (missed_use script goes ?_) fun harmless => by cases harmless.2
      obtain ⟨d', through⟩ := course_steady steady
        { c with card := { card with id := entry.1, updateTs := entry.2.updateTs } }
      refine ⟨d', ?_⟩
      have known : (entry.1 : Int) ≠ -1 := by omega
      simpa [course, Action.skipped, qCreateCard, qGetCard, use, goOn, found, known] using through
  | [_], split =>
    cases split
    change Invisible host card (single 2 .zeroRows) c ↔ card.id = -1
    by_cases unset : card.id = -1
    · refine iff_of_true (checked_use script goes .error d (by decide) ?_) unset
      rw [course_append _ goes]
      cases goes
      simp [course, Action.skipped, qGetCard, use, unset]
    · refine iff_of_false (missed_use script goes ?_) unset
      obtain ⟨d', through⟩ := course_steady steady d
      refine ⟨d', ?_⟩
      rw [course_append _ goes]
      cases goes
      simpa [course, Action.skipped, qGetCard, use, unset] using through
  | _ :: _ :: pre', split =>
    simp only [createNewContact, List.cons_append, List.cons.injEq] at split
    apply zeroRows_insertProps script goes
    · rw [split.2.2]
      exact List.mem_append_right _ List.mem_cons_self
    · intro b hb
      apply steady
      rw [split.2.2]
      exact List.mem_append_right _ (List.mem_cons_of_mem _ hb)

/-- Those of a changed card whose rows the function counts. -/
theorem zeroRows_updateContact (old : ¬ card.id < 0)
    (split : updateContact host card = pre ++ a :: post)
    (goes : course pre { c with card } = (.finished, d)) (counts : a.statement.countsRows = true) :
    Invisible host card (single (pre.length + 1) .zeroRows) c ↔
      Harmless card c a.statement .zeroRows := by
  have script : saveScript host card = pre ++ a :: post := (if_neg old).trans split
  have steady := steady_insertProps .update (card.owner = card.user) id card.props 0
  match pre, split with
  | [], split =>
    cases split
    exact iff_of_true (checked_use script goes .unauthorized { c with card }
      (by decide) rfl) trivial
  | [_], split =>
    cases split
    cases counts
  | [_, _], split =>
    cases split
    cases counts
  | [_, _, _], split =>
    cases split
    cases counts
  | _ :: _ :: _ :: _ :: pre', split =>
    simp only [updateContact, List.cons_append, List.cons.injEq] at split
    apply zeroRows_insertProps script goes
    · rw [split.2.2.2.2]
      exact List.mem_append_right _ List.mem_cons_self
    · intro b hb
      apply steady
      rw [split.2.2.2.2]
      exact List.mem_append_right _ (List.mem_cons_of_mem _ hb)

/-- A statement of the script. -/
theorem failing_script {fault : Fault} (script : saveScript host card = pre ++ a :: post)
    (goes : course pre { c with card } = (.finished, d))
    (counted : fault = .zeroRows → a.statement.countsRows = true) :
    Invisible host card (single (pre.length + 1) fault) c ↔
      Harmless card c a.statement fault := by
  have other : a.statement ≠ .transactionBegin :=
    (statement_saveScript (by rw [script]; exact List.mem_append_right _ List.mem_cons_self)).2
  cases fault with
  | refused =>
    rw [failing_use .refused script goes (by decide)]
    exact iff_of_true nofun other
  | raises =>
    rw [failing_use .raises script goes (by decide)]
    exact ⟨fun harmless => ⟨other, harmless rfl⟩, fun harmless _ => harmless.2⟩
  | zeroRows =>
    by_cases new : card.id < 0
    · exact zeroRows_createNewContact new ((if_pos new).symm.trans script) goes
    · exact zeroRows_updateContact new ((if_neg new).symm.trans script) goes (counted rfl)

/-- An exception of `BEGIN` leaves the function. -/
theorem failing_begin {fault : Fault} (serious : fault ≠ .zeroRows) :
    Invisible host card (single 0 fault) c ↔ Harmless card c .transactionBegin fault := by
  have escapes := transact_begin restoreTables Result.success .error (saveScript host card)
    (hand card (fresh c)) serious
  refine iff_of_false (visible_of_escape (congrArg Prod.fst escapes)) fun harmless => ?_
  cases fault with
  | refused => exact harmless rfl
  | raises => exact harmless.1 rfl
  | zeroRows => exact serious rfl

/-- The `COMMIT` of a script that goes through, or the `ROLLBACK` of one that is left. -/
theorem failing_end {fault : Fault} (serious : fault ≠ .zeroRows) :
    Invisible host card (single ((trace (saveScript host card) { c with card }).length + 1) fault)
      c := by
  rcases course_saveScript host card c.tables c.lastRowid with
    ⟨r', success, goes⟩ | ⟨refused, same, leaves⟩
  · have undone := transact_commit restoreTables Result.success .error
      (t := hand card (fresh c)) serious rfl ((fresh_clean c).free _) goes
    have length := congrArg List.length (trace_finished goes)
    rw [List.length_map] at length
    rw [← length] at undone
    exact invisible_of_restored (d := restoreTables { c with card } _) undone (by decide) rfl
  · have undone := transact_rollback restoreTables Result.success .error
      (t := hand card (fresh c)) serious rfl ((fresh_clean c).free _) leaves
    exact invisible_of_restored (d := restoreTables { c with card } _) undone (by decide) rfl

theorem harmless_end {q : Stmt} {fault : Fault} (serious : fault ≠ .zeroRows)
    (ending : q = .transactionCommit ∨ q = .transactionRollback) : Harmless card c q fault := by
  cases fault with
  | zeroRows => exact absurd rfl serious
  | refused => rcases ending with rfl | rfl <;> exact nofun
  | raises => rcases ending with rfl | rfl <;> exact ⟨nofun, rfl⟩

end failing

/-- A failed write leaves no trace exactly when the failure of that statement is harmless. -/
theorem failed_write_iff (host : ModHost) (card : VC) (c : Conn) (k : Nat) (q : Stmt)
    (fault : Fault) (used : (uses host card c)[k]? = some q)
    (counted : fault = .zeroRows → q.countsRows = true) :
    Invisible host card (single k fault) c ↔ Harmless card c q fault := by
  rw [uses, List.cons_append] at used
  cases k with
  | zero =>
    cases used
    exact failing_begin fun zero => by cases counted zero
  | succ i =>
    rw [List.getElem?_cons_succ] at used
    by_cases inside : i < (trace (saveScript host card) { c with card }).length
    · rw [List.getElem?_append_left inside] at used
      obtain ⟨pre, a, post, d, script, length, goes, rfl⟩ := trace_split used
      rw [← length]
      exact failing_script script goes counted
    · rw [List.getElem?_append_right (Nat.le_of_not_lt inside)] at used
      have last : i = (trace (saveScript host card) { c with card }).length := by
        have bound := (List.getElem?_eq_some_iff.mp used).1
        rw [List.length_singleton] at bound
        omega
      rw [last, Nat.sub_self] at used
      rw [last]
      have ending : q = .transactionCommit ∨ q = .transactionRollback := by
        rw [List.getElem?_cons_zero, Option.some.injEq] at used
        split at used
        · exact .inl used.symm
        · exact .inr used.symm
      have serious : fault ≠ .zeroRows := by
        rintro rfl
        rcases ending with rfl | rfl <;> cases counted rfl
      exact iff_of_true (failing_end serious) (harmless_end serious ending)

def demoHost : ModHost where
  domain := "a.net"
  baseUri := "https://a.net/contacts"
  now := 1700000000
  userInfo := fun _ => 0
  jsonString := some
  base64Decode := some

/-- Card 1 of alice, without properties. -/
def demoConn : Conn where
  tables := Tables.insertCard ⟨AutoRows.empty, Rows.empty, Rows.empty, Rows.empty⟩
    ⟨lit "alice", none, 0⟩
  lastRowid := 1
  card := {}

def demoCard : VC := { id := 1, owner := lit "alice" }

theorem failed_write_iff_prune : (uses demoHost demoCard demoConn)[4]? = some .pruneProperties ∧
    (Invisible demoHost demoCard (single 4 .raises) demoConn ↔
      Harmless demoCard demoConn .pruneProperties .raises) :=
  ⟨by decide +kernel,
    failed_write_iff demoHost demoCard demoConn 4 .pruneProperties .raises (by decide +kernel)
      nofun⟩

/-- The database is busy when alice changes her card: she gets an error, and gets it again
whenever somebody changes a card on this thread. -/
theorem busy_update_stays : (uses demoHost demoCard demoConn)[1]? = some .updateCard ∧
    (saveContact (single 1 .raises) demoHost demoCard (fresh demoConn)).1 = some .error ∧
    ¬ Invisible demoHost demoCard (single 1 .raises) demoConn := by
  refine ⟨by decide +kernel, by decide +kernel, ?_⟩
  rintro ⟨-, -, later⟩
  have replies := congrArg Prod.fst (later [.save demoHost demoCard])
  revert replies
  decide +kernel

end ContactWrites
