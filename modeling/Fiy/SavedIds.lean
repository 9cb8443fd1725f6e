import Fiy.ContactsById
import Fiy.ContactsInvariant

/-!
# The numbers of saved properties

After a card is saved, its properties are told the number of the last inserted row, which
is the one of the link. The properties and the links are numbered by themselves, so the
told numbers are those of the properties only while both tables go on from the same one.
-/

namespace SavedIds

open ByteStrings RowTables ModLibrary ContactCards ContactsStore ContactsAnswers ContactsById
open GuardedRuns ContactsInvariant ContactsMod Store

/-! ## The loop -/

/-- The next number in the table of links. -/
def nextLink (s : Store) (profile : Bool) : Nat :=
  if profile then s.profileCardProperties.nextId else s.cardProperties.nextId

/-- The rows that are added, from a number on. -/
def newRows : Nat → List CardProp → List (Nat × PropertyRow)
  | _, [] => []
  | n, p :: ps => (n, ⟨p.name, p.params, p.value⟩) :: newRows (n + 1) ps

/-- The properties with the numbers they are told, from a number on. -/
def numbered : Nat → List CardProp → List CardProp
  | _, [] => []
  | n, p :: ps => { p with id := n } :: numbered (n + 1) ps

theorem newRows_ids (n : Nat) (ps : List CardProp) :
    (newRows n ps).map Prod.fst = List.range' n ps.length := by
  induction ps generalizing n with
  | nil => rfl
  | cons p ps ih => simp [newRows, ih, List.range'_succ]

theorem numbered_ids (n : Nat) (ps : List CardProp) :
    (numbered n ps).map CardProp.id = (List.range' n ps.length).map fun k : Nat => (k : Int) := by
  induction ps generalizing n with
  | nil => rfl
  | cons p ps ih => simp [numbered, ih, List.range'_succ]

theorem mem_newRows {n : Nat} {ps : List CardProp} {e : Nat × PropertyRow}
    (mem : e ∈ newRows n ps) : n ≤ e.1 ∧ e.1 < n + ps.length := by
  have listed := List.mem_map_of_mem (f := Prod.fst) mem
  rw [newRows_ids, List.mem_range'_1] at listed
  exact listed

section loop
variable (profile : Bool) (cardId : Nat) (p : CardProp) (s : Store)

theorem nextLink_insertProp (issued : cardId ≤ s.cards.sequence) :
    nextLink (s.insertProp profile cardId p issued).2 profile = nextLink s profile + 1 := by
  cases profile
  · exact Rows.nextId_insert _ _
  · exact Rows.nextId_insert _ _

theorem properties_insertProp (issued : cardId ≤ s.cards.sequence) :
    (s.insertProp profile cardId p issued).2.properties =
      s.properties.insert ⟨p.name, p.params, p.value⟩ := by
  cases profile <;> rfl

/-- Links of the card lead to the new property as well. -/
theorem linksTo_insertProp (issued : cardId ≤ s.cards.sequence) (q : Nat) :
    linksTo (s.insertProp profile cardId p issued).2 q (· = cardId) =
      (linksTo s q (· = cardId) || decide (q = s.properties.nextId)) := by
  have new : decide (s.properties.nextId = q) = decide (q = s.properties.nextId) :=
    decide_eq_decide.mpr eq_comm
  cases profile with
  | false =>
    simp only [linksTo, insertProp, insertProperty, insertLink, Bool.false_eq_true, if_false,
      Rows.any_insert, decide_true, Bool.and_true, new]
    rw [Bool.or_right_comm]
  | true =>
    simp only [linksTo, insertProp, insertProperty, insertProfileLink, if_true,
      Rows.any_insert, decide_true, Bool.and_true, new]
    rw [Bool.or_assoc]

/-- What the loop leaves: the told numbers, the rows, and links to the new rows. -/
theorem insertProps_fst (ps : List CardProp) (s : Store) (issued : cardId ≤ s.cards.sequence) :
    (insertProps profile cardId ps s issued).1 = numbered (nextLink s profile) ps := by
  induction ps generalizing s with
  | nil => rfl
  | cons p ps ih =>
    simp only [insertProps, numbered, ih, nextLink_insertProp]
    cases profile <;> rfl

theorem insertProps_properties (ps : List CardProp) (s : Store)
    (issued : cardId ≤ s.cards.sequence) :
    (insertProps profile cardId ps s issued).2.properties.entries =
      s.properties.entries ++ newRows s.properties.nextId ps := by
  induction ps generalizing s with
  | nil => simp [insertProps, newRows]
  | cons p ps ih =>
    simp only [insertProps, newRows, ih, properties_insertProp, Rows.nextId_insert]
    simp [Rows.insert, Rows.push]

theorem linksTo_insertProps (ps : List CardProp) (s : Store)
    (issued : cardId ≤ s.cards.sequence) (q : Nat) :
    linksTo (insertProps profile cardId ps s issued).2 q (· = cardId) =
      (linksTo s q (· = cardId) ||
        decide (s.properties.nextId ≤ q ∧ q < s.properties.nextId + ps.length)) := by
  induction ps generalizing s with
  | nil =>
    have empty : ¬ (s.properties.nextId ≤ q ∧ q < s.properties.nextId + 0) := by omega
    rw [List.length_nil, decide_eq_false empty, Bool.or_false]
    rfl
  | cons p ps ih =>
    simp only [insertProps, ih, linksTo_insertProp, properties_insertProp, Rows.nextId_insert,
      List.length_cons]
    rw [Bool.or_assoc, ← Bool.decide_or]
    congr 2
    rw [eq_iff_iff]
    omega

end loop

/-! ## Saving -/

/-- A card is saved from a store: its properties are added to one without links to it. -/
structure SavedFrom (start : Store) (cardId : Nat) (card : VC) (narrow : Bool) (saved : VC)
    (s' : Store) : Prop where
  id : saved.id = cardId
  owner : saved.owner = card.owner
  props : saved.props = (numbered (nextLink start (card.owner = card.user)) card.props).map
    fun p => if narrow then narrowId p else p
  properties : s'.properties.entries =
    start.properties.entries ++ newRows start.properties.nextId card.props
  links : ∀ q, linksTo s' q (· = cardId) =
    decide (start.properties.nextId ≤ q ∧ q < start.properties.nextId + card.props.length)
  row : ∃ row, (cardId, row) ∈ s'.cards.entries ∧ row.owner = card.owner

theorem savedFrom_insertProps {start : Store} {cardId : Nat} {card saved : VC} {narrow : Bool}
    (issued : cardId ≤ start.cards.sequence) (unlinked : ∀ q, linksTo start q (· = cardId) = false)
    (row : ∃ row, (cardId, row) ∈ start.cards.entries ∧ row.owner = card.owner)
    (id : saved.id = cardId) (owner : saved.owner = card.owner)
    (props : saved.props =
      (insertProps (card.owner = card.user) cardId card.props start issued).1.map
        fun p => if narrow then narrowId p else p) :
    SavedFrom start cardId card narrow saved
      (insertProps (card.owner = card.user) cardId card.props start issued).2 where
  id := id
  owner := owner
  props := by rw [props, insertProps_fst]
  properties := insertProps_properties _ _ _ _ _
  links q := by rw [linksTo_insertProps, unlinked, Bool.false_or]
  row := by rwa [insertProps_cards]

/-- The store the properties are added to: with the new card, or with the changed one and
without what only it had. -/
def prepared (host : ModHost) (s : Store) (card : VC) : Store :=
  if card.id < 0 then s.insertCard ⟨card.owner, userColumn card.user, host.now⟩
  else ((s.updateCard { card with updateTs := host.now } host.now).removeLinks
    (· = card.id.toNat)).pruneProperties

/-- The number of the card. -/
def cardNumber (s : Store) (card : VC) : Nat :=
  if card.id < 0 then s.cards.nextId else card.id.toNat

/-- A number that has not been given has no links. -/
theorem linksTo_insertCard (s : Store) (row : CardRow) (q : Nat) :
    linksTo (s.insertCard row) q (· = s.cards.nextId) = false := by
  have above : ∀ cardId, cardId ≤ s.cards.sequence → cardId ≠ s.cards.nextId := by
    intro cardId issued
    exact Nat.ne_of_lt (Nat.lt_succ_of_le issued)
  simp only [linksTo, Rows.any, Bool.or_eq_false_iff, List.any_eq_false, Bool.and_eq_true,
    decide_eq_true_eq, not_and]
  exact ⟨fun e mem _ => above _ (s.issued e mem), fun e mem _ => above _ (s.issuedProfile e mem)⟩

/-- Links that were removed are gone. -/
theorem linksTo_removeLinks (s : Store) (ofCard : Nat → Bool) (q : Nat) :
    linksTo (s.removeLinks ofCard) q ofCard = false := by
  simp only [linksTo, removeLinks, Rows.any, Rows.filter, Bool.or_eq_false_iff, List.any_eq_false,
    List.mem_filter, Bool.and_eq_true, Bool.not_eq_true', and_imp]
  exact ⟨fun e _ kept both => Bool.false_ne_true (kept.symm.trans both.2),
    fun e _ kept both => Bool.false_ne_true (kept.symm.trans both.2)⟩

theorem savedFrom_createNewContact (host : ModHost) (s : Store) (card : VC) :
    SavedFrom (s.insertCard ⟨card.owner, userColumn card.user, host.now⟩) s.cards.nextId card
      (card.owner = card.user) (s.createNewContact host card).2.1
      (s.createNewContact host card).2.2 := by
  refine savedFrom_insertProps (le_refl _) (linksTo_insertCard s _) ?_ rfl rfl ?_
  · exact ⟨_, AutoRows.mem_insert.mpr (.inr rfl), rfl⟩
  · by_cases profile : card.owner = card.user <;> simp [createNewContact, profile] <;> rfl

theorem savedFrom_updateContact {host : ModHost} {s : Store} {card : VC}
    (success : (s.updateContact host card).1 = .success) :
    SavedFrom ((s.updateCard { card with updateTs := host.now } host.now).removeLinks
        (· = card.id.toNat)).pruneProperties card.id.toNat card false
      (s.updateContact host card).2.1 (s.updateContact host card).2.2 := by
  simp only [updateContact] at success ⊢
  split at success
  next own =>
    simp only [dif_pos own]
    obtain ⟨⟨id, row⟩, mem, isOwn⟩ := List.any_eq_true.mp own
    simp only [isOwnCard, Bool.and_eq_true, decide_eq_true_eq] at isOwn
    obtain rfl : id = card.id.toNat := by omega
    refine savedFrom_insertProps _
      (fun q => linksTo_removeLinks (s.updateCard { card with updateTs := host.now } host.now)
        (· = card.id.toNat) q) ?_ ?_ rfl ?_
    · refine ⟨{ row with user := userColumn card.user, updateTs := host.now },
        AutoRows.mem_modify.mpr ⟨row, mem, if_pos ?_⟩, isOwn.2⟩
      simp only [isOwnCard, isOwn, decide_true, Bool.and_self]
    · change card.id = (card.id.toNat : Int)
      omega
    · simp
  next => cases success

/-- What a successful save leaves. -/
theorem saveContact_savedFrom {host : ModHost} {s : Store} {card : VC}
    (success : (s.saveContact host card).1 = .success) :
    SavedFrom (prepared host s card) (cardNumber s card) card
      (card.id < 0 && card.owner = card.user) (s.saveContact host card).2.1
      (s.saveContact host card).2.2 := by
  by_cases new : card.id < 0
  · simp only [saveContact, prepared, cardNumber, new, if_true, decide_true, Bool.true_and]
    exact savedFrom_createNewContact host s card
  · simp only [saveContact, if_neg new] at success
    simp only [saveContact, prepared, cardNumber, new, if_false, decide_false, Bool.false_and]
    exact savedFrom_updateContact success

/-! ## Numbers that are right -/

/-- The numbers of the saved properties are those of their rows, a later read of the card
gives the same ones, and no two are the same. -/
structure NumbersRight (saved : VC) (s' : Store) : Prop where
  rows : ∀ p ∈ saved.props, ∃ id : Nat, p.id = id ∧
    (id, PropertyRow.mk p.name p.params p.value) ∈ s'.properties.entries ∧
    linksTo s' id (fun cardId => (cardId : Int) = saved.id)
  read : ∃ card, getContact s' { id := saved.id, owner := saved.owner } = (.success, card) ∧
    card.props.map CardProp.id = saved.props.map CardProp.id
  distinct : (saved.props.map CardProp.id).Nodup

/-- The number a property is told, for the one of its link. -/
def toldNumber (narrow : Bool) (n : Nat) : Int := if narrow then getInt n else n

/-- Every told number is the one of the property: the next numbers of both tables are the
same, and no number is too great to be told. -/
def NumbersAgree (start : Store) (profile narrow : Bool) (count : Nat) : Prop :=
  ∀ i < count, toldNumber narrow (nextLink start profile + i) = start.properties.nextId + i

section saved
variable {start s' : Store} {cardId : Nat} {card saved : VC} {narrow : Bool}

theorem SavedFrom.ids (h : SavedFrom start cardId card narrow saved s') :
    saved.props.map CardProp.id =
      (List.range' (nextLink start (card.owner = card.user)) card.props.length).map
        (toldNumber narrow) := by
  have each : (CardProp.id ∘ fun p => if narrow then narrowId p else p) =
      fun p : CardProp => if narrow then getInt p.id else p.id := by
    funext p
    cases narrow <;> rfl
  have numbers := congrArg (List.map fun n : Int => if narrow then getInt n else n)
    (numbered_ids (nextLink start (card.owner = card.user)) card.props)
  rw [List.map_map, List.map_map] at numbers
  rw [h.props, List.map_map, each]
  exact numbers

/-- Properties that are told their own numbers. -/
theorem numbered_of_agree {n m : Nat} {ps : List CardProp}
    (agree : ∀ i < ps.length, toldNumber narrow (n + i) = m + i) :
    ((numbered n ps).map fun p => if narrow then narrowId p else p) = numbered m ps := by
  induction ps generalizing n m with
  | nil => rfl
  | cons p ps ih =>
    have number : toldNumber narrow n = m := by simpa using agree 0 (Nat.succ_pos _)
    have head : (if narrow then narrowId { p with id := (n : Int) } else { p with id := (n : Int) }) =
        { p with id := (m : Int) } := by
      rw [← number]
      cases narrow <;> simp only [toldNumber, narrowId, if_true, Bool.false_eq_true, if_false]
    have rest := ih (n := n + 1) (m := m + 1) fun i inside => by
      have next := agree (i + 1) (Nat.succ_lt_succ inside)
      rw [Nat.add_right_comm, Nat.add_assoc, next]
      omega
    rw [numbered, List.map_cons, rest, numbered, head]

/-- Each of them has its row. -/
theorem row_of_mem_numbered {n : Nat} {ps : List CardProp} {p : CardProp}
    (mem : p ∈ numbered n ps) :
    ∃ id : Nat, p.id = id ∧ (id, PropertyRow.mk p.name p.params p.value) ∈ newRows n ps := by
  induction ps generalizing n with
  | nil => cases mem
  | cons q ps ih =>
    rcases List.mem_cons.mp mem with rfl | mem
    · exact ⟨n, rfl, List.mem_cons_self⟩
    · obtain ⟨id, number, listed⟩ := ih mem
      exact ⟨id, number, List.mem_cons_of_mem _ listed⟩

/-- The properties of the card are the new rows. -/
theorem SavedFrom.linked_rows (h : SavedFrom start cardId card narrow saved s') :
    (s'.properties.filter fun id _ => linksTo s' id (· = cardId)).entries =
      newRows start.properties.nextId card.props := by
  have old : start.properties.entries.filter (fun e => linksTo s' e.1 (· = cardId)) = [] := by
    rw [List.filter_eq_nil_iff]
    intro e mem
    have below : e.1 < start.properties.nextId :=
      Nat.lt_succ_of_le (start.properties.le_lastId mem)
    have outside : ¬ (start.properties.nextId ≤ e.1 ∧
        e.1 < start.properties.nextId + card.props.length) := by omega
    simpa only [h.links, decide_eq_true_eq] using outside
  have new : (newRows start.properties.nextId card.props).filter
      (fun e => linksTo s' e.1 (· = cardId)) = newRows start.properties.nextId card.props := by
    rw [List.filter_eq_self]
    intro e mem
    simpa only [h.links, decide_eq_true_eq] using mem_newRows mem
  change s'.properties.entries.filter (fun e => linksTo s' e.1 (· = cardId)) = _
  rw [h.properties, List.filter_append, old, new, List.nil_append]

/-- A later read finds them. -/
theorem SavedFrom.read (h : SavedFrom start cardId card narrow saved s') :
    ∃ found, getContact s' { id := saved.id, owner := saved.owner } = (.success, found) ∧
      found.props.map CardProp.id =
        (List.range' start.properties.nextId card.props.length).map fun k : Nat => (k : Int) := by
  obtain ⟨row, mem, owner⟩ := h.row
  have stored : ¬ saved.id = -1 := by
    have := h.id
    omega
  have known : (s'.cards.find? fun id row =>
      (id : Int) = saved.id && (saved.owner = [] || row.owner = saved.owner)).isSome := by
    rw [Rows.find?, List.find?_isSome]
    exact ⟨_, mem, by simp [h.id, h.owner, owner]⟩
  obtain ⟨⟨id, row'⟩, found⟩ := Option.isSome_iff_exists.mp known
  have number : id = cardId := by
    have same := List.find?_some found
    simp only [Bool.and_eq_true, decide_eq_true_eq, h.id] at same
    omega
  subst number
  simp only [getContact, if_neg stored, found]
  refine ⟨_, rfl, ?_⟩
  rw [List.nil_append, cardProps, ← newRows_ids start.properties.nextId card.props,
    ← h.linked_rows, List.map_map, List.map_map]
  rfl

/-- The links of the card, by its number as the card has it. -/
theorem SavedFrom.linksTo_id (h : SavedFrom start cardId card narrow saved s') (q : Nat) :
    linksTo s' q (fun id => (id : Int) = saved.id) = linksTo s' q (· = cardId) := by
  have same : (fun id : Nat => decide ((id : Int) = saved.id)) = fun id => decide (id = cardId) := by
    funext id
    rw [decide_eq_decide, h.id]
    omega
  rw [same]

theorem SavedFrom.numbersRight_iff (h : SavedFrom start cardId card narrow saved s') :
    NumbersRight saved s' ↔
      NumbersAgree start (card.owner = card.user) narrow card.props.length := by
  obtain ⟨found, success, ids⟩ := h.read
  have agree : found.props.map CardProp.id = saved.props.map CardProp.id ↔
      NumbersAgree start (card.owner = card.user) narrow card.props.length := by
    rw [ids, h.ids, List.range'_eq_map_range, List.range'_eq_map_range, List.map_map,
      List.map_map, List.map_inj_left, NumbersAgree]
    simp only [List.mem_range, Function.comp_apply, Int.natCast_add, eq_comm]
  constructor
  · rintro ⟨_, ⟨card', success', same⟩, _⟩
    rw [success] at success'
    cases success'
    exact agree.mp same
  · intro numbers
    have same := agree.mpr numbers
    refine ⟨?_, ⟨found, success, same⟩, ?_⟩
    · intro p mem
      rw [h.props, numbered_of_agree numbers] at mem
      obtain ⟨id, number, listed⟩ := row_of_mem_numbered mem
      refine ⟨id, number, ?_, ?_⟩
      · rw [h.properties]
        exact List.mem_append_right _ listed
      · rw [h.linksTo_id, h.links]
        exact decide_eq_true (mem_newRows listed)
    · rw [← same, ids]
      have apart : (List.range' start.properties.nextId card.props.length).Nodup :=
        List.nodup_range'
      exact List.pairwise_map.mpr (apart.imp fun other same => other (Int.ofNat_inj.mp same))


end saved

/-- After a save, the numbers are right when both tables went on from the same one, and a new
profile has none that is too great. -/
theorem saved_numbers_iff {host : ModHost} {s : Store} {card : VC}
    (success : (s.saveContact host card).1 = .success) :
    NumbersRight (s.saveContact host card).2.1 (s.saveContact host card).2.2 ↔
      NumbersAgree (prepared host s card) (card.owner = card.user)
        (card.id < 0 && card.owner = card.user) card.props.length :=
  (saveContact_savedFrom success).numbersRight_iff

/-- Alice's first card is of somebody else. -/
def firstCard : Text := "BEGIN:VCARD\nTEL:2\nEND:VCARD"

def firstSaved : Store :=
  next Store.empty (.save ContactsInvariant.demoHost "alice" firstCard)

/-- Her profile comes second. -/
def profileSaved : Result × VC × Store :=
  firstSaved.saveContact ContactsInvariant.demoHost
    (posted ContactsInvariant.demoHost "alice" demoCard)

/-- Its property is the second one, and is told to be the first. -/
theorem second_property_first :
    Run Step Store.empty [.save ContactsInvariant.demoHost "alice" firstCard] firstSaved ∧
      profileSaved.1 = .success ∧
      profileSaved.2.1.props.map CardProp.id = [1] ∧
      profileSaved.2.2.properties.entries = [(1, ⟨"TEL", [], "2"⟩), (2, ⟨"TEL", [], "1"⟩)] ∧
      ¬ NumbersRight profileSaved.2.1 profileSaved.2.2 := by
  refine ⟨.cons rfl (.refl _), by decide +kernel, by decide +kernel, by decide +kernel, ?_⟩
  intro right
  obtain ⟨card, found, same⟩ := right.read
  have later := (congrArg (fun r => r.2.props.map CardProp.id) found).trans same
  exact absurd later (by decide +kernel)

def firstPosted : VC := posted ContactsInvariant.demoHost "alice" firstCard

/-- The numbers of the first card were right. -/
theorem saved_numbers_iff_first :
    NumbersRight (Store.empty.saveContact ContactsInvariant.demoHost firstPosted).2.1
        (Store.empty.saveContact ContactsInvariant.demoHost firstPosted).2.2 ↔
      NumbersAgree (prepared ContactsInvariant.demoHost Store.empty firstPosted)
        (firstPosted.owner = firstPosted.user)
        (firstPosted.id < 0 && firstPosted.owner = firstPosted.user) firstPosted.props.length :=
  saved_numbers_iff (by decide +kernel)

end SavedIds
