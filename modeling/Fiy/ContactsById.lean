import Fiy.ContactsAnswers
import Fiy.DecimalTexts

/-!
# Cards by their number

`GET /id/` and `DELETE /delete/`. The result of `get_contact` is an enumeration whose
success is 0, and the handler takes it as a truth value. The path of a deletion keeps a
slash in front of the number, so nothing is ever deleted.
-/

namespace ContactsById

open ByteStrings DecimalTexts RowTables ModConnectors ModLibrary ContactCards ContactsStore
open ContactsMod ContactsAnswers

/-! ## The database with the shared cards -/

/-- A row of `SharedCards`. -/
structure ShareRow where
  cardId : Int
  sendingUser : Text
  acceptUser : Text
  deriving DecidableEq, Repr

structure Database where
  store : Store
  shared : List ShareRow

/-- A request as it changes the database. Of the statements it can reach, only those of
`delete_contact` change the shared cards. -/
def Database.handle (site : Site) (host : ModHost) (db : Database) (req : ModRequest) :
    Handled × Database :=
  let (handled, store) := handleRequest site host db.store req
  (handled, { db with store })

/-- `delete_contact` on all tables. -/
def Database.deleteContact (db : Database) (owner : Text) (id : Int) :
    Except Text (Store.Result × Database) :=
  match db.store.deleteContact owner id with
  | .error message => .error message
  | .ok (.success, store) =>
    .ok (.success, { store, shared := db.shared.filter fun share => share.cardId ≠ id })
  | .ok (result, store) => .ok (result, { db with store })

/-- Its first statement names a column that the table of cards does not have. -/
theorem deleteContact_error (db : Database) (owner : Text) (id : Int) :
    db.deleteContact owner id = .error "no such column: cardId" := rfl

/-! ## What is asked for -/

/-- The row of a card the user owns. -/
def ownCard (s : Store) (owner : Text) (n : Int) : Option (Nat × CardRow) :=
  s.cards.find? (Store.isOwnCard n owner)

/-- A link of either kind. -/
def linksTo (s : Store) (propertyId : Nat) (ofCard : Nat → Bool) : Bool :=
  s.cardProperties.any (fun _ link => link.propertyId = propertyId && ofCard link.cardId) ||
    s.profileCardProperties.any fun _ link => link.propertyId = propertyId && ofCard link.cardId

/-- The card with exactly its properties. -/
def storedCard (s : Store) (owner : Text) (id : Nat) (row : CardRow) : VC where
  id := id
  owner := owner
  user := row.user.getD []
  updateTs := row.updateTs
  props := Store.cardProps (s.properties.filter fun p _ => linksTo s p (· = id))

/-- The database without a card: its links, its shares and the properties that only it
used are gone as well. -/
def Database.without (db : Database) (n : Int) : Database where
  store :=
    let s := (db.store.removeLinks fun id => (id : Int) = n).filterCards fun id _ => (id : Int) ≠ n
    { s with properties := db.store.properties.filter fun p _ =>
        !linksTo db.store p (fun id => (id : Int) = n) ||
          linksTo db.store p (fun id => (id : Int) ≠ n) }
  shared := db.shared.filter fun share => share.cardId ≠ n

section requests
variable (site : Site) (host : ModHost) (db : Database) (user : Text) (n : Int)

def getRequest : ModRequest where
  method := .get
  path := lit "/id/" ++ decimalInt n
  body := []
  domain := none
  user := some user
  headers := none

def deleteRequest : ModRequest where
  method := .other 1
  path := lit "/delete/" ++ decimalInt n
  body := []
  domain := none
  user := some user
  headers := none

/-- `GET /id/n` shows the card to its owner, and is not found otherwise. -/
def GetRight : Prop :=
  match ownCard db.store user n with
  | some (id, row) => (db.handle site host (getRequest user n)).1 =
      reply 200 "Content-Type: text/vcard" ((storedCard db.store user id row).toVcard host)
  | none => ∃ res, (db.handle site host (getRequest user n)).1 = .ok [.respond res] ∧
      res.status = 404

/-- `DELETE /delete/n` removes the card of its owner, and nothing otherwise. -/
def DeleteRight : Prop :=
  (db.handle site host (deleteRequest user n)).2 =
    if (ownCard db.store user n).isSome then db.without n else db

/-! ## What the requests do -/

theorem handle_get :
    (db.handle site host (getRequest user n)).1 = getCard host db.store user (decimalInt n) :=
  rfl

theorem handle_delete :
    db.handle site host (deleteRequest user n) = (reply 400 [] "Invalid contact ID", db) :=
  rfl

theorem ownCard_isSome_iff {s : Store} :
    (ownCard s user n).isSome ↔ ∃ e ∈ s.cards.entries, (e.1 : Int) = n ∧ e.2.owner = user := by
  simp only [ownCard, Rows.find?, List.find?_isSome, Store.isOwnCard, Bool.and_eq_true,
    decide_eq_true_eq]

/-- The number as the handler reads it. -/
theorem stoll_decimalInt : stoll (decimalInt n) =
    if -9223372036854775808 ≤ n ∧ n ≤ 9223372036854775807 then some n else none := by
  rw [stoll, strtolValue_decimalInt, Option.filter_some]
  simp only [decide_eq_true_eq]

/-- The row `get_contact` looks for: of anybody, when the name of the user is empty. -/
def Looked (s : Store) : Prop :=
  ∃ e ∈ s.cards.entries, (e.1 : Int) = n ∧ (user = [] ∨ e.2.owner = user)

instance (s : Store) : Decidable (Looked user n s) :=
  inferInstanceAs (Decidable (∃ e ∈ s.cards.entries, _))

theorem looked_iff {s : Store} : Looked user n s ↔ (s.cards.find? fun id row =>
    (id : Int) = n && (user = [] || row.owner = user)).isSome := by
  simp only [Looked, Rows.find?, List.find?_isSome, Bool.and_eq_true, Bool.or_eq_true,
    decide_eq_true_eq]

/-- A card that is found is not shown, and only such a card is not found. -/
theorem getCard_status (s : Store) :
    ∃ res, getCard host s user (decimalInt n) = .ok [.respond res] ∧
      (res.status = 404 ↔ n ≤ 9223372036854775807 ∧ Looked user n s) ∧
      (Looked user n s → res.status ≠ 200) := by
  simp only [getCard, stoll_decimalInt, getContact]
  by_cases looked : Looked user n s
  · obtain ⟨e, _, number, _⟩ := id looked
    obtain ⟨found, row⟩ := Option.isSome_iff_exists.mp ((looked_iff user n).mp looked)
    have stored : ¬ n = -1 := by omega
    have low : -9223372036854775808 ≤ n := by omega
    by_cases fits : n ≤ 9223372036854775807
    · simp only [low, fits, and_self, if_true, if_neg stored, row]
      exact ⟨_, rfl, by simp [respond, looked], fun _ => by simp [respond]⟩
    · simp only [fits, and_false, if_false]
      exact ⟨_, rfl, by simp [respond], fun _ => by simp [respond]⟩
  · have missing : (s.cards.find? fun id row =>
        (id : Int) = n && (user = [] || row.owner = user)) = none :=
      Option.not_isSome_iff_eq_none.mp (mt (looked_iff user n).mpr looked)
    simp only [looked, and_false, iff_false, false_imp_iff, and_true]
    by_cases fits : -9223372036854775808 ≤ n ∧ n ≤ 9223372036854775807
    · simp only [if_pos fits]
      by_cases unstored : n = -1
      · simp only [if_pos unstored]
        exact ⟨_, rfl, by simp [respond]⟩
      · simp only [if_neg unstored, missing]
        exact ⟨_, rfl, by simp [respond]⟩
    · simp only [if_neg fits]
      exact ⟨_, rfl, by simp [respond]⟩

/-- A number belongs to one card. -/
theorem row_unique {s : Store} {e e' : Nat × CardRow} {n : Int} (mem : e ∈ s.cards.entries)
    (mem' : e' ∈ s.cards.entries) (number : (e.1 : Int) = n) (number' : (e'.1 : Int) = n) :
    e.2 = e'.2 := by
  have same : e'.1 = e.1 := by omega
  exact s.cards.unique (mem : (e.1, e.2) ∈ s.cards.entries)
    (same ▸ mem' : (e.1, e'.2) ∈ s.cards.entries)

/-- Getting a card is right only for nobody, who owns none, where somebody owns it. -/
theorem getRight_iff : GetRight site host db user n ↔
    user = [] ∧ n ≤ 9223372036854775807 ∧
      ∃ e ∈ db.store.cards.entries, (e.1 : Int) = n ∧ e.2.owner ≠ [] := by
  obtain ⟨res, answer, notFound, shown⟩ := getCard_status host user n db.store
  simp only [GetRight, handle_get, answer]
  cases own : ownCard db.store user n with
  | some found =>
    obtain ⟨e, mem, number, owner⟩ := (ownCard_isSome_iff user n).mp (by rw [own]; rfl)
    constructor
    · intro right
      have status : res.status = 200 := by
        simp only [reply, Except.ok.injEq, List.cons.injEq, and_true,
          ContactsAnswers.Effect.respond.injEq] at right
        rw [right]
        rfl
      exact absurd status (shown ⟨e, mem, number, .inr owner⟩)
    · rintro ⟨rfl, _, e', mem', number', other⟩
      exact absurd owner (row_unique mem mem' number number' ▸ other)
  | none =>
    have notOwned : ∀ e ∈ db.store.cards.entries, (e.1 : Int) = n → e.2.owner ≠ user :=
      fun e mem number owner => by
        have := (ownCard_isSome_iff user n).mpr ⟨e, mem, number, owner⟩
        rw [own] at this
        cases this
    have asked : (∃ res', Except.ok (ε := Fault) [Effect.respond res] = .ok [.respond res'] ∧
        res'.status = 404) ↔ res.status = 404 := by simp
    rw [asked, notFound, Looked]
    constructor
    · rintro ⟨fits, e, mem, number, nobody | owner⟩
      · exact ⟨nobody, fits, e, mem, number, nobody ▸ notOwned e mem number⟩
      · exact absurd owner (notOwned e mem number)
    · rintro ⟨nobody, fits, e, mem, number, _⟩
      exact ⟨fits, e, mem, number, .inl nobody⟩

theorem deleteRight_iff : DeleteRight site host db user n ↔ ¬ (ownCard db.store user n).isSome := by
  rw [DeleteRight, handle_delete]
  split
  next own =>
    simp only [own, not_true_eq_false, iff_false]
    intro same
    obtain ⟨e, mem, number, _⟩ := (ownCard_isSome_iff user n).mp own
    have kept : e ∈ (db.without n).store.cards.entries := same ▸ mem
    simp [Database.without, Store.filterCards, number] at kept
  next other => simp [other]

/-- Both requests are right only for nobody, and where somebody owns the card; deleting is
right for those who do not own it. -/
theorem access_by_id_iff :
    (GetRight site host db user n ∧ DeleteRight site host db user n ↔
      user = [] ∧ n ≤ 9223372036854775807 ∧
        ∃ e ∈ db.store.cards.entries, (e.1 : Int) = n ∧ e.2.owner ≠ []) ∧
    (DeleteRight site host db user n ↔ ¬ (ownCard db.store user n).isSome) := by
  refine ⟨?_, deleteRight_iff site host db user n⟩
  rw [getRight_iff, deleteRight_iff]
  constructor
  · exact And.left
  · rintro ⟨rfl, fits, e, mem, number, other⟩
    refine ⟨⟨rfl, fits, e, mem, number, other⟩, fun own => ?_⟩
    obtain ⟨e', mem', number', owner⟩ := (ownCard_isSome_iff [] n).mp own
    exact absurd owner (row_unique mem mem' number number' ▸ other)

end requests

/-- Alice keeps one card of somebody without an account. -/
def alicesCards : Database where
  store := (Store.empty.saveContact demoHost { owner := "alice" }).2.2
  shared := []

/-- She can neither see nor delete it. -/
theorem alices_card_unreachable :
    (ownCard alicesCards.store "alice" 1).isSome ∧
      (alicesCards.handle demoSite demoHost (getRequest "alice" 1)).1 =
        reply 404 [] "No card with given id" ∧
      ¬ GetRight demoSite demoHost alicesCards "alice" 1 ∧
      ¬ DeleteRight demoSite demoHost alicesCards "alice" 1 := by
  refine ⟨by decide, by decide, ?_, ?_⟩
  · rw [getRight_iff]
    decide
  · rw [deleteRight_iff]
    decide

end ContactsById
