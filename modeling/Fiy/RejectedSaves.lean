import Fiy.ContactsAnswers

/-!
# Posted cards the parser rejects

The handler of `/save` ignores what the parser returns, and saves the card as far as it
was read. So a card that is rejected is created or overwritten all the same; only one
whose number is not of a card of the requester is refused.
-/

namespace RejectedSaves

open ByteStrings WebText RowTables ModConnectors ModLibrary ContactCards ContactsStore ContactsMod
open ContactsAnswers

/-! ## The number of a card -/

/-- The number a line gives to its card. -/
def uidOf (line : Text) : Option Int :=
  match cut 58 line with
  | none => none
  | some (field, value) =>
    if field.takeWhile (· ≠ 59) = "UID" then stoll (cstr value) else none

/-- The lines that are read: up to the first one without a colon, if it is a card at all. -/
def readLines (body : Text) : List Text :=
  if lit "BEGIN:VCARD" <+: trim body then
    (VC.cardLines (VC.unfoldLines (trim body))).takeWhile (58 ∈ ·)
  else []

/-- The last number among them, and -1 without one. -/
def givenId (body : Text) : Int := ((readLines body).filterMap uidOf).getLast?.getD (-1)

theorem parseLine_eq_none_iff {host : ModHost} {card : VC} {line : Text} :
    VC.parseLine host card line = none ↔ 58 ∉ line := by
  rw [← cut_eq_none_iff, VC.parseLine]
  cases cut 58 line with
  | none => simp
  | some found =>
    simp only [reduceCtorEq, iff_false]
    intro missing
    repeat' split at missing
    all_goals cases missing

/-- Only a `UID` line changes the number. -/
theorem parseLine_id {host : ModHost} {card card' : VC} {line : Text}
    (read : VC.parseLine host card line = some card') :
    card'.id = (uidOf line).getD card.id := by
  simp only [VC.parseLine] at read
  cases found : cut 58 line with
  | none =>
    rw [found] at read
    cases read
  | some parts =>
    simp only [uidOf, found] at read ⊢
    by_cases uid : parts.1.takeWhile (· ≠ 59) = "UID"
    · have kept : ¬ lit "UID" ∈ VC.skippedNames := by decide
      simp only [uid, if_neg kept, if_true] at read ⊢
      cases read
      rfl
    · simp only [if_neg uid, Option.getD_none] at read ⊢
      repeat' split at read
      all_goals
        cases read
        rfl

theorem parseLines_id (host : ModHost) (lines : List Text) (card : VC) :
    (VC.parseLines host card lines).2.id =
      ((lines.takeWhile (58 ∈ ·)).filterMap uidOf).getLast?.getD card.id := by
  induction lines generalizing card with
  | nil => rfl
  | cons line lines ih =>
    rw [VC.parseLines]
    cases read : VC.parseLine host card line with
    | none =>
      have plain := parseLine_eq_none_iff.mp read
      rw [List.takeWhile_cons_of_neg (by simpa using plain)]
      rfl
    | some card' =>
      have colon : 58 ∈ line := by
        by_contra plain
        rw [parseLine_eq_none_iff.mpr plain] at read
        cases read
      rw [List.takeWhile_cons_of_pos (by simpa using colon)]
      simp only [ih, parseLine_id read, List.filterMap_cons]
      cases uidOf line with
      | none => rfl
      | some id =>
        rw [List.getLast?_cons]
        rfl

theorem posted_id (host : ModHost) (requester body : Text) :
    (posted host requester body).id = givenId body := by
  rw [posted, VC.parse, givenId, readLines]
  split
  · exact parseLines_id host _ _
  · rfl

/-! ## Rejected cards -/

/-- The request of a user of this instance. -/
def saveRequest (requester body : Text) (headers : Option Text) : ModRequest where
  method := .post
  path := "/save"
  body := body
  domain := none
  user := some requester
  headers := headers

section requests
variable (site : Site) (host : ModHost) (s : Store) (requester body : Text) (headers : Option Text)

/-- The database is as before, and the response is an error. -/
def Harmless : Prop :=
  let (handled, s') := ContactsAnswers.handleRequest site host s (saveRequest requester body headers)
  s' = s ∧ ∃ res, handled = .ok [.respond res] ∧ 400 ≤ res.status

theorem handle_save :
    ContactsAnswers.handleRequest site host s (saveRequest requester body headers) =
      (relayed .profile (.ok (save host s requester body).1), (save host s requester body).2) :=
  rfl

/-- The requester has no card of this number. -/
def NoOwnCard (s : Store) (requester : Text) (id : Int) : Prop :=
  ∀ e ∈ s.cards.entries, (e.1 : Int) = id → e.2.owner ≠ requester

instance (s : Store) (requester : Text) (id : Int) : Decidable (NoOwnCard s requester id) :=
  List.decidableBAll _ s.cards.entries

theorem not_noOwnCard_iff {s : Store} {requester : Text} {id : Int} :
    s.cards.any (Store.isOwnCard id requester) = true ↔ ¬ NoOwnCard s requester id := by
  simp only [NoOwnCard, Rows.any, List.any_eq_true, Store.isOwnCard, Bool.and_eq_true,
    decide_eq_true_eq, not_forall, ne_eq, not_not, exists_prop]

/-- A card without a number is created, and one with the number of an own card overwritten. -/
theorem saveContact_posted :
    s.saveContact host (posted host requester body) =
      (if 0 ≤ givenId body ∧ NoOwnCard s requester (givenId body) then
        (.unauthorized, { posted host requester body with updateTs := host.now }, s)
      else (.success, (s.saveContact host (posted host requester body)).2)) := by
  have id_ := posted_id host requester body
  have owner := posted_owner host requester body
  simp only [Store.saveContact, Store.createNewContact, Store.updateContact, id_, owner,
    not_noOwnCard_iff]
  by_cases stored : givenId body < 0
  · simp only [if_pos stored, not_le.mpr stored, false_and, if_false]
  · simp only [if_neg stored, not_lt.mp stored, true_and]
    by_cases none_ : NoOwnCard s requester (givenId body)
    · simp only [none_, not_true_eq_false, dite_false, if_true]
    · simp only [none_, not_false_eq_true, dite_true, if_false]

theorem harmless_iff : Harmless site host s requester body headers ↔
    0 ≤ givenId body ∧ NoOwnCard s requester (givenId body) := by
  have saved := saveContact_posted host s requester body
  simp only [Harmless, handle_save, save]
  split at saved
  next refused =>
    rw [saved]
    exact iff_of_true ⟨rfl, _, rfl, by simp [respond]⟩ refused
  next accepted =>
    rw [saved]
    refine iff_of_false ?_ accepted
    rintro ⟨_, res, answer, error⟩
    simp only [relayed, List.map_cons, List.map_nil, Effect.ofMod, Except.ok.injEq,
      List.cons.injEq, and_true, ContactsAnswers.Effect.respond.injEq] at answer
    rw [← answer] at error
    simp [respond] at error

/-- A rejected card is refused when it names a number, and that of no card of the requester;
otherwise it is saved. -/
theorem rejected_save_iff :
    ((VC.parse host { owner := requester } body).1 = false →
        Harmless site host s requester body headers) ↔
      (VC.parse host { owner := requester } body).1 = true ∨
        0 ≤ givenId body ∧ NoOwnCard s requester (givenId body) := by
  rw [harmless_iff, ← Bool.not_eq_false, imp_iff_not_or]

end requests

/-- Alice keeps a card with a telephone number. -/
def alicesCard : Store :=
  (Store.empty.saveContact demoHost
    { owner := "alice", props := [⟨-1, "TEL", [], "1", 0⟩] }).2.2

/-- An edit of it with a line that is none. -/
def brokenEdit : Text := "BEGIN:VCARD\nUID:1\nTEL\nEND:VCARD"

/-- The number is gone, and the response is no error. -/
theorem broken_edit_saved :
    (VC.parse demoHost { owner := "alice" } brokenEdit).1 = false ∧
      alicesCard.properties.entries ≠ [] ∧
      (save demoHost alicesCard "alice" brokenEdit).2.properties.entries = [] ∧
      ¬ Harmless demoSite demoHost alicesCard "alice" brokenEdit none := by
  refine ⟨by decide +kernel, by decide +kernel, by decide +kernel, ?_⟩
  rw [harmless_iff]
  decide +kernel

end RejectedSaves
