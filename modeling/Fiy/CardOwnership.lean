import Fiy.GuardedRuns
import Fiy.SavedIds

/-!
# Whose cards a request changes

A save is for a card of the user who posts it, a deletion for the cards of the user who is
deleted. Nothing else changes a card, whatever is posted and whoever asks: the one row that
a user gets from others is an empty profile, when it is asked for. New properties take
numbers that may have been given before, so this rests on links never being left behind.
-/

namespace CardOwnership

open ByteStrings RowTables GuardedRuns ModConnectors ModLibrary ContactCards ContactsStore
open ContactsMod ContactsAnswers ContactsById SavedIds Store
open ContactsInvariant hiding Event next Step demoHost

/-- All links lead to properties. -/
structure Whole (s : Store) : Prop where
  contact : ∀ e ∈ s.cardProperties.entries, ∃ row, (e.2.propertyId, row) ∈ s.properties.entries
  profile : ∀ e ∈ s.profileCardProperties.entries,
    ∃ row, (e.2.propertyId, row) ∈ s.properties.entries

/-- Some cards are what they were: their rows, their links and the properties of these. -/
structure Same (mine : Nat → Bool) (s t : Store) : Prop where
  cards : t.cards.entries.filter (fun e => mine e.1) = s.cards.entries.filter fun e => mine e.1
  contact : t.cardProperties.entries.filter (fun e => mine e.2.cardId) =
    s.cardProperties.entries.filter fun e => mine e.2.cardId
  profile : t.profileCardProperties.entries.filter (fun e => mine e.2.cardId) =
    s.profileCardProperties.entries.filter fun e => mine e.2.cardId
  properties : t.properties.entries.filter (fun e => linksTo s e.1 mine) =
    s.properties.entries.filter fun e => linksTo s e.1 mine

section same
variable {mine : Nat → Bool} {s t u : Store}

theorem linksTo_eq (s : Store) (mine : Nat → Bool) (q : Nat) : linksTo s q mine =
    ((s.cardProperties.entries.filter fun e => mine e.2.cardId).any (·.2.propertyId = q) ||
      (s.profileCardProperties.entries.filter fun e => mine e.2.cardId).any
        (·.2.propertyId = q)) := by
  simp only [linksTo, Rows.any, List.any_filter]
  congr 2 <;> (funext e; exact Bool.and_comm _ _)

theorem Same.linked (same : Same mine s t) (q : Nat) :
    linksTo t q mine = linksTo s q mine := by
  rw [linksTo_eq, linksTo_eq, same.contact, same.profile]

theorem Same.refl (mine : Nat → Bool) (s : Store) : Same mine s s := ⟨rfl, rfl, rfl, rfl⟩

theorem Same.trans (first : Same mine s t) (second : Same mine t u) : Same mine s u := by
  refine ⟨second.cards.trans first.cards, second.contact.trans first.contact,
    second.profile.trans first.profile, ?_⟩
  have properties := second.properties
  simp only [first.linked] at properties
  exact properties.trans first.properties

/-- A property is linked by some of the cards. -/
theorem linksTo_iff (s : Store) (mine : Nat → Bool) (q : Nat) : linksTo s q mine = true ↔
    (∃ e ∈ s.cardProperties.entries, e.2.propertyId = q ∧ mine e.2.cardId = true) ∨
      ∃ e ∈ s.profileCardProperties.entries, e.2.propertyId = q ∧ mine e.2.cardId = true := by
  simp [linksTo, Rows.any]

theorem linksTo_mono {mine' : Nat → Bool} (fewer : ∀ n, mine' n = true → mine n = true) {q : Nat}
    (linked : linksTo s q mine' = true) : linksTo s q mine = true := by
  rw [linksTo_iff] at linked ⊢
  rcases linked with ⟨e, mem, is_, of_⟩ | ⟨e, mem, is_, of_⟩
  · exact Or.inl ⟨e, mem, is_, fewer _ of_⟩
  · exact Or.inr ⟨e, mem, is_, fewer _ of_⟩

/-- What is selected of a selection. -/
theorem filter_of_filter {α : Type} {l l' : List α} {p q : α → Bool}
    (same : l.filter p = l'.filter p) (fewer : ∀ a, q a = true → p a = true) :
    l.filter q = l'.filter q := by
  have twice (l : List α) : l.filter q = (l.filter p).filter q := by
    rw [List.filter_filter]
    refine List.filter_congr fun a _ => ?_
    cases picked : q a
    · rfl
    · rw [fewer a picked, Bool.and_self]
  rw [twice, same, ← twice]

theorem Same.mono (same : Same mine s t) {mine' : Nat → Bool}
    (fewer : ∀ n, mine' n = true → mine n = true) : Same mine' s t where
  cards := filter_of_filter same.cards fun e => fewer e.1
  contact := filter_of_filter same.contact fun e => fewer e.2.cardId
  profile := filter_of_filter same.profile fun e => fewer e.2.cardId
  properties := filter_of_filter same.properties fun _ => linksTo_mono fewer

/-- The properties of such a card are read as they were. -/
theorem Same.contactProps_eq (same : Same mine s t) {n : Nat} (own : mine n = true) :
    contactProps t n = contactProps s n := by
  have one : Same (· = n) s t := same.mono fun m is_ => (of_decide_eq_true is_) ▸ own
  have linked (s : Store) (q : Nat) : s.cardProperties.any (fun _ link => link.propertyId = q &&
      link.cardId = n) = (s.cardProperties.entries.filter fun e => e.2.cardId = n).any
        (·.2.propertyId = q) := by
    rw [Rows.any, List.any_filter]
    congr 1
    funext e
    exact Bool.and_comm _ _
  simp only [contactProps, linked, one.contact]
  refine congrArg _ (Rows.ext (filter_of_filter one.properties ?_))
  intro e picked
  dsimp only at picked
  rw [linksTo_eq, picked, Bool.true_or]

theorem flatMap_filter_eq {α β : Type} {l : List α} {f : α → List β} {p : α → Bool}
    (nothing : ∀ a, p a = false → f a = []) : (l.filter p).flatMap f = l.flatMap f := by
  induction l with
  | nil => rfl
  | cons a l ih =>
    cases picked : p a with
    | true => rw [List.filter_cons_of_pos picked, List.flatMap_cons, List.flatMap_cons, ih]
    | false =>
      rw [List.filter_cons_of_neg (by simp [picked]), List.flatMap_cons, nothing a picked, ih]
      rfl

theorem profileProps_linked (s : Store) (n : Nat) : profileProps s n =
    (s.properties.entries.filter fun e => linksTo s e.1 (· = n)).flatMap fun e =>
      ((s.profileCardProperties.entries.filter fun link => link.2.cardId = n).filter
        fun link => link.2.propertyId = e.1).map fun link =>
          { id := e.1, name := e.2.name, params := e.2.params, value := e.2.value,
            visibility := link.2.visibility } := by
  rw [flatMap_filter_eq]
  · simp only [profileProps, List.filter_filter]
  · intro e unlinked
    rw [linksTo_eq, Bool.or_eq_false_iff] at unlinked
    rw [List.filter_eq_nil_iff.mpr (List.any_eq_false.mp unlinked.2), List.map_nil]

theorem Same.profileProps_eq (same : Same mine s t) {n : Nat} (own : mine n = true) :
    profileProps t n = profileProps s n := by
  have one : Same (· = n) s t := same.mono fun m is_ => (of_decide_eq_true is_) ▸ own
  rw [profileProps_linked, profileProps_linked, one.profile]
  simp only [one.linked, one.properties]

end same

/-! ## Statements -/

section statements
variable {mine : Nat → Bool} {s : Store}

theorem Whole.lt_nextId (whole : Whole s) {q : Nat} (linked : linksTo s q mine = true) :
    q < s.properties.nextId := by
  obtain ⟨row, mem⟩ : ∃ row, (q, row) ∈ s.properties.entries := by
    rcases (linksTo_iff s mine q).mp linked with ⟨e, mem, rfl, -⟩ | ⟨e, mem, rfl, -⟩
    · exact whole.contact e mem
    · exact whole.profile e mem
  exact Nat.lt_succ_of_le (s.properties.le_lastId mem)

theorem filter_snoc {α : Type} (l : List α) {a : α} {p : α → Bool} (other : p a = false) :
    (l ++ [a]).filter p = l.filter p := by
  rw [List.filter_append, List.filter_singleton, other]
  exact List.append_nil _

theorem same_insertCard (row : CardRow) (other : mine s.cards.nextId = false) :
    Same mine s (s.insertCard row) :=
  ⟨filter_snoc s.cards.entries other, rfl, rfl, rfl⟩

theorem Whole.insertCard (whole : Whole s) (row : CardRow) : Whole (s.insertCard row) :=
  ⟨whole.contact, whole.profile⟩

/-- The number of a new property is linked by nothing. -/
theorem same_insertProp (whole : Whole s) {profile : Bool} {cardId : Nat} (p : CardProp)
    (issued : cardId ≤ s.cards.sequence) (other : mine cardId = false) :
    Same mine s (s.insertProp profile cardId p issued).2 := by
  have fresh : linksTo s s.properties.nextId mine = false := by
    rw [← Bool.not_eq_true]
    exact fun linked => Nat.lt_irrefl _ (whole.lt_nextId linked)
  have properties : (s.properties.insert ⟨p.name, p.params, p.value⟩).entries.filter
      (fun e => linksTo s e.1 mine) = s.properties.entries.filter fun e => linksTo s e.1 mine :=
    filter_snoc s.properties.entries fresh
  cases profile with
  | false => exact ⟨rfl, filter_snoc s.cardProperties.entries other, rfl, properties⟩
  | true => exact ⟨rfl, rfl, filter_snoc s.profileCardProperties.entries other, properties⟩

theorem Whole.insertProp (whole : Whole s) {profile : Bool} {cardId : Nat} (p : CardProp)
    (issued : cardId ≤ s.cards.sequence) : Whole (s.insertProp profile cardId p issued).2 := by
  have old {q : Nat} (there : ∃ row, (q, row) ∈ s.properties.entries) :
      ∃ row, (q, row) ∈ (s.properties.insert ⟨p.name, p.params, p.value⟩).entries :=
    there.imp fun _ mem => Rows.mem_insert.mpr (Or.inl mem)
  have new : ∃ row, (s.properties.nextId, row) ∈
      (s.properties.insert ⟨p.name, p.params, p.value⟩).entries :=
    ⟨_, Rows.mem_insert.mpr (Or.inr rfl)⟩
  cases profile with
  | false =>
    refine ⟨fun e mem => ?_, fun e mem => old (whole.profile e mem)⟩
    rcases Rows.mem_insert.mp mem with mem | rfl
    · exact old (whole.contact e mem)
    · exact new
  | true =>
    refine ⟨fun e mem => old (whole.contact e mem), fun e mem => ?_⟩
    rcases Rows.mem_insert.mp mem with mem | rfl
    · exact old (whole.profile e mem)
    · exact new

/-- The loops over the properties of a card. -/
theorem same_insertProps (whole : Whole s) {profile : Bool} {cardId : Nat} (ps : List CardProp)
    (issued : cardId ≤ s.cards.sequence) (other : mine cardId = false) :
    Same mine s (insertProps profile cardId ps s issued).2 ∧
      Whole (insertProps profile cardId ps s issued).2 := by
  induction ps generalizing s with
  | nil => exact ⟨.refl _ _, whole⟩
  | cons p ps ih =>
    have issued' : cardId ≤ (s.insertProp profile cardId p issued).2.cards.sequence := by
      rw [insertProp_cards]
      exact issued
    obtain ⟨same, whole'⟩ := ih (whole.insertProp p issued) issued'
    exact ⟨(same_insertProp whole p issued other).trans same, whole'⟩

theorem same_removeLinks {ofCard : Nat → Bool} (others : ∀ n, ofCard n = true → mine n = false) :
    Same mine s (s.removeLinks ofCard) := by
  have kept (n : Nat) : (mine n && !ofCard n) = mine n := by
    cases of_ : ofCard n with
    | false => simp
    | true => rw [others n of_, Bool.false_and]
  refine ⟨rfl, ?_, ?_, rfl⟩
  · change (s.cardProperties.entries.filter _).filter _ = _
    rw [List.filter_filter]
    exact List.filter_congr fun e _ => kept e.2.cardId
  · change (s.profileCardProperties.entries.filter _).filter _ = _
    rw [List.filter_filter]
    exact List.filter_congr fun e _ => kept e.2.cardId

theorem Whole.removeLinks (whole : Whole s) (ofCard : Nat → Bool) : Whole (s.removeLinks ofCard) :=
  ⟨fun e mem => whole.contact e (Rows.mem_filter.mp mem).1,
    fun e mem => whole.profile e (Rows.mem_filter.mp mem).1⟩

/-- A property that some card links is in use. -/
theorem linked_of_linksTo {q : Nat} (linked : linksTo s q mine = true) : s.linked q = true := by
  rw [Store.linked, Bool.or_eq_true]
  refine ((linksTo_iff s mine q).mp linked).imp ?_ ?_
  · rintro ⟨e, mem, is_, -⟩
    exact List.any_eq_true.mpr ⟨e, mem, decide_eq_true is_⟩
  · rintro ⟨e, mem, is_, -⟩
    exact List.any_eq_true.mpr ⟨e, mem, decide_eq_true is_⟩

theorem same_prune : Same mine s s.pruneProperties := by
  refine ⟨rfl, rfl, rfl, ?_⟩
  change (s.properties.entries.filter _).filter _ = _
  rw [List.filter_filter]
  refine List.filter_congr fun e _ => ?_
  cases linked : linksTo s e.1 mine with
  | false => rfl
  | true => exact (Bool.true_and _).trans (linked_of_linksTo linked)

theorem Whole.prune (whole : Whole s) : Whole s.pruneProperties := by
  have kept {q : Nat} (used : linksTo s q (fun _ => true) = true)
      (there : ∃ row, (q, row) ∈ s.properties.entries) :
      ∃ row, (q, row) ∈ s.pruneProperties.properties.entries :=
    there.imp fun _ mem => Rows.mem_filter.mpr ⟨mem, linked_of_linksTo used⟩
  refine ⟨fun e mem => kept ?_ (whole.contact e mem), fun e mem => kept ?_ (whole.profile e mem)⟩
  · exact (linksTo_iff s _ _).mpr (Or.inl ⟨e, mem, rfl, rfl⟩)
  · exact (linksTo_iff s _ _).mpr (Or.inr ⟨e, mem, rfl, rfl⟩)

theorem same_updateCard {card : VC} (now : Int)
    (others : ∀ e ∈ s.cards.entries, isOwnCard card.id card.owner e.1 e.2 = true →
      mine e.1 = false) : Same mine s (s.updateCard card now) := by
  refine ⟨?_, rfl, rfl, rfl⟩
  change (s.cards.entries.map _).filter _ = _
  rw [List.filter_map]
  refine Eq.trans (List.map_congr_left ?_) (List.map_id _)
  intro e mem
  obtain ⟨mem, own⟩ := List.mem_filter.mp mem
  have other : ¬ isOwnCard card.id card.owner e.1 e.2 = true := fun is_ => by
    rw [Function.comp_apply, others e mem is_] at own
    cases own
  exact congrArg (Prod.mk e.1) (if_neg other)

theorem same_filterCards {keep : Nat → CardRow → Bool}
    (kept : ∀ e ∈ s.cards.entries, mine e.1 = true → keep e.1 e.2 = true) :
    Same mine s (s.filterCards keep) := by
  refine ⟨?_, rfl, rfl, rfl⟩
  change (s.cards.entries.filter _).filter _ = _
  rw [List.filter_filter]
  refine List.filter_congr fun e mem => ?_
  cases own : mine e.1 with
  | false => rfl
  | true => rw [kept e mem own, Bool.and_self]

end statements

/-! ## Requests -/

inductive Event
  | request (site : Site) (host : ModHost) (req : ModRequest)
  | deleteUser (localUser : Text)

/-- What an event leaves. -/
def next (s : Store) : Event → Store
  | .request site host req => (handleRequest site host s req).2
  | .deleteUser localUser => s.deleteUser localUser

abbrev Step (s : Store) (e : Event) (t : Store) : Prop := next s e = t

/-- A user of this instance posts a card. -/
def Posts (host : ModHost) (req : ModRequest) (card : VC) : Prop :=
  ∃ user, req.user = some user ∧ req.domain = none ∧ pathAfterFonts req.path = "/save" ∧
    card = posted host user req.body

/-- The profile of a user is asked for, or the user asks for the own cards. -/
def LooksUp (host : ModHost) (req : ModRequest) (user : Text) : Prop :=
  IsProfile req ∧ host.splitUserStr (req.path.drop 9) = (user, []) ∨
    req.user = some user ∧ req.domain = none

section requests
variable {s : Store}

theorem getUserRolodex_store (host : ModHost) (s : Store) (user : Text) :
    (getUserRolodex host s user).2 = s ∨
      (getUserRolodex host s user).2 = (s.getProfileBase host user).2 := by
  simp only [getUserRolodex]
  split
  · exact Or.inl rfl
  · exact Or.inr (getProfile_store host s user _ _)

/-- What a request does to the tables. -/
theorem handle_cases (site : Site) (host : ModHost) (s : Store) (req : ModRequest) :
    (handleRequest site host s req).2 = s ∨
    (∃ user, LooksUp host req user ∧
      (handleRequest site host s req).2 = (s.getProfileBase host user).2) ∨
    ∃ card, Posts host req card ∧
      (handleRequest site host s req).2 = (s.saveContact host card).2.2 := by
  unfold ContactsAnswers.handleRequest
  split
  next profile =>
    simp only [ContactsMod.getProfile]
    split
    next bare =>
      refine Or.inr (Or.inl ⟨(host.splitUserStr (req.path.drop 9)).1, Or.inl ⟨profile, ?_⟩,
        getProfile_store host s _ _ _⟩)
      rw [← bare]
    next => exact Or.inl rfl
  next =>
    split
    · exact Or.inl rfl
    · split
      next => exact Or.inl rfl
      next => exact Or.inl rfl
      next => exact Or.inl rfl
      next user named local_ =>
        unfold localRequest
        split
        · exact Or.inl rfl
        · unfold pageRequest
          split
          · exact Or.inl rfl
          · split
            · exact Or.inl rfl
            · split
              · refine (getUserRolodex_store host s user).imp id fun looked => ?_
                exact Or.inl ⟨user, Or.inr ⟨named, local_⟩, looked⟩
              · split
                next saves =>
                  exact Or.inr (Or.inr ⟨_, ⟨user, named, local_, saves, rfl⟩,
                    save_store host s user req.body⟩)
                next =>
                  split
                  · exact Or.inl rfl
                  · split
                    · refine Or.inl ?_
                      unfold deleteCard
                      split
                      · rfl
                      · rw [ContactsInvariant.deleteContact_error]
                    · split <;> exact Or.inl rfl

end requests

/-! ## What an operation leaves alone -/

section operations
variable {mine : Nat → Bool} {s : Store}

theorem same_saveContact (whole : Whole s) (host : ModHost) {card : VC}
    (issued : mine s.cards.nextId = false)
    (others : ∀ e ∈ s.cards.entries, isOwnCard card.id card.owner e.1 e.2 = true →
      mine e.1 = false) :
    Same mine s (s.saveContact host card).2.2 ∧ Whole (s.saveContact host card).2.2 := by
  unfold saveContact
  split
  · obtain ⟨same, whole'⟩ := same_insertProps (whole.insertCard
      ⟨card.owner, userColumn card.user, host.now⟩) card.props (le_refl _) issued
    exact ⟨(same_insertCard _ issued).trans same, whole'⟩
  · unfold updateContact
    dsimp only
    split
    next own =>
      obtain ⟨e, mem, is_⟩ := List.any_eq_true.mp own
      have number : (e.1 : Int) = card.id := by simpa using (Bool.and_eq_true_iff.mp is_).1
      have other : mine card.id.toNat = false := by
        rw [← number]
        exact others e mem is_
      have updated : Same mine s (s.updateCard { card with updateTs := host.now } host.now) :=
        same_updateCard host.now others
      have whole₁ : Whole (s.updateCard { card with updateTs := host.now } host.now) :=
        ⟨whole.contact, whole.profile⟩
      have removed : Same mine _ ((s.updateCard { card with updateTs := host.now }
          host.now).removeLinks (· = card.id.toNat)) :=
        same_removeLinks fun n is_ => (of_decide_eq_true is_) ▸ other
      obtain ⟨same, whole'⟩ := same_insertProps (whole₁.removeLinks _).prune card.props _ other
      exact ⟨((updated.trans removed).trans same_prune).trans same, whole'⟩
    next => exact ⟨.refl _ _, whole⟩

theorem same_getProfileBase (whole : Whole s) (host : ModHost) (user : Text)
    (issued : mine s.cards.nextId = false) :
    Same mine s (s.getProfileBase host user).2 ∧ Whole (s.getProfileBase host user).2 := by
  rcases getProfileBase_cases host s user with same | ⟨-, added⟩
  · rw [same]
    exact ⟨.refl _ _, whole⟩
  · rw [added]
    exact ⟨same_insertCard _ issued, whole.insertCard _⟩

theorem same_deleteUser (whole : Whole s) {localUser : Text}
    (others : ∀ e ∈ s.cards.entries, e.2.owner = localUser → mine e.1 = false) :
    Same mine s (s.deleteUser localUser) ∧ Whole (s.deleteUser localUser) := by
  have removed : Same mine s (s.removeLinks fun cardId =>
      s.cards.any fun id row => id = cardId && row.owner = localUser) := by
    refine same_removeLinks fun n owned => ?_
    obtain ⟨e, mem, is_⟩ := List.any_eq_true.mp owned
    simp only [Bool.and_eq_true, decide_eq_true_eq] at is_
    exact is_.1 ▸ others e mem is_.2
  have left : Whole ((s.removeLinks fun cardId => s.cards.any fun id row =>
      id = cardId && row.owner = localUser).filterCards fun _ row => row.owner ≠ localUser) := by
    obtain ⟨contact, profile⟩ := whole.removeLinks fun cardId => s.cards.any fun id row =>
      id = cardId && row.owner = localUser
    exact ⟨contact, profile⟩
  refine ⟨(removed.trans (same_filterCards ?_)).trans same_prune, left.prune⟩
  intro e mem own
  refine decide_eq_true fun is_ => ?_
  rw [others e mem is_] at own
  cases own

end operations

/-! ## Cards over runs -/

/-- The event may change the card: its owner posts one with its number, or is deleted. -/
def Touches (owner : Text) (n : Nat) : Event → Prop
  | .request _ host req => ∃ card, Posts host req card ∧ card.owner = owner ∧ card.id = n
  | .deleteUser localUser => localUser = owner

section runs
variable {mine : Nat → Bool} {s t : Store}

theorem same_next (whole : Whole s) (e : Event) (issued : mine s.cards.nextId = false)
    (others : ∀ c ∈ s.cards.entries, Touches c.2.owner c.1 e → mine c.1 = false) :
    Same mine s (next s e) ∧ Whole (next s e) := by
  cases e with
  | request site host req =>
    rcases handle_cases site host s req with same | ⟨user, -, looked⟩ | ⟨card, posts, saved⟩
    · rw [next, same]
      exact ⟨.refl _ _, whole⟩
    · rw [next, looked]
      exact same_getProfileBase whole host user issued
    · rw [next, saved]
      refine same_saveContact whole host issued fun c mem own => others c mem ⟨card, posts, ?_⟩
      simp only [isOwnCard, Bool.and_eq_true, decide_eq_true_eq] at own
      exact ⟨own.2.symm, own.1.symm⟩
  | deleteUser localUser => exact same_deleteUser whole fun c mem is_ => others c mem is_.symm

theorem whole_next (whole : Whole s) (e : Event) : Whole (next s e) := by
  have both : Same (fun _ => false) s (next s e) ∧ Whole (next s e) :=
    same_next whole e rfl fun _ _ _ => rfl
  exact both.2

theorem whole_run {es : List Event} (whole : Whole s) (run : Run Step s es t) : Whole t := by
  refine run.preserves (I := Whole) ?_ whole
  rintro s e _ whole rfl
  exact whole_next whole e

theorem whole_empty : Whole Store.empty :=
  ⟨fun _ mem => absurd mem List.not_mem_nil, fun _ mem => absurd mem List.not_mem_nil⟩

theorem Same.stored (same : Same mine s t) {n : Nat} (own : mine n = true) {row : CardRow}
    (stored : (n, row) ∈ s.cards.entries) : (n, row) ∈ t.cards.entries := by
  have picked : (n, row) ∈ s.cards.entries.filter fun e => mine e.1 :=
    List.mem_filter.mpr ⟨stored, own⟩
  rw [← same.cards] at picked
  exact (List.mem_filter.mp picked).1

/-- An event that does not touch a card leaves it as it is. -/
theorem same_card (whole : Whole s) {n : Nat} {row : CardRow}
    (stored : (n, row) ∈ s.cards.entries) {e : Event} (untouched : ¬ Touches row.owner n e) :
    Same (· = n) s (next s e) := by
  refine (same_next whole e ?_ ?_).1
  · have given : n ≤ s.cards.sequence := s.cards.bounded _ stored
    exact decide_eq_false (Nat.ne_of_gt (Nat.lt_succ_of_le given))
  · rintro ⟨m, other⟩ mem touched
    refine decide_eq_false fun is_ => ?_
    subst is_
    exact untouched (s.cards.unique mem stored ▸ touched)

theorem same_card_run {es : List Event} (whole : Whole s) (run : Run Step s es t) {n : Nat}
    {row : CardRow} (stored : (n, row) ∈ s.cards.entries)
    (untouched : ∀ e ∈ es, ¬ Touches row.owner n e) : Same (· = n) s t := by
  induction run with
  | refl => exact .refl _ _
  | cons moved _ ih =>
    subst moved
    obtain ⟨first, rest⟩ := List.forall_mem_cons.mp untouched
    have same := same_card whole stored first
    exact same.trans (ih (whole_next whole _) (same.stored (decide_eq_true rfl) stored) rest)

/-- In every run, a card, its properties and their visibility change only by a post of its owner
for its number, or when its owner is deleted. -/
theorem card_kept {past later : List Event} (reached : Run Step Store.empty past s)
    (run : Run Step s later t) {n : Nat} {row : CardRow} (stored : (n, row) ∈ s.cards.entries)
    (untouched : ∀ e ∈ later, ¬ Touches row.owner n e) :
    (n, row) ∈ t.cards.entries ∧ contactProps t n = contactProps s n ∧
      profileProps t n = profileProps s n := by
  have same := same_card_run (whole_run whole_empty reached) run stored untouched
  have own : decide (n = n) = true := decide_eq_true rfl
  exact ⟨same.stored own stored, same.contactProps_eq own, same.profileProps_eq own⟩

end runs

/-! ## What others add -/

/-- The event is of this user: a request of theirs, or their deletion. -/
def By (a : Text) : Event → Prop
  | .request _ _ req => req.user = some a ∧ req.domain = none
  | .deleteUser localUser => localUser = a

/-- Somebody asks for the profile of this user, who has an account. -/
def AsksFor (a : Text) : Event → Prop
  | .request _ host req => IsProfile req ∧ host.splitUserStr (req.path.drop 9) = (a, []) ∧
    64 ∉ a ∧ host.userInfo a = 0
  | .deleteUser _ => False

def cardsOf (s : Store) (a : Text) : List (Nat × CardRow) :=
  s.cards.entries.filter fun e => e.2.owner = a

structure Holding where
  id : Nat
  row : CardRow
  contact : List CardProp
  profile : List CardProp
  deriving DecidableEq

/-- The cards of a user, with their properties. -/
def holdings (s : Store) (a : Text) : List Holding :=
  (cardsOf s a).map fun e => ⟨e.1, e.2, contactProps s e.1, profileProps s e.1⟩

/-- An empty profile card. -/
def emptyProfile (a : Text) (n : Nat) (updateTs : Int) : Holding :=
  ⟨n, ⟨a, some a, updateTs⟩, [], []⟩

section others
variable {s t : Store} {a : Text}

theorem profileCard_isSome_iff (s : Store) (a : Text) :
    (s.profileCard a).isSome = true ↔ ∃ e ∈ cardsOf s a, e.2.user = some a := by
  rw [Store.profileCard, Rows.find?, List.find?_isSome]
  constructor
  · rintro ⟨e, mem, is_⟩
    simp only [CardRow.isProfile, Bool.and_eq_true, decide_eq_true_eq] at is_
    obtain ⟨own, user⟩ := is_
    exact ⟨e, List.mem_filter.mpr ⟨mem, decide_eq_true (Option.some.inj (own.symm.trans user))⟩,
      user⟩
  · rintro ⟨e, mem, user⟩
    obtain ⟨mem, owner⟩ := List.mem_filter.mp mem
    have owner : e.2.owner = a := of_decide_eq_true owner
    refine ⟨e, mem, ?_⟩
    simp [CardRow.isProfile, user, owner]

/-- A profile is added only for a user of the instance who has none. -/
theorem getProfileBase_spec (host : ModHost) (s : Store) (user : Text) :
    (s.getProfileBase host user).2 =
      if 64 ∉ user ∧ s.profileCard user = none ∧ host.userInfo user = 0 then
        s.insertCard ⟨user, userColumn user, host.now⟩
      else s := by
  unfold getProfileBase
  split
  next at_ => rw [if_neg fun all => all.1 at_]
  next plain =>
    split
    next found => rw [if_neg fun all => Option.some_ne_none _ (found.symm.trans all.2.1)]
    next missing =>
      dsimp only
      split
      next other => rw [if_neg fun all => other all.2.2]
      next known => rw [if_pos ⟨plain, missing, not_not.mp known⟩]; rfl

theorem cardsOf_insertCard (s : Store) {row : CardRow} (other : row.owner ≠ a) :
    cardsOf (s.insertCard row) a = cardsOf s a :=
  filter_snoc s.cards.entries (decide_eq_false other)

theorem cardsOf_saveContact (host : ModHost) (s : Store) {card : VC} (other : card.owner ≠ a) :
    cardsOf (s.saveContact host card).2.2 a = cardsOf s a := by
  unfold saveContact
  split
  · have cards := insertProps_cards (card.owner = card.user) s.cards.nextId card.props
      (s.insertCard ⟨card.owner, userColumn card.user, host.now⟩) (le_refl _)
    exact (congrArg (fun cards => cards.entries.filter fun e => e.2.owner = a) cards).trans
      (filter_snoc s.cards.entries (decide_eq_false other))
  · unfold updateContact
    dsimp only
    split
    · rw [cardsOf, insertProps_cards]
      change (s.cards.entries.map _).filter _ = _
      rw [List.filter_map]
      have owner (e : Nat × CardRow) : (if isOwnCard card.id card.owner e.1 e.2 then
          { e.2 with user := userColumn card.user, updateTs := host.now } else e.2).owner =
            e.2.owner := by
        split <;> rfl
      have same : s.cards.entries.filter ((fun e : Nat × CardRow => decide (e.2.owner = a)) ∘
          fun e => (e.1, if isOwnCard card.id card.owner e.1 e.2 then
            { e.2 with user := userColumn card.user, updateTs := host.now } else e.2)) =
          cardsOf s a :=
        List.filter_congr fun e _ => decide_eq_decide.mpr (by rw [owner])
      refine (congrArg _ same).trans (Eq.trans (List.map_congr_left ?_) (List.map_id _))
      intro e mem
      have own : e.2.owner = a := of_decide_eq_true (List.mem_filter.mp mem).2
      refine congrArg (Prod.mk e.1) (if_neg ?_)
      simp [isOwnCard, own, Ne.symm other]
    · rfl

/-- What one event of others does to the cards of a user. -/
theorem cardsOf_next (s : Store) {e : Event} (other : ¬ By a e) :
    (cardsOf (next s e) a = cardsOf s a ∧ ((s.profileCard a).isSome = true ∨ ¬ AsksFor a e)) ∨
    s.profileCard a = none ∧ AsksFor a e ∧
      ∃ now, next s e = s.insertCard ⟨a, userColumn a, now⟩ := by
  cases e with
  | deleteUser localUser =>
    refine Or.inl ⟨?_, Or.inr id⟩
    change (s.cards.entries.filter _).filter _ = _
    rw [List.filter_filter]
    refine List.filter_congr fun e _ => ?_
    by_cases own : e.2.owner = a
    · have stays : e.2.owner ≠ localUser := fun is_ => other (is_.symm.trans own)
      simp [own, own ▸ stays]
    · simp [own]
  | request site host req =>
    by_cases asks : AsksFor a (.request site host req)
    · obtain ⟨profile, split_, plain, known⟩ := asks
      have looked : next s (.request site host req) = (s.getProfileBase host a).2 := by
        rw [next, ContactsAnswers.handleRequest, if_pos profile]
        simp only [ContactsMod.getProfile, split_, if_true]
        exact getProfile_store host s a _ _
      rw [looked, getProfileBase_spec]
      cases found : s.profileCard a with
      | none =>
        rw [if_pos ⟨plain, rfl, known⟩]
        exact Or.inr ⟨rfl, ⟨profile, split_, plain, known⟩, host.now, rfl⟩
      | some card =>
        rw [if_neg fun all => Option.some_ne_none _ all.2.1]
        exact Or.inl ⟨rfl, Or.inl rfl⟩
    · refine Or.inl ⟨?_, Or.inr asks⟩
      rcases handle_cases site host s req with same | ⟨user, looks, looked⟩ | ⟨card, posts, saved⟩
      · rw [next, same]
      · rw [next, looked, getProfileBase_spec]
        split
        next all =>
          refine cardsOf_insertCard s fun is_ => ?_
          obtain rfl : user = a := is_
          rcases looks with ⟨profile, split_⟩ | own
          · exact asks ⟨profile, split_, all.1, all.2.2⟩
          · exact other own
        next => rfl
      · rw [next, saved]
        obtain ⟨user, named, local_, -, rfl⟩ := posts
        refine cardsOf_saveContact host s fun is_ => other ⟨?_, local_⟩
        rw [named, ← is_, posted_owner]

theorem touches_by {row : CardRow} {n : Nat} {e : Event} (touches : Touches row.owner n e) :
    By row.owner e := by
  cases e with
  | request site host req =>
    obtain ⟨_, ⟨user, named, local_, -, rfl⟩, owner, -⟩ := touches
    rw [posted_owner] at owner
    exact ⟨owner ▸ named, local_⟩
  | deleteUser localUser => exact touches

/-- A card that was just inserted has no properties. -/
theorem props_insertCard (s : Store) (row : CardRow) :
    contactProps (s.insertCard row) s.cards.nextId = [] ∧
      profileProps (s.insertCard row) s.cards.nextId = [] := by
  have unlinked := linksTo_insertCard s row
  constructor
  · have nothing : (s.properties.filter fun id _ => s.cardProperties.any fun _ link =>
        link.propertyId = id && link.cardId = s.cards.nextId).entries = [] := by
      refine List.filter_eq_nil_iff.mpr fun e _ => ?_
      rw [Bool.not_eq_true]
      exact (Bool.or_eq_false_iff.mp (unlinked e.1)).1
    exact congrArg (List.map _) nothing
  · have nothing : ((s.insertCard row).properties.entries.filter fun e =>
        linksTo (s.insertCard row) e.1 (· = s.cards.nextId)) = [] :=
      List.filter_eq_nil_iff.mpr fun e _ => by simp [unlinked]
    rw [profileProps_linked, nothing]
    rfl

theorem profileCard_of_created (named : a ≠ []) (s : Store) (now : Int) :
    ((s.insertCard ⟨a, userColumn a, now⟩).profileCard a).isSome = true := by
  rw [profileCard_isSome_iff]
  refine ⟨(s.cards.nextId, ⟨a, userColumn a, now⟩), List.mem_filter.mpr ⟨?_, ?_⟩, if_neg named⟩
  · exact AutoRows.mem_insert.mpr (Or.inr rfl)
  · exact decide_eq_true rfl

/-- The cards that were there are held as before. -/
theorem holdings_next (whole : Whole s) {e : Event} (other : ¬ By a e) :
    (cardsOf s a).map (fun c => Holding.mk c.1 c.2 (contactProps (next s e) c.1)
      (profileProps (next s e) c.1)) = holdings s a := by
  refine List.map_congr_left ?_
  rintro ⟨n, row⟩ mem
  obtain ⟨stored, owner⟩ := List.mem_filter.mp mem
  have owner : row.owner = a := of_decide_eq_true owner
  have same := same_card whole stored fun touches => other (owner ▸ touches_by touches)
  have own : decide (n = n) = true := decide_eq_true rfl
  rw [same.contactProps_eq own, same.profileProps_eq own]

theorem others_run (named : a ≠ []) (whole : Whole s) {es : List Event} (run : Run Step s es t)
    (others : ∀ e ∈ es, ¬ By a e) : ∃ new, holdings t a = holdings s a ++ new ∧
      (new = [] ∨ ∃ n updateTs, new = [emptyProfile a n updateTs]) ∧
      (new = [] ↔ (s.profileCard a).isSome = true ∨ ∀ e ∈ es, ¬ AsksFor a e) := by
  induction run with
  | refl => exact ⟨[], (List.append_nil _).symm, Or.inl rfl, iff_of_true rfl (Or.inr (by simp))⟩
  | @cons s _ t e es moved _ ih =>
    subst moved
    obtain ⟨other, others⟩ := List.forall_mem_cons.mp others
    obtain ⟨new, held, empty_, none_iff⟩ := ih (whole_next whole e) others
    have before := holdings_next whole other
    rcases cardsOf_next s other with ⟨cards, unasked⟩ | ⟨missing, asks, now, created⟩
    · refine ⟨new, held.trans ?_, empty_, none_iff.trans ?_⟩
      · rw [← before, holdings, cards]
      · have has := profileCard_isSome_iff (next s e) a
        rw [cards, ← profileCard_isSome_iff s a] at has
        rw [has, List.forall_mem_cons]
        constructor
        · rintro (is_ | none_)
          · exact Or.inl is_
          · exact unasked.imp id fun first => ⟨first, none_⟩
        · exact Or.imp id And.right
    · -- nobody adds a second one
      have has := profileCard_of_created named s now
      rw [← created] at has
      obtain rfl := none_iff.mpr (Or.inl has)
      refine ⟨[emptyProfile a s.cards.nextId now], ?_, Or.inr ⟨_, _, rfl⟩, ?_⟩
      · have cards : cardsOf (next s e) a =
            cardsOf s a ++ [(s.cards.nextId, ⟨a, userColumn a, now⟩)] := by
          rw [created]
          exact (List.filter_append _ _).trans
            (congrArg _ (List.filter_cons_of_pos (decide_eq_true rfl)))
        have props := props_insertCard s ⟨a, userColumn a, now⟩
        rw [← created] at props
        have user : userColumn a = some a := if_neg named
        rw [held, List.append_nil, holdings, cards, List.map_append, before, List.map_singleton,
          props.1, props.2, user]
        rfl
      · refine iff_of_false (List.cons_ne_nil _ _) ?_
        rintro (is_ | none_)
        · rw [missing] at is_
          cases is_
        · exact none_ e List.mem_cons_self asks

/-- In every run without requests of a user, the user has the same cards afterwards as before,
and an empty profile more exactly when there was none and somebody has asked for it. -/
theorem others_add_profile (named : a ≠ []) {past later : List Event}
    (reached : Run Step Store.empty past s) (run : Run Step s later t)
    (others : ∀ e ∈ later, ¬ By a e) : ∃ new, holdings t a = holdings s a ++ new ∧
      (new = [] ∨ ∃ n updateTs, new = [emptyProfile a n updateTs]) ∧
      (new = [] ↔ (s.profileCard a).isSome = true ∨ ∀ e ∈ later, ¬ AsksFor a e) :=
  others_run named (whole_run whole_empty reached) run others

end others

/-! ## A card that somebody else posts again -/

theorem run_foldl (s : Store) (es : List Event) : Run Step s es (es.foldl next s) := by
  induction es generalizing s with
  | nil => exact .refl _
  | cons e es ih => exact .cons rfl (ih (next s e))

def post (user body : Text) : Event :=
  .request demoSite demoHost ⟨.post, "/save", body, none, some user, none⟩

def alicePosts : List Event := [post "alice" "BEGIN:VCARD\nTEL:1\nEND:VCARD"]

/-- Bob posts a card with the number of hers, and somebody asks for her profile. -/
def bobPosts : List Event :=
  [post "bob" "BEGIN:VCARD\nUID:1\nTEL:2\nEND:VCARD",
    .request demoSite demoHost (anybody "/profile/alice" [])]

def aliceStore : Store := alicePosts.foldl next Store.empty

theorem alices_card_kept :
    (1, ⟨"alice", none, 1700000000⟩) ∈ (bobPosts.foldl next aliceStore).cards.entries ∧
    contactProps (bobPosts.foldl next aliceStore) 1 = contactProps aliceStore 1 ∧
    profileProps (bobPosts.foldl next aliceStore) 1 = profileProps aliceStore 1 := by
  refine card_kept (run_foldl _ alicePosts) (run_foldl aliceStore bobPosts) (by decide +kernel) ?_
  rintro e mem touches
  have by_ := touches_by touches
  simp only [bobPosts, post, List.mem_cons, List.not_mem_nil, or_false] at mem
  rcases mem with rfl | rfl
  · exact absurd by_.1 (by decide)
  · cases by_.1

theorem alice_gets_profile : ∃ new,
    holdings (bobPosts.foldl next aliceStore) "alice" = holdings aliceStore "alice" ++ new ∧
    new ≠ [] := by
  obtain ⟨new, held, -, none_iff⟩ := others_add_profile (a := "alice") (by decide)
    (run_foldl Store.empty alicePosts) (run_foldl aliceStore bobPosts) (by
      intro e mem by_
      simp only [bobPosts, post, List.mem_cons, List.not_mem_nil, or_false] at mem
      rcases mem with rfl | rfl
      · exact absurd by_.1 (by decide)
      · cases by_.1)
  refine ⟨new, held, fun none_ => ?_⟩
  rcases none_iff.mp none_ with has | unasked
  · exact absurd has (by decide +kernel)
  · refine unasked _ (List.mem_cons_of_mem _ List.mem_cons_self) ?_
    exact ⟨by decide, by decide +kernel, by decide, by decide⟩

end CardOwnership
