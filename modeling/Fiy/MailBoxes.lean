import Fiy.DecimalTexts
import Fiy.GuardedRuns
import Fiy.PageRoutes

/-!
# The mails of the mail mod

What `send_mail` stores, and what is left when the host deletes a user. How the mails reach other
instances is left out, as are the other pages.
-/

namespace MailBoxes

open ByteStrings DecimalTexts LocalAccounts GuardedRuns

/-! ## Mails -/

structure Mail where
  fromUser : Text
  recipients : List Text
  subject : Text
  body : Text
  date : Int
  index : Nat := 0
  deriving DecidableEq, Repr

/-- `m_mail` -/
abbrev MailBox := List Mail

/-- `max_size` of a vector of mails, which have 136 bytes each. -/
def maxMails : Nat := (2 ^ 63 - 1) / 136

namespace MailBox

/-- `push`; `none` when the vector throws. -/
def push (box : MailBox) (mail : Mail) : Option MailBox :=
  if box.length < maxMails then some (box ++ [{ mail with index := box.length }]) else none

/-- `get` -/
def get (box : MailBox) (index : Nat) : Option Mail := box[index]?

/-- `delete_user_mail` -/
def deleteUserMail (box : MailBox) (user : Text) : MailBox :=
  let box := box.map fun m => { m with recipients := m.recipients.filter (· ≠ user) }
  box.filter fun m => ¬ (m.recipients = [] ∨ m.fromUser = user)

/-- The mails of `get_inbox_str`, one for each time the user is listed. -/
def inbox (box : MailBox) (user : Text) : List Mail :=
  box.flatMap fun m => m.recipients.flatMap fun u => if u = user then [m] else []

/-- The mails of `get_outbox_str` -/
def outbox (box : MailBox) (user : Text) : List Mail := box.filter fun m => m.fromUser = user

end MailBox

/-! ## Pages -/

/-- Where a list links to, seen from the mod. -/
def viewLink (m : Mail) : Text := lit "view/" ++ decimal m.index

/-- `short_view`, with the text that `asctime` gives for a date. -/
def shortView (asctime : Int → Text) (m : Mail) : Text :=
  lit "<tr><td><a href='" ++ viewLink m ++ lit "'>" ++ asctime m.date ++ lit "</a></td><td>" ++
    m.fromUser ++ lit "</td><td>" ++
    (if m.subject.length > 20 then m.subject.take 17 ++ lit "..." else m.subject) ++
    lit "</td></tr>"

def listing (asctime : Int → Text) (mails : List Mail) : Text :=
  lit "<table><tr><th>Date</th><th>From</th><th>Subject</ht><tr/>" ++
    mails.flatMap (shortView asctime) ++ lit "</table>"

/-- `get_inbox_str` -/
def inboxStr (asctime : Int → Text) (box : MailBox) (user : Text) : Text :=
  listing asctime (box.inbox user)

/-- `get_outbox_str` -/
def outboxStr (asctime : Int → Text) (box : MailBox) (user : Text) : Text :=
  listing asctime (box.outbox user)

/-- `strtoul`, which stops at the end of its type. -/
def strtoul (t : Text) : Nat :=
  match strtolValue t with
  | none => 0
  | some value =>
    if 18446744073709551616 ≤ value.natAbs then 18446744073709551615
    else (value % 18446744073709551616).toNat

/-- The mail that a path shows. -/
def view (box : MailBox) (path : Text) : Option Mail :=
  if lit "/view/" <+: path then box.get (strtoul (path.drop (lit "/view/").length)) else none

/-! ## Sending -/

/-- A request, with what of it is read; a pointer may be null. -/
structure Request where
  user : Option Text
  /-- `none` for a local user -/
  domain : Option Text
  body : Option Text
  deriving DecidableEq, Repr

inductive Sent
  /-- 401 -/
  | unauthenticated
  /-- 400 -/
  | invalid
  /-- 200 -/
  | stored
  /-- A text from a null pointer, or a vector that is full. -/
  | threw
  deriving DecidableEq, Repr

/-- `split_string` with one byte between the parts -/
def splitString (str : Text) (delimiter : Byte) : List Text := str.splitOn delimiter

/-- A destination without a domain is local. -/
def withDomain (host recip : Text) : Text :=
  if 64 ∉ recip then recip ++ (lit "@" ++ host) else recip

/-- `global_user_str` -/
def globalUserStr (host user : Text) (domain : Option Text) : Text :=
  user ++ lit "@" ++ domain.getD host

/-- The mail in a body: the destinations, the subject, and the rest with the line feed in front. -/
def mailOf (host user : Text) (domain : Option Text) (body : Text) (now : Int) : Option Mail :=
  match cut 10 body with
  | none => none
  | some (destinations, rest) => match cut 10 rest with
    | none => none
    | some (subject, content) => some
        { fromUser := globalUserStr host user domain
          recipients := (splitString destinations 44).map (withDomain host)
          subject
          body := 10 :: content
          date := now }

/-- `send_mail` -/
def sendMail (host : Text) (now : Int) (box : MailBox) (req : Request) : Sent × MailBox :=
  match req.user with
  | none => (.unauthenticated, box)
  | some user => match req.body with
    | none => (.threw, box)
    | some body => match mailOf host user req.domain (cstr body) now with
      | none => (.invalid, box)
      | some mail => match box.push mail with
        | none => (.threw, box)
        | some box => (.stored, box)

/-! ## Runs -/

/-- The name of a local user, without a domain. -/
structure LocalName where
  name : Text
  bare : 64 ∉ name

/-- A name that signup takes. -/
def localName (username : Text) (valid : usernameError username = none) : LocalName where
  name := username
  bare := PageRoutes.name_without valid (by decide)

inductive Event
  | send (now : Int) (req : Request)
  /-- `delete_user` of the mod, with the name the host gives it -/
  | delete (user : LocalName)

def step (host : Text) (box : MailBox) : Event → MailBox
  | .send now req => (sendMail host now box req).2
  | .delete user => box.deleteUserMail user.name

/-- The address of a local user, as mails have it. -/
def address (host : Text) (user : LocalName) : Text := user.name ++ (lit "@" ++ host)

/-- The mail is from the user, or to them. -/
def Concerns (host : Text) (user : LocalName) (m : Mail) : Prop :=
  m.fromUser = address host user ∨ address host user ∈ m.recipients

/-- The deletion of a user that the mail concerns. -/
def Affects (host : Text) (m : Mail) : Event → Prop
  | .send _ _ => False
  | .delete user => Concerns host user m

/-- What a mailbox has to be after an event. -/
structure Right (host : Text) (before : MailBox) (e : Event) (after : MailBox) : Prop where
  indices : ∀ (i : Nat) (m : Mail), after[i]? = some m → m.index = i
  links : ∀ user, ∀ m ∈ after.inbox user ++ after.outbox user,
    view after (lit "/" ++ viewLink m) = some m
  unique : (after.map Mail.index).Nodup
  unchanged : ∀ m ∈ before, ¬ Affects host m e → view after (lit "/" ++ viewLink m) = some m
  erased : ∀ m ∈ after, ¬ Affects host m e

/-- No mail concerns a user that is deleted. -/
def NothingToErase (host : Text) (box : MailBox) (e : Event) : Prop := ∀ m ∈ box, ¬ Affects host m e

/-! ## Stored mails -/

/-- What the mails are in every state: numbered in order, and with addresses that have a domain. -/
structure Stored (box : MailBox) : Prop where
  fits : box.length ≤ maxMails
  indices : ∀ (i : Nat) (m : Mail), box[i]? = some m → m.index = i
  addressed : ∀ m ∈ box, 64 ∈ m.fromUser ∧ m.recipients ≠ [] ∧ ∀ r ∈ m.recipients, 64 ∈ r

theorem stored_nil : Stored [] where
  fits := Nat.zero_le _
  indices := by simp
  addressed := by simp

theorem withDomain_addressed (host recip : Text) : 64 ∈ withDomain host recip := by
  unfold withDomain
  split
  · have sign : (64 : Byte) ∈ lit "@" := by decide
    exact List.mem_append_right _ (List.mem_append_left _ sign)
  next has => exact not_not.mp has

theorem mailOf_addressed {host user body : Text} {domain : Option Text} {now : Int} {mail : Mail}
    (made : mailOf host user domain body now = some mail) :
    64 ∈ mail.fromUser ∧ mail.recipients ≠ [] ∧ ∀ r ∈ mail.recipients, 64 ∈ r := by
  unfold mailOf at made
  cases first : cut 10 body with
  | none => simp [first] at made
  | some parts =>
    cases second : cut 10 parts.2 with
    | none => simp [first, second] at made
    | some parts' =>
      simp only [first, second, Option.some.injEq] at made
      subst made
      refine ⟨?_, ?_, ?_⟩
      · have sign : (64 : Byte) ∈ lit "@" := by decide
        exact List.mem_append_left _ (List.mem_append_right _ sign)
      · simp [splitString]
      · intro r listed
        obtain ⟨recip, -, rfl⟩ := List.mem_map.mp listed
        exact withDomain_addressed host recip

theorem stored_push {box after : MailBox} {mail : Mail} (stored : Stored box)
    (addressed : 64 ∈ mail.fromUser ∧ mail.recipients ≠ [] ∧ ∀ r ∈ mail.recipients, 64 ∈ r)
    (pushed : box.push mail = some after) : Stored after := by
  unfold MailBox.push at pushed
  split at pushed
  next room =>
    cases pushed
    refine ⟨?_, ?_, ?_⟩
    · rw [List.length_append, List.length_singleton]
      omega
    · intro i m found
      rcases Nat.lt_trichotomy i box.length with old | rfl | behind
      · rw [List.getElem?_append_left old] at found
        exact stored.indices i m found
      · rw [List.getElem?_concat_length] at found
        cases found
        rfl
      · rw [List.getElem?_eq_none (by simp; omega)] at found
        cases found
    · intro m listed
      rcases List.mem_append.mp listed with old | new
      · exact stored.addressed m old
      · rw [List.mem_singleton.mp new]
        exact addressed
  · cases pushed

/-- The name of a user alone is in no address, and so nothing is deleted. -/
theorem deleteUserMail_eq {box : MailBox} (stored : Stored box) (user : LocalName) :
    box.deleteUserMail user.name = box := by
  have other {text : Text} (has : 64 ∈ text) : text ≠ user.name := by
    rintro rfl
    exact user.bare has
  have same : (box.map fun m => { m with recipients := m.recipients.filter (· ≠ user.name) }) =
      box := by
    refine (List.map_congr_left fun m listed => ?_).trans box.map_id
    have kept : m.recipients.filter (· ≠ user.name) = m.recipients := by
      rw [List.filter_eq_self]
      intro r mem
      exact decide_eq_true (other ((stored.addressed m listed).2.2 r mem))
    rw [kept]
    rfl
  rw [MailBox.deleteUserMail, same, List.filter_eq_self]
  intro m listed
  obtain ⟨from_, some_, -⟩ := stored.addressed m listed
  exact decide_eq_true (not_or.mpr ⟨some_, other from_⟩)

/-- A request stores a mail at the end, or changes nothing. -/
theorem sendMail_cases (host : Text) (now : Int) (box : MailBox) (req : Request) :
    (sendMail host now box req).2 = box ∨
      ∃ user body mail, mailOf host user req.domain body now = some mail ∧
        box.push mail = some (sendMail host now box req).2 := by
  unfold sendMail
  cases req.user with
  | none => exact .inl rfl
  | some user =>
    cases req.body with
    | none => exact .inl rfl
    | some body =>
      cases made : mailOf host user req.domain (cstr body) now with
      | none => exact .inl (by simp only [made])
      | some mail =>
        cases pushed : box.push mail with
        | none => exact .inl (by simp only [made, pushed])
        | some after => exact .inr ⟨user, cstr body, mail, made, by simp only [made, pushed]⟩

theorem stored_step (host : Text) {box : MailBox} (stored : Stored box) (e : Event) :
    Stored (step host box e) := by
  cases e with
  | delete user =>
    rw [step, deleteUserMail_eq stored user]
    exact stored
  | send now req =>
    rw [step]
    rcases sendMail_cases host now box req with same | ⟨user, body, mail, made, pushed⟩
    · rwa [same]
    · exact stored_push stored (mailOf_addressed made) pushed

/-- What was stored before an event still is. -/
theorem mem_step {host : Text} {box : MailBox} (stored : Stored box) (e : Event) {m : Mail}
    (listed : m ∈ box) : m ∈ step host box e := by
  cases e with
  | delete user => rwa [step, deleteUserMail_eq stored user]
  | send now req =>
    rw [step]
    rcases sendMail_cases host now box req with same | ⟨user, body, mail, -, pushed⟩
    · rwa [same]
    · unfold MailBox.push at pushed
      split at pushed
      · rw [← Option.some.inj pushed]
        exact List.mem_append_left _ listed
      · cases pushed

/-! ## Links -/

theorem strtoul_decimal {n : Nat} (small : n < 18446744073709551616) :
    strtoul (decimal n) = n := by
  have value := strtolValue_of_digits (fun b => isDigit_of_mem_decimal) (decimal_ne_nil n)
  rw [ofDecimal_decimal] at value
  simp only [strtoul, value, Int.natAbs_natCast]
  rw [if_neg (Nat.not_le.mpr small)]
  omega

theorem view_viewLink {box : MailBox} (stored : Stored box) {m : Mail} (listed : m ∈ box) :
    view box (lit "/" ++ viewLink m) = some m := by
  obtain ⟨i, found⟩ := List.mem_iff_getElem?.mp listed
  have index := stored.indices i m found
  have inside : i < box.length := (List.getElem?_eq_some_iff.mp found).1
  have small : i < 18446744073709551616 := by
    have fits := stored.fits
    simp only [maxMails] at fits
    omega
  have path : lit "/" ++ viewLink m = lit "/view/" ++ decimal i := by
    rw [viewLink, index, ← List.append_assoc]
    rfl
  rw [view, path, if_pos (List.prefix_append _ _), List.drop_left, strtoul_decimal small]
  exact found

theorem mem_of_listed {box : MailBox} {user : Text} {m : Mail}
    (listed : m ∈ box.inbox user ++ box.outbox user) : m ∈ box := by
  rcases List.mem_append.mp listed with received | sent
  · obtain ⟨mail, stored, row⟩ := List.mem_flatMap.mp received
    obtain ⟨u, -, here⟩ := List.mem_flatMap.mp row
    split at here
    · rwa [List.mem_singleton.mp here]
    · cases here
  · exact (List.mem_filter.mp sent).1

theorem indices_nodup {box : MailBox} (stored : Stored box) :
    (box.map Mail.index).Nodup := by
  have range : (box.map Mail.index) = List.range box.length := by
    refine List.ext_getElem? fun i => ?_
    rw [List.getElem?_map]
    cases found : box[i]? with
    | none =>
      have behind := List.getElem?_eq_none_iff.mp found
      rw [List.getElem?_eq_none (by simpa using behind)]
      rfl
    | some m =>
      have inside : i < box.length := (List.getElem?_eq_some_iff.mp found).1
      rw [List.getElem?_range inside, Option.map_some, stored.indices i m found]
  rw [range]
  exact List.nodup_range

/-! ## Runs of a mailbox -/

/-- An event leaves what it should exactly when there is nothing to erase. -/
theorem right_step_iff (host : Text) {box : MailBox} (stored : Stored box) (e : Event) :
    Right host box e (step host box e) ↔ NothingToErase host box e := by
  have after := stored_step host stored e
  constructor
  · intro right m listed
    exact right.erased m (mem_step stored e listed)
  · intro nothing
    refine
      { indices := after.indices
        links := fun user m listed => view_viewLink after (mem_of_listed listed)
        unique := indices_nodup after
        unchanged := fun m listed _ => view_viewLink after (mem_step stored e listed)
        erased := ?_ }
    cases e with
    | send now req => exact fun m _ => id
    | delete user =>
      rw [step, deleteUserMail_eq stored user]
      exact nothing

/-- Every event of a run leaves what it should exactly when no deletion has anything to erase. -/
theorem mail_runs_iff (host : Text) (events : List Event) :
    EveryStep (fun box e => some (step host box e))
        (fun box e => Right host box e (step host box e)) [] events ↔
      EveryStep (fun box e => some (step host box e)) (NothingToErase host) [] events := by
  refine everyStep_congr (I := Stored) ?_ ?_ stored_nil events
  · rintro box e after stored moved
    cases moved
    exact stored_step host stored e
  · exact fun box e stored => right_step_iff host stored e

/-- A mail to bob, who is deleted. -/
def deletedRecipient : List Event :=
  [.send 1 ⟨some (lit "alice"), none, some (lit "bob\nhello\ntext")⟩, .delete ⟨lit "bob", by decide⟩]

theorem mail_is_left :
    deletedRecipient.foldl (step (lit "a.b")) [] =
        [⟨lit "alice@a.b", [lit "bob@a.b"], lit "hello", lit "\ntext", 1, 0⟩] ∧
      ¬ EveryStep (fun box e => some (step (lit "a.b") box e))
        (fun box e => Right (lit "a.b") box e (step (lit "a.b") box e)) [] deletedRecipient := by
  have left : deletedRecipient.foldl (step (lit "a.b")) [] =
      [⟨lit "alice@a.b", [lit "bob@a.b"], lit "hello", lit "\ntext", 1, 0⟩] := by
    decide +kernel
  refine ⟨left, ?_⟩
  intro every
  obtain ⟨-, rest⟩ := every _ rfl
  obtain ⟨right, -⟩ := rest _ rfl
  have stays : (⟨lit "alice@a.b", [lit "bob@a.b"], lit "hello", lit "\ntext", 1, 0⟩ : Mail) ∈
      deletedRecipient.foldl (step (lit "a.b")) [] := by
    rw [left]
    exact List.mem_cons_self
  have addressed : address (lit "a.b") ⟨lit "bob", by decide⟩ ∈ [lit "bob@a.b"] := by
    decide +kernel
  exact right.erased _ stays (.inr addressed)

end MailBoxes
