import Mathlib.Data.List.Dedup
import Fiy.MailBoxes

/-!
# How mails reach other instances

Behind what it stores, `send_mail` passes a local user's request on to the instances of the
destinations. Each turn of that loop calls the host twice, and the second call is with the
request of the local user itself, whose domain is a null pointer. What this leaves of an
instance over a run is here, and what the other instance makes of a request that does reach it.
-/

namespace MailFederation

open ByteStrings MailBoxes GuardedRuns

/-! ## The loop over the domains -/

/-- What stands behind the first at sign. -/
def domainOf (user : Text) : Option Text := (cut 64 user).map Prod.snd

/-- `doms`, as the set is walked through. -/
def otherDomains (host : Text) (destinations : List Text) : List Text :=
  ((destinations.filterMap domainOf).filter (· ≠ host)).dedup.mergeSort
    fun a b => decide (¬ b < a)

/-- What a request leaves: the answer, the mails, and what was handed to the peers. -/
structure Outcome where
  sent : Sent
  box : MailBox
  passed : Option Request
  deriving DecidableEq, Repr

/-- The loop over the domains. An empty domain is this instance, where the mod is `registered` as
`mail` or is not found. In its second call the host makes a text of a null pointer. -/
def distribute (host : Text) (now : Int) (registered : Bool) (box : MailBox) (req : Request)
    (destinations : List Text) : Outcome :=
  match otherDomains host destinations with
  | [] => ⟨.stored, box, none⟩
  | [] :: _ =>
    let req2 := { req with domain := some [] }
    ⟨.threw, if registered then (sendMail host now box req2).2 else box, none⟩
  | dom :: _ => ⟨.threw, box, some { req with domain := some dom }⟩

/-- `destinations`, once the mail is stored -/
def destinations (host : Text) (req : Request) : List Text :=
  match mailOf host (req.user.getD []) req.domain (cstr (req.body.getD [])) 0 with
  | some mail => mail.recipients
  | none => []

/-- `send_mail`, whole -/
def sendMailOn (host : Text) (now : Int) (registered : Bool) (box : MailBox) (req : Request) :
    Outcome :=
  match sendMail host now box req with
  | (.stored, after) =>
    if req.domain = none then distribute host now registered after req (destinations host req)
    else ⟨.stored, after, none⟩
  | (sent, after) => ⟨sent, after, none⟩

/-! ## An instance -/

/-- What `sent` was last, and all that was handed to the peers. -/
structure Instance where
  box : MailBox := []
  passed : List Request := []
  /-- An exception that leaves a handler ends the server. -/
  alive : Bool := true

structure Event where
  now : Int
  req : Request

section instance_
variable (host : Text) (registered : Bool)

/-- One request; a server that has ended handles none. -/
def next (i : Instance) (e : Event) : Option Instance :=
  if i.alive then
    let outcome := sendMailOn host e.now registered i.box e.req
    some
      { box := outcome.box
        passed := i.passed ++ outcome.passed.toList
        alive := decide (outcome.sent ≠ .threw) }
  else none

/-- Every destination of a local user is on this instance, and the mail can be stored. -/
structure Harmless (i : Instance) (e : Event) : Prop where
  readable : e.req.user.isSome → e.req.body.isSome
  room : e.req.user.isSome → destinations host e.req ≠ [] → i.box.length < maxMails
  here : e.req.user.isSome → e.req.domain = none → ∀ r ∈ destinations host e.req,
    domainOf r = some host

end instance_

/-! ## What one request does -/

theorem mem_otherDomains {host dom : Text} {destinations : List Text} :
    dom ∈ otherDomains host destinations ↔
      dom ≠ host ∧ ∃ r ∈ destinations, domainOf r = some dom := by
  rw [otherDomains, List.mem_mergeSort, List.mem_dedup, List.mem_filter, List.mem_filterMap,
    decide_eq_true_eq, and_comm]

theorem domainOf_of_mem {user : Text} (addressed : 64 ∈ user) : ∃ dom, domainOf user = some dom := by
  cases found : cut 64 user with
  | none => exact absurd addressed (cut_eq_none_iff.mp found)
  | some parts => exact ⟨parts.2, by simp [domainOf, found]⟩

/-- Every destination has a domain when the mail is stored. -/
theorem addressed_of_destination {host r : Text} {req : Request}
    (listed : r ∈ destinations host req) : 64 ∈ r := by
  unfold destinations at listed
  split at listed
  next mail made => exact (mailOf_addressed made).2.2 r listed
  · cases listed

theorem otherDomains_eq_nil_iff {host : Text} {req : Request} :
    otherDomains host (destinations host req) = [] ↔
      ∀ r ∈ destinations host req, domainOf r = some host := by
  rw [List.eq_nil_iff_forall_not_mem]
  constructor
  · intro none_ r listed
    obtain ⟨dom, found⟩ := domainOf_of_mem (addressed_of_destination listed)
    by_cases same : dom = host
    · rw [found, same]
    · exact absurd (mem_otherDomains.mpr ⟨same, r, listed, found⟩) (none_ dom)
  · intro here dom other
    obtain ⟨different, r, listed, found⟩ := mem_otherDomains.mp other
    rw [here r listed, Option.some.injEq] at found
    exact different found.symm

/-- The date does not say whether there is a mail in a body. -/
theorem mailOf_date (host user : Text) (domain : Option Text) (body : Text) (now : Int) :
    mailOf host user domain body now =
      (mailOf host user domain body 0).map fun mail => { mail with date := now } := by
  unfold mailOf
  cases cut 10 body with
  | none => rfl
  | some parts =>
    dsimp only
    cases cut 10 parts.2 with
    | none => rfl
    | some parts' => rfl

/-- What a request comes to, by who sends it and what its body says. -/
theorem sendMail_spec (host : Text) (now : Int) (box : MailBox) (req : Request) :
    (req.user = none ∧ sendMail host now box req = (.unauthenticated, box)) ∨
    (req.user.isSome ∧ req.body = none ∧ sendMail host now box req = (.threw, box)) ∨
    (req.user.isSome ∧ req.body.isSome ∧ destinations host req = [] ∧
      sendMail host now box req = (.invalid, box)) ∨
    (req.user.isSome ∧ req.body.isSome ∧ destinations host req ≠ [] ∧ maxMails ≤ box.length ∧
      sendMail host now box req = (.threw, box)) ∨
    (req.user.isSome ∧ req.body.isSome ∧ destinations host req ≠ [] ∧ box.length < maxMails ∧
      ∃ mail : Mail, mail.recipients = destinations host req ∧
        sendMail host now box req = (.stored, box ++ [mail])) := by
  obtain ⟨user, domain, body⟩ := req
  cases user with
  | none => exact .inl ⟨rfl, rfl⟩
  | some user =>
    cases body with
    | none => exact .inr (.inl ⟨rfl, rfl, rfl⟩)
    | some body =>
      right
      right
      simp only [Option.isSome_some, true_and, sendMail, destinations, Option.getD_some,
        mailOf_date host user domain (cstr body) now]
      cases made : mailOf host user domain (cstr body) 0 with
      | none => exact .inl ⟨rfl, rfl⟩
      | some mail =>
        right
        have some_ := (mailOf_addressed made).2.1
        simp only [Option.map_some, MailBox.push]
        rcases Nat.lt_or_ge box.length maxMails with room | full
        · rw [if_pos room]
          exact .inr ⟨some_, room, { mail with date := now, index := box.length }, rfl, rfl⟩
        · rw [if_neg (Nat.not_lt.mpr full)]
          exact .inl ⟨some_, full, rfl⟩

section runs
variable {host : Text} {registered : Bool}

theorem distribute_spec (host : Text) (now : Int) (registered : Bool) (box : MailBox)
    (req : Request) (destinations : List Text) :
    (otherDomains host destinations = [] ∧
      distribute host now registered box req destinations = ⟨.stored, box, none⟩) ∨
    (otherDomains host destinations ≠ [] ∧
      (distribute host now registered box req destinations).sent = .threw) := by
  unfold distribute
  split
  next none_ => exact .inl ⟨none_, rfl⟩
  next _ some_ => exact .inr ⟨by simp [some_], rfl⟩
  next _ some_ => exact .inr ⟨by simp [some_], rfl⟩

/-- The server goes on after a harmless request, and only after one. -/
theorem alive_next_iff {i j : Instance} {e : Event} (moved : next host registered i e = some j) :
    j.alive = true ↔ Harmless host i e := by
  unfold next at moved
  split at moved
  · cases moved
    simp only [decide_eq_true_eq]
    rcases sendMail_spec host e.now i.box e.req with ⟨anonymous, sent⟩ | ⟨user, bodyless, sent⟩ |
      ⟨user, body, none_, sent⟩ | ⟨user, body, some_, full, sent⟩ |
      ⟨user, body, some_, room, mail, to_, sent⟩
    · simp only [sendMailOn, sent]
      refine iff_of_true (by simp) ⟨?_, ?_, ?_⟩
      all_goals simp [anonymous]
    · simp only [sendMailOn, sent]
      refine iff_of_false (by simp) fun harmless => ?_
      simpa [bodyless] using harmless.readable user
    · simp only [sendMailOn, sent]
      refine iff_of_true (by simp) ⟨fun _ => body, ?_, ?_⟩
      all_goals simp [none_]
    · simp only [sendMailOn, sent]
      refine iff_of_false (by simp) fun harmless => ?_
      exact absurd (harmless.room user some_) (Nat.not_lt.mpr full)
    · simp only [sendMailOn, sent]
      split
      next local_ =>
        rcases distribute_spec host e.now registered (i.box ++ [mail]) e.req
            (destinations host e.req) with ⟨none_, is_⟩ | ⟨some_', is_⟩
        · rw [is_]
          refine iff_of_true (by simp) ⟨fun _ => body, fun _ _ => room, fun _ _ => ?_⟩
          exact otherDomains_eq_nil_iff.mp none_
        · rw [is_]
          refine iff_of_false (by simp) fun harmless => some_' ?_
          exact otherDomains_eq_nil_iff.mpr (harmless.here user local_)
      next remote =>
        refine iff_of_true (by simp) ⟨fun _ => body, fun _ _ => room, fun _ local_ => ?_⟩
        exact absurd local_ remote
  · cases moved

/-- An instance goes on exactly as long as every request is harmless. -/
theorem survives_iff (host : Text) (registered : Bool) (events : List Event) :
    EveryState (next host registered) (fun i : Instance => i.alive = true) {} events ↔
      EveryStep (next host registered) (Harmless host) {} events := by
  refine everyState_iff (I := fun i : Instance => i.alive = true) (fun _ => id) ?_ ?_ rfl events
  · exact fun i e j _ moved harmless => (alive_next_iff moved).mpr harmless
  · exact fun i e j _ moved alive => (alive_next_iff moved).mp alive

/-- The request as it goes to an instance of one of its destinations. -/
def PassedOn (host : Text) (req passed : Request) : Prop :=
  ∃ dom, dom ≠ host ∧ dom ≠ [] ∧ (∃ r ∈ destinations host req, domainOf r = some dom) ∧
    req.domain = none ∧ passed = { req with domain := some dom }

theorem passed_spec {now : Int} {box : MailBox} {req passed : Request}
    (is_ : (sendMailOn host now registered box req).passed = some passed) :
    (sendMailOn host now registered box req).sent = .threw ∧ PassedOn host req passed := by
  unfold sendMailOn at is_ ⊢
  split at is_
  next after sent =>
    split at is_
    next local_ =>
      rw [if_pos local_]
      unfold distribute at is_ ⊢
      split at is_
      · cases is_
      · cases is_
      next dom rest some_ doms =>
        cases is_
        have listed : dom ∈ otherDomains host (destinations host req) := by
          rw [doms]
          exact List.mem_cons_self
        obtain ⟨other, r, is_, found⟩ := mem_otherDomains.mp listed
        exact ⟨rfl, dom, other, some_, ⟨r, is_, found⟩, local_, rfl⟩
    · cases is_
  · cases is_

/-- Behind a harmless request of a local user, the mails are the old ones and one to local users. -/
theorem box_of_harmless {i j : Instance} {e : Event} (moved : next host registered i e = some j)
    (alive : j.alive = true) (local_ : e.req.domain = none) {m : Mail} (listed : m ∈ j.box) :
    m ∈ i.box ∨ ∀ r ∈ m.recipients, domainOf r = some host := by
  have harmless := (alive_next_iff moved).mp alive
  unfold next at moved
  split at moved
  · cases moved
    simp only [sendMailOn] at listed
    rcases sendMail_spec host e.now i.box e.req with ⟨_, sent⟩ | ⟨_, _, sent⟩ | ⟨_, _, _, sent⟩ |
      ⟨_, _, _, _, sent⟩ | ⟨user, body, some_, room, mail, to_, sent⟩
    · exact .inl (by simpa only [sent] using listed)
    · exact .inl (by simpa only [sent] using listed)
    · exact .inl (by simpa only [sent] using listed)
    · exact .inl (by simpa only [sent] using listed)
    · have here := harmless.here user local_
      simp only [sent, if_pos local_, distribute, otherDomains_eq_nil_iff.mpr here] at listed
      rcases List.mem_append.mp listed with old | new
      · exact .inl old
      · rw [List.mem_singleton.mp new, to_]
        exact .inr here
  · cases moved

/-- What holds of a run from any state that has handed nothing to the peers. -/
theorem run_spec {i j : Instance} {events : List Event}
    (run : Run (fun i e j => next host registered i e = some j) i events j)
    (nothing : i.passed = []) :
    j.passed.length ≤ 1 ∧
    (∀ req ∈ j.passed, j.alive = false ∧ ∃ e ∈ events, PassedOn host e.req req) ∧
    (j.alive = true → (∀ e ∈ events, e.req.domain = none) → ∀ m ∈ j.box,
      m ∈ i.box ∨ ∀ r ∈ m.recipients, domainOf r = some host) := by
  induction run with
  | refl i =>
    rw [nothing]
    exact ⟨Nat.zero_le _, by simp, fun _ _ m stored => .inl stored⟩
  | @cons i k j e events first rest ih =>
    have handed : k.passed = (sendMailOn host e.now registered i.box e.req).passed.toList := by
      unfold next at first
      split at first
      · cases first
        rw [nothing, List.nil_append]
      · cases first
    cases passed : (sendMailOn host e.now registered i.box e.req).passed with
    | none =>
      rw [passed] at handed
      obtain ⟨few, last, here⟩ := ih handed
      refine ⟨few, fun req listed => ?_, fun alive local_ m stored => ?_⟩
      · obtain ⟨dead, e', mem, to_⟩ := last req listed
        exact ⟨dead, e', List.mem_cons_of_mem _ mem, to_⟩
      · rcases here alive (fun e' mem => local_ e' (List.mem_cons_of_mem _ mem)) m stored with
          old | new
        · refine box_of_harmless first ?_ (local_ e List.mem_cons_self) old
          -- the server was alive when the rest of the run began
          cases rest with
          | refl => exact alive
          | cons second _ =>
            unfold next at second
            split at second
            next on => exact on
            · cases second
        · exact .inr new
    | some req =>
      rw [passed] at handed
      obtain ⟨threw, to_⟩ := passed_spec passed
      have dead : k.alive = false := by
        unfold next at first
        split at first
        · cases first
          simp [threw]
        · cases first
      cases rest with
      | refl =>
        rw [handed, dead]
        refine ⟨Nat.le_refl 1, fun req' listed => ?_, by simp⟩
        rw [List.mem_singleton.mp listed]
        exact ⟨rfl, e, List.mem_cons_self, to_⟩
      | cons second _ => simp [next, dead] at second

end runs

/-- A mail to an instance at c.d. -/
def toPeer : List Event := [⟨1, ⟨some (lit "alice"), none, some (lit "bob@c.d\nhello\ntext")⟩⟩]

/-- The destinations as they are written. -/
def written (body : Text) : List Text :=
  match cut 10 body with
  | some (destinations, _) => splitString destinations 44
  | none => []

theorem domainOf_append {name host : Text} (bare : 64 ∉ name) :
    domainOf (name ++ (lit "@" ++ host)) = some host := by
  have found : cut 64 (name ++ (lit "@" ++ host)) = some (name, host) := cut_append bare host
  rw [domainOf, found]
  rfl

theorem mem_map_withDomain {host r : Text} {names : List Text} :
    r ∈ names.map (withDomain host) ↔
      (64 ∈ r ∧ r ∈ names) ∨ ∃ d ∈ names, 64 ∉ d ∧ r = d ++ (lit "@" ++ host) := by
  simp only [List.mem_map, withDomain]
  constructor
  · rintro ⟨d, listed, rfl⟩
    split
    next bare => exact .inr ⟨d, listed, bare, rfl⟩
    next has => exact .inl ⟨not_not.mp has, listed⟩
  · rintro (⟨has, listed⟩ | ⟨d, listed, bare, rfl⟩)
    · exact ⟨r, listed, if_neg (not_not.mpr has)⟩
    · exact ⟨d, listed, if_pos bare⟩

/-- On another instance, a bare name is one of its own. -/
theorem recipients_agree_iff {hostA hostB : Text} (different : hostA ≠ hostB) (names : List Text) :
    (∀ r, domainOf r = some hostB →
      (r ∈ names.map (withDomain hostB) ↔ r ∈ names.map (withDomain hostA))) ↔
      ∀ d ∈ names, 64 ∉ d → d ++ (lit "@" ++ hostB) ∈ names := by
  constructor
  · intro agree d listed bare
    have here : domainOf (d ++ (lit "@" ++ hostB)) = some hostB := domainOf_append bare
    have copied : d ++ (lit "@" ++ hostB) ∈ names.map (withDomain hostB) :=
      mem_map_withDomain.mpr (.inr ⟨d, listed, bare, rfl⟩)
    rcases mem_map_withDomain.mp ((agree _ here).mp copied) with ⟨-, same⟩ | ⟨d', -, bare', same⟩
    · exact same
    · rw [same, domainOf_append bare', Option.some.injEq] at here
      exact absurd here different
  · intro named r here
    rw [mem_map_withDomain, mem_map_withDomain]
    constructor
    · rintro (written | ⟨d, listed, bare, rfl⟩)
      · exact .inl written
      · refine .inl ⟨?_, named d listed bare⟩
        have sign : (64 : Byte) ∈ lit "@" := by decide
        exact List.mem_append_right _ (List.mem_append_left _ sign)
    · rintro (written | ⟨d, -, bare, rfl⟩)
      · exact .inl written
      · rw [domainOf_append bare, Option.some.injEq] at here
        exact absurd here different

theorem mailOf_eq {host user body : Text} {domain : Option Text} {now : Int} {mail : Mail}
    (made : mailOf host user domain body now = some mail) :
    mail.fromUser = globalUserStr host user domain ∧
      mail.recipients = (written body).map (withDomain host) ∧
      ∀ host' domain' now', mailOf host' user domain' body now' = some
        { mail with
          fromUser := globalUserStr host' user domain'
          recipients := (written body).map (withDomain host')
          date := now' } := by
  unfold mailOf at made ⊢
  unfold written
  cases first : cut 10 body with
  | none => simp [first] at made
  | some parts =>
    cases second : cut 10 parts.2 with
    | none => simp [first, second] at made
    | some parts' =>
      simp only [first, second, Option.some.injEq] at made ⊢
      subst made
      exact ⟨rfl, rfl, fun _ _ _ => rfl⟩

/-- A request that another instance gets from its own peer. The copy is from the same user, and
goes no further. The users it is for there are those of the mail exactly where no name stands
alone, apart from names that are also written with the other domain. -/
theorem copy_delivered_iff {hostA hostB user body : Text} {now now' : Int} {registered : Bool}
    {box : MailBox} {mail : Mail} (different : hostA ≠ hostB)
    (made : mailOf hostA user none (cstr body) now = some mail) (room : box.length < maxMails) :
    ∃ copy, sendMailOn hostB now' registered box ⟨some user, some hostA, some body⟩ =
        ⟨.stored, box ++ [copy], none⟩ ∧
      copy.fromUser = mail.fromUser ∧ copy.subject = mail.subject ∧ copy.body = mail.body ∧
      ((∀ r, domainOf r = some hostB → (r ∈ copy.recipients ↔ r ∈ mail.recipients)) ↔
        ∀ d ∈ written (cstr body), 64 ∉ d → d ++ (lit "@" ++ hostB) ∈ written (cstr body)) := by
  obtain ⟨from_, to_, others⟩ := mailOf_eq made
  have copied := others hostB (some hostA) now'
  refine ⟨{ mail with
      fromUser := globalUserStr hostB user (some hostA)
      recipients := (written (cstr body)).map (withDomain hostB)
      date := now'
      index := box.length }, ?_, ?_, rfl, rfl, ?_⟩
  · simp only [sendMailOn, sendMail, copied, MailBox.push, if_pos room]
    rfl
  · rw [from_]
    rfl
  · rw [to_]
    exact recipients_agree_iff different _

/-- bob of a.b becomes bob of c.d. -/
theorem copy_for_other_bob : ∃ copy,
    sendMailOn (lit "c.d") 2 true [] ⟨some (lit "alice"), some (lit "a.b"),
        some (lit "bob,eve@c.d\nhello\ntext")⟩ = ⟨.stored, [copy], none⟩ ∧
      ¬ ∀ r, domainOf r = some (lit "c.d") →
        (r ∈ copy.recipients ↔ r ∈ [lit "bob@a.b", lit "eve@c.d"]) := by
  have different : lit "a.b" ≠ lit "c.d" := by decide
  have made : mailOf (lit "a.b") (lit "alice") none (cstr (lit "bob,eve@c.d\nhello\ntext")) 1 =
      some ⟨lit "alice@a.b", [lit "bob@a.b", lit "eve@c.d"], lit "hello", lit "\ntext", 1, 0⟩ := by
    decide +kernel
  have room : ([] : MailBox).length < maxMails := by decide
  obtain ⟨copy, stored, -, -, -, same⟩ := copy_delivered_iff different made room
  refine ⟨copy, stored, fun agree => ?_⟩
  exact absurd (same.mp agree (lit "bob") (by decide +kernel) (by decide)) (by decide +kernel)

end MailFederation
