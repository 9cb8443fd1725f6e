import Fiy.HeaderBlocks

/-!
# What a network mod is told about the requester

`ModConnectorNet` passes requests on in two ways: a client's, from its connection, and
one of a mod or a peer, from its record. Both assign the new target to a temporary, and
neither describes a requester as the other does. The record's headers are set after the
host's own fields.
-/

namespace NetIdentity

open ByteStrings KeyedTables HttpMessages HostEnvironment ModAccess ModConnectors
open Sessions PeerRequests OutgoingIdentity HeaderBlocks

/-- `r.headers_map()` of the record, whose strings are C strings. -/
def recordHeaders (req : FiyRequest) : Table Text Text :=
  match req.headers with
  | none => ∅
  | some fields => headersMapIn ((cstr fields).length + 1) (cstr fields) ∅

/-- The entries of the map, as they are set one after the other. -/
def entryPairs (t : Table Text Text) : Fields := t.entries.map fun e => (e.1, e.2)

/-- The four fields the host sets first. -/
def ownFields (bearerSend user domain method : Text) : Fields :=
  [("Fiy-Auth", bearerSend), ("Fiy-User", user), ("Fiy-Domain", domain), ("Fiy-Method", method)]

/-- `ModConnectorNet::handle_request(fiy_request_t)` up to the request it sends.
`verbString` is `http::to_string`, `none` where it throws. A null path, user, domain or
body is read as a C string. -/
def netForward (verbString : Verb → Option Text) (bearerSend : Text) (req : FiyRequest) :
    Except Fault Request :=
  match req.path with
  | none => .error .nullDereference
  | some path =>
    -- the result of `target()` is a view, and assigning to it sets no target
    let _target := lit "/request" ++ cstr path
    match req.user, req.domain with
    | none, _ => .error .nullDereference
    | some _, none => .error .nullDereference
    | some user, some domain => match verbString req.method with
      | none => .error (.thrown (.invalidArgument "unknown verb"))
      | some method => match req.body with
        | none => .error .nullDereference
        | some body => .ok
          { method := .post
            target := []
            fields := (setHeaders (setHeaders []
              (ownFields bearerSend (cstr user) (cstr domain) method))
              (entryPairs (recordHeaders req))).map fun field => (field.1, stored field.2)
            body := cstr body }

/-- The request says who asks for what, in the host's own words. -/
structure Describes (bearerSend : Text) (user domain : Option Text) (method path : Text)
    (sent : Request) : Prop where
  target : sent.target = lit "/request" ++ path
  auth : sent.fields.find "Fiy-Auth" = some bearerSend
  user : sent.fields.value "Fiy-User" = user.getD []
  domain : sent.fields.value "Fiy-Domain" = domain.getD []
  method : sent.fields.value "Fiy-Method" = method

/-- Whoever is found on a connection is described to the mod. -/
def SessionTrusted (verbString : Verb → Option Text) (h : Host) (s : Session) (m : Mod)
    (uri bearerSend : Text) (https : Bool) : Prop :=
  ∀ u h' s', findUser h s none = .ok (some u, h', s') →
    ∃ sent served, handleRequest h s { m with ipc := .net uri bearerSend https } = .ok served ∧
      served.effects = [.sendMod uri https sent] ∧
      Describes bearerSend (if u.user = [] ∨ u.user = lit " " then none else some u.user)
        u.domain ((verbString s.req.method).getD []) s.req.target sent

/-- The requester of a record is described to the mod. -/
def RecordTrusted (verbString : Verb → Option Text) (bearerSend : Text) (req : FiyRequest) :
    Prop :=
  ∃ sent, netForward verbString bearerSend req = .ok sent ∧
    Describes bearerSend (req.user.map cstr) (req.domain.map cstr)
      ((verbString req.method).getD []) (cstr (req.path.getD [])) sent

/-- Nobody is identified: the peer is answered at once, or `find_user` throws. -/
def NobodyFound (h : Host) (s : Session) : Prop :=
  ∀ u h' s', findUser h s none ≠ .ok (some u, h', s')

/-- A request of an identified requester is never sent: it is read through the pointer
that the callback has taken. -/
theorem handleRequest_net {h h' : Host} {s s' : Session} {u : User}
    (hfound : findUser h s none = .ok (some u, h', s')) (m : Mod) (uri bearerSend : Text)
    (https : Bool) :
    handleRequest h s { m with ipc := .net uri bearerSend https } =
      .error .nullDereference := by
  simp only [handleRequest, appIdArgument_eq, hfound, netHandle, moved]

theorem sessionTrusted_iff (verbString : Verb → Option Text) (h : Host) (s : Session) (m : Mod)
    (uri bearerSend : Text) (https : Bool) :
    SessionTrusted verbString h s m uri bearerSend https ↔ NobodyFound h s := by
  constructor
  · intro trusted u h' s' hfound
    obtain ⟨_, _, sent, _⟩ := trusted u h' s' hfound
    rw [handleRequest_net hfound] at sent
    cases sent
  · intro nobody u h' s' hfound
    exact absurd hfound (nobody u h' s')

/-- What is sent for a record, whole. -/
theorem netForward_ok {verbString : Verb → Option Text} {bearerSend : Text}
    {req : FiyRequest} {sent : Request}
    (h : netForward verbString bearerSend req = .ok sent) :
    ∃ user domain method, req.user = some user ∧ req.domain = some domain ∧
      verbString req.method = some method ∧ sent.target = [] ∧
      sent.fields = (setHeaders (setHeaders []
        (ownFields bearerSend (cstr user) (cstr domain) method))
        (entryPairs (recordHeaders req))).map fun field => (field.1, stored field.2) := by
  simp only [netForward] at h
  split at h
  · cases h
  · split at h
    · cases h
    · cases h
    · rename_i user domain huser hdomain
      split at h
      · cases h
      · rename_i method hmethod
        split at h <;> cases h
        exact ⟨user, domain, method, huser, hdomain, hmethod, rfl, rfl⟩

theorem not_recordTrusted (verbString : Verb → Option Text) (bearerSend : Text)
    (req : FiyRequest) : ¬ RecordTrusted verbString bearerSend req := by
  rintro ⟨sent, hsent, described⟩
  obtain ⟨_, _, _, _, _, _, target, _⟩ := netForward_ok hsent
  have wanted := described.target
  rw [target] at wanted
  cases wanted

/-! ## The fields of a record's request -/

/-- Every key that `headers_map` puts in is in lower case. -/
theorem headersMapIn_lower {lines : Nat} {fields : Text} {ret : Table Text Text}
    (before : ∀ key val, ret.lookup key = some val → key.map lower = key) :
    ∀ key val, (headersMapIn lines fields ret).lookup key = some val → key.map lower = key := by
  induction lines generalizing fields ret with
  | zero => exact before
  | succ lines ih =>
    simp only [headersMapIn]
    split
    · exact before
    · apply ih
      intro key val hlookup
      rw [lookup_emplace_snd] at hlookup
      rcases Option.or_eq_some_iff.mp hlookup with old | ⟨_, new⟩
      · exact before key val old
      · split at new
        · rename_i same
          rw [same]
          simp [lower_lower]
        · cases new

theorem recordHeaders_lower {req : FiyRequest} {key val : Text}
    (found : (recordHeaders req).lookup key = some val) : key.map lower = key := by
  simp only [recordHeaders] at found
  split at found
  · cases found
  · exact headersMapIn_lower (fun key val h => by cases h) key val found

/-- Setting the entries leaves the one whose key is the name in lower case. -/
theorem lastOf_entryPairs {t : Table Text Text}
    (lowered : ∀ key val, t.lookup key = some val → key.map lower = key) (name : Text) :
    lastOf (entryPairs t) name = t.lookup (name.map lower) := by
  have hit_iff : ∀ key val, t.lookup key = some val →
      (iequals key name = true ↔ key = name.map lower) := by
    intro key val hlookup
    simp [iequals, lowered key val hlookup]
  have listed : ∀ pair, pair ∈ (entryPairs t).reverse ↔ t.lookup pair.1 = some pair.2 := by
    intro pair
    rw [List.mem_reverse, entryPairs, List.mem_map, ← Option.mem_def, AList.mem_lookup_iff]
    constructor
    · rintro ⟨e, he, rfl⟩
      exact he
    · intro he
      exact ⟨_, he, rfl⟩
  cases hlast : lastOf (entryPairs t) name with
  | none =>
    have missing := List.find?_eq_none.mp (Option.map_eq_none_iff.mp hlast)
    cases hlookup : t.lookup (name.map lower) with
    | none => rfl
    | some val =>
      have hit := (hit_iff _ _ hlookup).mpr rfl
      exact absurd hit (missing (name.map lower, val) ((listed _).mpr hlookup))
  | some val =>
    obtain ⟨pair, hpair, rfl⟩ := Option.map_eq_some_iff.mp hlast
    have hlookup := (listed pair).mp (List.mem_of_find?_eq_some hpair)
    have hit := (hit_iff _ _ hlookup).mp (by simpa using List.find?_some hpair)
    rw [← hit, hlookup]

/-- No header of the record says anything else under the name of an own field. -/
def HeadersAgree (bearerSend user domain method : Text) (req : FiyRequest) : Prop :=
  ∀ field ∈ ownFields bearerSend user domain method,
    stored (((recordHeaders req).lookup (field.1.map lower)).getD field.2) = field.2

theorem find_ownFields {bearerSend user domain method : Text} {field : Text × Text}
    (own : field ∈ ownFields bearerSend user domain method) :
    (setHeaders [] (ownFields bearerSend user domain method)).find field.1 = some field.2 := by
  simp only [ownFields, List.mem_cons, List.not_mem_nil, or_false] at own
  rcases own with rfl | rfl | rfl | rfl
  all_goals
    rw [find_setHeaders]
    rfl

/-- A record's request has the host's own fields exactly when its headers agree. -/
theorem ownFields_kept_iff {verbString : Verb → Option Text} {bearerSend : Text}
    {req : FiyRequest} {sent : Request}
    (h : netForward verbString bearerSend req = .ok sent) :
    (∀ field ∈ ownFields bearerSend ((req.user.map cstr).getD []) ((req.domain.map cstr).getD [])
      ((verbString req.method).getD []), sent.fields.find field.1 = some field.2) ↔
    HeadersAgree bearerSend ((req.user.map cstr).getD []) ((req.domain.map cstr).getD [])
      ((verbString req.method).getD []) req := by
  obtain ⟨user, domain, method, huser, hdomain, hmethod, _, fields⟩ := netForward_ok h
  simp only [huser, hdomain, hmethod, Option.map_some, Option.getD_some]
  apply forall₂_congr
  intro field own
  have sent_value : sent.fields.find field.1 = some
      (stored (((recordHeaders req).lookup (field.1.map lower)).getD field.2)) := by
    rw [fields, find_map_stored, find_setHeaders, find_ownFields own,
      lastOf_entryPairs (fun key val => recordHeaders_lower), Option.or_some, Option.map_some]
  rw [sent_value, Option.some.injEq]

/-- On a connection a requester is described exactly when there is none. Of a record no
requester is: the target is lost, and the fields are the host's own exactly when the
headers say nothing else. -/
theorem trusted_iff (verbString : Verb → Option Text) (bearerSend : Text) :
    (∀ (h : Host) (s : Session) (m : Mod) (uri : Text) (https : Bool),
      SessionTrusted verbString h s m uri bearerSend https ↔ NobodyFound h s) ∧
    ∀ req : FiyRequest, ¬ RecordTrusted verbString bearerSend req ∧
      ∀ sent, netForward verbString bearerSend req = .ok sent →
        ((∀ field ∈ ownFields bearerSend ((req.user.map cstr).getD [])
            ((req.domain.map cstr).getD []) ((verbString req.method).getD []),
          sent.fields.find field.1 = some field.2) ↔
        HeadersAgree bearerSend ((req.user.map cstr).getD []) ((req.domain.map cstr).getD [])
          ((verbString req.method).getD []) req) := by
  constructor
  · intro h s m uri https
    exact sessionTrusted_iff verbString h s m uri bearerSend https
  · intro req
    exact ⟨not_recordTrusted verbString bearerSend req, fun sent hsent => ownFields_kept_iff hsent⟩

/-- The names of the methods that are used below. -/
def demoVerbString : Verb → Option Text
  | .get => some "GET"
  | .post => some "POST"
  | .other _ => none

/-- A record of `bob@b.net`, with a header that names another user. -/
def forgedRecord : FiyRequest where
  domain := some "b.net"
  user := some "bob"
  method := .get
  path := some "/inbox"
  headers := some "Fiy-User: alice"
  body := some []

/-- A logged-in user's request is not sent, and the record of `bob` goes out as one of
`alice` for no path. -/
theorem forgedRecord_not_trusted :
    ¬ SessionTrusted demoVerbString demoHost
      (Session.accept ⟨.get, "/blog", [("Cookie", "fiy_auth=tok")], []⟩) demoMod
      "localhost:7000" ".m" false ∧
    (∃ sent, netForward demoVerbString ".m" forgedRecord = .ok sent ∧ sent.target = [] ∧
      sent.fields.value "Fiy-User" = lit "alice") ∧
    ¬ RecordTrusted demoVerbString ".m" forgedRecord := by
  refine ⟨?_, ⟨_, rfl, rfl, by decide +kernel⟩, ?_⟩
  · intro trusted
    exact (sessionTrusted_iff _ _ _ _ _ _ _).mp trusted { user := "alice" } _ _ rfl
  · exact not_recordTrusted _ _ _

end NetIdentity
