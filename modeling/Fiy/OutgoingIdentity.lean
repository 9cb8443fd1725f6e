import Fiy.PeerRequests

/-!
# The identity a peer request carries

`request_peer` sets the fields that say who is asking and then merges the mod's
headers string into the same message. In the mods that string is the header block
of the local client. The message object keeps field values without surrounding
blanks; fields of different names have no order.
-/

namespace OutgoingIdentity

universe u

open ByteStrings KeyedTables HttpMessages HostEnvironment PeerLinks PeerRegistry
open WebText Sessions PeerRequests

/-! ## The last field of a name -/

/-- What the last pair of this name says. -/
def lastOf {α : Type u} (pairs : List (Text × α)) (name : Text) : Option α :=
  (pairs.reverse.find? fun pair => iequals pair.1 name).map Prod.snd

theorem lastOf_concat {α : Type u} (pairs : List (Text × α)) (pair : Text × α) (name : Text) :
    lastOf (pairs ++ [pair]) name =
      if iequals pair.1 name then some pair.2 else lastOf pairs name := by
  by_cases same : iequals pair.1 name = true
  · simp [lastOf, same]
  · simp [lastOf, same]

theorem iequals_congr {name other : Text} (same : iequals name other = true) (third : Text) :
    iequals name third = iequals other third := by
  rw [Bool.eq_iff_iff]
  exact ⟨fun h => iequals_trans (iequals_comm name other ▸ same) h, iequals_trans same⟩

theorem find_congr (f : Fields) {name other : Text} (same : iequals name other = true) :
    f.find name = f.find other := by
  have agree : (fun field : Text × Text => iequals field.1 name) =
      fun field => iequals field.1 other := by
    funext field
    rw [iequals_comm field.1, iequals_comm field.1, iequals_congr same]
  rw [Fields.find, agree, Fields.find]

/-- Merging pairs one after the other, the last of each name wins. -/
theorem find_setHeaders (f pairs : Fields) (name : Text) :
    (setHeaders f pairs).find name = (lastOf pairs name).or (f.find name) := by
  induction pairs using List.reverseRecOn with
  | nil => rfl
  | append_singleton pairs pair ih =>
    have step : setHeaders f (pairs ++ [pair]) = (setHeaders f pairs).set pair.1 pair.2 := by
      simp [setHeaders, List.foldl_append]
    rw [step, lastOf_concat]
    by_cases same : iequals pair.1 name = true
    · rw [if_pos same, ← find_congr _ same, Fields.find_set_self]
      rfl
    · rw [Fields.find_set_other _ _ (by simpa using same), ih, if_neg same]

theorem responseSetHeaders_eq (f : Fields) (headers : Option Text) :
    responseSetHeaders f headers false = setHeaders f (parsedHeaders headers) := by
  cases headers <;> rfl

/-! ## The message on the wire -/

/-- A field value as the message object keeps it. -/
def stored (value : Text) : Text := (value.dropWhile isHeaderBlank).rdropWhile isHeaderBlank

/-- The request that is sent. -/
def wireRequest (c : Crypto) (now : Int) (peer : Peer) (appId : Text) (req : FiyRequest) :
    Except Fault Request :=
  (peerRequest c now peer appId req).map fun r =>
    { r with fields := r.fields.map fun field => (field.1, stored field.2) }

theorem find_map_stored (f : Fields) (name : Text) :
    Fields.find (f.map fun field => (field.1, stored field.2)) name =
      (f.find name).map stored := by
  induction f with
  | nil => rfl
  | cons field f ih =>
    by_cases same : iequals field.1 name = true
    · simp [Fields.find, same]
    · simpa [Fields.find, same] using ih

/-- The values the host computes, from the link, the request, the clock and the MAC. -/
def hostFields (c : Crypto) (now : Int) (peer : Peer) (appId : Text) (req : FiyRequest) :
    Fields :=
  let user := stringOrEmpty req.user
  let path := stringOrEmpty req.path
  let nowStr := decimalInt now
  [("Fiy-Peer", peer.auth.bearerTokenWeSend), ("Fiy-User", user), ("Fiy-Path", path),
    ("Fiy-Now", nowStr),
    ("Authorization", lit "FIY1 " ++ peer.sig c appId path user req.bodyView.length nowStr)]

/-- A request can be put on the wire. -/
def Sent (req : FiyRequest) : Prop := Sendable req ∧ req.domain.isSome = true

/-- The message before the mod's headers are merged into it. -/
def hostMessage (c : Crypto) (now : Int) (peer : Peer) (appId : Text) (req : FiyRequest) :
    Fields :=
  (setHeaders [] (hostFields c now peer appId req)).set "Host" (cstr (req.domain.getD []))

section outgoing
variable {c : Crypto} {now : Int} {peer : Peer} {appId : Text} {req : FiyRequest} {r : Request}

/-- The host's own values are in the message before the merge. -/
theorem find_hostMessage {field : Text × Text}
    (own : field ∈ hostFields c now peer appId req) :
    (hostMessage c now peer appId req).find field.1 = some field.2 := by
  simp only [hostFields, List.mem_cons, List.not_mem_nil, or_false] at own
  rw [hostMessage]
  rcases own with rfl | rfl | rfl | rfl | rfl
  all_goals
    dsimp only
    rw [Fields.find_set_other _ _ (by decide), find_setHeaders]
    rfl

theorem find_hostMessage_cookie :
    (hostMessage c now peer appId req).find "Cookie" = none := by
  rw [hostMessage, Fields.find_set_other _ _ (by decide), find_setHeaders]
  rfl

theorem sent_iff (c : Crypto) (now : Int) (peer : Peer) (appId : Text) (req : FiyRequest) :
    Sent req ↔ ∃ r, wireRequest c now peer appId req = .ok r := by
  rw [wireRequest]
  rcases peerRequest_cases c now peer appId req with
    ⟨unsendable, e, he⟩ | ⟨_, missing, he⟩ | ⟨sendable, r, hr⟩
  · rw [he]
    exact iff_of_false (fun sent => unsendable sent.1) (by rintro ⟨r, hr⟩; cases hr)
  · rw [he]
    exact iff_of_false (fun sent => by simp [Sent, missing] at sent)
      (by rintro ⟨r, hr⟩; cases hr)
  · rw [hr]
    refine iff_of_true ⟨sendable, ?_⟩ ⟨_, rfl⟩
    cases hd : req.domain with
    | some domain => rfl
    | none =>
      simp only [peerRequest, hd] at hr
      split at hr <;> cases hr

/-- What is on the wire, whole. -/
theorem wireRequest_eq (h : wireRequest c now peer appId req = .ok r) :
    r = { method := req.method
          target := lit "/mods/" ++ appId
          fields := (setHeaders (hostMessage c now peer appId req)
            (parsedHeaders req.headers)).map fun field => (field.1, stored field.2)
          body := req.bodyView } := by
  simp only [wireRequest, peerRequest] at h
  split at h
  · cases h
  · split at h
    · cases h
    · rename_i domain hdomain
      split at h
      · cases h
      · cases h
        simp only [peerFields, responseSetHeaders_eq, hostMessage, hdomain, Option.getD_some]
        rfl

/-- A field on the wire is the last one the mod gave, else the host's. -/
theorem find_wireRequest (h : wireRequest c now peer appId req = .ok r) (name : Text) :
    r.fields.find name = ((lastOf (parsedHeaders req.headers) name).or
      ((hostMessage c now peer appId req).find name)).map stored := by
  rw [wireRequest_eq h]
  exact (find_map_stored _ _).trans (congrArg _ (find_setHeaders _ _ _))

end outgoing

/-! ## Cookies -/

theorem mem_foldl_cookies (parts : List Text) (cookies : Table Text Text) (name : Text) :
    name ∈ parts.foldl (fun cookies pair => match parseCookie pair with
      | none => cookies
      | some (key, val) => (emplace cookies key val).2) cookies ↔
      name ∈ cookies ∨ ∃ part ∈ parts, (parseCookie part).map Prod.fst = some name := by
  induction parts generalizing cookies with
  | nil => simp
  | cons part parts ih =>
    rw [List.foldl_cons, ih]
    cases hpart : parseCookie part with
    | none => simp [hpart]
    | some kv =>
      obtain ⟨key, val⟩ := kv
      have added : name ∈ (emplace cookies key val).2 ↔ name ∈ cookies ∨ key = name := by
        by_cases present : key ∈ cookies
        · rw [emplace_of_mem present]
          exact ⟨Or.inl, fun h => h.elim id fun same => same ▸ present⟩
        · rw [emplace_of_notMem present, AList.mem_insert]
          exact ⟨fun h => h.elim (fun same => Or.inr same.symm) Or.inl,
            fun h => h.elim Or.inr fun same => Or.inl same.symm⟩
      simp only [added, List.mem_cons, exists_eq_or_imp, hpart, Option.map_some, Option.some.injEq,
        or_assoc]

/-- A Cookie header holds a cookie when one of its parts is named so. -/
theorem mem_parseCookies_iff (header name : Text) :
    name ∈ parseCookies header ↔
      ∃ part ∈ header.splitOn 59, (parseCookie part).map Prod.fst = some name := by
  exact (mem_foldl_cookies (header.splitOn 59) ∅ name).trans (by simp)

/-! ## What the fields may not be -/

/-- The names of the fields that say who is asking. -/
def hostNames : List Text :=
  ["Fiy-Peer", "Fiy-User", "Fiy-Path", "Fiy-Now", "Authorization"].map lit

def isHostName (name : Text) : Bool := hostNames.any (iequals name)

def isCookieField (name : Text) : Bool := iequals name "Cookie"

/-- The cookies of a header value, without the one that logs the client in. -/
def otherCookies (value : Text) : List Text :=
  ((stored value).splitOn 59).filter fun part =>
    (parseCookie part).map Prod.fst ≠ some (lit "fiy_auth")

/-- What an extra header says besides identity and credentials. -/
def scrubField (field : Text × Text) : Option (Text × List Text) :=
  if isHostName field.1 then none
  else if isCookieField field.1 then
    if otherCookies field.2 = [] then none else some (field.1, otherCookies field.2)
  else some (field.1, [stored field.2])

def scrub (headers : Option Text) : List (Text × List Text) :=
  (parsedHeaders headers).filterMap scrubField

section harmless
variable (c : Crypto) (now : Int) (peer : Peer) (appId : Text) (req : FiyRequest)

/-- The request carries the values the host computed. -/
def Carries (r : Request) : Prop :=
  ∀ field ∈ hostFields c now peer appId req, r.fields.find field.1 = some field.2

/-- What goes on the wire says who is asking, and logs nobody in. -/
def Unforged : Prop :=
  ∀ r, wireRequest c now peer appId req = .ok r →
    Carries c now peer appId req r ∧ ownToken r = none

/-- Two messages with the same fields; their order is not observed. -/
structure Same (r r' : Request) : Prop where
  method : r.method = r'.method
  target : r.target = r'.target
  body : r.body = r'.body
  fields : ∀ name, r.fields.find name = r'.fields.find name

/-- Neither headers string forges anything, and two that differ in identity and
credentials only give the same message. -/
def Protected (headers headers' : Option Text) : Prop :=
  Unforged c now peer appId { req with headers := headers } ∧
  Unforged c now peer appId { req with headers := headers' } ∧
  (scrub headers = scrub headers' →
    ∀ r r', wireRequest c now peer appId { req with headers := headers } = .ok r →
      wireRequest c now peer appId { req with headers := headers' } = .ok r' → Same r r')

/-- The last header of each identity field, if there is one, repeats the host's value, and
the last Cookie header holds no `fiy_auth`. -/
def Harmless (headers : Option Text) : Prop :=
  (∀ field ∈ hostFields c now peer appId req,
    stored ((lastOf (parsedHeaders headers) field.1).getD field.2) = field.2) ∧
  ∀ value, lastOf (parsedHeaders headers) "Cookie" = some value →
    lit "fiy_auth" ∉ parseCookies (stored value)

variable {c : Crypto} {now : Int} {peer : Peer} {appId : Text} {req : FiyRequest}

/-- One request is unforged exactly when its headers string is harmless. -/
theorem unforged_iff : Unforged c now peer appId req ↔
    (Sent req → Harmless c now peer appId req req.headers) := by
  have carries_iff : ∀ {r}, wireRequest c now peer appId req = .ok r →
      ∀ field ∈ hostFields c now peer appId req,
        (r.fields.find field.1 = some field.2 ↔
          stored ((lastOf (parsedHeaders req.headers) field.1).getD field.2) = field.2) := by
    intro r hr field own
    rw [find_wireRequest hr, find_hostMessage own, Option.or_some, Option.map_some,
      Option.some.injEq]
  have token_iff : ∀ {r}, wireRequest c now peer appId req = .ok r →
      (ownToken r = none ↔ ∀ value, lastOf (parsedHeaders req.headers) "Cookie" = some value →
        lit "fiy_auth" ∉ parseCookies (stored value)) := by
    intro r hr
    rw [ownToken, AList.lookup_eq_none, requestCookies, Fields.value, find_wireRequest hr,
      find_hostMessage_cookie, Option.or_none]
    cases lastOf (parsedHeaders req.headers) "Cookie" with
    | none => simp
    | some value =>
      simp only [Option.map_some, Option.getD_some, Option.some.injEq, forall_eq']
      split
      · rename_i empty
        rw [empty]
        exact iff_of_true (AList.notMem_empty _) (by decide)
      · rfl
  constructor
  · intro unforged sent
    obtain ⟨r, hr⟩ := (sent_iff c now peer appId req).mp sent
    obtain ⟨carries, token⟩ := unforged r hr
    exact ⟨fun field own => (carries_iff hr field own).mp (carries field own),
      (token_iff hr).mp token⟩
  · intro harmless r hr
    obtain ⟨own, cookie⟩ := harmless ((sent_iff c now peer appId req).mpr ⟨r, hr⟩)
    exact ⟨fun field hfield => (carries_iff hr field hfield).mpr (own field hfield),
      (token_iff hr).mpr cookie⟩

end harmless

/-! ## What scrubbing leaves -/

theorem scrubField_name {field : Text × Text} {kept : Text × List Text}
    (h : scrubField field = some kept) : kept.1 = field.1 := by
  simp only [scrubField] at h
  split at h
  · cases h
  · split at h
    · split at h <;> cases h
      rfl
    · cases h
      rfl

/-- Scrubbing keeps the last field of a name when it keeps that field itself. -/
theorem lastOf_scrub {headers : Option Text} {name : Text} {g : Text → List Text}
    (kept : ∀ field : Text × Text, iequals field.1 name = true →
      lastOf (parsedHeaders headers) name = some field.2 →
      scrubField field = some (field.1, g field.2)) :
    lastOf (scrub headers) name = (lastOf (parsedHeaders headers) name).map g := by
  rw [scrub]
  generalize parsedHeaders headers = pairs at kept ⊢
  induction pairs using List.reverseRecOn with
  | nil => rfl
  | append_singleton pairs field ih =>
    rw [List.filterMap_append, lastOf_concat]
    by_cases same : iequals field.1 name = true
    · have hkept := kept field same (by rw [lastOf_concat, if_pos same])
      simp [hkept, lastOf_concat, same]
    · have rest := ih fun other hother hlast => kept other hother (by
        rw [lastOf_concat, if_neg same, hlast])
      rw [if_neg same, ← rest]
      cases hfield : scrubField field with
      | none => simp [hfield]
      | some q => simp [hfield, lastOf_concat, scrubField_name hfield, same]

theorem isHostName_congr {name other : Text} (same : iequals name other = true) :
    isHostName name = isHostName other := by
  rw [isHostName, isHostName, funext (iequals_congr same)]

/-- A harmless Cookie header is kept whole. -/
theorem otherCookies_of_harmless {value : Text}
    (harmless : lit "fiy_auth" ∉ parseCookies (stored value)) :
    otherCookies value = (stored value).splitOn 59 := by
  rw [otherCookies, List.filter_eq_self]
  intro part hpart
  rw [mem_parseCookies_iff] at harmless
  simpa using fun named => harmless ⟨part, hpart, named⟩

section together
variable {c : Crypto} {now : Int} {peer : Peer} {appId : Text} {req : FiyRequest}
variable {headers headers' : Option Text}

/-- The last Cookie header survives scrubbing when it is harmless. -/
theorem lastOf_scrub_cookie (harmless : Harmless c now peer appId req headers) :
    lastOf (scrub headers) "Cookie" = (lastOf (parsedHeaders headers) "Cookie").map
      fun value => (stored value).splitOn 59 := by
  apply lastOf_scrub
  intro field same last
  have whole := otherCookies_of_harmless (harmless.2 _ last)
  have nonempty : (stored field.2).splitOn 59 ≠ [] := List.splitOnP_ne_nil _ _
  have unprotected : isHostName field.1 = false := by
    rw [isHostName_congr same]
    decide
  have cookie : isCookieField field.1 = true := same
  simp [scrubField, unprotected, cookie, whole, nonempty]

/-- So does the last header of any name that is neither. -/
theorem lastOf_scrub_other (headers : Option Text) {name : Text}
    (unprotected : isHostName name = false) (other : isCookieField name = false) :
    lastOf (scrub headers) name = (lastOf (parsedHeaders headers) name).map
      fun value => [stored value] := by
  apply lastOf_scrub
  intro field same _
  have hfield : isHostName field.1 = false := by rw [isHostName_congr same, unprotected]
  have hcookie : isCookieField field.1 = false := by
    rw [isCookieField, iequals_congr same]
    exact other
  simp [scrubField, hfield, hcookie]

/-- Every name the host sets is the name of one of its fields. -/
theorem exists_hostField (c : Crypto) (now : Int) (peer : Peer) (appId : Text)
    (req : FiyRequest) {name : Text} (protect : isHostName name = true) :
    ∃ field ∈ hostFields c now peer appId req, iequals name field.1 = true := by
  have names : hostNames = (hostFields c now peer appId req).map Prod.fst := rfl
  obtain ⟨n, hn, same⟩ := List.any_eq_true.mp protect
  rw [names, List.mem_map] at hn
  obtain ⟨field, hfield, rfl⟩ := hn
  exact ⟨field, hfield, same⟩

theorem splitOn_injective : Function.Injective fun value : Text => value.splitOn 59 := by
  intro value value' same
  calc value = List.intercalate [59] (value.splitOn 59) := (List.intercalate_splitOn 59).symm
    _ = List.intercalate [59] (value'.splitOn 59) := congrArg _ same
    _ = value' := List.intercalate_splitOn 59

/-- A value can be read off what scrubbing keeps of it. -/
theorem map_stored_eq {g : Text → List Text} (injective : Function.Injective g)
    {o o' : Option Text} (same : o.map (fun value => g (stored value)) =
      o'.map fun value => g (stored value)) : o.map stored = o'.map stored := by
  apply Option.map_injective injective
  rw [Option.map_map, Option.map_map]
  exact same

/-- Two harmless headers strings that agree outside identity and credentials. -/
theorem same_of_harmless (harmless : Harmless c now peer appId req headers)
    (harmless' : Harmless c now peer appId req headers')
    (agree : scrub headers = scrub headers') {r r' : Request}
    (hr : wireRequest c now peer appId { req with headers := headers } = .ok r)
    (hr' : wireRequest c now peer appId { req with headers := headers' } = .ok r') :
    Same r r' := by
  refine ⟨?_, ?_, ?_, fun name => ?_⟩
  · rw [wireRequest_eq hr, wireRequest_eq hr']
  · rw [wireRequest_eq hr, wireRequest_eq hr']
  · rw [wireRequest_eq hr, wireRequest_eq hr']
    rfl
  have base : hostMessage c now peer appId { req with headers := headers } =
    hostMessage c now peer appId { req with headers := headers' } := rfl
  by_cases protect : isHostName name = true
  · -- both carry the host's value
    obtain ⟨field, own, same⟩ := exists_hostField c now peer appId req protect
    have carries := (unforged_iff.mpr fun _ => harmless) r hr
    have carries' := (unforged_iff.mpr fun _ => harmless') r' hr'
    rw [find_congr _ same, find_congr _ same]
    exact (carries.1 field own).trans (carries'.1 field own).symm
  · by_cases cookie : isCookieField name = true
    · have last := lastOf_scrub_cookie harmless
      rw [agree, lastOf_scrub_cookie harmless'] at last
      have value := map_stored_eq splitOn_injective last
      rw [find_congr _ cookie, find_congr _ cookie, find_wireRequest hr, find_wireRequest hr',
        base, find_hostMessage_cookie, Option.or_none, Option.or_none]
      exact value.symm
    · have unprotected : isHostName name = false := by simpa using protect
      have other : isCookieField name = false := by simpa using cookie
      have last := lastOf_scrub_other headers unprotected other
      rw [agree, lastOf_scrub_other headers' unprotected other] at last
      have value := map_stored_eq (g := fun value => [value]) List.singleton_injective last
      rw [find_wireRequest hr, find_wireRequest hr', base, Option.map_or, Option.map_or]
      exact congrArg (Option.or · _) value.symm

end together

end OutgoingIdentity
