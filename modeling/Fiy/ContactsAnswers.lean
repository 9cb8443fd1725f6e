import Fiy.ContactsMod

/-!
# How often the contacts mod answers a request

Everything `handle_request` does with a request. A profile or a picture of a user of
another instance is asked for there, and the callback answers with what comes back. The
rest is for users of this instance. The files of the frontend and the list of time zones
are parameters.
-/

namespace ContactsAnswers

open ByteStrings HttpMessages RowTables ModConnectors ModLibrary ContactCards ContactsStore
open ContactsMod

/-! ## The handler -/

/-- The callbacks of forwarded requests. -/
inductive Relay
  | profile
  | pfp
  deriving DecidableEq, Repr

inductive Effect
  | respond (res : ModResponse)
  | request (domain : Text) (relay : Relay)
  deriving DecidableEq, Repr

inductive Fault
  | thrown (exception : Thrown)
  /-- `SQLite::Exception` -/
  | sqlite (message : Text)
  deriving DecidableEq, Repr

abbrev Handled := Except Fault (List Effect)

structure Site where
  /-- a file of the frontend, with the global variables filled in where it is a template -/
  file : Text → Text
  /-- `get_timezones_json` -/
  timezones : Text

def reply (status : Int) (headers body : Text) : Handled :=
  .ok [.respond (respond status headers body)]

def Effect.ofMod (relay : Relay) : ModEffect → Effect
  | .respond res => .respond res
  | .forward _ domain => .request domain relay

/-- The answer of a handler that may forward the request. -/
def relayed (relay : Relay) : Answer → Handled
  | .error exception => .error (.thrown exception)
  | .ok effects => .ok (effects.map (Effect.ofMod relay))

/-- `host_base_uri` -/
def hostBaseUri (host : ModHost) : Text :=
  (if host.baseUri.getD 4 0 = 115 then lit "https://" else lit "http://") ++ host.domain

def noAuthResp (host : ModHost) : ModResponse where
  status := 303
  headers := some (lit "Location: " ++ hostBaseUri host ++ lit "/portal/login")

def fontPrefix : Text := "/fonts/fontawesome-webfont."

/-- The fonts behind the start of a path, with their headers. -/
def fonts : List (Text × Text × Text) :=
  [("eot", "Content-Type: application/vnd.ms-fontobject\nCache-Control: max-age=604800",
      "fontawesome-webfont.eot"),
   ("woff2", "Content-Type: font/woff2\nCache-Control: max-age=604800",
      "fontawesome-webfont.woff2"),
   ("woff", "Content-Type: font/woff\nCache-Control: max-age=604800", "fontawesome-webfont.woff"),
   ("ttf", "Content-Type: font/ttf\nCache-Control: max-age=604800", "fontawesome-webfont.ttf"),
   ("svg", "Cache-Control: max-age=604800", "fontawesome-webfont.svg")]

/-- Headers and file of the paths that are looked at first. -/
def assetFor (path : Text) : Option (Text × Text) :=
  if lit "/main.css" <+: path then
    some (lit "Content-Type: text/css\nCache-Control: max-age=604800", lit "main.css")
  else if lit "/main.js" <+: path then
    some (lit "Content-Type: text/javascript\nCache-Control: max-age=604800", lit "main.bundle.js")
  else if path = "/fa/fa.css" then
    some (lit "Content-Type: text/css\nCache-Control: max-age=604800", lit "font-awesome.css")
  else if fontPrefix <+: path then
    (fonts.find? fun font => font.1 <+: path.drop 27).map Prod.snd
  else none

/-- The path that is looked at next. A font that is not known has lost its prefix. -/
def pathAfterFonts (path : Text) : Text := if fontPrefix <+: path then path.drop 27 else path

/-- Headers and file of the icons. -/
def iconFor (path : Text) : Option (Text × Text) :=
  if path = "/icon.svg" then
    some (lit "Cache-Control: max-age=604800\nContent-Type: image/svg+xml", lit "icon.svg")
  else if path = "/favicon.ico" then
    some (lit "Cache-Control: max-age=604800\nContent-Type: image/x-icon", lit "favicon.ico")
  else none

/-! ## Reading the cards of a user -/

/-- The properties a card of somebody else has. -/
def contactProps (s : Store) (cardId : Nat) : List CardProp :=
  Store.cardProps <| s.properties.filter fun id _ =>
    s.cardProperties.any fun _ link => link.propertyId = id && link.cardId = cardId

/-- The properties of a profile card, once for each link. -/
def profileProps (s : Store) (cardId : Nat) : List CardProp :=
  s.properties.entries.flatMap fun e =>
    (s.profileCardProperties.entries.filter fun link =>
      link.2.propertyId = e.1 && link.2.cardId = cardId).map fun link =>
        { id := e.1, name := e.2.name, params := e.2.params, value := e.2.value,
          visibility := link.2.visibility }

/-- The loop of `get_user_rolodex`: the first profile card is shown as one. -/
def rolodexCards (host : ModHost) (s : Store) (localUser : Text) :
    List (Nat × CardRow) → Bool → Text × Bool
  | [], foundProfile => ([], foundProfile)
  | (id, row) :: rest, foundProfile =>
    let card : VC := { id, owner := localUser, user := row.user.getD [], updateTs := row.updateTs }
    let plain := foundProfile || decide (card.user ≠ card.owner)
    let card := { card with props := if plain then contactProps s id else profileProps s id }
    let more := rolodexCards host s localUser rest (foundProfile || !plain)
    (card.toVcard host ++ newline :: more.1, more.2)

/-- `get_user_rolodex` -/
def getUserRolodex (host : ModHost) (s : Store) (localUser : Text) : Text × Store :=
  let (cards, foundProfile) := rolodexCards host s localUser
    (s.cards.entries.filter fun e => e.2.owner = localUser) false
  if foundProfile then (cards, s)
  else
    let (card, s) := s.getProfile host localUser (some localUser) (some [])
    (cards ++ card.toVcard host, s)

/-- `get_contact` -/
def getContact (s : Store) (card : VC) : Store.Result × VC :=
  if card.id = -1 then (.error, card)
  else match s.cards.find? fun id row =>
      (id : Int) = card.id && (card.owner = [] || row.owner = card.owner) with
    | none => (.notFound, card)
    | some (id, row) =>
      let props := Store.cardProps <| s.properties.filter fun propertyId _ =>
        s.cardProperties.any (fun _ link => link.propertyId = propertyId && link.cardId = id) ||
        s.profileCardProperties.any fun _ link => link.propertyId = propertyId && link.cardId = id
      (.success, { card with
        user := row.user.getD [], updateTs := row.updateTs, props := card.props ++ props })

/-! ## Routes -/

/-- `GET /id/`: the result is taken as a truth value, of which success is the false one. -/
def getCard (host : ModHost) (s : Store) (user path : Text) : Handled :=
  match stoll path with
  | none => reply 400 [] "Invalid contact ID"
  | some id => match getContact s { id, owner := user } with
    | (.success, _) => reply 404 [] "No card with given id"
    | (_, card) => reply 200 "Content-Type: text/vcard" (card.toVcard host)

/-- `DELETE /delete/` -/
def deleteCard (s : Store) (user path : Text) : Handled × Store :=
  match stoll path with
  | none => (reply 400 [] "Invalid contact ID", s)
  | some id => match s.deleteContact user id with
    | .error message => (.error (.sqlite message), s)
    | .ok (_, s) => (reply 500 [] "TODO", s)

/-- What users of this instance get below the fonts. -/
def pageRequest (site : Site) (host : ModHost) (s : Store) (user : Text) (req : ModRequest)
    (path : Text) : Handled × Store :=
  match iconFor path with
  | some (headers, file) => (reply 200 headers (site.file file), s)
  | none =>
    if path = "/" ∨ path.length > 1 ∧ path[1]? = some 63 then
      (reply 200 "Content-Type: text/html" (site.file "index.html"), s)
    else if path = "/all" then
      let (cards, s) := getUserRolodex host s user
      (reply 200 "Content-Type: text/vcard" cards, s)
    else if path = "/save" then
      let (effects, s) := save host s user req.body
      (relayed .profile (.ok effects), s)
    else if lit "/id/" <+: path then (getCard host s user (path.drop 4), s)
    else if req.method = .other 1 ∧ lit "/delete/" <+: path then deleteCard s user (path.drop 7)
    else if path = "/tzdb" then
      (reply 200 "Content-Type: application/json\nCache-Control: max-age=604800" site.timezones, s)
    else (reply 404 [] "Not found", s)

/-- What users of this instance get. -/
def localRequest (site : Site) (host : ModHost) (s : Store) (user : Text) (req : ModRequest) :
    Handled × Store :=
  match assetFor req.path with
  | some (headers, file) => (reply 200 headers (site.file file), s)
  | none => pageRequest site host s user req (pathAfterFonts req.path)

def IsProfile (req : ModRequest) : Prop := req.method = .get ∧ lit "/profile/" <+: req.path

instance (req : ModRequest) : Decidable (IsProfile req) := inferInstanceAs (Decidable (_ ∧ _))

/-- `handle_request` -/
def handleRequest (site : Site) (host : ModHost) (s : Store) (req : ModRequest) :
    Handled × Store :=
  if IsProfile req then
    let (answer, s) := getProfile host s (req.path.drop 9) req
    (relayed .profile answer, s)
  else if lit "/pfp/" <+: req.path then
    (relayed .pfp (getPfp host s (req.path.drop 5) req), s)
  else match req.user, req.domain with
    | none, none => (.ok [.respond (noAuthResp host)], s)
    | none, some _ => (reply 404 [] [], s)
    | some _, some _ => (.ok [.respond (noAuthResp host)], s)
    | some user, none => localRequest site host s user req

/-! ## Counting the answers -/

/-- What the callback makes of what it is given; `none` is a null pointer. -/
def Relay.answer (domain : Text) : Relay → Option ModResponse → ModResponse
  | .profile, none => respond 500 "Content-Type: text/html"
      (lit "Failed to get profile from " ++ domain ++ lit ": Peer error.")
  | .profile, some res =>
    if res.status < 0 then respond 500 "Content-Type: text/html"
      (lit "Failed to get profile from " ++ domain ++ lit ": " ++ res.body)
    else res
  | .pfp, none => defaultPfp
  | .pfp, some res => if res.status < 0 then defaultPfp else res

section counting
variable (peer : Text → Option ModResponse)

/-- What an effect answers, when the host invokes a callback once. -/
def Effect.answer : Effect → ModResponse
  | .respond res => res
  | .request domain relay => relay.answer domain (peer domain)

/-- The invocations of the request's callback. A handler that throws has not answered. -/
def answers : Handled → List ModResponse
  | .error _ => []
  | .ok effects => effects.map (Effect.answer peer)

/-- The request is answered once. -/
def Once (handled : Handled) : Prop := (answers peer handled).length = 1

variable {peer}

@[simp]
theorem once_error (fault : Fault) : ¬ Once peer (.error fault) := by
  simp [Once, answers]

@[simp]
theorem once_ok (effects : List Effect) : Once peer (.ok effects) ↔ effects.length = 1 := by
  simp [Once, answers]

@[simp]
theorem once_reply (status : Int) (headers body : Text) :
    Once peer (reply status headers body) := by
  simp [reply]

@[simp]
theorem once_relayed_error (relay : Relay) (exception : Thrown) :
    ¬ Once peer (relayed relay (.error exception)) := by
  simp [relayed]

@[simp]
theorem once_relayed_ok (relay : Relay) (effects : List ModEffect) :
    Once peer (relayed relay (.ok effects)) ↔ effects.length = 1 := by
  simp [relayed]

end counting

section conditions
variable (host : ModHost)

/-- The name that goes into the JSON form. -/
def jsonName (vc : VC) : Text :=
  let name := vc.firstValue "FN"
  if name ≠ [] then name
  else match (vc.props.filter fun p => p.name = lit "N").map CardProp.value with
    | [] => []
    | n :: _ => VC.convertStructuredName n

/-- The texts that go into the JSON form. -/
def jsonTexts (vc : VC) : List Text :=
  [vc.firstValue "NOTE", vc.firstValue "EMAIL", jsonName vc, vc.firstValue "NICKNAME"] ++
    (vc.props.filter fun p => p.name = lit "X-SOCIALPROFILE").map CardProp.value ++
    (vc.props.filter fun p => p.name = lit "URL").map CardProp.value

/-- Where JSON is asked for, every text of the card can be written. -/
def CardOnce (req : ModRequest) (vc : VC) : Prop :=
  vc.invalid = false → findHeader req "Accept" = "application/json" →
    ∀ t ∈ jsonTexts vc, (host.jsonString t).isSome = true

/-- The profile of a user of this instance can be written. -/
def ProfileOnce (s : Store) (userStr : Text) (req : ModRequest) : Prop :=
  (host.splitUserStr userStr).2 = [] →
    CardOnce host req (s.getProfile host (host.splitUserStr userStr).1 req.user req.domain).1

/-- The photo is not an address, and what it holds after the first comma can be decoded if
it says that it holds data. -/
def PhotoOnce (photo : Text) : Prop :=
  ¬ lit "http" <+: photo ∧
    (lit "data:" <+: photo → ∀ before data, cut 44 (photo.drop 5) = some (before, data) →
      (host.base64Decode data).isSome = true)

/-- There is no photo, or one that is shown. -/
def PfpOnce (s : Store) (userStr : Text) (req : ModRequest) : Prop :=
  let photo := s.getPfp (host.splitUserStr userStr).1 req.user req.domain
  photo ≠ [] → PhotoOnce host photo

/-- The condition under which a request is answered once. -/
def AnswersOnce (s : Store) (req : ModRequest) : Prop :=
  (IsProfile req → ProfileOnce host s (req.path.drop 9) req) ∧
    (¬ IsProfile req → lit "/pfp/" <+: req.path → PfpOnce host s (req.path.drop 5) req)

end conditions

section handlers
variable {host : ModHost} {peer : Text → Option ModResponse}

theorem jsonList_isSome_iff (values : List Text) :
    (VC.jsonList host values).isSome = true ↔
      ∀ t ∈ values, (host.jsonString t).isSome = true := by
  rw [VC.jsonList, Option.isSome_map]
  induction values with
  | nil => simp
  | cons t rest ih =>
    rw [List.forall_mem_cons, ← ih, List.mapM_cons]
    cases host.jsonString t with
    | none => simp
    | some written => cases rest.mapM host.jsonString <;> simp

/-- A chain of calls returns when each of them does. -/
theorem isSome_bind_iff {α β : Type} {call : Option α} {rest : α → Option β} {later : Prop}
    (returns : ∀ a, (rest a).isSome = true ↔ later) :
    (call >>= rest).isSome = true ↔ call.isSome = true ∧ later := by
  cases call with
  | none => simp
  | some a => simpa using returns a

theorem toInternalJson_isSome_iff (vc : VC) :
    (vc.toInternalJson host).isSome = true ↔
      ∀ t ∈ jsonTexts vc, (host.jsonString t).isSome = true := by
  have calls : (vc.toInternalJson host).isSome = true ↔
      (host.jsonString (vc.firstValue "NOTE")).isSome = true ∧
      (host.jsonString (vc.firstValue "EMAIL")).isSome = true ∧
      (host.jsonString (jsonName vc)).isSome = true ∧
      (host.jsonString (vc.firstValue "NICKNAME")).isSome = true ∧
      (VC.jsonList host ((vc.props.filter fun p => p.name = lit "X-SOCIALPROFILE").map
        CardProp.value)).isSome = true ∧
      (VC.jsonList host ((vc.props.filter fun p => p.name = lit "URL").map
        CardProp.value)).isSome = true ∧ True := by
    refine isSome_bind_iff fun bio => isSome_bind_iff fun email => isSome_bind_iff fun name =>
      isSome_bind_iff fun nick => isSome_bind_iff fun socials => isSome_bind_iff fun websites => ?_
    simp only [Option.isSome_some]
  rw [calls, jsonList_isSome_iff, jsonList_isSome_iff, jsonTexts]
  simp only [List.forall_mem_append, List.forall_mem_cons, and_true, and_assoc]
  simp only [List.not_mem_nil, false_imp_iff, implies_true, true_and]

/-! ## One lemma for each function -/

theorem once_showCard (req : ModRequest) (vc : VC) :
    Once peer (relayed .profile (showCard host req vc)) ↔ CardOnce host req vc := by
  rw [CardOnce, ← toInternalJson_isSome_iff, showCard]
  cases vc.invalid with
  | true => simp
  | false =>
    by_cases json : findHeader req "Accept" = "application/json"
    · cases written : vc.toInternalJson host <;> simp [json]
    · simp [json]

theorem once_getProfile (s : Store) (userStr : Text) (req : ModRequest) :
    Once peer (relayed .profile (getProfile host s userStr req).1) ↔
      ProfileOnce host s userStr req := by
  unfold getProfile ProfileOnce
  by_cases here : (host.splitUserStr userStr).2 = []
  · simp only [here, if_true, true_imp_iff]
    exact once_showCard _ _
  · simp [here]

/-- A text does not start with both. -/
theorem not_http_of_data {photo : Text} (data : lit "data:" <+: photo) :
    ¬ lit "http" <+: photo := by
  intro http
  obtain ⟨rest, rfl⟩ := data
  obtain ⟨more, same⟩ := http
  exact absurd (List.cons.inj same).1 (by decide)

theorem once_showPhoto (photo : Text) :
    Once peer (relayed .pfp (showPhoto host photo)) ↔ PhotoOnce host photo := by
  unfold showPhoto PhotoOnce
  by_cases data : lit "data:" <+: photo
  · have local_ := not_http_of_data data
    simp only [data, if_true, local_, if_false, true_imp_iff, not_false_eq_true, true_and]
    cases found : cut 44 (photo.drop 5) with
    | none => simp
    | some parts =>
      obtain ⟨before, encoded⟩ := parts
      cases decoded : host.base64Decode encoded <;> simp [decoded]
  · by_cases http : lit "http" <+: photo <;> simp [data, http]

theorem once_getPfp (s : Store) (userStr : Text) (req : ModRequest) :
    Once peer (relayed .pfp (getPfp host s userStr req)) ↔ PfpOnce host s userStr req := by
  unfold getPfp PfpOnce
  by_cases photo : s.getPfp (host.splitUserStr userStr).1 req.user req.domain = []
  · simp only [photo, if_true, ne_eq, not_true_eq_false, false_imp_iff, iff_true]
    split <;> simp
  · simp only [photo, if_false, ne_eq, not_false_eq_true, true_imp_iff]
    exact once_showPhoto _

/-- Users of this instance are always answered once below the profiles. -/
theorem once_getCard (s : Store) (user path : Text) : Once peer (getCard host s user path) := by
  unfold getCard
  split
  · exact once_reply _ _ _
  · split <;> exact once_reply _ _ _

/-- The slash before the number is left on, so there is never a number. -/
theorem stoll_slash (rest : Text) : stoll (47 :: rest) = none := rfl

theorem drop_delete {path : Text} (prefixed : lit "/delete/" <+: path) :
    ∃ rest, path.drop 7 = 47 :: rest := by
  obtain ⟨rest, rfl⟩ := prefixed
  exact ⟨rest, rfl⟩

theorem once_deleteCard (s : Store) (user : Text) {path : Text}
    (prefixed : lit "/delete/" <+: path) : Once peer (deleteCard s user (path.drop 7)).1 := by
  obtain ⟨rest, slash⟩ := drop_delete prefixed
  rw [slash, deleteCard, stoll_slash]
  exact once_reply _ _ _

theorem once_save (s : Store) (user body : Text) :
    Once peer (relayed .profile (.ok (save host s user body).1)) := by
  unfold save
  split <;> simp

theorem once_localRequest (site : Site) (s : Store) (user : Text) (req : ModRequest) :
    Once peer (localRequest site host s user req).1 := by
  unfold localRequest
  split
  · exact once_reply _ _ _
  · unfold pageRequest
    split
    · exact once_reply _ _ _
    · split_ifs with index all saved card delete
      · exact once_reply _ _ _
      · exact once_reply _ _ _
      · exact once_save _ _ _
      · exact once_getCard _ _ _
      · exact once_deleteCard _ _ delete.2
      · exact once_reply _ _ _
      · exact once_reply _ _ _

end handlers

/-- A library that takes ASCII, and decodes nothing here. -/
def demoHost : ModHost where
  domain := "a.net"
  baseUri := "https://a.net/contacts"
  now := 1700000000
  userInfo := fun user => if user = lit "alice" then 0 else 1
  jsonString := fun t => if t.all (· < 128) then some (lit "\"" ++ t ++ lit "\"") else none
  base64Decode := fun _ => none

def demoSite : Site where
  file := fun _ => []
  timezones := []

/-- What is left after alice has posted a profile with this property, for everybody. -/
def savedProfile (name value : Text) : Store :=
  (save demoHost Store.empty "alice" (lit "BEGIN:VCARD\nX-FIY-PROFILE:alice@a.net\n" ++ name ++
    lit ";X-FIY-VISIBILITY=3:" ++ value ++ lit "\nEND:VCARD")).2

def anybody (path headers : Text) : ModRequest :=
  ⟨.get, path, [], none, none, some headers⟩

end ContactsAnswers
