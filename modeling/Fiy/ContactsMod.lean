import Fiy.ContactsStore

/-!
# Requests to the contacts mod

The handlers that show or change cards: a profile, a profile picture, a posted card.
-/

namespace ContactsMod

open ByteStrings ModConnectors ModLibrary ContactCards ContactsStore

/-- What a handler throws: the libraries' exceptions, which nothing catches. -/
inductive Thrown
  /-- `nlohmann::json::type_error` -/
  | json
  /-- `std::runtime_error` of the base64 decoder -/
  | base64
  deriving DecidableEq, Repr

abbrev Answer := Except Thrown (List ModEffect)

/-- `VC::default_pfp_raw` -/
def defaultPfpRaw : Text :=
  [137, 80, 78, 71, 13, 10, 26, 10, 0, 0, 0, 13, 73, 72, 68, 82, 0, 0, 1, 0, 0, 0, 1, 0, 1, 3,
    0, 0, 0, 102, 188, 58, 37, 0, 0, 0, 3, 80, 76, 84, 69, 181, 208, 208, 99, 4, 22, 234, 0, 0,
    0, 31, 73, 68, 65, 84, 104, 129, 237, 193, 1, 13, 0, 0, 0, 194, 160, 247, 79, 109, 14, 55,
    160, 0, 0, 0, 0, 0, 0, 0, 0, 190, 13, 33, 0, 0, 1, 154, 96, 225, 213, 0, 0, 0, 0, 73, 69,
    78, 68, 174, 66, 96, 130]

def defaultPfp : ModResponse where
  status := 404
  headers := some "Content-Type: image/png\nCache-Control: max-age=300\nAccess-Control-Allow-Origin: *"
  body := defaultPfpRaw

/-- How `get_profile` shows a card. -/
def showCard (host : ModHost) (req : ModRequest) (vc : VC) : Answer :=
  if vc.invalid then .ok [.respond (respond 404 [] "Not found")]
  else if findHeader req "Accept" = "application/json" then
    match vc.toInternalJson host with
    | none => .error .json
    | some body => .ok [.respond (respond 200 "Content-Type: application/json" body)]
  else .ok [.respond (respond 200 "Content-Type:text/vcard" (vc.toVcard host))]

/-- `get_profile`: profiles of other instances are requested from them. -/
def getProfile (host : ModHost) (s : Store) (userStr : Text) (req : ModRequest) :
    Answer × Store :=
  let (user, dom) := host.splitUserStr userStr
  if dom = [] then
    let (vc, s) := s.getProfile host user req.user req.domain
    (showCard host req vc, s)
  else (.ok [.forward "contacts" dom], s)

/-- How `get_pfp` shows a photo. After a redirect it goes on. -/
def showPhoto (host : ModHost) (photo : Text) : Answer :=
  let redirect := if lit "http" <+: photo then
    [.respond (respond 307 (lit "Location: " ++ photo) [])] else []
  if lit "data:" <+: photo then
    let pfp := photo.drop 5
    match cut 44 pfp with
    | none => .ok (redirect ++ [.respond defaultPfp])
    | some (before, data) =>
      let mediaType := before.takeWhile (· ≠ 59)
      match host.base64Decode data with
      | none => .error .base64
      | some raw => .ok (redirect ++ [.respond (respond 200
          (lit "Access-Control-Allow-Origin: *\nCache-Control: max-age=300\nContentType: " ++
            mediaType) raw)])
  else .ok (redirect ++ [.respond defaultPfp])

/-- `get_pfp`: a picture from the own cards comes first, also for remote users. -/
def getPfp (host : ModHost) (s : Store) (userStr : Text) (req : ModRequest) : Answer :=
  let (user, dom) := host.splitUserStr userStr
  let photo := s.getPfp user req.user req.domain
  if photo = [] then
    if dom = [] then .ok [.respond defaultPfp] else .ok [.forward "contacts" dom]
  else showPhoto host photo

/-- The card that a local user posts. What the parser returns is ignored. -/
def posted (host : ModHost) (requester body : Text) : VC :=
  (VC.parse host { owner := requester } body).2

/-- `POST /save` by a local user. -/
def save (host : ModHost) (s : Store) (requester body : Text) : List ModEffect × Store :=
  match s.saveContact host (posted host requester body) with
  | (.success, card, s) =>
    ([.respond (respond 200 "Content-Type: text/vcard" (card.toVcard host))], s)
  | (.error, _, s) => ([.respond (respond 500 "Server Error" [])], s)
  | (.unauthorized, _, s) => ([.respond (respond 401 "Unauthorized" [])], s)
  | (.notFound, _, s) => ([.respond (respond 404 "Not Found" [])], s)

theorem posted_owner (host : ModHost) (requester body : Text) :
    (posted host requester body).owner = requester := VC.parse_owner host _ body

theorem save_store (host : ModHost) (s : Store) (requester body : Text) :
    (save host s requester body).2 = (s.saveContact host (posted host requester body)).2.2 := by
  simp only [save]
  split <;> simp [*]

end ContactsMod
