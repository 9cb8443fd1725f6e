import Fiy.ContactsAnswers

/-!
# Pictures of users of other instances

`GET /pfp/u@d` splits the name, and looks for a picture of the local user `u` before it
asks the instance `d`. Cards for `u@d` are not looked at. So the answer depends on the
profile and the cards of somebody else, unless there is no picture of his.
-/

namespace RemotePictures

open ByteStrings RowTables ModConnectors ModLibrary ContactCards ContactsStore ContactsMod
open ContactsAnswers

/-- The pictures that are not empty among the listed properties. -/
def photos (s : Store) (listed : Nat → Bool) : List Text :=
  ((s.properties.filter fun id row => listed id && row.name = lit "PHOTO").entries.map
    fun e => e.2.value).filter (· ≠ [])

/-- The pictures under a local name that a requester may see: those on his own cards, then
those on the profile. -/
def localPhotos (s : Store) (user : Text) (reqUser reqDomain : Option Text) : List Text :=
  (match reqUser, reqDomain with
    | some reqUser, none => photos s (s.onContact reqUser user)
    | _, _ => []) ++
  photos s (s.onProfile user (Store.visibility user reqUser reqDomain))

theorem head?_photos (s : Store) (listed : Nat → Bool) :
    (photos s listed).head? =
      Store.firstPhoto (s.properties.filter fun id row => listed id && row.name = "PHOTO") :=
  List.head?_filter

theorem getPfp_eq (s : Store) (user : Text) (reqUser reqDomain : Option Text) :
    s.getPfp user reqUser reqDomain = (localPhotos s user reqUser reqDomain).head?.getD [] := by
  rcases reqUser with _ | reqUser
  · simp only [localPhotos, List.nil_append, head?_photos]
    rfl
  · cases reqDomain with
    | some domain =>
      simp only [localPhotos, List.nil_append, head?_photos]
      rfl
    | none =>
      simp only [localPhotos, List.head?_append, head?_photos, Store.getPfp]
      cases Store.firstPhoto (s.properties.filter fun id row =>
        s.onContact reqUser user id && row.name = "PHOTO") <;> rfl

theorem ne_nil_of_mem_photos {s : Store} {listed : Nat → Bool} {photo : Text}
    (mem : photo ∈ photos s listed) : photo ≠ [] := by
  simpa using (List.mem_filter.mp mem).2

/-- Pictures are not empty. -/
theorem ne_nil_of_mem_localPhotos {s : Store} {user photo : Text} {reqUser reqDomain : Option Text}
    (listed : photo ∈ localPhotos s user reqUser reqDomain) : photo ≠ [] := by
  rcases List.mem_append.mp listed with own | profile
  · split at own
    · exact ne_nil_of_mem_photos own
    · cases own
  · exact ne_nil_of_mem_photos profile

section answers
variable (site : Site) (host : ModHost) (s : Store) (req : ModRequest)

/-- The responses a picture gives. No other instance is asked. -/
def shownAs (photo : Text) : List ModResponse :=
  answers (fun _ => none) (relayed .pfp (showPhoto host photo))

/-- A picture is answered by the mod itself. -/
theorem responds_of_showPhoto {photo : Text} {effects : List ModEffect}
    (shown : showPhoto host photo = .ok effects) :
    ∀ effect ∈ effects, ∃ res, effect = .respond res := by
  have redirect : ∀ effect ∈ (if lit "http" <+: photo then
      [ModEffect.respond (respond 307 (lit "Location: " ++ photo) [])] else []),
      ∃ res, effect = .respond res := by
    intro effect mem
    split at mem
    · exact ⟨_, List.mem_singleton.mp mem⟩
    · cases mem
  have more : ∀ res, ∀ effect ∈ (if lit "http" <+: photo then
      [ModEffect.respond (respond 307 (lit "Location: " ++ photo) [])] else []) ++
        [.respond res], ∃ res, effect = .respond res := by
    intro res effect mem
    rcases List.mem_append.mp mem with first | last
    · exact redirect effect first
    · exact ⟨res, List.mem_singleton.mp last⟩
  simp only [showPhoto] at shown
  split at shown
  · split at shown
    · cases shown
      exact more _
    · split at shown
      · cases shown
      · cases shown
        exact more _
  · cases shown
    exact more _

theorem answers_showPhoto (photo : Text) (peer : Text → Option ModResponse) :
    answers peer (relayed .pfp (showPhoto host photo)) = shownAs host photo := by
  unfold shownAs
  cases shown : showPhoto host photo with
  | error exception => rfl
  | ok effects =>
    simp only [relayed, answers, List.map_map]
    refine List.map_congr_left fun effect mem => ?_
    obtain ⟨res, rfl⟩ := responds_of_showPhoto host shown effect mem
    rfl

/-- The name is one of another instance. -/
structure RemoteName (user domain : Text) : Prop where
  plain : 64 ∉ user
  some_ : domain ≠ []
  elsewhere : domain ≠ host.domain

theorem splitUserStr_remote {host : ModHost} {user domain : Text}
    (remote : RemoteName host user domain) :
    host.splitUserStr (user ++ lit "@" ++ domain) = (user, domain) := by
  have cut_ : cut 64 (user ++ lit "@" ++ domain) = some (user, domain) := by
    rw [show lit "@" = [64] from rfl, List.append_assoc]
    exact cut_append remote.plain domain
  simp only [ModHost.splitUserStr, cut_, remote.some_, remote.elsewhere, or_self, if_false]

/-- The pictures under the local name decide: the first one is shown, and the other instance
is asked when there is none. -/
theorem answers_remote {user domain : Text} (remote : RemoteName host user domain)
    (path : req.path = lit "/pfp/" ++ (user ++ lit "@" ++ domain))
    (peer : Text → Option ModResponse) :
    answers peer (ContactsAnswers.handleRequest site host s req).1 =
      match (localPhotos s user req.user req.domain).head? with
      | none => [Relay.pfp.answer domain (peer domain)]
      | some photo => shownAs host photo := by
  have picture : lit "/pfp/" <+: req.path := path ▸ List.prefix_append _ _
  have other : ¬ IsProfile req := by
    rintro ⟨_, profile⟩
    rw [path] at profile
    obtain ⟨rest, same⟩ := profile
    have third : (lit "/profile/" ++ rest)[2]? = some 114 := rfl
    have third' : (lit "/pfp/" ++ (user ++ lit "@" ++ domain))[2]? = some 102 := rfl
    rw [same, third'] at third
    exact absurd third (by decide)
  have name : req.path.drop 5 = user ++ lit "@" ++ domain := by rw [path]; rfl
  simp only [ContactsAnswers.handleRequest, if_neg other, if_pos picture, name, ContactsMod.getPfp,
    splitUserStr_remote remote, getPfp_eq]
  cases first : (localPhotos s user req.user req.domain).head? with
  | none =>
    simp only [Option.getD_none, if_true, if_neg remote.some_]
    rfl
  | some photo =>
    have some_ := ne_nil_of_mem_localPhotos (List.mem_of_mem_head? first)
    simp only [Option.getD_some, if_neg some_]
    exact answers_showPhoto host photo peer

/-- What the first picture under the local name gives. -/
def firstShown (user : Text) : Option (List ModResponse) :=
  (localPhotos s user req.user req.domain).head?.map (shownAs host)

/-- The answers of another instance are not those to a picture. -/
theorem exists_other_answer (domain : Text) (shown : List ModResponse) :
    ∃ peer : Text → Option ModResponse, [Relay.pfp.answer domain (peer domain)] ≠ shown := by
  by_contra same
  simp only [not_exists, ne_eq, not_not] at same
  have ok := same fun _ => some (respond 200 [] [])
  have created := same fun _ => some (respond 201 [] [])
  rw [← created] at ok
  simp [Relay.answer, respond] at ok

/-- Two databases give the same response, whatever the other instance says, when neither has
a picture under the local name or the first ones are shown alike. -/
theorem remote_picture_iff {user domain : Text} (remote : RemoteName host user domain)
    {req : ModRequest} (path : req.path = lit "/pfp/" ++ (user ++ lit "@" ++ domain))
    (site : Site) (s s' : Store) :
    (∀ peer, answers peer (ContactsAnswers.handleRequest site host s req).1 =
        answers peer (ContactsAnswers.handleRequest site host s' req).1) ↔
      firstShown host s req user = firstShown host s' req user := by
  simp only [answers_remote site host _ req remote path, firstShown]
  cases (localPhotos s user req.user req.domain).head? with
  | none =>
    cases (localPhotos s' user req.user req.domain).head? with
    | none => simp
    | some photo' =>
      obtain ⟨peer, other⟩ := exists_other_answer domain (shownAs host photo')
      simpa using ⟨peer, other⟩
  | some photo =>
    cases (localPhotos s' user req.user req.domain).head? with
    | none =>
      obtain ⟨peer, other⟩ := exists_other_answer domain (shownAs host photo)
      simpa using ⟨peer, other.symm⟩
    | some photo' => simp

end answers

/-- A host whose decoder takes every text as it is. -/
def pictureHost : ModHost := { demoHost with base64Decode := some }

/-- Bob of this instance shows everybody a picture. -/
def bobsPicture : Store :=
  (Store.empty.saveContact pictureHost
    { owner := "bob", user := "bob"
      props := [⟨-1, "PHOTO", [], "data:image/png,x", 3⟩] }).2.2

/-- Somebody asks for the picture of another bob. -/
def askForBob : ModRequest where
  method := .get
  path := "/pfp/bob@b.net"
  body := []
  domain := none
  user := none
  headers := none

/-- What the other instance says. -/
def bNet : Text → Option ModResponse := fun _ => some (respond 200 "Content-Type: image/png" "b")

/-- He gets the picture of the bob who lives here. -/
theorem other_bobs_picture :
    answers bNet (ContactsAnswers.handleRequest demoSite pictureHost Store.empty askForBob).1 =
        [respond 200 "Content-Type: image/png" "b"] ∧
      answers bNet (ContactsAnswers.handleRequest demoSite pictureHost bobsPicture askForBob).1 =
        [respond 200 (lit "Access-Control-Allow-Origin: *\nCache-Control: max-age=300\n" ++
          lit "ContentType: image/png") "x"] := by
  decide +kernel

/-- These two databases are told apart as the condition says. -/
theorem remote_picture_iff_bob :
    (∀ peer,
      answers peer (ContactsAnswers.handleRequest demoSite pictureHost Store.empty askForBob).1 =
        answers peer (ContactsAnswers.handleRequest demoSite pictureHost bobsPicture askForBob).1) ↔
      firstShown pictureHost Store.empty askForBob "bob" =
        firstShown pictureHost bobsPicture askForBob "bob" :=
  remote_picture_iff pictureHost
    (show RemoteName pictureHost "bob" "b.net" from ⟨by decide, by decide, by decide⟩) rfl
    demoSite Store.empty bobsPicture

end RemotePictures
