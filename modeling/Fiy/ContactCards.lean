import Fiy.ModLibrary

/-!
# Cards of the contacts mod

`VC`, its text form, its JSON form and the parser of posted cards. A card with a
negative id is not stored yet. The `REV` line of a posted card is skipped here, since
saving a card overwrites its time.
-/

namespace ContactCards

open ByteStrings WebText ModLibrary

/-- `VC::Prop` -/
structure CardProp where
  id : Int := -1
  name : Text
  params : Text
  value : Text
  /-- an `int8_t` -/
  visibility : Int := 0
  deriving DecidableEq, Repr

structure VC where
  id : Int := -1
  owner : Text := []
  user : Text := []
  updateTs : Int := 0
  props : List CardProp := []
  deriving DecidableEq, Repr

namespace VC

def invalid (vc : VC) : Bool := vc.id = -1 && vc.updateTs = 0

/-! ## Text form -/

def crlf : Text := [13, 10]

/-- Year, month and day of a day counted from 1970-01-01. -/
def civilDate (day : Int) : Int × Int × Int :=
  let z := day + 719468
  let era := z / 146097
  let doe := z % 146097
  let yoe := (doe - doe / 1460 + doe / 36524 - doe / 146096) / 365
  let doy := doe - (365 * yoe + yoe / 4 - yoe / 100)
  let mp := (5 * doy + 2) / 153
  let month := if mp < 10 then mp + 3 else mp - 9
  (yoe + era * 400 + (if month ≤ 2 then 1 else 0), month, doy - (153 * mp + 2) / 5 + 1)

example : civilDate 19674 = (2023, 11, 13) := by decide

def twoDigits (n : Int) : Text := (if n < 10 then lit "0" else []) ++ decimalInt n

/-- `get_timestamp_str`, for years of four digits -/
def timestampStr (t : Int) : Text :=
  let (year, month, day) := civilDate (t / 86400)
  decimalInt year ++ twoDigits month ++ twoDigits day ++ lit "T" ++
    twoDigits (t % 86400 / 3600) ++ twoDigits (t % 3600 / 60) ++ twoDigits (t % 60) ++ lit "Z"

/-- `'0' + item.visibility`, appended as a character -/
def visibilityByte (visibility : Int) : Byte := UInt8.ofNat ((48 + visibility) % 256).toNat

def propLine (profile : Bool) (p : CardProp) : Text :=
  p.name ++ (if p.params = [] then [] else lit ";" ++ p.params) ++
    (if p.visibility ≠ 0 ∨ profile then lit ";X-FIY-VISIBILITY=" ++ [visibilityByte p.visibility]
      else []) ++
    (if p.id ≥ 0 then lit ";X-FIY-ID=" ++ decimalInt p.id else []) ++
    lit ":" ++ p.value ++ crlf

def toVcard (host : ModHost) (vc : VC) : Text :=
  if vc.invalid then [] else
    lit "BEGIN:VCARD" ++ crlf ++ lit "VERSION:4.0" ++ crlf ++
    (if vc.id ≥ 0 then
      lit "SOURCE:" ++ host.baseUri ++ lit "/id/" ++ decimalInt vc.id ++ crlf ++
        lit "UID:" ++ decimalInt vc.id ++ crlf
    else []) ++
    (if vc.user ≠ [] ∧ vc.owner = vc.user then
      lit "X-FIY-PROFILE:" ++ vc.user ++ lit "@" ++ host.domain ++ crlf
    else []) ++
    (if vc.user ≠ [] then
      lit "X-SOCIALPROFILE;TYPE=fiy:" ++ vc.user ++ lit "@" ++ host.domain ++ crlf
    else []) ++
    (if vc.updateTs ≠ 0 then lit "REV:" ++ timestampStr vc.updateTs ++ crlf else []) ++
    vc.props.flatMap (propLine (vc.user = vc.owner)) ++
    (if vc.props.any fun p => p.name = "N" || p.name = "FN" then []
      else lit "FN:" ++ vc.user ++ crlf) ++
    lit "END:VCARD"

/-! ## JSON form -/

/-- One part of a structured name: the position of its end is used as its length. -/
def namePart (value : Text) (i : Nat) : Text × Nat :=
  if i ≥ value.length then ([], i)
  else match cut 59 (value.drop i) with
    | none => (value.drop i, value.length)
    | some (part, _) => ((value.drop i).take (i + part.length), i + part.length + 1)

def convertStructuredName (value : Text) : Text :=
  let (surnames, i) := namePart value 0
  let (givenNames, i) := namePart value i
  let (additionalNames, i) := namePart value i
  let (prefixes, i) := namePart value i
  let (suffixes, _) := namePart value i
  let parts := [prefixes, givenNames, additionalNames, surnames, suffixes].filter (· ≠ [])
  List.intercalate (lit " ") (parts.map fun part => part.map fun b => if b = 44 then 32 else b)

def jsonList (host : ModHost) (values : List Text) : Option Text :=
  (values.mapM host.jsonString).map fun items =>
    lit "[" ++ List.intercalate (lit ",") items ++ lit "]"

/-- The first value of this name that is not empty. -/
def firstValue (vc : VC) (name : Text) : Text :=
  ((vc.props.find? fun p => p.name = name ∧ p.value ≠ []).map CardProp.value).getD []

/-- `none` when the library throws. Keys are in the order of `std::map`. -/
def toInternalJson (host : ModHost) (vc : VC) : Option Text := do
  let values := fun name : Text => (vc.props.filter fun p => p.name = name).map CardProp.value
  let name := vc.firstValue "FN"
  let name := if name ≠ [] then name else match values "N" with
    | [] => []
    | n :: _ => convertStructuredName n
  let bio ← host.jsonString (vc.firstValue "NOTE")
  let email ← host.jsonString (vc.firstValue "EMAIL")
  let name ← host.jsonString name
  let nick ← host.jsonString (vc.firstValue "NICKNAME")
  let socials ← jsonList host (values "X-SOCIALPROFILE")
  let websites ← jsonList host (values "URL")
  some <| lit "\x7b\"bio\":" ++ bio ++ lit ",\"email\":" ++ email ++ lit ",\"name\":" ++ name ++
    lit ",\"nick\":" ++ nick ++ lit ",\"socials\":" ++ socials ++ lit ",\"websites\":" ++
    websites ++ lit "\x7d"

/-! ## The parser -/

/-- `std::regex_replace` of `\n\s` by nothing -/
def unfoldLines : Text → Text
  | [] => []
  | [b] => [b]
  | b :: next :: rest =>
    if b = newline ∧ isSpace next then unfoldLines rest else b :: unfoldLines (next :: rest)

/-- The lookahead `(?=\S)`. -/
def startsLine (t : Text) : Bool := match t.head? with
  | none => false
  | some b => !isSpace b

/-- The pieces between line ends that a non-blank follows. Of `\r\n` the second byte ends
the line. -/
def cardLines : Text → List Text
  | [] => [[]]
  | b :: rest =>
    if b = 13 ∧ rest.head? = some newline ∧ startsLine rest.tail then cardLines rest
    else if (b = 13 ∨ b = newline) ∧ startsLine rest then [] :: cardLines rest
    else match cardLines rest with
      | [] => [[b]]
      | line :: lines => (b :: line) :: lines

/-- What the parameters of a property say. -/
structure Params where
  params : Text := []
  visibility : Int := 0
  id : Int := -1

/-- Conversion to `int8_t`. -/
def int8 (n : Int) : Int := (n + 128) % 256 - 128

/-- `p[17] - '0'`, with the terminator after the last character -/
def visibilityParam (p : Text) : Int := min 3 (int8 ((p.getD 17 0).toNat - 48))

/-- `none`: the property is the link to the FIY user instead. -/
def parseParams (social : Bool) : List Text → Params → Option Params
  | [], found => some found
  | p :: ps, found =>
    if lit "X-FIY-VISIBILITY=" <+: p then
      parseParams social ps { found with visibility := visibilityParam p }
    else if lit "X-FIY-ID=" <+: p then
      parseParams social ps { found with id := (strtol (cstr (p.drop 9))).getD (-1) }
    else if lit "TYPE=fiy" <+: p ∧ social then none
    else parseParams social ps { found with params := found.params ++ lit ";" ++ p }

/-- `split_user_str`, as both ways to name the user of a card use it -/
def userOf (host : ModHost) (value : Text) : Text :=
  let (name, domain) := host.splitUserStr value
  if domain = [] then name else value

/-- Properties that are not stored. -/
def skippedNames : List Text :=
  ["BEGIN", "END", "AGENT", "CLASS", "MAILER", "PROFILE", "SORT-STRING", "CLIENTPIDMAP",
    "VERSION"].map lit

/-- One line; `none` without a colon, which ends the parse. -/
def parseLine (host : ModHost) (card : VC) (line : Text) : Option VC :=
  match cut 58 line with
  | none => none
  | some (field, value) =>
    let name := field.takeWhile (· ≠ 59)
    let rawParams := field.dropWhile (· ≠ 59)
    if name ∈ skippedNames then some card
    else if name = "UID" then some { card with id := (stoll (cstr value)).getD card.id }
    else if name = "X-FIY-PROFILE" then some { card with user := userOf host value }
    else if name = "REV" ∨ name = "SOURCE" then some card
    else
      let params := (rawParams.splitOn 59).filter (· ≠ [])
      match parseParams (name = "X-SOCIALPROFILE") params {} with
      | none => some { card with user := userOf host value }
      | some found => some { card with
          props := card.props ++
            [⟨found.id, name, found.params.tail, value, found.visibility⟩] }

def parseLines (host : ModHost) : VC → List Text → Bool × VC
  | card, [] => (true, card)
  | card, line :: lines => match parseLine host card line with
    | none => (false, card)
    | some card => parseLines host card lines

/-- `VC::parse` -/
def parse (host : ModHost) (card : VC) (vc : Text) : Bool × VC :=
  let vc := trim vc
  if lit "BEGIN:VCARD" <+: vc then parseLines host card (cardLines (unfoldLines vc))
  else (false, card)

/-- A posted card keeps the owner it was given. -/
theorem parseLine_owner {host : ModHost} {card card' : VC} {line : Text}
    (h : parseLine host card line = some card') : card'.owner = card.owner := by
  simp only [parseLine] at h
  split at h
  · cases h
  · repeat' split at h
    all_goals
      cases h
      rfl

theorem parseLines_owner (host : ModHost) (lines : List Text) (card : VC) :
    (parseLines host card lines).2.owner = card.owner := by
  induction lines generalizing card with
  | nil => rfl
  | cons line lines ih =>
    simp only [parseLines]
    split
    · rfl
    · rename_i card' parsed
      rw [ih, parseLine_owner parsed]

theorem parse_owner (host : ModHost) (card : VC) (vc : Text) :
    (parse host card vc).2.owner = card.owner := by
  simp only [parse]
  split
  · exact parseLines_owner host _ card
  · rfl

end VC

end ContactCards
