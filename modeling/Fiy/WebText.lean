import Mathlib.Data.List.DropRight
import Fiy.KeyedTables
import Fiy.ByteStrings

/-!
# Cookies, forms and URI components

The text formats of `WebUtils`. The parsers walk indices over one buffer in the
source; here each step cuts the text that is left. Diagnostics on `std::cerr` are
not modelled.
-/

namespace WebText

open ByteStrings KeyedTables

/-! ## URI components -/

def hexVal (b : Byte) : Option Nat :=
  if 48 ≤ b ∧ b ≤ 57 then some (b.toNat - 48)
  else if 97 ≤ b ∧ b ≤ 102 then some (b.toNat - 87)
  else if 65 ≤ b ∧ b ≤ 70 then some (b.toNat - 55)
  else none

/-- The byte that two hexadecimal digits at the front of the text stand for. -/
def hexPair : Text → Option Byte
  | high :: low :: _ => match hexVal high, hexVal low with
    | some x, some y => some (UInt8.ofNat (x * 16 + y))
    | _, _ => none
  | _ => none

/-- The loop of `uri_decode`; `skip` counts bytes that an escape has consumed. A
percent sign without two hexadecimal digits stands for itself. -/
def uriDecodeFrom : Nat → Text → Text
  | _, [] => []
  | skip + 1, _ :: rest => uriDecodeFrom skip rest
  | 0, b :: rest =>
    if b = 43 then 32 :: uriDecodeFrom 0 rest
    else if b = 37 then match hexPair rest with
      | some escaped => escaped :: uriDecodeFrom 2 rest
      | none => 37 :: uriDecodeFrom 0 rest
    else b :: uriDecodeFrom 0 rest

def uriDecode (data : Text) : Text := uriDecodeFrom 0 data

def hexDigit (n : Nat) : Byte := UInt8.ofNat (if n > 9 then n + 55 else n + 48)

def charToHex (b : Byte) : Text := [hexDigit (b.toNat / 16), hexDigit (b.toNat % 16)]

/-- The bytes `uri_encode` copies. -/
def isUnreserved (b : Byte) : Bool := isAlnum b || b ∈ lit "-_.!~*()"

def encodeByte (b : Byte) : Text :=
  if b = 32 then [43] else if isUnreserved b then [b] else 37 :: charToHex b

def uriEncode (src : Text) : Text := src.flatMap encodeByte

/-! ## Cookie headers -/

/-- Space, tab, carriage return and line feed. -/
def isBlank (b : Byte) : Bool := b = 32 || b = 9 || b = 13 || b = 10

def trim (s : Text) : Text := (s.dropWhile isBlank).rdropWhile isBlank

/-- Surrounding double quotes are removed together. -/
def unquote (s : Text) : Text :=
  if 2 ≤ s.length ∧ s.head? = some 34 ∧ s.getLast? = some 34 then s.tail.dropLast else s

/-- The name and value of one `name=value` pair, when it has a name. -/
def parseCookie (pair : Text) : Option (Text × Text) :=
  match cut 61 pair with
  | none => none
  | some (key, val) =>
    if trim key = [] then none else some (trim key, unquote (trim val))

/-- The first cookie of a name is kept. -/
def parseCookies (header : Text) : Table Text Text :=
  (header.splitOn 59).foldl (fun cookies pair => match parseCookie pair with
    | none => cookies
    | some (key, val) => (emplace cookies key val).2) ∅

/-! ## Forms -/

/-- One iteration of the loop: the pair and the text behind its separator. A name
or a value that decodes to nothing is an error. -/
def parsePair (s : Text) : Option ((Text × Text) × Text) :=
  match cut 61 s with
  | none => none
  | some (key, rest) =>
    let (val, after) := (cut 38 rest).getD (rest, [])
    if uriDecode key = [] ∨ uriDecode val = [] then none
    else some ((uriDecode key, uriDecode val), after)

/-- The loop, with a bound on its iterations. -/
def parsePairs : Nat → Text → Option (List (Text × Text))
  | 0, _ => none
  | fuel + 1, s => match parsePair s with
    | none => none
    | some (kv, after) =>
      if after = [] then some [kv] else (parsePairs fuel after).map (kv :: ·)

/-- `parse_form_url_encoded`; every iteration consumes at least one byte. -/
def parseFormUrlEncoded (s : Text) : Option (List (Text × Text)) :=
  parsePairs (s.length + 1) s

theorem parsePair_length {s after : Text} {kv : Text × Text}
    (h : parsePair s = some (kv, after)) : after.length < s.length := by
  simp only [parsePair] at h
  cases hkey : cut 61 s with
  | none => simp [hkey] at h
  | some p =>
    obtain ⟨key, rest⟩ := p
    have hlen := cut_length hkey
    simp only [hkey] at h
    cases hval : cut 38 rest with
    | none =>
      simp only [hval, Option.getD_none] at h
      split at h
      · cases h
      · cases h
        simp
        omega
    | some q =>
      obtain ⟨val, after'⟩ := q
      have hlen' := cut_length hval
      simp only [hval, Option.getD_some] at h
      split at h
      · cases h
      · cases h
        omega

/-- More iterations than bytes are never needed. -/
theorem parsePairs_fuel {fuel fuel' : Nat} {s : Text} (h : s.length < fuel)
    (h' : s.length < fuel') : parsePairs fuel s = parsePairs fuel' s := by
  induction fuel generalizing fuel' s with
  | zero => omega
  | succ fuel ih =>
    cases fuel' with
    | zero => omega
    | succ fuel' =>
      cases hpair : parsePair s with
      | none => simp [parsePairs, hpair]
      | some p =>
        obtain ⟨kv, after⟩ := p
        have hlen := parsePair_length hpair
        have rest : parsePairs fuel after = parsePairs fuel' after := ih (by omega) (by omega)
        simp [parsePairs, hpair, rest]

/-- The form parser as the source's loop: the bound is gone. -/
theorem parseFormUrlEncoded_eq (s : Text) :
    parseFormUrlEncoded s = match parsePair s with
      | none => none
      | some (kv, after) =>
        if after = [] then some [kv] else (parseFormUrlEncoded after).map (kv :: ·) := by
  rw [parseFormUrlEncoded, parsePairs]
  cases hpair : parsePair s with
  | none => rfl
  | some p =>
    obtain ⟨kv, after⟩ := p
    have hlen := parsePair_length hpair
    simp only [parseFormUrlEncoded]
    rw [parsePairs_fuel hlen (Nat.lt_succ_self _)]

/-- The value the last field of this name has, as the handlers' loops leave it. -/
def formField (form : List (Text × Text)) (name : Text) : Text :=
  ((form.reverse.find? fun kv => kv.1 = name).map Prod.snd).getD []

/-! ## Set-Cookie -/

structure CookieOptions where
  encodeFn : Option (Text → Text) := some uriEncode
  maxAge : Int := -1
  expires : Text := []
  domain : Text := []
  path : Text := []
  httpOnly : Bool := false
  secure : Bool := false
  partitioned : Bool := false
  priority : Text := []
  sameSite : Text := []

/-- `cookie_name_regex` -/
def isCookieName (t : Text) : Bool :=
  t ≠ [] && t.all fun b => 33 ≤ b && b ≤ 126 && b ≠ 59 && b ≠ 61

/-- `cookie_value_regex` -/
def isCookieValue (t : Text) : Bool := t.all fun b => 33 ≤ b && b ≤ 126 && b ≠ 59

/-- `path_value_regex` -/
def isPathValue (t : Text) : Bool := t.all fun b => 32 ≤ b && b ≤ 126 && b ≠ 59 && b ≠ 60

/-- One label of `domain_value_regex`. -/
def isDomainLabel (t : Text) : Bool :=
  1 ≤ t.length && t.length ≤ 63 && t.head?.any isAlnum && t.getLast?.any isAlnum &&
    t.all fun b => isAlnum b || b = 45

/-- `domain_value_regex`: labels between dots, with an optional leading dot. -/
def isDomainValue (t : Text) : Bool :=
  ((if t.head? = some 46 then t.tail else t).splitOn 46).all isDomainLabel

def priorityText (priority : Text) : Text := match priority.head? with
  | none => []
  | some b =>
    if lower b = 108 then "; Priority=Low"
    else if lower b = 109 then "; Priority=Medium"
    else if lower b = 104 then "; Priority=High"
    else []

/-- Lower case `t` (for `true`) selects Strict, upper case `T` nothing. -/
def sameSiteText (sameSite : Text) : Text := match sameSite.head? with
  | none => []
  | some b =>
    if b = 116 ∨ lower b = 115 then "; SameSite=Strict"
    else if lower b = 108 then "; SameSite=Lax"
    else if lower b = 110 then "; SameSite=None"
    else []

def serializeCookie (name value : Text) (options : CookieOptions) : Text :=
  let value := match options.encodeFn with
    | some encode => encode value
    | none => value
  if !isCookieName name || !isCookieValue value then []
  else
    name ++ lit "=" ++ value
    ++ (if 0 ≤ options.maxAge then lit "; Max-Age=" ++ decimalInt options.maxAge else [])
    ++ (if options.domain ≠ [] ∧ isDomainValue options.domain then
        lit "; Domain=" ++ options.domain else [])
    ++ (if options.path ≠ [] ∧ isPathValue options.path then
        lit "; Path=" ++ options.path else [])
    ++ (if options.expires ≠ [] then lit "; Expires=" ++ options.expires else [])
    ++ (if options.httpOnly then lit "; HttpOnly" else [])
    ++ (if options.secure then lit "; Secure" else [])
    ++ (if options.partitioned then lit "; Partitioned" else [])
    ++ priorityText options.priority
    ++ sameSiteText options.sameSite

end WebText
