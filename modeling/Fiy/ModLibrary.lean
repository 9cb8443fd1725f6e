import Fiy.ModConnectors

/-!
# The library mods are written with

What `fiymod.hpp` adds to the C interface of a mod: the host record, the header
lookup, user strings and trust levels. A handler's effects are the responses it sends
and the requests it passes on.
-/

namespace ModLibrary

open ByteStrings HttpMessages ModConnectors

/-- `fiy_response_t`: `none` is a null pointer. -/
structure ModResponse where
  status : Int
  headers : Option Text := none
  body : Text := []
  deriving DecidableEq, Repr

/-- `Request::respond`: an empty headers string is passed as a null pointer. -/
def respond (status : Int) (headers body : Text) : ModResponse where
  status
  headers := if headers = [] then none else some headers
  body

inductive ModEffect
  | respond (res : ModResponse)
  /-- the request itself, sent on to the mod of this name on another instance -/
  | forward (mod domain : Text)
  deriving DecidableEq, Repr

/-- `getInt` of a column: the lowest 32 bits of the number, with their sign. -/
def getInt (n : Int) : Int := n.bmod 4294967296

/-- What the host tells a mod, and the libraries a mod is linked with. -/
structure ModHost where
  domain : Text
  baseUri : Text
  now : Int
  /-- `user_info`: 0 on success, 1 for an unknown user, -1 on an error -/
  userInfo : Text → Int
  /-- a string in the output of `nlohmann::json::dump`, which throws on broken UTF-8 -/
  jsonString : Text → Option Text
  /-- `base64::decode_into`, which throws on malformed text -/
  base64Decode : Text → Option Text

/-- `split_user_str`: a name without a domain, or with the own one, is local. -/
def ModHost.splitUserStr (host : ModHost) (user : Text) : Text × Text :=
  match cut 64 user with
  | none => (user, [])
  | some (name, dom) => if dom = [] ∨ dom = host.domain then (name, []) else (name, dom)

/-- The name part has no `@`. -/
theorem ModHost.at_notMem_splitUserStr (host : ModHost) (user : Text) :
    (64 : Byte) ∉ (host.splitUserStr user).1 := by
  simp only [splitUserStr]
  cases hcut : cut 64 user with
  | none => exact cut_eq_none_iff.mp hcut
  | some parts =>
    have absent := (cut_eq_some_iff.mp hcut).2
    by_cases h : parts.2 = [] ∨ parts.2 = host.domain <;> simpa [h] using absent

/-- `find_header`. A line without a colon is taken together with the next one. -/
def findHeaderIn (key : Text) : Nat → Text → Text
  | 0, _ => []
  | lines + 1, fields => match cut 58 fields with
    | none => []
    | some (name, rest) =>
      if iequals name key then
        (rest.dropWhile isSpace).takeWhile fun b => b ≠ 13 ∧ b ≠ 10
      else match cut newline rest with
        | none => []
        | some (_, rest) => findHeaderIn key lines rest

def findHeader (req : ModRequest) (key : Text) : Text :=
  match req.headers with
  | none => []
  | some fields => findHeaderIn key fields.length fields

example : findHeaderIn "accept" 4 "Host: a\r\nAccept:  text/html\r\nX: y" = lit "text/html" := by decide

/-- `Locality`, in the order of the enumeration. -/
inductive Locality
  | user
  | inst
  | fediverse
  | anonymous
  deriving DecidableEq, Repr

def Locality.level : Locality → Nat
  | .user => 0
  | .inst => 1
  | .fediverse => 2
  | .anonymous => 3

/-- `Request::locality` -/
def locality (req : ModRequest) (localUser : Text) : Locality :=
  match req.user, req.domain with
  | none, _ => .anonymous
  | some user, none => if localUser = user then .user else .inst
  | some _, some _ => .fediverse

end ModLibrary
