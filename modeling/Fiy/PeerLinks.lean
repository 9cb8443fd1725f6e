import Fiy.HostEnvironment

/-!
# The credentials of a peer link

`PeerAuth` and `Peer` with the two halves of the handshake encoding: the request
body the initiator writes and the responder parses, and the response the initiator
parses. The three-argument constructor hands its arguments on by position exactly
as the source does.
-/

namespace PeerLinks

open ByteStrings HostEnvironment

structure PeerAuth where
  symKey : Text := []
  pubkey : Text := []
  bearerTokenWeSend : Text := []
  bearerTokenWeAccept : Text := []
  linkTs : Int := 0
  deriving DecidableEq, Repr

namespace PeerAuth

/-- 1 week. -/
def sessionLifetime : Int := 60 * 60 * 24 * 7

/-- 1.5 hours. -/
def maxResponseTime : Int := 60 * 90

def reauthHttpStatus : Nat := 478

/-- The four-argument constructor. -/
def ofParts (symKey peerProvidedToken ourGeneratedToken : Text) (now : Int) : PeerAuth where
  symKey := symKey
  bearerTokenWeSend := peerProvidedToken
  bearerTokenWeAccept := ourGeneratedToken
  linkTs := now

/-- The three-argument constructor, which delegates to the four-argument one. -/
def ofProvided (symKey peerProvidedToken ourGeneratedToken : Text) (now : Int) : PeerAuth :=
  ofParts peerProvidedToken ourGeneratedToken symKey now

/-- The delegation rotates the three texts. -/
theorem ofProvided_rotates (symKey peerProvidedToken ourGeneratedToken : Text) (now : Int) :
    (ofProvided symKey peerProvidedToken ourGeneratedToken now).symKey = peerProvidedToken ∧
    (ofProvided symKey peerProvidedToken ourGeneratedToken now).bearerTokenWeSend =
      ourGeneratedToken ∧
    (ofProvided symKey peerProvidedToken ourGeneratedToken now).bearerTokenWeAccept = symKey :=
  ⟨rfl, rfl, rfl⟩

def isExpired (a : PeerAuth) (now : Int) : Bool := a.linkTs + sessionLifetime < now

def handshakeStart (a : PeerAuth) (ourGeneratedToken peerPubkey ourSymkeyHalf : Text) :
    PeerAuth :=
  { a with
    pubkey := peerPubkey
    bearerTokenWeSend := ourGeneratedToken
    symKey := ourSymkeyHalf }

/-- The text both sides of a handshake request sign and verify. -/
def handshakePayload (domain secret bearerToken : Text) : Text :=
  domain ++ newline :: secret ++ newline :: bearerToken

def handshakeRequestBody (c : Crypto) (cfg : Config) (a : PeerAuth) : Text :=
  let payload := handshakePayload cfg.hostname a.symKey a.bearerTokenWeAccept
  payload ++ newline :: c.sign cfg.privateKey payload

/-- `concat` joins its arguments: the braces are part of the signed text. -/
def preSig (bearerToken secret : Text) : Text := lit "{}\n{}" ++ bearerToken ++ secret

/-- `handshake_parse_response`: the object is updated as far as parsing got. -/
def handshakeParseResponse (c : Crypto) (now : Int) (a : PeerAuth) (body : Text) :
    Except Exn (Bool × PeerAuth) :=
  match cut newline body with
  | none => .ok (false, a)
  | some (bearerToken, rest) =>
    let a := { a with bearerTokenWeSend := bearerToken }
    match cut newline rest with
    | none => .ok (false, a)
    | some (secretPart2, sig) =>
      let a := { a with symKey := a.symKey ++ secretPart2 }
      match c.verify a.pubkey (preSig bearerToken secretPart2) sig with
      | .error e => .error e
      | .ok false => .ok (false, a)
      | .ok true => .ok (true, { a with linkTs := now })

/-- Parsing a response never touches the token we accept. -/
theorem parseResponse_accept {c : Crypto} {now : Int} {a a' : PeerAuth} {body : Text}
    {ok : Bool} (h : handshakeParseResponse c now a body = .ok (ok, a')) :
    a'.bearerTokenWeAccept = a.bearerTokenWeAccept := by
  simp only [handshakeParseResponse] at h
  split at h
  · cases h
    rfl
  · split at h
    · cases h
      rfl
    · split at h <;> cases h <;> rfl

end PeerAuth

structure Peer where
  /-- a C string -/
  domain : Text
  auth : PeerAuth
  deriving DecidableEq, Repr

namespace Peer

/-- Both constructors copy the domain with `strdup` or `strndup`. -/
def make (domain : Text) (auth : PeerAuth := {}) : Peer := ⟨cstr domain, auth⟩

/-- The text that is authenticated: the five fields without separators. -/
def macInput (appid path user : Text) (bodyLen : Nat) (ts : Text) : Text :=
  lit "FIY" ++ appid ++ path ++ user ++ decimal bodyLen ++ ts

def sig (c : Crypto) (p : Peer) (appid path user : Text) (bodyLen : Nat) (ts : Text) : Text :=
  c.hmac p.auth.symKey (macInput appid path user bodyLen ts)

/-- The components of a handshake request body. -/
structure HandshakeRequest where
  domain : Text
  secret : Text
  bearerToken : Text
  signature : Text
  deriving DecidableEq, Repr

/-- Three line ends separate the four parts, and none may be empty. -/
def splitHandshakeRequest (body : Text) : Option HandshakeRequest :=
  match cut newline body with
  | none => none
  | some (domain, rest) => match cut newline rest with
    | none => none
    | some (secret, rest) => match cut newline rest with
      | none => none
      | some (bearerToken, signature) =>
        if signature = [] ∨ bearerToken = [] ∨ secret = [] ∨ domain = [] then none
        else some ⟨domain, secret, bearerToken, signature⟩

/-- `parse_handshake_request`, with the signature it returns by reference. The
generated token is the default argument of the constructor. -/
def parseHandshakeRequest (body generated : Text) (now : Int) : Option (Peer × Text) :=
  (splitHandshakeRequest body).map fun r =>
    (make r.domain (PeerAuth.ofProvided r.secret r.bearerToken generated now), r.signature)

/-- Parts without line ends are read back from the joined body. -/
theorem splitHandshakeRequest_join {domain secret bearerToken : Text}
    (hd : newline ∉ domain) (hs : newline ∉ secret) (hb : newline ∉ bearerToken)
    (signature : Text) :
    splitHandshakeRequest
        (PeerAuth.handshakePayload domain secret bearerToken ++ newline :: signature) =
      if signature = [] ∨ bearerToken = [] ∨ secret = [] ∨ domain = [] then none
      else some ⟨domain, secret, bearerToken, signature⟩ := by
  have first := cut_append hd
    (secret ++ newline :: (bearerToken ++ newline :: signature))
  have second := cut_append hs (bearerToken ++ newline :: signature)
  have third := cut_append hb signature
  simp only [PeerAuth.handshakePayload, List.append_assoc, List.cons_append]
  simp only [splitHandshakeRequest, first, second, third]

end Peer

end PeerLinks
