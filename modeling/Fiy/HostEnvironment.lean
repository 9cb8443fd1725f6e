import Fiy.ByteStrings

/-!
# What the host takes from its libraries and its configuration

OpenSSL primitives, the base64 decoder and the URL parser are parameters. The
helpers the repository wraps around them are definitions, with their exceptions.
A C++ exception and the dereference of a null pointer are different faults: only
the first one can be caught.
-/

namespace HostEnvironment

open ByteStrings

inductive Exn
  /-- `Fields::at` on an absent field -/
  | outOfRange
  /-- `boost::urls::url_view` on text that is not a URL reference -/
  | invalidUrl
  /-- `throw_openssl_error` -/
  | openssl (message : Text)
  /-- `std::string` constructed from a null pointer -/
  | nullString
  /-- `std::invalid_argument`, for a verb that a request cannot carry -/
  | invalidArgument (message : Text)
  deriving DecidableEq, Repr

inductive Fault
  | thrown (e : Exn)
  | nullDereference
  /-- no fault yet: all the strings drawn so far are taken -/
  | drawing
  deriving DecidableEq, Repr

/-- `LocalUser::PASSWORD_HASH_SIZE` bytes. -/
abbrev Digest := { d : Text // d.length = 64 }

structure Crypto where
  /-- `PEM_read_bio_PUBKEY`: `none` is a null key -/
  readPubkey : Text → Option Text
  /-- `BIO_read` through the base64 filter: `none` is a negative count -/
  readBase64 : Text → Option Text
  /-- `EVP_DigestVerifyFinal` with SHA-256: key, data, raw signature -/
  digestVerify : Text → Text → Text → Int
  /-- `Crypto::SSL::sign` with a loaded private key -/
  sign : Text → Text → Text
  /-- `Crypto::hmac`: key and message -/
  hmac : Text → Text → Text
  sha512 : Text → Digest
  /-- `boost::beast::detail::base64::decode` -/
  b64Decode : Text → Text

/-- `Crypto::SSL::verify`: a key or a signature OpenSSL cannot use throws. -/
def Crypto.verify (c : Crypto) (pubkey data b64sig : Text) : Except Exn Bool :=
  match c.readPubkey pubkey with
  | none => .error (.openssl "PEM_read_bio_PUBKEY failed")
  | some key => match c.readBase64 b64sig with
    | none => .error (.openssl "BIO_read base64 failed")
    | some sig =>
      let rc := c.digestVerify key data sig
      if rc = 1 then .ok true
      else if rc ≠ 0 then .error (.openssl "EVP_DigestVerifyFinal failed")
      else .ok false

inductive FederationStatus
  | enabled
  | rejectIncoming
  | disabled
  deriving DecidableEq, Repr

structure Config where
  hostname : Text
  salt : Text
  publicKey : Text
  privateKey : Text
  /-- `"http://"` or `"https://"` -/
  protocol : Text
  federation : FederationStatus

/-! ## A concrete instance

A scheme to evaluate the model with. A public key is `PEM:` and the private key, a
signature is the private key and the signed bytes without line ends.
-/

def demoSignature (privkey data : Text) : Text := privkey ++ data.filter (· ≠ newline)

/-- The six-bit value of a base64 digit. -/
def base64Val (b : Byte) : Option Nat :=
  if 65 ≤ b ∧ b ≤ 90 then some (b.toNat - 65)
  else if 97 ≤ b ∧ b ≤ 122 then some (b.toNat - 71)
  else if isDigit b then some (b.toNat + 4)
  else if b = 43 then some 62
  else if b = 47 then some 63
  else none

def base64Groups : List Nat → Text
  | a :: b :: c :: d :: rest =>
    UInt8.ofNat (a * 4 + b / 16) :: UInt8.ofNat (b % 16 * 16 + c / 4) ::
      UInt8.ofNat (c % 4 * 64 + d) :: base64Groups rest
  | [a, b, c] => [UInt8.ofNat (a * 4 + b / 16), UInt8.ofNat (b % 16 * 16 + c / 4)]
  | [a, b] => [UInt8.ofNat (a * 4 + b / 16)]
  | _ => []

/-- The usual decoder: it stops at the first byte that is not a digit. -/
def base64Decode (t : Text) : Text :=
  base64Groups ((t.takeWhile fun b => (base64Val b).isSome).filterMap base64Val)

example : base64Decode "YWxpY2U6c2VjcmV0" = lit "alice:secret" := by decide

def demoCrypto : Crypto where
  readPubkey k := k.dropPrefix? "PEM:"
  readBase64 := some
  digestVerify key data sig := if sig = demoSignature key data then 1 else 0
  sign := demoSignature
  hmac key message := lit "mac:" ++ key ++ message
  sha512 t := ⟨(t ++ List.replicate 64 0).take 64, by simp⟩
  b64Decode := base64Decode

/-- Its signatures verify under the public key, and fit on a line. -/
theorem demoCrypto_verify (privkey data : Text) :
    demoCrypto.verify (lit "PEM:" ++ privkey) data (demoCrypto.sign privkey data) = .ok true := by
  have key : (lit "PEM:" ++ privkey).dropPrefix? (lit "PEM:") = some privkey :=
    List.dropPrefix?_append_of_beq privkey (BEq.refl _)
  simp [Crypto.verify, demoCrypto, key]

theorem newline_notMem_demoSignature {privkey : Text} (line : newline ∉ privkey) (data : Text) :
    newline ∉ demoCrypto.sign privkey data := by
  simp [demoCrypto, demoSignature, line]

def demoConfig (hostname privateKey : Text) : Config where
  hostname
  salt := "salt"
  publicKey := lit "PEM:" ++ privateKey
  privateKey
  protocol := "https://"
  federation := .enabled

end HostEnvironment
