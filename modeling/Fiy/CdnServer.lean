import Fiy.ByteStrings
import Fiy.RowTables

/-!
# The storage server

`storage/cdn/main.cpp` with the tables of `db.sql`. A statement lives in the thread that
prepared it: preparing one that names an unknown column throws, and so does binding one
that was stepped and not reset. An exception ends the connection without an answer. The
address parser, the file system and downloads are parameters.
-/

namespace CdnServer

open ByteStrings RowTables

/-! ## Identifiers -/

/-- `HEX_DIGITS` -/
def hexDigits : Text := "0123456789ABCDEF"

/-- `to_rhex`: hexadecimal digits of an unsigned value, the lowest first. -/
def toRhexFrom : Nat → Nat → Text
  | 0, _ => []
  | fuel + 1, n =>
    (hexDigits.getD (n % 16) 0) :: if n / 16 = 0 then [] else toRhexFrom fuel (n / 16)

/-- A 64-bit value has 16 digits. -/
def toRhex (n : Nat) : Text := toRhexFrom 16 n

/-- The bits of an `int64_t`. -/
def bits64 (n : Int) : Nat := (n % 18446744073709551616).toNat

/-- The `int64_t` with these bits. -/
def ofBits64 (n : Nat) : Int :=
  let low := n % 18446744073709551616
  if low < 9223372036854775808 then low else (low : Int) - 18446744073709551616

/-- The digits `from_rhex` knows. The last two are missing. -/
def rhexDigit (b : Byte) : Option Nat :=
  if 48 ≤ b ∧ b ≤ 57 then some (b.toNat - 48)
  else if 97 ≤ b ∧ b ≤ 100 then some (b.toNat - 87)
  else if 65 ≤ b ∧ b ≤ 68 then some (b.toNat - 55)
  else none

/-- `from_rhex`. The length is an `uint8_t`, the first byte is the one that is compared with
zero each time, and an unknown digit is skipped. -/
def fromRhex (s : Text) : Int :=
  if s.head? = some 0 then 0
  else ofBits64 ((s.take (s.length % 256)).foldl (fun ret b => match rhexDigit b with
    | some d => (ret + d) * 16 % 18446744073709551616
    | none => ret) 0)

example : fromRhex (toRhex 16) = 16 ∧ fromRhex (toRhex 1) = 16 := by decide

/-- An `int64_t` passed as `uint32_t`. -/
def toUint32 (n : Int) : Nat := (n % 4294967296).toNat

/-! ## Database and disk -/

structure AssetRow where
  bucket : Nat
  mimeType : Option Text := none
  cacheControl : Option Text := none
  createTs : Int
  deleteTs : Int
  deriving DecidableEq, Repr

structure TokenRow where
  token : Int
  assetId : Int
  expireTs : Int
  deriving DecidableEq, Repr

/-- The statements that are prepared once per thread. -/
inductive Statement
  | newAsset
  | grantToken
  | newToken
  | deleteAssetTokens
  | deleteAsset
  | deleteToken
  | serve
  deriving DecidableEq, Repr

/-- The columns of `Assets` and `Tokens` in `db.sql`. -/
def assetColumns : List Text := ["id", "bucket", "mimeType", "cacheControl", "createTs", "deleteTs"]
def tokenColumns : List Text := ["token", "assetId", "expireTs"]

/-- The columns a statement names: of `Assets`, and of `Tokens`. -/
def Statement.columns : Statement → List Text × List Text
  | .newAsset => (["bucket", "mime_type", "cacheControl", "deleteTs", "createTs", "id"], [])
  | .grantToken | .newToken => ([], ["token", "assetId", "expireTs"])
  | .deleteAssetTokens => ([], ["assetId"])
  | .deleteAsset => (["id"], [])
  | .deleteToken => ([], ["token"])
  | .serve => (["bucket", "mimeType", "cacheControl", "id"], ["assetId", "token"])

/-- Names of columns are compared without case. -/
def Statement.prepares (st : Statement) : Bool :=
  st.columns.1.all (fun c => assetColumns.any (iequals c)) &&
    st.columns.2.all fun c => tokenColumns.any (iequals c)

structure Server where
  assets : Rows AssetRow
  tokens : List TokenRow
  files : Text → Option Text
  bucketCounter : Nat
  /-- the statements of each thread that were stepped and not reset -/
  stepped : Nat → Statement → Bool

/-- The tables are empty and no statement was used. -/
def Server.start (bucketCounter : Nat) : Server where
  assets := Rows.empty
  tokens := []
  files := fun _ => none
  bucketCounter
  stepped := fun _ _ => false

/-- `Config` -/
structure Config where
  dataDir : Text
  bearerToken : Text

/-- `get_asset_path` -/
def assetPath (cfg : Config) (bucket assetId : Nat) : Text :=
  cfg.dataDir ++ lit "/" ++
    [hexDigits.getD (bucket % 16) 0, hexDigits.getD (bucket / 16 % 16) 0] ++
    lit "/" ++ toRhex assetId

/-- What a call finds outside the server. -/
structure Env where
  thread : Nat
  /-- `time(nullptr)` -/
  now : Int
  /-- `rand()` -/
  rand : Nat
  /-- `download_file_curl`: its result, and what is in the file afterwards if it changed -/
  download : Text → Text → Bool × Option Text
  /-- whether writing the file succeeds -/
  writable : Text → Bool
  /-- whether an existing file can be opened -/
  readable : Text → Bool

/-- A statement can be bound. -/
def Server.Ready (s : Server) (env : Env) (st : Statement) : Prop :=
  st.prepares = true ∧ s.stepped env.thread st = false

instance (s : Server) (env : Env) (st : Statement) : Decidable (s.Ready env st) :=
  inferInstanceAs (Decidable (_ ∧ _))

/-- A statement that is not reset. -/
def Server.leave (s : Server) (env : Env) (st : Statement) : Server :=
  { s with stepped := fun th st' => if th = env.thread ∧ st' = st then true else s.stepped th st' }

def Server.write (s : Server) (path content : Text) : Server :=
  { s with files := fun p => if p = path then some content else s.files p }

/-- What is thrown ends the connection. -/
inductive Thrown
  | sqlite
  /-- the end of the segments is dereferenced, which is undefined -/
  | noSegment
  deriving DecidableEq, Repr

/-- When a life span ends: a negative one does not. -/
def expireTs (env : Env) (seconds : Int) : Int := if 0 ≤ seconds then seconds + env.now else seconds

/-- `new_asset`: the row with its number and bucket. The statement stays stepped. -/
def newAsset (s : Server) (env : Env) (mimeType : Text) (expirationSeconds : Int)
    (cacheControl : Text) : Except Thrown (Nat × Nat) × Server :=
  let s := { s with bucketCounter := s.bucketCounter + 1 }
  let bucket := s.bucketCounter % 256
  if s.Ready env .newAsset then
    let row : AssetRow :=
      { bucket, mimeType := if mimeType = [] then none else some mimeType,
        cacheControl := if cacheControl = [] then none else some cacheControl,
        deleteTs := expireTs env expirationSeconds, createTs := env.now }
    (.ok (s.assets.nextId, bucket), { s with assets := s.assets.insert row }.leave env .newAsset)
  else (.error .sqlite, s)

/-- The insertion that both ways to make a token share: the token is -1 when it is taken. -/
def insertToken (s : Server) (env : Env) (st : Statement) (token : Int) (assetId : Nat)
    (expirationSeconds : Int) : Except Thrown Int × Server :=
  if s.Ready env st then
    let s := s.leave env st
    if s.tokens.any fun row => row.token = token then (.ok (-1), s)
    else
      let row := { token, assetId, expireTs := expireTs env expirationSeconds }
      (.ok token, { s with tokens := s.tokens ++ [row] })
  else (.error .sqlite, s)

/-- `grant_access_token` -/
def grantAccessToken (s : Server) (env : Env) (assetId : Nat) (expirationSeconds token : Int) :
    Except Thrown Int × Server := insertToken s env .grantToken token assetId expirationSeconds

/-- `new_access_token` -/
def newAccessToken (s : Server) (env : Env) (assetId : Nat) (expirationSeconds : Int) :
    Except Thrown Int × Server :=
  insertToken s env .newToken (ofBits64 (bits64 (env.now * 4294967296) + env.rand)) assetId
    expirationSeconds

/-- `delete_asset`: both statements are reset. -/
def deleteAsset (s : Server) (env : Env) (assetId : Nat) : Except Thrown Unit × Server :=
  if s.Ready env .deleteAssetTokens then
    let s := { s with tokens := s.tokens.filter fun row => row.assetId ≠ assetId }
    if s.Ready env .deleteAsset then
      (.ok (), { s with assets := s.assets.filter fun id _ => id ≠ assetId })
    else (.error .sqlite, s)
  else (.error .sqlite, s)

/-- `delete_token` -/
def deleteToken (s : Server) (env : Env) (token : Int) : Except Thrown Unit × Server :=
  if s.Ready env .deleteToken then
    (.ok (), { s with tokens := s.tokens.filter fun row => row.token ≠ token }.leave env .deleteToken)
  else (.error .sqlite, s)

/-- The assets `purge` takes: older than five minutes and without a token. -/
def unused (s : Server) (now : Int) (id : Nat) (row : AssetRow) : Bool :=
  row.createTs < now - 300 && !s.tokens.any fun token => token.assetId = id

/-- `purge`: the statement that would delete expired tokens is bound and never executed. -/
def purge (cfg : Config) (s : Server) (now : Int) : Server :=
  let gone := s.assets.filter (unused s now)
  { s with
    assets := s.assets.filter fun id row => !unused s now id row
    files := gone.entries.foldl (fun files e path =>
      if path = assetPath cfg e.2.bucket e.1 then none else files path) s.files }

/-! ## Requests -/

inductive Verb
  | get
  | post
  | delete
  | other
  deriving DecidableEq, Repr

structure HttpRequest where
  method : Verb
  target : Text
  authorization : Text := []
  contentType : Text := []
  cacheControl : Text := []
  keepAlive : Bool := true
  body : Text := []
  deriving DecidableEq, Repr

structure HttpResponse where
  status : Nat
  contentType : Option Text := none
  cacheControl : Option Text := none
  keepAlive : Bool := false
  body : Text := []
  deriving DecidableEq, Repr

def e404 : HttpResponse := { status := 404 }

def e500 (err : Text) : HttpResponse :=
  { status := 500, contentType := some "text/html", body := lit "Server Error: " ++ err }

/-- `file_resp`. When there is a row, the statement is not reset. -/
def fileResp (cfg : Config) (s : Server) (env : Env) (path : Text) (keepAlive : Bool) :
    Except Thrown HttpResponse × Server :=
  if path.head? ≠ some 47 then (.ok e404, s)
  else match cut 47 path.tail with
    | none => (.ok e404, s)
    | some (tokenStr, rest) =>
      let token := fromRhex tokenStr
      let assetId := fromRhex (rest.takeWhile (· ∈ hexDigits))
      if ¬ s.Ready env .serve then (.error .sqlite, s)
      else match s.assets.find? fun id _ => (id : Int) = assetId &&
          s.tokens.any fun row => row.assetId = assetId && row.token = token with
        | none => (.ok e404, s)
        | some (_, row) =>
          let s := s.leave env .serve
          let filePath := assetPath cfg row.bucket (toUint32 assetId)
          match s.files filePath with
          | none => (.ok e404, s)
          | some content =>
            if env.readable filePath then
              (.ok { status := 200
                     contentType := row.mimeType
                     cacheControl := some (match row.cacheControl with
                       | none => lit "max-age=43200"
                       | some cacheControl => cacheControl)
                     keepAlive
                     body := content }, s)
            else (.ok (e500 "please try again later"), s)

/-- An address that `parse_origin_form` takes: its segments as they stand, and its decoded
parameters. -/
structure Target where
  segments : List Text
  params : List (Text × Option Text)

/-- The address parser, with the text of its error. -/
abbrev OriginForm := Text → Except Text Target

/-- `std::stoi`: `none` when it throws. -/
def stoi (t : Text) : Option Int :=
  (strtolValue t).filter fun value => -2147483648 ≤ value ∧ value ≤ 2147483647

/-- The parameter `expire` of a token: a value that is no number is an error. -/
def expireParam : List (Text × Option Text) → Int → Except Text Int
  | [], seconds => .ok seconds
  | (key, value) :: params, seconds =>
    if key = "expire" then match value with
      | none => expireParam params seconds
      | some value =>
        if value.head? = none ∨ value.head? = some 45 then expireParam params seconds
        else match stoi value with
          | none => .error value
          | some seconds => expireParam params seconds
    else expireParam params seconds

/-- The parameters `url` and `eol` of an asset. -/
def assetParams : List (Text × Option Text) → Text × Int → Text × Int
  | [], found => found
  | (key, some value) :: params, (url, seconds) =>
    if key = "url" then assetParams params (value, seconds)
    else if key = "eol" then assetParams params (url, (stoi value).getD seconds)
    else assetParams params (url, seconds)
  | (_, none) :: params, found => assetParams params found

section handlers
variable (cfg : Config) (originForm : OriginForm)

def badRequest (req : HttpRequest) (why : Text) : HttpResponse :=
  { status := 400, contentType := some "text/html", keepAlive := req.keepAlive, body := why }

/-- The answer with an identifier. -/
def identified (req : HttpRequest) (id : Nat) : HttpResponse :=
  { status := 200, contentType := some "application/json", keepAlive := req.keepAlive,
    body := toRhex id }

/-- `POST /api/token/<asset>[/<token>]`. That a granted token is taken does not show. -/
def postToken (s : Server) (env : Env) (req : HttpRequest) (assetStr : Text)
    (tokenStr : Option Text) (params : List (Text × Option Text)) :
    Except Thrown HttpResponse × Server :=
  let assetId := toUint32 (fromRhex assetStr)
  let token := (tokenStr.map fromRhex).getD (-1)
  match expireParam params (-1) with
  | .error value => (.ok (badRequest req (lit "Invalid expire time: " ++ value)), s)
  | .ok seconds =>
    if token = -1 then match newAccessToken s env assetId seconds with
      | (.error e, s) => (.error e, s)
      | (.ok token, s) => (.ok (identified req (bits64 token)), s)
    else match grantAccessToken s env assetId seconds token with
      | (.error e, s) => (.error e, s)
      | (.ok _, s) => (.ok (identified req (bits64 token)), s)

/-- `POST /api/asset` -/
def postAsset (s : Server) (env : Env) (req : HttpRequest)
    (params : List (Text × Option Text)) : Except Thrown HttpResponse × Server :=
  let (url, seconds) := assetParams params ([], -1)
  match newAsset s env req.contentType seconds req.cacheControl with
  | (.error e, s) => (.error e, s)
  | (.ok (assetId, bucket), s) =>
    let fsPath := assetPath cfg bucket assetId
    if url ≠ [] then
      let (done, content) := env.download url fsPath
      let s := match content with
        | none => s
        | some content => s.write fsPath content
      if done then (.ok (identified req assetId), s)
      else (.ok { status := 500, contentType := some "text/plain", keepAlive := req.keepAlive,
                  body := "Failed to download file" }, s)
    else if req.body ≠ [] then
      if env.writable fsPath then (.ok (identified req assetId), s.write fsPath req.body)
      else (.ok { status := 500, contentType := some "text/plain", keepAlive := req.keepAlive,
                  body := "Failed to create asset" }, s)
    else (.ok (badRequest req "expected either a body or a url query parameter"), s)

/-- What a deletion answers. -/
def deleted (req : HttpRequest) (done : Except Thrown Unit × Server) :
    Except Thrown HttpResponse × Server :=
  (done.1.map fun _ => { status := 200, keepAlive := req.keepAlive }, done.2)

/-- The authorization without its scheme. -/
def bearer (authorization : Text) : Text :=
  if lit "Bearer " <+: authorization then authorization.drop 7 else authorization

/-- `handle_request` -/
def handleRequest (s : Server) (env : Env) (req : HttpRequest) :
    Except Thrown HttpResponse × Server :=
  if req.method = .get then fileResp cfg s env req.target req.keepAlive
  else if ¬ lit "/api/" <+: req.target then (.ok e404, s)
  else if bearer req.authorization ≠ cfg.bearerToken then
    (.ok { status := 401, keepAlive := req.keepAlive }, s)
  else match originForm (req.target.drop 4) with
    | .error what => (.ok (badRequest req (lit "Invalid path: " ++ what)), s)
    | .ok uv => match req.method with
      | .post => match uv.segments with
        | [] => (.error .noSegment, s)
        | seg :: segments =>
          if seg = "token" then match segments with
            | [] => (.ok e404, s)
            | assetStr :: rest => postToken s env req assetStr rest.head? uv.params
          else if seg = "asset" then postAsset cfg s env req uv.params
          else (.ok e404, s)
      | .delete => match uv.segments with
        | [] => (.ok e404, s)
        | seg :: segments =>
          if seg = "token" then match segments with
            | [] => (.ok e404, s)
            | token :: _ => deleted req (deleteToken s env (fromRhex token))
          else if seg = "asset" then match segments with
            | [] => (.ok e404, s)
            | asset :: _ => deleted req (deleteAsset s env (toUint32 (fromRhex asset)))
          else (.ok e404, s)
      | _ => (.ok (badRequest req "Invalid http method"), s)

end handlers

/-! ## What the statements leave -/

/-- The insertion of an asset names a column that the table does not have. -/
theorem newAsset_not_prepares : Statement.newAsset.prepares = false := by decide

/-- The other statements are prepared. -/
theorem prepares_of_ne {st : Statement} (other : st ≠ .newAsset) : st.prepares = true := by
  cases st <;> first | exact absurd rfl other | decide

end CdnServer
