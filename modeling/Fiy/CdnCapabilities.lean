import Fiy.CdnServer
import Fiy.GuardedRuns

/-!
# Tokens as capabilities for assets

A run is a list of calls, purges and clock steps of any thread, from empty tables. The
law compares an answer to `GET /<token>/<asset>` with the grants the run has made. Since
the statement that stores an asset is never prepared, no run ever has an asset, so no
grant is worth anything.
-/

namespace CdnCapabilities

open ByteStrings RowTables GuardedRuns CdnServer

inductive Op
  | call (req : HttpRequest)
  | purge
  /-- the clock advances: the time is in the events -/
  | tick

structure Event where
  env : Env
  op : Op

section runs
variable (cfg : Config) (originForm : OriginForm)

/-- What the event answers, if anything. -/
def reply (s : Server) (e : Event) : Option HttpResponse :=
  match e.op with
  | .call req => (handleRequest cfg originForm s e.env req).1.toOption
  | .purge | .tick => none

def next (s : Server) (e : Event) : Server :=
  match e.op with
  | .call req => (handleRequest cfg originForm s e.env req).2
  | .purge => purge cfg s e.env.now
  | .tick => s

def Step (s : Server) (e : Event) (s' : Server) : Prop := next cfg originForm s e = s'

/-- The segments and parameters of an API call. -/
def Event.target (e : Event) : Option (Verb × Target) :=
  match e.op with
  | .call req => ((originForm (req.target.drop 4)).toOption).map fun uv => (req.method, uv)
  | .purge | .tick => none

/-- `POST /api/token/<asset>` answers 200, and the token is the one it names or returns.
The grant is good until the given time, if any. -/
def Grants (s : Server) (e : Event) (token asset : Text) (until_ : Option Int) : Prop :=
  ∃ uv named res seconds, e.target originForm = some (.post, uv) ∧
    uv.segments = lit "token" :: asset :: named ∧ reply cfg originForm s e = some res ∧
    res.status = 200 ∧ (res.body = token ∨ named.head? = some token) ∧
    expireParam uv.params (-1) = .ok seconds ∧
    until_ = if 0 ≤ seconds then some (seconds + e.env.now) else none

/-- `DELETE /api/<kind>/<id>` answers 200. -/
def Deletes (s : Server) (e : Event) (kind id : Text) : Prop :=
  ∃ uv rest res, e.target originForm = some (.delete, uv) ∧
    uv.segments = kind :: id :: rest ∧ reply cfg originForm s e = some res ∧ res.status = 200

/-- The asset is stored: its number is written this way. -/
def Stored (s : Server) (asset : Text) : Prop :=
  ∃ id row, (id, row) ∈ s.assets.entries ∧ toRhex id = asset

/-- The purge takes the asset. -/
def Purges (s : Server) (e : Event) (asset : Text) : Prop :=
  e.op = .purge ∧ Stored s asset ∧ ¬ Stored (next cfg originForm s e) asset

/-- The event leaves the grant alone. -/
def Keeps (token asset : Text) (s : Server) (e : Event) : Prop :=
  ¬ Deletes cfg originForm s e "token" token ∧ ¬ Deletes cfg originForm s e "asset" asset ∧
    ¬ Purges cfg originForm s e asset

/-- Some call of the run granted the token access to the asset, and neither was deleted
since, nor has the grant expired. -/
def InForce (first : Server) (es : List Event) (last : Server) (now : Int)
    (token asset : Text) : Prop :=
  ∃ before e after s s' until_, es = before ++ e :: after ∧
    Run (Step cfg originForm) first before s ∧ Grants cfg originForm s e token asset until_ ∧
    Step cfg originForm s e s' ∧
    Run (Restrict (Step cfg originForm) (Keeps cfg originForm token asset)) s' after last ∧
    ∀ time, until_ = some time → now ≤ time

/-- The answer has the content of the asset. -/
def Serves (s : Server) (res : Option HttpResponse) (asset : Text) : Prop :=
  ∃ id row content, (id, row) ∈ s.assets.entries ∧ toRhex id = asset ∧
    s.files (assetPath cfg row.bucket id) = some content ∧
    ∃ res', res = some res' ∧ res'.status = 200 ∧ res'.body = content

/-- `GET /<token>/<asset>[/...]` -/
def fetch (env : Env) (token asset rest : Text) (keepAlive : Bool) : Event where
  env
  op := .call { method := .get, target := lit "/" ++ token ++ lit "/" ++ asset ++ rest, keepAlive }

/-- The capability law for one request after a run. -/
def Lawful (first : Server) (es : List Event) (last : Server) (env : Env)
    (token asset rest : Text) (keepAlive : Bool) : Prop :=
  Serves cfg last (reply cfg originForm last (fetch env token asset rest keepAlive)) asset ↔
    InForce cfg originForm first es last env.now token asset

end runs

/-! ## No run has an asset -/

/-- There are no assets, and the statement that finds them is not in use. -/
structure Bare (s : Server) : Prop where
  assets : s.assets = Rows.empty
  idle : ∀ thread, s.stepped thread .serve = false

theorem bare_start (bucketCounter : Nat) : Bare (Server.start bucketCounter) := ⟨rfl, fun _ => rfl⟩

section steps
variable {s : Server} (bare : Bare s) (env : Env)
include bare

theorem Bare.leave {st : Statement} (other : st ≠ .serve) : Bare (s.leave env st) where
  assets := bare.assets
  idle := by
    intro thread
    have differs : ¬ (thread = env.thread ∧ Statement.serve = st) := fun h => other h.2.symm
    simp only [Server.leave, differs, if_false, bare.idle]

theorem Bare.setTokens (tokens : List TokenRow) : Bare { s with tokens } := ⟨bare.assets, bare.idle⟩

theorem Bare.setCounter (bucketCounter : Nat) : Bare { s with bucketCounter } :=
  ⟨bare.assets, bare.idle⟩

theorem Bare.filter (p : Nat → AssetRow → Bool) (tokens : List TokenRow)
    (files : Text → Option Text) :
    Bare { s with assets := s.assets.filter p, tokens, files } where
  assets := by
    simp only [bare.assets]
    rfl
  idle := bare.idle

omit bare in
/-- No asset is ever stored. -/
theorem newAsset_eq (mimeType cacheControl : Text) (seconds : Int) :
    newAsset s env mimeType seconds cacheControl =
      (.error .sqlite, { s with bucketCounter := s.bucketCounter + 1 }) := by
  have unready : ∀ s : Server, ¬ s.Ready env .newAsset := by
    rintro s ⟨prepared, -⟩
    rw [newAsset_not_prepares] at prepared
    cases prepared
  simp only [newAsset, if_neg (unready _)]

omit bare in
theorem postAsset_eq (cfg : Config) (req : HttpRequest) (params : List (Text × Option Text)) :
    postAsset cfg s env req params =
      (.error .sqlite, { s with bucketCounter := s.bucketCounter + 1 }) := by
  simp only [postAsset, newAsset_eq]

theorem Bare.insertToken {st : Statement} (other : st ≠ .serve) (token : Int) (assetId : Nat)
    (seconds : Int) : Bare (insertToken s env st token assetId seconds).2 := by
  simp only [CdnServer.insertToken]
  split
  · split
    · exact bare.leave env other
    · exact (bare.leave env other).setTokens _
  · exact bare

theorem Bare.postToken (req : HttpRequest) (assetStr : Text) (tokenStr : Option Text)
    (params : List (Text × Option Text)) :
    Bare (postToken s env req assetStr tokenStr params).2 := by
  simp only [CdnServer.postToken, newAccessToken, grantAccessToken]
  split
  · exact bare
  next seconds _ =>
    split
    · have kept := bare.insertToken env (show Statement.newToken ≠ .serve by simp)
        (ofBits64 (bits64 (env.now * 4294967296) + env.rand)) (toUint32 (fromRhex assetStr)) seconds
      split
      next result => rwa [result] at kept
      next result => rwa [result] at kept
    · have kept := bare.insertToken env (show Statement.grantToken ≠ .serve by simp)
        ((tokenStr.map fromRhex).getD (-1)) (toUint32 (fromRhex assetStr)) seconds
      split
      next result => rwa [result] at kept
      next result => rwa [result] at kept

theorem Bare.deleteToken (token : Int) : Bare (deleteToken s env token).2 := by
  simp only [CdnServer.deleteToken]
  split
  · exact (bare.setTokens _).leave env (by simp)
  · exact bare

theorem Bare.deleteAsset (assetId : Nat) : Bare (deleteAsset s env assetId).2 := by
  simp only [CdnServer.deleteAsset]
  split
  · split
    · exact bare.filter _ _ _
    · exact bare.setTokens _
  · exact bare

theorem Bare.purge (cfg : Config) (now : Int) : Bare (purge cfg s now) := bare.filter _ _ _

/-- Without assets there is nothing to serve. -/
theorem Bare.fileResp_eq (cfg : Config) (path : Text) (keepAlive : Bool) :
    fileResp cfg s env path keepAlive = (.ok e404, s) := by
  have ready : s.Ready env .serve := ⟨prepares_of_ne (by simp), bare.idle _⟩
  have nothing : ∀ p : Nat → AssetRow → Bool, s.assets.find? p = none := by
    intro p
    rw [bare.assets]
    rfl
  simp only [fileResp, ready, nothing, not_true_eq_false, if_false]
  split
  · rfl
  · split <;> rfl

theorem Bare.handleRequest (cfg : Config) (originForm : OriginForm) (req : HttpRequest) :
    Bare (handleRequest cfg originForm s env req).2 := by
  simp only [CdnServer.handleRequest]
  split
  · rw [bare.fileResp_eq]
    exact bare
  split
  · exact bare
  split
  · exact bare
  split
  · exact bare
  next uv _ =>
    split
    -- the segments of a POST, then those of a DELETE
    · split
      · exact bare
      · split
        · split
          · exact bare
          · exact bare.postToken env req _ _ _
        · split
          · rw [postAsset_eq]
            exact bare.setCounter _
          · exact bare
    · split
      · exact bare
      · split
        · split
          · exact bare
          · exact bare.deleteToken env _
        · split
          · split
            · exact bare
            · exact bare.deleteAsset env _
          · exact bare
    · exact bare

end steps

section runs
variable {cfg : Config} {originForm : OriginForm}

theorem Bare.next {s : Server} (bare : Bare s) (e : Event) : Bare (next cfg originForm s e) := by
  obtain ⟨env, op⟩ := e
  cases op with
  | call req => exact bare.handleRequest env cfg originForm req
  | purge => exact bare.purge cfg env.now
  | tick => exact bare

theorem Bare.run {first last : Server} {es : List Event} (bare : Bare first)
    (run : Run (Step cfg originForm) first es last) : Bare last := by
  refine run.preserves ?_ bare
  rintro s e s' bare rfl
  exact bare.next e

/-- Every request for an asset is answered 404. -/
theorem Bare.fetch_reply {s : Server} (bare : Bare s) (env : Env) (token asset rest : Text)
    (keepAlive : Bool) :
    reply cfg originForm s (fetch env token asset rest keepAlive) = some e404 := by
  simp only [reply, fetch, CdnServer.handleRequest, if_true, bare.fileResp_eq]
  rfl

/-- The law holds of a request exactly when no grant is in force for it. -/
theorem lawful_iff {es : List Event} {last : Server} {bucketCounter : Nat}
    (run : Run (Step cfg originForm) (Server.start bucketCounter) es last) (env : Env)
    (token asset rest : Text) (keepAlive : Bool) :
    Lawful cfg originForm (Server.start bucketCounter) es last env token asset rest keepAlive ↔
      ¬ InForce cfg originForm (Server.start bucketCounter) es last env.now token asset := by
  have bare := (bare_start bucketCounter).run run
  have nothing : ¬ Serves cfg last
      (reply cfg originForm last (fetch env token asset rest keepAlive)) asset := by
    rintro ⟨-, -, -, -, -, -, res, answered, ok, -⟩
    rw [bare.fetch_reply] at answered
    cases answered
    cases ok
  simp only [Lawful, nothing, false_iff]

end runs

/-! ## A grant that is worth nothing -/

/-- What the address parser does with a path of plain segments. -/
def plainForm : OriginForm
  | 47 :: path => .ok { segments := path.splitOn 47, params := [] }
  | _ => .error "leftover"

def demoConfig : Config := ⟨"/tmp/cdn/assets", "abc"⟩

def demoEnv : Env := ⟨0, 1, 7, fun _ _ => (false, none), fun _ => true, fun _ => true⟩

def post (target body : Text) : Event where
  env := demoEnv
  op := .call { method := .post, target, authorization := "Bearer abc", body }

/-- An asset is posted, and then a token for the number of the first asset. -/
def demoRun : List Event := [post "/api/asset" "hello", post "/api/token/1" []]

def demoEnd : Server := demoRun.foldl (next demoConfig plainForm) (Server.start 0)

theorem demo_run : Run (Step demoConfig plainForm) (Server.start 0) demoRun demoEnd :=
  .cons rfl (.cons rfl (.refl _))

theorem demo_lawful_iff :
    Lawful demoConfig plainForm (Server.start 0) demoRun demoEnd demoEnv "700000001" "1" [] true ↔
      ¬ InForce demoConfig plainForm (Server.start 0) demoRun demoEnd 1 "700000001" "1" :=
  lawful_iff demo_run demoEnv _ _ _ _

/-- The token is in force and the answer is 404. -/
theorem granted_not_lawful :
    reply demoConfig plainForm demoEnd (fetch demoEnv "700000001" "1" [] true) = some e404 ∧
      ¬ Lawful demoConfig plainForm (Server.start 0) demoRun demoEnd demoEnv "700000001" "1" []
        true := by
  have bare := (bare_start 0).run demo_run
  refine ⟨bare.fetch_reply _ _ _ _ _, ?_⟩
  intro lawful
  have inForce : InForce demoConfig plainForm (Server.start 0) demoRun demoEnd demoEnv.now
      "700000001" "1" := by
    refine ⟨[post "/api/asset" "hello"], post "/api/token/1" [], [], _, _, none, rfl,
      .cons rfl (.refl _), ?_, rfl, .refl _, fun _ never => absurd never (by simp)⟩
    exact ⟨_, [], _, -1, rfl, rfl, rfl, rfl, Or.inl rfl, rfl, rfl⟩
  obtain ⟨-, -, -, -, -, -, res, answered, ok, -⟩ := lawful.mpr inForce
  rw [bare.fetch_reply] at answered
  cases answered
  cases ok

end CdnCapabilities
