import Fiy.ModConnectors
import Fiy.PeerHandshake

/-!
# Routing of HTTP requests

`route_request` in two steps: which handler a request goes to, and what the handler
does. The pages and the URL parser are parameters; texts of responses are the
source's. A handler either answers, or leaves the answer to a mod or to the callback
of a key request.
-/

namespace RequestRouting

open ByteStrings KeyedTables HttpMessages HostEnvironment PeerLinks PeerRegistry WebText
open LocalAccounts ModAccess Sessions ModConnectors PeerHandshake

structure Site where
  /-- the query parameters of a URL reference; `none` where the constructor throws -/
  urlParams : Text → Option (List (Text × Text))
  loginPage : Nat → Text → Text
  signupPage : Nat → Text → Text
  portalApps : LocalUser → Text
  indexHtml : Text
  themeJs : Text
  mainCss : Text
  appSvg : Text
  robotsTxt : Text

/-- The strings a handler may draw from the generator. -/
structure Draws where
  authTokens : List Text
  handshakeToken : Text

/-! ## Which handler -/

inductive ModTarget
  | mod (m : Option Mod) (uri : Text)
  /-- a request for `mod.hostname` is sent to `hostname/mod` -/
  | subdomain (location : Text)
  deriving DecidableEq, Repr

/-- The choice `mod_send_msg` makes for a request to this host. -/
def pathTarget (ms : Mods) (path : Text) : ModTarget :=
  let root := ms.getMod []
  let tail := path.tail
  match cut 47 tail with
  | some (before, after) => match ms.getMod before with
    | some m => .mod (some m) ((47 : Byte) :: after)
    | none => .mod root path
  | none => match cut 63 tail with
    | some (before, after) =>
      let subPath := lit "/" ++ (63 : Byte) :: after
      if before = [] then .mod root subPath
      else match ms.getMod before with
        | some m => .mod (some m) subPath
        | none => .mod root path
    | none =>
      if path.length ≤ 1 then .mod root "/"
      else match ms.getMod tail with
        | some m => .mod (some m) "/"
        | none => .mod root path

/-- The mod and the path that a `/mods/<id>` target stands for. -/
def idTarget (ms : Mods) (fiyPath rest : Text) : ModTarget :=
  let inId : Byte → Bool := fun b => b ≠ 47 && b ≠ 63
  let m := ms.getModById (rest.takeWhile inId)
  let subpath := if fiyPath = [] then rest.dropWhile inId else fiyPath
  .mod m (if subpath = [] then "/" else subpath)

def modTarget (h : Host) (r : Request) : ModTarget :=
  let path := r.target
  match path.dropPrefix? (lit "/mods/") with
  | some rest => idTarget h.mods (r.fields.value "Fiy-Path") rest
  | none =>
    let hostname := r.fields.value "Host"
    let hhn := h.config.hostname
    if hostname ≠ [] ∧ hhn ≠ hostname then
      if hhn <:+ hostname then
        .subdomain (h.config.protocol ++ hhn ++ lit "/" ++
          hostname.take (hostname.length - hhn.length - 1) ++ path)
      else .mod none path
    else pathTarget h.mods path

inductive Route
  | loginPage
  | signupPage
  | themeJs
  | mainCss
  | appSvg
  | redirect
  | portalHome
  | portalUnknown
  | peerKey
  | robots
  | login
  | signup
  | handshake
  | mod (target : ModTarget)
  deriving DecidableEq, Repr

/-- `GET /portal...` -/
def portalRoute (path : Text) : Route :=
  if lit "/login" <+: path then .loginPage
  else if lit "/signup" <+: path then .signupPage
  else if lit "/theme.js" <+: path then .themeJs
  else if lit "/main.css" <+: path then .mainCss
  else if lit "/app.svg" <+: path then .appSvg
  else if lit "/redirect" <+: path then .redirect
  else if path = [] ∨ path = lit "/" then .portalHome
  else .portalUnknown

/-- `POST /portal...` -/
def portalPostRoute (path : Text) : Route :=
  if lit "/login" <+: path then .login
  else if lit "/signup" <+: path then .signup
  else .portalUnknown

def route (h : Host) (r : Request) : Route :=
  match r.method with
  | .get => match r.target.dropPrefix? (lit "/portal") with
    | some path => portalRoute path
    | none =>
      if r.target = lit "/peer/key" then .peerKey
      else if r.target = lit "/robots.txt" then .robots
      else .mod (modTarget h r)
  | .post => match r.target.dropPrefix? (lit "/portal") with
    | some path => portalPostRoute path
    | none =>
      if r.target = lit "/peer/handshake" then .handshake
      else .mod (modTarget h r)
  | .other _ => .mod (modTarget h r)

/-! ## What the handlers do -/

def htmlResponse (status : Nat) (body : Text) : Response where
  status
  fields := Fields.set [] "Content-Type" "text/html"
  body

def fileResponse (contentType body : Text) (others : Fields) : Response where
  status := 200
  fields := others.foldl (fun f field => f.set field.1 field.2)
    (Fields.set [] "Content-Type" contentType)
  body

def locationResponse (status : Nat) (location : Text) : Response where
  status
  fields := Fields.set [] "Location" location

/-- How an attempt to log in or to sign up ends. -/
inductive Attempt
  | refused (status : Nat) (message : Text) (h : Host)
  | signedIn (token : AuthToken) (h : Host)
  | drawing

/-- `login_post` up to the redirect. -/
def loginAttempt (h : Host) (body : Text) (authTokens : List Text) : Attempt :=
  match parseFormUrlEncoded body with
  | none => .refused 400 "Form Error" h
  | some form =>
    match h.users.loginUser h.crypto h.config h.now (formField form "username")
      (formField form "password") authTokens with
    | none => .drawing
    | some (token, users) =>
      if token.user = none then .refused 401 "Incorrect username/password" { h with users }
      else .signedIn token { h with users }

/-- `signup_post` up to the redirect. The result of the login is not checked. -/
def signupAttempt (h : Host) (body : Text) (authTokens : List Text) : Attempt :=
  match parseFormUrlEncoded body with
  | none => .refused 400 "Form Error" h
  | some form =>
    let username := formField form "username"
    let password := formField form "password"
    let contact := formField form "contact"
    match usernameError username with
    | some message => .refused 400 message h
    | none => match h.users.getUser username with
      | (some _, users) =>
        .refused 400 "Username is taken, try a different one" { h with users }
      | (none, users) =>
        let h := { h with users }
        if (formField form "name").length > LocalUser.nameMaxLength then
          .refused 400 (lit "Name must be less than " ++ decimal LocalUser.nameMaxLength
            ++ lit " characters") h
        else if contact.length > LocalUser.emailMaxLength then
          .refused 400 (lit "Contact info must be less than "
            ++ decimal LocalUser.emailMaxLength ++ lit " characters") h
        else match users.addUser h.crypto h.config ⟨username, false, contact, h.now⟩ password with
          | (false, users) =>
            .refused 500 "Failed to create account, try again later" { h with users }
          | (true, users) =>
            match users.loginUser h.crypto h.config h.now username password authTokens with
            | none => .drawing
            | some (token, users) => .signedIn token { h with users }

def cookieHeader (token : AuthToken) : Text :=
  serializeCookie "fiy_auth" token.token
    { encodeFn := none
      maxAge := AuthToken.sessionLifetime
      path := "/"
      httpOnly := true }

/-- The end of both handlers: the cookie cache is cleared before the target is parsed. -/
def signIn (site : Site) (h : Host) (s : Session) (token : AuthToken) : Except Fault Served :=
  let s := s.clearCookieCache
  match site.urlParams s.req.target with
  | none => .error (.thrown .invalidUrl)
  | some params =>
    let location := ((params.find? fun kv => kv.1 = lit "redirect").map Prod.snd).getD "/portal"
    answer h s
      { status := 303
        fields := (Fields.set [] "Set-Cookie" (cookieHeader token)).set "Location" location }

def serveAttempt (site : Site) (s : Session) (page : Nat → Text → Text) :
    Attempt → Except Fault Served
  | .refused status message h => answer h s (htmlResponse status (page status message))
  | .signedIn token h => signIn site h s token
  | .drawing => .error .drawing

def servePortalRedirect (site : Site) (h : Host) (s : Session) : Except Fault Served :=
  match s.req.fields.find "FIY-Redirect" with
  | some location => answer h s (locationResponse 303 location)
  | none => match site.urlParams s.req.target with
    | none => .error (.thrown .invalidUrl)
    | some params => match params.find? fun kv => kv.1 = lit "redirect" with
      | some (_, location) => answer h s (locationResponse 303 location)
      | none => answer h s
          { status := 400, body := "Invalid redirect: no destination provided" }

def servePortalHome (site : Site) (h : Host) (s : Session) : Except Fault Served :=
  match findUserLocal h s with
  | (none, h, s) => answer h s (locationResponse 303 "/portal/login")
  | (some user, h, s) => answer h s (htmlResponse 200 (site.portalApps user))

def missingModResponse (cfg : Config) : Response :=
  htmlResponse 404 (lit "<h1>404 - Could not find a mod to handle your request</h1>"
    ++ lit "\n<hr/>\n<p>For a list of apps: check the <a href=\""
    ++ baseUri cfg ++ lit "/portal\">portal</a></p>\n")

/-- `request_mod` -/
def requestMod (site : Site) (h : Host) (s : Session) (m : Option Mod) (uri : Text) :
    Except Fault Served :=
  match m with
  | none =>
    if s.req.fields.value "Host" = h.config.hostname ∧ s.req.target = lit "/" then
      answer h s (htmlResponse 200 site.indexHtml)
    else answer h s (missingModResponse h.config)
  | some m => handleRequest h { s with req := { s.req with target := uri } } m

def servePeerHandshake (h : Host) (s : Session) (generated : Text) : Except Fault Served :=
  match peerHandshake h.config h.peers h.now s.req.body generated with
  | .error res => answer h s res
  | .ok (peer, signature) => .ok ⟨[.fetchKey peer signature], h, s⟩

def routeRequest (site : Site) (h : Host) (s : Session) (d : Draws) : Except Fault Served :=
  match route h s.req with
  | .loginPage => answer h s (htmlResponse 200 (site.loginPage 200 []))
  | .signupPage => answer h s (htmlResponse 200 (site.signupPage 200 []))
  | .themeJs => answer h s (fileResponse "text/javascript" site.themeJs [])
  | .mainCss =>
    answer h s (fileResponse "text/css" site.mainCss [("Cache-Control", "max-age=604800")])
  | .appSvg =>
    answer h s (fileResponse "image/svg+xml" site.appSvg [("Cache-Control", "max-age=604800")])
  | .redirect => servePortalRedirect site h s
  | .portalHome => servePortalHome site h s
  | .portalUnknown => answer h s { status := 404, body := "404 not found!\n" }
  | .peerKey => answer h s (peerKeyResponse h.config h.now)
  | .robots =>
    answer h s (fileResponse "text/plain" site.robotsTxt [("Cache-control", "max-age=60000")])
  | .login => serveAttempt site s site.loginPage (loginAttempt h s.req.body d.authTokens)
  | .signup => serveAttempt site s site.signupPage (signupAttempt h s.req.body d.authTokens)
  | .handshake => servePeerHandshake h s d.handshakeToken
  | .mod (.subdomain location) => answer h s (locationResponse 301 location)
  | .mod (.mod m uri) => requestMod site h s m uri

/-- Bare pages, and a parser that accepts the targets that start with a slash. -/
def demoSite : Site where
  urlParams := fun target => if target.head? = some 47 then some [] else none
  loginPage := fun _ message => message
  signupPage := fun _ message => message
  portalApps := LocalUser.username
  indexHtml := []
  themeJs := []
  mainCss := []
  appSvg := []
  robotsTxt := []

end RequestRouting
