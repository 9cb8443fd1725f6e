import Fiy.SessionTokens
import Fiy.ConnectionRuns
import Fiy.CookieHeaders
import Fiy.UrlForms

/-!
# From the login form to the cookie of a later request

A browser posts the form of the login page, keeps the cookie of the response and sends it
with its requests. In between the server serves any other requests on any connections. The
user is known by the cookie as long as the cron thread has not run after its time, since no
route ends a session and none issues a token that is in use.
-/

namespace BrowserSessions

open ByteStrings KeyedTables GuardedRuns HttpMessages HostEnvironment WebText PeerLinks
open PeerRegistry LocalAccounts ModAccess Sessions ModConnectors RequestRouting CookieHeaders
open UrlForms

/-! ## What a request does to the tokens -/

/-- At most one token is new, a string that was drawn and not in use. -/
def Issues (drawn : List Text) (us us' : LocalUsers) : Prop :=
  us'.tokenCache = us.tokenCache ∨ ∃ token ∈ drawn, token ∉ us.tokenCache ∧
    ∃ grant, us'.tokenCache = us.tokenCache.insert token grant

/-- A host with other accounts only. -/
structure Serves (drawn : List Text) (h h' : Host) : Prop where
  frame : h' = { h with users := h'.users }
  tokens : Issues drawn h.users h'.users

section serving
variable {site : Site} {h : Host} {s : Session} {d : Draws} {served : Served} {drawn : List Text}

theorem Serves.refl (drawn : List Text) (h : Host) : Serves drawn h h := ⟨rfl, Or.inl rfl⟩

theorem serves_answer {h₁ : Host} {s₁ : Session} {res : Response} (serves : Serves drawn h h₁)
    (ok : answer h₁ s₁ res = .ok served) :
    Serves drawn h served.host ∧ served.effects = [.respond res] := by
  cases ok
  exact ⟨serves, rfl⟩

theorem serves_findUserLocal (drawn : List Text) (h : Host) (s : Session) :
    Serves drawn h (findUserLocal h s).2.1 := by
  refine ⟨findUserLocal_host h s, Or.inl ?_⟩
  cases held : s.heldToken with
  | some token => rw [findUserLocal_of_token held]
  | none =>
    cases basic : basicCredentials h.crypto s.req.fields with
    | none => rw [findUserLocal_of_neither held basic]
    | some creds =>
      rw [Session.heldToken] at held
      simpa [findUserLocal, held, basic] using (h.users.getUser_frame creds.1).1

theorem serves_findUser {appId : Option Text} {u : Option User} {h₁ : Host} {s₁ : Session}
    (found : findUser h s appId = .ok (u, h₁, s₁)) : Serves drawn h h₁ := by
  have serves := serves_findUserLocal drawn h s
  cases account : localAccount h s with
  | some lu =>
    rw [findUser_of_local account] at found
    obtain ⟨-, same⟩ := Prod.mk.inj (Except.ok.inj found)
    rw [same] at serves
    exact serves
  | none =>
    rw [findUser_of_peer account] at found
    cases peer : findPeerUser (findUserLocal h s).2.1 (findUserLocal h s).2.2.req appId with
    | error e => simp [peer, Except.map] at found
    | ok u =>
      rw [peer] at found
      obtain ⟨-, same⟩ := Prod.mk.inj (Except.ok.inj found)
      rw [same] at serves
      exact serves

/-- Mods are given requests, and what the connectors answer sets no cookie. -/
theorem serves_handleRequest {m : Mod} (ok : ModConnectors.handleRequest h s m = .ok served) :
    Serves drawn h served.host ∧
      ∀ res, served.effects = [.respond res] → res.fields.find "Set-Cookie" = none := by
  simp only [ModConnectors.handleRequest] at ok
  split at ok
  · cases ok
  · rename_i h₁ s₁ found
    obtain ⟨serves, effects⟩ := serves_answer (serves_findUser found) ok
    refine ⟨serves, fun res same => ?_⟩
    rw [effects] at same
    cases same
    rfl
  · rename_i u h₁ s₁ found
    have serves : Serves drawn h h₁ := serves_findUser found
    split at ok
    · simp only [dllHandle] at ok
      split at ok
      · cases ok
      · obtain ⟨serves, effects⟩ := serves_answer serves ok
        refine ⟨serves, fun res same => ?_⟩
        rw [effects] at same
        cases same
        rfl
      · split at ok
        · cases ok
          exact ⟨serves, fun res same => by cases same⟩
        · obtain ⟨serves, effects⟩ := serves_answer serves ok
          refine ⟨serves, fun res same => ?_⟩
          rw [effects] at same
          cases same
          rfl
    · simp [netHandle, moved] at ok

end serving

/-! ## Signing in -/

section signing
variable {c : Crypto} {cfg : Config} {us us' : LocalUsers}

theorem exists_getUser (us : LocalUsers) (username : Text) :
    (us.getUser username).2.Exists username ↔ us.Exists username := by
  simp only [LocalUsers.getUser]
  cases cached : us.usernameCache.lookup username with
  | some user => rfl
  | none =>
    cases listed : us.db.lookup username with
    | none => rfl
    | some row =>
      have there : username ∈ us.db := AList.lookup_isSome.mp (by simp [listed])
      exact iff_of_true (Or.inr there) (Or.inr there)

/-- A login issues a token to the account it is for, or changes no token. -/
theorem loginUser_spec {now : Int} {username password : Text} {drawn : List Text}
    {issued : AuthToken}
    (login : us.loginUser c cfg now username password drawn = some (issued, us')) :
    issued = {} ∧ us'.tokenCache = us.tokenCache ∨
    ∃ user token, token ∈ drawn ∧ token ∉ us.tokenCache ∧ user.username = username ∧
      us'.Valid c cfg username password ∧
      issued = ⟨some user, token, now + AuthToken.sessionLifetime⟩ ∧
      us'.tokenCache = us.tokenCache.insert token ⟨user, now + AuthToken.sessionLifetime⟩ := by
  obtain ⟨tokens, rows⟩ := us.getUser_frame username
  have named (user : LocalUser) := @LocalUsers.getUser_username us username user
  have there := exists_getUser us username
  have found_ := us.getUser_isSome_iff username
  rcases found : us.getUser username with ⟨account, looked⟩
  simp only [found] at tokens rows named there found_
  simp only [LocalUsers.loginUser, found] at login
  cases account with
  | none =>
    cases login
    exact Or.inl ⟨rfl, tokens⟩
  | some user =>
    dsimp only at login
    split at login
    · cases login
      exact Or.inl ⟨rfl, tokens⟩
    · rename_i right
      obtain ⟨token, drawn_, heq⟩ := Option.map_eq_some_iff.mp login
      have free : token ∉ us.tokenCache := by
        rw [← tokens]
        simpa using List.find?_some drawn_
      cases heq
      refine Or.inr ⟨user, token, List.mem_of_find?_eq_some drawn_, free, named user rfl,
        ⟨there.mpr (found_.mp rfl), not_not.mp right⟩, rfl, by rw [tokens]⟩

/-- A form got a token for the account it names. -/
structure Grants (drawn : List Text) (h h' : Host) (form : List (Text × Text)) (token : Text) :
    Prop where
  frame : h' = { h with users := h'.users }
  drawn : token ∈ drawn
  free : token ∉ h.users.tokenCache
  valid : h'.users.Valid h.crypto h.config (formField form "username") (formField form "password")
  held : ∃ user : LocalUser, user.username = formField form "username" ∧
    h'.users.tokenCache =
      h.users.tokenCache.insert token ⟨user, h.now + AuthToken.sessionLifetime⟩

theorem Grants.serves {drawn : List Text} {h h' : Host} {form : List (Text × Text)} {token : Text}
    (grants : Grants drawn h h' form token) : Serves drawn h h' :=
  ⟨grants.frame, Or.inr ⟨token, grants.drawn, grants.free, grants.held.imp' _ fun _ => And.right⟩⟩

/-- How an attempt ends. -/
def Ends (drawn : List Text) (h : Host) (body : Text) : Attempt → Prop
  | .refused _ _ h' => Serves drawn h h'
  | .signedIn token h' => ∃ form, parseFormUrlEncoded body = some form ∧
    Grants drawn h h' form token.token
  | .drawing => True

theorem loginAttempt_ends (h : Host) (body : Text) (drawn : List Text) :
    Ends drawn h body (loginAttempt h body drawn) := by
  unfold loginAttempt
  split
  next => exact .refl drawn h
  next form parsed =>
    split
    next => trivial
    next token users login =>
      rcases loginUser_spec login with ⟨rfl, tokens⟩ |
        ⟨user, t, drawn_, free, named, valid, rfl, tokens⟩
      · exact ⟨rfl, Or.inl tokens⟩
      · exact ⟨form, parsed, rfl, drawn_, free, valid, user, named, tokens⟩

theorem signupAttempt_ends (h : Host) (body : Text) (drawn : List Text) :
    Ends drawn h body (signupAttempt h body drawn) := by
  unfold signupAttempt
  split
  next => exact .refl drawn h
  next form parsed =>
    dsimp only
    split
    next => exact .refl drawn h
    next =>
      obtain ⟨tokens, -⟩ := h.users.getUser_frame (formField form "username")
      split
      next looked =>
        rw [looked] at tokens
        exact ⟨rfl, Or.inl tokens⟩
      next users looked =>
        have missing : ¬ h.users.Exists (formField form "username") := by
          rw [← h.users.getUser_isSome_iff, looked]
          simp
        rw [LocalUsers.getUser_of_missing missing] at looked
        obtain rfl := (Prod.mk.inj looked).2
        split
        · exact .refl drawn h
        · split
          · exact .refl drawn h
          · obtain ⟨users, added, valid, same⟩ := LocalUsers.addUser_of_missing
              ⟨formField form "username", false, formField form "contact", h.now⟩ missing h.crypto
              h.config (formField form "password")
            rw [added]
            dsimp only
            obtain ⟨account, mid, authorized, -⟩ := LocalUsers.loginUser_of_valid valid h.now drawn
            split
            next => trivial
            next token users' login =>
              rcases loginUser_spec login with ⟨rfl, -⟩ |
                ⟨user, t, drawn_, free, named, valid, rfl, tokens⟩
              · -- the new account has the password it was made with
                rw [authorized] at login
                cases LocalUsers.authorizeUser_user login
              · rw [same] at free tokens
                exact ⟨form, parsed, rfl, drawn_, free, valid, user, named, tokens⟩

end signing

/-! ## Responses with a cookie -/

section responses
variable {site : Site} {h : Host} {s : Session} {d : Draws} {served : Served}

/-- The response sets this cookie. -/
def Sets (served : Served) (cookie : Text) : Prop :=
  ∃ res, served.effects = [.respond res] ∧ res.fields.find "Set-Cookie" = some cookie

/-- Nothing is signed in. -/
structure Plain (drawn : List Text) (h : Host) (served : Served) : Prop where
  serves : Serves drawn h served.host
  unset : ∀ cookie, ¬ Sets served cookie

theorem plain_answer {h₁ : Host} {s₁ : Session} {res : Response} {drawn : List Text}
    (serves : Serves drawn h h₁) (unset : res.fields.find "Set-Cookie" = none)
    (ok : answer h₁ s₁ res = .ok served) : Plain drawn h served := by
  obtain ⟨serves, effects⟩ := serves_answer serves ok
  refine ⟨serves, ?_⟩
  rintro cookie ⟨res', same, set⟩
  rw [effects] at same
  cases same
  rw [unset] at set
  cases set

theorem plain_handleRequest {s₁ : Session} {m : Mod} {drawn : List Text}
    (ok : ModConnectors.handleRequest h s₁ m = .ok served) : Plain drawn h served := by
  obtain ⟨serves, unset⟩ : Serves drawn h served.host ∧ _ := serves_handleRequest ok
  refine ⟨serves, ?_⟩
  rintro cookie ⟨res, same, set⟩
  rw [unset res same] at set
  cases set

/-- The request is a form that signs somebody in, and the response has the cookie. -/
structure SignsIn (drawn : List Text) (h : Host) (body : Text) (served : Served)
    (form : List (Text × Text)) (token : AuthToken) : Prop where
  parsed : parseFormUrlEncoded body = some form
  grants : Grants drawn h served.host form token.token
  sets : Sets served (cookieHeader token)

theorem serveAttempt_cases {page : Nat → Text → Text} {attempt : Attempt} {body : Text}
    (ends : Ends d.authTokens h body attempt) (ok : serveAttempt site s page attempt = .ok served) :
    Plain d.authTokens h served ∨
      ∃ form token, SignsIn d.authTokens h body served form token := by
  cases attempt with
  | refused status message h₁ => exact Or.inl (plain_answer ends rfl ok)
  | drawing => cases ok
  | signedIn token h₁ =>
    obtain ⟨form, parsed, grants⟩ := ends
    simp only [serveAttempt, signIn] at ok
    split at ok
    · cases ok
    · cases ok
      refine Or.inr ⟨form, token, parsed, grants, _, rfl, ?_⟩
      rw [Fields.find_set_other _ _ (by decide), Fields.find_set_self]

/-- The cookie is set for forms that sign somebody in, and nowhere else. -/
theorem routeRequest_cases (ok : routeRequest site h s d = .ok served) :
    Plain d.authTokens h served ∨ ((route h s.req = .login ∨ route h s.req = .signup) ∧
      ∃ form token, SignsIn d.authTokens h s.req.body served form token) := by
  have here : Serves d.authTokens h h := .refl _ h
  simp only [routeRequest] at ok
  split at ok
  any_goals exact Or.inl (plain_answer here rfl ok)
  · refine Or.inl ?_
    simp only [servePortalRedirect] at ok
    split at ok
    · exact plain_answer here rfl ok
    · split at ok
      · cases ok
      · split at ok <;> exact plain_answer here rfl ok
  · refine Or.inl ?_
    simp only [servePortalHome] at ok
    have serves := serves_findUserLocal d.authTokens h s
    split at ok
    · rename_i found
      rw [found] at serves
      exact plain_answer serves rfl ok
    · rename_i found
      rw [found] at serves
      exact plain_answer serves rfl ok
  · refine Or.inl (plain_answer here ?_ ok)
    rw [PeerHandshake.peerKeyResponse]
    split <;> rfl
  · rename_i is_
    exact (serveAttempt_cases (loginAttempt_ends h _ _) ok).imp id fun signs => ⟨Or.inl is_, signs⟩
  · rename_i is_
    exact (serveAttempt_cases (signupAttempt_ends h _ _) ok).imp id
      fun signs => ⟨Or.inr is_, signs⟩
  · refine Or.inl ?_
    simp only [servePeerHandshake, PeerHandshake.peerHandshake] at ok
    split at ok
    next res refused =>
      refine plain_answer here ?_ ok
      split at refused
      · cases refused; rfl
      · cases refused; rfl
      · split at refused
        · cases refused; rfl
        · split at refused
          · cases refused; rfl
          · cases refused
    next =>
      cases ok
      refine ⟨here, ?_⟩
      rintro cookie ⟨res, same, -⟩
      cases same
  · refine Or.inl ?_
    simp only [requestMod] at ok
    split at ok
    · split at ok <;> exact plain_answer here rfl ok
    · exact plain_handleRequest ok

end responses

/-! ## The browser -/

def charset : Text := "ABCDEFGHIJKLMNOPQRSTUVWXYZabcdefghijklmnopqrstuvwxyz0123456789_"

/-- What `get_token_string` draws: a dot and 23 characters. -/
def IsToken (t : Text) : Prop :=
  ∃ rest : Text, t = 46 :: rest ∧ rest.length = 23 ∧ ∀ b ∈ rest, b ∈ charset

/-- What a browser keeps of a cookie that is set, apart from its attributes. -/
def pairOf (cookie : Text) : Text := cookie.takeWhile (· ≠ 59)

/-- The request comes with the pair, as the first one of its name. -/
def Sends (r : Request) (pair : Text) : Prop :=
  ∃ cookies : List Cookie, r.fields.value "Cookie" = headerText cookies ∧
    (cookies.find? fun c => c.name = lit "fiy_auth").map Cookie.text = some pair

/-- The user of this instance that a request is from, on a connection of its own. -/
def userOf (h : Host) (r : Request) : Option Text :=
  (findUserLocal h (Session.accept r)).1.map LocalUser.username

section browser
variable {h : Host} {r : Request} {token : Text}

theorem IsToken.value (is_ : IsToken token) : isCookieValue token = true := by
  obtain ⟨rest, rfl, -, chars⟩ := is_
  have allowed : ∀ b ∈ charset, (33 ≤ b && b ≤ 126 && b ≠ 59) = true := by decide +kernel
  rw [isCookieValue, List.all_cons, Bool.and_eq_true, List.all_eq_true]
  exact ⟨by decide, fun b mem => allowed b (chars b mem)⟩

theorem takeWhile_attributes {t attributes : Text} (plain : ∀ b ∈ t, b ≠ 59)
    (behind : IsAttributes attributes) : (t ++ attributes).takeWhile (· ≠ 59) = t := by
  rw [List.takeWhile_append_of_pos fun b mem => decide_eq_true (plain b mem)]
  rcases behind with rfl | first
  · exact List.append_nil t
  · obtain ⟨rest, rfl⟩ := List.head?_eq_some_iff.mp first
    rw [List.takeWhile_cons_of_neg (by simp), List.append_nil]

/-- The browser keeps the name and the token. -/
theorem pairOf_cookieHeader {issued : AuthToken} (is_ : IsToken issued.token) :
    pairOf (cookieHeader issued) = lit "fiy_auth=" ++ issued.token := by
  have accepted : ¬ (!isCookieName (lit "fiy_auth") || !isCookieValue issued.token) = true := by
    have name : isCookieName (lit "fiy_auth") = true := by decide
    simp [name, is_.value]
  have plain : ∀ b ∈ lit "fiy_auth=" ++ issued.token, b ≠ 59 := by
    obtain ⟨rest, text, -, chars⟩ := is_
    have allowed : ∀ b ∈ charset, b ≠ 59 := by decide +kernel
    intro b mem
    rw [text, List.mem_append, List.mem_cons] at mem
    rcases mem with mem | rfl | mem
    · exact (by decide +kernel : ∀ b ∈ lit "fiy_auth=", b ≠ 59) b mem
    · decide
    · exact allowed b (chars b mem)
  have text : lit "fiy_auth" ++ lit "=" = lit "fiy_auth=" := by decide
  rw [pairOf, cookieHeader, serializeCookie]
  simp only [if_neg accepted, text]
  simp only [List.append_assoc]
  rw [← List.append_assoc (lit "fiy_auth=")]
  refine takeWhile_attributes plain ?_
  exact Or.inr (by decide)

theorem requestCookies_eq (r : Request) :
    requestCookies r = parseCookies (r.fields.value "Cookie") := by
  rw [requestCookies]
  split
  next empty => rw [empty]; rfl
  next => rfl

theorem ownToken_of_sends (sends : Sends r (lit "fiy_auth=" ++ token)) :
    ownToken r = some token := by
  obtain ⟨cookies, header, first⟩ := sends
  rw [ownToken, requestCookies_eq, header, lookup_headerText]
  obtain ⟨c, found, text⟩ := Option.map_eq_some_iff.mp first
  have name : c.name = lit "fiy_auth" := by simpa using List.find?_some found
  have whole : c.text = lit "fiy_auth=" ++ c.value := by
    have joined : lit "fiy_auth=" = lit "fiy_auth" ++ [61] := by decide
    rw [Cookie.text, name, joined, List.append_assoc, List.singleton_append]
  rw [found, Option.map_some, List.append_cancel_left (whole.symm.trans text)]

theorem userOf_eq (own : ownToken r = some token) :
    userOf h r = (h.users.authToken token).map LocalUser.username := by
  rw [userOf, findUserLocal_user, localAccount, heldToken_accept, own]

end browser

/-! ## Runs of the server -/

inductive Event
  /-- a request on a connection in any state -/
  | request (s : Session) (d : Draws)
  /-- what the callbacks of other instances leave -/
  | linked (heap : Heap) (peers : Peers)
  | clock (now : Int)
  /-- the thread of `LocalUsers` -/
  | cron

def next (site : Site) (h : Host) : Event → Option Host
  | .request s d => (routeRequest site h s d).toOption.map Served.host
  | .linked heap peers => some { h with heap, peers }
  | .clock now => some { h with now }
  | .cron => some { h with users := h.users.cron h.now }

/-- The strings that are drawn for tokens. -/
def drawnIn : Event → List Text
  | .request _ d => d.authTokens
  | _ => []

/-- Where this is the cron thread, it is not after this time. -/
def InTime (expiration : Int) (h : Host) (e : Event) : Prop := e = .cron → h.now ≤ expiration

section runs
variable {site : Site} {h h' : Host} {e : Event} {es : List Event} {token username : Text}
  {expiration : Int}

open SessionTokens (Holds holds_congr holds_eraseIf authToken_eq_some_iff)

/-- What an event does to the tokens, apart from the cron thread. -/
theorem issues_next (moved : next site h e = some h') (other : e ≠ .cron) :
    Issues (drawnIn e) h.users h'.users := by
  cases e with
  | cron => exact absurd rfl other
  | clock now => cases moved; exact Or.inl rfl
  | linked heap peers => cases moved; exact Or.inl rfl
  | request s d =>
    obtain ⟨served, ok, rfl⟩ := Option.map_eq_some_iff.mp moved
    cases answered : routeRequest site h s d with
    | error fault => rw [answered] at ok; cases ok
    | ok served' =>
      rw [answered] at ok
      cases ok
      rcases routeRequest_cases answered with plain | ⟨-, form, token, signs⟩
      · exact plain.serves.tokens
      · exact signs.grants.serves.tokens

theorem holds_next (moved : next site h e = some h')
    (held : Holds h.users token username expiration) :
    Holds h'.users token username expiration ↔ InTime expiration h e := by
  by_cases is_ : e = .cron
  · subst is_
    cases moved
    have kept := @holds_eraseIf h.users (h.users.cron h.now)
      (fun _ expiration => decide (expiration < h.now)) rfl token username expiration
    refine kept.trans ?_
    simp [held, InTime]
  · refine iff_of_true ?_ fun same => absurd same is_
    rcases issues_next moved is_ with same | ⟨new, -, free, grant, same⟩
    · exact (holds_congr same token username expiration).mpr held
    · have different : token ≠ new := fun is_ => free (is_ ▸ held.mem)
      obtain ⟨grant', found, rest⟩ := held
      exact ⟨grant', by rw [same, AList.lookup_insert_ne different]; exact found, rest⟩

/-- A string that is no token becomes one only when it is drawn. -/
theorem drawn_of_mem_next (moved : next site h e = some h') (free : token ∉ h.users.tokenCache)
    (mem : token ∈ h'.users.tokenCache) : token ∈ drawnIn e := by
  by_cases is_ : e = .cron
  · subst is_
    cases moved
    refine absurd ?_ free
    rw [← AList.lookup_isSome] at mem ⊢
    rw [LocalUsers.cron, lookup_eraseIf, Option.isSome_iff_exists] at mem
    obtain ⟨grant, found⟩ := mem
    rw [(Option.filter_eq_some_iff.mp found).1]
    rfl
  · rcases issues_next moved is_ with same | ⟨new, drawn, -, grant, same⟩
    · exact absurd (same ▸ mem) free
    · rw [same, AList.mem_insert] at mem
      rcases mem with rfl | mem
      · exact drawn
      · exact absurd mem free

theorem drawn_of_mem_run (run : Run (fun h e h' => next site h e = some h') h es h')
    (free : token ∉ h.users.tokenCache) (mem : token ∈ h'.users.tokenCache) :
    ∃ e ∈ es, token ∈ drawnIn e := by
  induction run with
  | refl => exact absurd mem free
  | @cons _ mid _ e es moved _ ih =>
    by_cases there : token ∈ mid.users.tokenCache
    · exact ⟨e, List.mem_cons_self, drawn_of_mem_next moved free there⟩
    · obtain ⟨e', listed, drawn⟩ := ih there mem
      exact ⟨e', List.mem_cons_of_mem _ listed, drawn⟩

/-- Where the cron thread is late, the token is gone. -/
theorem free_of_late (moved : next site h e = some h')
    (held : Holds h.users token username expiration) (late : ¬ InTime expiration h e) :
    token ∉ h'.users.tokenCache := by
  obtain ⟨is_, after⟩ := Classical.not_imp.mp late
  subst is_
  cases moved
  obtain ⟨grant, found, -, rfl⟩ := held
  have late_ : grant.expiration < h.now := Int.not_le.mp after
  rw [← AList.lookup_eq_none, LocalUsers.cron, lookup_eraseIf, found]
  simp [late_]

/-- A token is held until the cron thread is late, and then only if it is drawn again. -/
theorem holds_run (run : Run (fun h e h' => next site h e = some h') h es h')
    (held : Holds h.users token username expiration) :
    (EveryStep (next site) (InTime expiration) h es → Holds h'.users token username expiration) ∧
    (token ∈ h'.users.tokenCache →
      EveryStep (next site) (InTime expiration) h es ∨ ∃ e ∈ es, token ∈ drawnIn e) := by
  induction run with
  | refl => exact ⟨fun _ => held, fun _ => Or.inl trivial⟩
  | @cons h mid h' e es moved rest ih =>
    have one := holds_next moved held
    have every : EveryStep (next site) (InTime expiration) h (e :: es) ↔
        InTime expiration h e ∧ EveryStep (next site) (InTime expiration) mid es := by
      simp only [EveryStep, moved, Option.some.injEq, forall_eq']
    rw [every]
    constructor
    · rintro ⟨inTime, later⟩
      exact (ih (one.mpr inTime)).1 later
    · intro mem
      by_cases inTime : InTime expiration h e
      · rcases (ih (one.mpr inTime)).2 mem with later | ⟨e', listed, drawn⟩
        · exact Or.inl ⟨inTime, later⟩
        · exact Or.inr ⟨e', List.mem_cons_of_mem _ listed, drawn⟩
      · obtain ⟨e', listed, drawn⟩ := drawn_of_mem_run rest (free_of_late moved held inTime) mem
        exact Or.inr ⟨e', List.mem_cons_of_mem _ listed, drawn⟩

end runs

section sessions
variable {site : Site} {h : Host} {s : Session} {d : Draws} {served : Served}

theorem serveAttempt_sets {page : Nat → Text → Text} {attempt : Attempt}
    (ok : serveAttempt site s page attempt = .ok served) :
    (∃ cookie, Sets served cookie) ↔ ∃ token h', attempt = .signedIn token h' := by
  cases attempt with
  | drawing => cases ok
  | refused status message h' =>
    have plain : Plain [] h' served := plain_answer (.refl [] h') rfl ok
    refine iff_of_false (fun ⟨cookie, set⟩ => plain.unset cookie set) ?_
    rintro ⟨_, _, same⟩
    cases same
  | signedIn token h' =>
    refine iff_of_true ?_ ⟨token, h', rfl⟩
    simp only [serveAttempt, signIn] at ok
    split at ok
    · cases ok
    · cases ok
      exact ⟨cookieHeader token, _, rfl,
        by rw [Fields.find_set_other _ _ (by decide), Fields.find_set_self]⟩

theorem loginAttempt_signedIn {username password body : Text} {drawn : List Text}
    (parsed : parseFormUrlEncoded body =
      some [(lit "username", username), (lit "password", password)])
    (finished : loginAttempt h body drawn ≠ .drawing) :
    (∃ token h', loginAttempt h body drawn = .signedIn token h') ↔
      h.users.Valid h.crypto h.config username password := by
  have first : formField [(lit "username", username), (lit "password", password)] "username" =
      username := by
    simp [formField, (by decide : lit "password" ≠ lit "username")]
  have second : formField [(lit "username", username), (lit "password", password)] "password" =
      password := by
    simp [formField]
  simp only [loginAttempt, parsed, first, second] at finished ⊢
  by_cases valid : h.users.Valid h.crypto h.config username password
  · obtain ⟨user, mid, login, -⟩ := LocalUsers.loginUser_of_valid valid h.now drawn
    refine iff_of_true ?_ valid
    rw [login] at finished ⊢
    cases authorized : mid.authorizeUser user h.now drawn with
    | none => simp [authorized] at finished
    | some issued =>
      obtain ⟨token, users⟩ := issued
      have account := LocalUsers.authorizeUser_user authorized
      exact ⟨token, { h with users }, by simp [account]⟩
  · obtain ⟨users, login⟩ := LocalUsers.loginUser_of_invalid valid h.now drawn
    refine iff_of_false ?_ valid
    simp [login]

def aliceForm : Request where
  method := .post
  target := "/portal/login"
  fields := []
  body := "username=alice&password=secret"

def drawnToken : Text := ".abcdefghijklmnopqrstuvw"

/-- What alice's browser sends a day after the form, when the cron thread has run. -/
def aliceLater : Request where
  method := .get
  target := "/blog"
  fields := [("Cookie", "theme=dark; fiy_auth=.abcdefghijklmnopqrstuvw")]
  body := []

theorem ne_quoted {t : Text} (first : t.head? ≠ some 34) (inner : Text) :
    t ≠ 34 :: (inner ++ [34]) :=
  fun same => first (same ▸ rfl)

theorem aliceLater_sends : Sends aliceLater (lit "fiy_auth=" ++ drawnToken) := by
  refine ⟨[⟨lit "theme", lit "dark", by decide, by decide, ne_quoted (by decide)⟩,
    ⟨lit "fiy_auth", drawnToken, by decide, by decide +kernel, ne_quoted (by decide)⟩], ?_, ?_⟩
  · decide +kernel
  · decide +kernel

def aliceToken : AuthToken := ⟨some demoAlice, drawnToken, 1000 + AuthToken.sessionLifetime⟩

theorem aliceForm_answered :
    (routeRequest demoSite demoHost (Session.accept aliceForm) ⟨[drawnToken], []⟩).toOption.map
        Served.effects =
      some [.respond { status := 303
                       fields := (Fields.set [] "Set-Cookie" (cookieHeader aliceToken)).set
                         "Location" "/portal" }] := by
  decide +kernel

end sessions

end BrowserSessions
