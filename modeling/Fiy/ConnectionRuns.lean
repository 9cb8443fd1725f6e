import Fiy.RequestRouting

/-!
# Requests on one keep-alive connection

A connection serves a list of requests, each against its own server state, and only
the cookie cache survives from one to the next. A request is isolated when it is
authenticated as it would be on a connection of its own, whatever the server state.
-/

namespace ConnectionRuns

open ByteStrings KeyedTables HttpMessages HostEnvironment PeerLinks PeerRegistry WebText
open LocalAccounts ModAccess Sessions ModConnectors RequestRouting

/-- One request with the server that serves it. -/
structure Visit where
  site : Site
  host : Host
  req : Request
  draws : Draws

/-- A connection before its first request. -/
def newConnection : Session := Session.accept ⟨.get, [], [], []⟩

def visit (s : Session) (v : Visit) : Except Fault Served :=
  routeRequest v.site v.host (s.doRead v.req) v.draws

/-- Every request of the list, as far as it is served, meets the condition at the
connection it arrives on. -/
def EveryVisit (P : Session → Request → Prop) : Session → List Visit → Prop
  | _, [] => True
  | s, v :: vs => P s v.req ∧ match visit s v with
    | .ok served => EveryVisit P served.session vs
    | .error _ => True

/-- The request is authenticated as on a connection of its own. -/
def Isolated (s : Session) (r : Request) : Prop :=
  ∀ h, (findUserLocal h (s.doRead r)).1 = (findUserLocal h (Session.accept r)).1 ∧
    ∀ appId, (findUser h (s.doRead r) appId).map Prod.fst =
      (findUser h (Session.accept r) appId).map Prod.fst

/-- The cookie cache is empty, or has the request's own login cookie. -/
def JarAgrees (s : Session) (r : Request) : Prop :=
  s.cookies.entries = [] ∨ s.cookies.lookup (lit "fiy_auth") = ownToken r

theorem EveryVisit.tail {P : Session → Request → Prop} {s : Session} {v : Visit}
    {vs : List Visit} {served : Served} (every : EveryVisit P s (v :: vs))
    (ok : visit s v = .ok served) : EveryVisit P served.session vs := by
  have rest := every.2
  rw [ok] at rest
  exact rest

theorem every_visit_congr {P Q : Session → Request → Prop} (same : ∀ s r, P s r ↔ Q s r)
    (s : Session) (vs : List Visit) : EveryVisit P s vs ↔ EveryVisit Q s vs := by
  induction vs generalizing s with
  | nil => exact Iff.rfl
  | cons v vs ih =>
    simp only [EveryVisit]
    refine and_congr (same s v.req) ?_
    cases visit s v with
    | error _ => exact Iff.rfl
    | ok served => exact ih served.session

/-! ## One request -/

theorem heldToken_doRead (s : Session) (r : Request) :
    (s.doRead r).heldToken =
      if s.cookies.entries = [] then ownToken r else s.cookies.lookup (lit "fiy_auth") := by
  rw [Session.heldToken, Session.getCookies]
  by_cases h : s.cookies.entries = [] <;> simp [Session.doRead, h, ownToken]

theorem jarAgrees_iff (s : Session) (r : Request) :
    JarAgrees s r ↔ (s.doRead r).heldToken = (Session.accept r).heldToken := by
  rw [heldToken_doRead, heldToken_accept, JarAgrees]
  by_cases h : s.cookies.entries = [] <;> simp [h]

/-- Authentication sees of a connection the request and the token it holds. -/
theorem findUserLocal_congr (h : Host) {s s' : Session} (req : s.req = s'.req)
    (held : s.heldToken = s'.heldToken) :
    (findUserLocal h s).1 = (findUserLocal h s').1 ∧
      (findUserLocal h s).2.1 = (findUserLocal h s').2.1 ∧
      (findUserLocal h s).2.2.req = (findUserLocal h s').2.2.req := by
  simp only [Session.heldToken] at held
  simp only [findUserLocal, getCookies_req, req, held]
  cases s'.getCookies.cookies.lookup (lit "fiy_auth") with
  | some token => simp [req]
  | none =>
    cases basicCredentials h.crypto s'.req.fields with
    | none => simp [req]
    | some creds => simp

theorem findUser_congr (h : Host) {s s' : Session} (req : s.req = s'.req)
    (held : s.heldToken = s'.heldToken) (appId : Option Text) :
    (findUser h s appId).map Prod.fst = (findUser h s' appId).map Prod.fst := by
  obtain ⟨user, host, after⟩ := findUserLocal_congr h req held
  rcases hl : findUserLocal h s with ⟨u, h₁, s₁⟩
  rcases hl' : findUserLocal h s' with ⟨u', h₁', s₁'⟩
  simp only [hl, hl'] at user host after
  subst user host
  cases u with
  | some lu => simp [findUser, hl, hl', Except.map]
  | none =>
    simp only [findUser, hl, hl', after]
    cases findPeerUser h₁ s₁'.req appId <;> rfl

/-- A server without accounts, where one token is good for one user. -/
def tokenHost (token : Text) : Host :=
  { demoHost with
    users := { LocalUsers.empty with
      tokenCache := (∅ : Table Text Grant).insert token ⟨demoAlice, 5000⟩ } }

theorem tokenHost_user (token : Text) (s : Session) :
    (findUserLocal (tokenHost token) s).1 = some demoAlice ↔ s.heldToken = some token := by
  have good : ∀ t, (tokenHost token).users.authToken t =
      if t = token then some demoAlice else none := by
    intro t
    simp only [tokenHost, LocalUsers.authToken, lookup_insert_eq]
    split <;> rfl
  rw [findUserLocal_user, localAccount]
  cases s.heldToken with
  | some t => simp [good]
  | none =>
    have nobody : ∀ name, ((tokenHost token).users.getUser name).1 = none := fun _ => rfl
    cases basicCredentials (tokenHost token).crypto s.req.fields with
    | none => simp
    | some creds => simp [nobody]

/-- Two held tokens that differ are told apart by the server where one of them is good. -/
theorem isolated_iff (s : Session) (r : Request) : Isolated s r ↔ JarAgrees s r := by
  rw [jarAgrees_iff]
  constructor
  · intro isolated
    have same := fun token => (isolated (tokenHost token)).1
    cases held : (s.doRead r).heldToken with
    | some token =>
      have found := (tokenHost_user token _).mpr held
      rw [same token] at found
      exact ((tokenHost_user token _).mp found).symm
    | none =>
      cases own : (Session.accept r).heldToken with
      | none => rfl
      | some token =>
        have found := (tokenHost_user token _).mpr own
        rw [← same token, tokenHost_user, held] at found
        cases found
  · intro held h
    have req : (s.doRead r).req = (Session.accept r).req := rfl
    exact ⟨(findUserLocal_congr h req held).1, findUser_congr h req held⟩

/-! ## Whole connections -/

/-- A list of requests is served in isolation exactly when each of them meets a cookie
cache that is empty or agrees with it. -/
theorem every_visit_isolated_iff (vs : List Visit) :
    EveryVisit Isolated newConnection vs ↔ EveryVisit JarAgrees newConnection vs :=
  every_visit_congr isolated_iff newConnection vs

theorem findUserLocal_cookies (h : Host) (s : Session) :
    (findUserLocal h s).2.2.cookies = s.getCookies.cookies := by
  simp only [findUserLocal]
  split
  · rfl
  · split <;> rfl

theorem findUser_cookies {h h' : Host} {s s' : Session} {appId : Option Text}
    {u : Option User} (hfound : findUser h s appId = .ok (u, h', s')) :
    s'.cookies = s.getCookies.cookies := by
  have cookies := findUserLocal_cookies h s
  simp only [findUser] at hfound
  split at hfound
  · rename_i hlocal
    cases hfound
    rw [hlocal] at cookies
    exact cookies
  · rename_i h₁ s₁ hlocal
    rw [hlocal] at cookies
    cases hpeer : findPeerUser h₁ s₁.req appId with
    | error e => simp [hpeer, Except.map] at hfound
    | ok u =>
      simp only [hpeer, Except.map, Except.ok.injEq, Prod.mk.injEq] at hfound
      obtain ⟨_, _, rfl⟩ := hfound
      exact cookies

/-- What a handler may leave in the cookie cache: what was there, nothing, or the
cookies of the request. -/
def Leaves (s s' : Session) : Prop :=
  s'.cookies = s.cookies ∨ s'.cookies = ∅ ∨ s'.cookies = requestCookies s.req

theorem getCookies_leaves {s s' : Session} (h : s'.cookies = s.getCookies.cookies) :
    Leaves s s' := by
  rw [Session.getCookies] at h
  split at h
  · exact Or.inr (Or.inr h)
  · exact Or.inl h

theorem answer_leaves {h : Host} {s s₁ : Session} {res : Response} {served : Served}
    (left : Leaves s s₁) (ok : answer h s₁ res = .ok served) : Leaves s served.session := by
  cases ok
  exact left

theorem handleRequest_leaves {h : Host} {s : Session} {m : Mod} {served : Served}
    (ok : handleRequest h s m = .ok served) : Leaves s served.session := by
  simp only [handleRequest] at ok
  split at ok
  · cases ok
  · rename_i h₁ s₁ hfound
    exact answer_leaves (getCookies_leaves (findUser_cookies hfound)) ok
  · rename_i u h₁ s₁ hfound
    have left : Leaves s s₁ := getCookies_leaves (findUser_cookies hfound)
    split at ok
    · simp only [dllHandle] at ok
      split at ok
      · cases ok
      · exact answer_leaves left ok
      · split at ok
        · cases ok
          exact left
        · exact answer_leaves left ok
    · simp [netHandle, moved] at ok

theorem serveAttempt_leaves {site : Site} {s : Session} {page : Nat → Text → Text}
    {attempt : Attempt} {served : Served} (ok : serveAttempt site s page attempt = .ok served) :
    Leaves s served.session := by
  cases attempt with
  | refused status message h => exact answer_leaves (Or.inl rfl) ok
  | drawing => cases ok
  | signedIn token h =>
    simp only [serveAttempt, signIn] at ok
    split at ok
    · cases ok
    · exact answer_leaves (Or.inr (Or.inl rfl)) ok

theorem routeRequest_leaves {site : Site} {h : Host} {s : Session} {d : Draws}
    {served : Served} (ok : routeRequest site h s d = .ok served) :
    Leaves s served.session := by
  have unchanged : Leaves s s := Or.inl rfl
  simp only [routeRequest] at ok
  split at ok
  any_goals exact answer_leaves unchanged ok
  · simp only [servePortalRedirect] at ok
    split at ok
    · exact answer_leaves unchanged ok
    · split at ok
      · cases ok
      · split at ok <;> exact answer_leaves unchanged ok
  · simp only [servePortalHome] at ok
    have left : Leaves s (findUserLocal h s).2.2 := getCookies_leaves (findUserLocal_cookies h s)
    split at ok
    · rename_i hlocal
      rw [hlocal] at left
      exact answer_leaves left ok
    · rename_i hlocal
      rw [hlocal] at left
      exact answer_leaves left ok
  · exact serveAttempt_leaves ok
  · exact serveAttempt_leaves ok
  · simp only [servePeerHandshake] at ok
    split at ok
    · exact answer_leaves unchanged ok
    · cases ok
      exact unchanged
  · simp only [requestMod] at ok
    split at ok
    · split at ok <;> exact answer_leaves unchanged ok
    · have left := handleRequest_leaves ok
      exact left

/-- The cache is empty, or has the cookies of a request that came before. -/
def Remembers (seen : List Request) (s : Session) : Prop :=
  s.cookies.entries = [] ∨ ∃ r ∈ seen, s.cookies = requestCookies r

theorem visit_remembers {seen : List Request} {s : Session} {v : Visit} {served : Served}
    (inv : Remembers seen s) (ok : visit s v = .ok served) :
    Remembers (v.req :: seen) served.session := by
  have kept : Remembers (v.req :: seen) s := by
    rcases inv with empty | ⟨r, hr, same⟩
    · exact Or.inl empty
    · exact Or.inr ⟨r, List.mem_cons_of_mem _ hr, same⟩
  rcases routeRequest_leaves ok with same | cleared | filled
  · rw [Remembers, same]
    exact kept
  · exact Or.inl (by rw [cleared]; rfl)
  · exact Or.inr ⟨v.req, List.mem_cons_self, filled⟩

/-- Requests that all carry the same login cookie, or all none, are isolated. -/
theorem same_token_isolated {token : Option Text} (vs : List Visit)
    (same : ∀ v ∈ vs, ownToken v.req = token) : EveryVisit Isolated newConnection vs := by
  have go : ∀ (vs : List Visit) (seen : List Request) (s : Session),
      (∀ v ∈ vs, ownToken v.req = token) → (∀ r ∈ seen, ownToken r = token) →
      Remembers seen s → EveryVisit JarAgrees s vs := by
    intro vs
    induction vs with
    | nil => exact fun _ _ _ _ _ => trivial
    | cons v vs ih =>
      intro seen s ahead behind inv
      have own := ahead v List.mem_cons_self
      refine ⟨?_, ?_⟩
      · rcases inv with empty | ⟨r, hr, cookies⟩
        · exact Or.inl empty
        · exact Or.inr (by rw [cookies, own]; exact behind r hr)
      · split
        · rename_i served ok
          refine ih (v.req :: seen) served.session
            (fun w hw => ahead w (List.mem_cons_of_mem _ hw)) ?_ (visit_remembers inv ok)
          intro r hr
          rcases List.mem_cons.mp hr with rfl | hr
          · exact own
          · exact behind r hr
        · trivial
  exact (every_visit_congr isolated_iff newConnection vs).mpr
    (go vs [] newConnection same (fun _ hr => absurd hr List.not_mem_nil) (Or.inl rfl))

def portalVisit : Visit :=
  ⟨demoSite, demoHost, ⟨.get, "/portal", [("Cookie", "fiy_auth=tok")], []⟩, ⟨[], []⟩⟩

def anonymousVisit : Visit := ⟨demoSite, demoHost, ⟨.get, "/portal", [], []⟩, ⟨[], []⟩⟩

/-- `alice` opens the portal, then somebody without a cookie does, on one connection. -/
def sharedConnection : List Visit := [portalVisit, anonymousVisit]

/-- The second request is taken for `alice`. -/
theorem shared_connection_leaks : ¬ EveryVisit Isolated newConnection sharedConnection := by
  have jar : (visit newConnection portalVisit).toOption.map
      (fun served => served.session.cookies.lookup (lit "fiy_auth")) =
        some (some (lit "tok")) := by decide
  have own : ownToken anonymousVisit.req = none := by decide
  intro every
  cases first : visit newConnection portalVisit with
  | error _ =>
    rw [first] at jar
    cases jar
  | ok served =>
    rw [first] at jar
    have held : served.session.cookies.lookup (lit "fiy_auth") = some (lit "tok") :=
      Option.some.inj jar
    have second : JarAgrees served.session anonymousVisit.req :=
      (isolated_iff _ _).mp (every.tail first).1
    rcases second with empty | agrees
    · have absent : served.session.cookies.lookup (lit "fiy_auth") = none := by
        rw [AList.lookup, empty]
        rfl
      rw [absent] at held
      cases held
    · rw [agrees, own] at held
      cases held

end ConnectionRuns
