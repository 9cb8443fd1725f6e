import Fiy.LocalAccounts
import Fiy.GitRouter
import Fiy.RepoAddresses

/-!
# The page of a repository behind the routers

A path of a user and a repository goes by the routers of files, user pages and the API
before it is read as an address, and what follows the repository is cut off once more.
-/

namespace PageRoutes

open ByteStrings ModConnectors ModLibrary LocalAccounts GitRepos GitPages GitRouter RepoAddresses

/-- First segments of paths that are not users. -/
def reservedSegments : List Text := ["api", "repo", "fa", "fonts"]

/-- The path of a page behind the segment of its user. -/
def pagePath (segment r q : Text) : Text := 47 :: (segment ++ 47 :: (r ++ q))

/-- What the mod takes for the subpath when a query follows the name. -/
def cutQuery (q : Text) : Text := (q.dropWhile (· ≠ 47)).dropWhile (· = 47)

/-- The query does not change what is found. -/
def QueryHarmless (q : Text) : Prop := 64 ∉ q ∧ IsPage (cutQuery q)

/-- A path that starts with the name is not the API's nor that of the forms. -/
def Unclaimed (u : Text) : Prop := ¬ lit "api" <+: u ∧ ¬ lit "repo" <+: u

section routes
variable {u r q : Text}

/-! ## Names and segments -/

theorem name_bytes (signup : usernameError u = none) : ∀ b ∈ u, (isAlnum b || b = 95) = true := by
  simp only [usernameError] at signup
  split at signup
  · cases signup
  · rename_i plain
    exact List.all_eq_true.mp (by simpa only [Bool.not_eq_true', Bool.not_eq_false] using plain)

theorem name_sized (signup : usernameError u = none) : 2 ≤ u.length ∧ u ≠ "api" := by
  simp only [usernameError] at signup
  split at signup
  · cases signup
  · split at signup
    · cases signup
    · rename_i sized
      split at signup
      · cases signup
      · rename_i free
        refine ⟨?_, ?_⟩
        · rcases u with - | ⟨b, - | ⟨c, u⟩⟩
          · exact absurd (.inr rfl) sized
          · exact absurd (.inl rfl) free
          · simp only [List.length_cons]
            omega
        · rintro rfl
          exact free (.inr (.inl (by decide)))

theorem name_without (signup : usernameError u = none) {b : Byte}
    (other : (isAlnum b || decide (b = 95)) = false) : b ∉ u := by
  intro mem
  rw [name_bytes signup b mem] at other
  cases other

theorem name_plain (signup : usernameError u = none) : Plain u := by
  intro b mem
  refine ⟨?_, ?_, ?_⟩
  · rintro rfl
    exact name_without signup (by decide) mem
  · rintro rfl
    exact name_without signup (by decide) mem
  · rintro rfl
    exact name_without signup (by decide) mem

/-- What starts the path of a user starts his name, when it has no separator. -/
theorem prefix_segment_iff {s user rest : Text} (absent : 47 ∉ s) :
    s <+: user ++ 47 :: rest ↔ s <+: user := by
  refine ⟨fun start => ?_, fun start => start.trans (List.prefix_append _ _)⟩
  induction user generalizing s with
  | nil =>
    cases s with
    | nil => exact List.prefix_rfl
    | cons b s =>
      have first : b = 47 := (List.cons_prefix_cons.mp start).1
      exact absurd (first ▸ List.mem_cons_self) absent
  | cons c user ih =>
    cases s with
    | nil => exact List.nil_prefix
    | cons b s =>
      obtain ⟨rfl, more⟩ := List.cons_prefix_cons.mp start
      exact List.cons_prefix_cons.mpr
        ⟨rfl, ih (fun mem => absent (List.mem_cons_of_mem _ mem)) more⟩

/-! ## The routers in front -/

section skipped
variable {host : GitHost} {b : GitBackend} {req : ModRequest} {segment rest : Text}

theorem assetFor_segment (slashless : 47 ∉ segment) (files : segment ≠ "fa")
    (fonts : segment ≠ "fonts") : assetFor (47 :: (segment ++ 47 :: rest)) = none := by
  have other : ∀ {file : Text}, 47 ∉ file → 47 :: (segment ++ 47 :: rest) ≠ 47 :: file := by
    intro file plain same
    have here : (47 : Byte) ∈ segment ++ 47 :: rest :=
      List.mem_append_right _ List.mem_cons_self
    exact plain ((List.cons.inj same).2 ▸ here)
  have style : 47 :: (segment ++ 47 :: rest) ≠ lit "/fa/fa.css" := by
    intro same
    have cuts : segment ++ 47 :: rest = lit "fa" ++ 47 :: lit "fa.css" := (List.cons.inj same).2
    exact files ((slash_eq_iff slashless (by decide)).mp cuts).1
  have font : ¬ fontPrefix <+: 47 :: (segment ++ 47 :: rest) := by
    rintro ⟨more, same⟩
    have cuts : lit "fonts" ++ 47 :: (lit "fontawesome-webfont." ++ more) =
        segment ++ 47 :: rest := (List.cons.inj same).2
    exact fonts ((slash_eq_iff (by decide) slashless).mp cuts).1.symm
  have none_ : assets.find? (fun asset =>
      decide (47 :: (segment ++ 47 :: rest) = asset.1)) = none := by
    refine List.find?_eq_none.mpr fun asset mem => ?_
    simp only [assets, List.mem_cons, List.not_mem_nil, or_false] at mem
    rcases mem with rfl | rfl | rfl | rfl
    · exact fun same => other (by decide) (of_decide_eq_true same)
    · exact fun same => other (by decide) (of_decide_eq_true same)
    · exact fun same => other (by decide) (of_decide_eq_true same)
    · exact fun same => style (of_decide_eq_true same)
  rw [assetFor, none_, if_neg font]
  rfl

theorem asset_skip (slashless : 47 ∉ segment) (ne : segment ≠ [])
    (name : segment.head? ≠ some 63) (files : segment ≠ "fa") (fonts : segment ≠ "fonts") :
    staticAssetRouter host (47 :: (segment ++ 47 :: rest)) req = .ok none := by
  have page : ¬ IsLanding (47 :: (segment ++ 47 :: rest)) := by
    rintro ⟨-, single | query⟩
    · simp at single
    · cases segment with
      | nil => exact ne rfl
      | cons c segment => exact name query
  rw [staticAssetRouter, if_neg page, assetFor_segment slashless files fonts]

theorem userOf_segment (plain : ∀ c ∈ segment, c ≠ 47 ∧ c ≠ 63 ∧ c ≠ 35) :
    userOf (47 :: (segment ++ 47 :: rest)) =
      if rest = [] ∨ rest.head? = some 63 ∨ rest.head? = some 35 then some segment else none := by
  have taken : (segment ++ 47 :: rest).takeWhile (fun c => decide (c ≠ 47 ∧ c ≠ 63 ∧ c ≠ 35)) =
      segment := by
    rw [List.takeWhile_append_of_pos fun c mem => decide_eq_true (plain c mem)]
    exact List.append_nil _
  simp only [userOf, List.head?_cons, if_true, List.tail_cons, taken, List.drop_left]

theorem apiRouter_skip (free : ¬ lit "api" <+: segment) :
    apiRouter host b (47 :: (segment ++ 47 :: rest)) req = .ok none := by
  have other : ¬ lit "/api" <+: 47 :: (segment ++ 47 :: rest) := fun start =>
    free ((prefix_segment_iff (by decide)).mp (List.cons_prefix_cons.mp start).2)
  rw [apiRouter, if_pos other]

/-- A name that starts like the API is answered by it. -/
theorem apiRouter_claimed (slashless : 47 ∉ segment) (claimed : lit "api" <+: segment)
    (ne : segment ≠ "api") :
    apiRouter host b (47 :: (segment ++ 47 :: rest)) req = reply 404 [] "Not Found" := by
  obtain ⟨name, rfl⟩ := claimed
  have start : lit "/api" <+: 47 :: (lit "api" ++ name ++ 47 :: rest) :=
    ⟨name ++ 47 :: rest, rfl⟩
  cases name with
  | nil => exact absurd (List.append_nil _) ne
  | cons c name =>
    have letter : c ≠ 47 := by
      rintro rfl
      exact slashless (List.mem_append_right _ List.mem_cons_self)
    have other : ∀ more : Text, ¬ 47 :: more <+: c :: (name ++ 47 :: rest) := fun more start =>
      letter (List.cons_prefix_cons.mp start).1.symm
    have path : apiPath (47 :: (lit "api" ++ c :: name ++ 47 :: rest)) =
        c :: (name ++ 47 :: rest) := if_neg (other "v1")
    have handlers : apiHandlers host b (c :: (name ++ 47 :: rest)) req = .ok none :=
      (if_neg (other "repo")).trans (if_neg (other "user/"))
    rw [apiRouter, if_neg (not_not.mpr start), path, if_neg (List.cons_ne_nil _ _), handlers]
    rfl

/-! ### Other answers -/

variable {headers body : Text}

theorem reply_ne {status : Int} {headers' body' : Text} (other : status ≠ 200) :
    reply status headers' body' ≠ reply 200 headers body := by
  intro same
  simp only [reply, Except.ok.injEq, Option.some.injEq, List.cons.injEq, GitEffect.respond.injEq,
    respond, ModResponse.mk.injEq] at same
  exact other same.1.1

/-- The page of a user has other headers. -/
theorem headers_ne {headers' body' : Text} (full : headers' ≠ [])
    (other : headers' ≠ headers) : reply 200 headers' body' ≠ reply 200 headers body := by
  intro same
  simp only [reply, Except.ok.injEq, Option.some.injEq, List.cons.injEq, GitEffect.respond.injEq,
    respond, ModResponse.mk.injEq, if_neg full] at same
  have both := same.1.2.1
  split at both
  · cases both
  · exact other (Option.some.inj both)

theorem skip_ne : (.ok none : Handled) ≠ reply 200 headers body := by
  intro same
  cases same

theorem notFound_ne {handled : Handled} (other : handled ≠ reply 200 headers body) :
    orElse handled (reply 404 [] "Not Found") ≠ reply 200 headers body := by
  rcases handled with crash | - | done
  · exact other
  · exact reply_ne (by decide)
  · exact other

theorem unauthenticated_ne : unauthenticated host req ≠ reply 200 headers body := by
  unfold unauthenticated
  cases req.user with
  | none =>
    intro same
    simp [reply, respond] at same
  | some user => exact reply_ne (by decide)

/-- A name that starts like the forms is refused or not found. -/
theorem repoRouter_claimed (slashless : 47 ∉ segment) (claimed : lit "repo" <+: segment)
    (ne : segment ≠ "repo") :
    repoRouter host b (47 :: (segment ++ 47 :: rest)) req ≠ reply 200 headers body := by
  obtain ⟨name, rfl⟩ := claimed
  have start : lit "/repo" <+: 47 :: (lit "repo" ++ name ++ 47 :: rest) :=
    ⟨name ++ 47 :: rest, rfl⟩
  rw [repoRouter, if_neg (List.cons_ne_nil _ _), if_pos start]
  cases name with
  | nil => exact absurd (List.append_nil _) ne
  | cons c name =>
    have form : ¬ lit "/new" <+: c :: (name ++ 47 :: rest) := by
      intro start
      have slash : (47 : Byte) = c := (List.cons_prefix_cons.mp start).1
      exact slashless (List.mem_append_right _ (slash ▸ List.mem_cons_self))
    change repoForms host b (c :: (name ++ 47 :: rest)) req ≠ _
    rw [repoForms, if_neg form]
    split
    · exact unauthenticated_ne
    · exact skip_ne

/-- The backend runs before it is answered. -/
theorem gitRepoCgi_ne {repo : LocalRepo} :
    gitRepoCgi host b repo req ≠ reply 200 headers body := by
  intro same
  unfold gitRepoCgi at same
  rcases ran : b.httpBackend (host.repoCgi req) with fault | - | output
  all_goals simp [ran, reply] at same

theorem repoCgi_ne {repo : LocalRepo} : repoCgi host b repo req ≠ reply 200 headers body := by
  rw [repoCgi]
  cases canAccess b.toBackend repo (cgiAccess req) req.user req.domain with
  | error fault =>
    intro same
    cases same
  | ok allowed =>
    rw [andThen]
    split
    · exact gitRepoCgi_ne
    · split
      · exact reply_ne (by decide)
      · exact unauthenticated_ne

/-- Below the page of a repository nothing answers with it. -/
theorem localRepo_ne {repo : LocalRepo} {subpath : Text} (below : ¬ IsPage subpath) :
    localRepo host b repo subpath req ≠ reply 200 headers body := by
  rw [localRepo, if_neg below]
  split
  · rw [repoCommit]
    split
    · intro same
      simp [reply, respond] at same
    · exact skip_ne
  · split
    · exact skip_ne
    · exact repoCgi_ne

end skipped

/-! ## What follows the name -/

/-- What is cut off in front of a query is a page. -/
theorem isPage_cut (named : Text) :
    IsPage ((named.dropWhile fun c => decide (c ≠ 63 ∧ c ≠ 35)).dropWhile fun c => c = 47) := by
  cases cut_ : named.dropWhile fun c => decide (c ≠ 63 ∧ c ≠ 35) with
  | nil => exact .inl rfl
  | cons c rest =>
    have stops : ¬ (c ≠ 63 ∧ c ≠ 35) := by
      have head := List.head?_dropWhile_not (fun c : Byte => decide (c ≠ 63 ∧ c ≠ 35)) named
      rw [cut_] at head
      simpa using head
    rw [not_and_or, not_not, not_not] at stops
    rcases stops with rfl | rfl
    · exact .inr (.inl rfl)
    · exact .inr (.inr rfl)

theorem cutQuery_slashless (absent : 47 ∉ q) : cutQuery q = [] := by
  have all : q.dropWhile (fun c => decide (c ≠ 47)) = [] :=
    List.dropWhile_eq_nil_iff.mpr fun c mem => decide_eq_true (p := c ≠ 47) fun slash =>
      absent (slash ▸ mem)
  rw [cutQuery, all]
  rfl

theorem isPage_subpathOf {segment : Text} (slashless : 47 ∉ segment) (ne : segment ≠ [])
    (plain : Plain r) : IsPage (subpathOf (pagePath segment r q)) ↔ IsPage (cutQuery q) := by
  have back : (pagePath segment r q).dropWhile (fun c => decide (c = 47)) =
      segment ++ 47 :: (r ++ q) := by
    obtain ⟨c, name, rfl⟩ := List.exists_cons_of_ne_nil ne
    have letter : ¬ c = 47 := fun slash => slashless (slash ▸ List.mem_cons_self)
    rw [pagePath, List.dropWhile_cons_of_pos (p := fun c => decide (c = 47)) rfl]
    exact List.dropWhile_cons_of_neg (p := fun c => decide (c = 47))
      (fun slash => letter (of_decide_eq_true slash))
  have named : (segment ++ 47 :: (r ++ q)).dropWhile (fun c => decide (c ≠ 47)) =
      47 :: (r ++ q) := by
    rw [List.dropWhile_append_of_pos fun c mem => decide_eq_true (p := c ≠ 47) fun slash =>
      slashless (slash ▸ mem)]
    rfl
  have repo : 47 ∉ r := fun mem => (plain 47 mem).1 rfl
  have name : (r ++ q).dropWhile (fun c => decide (c ≠ 47)) =
      q.dropWhile fun c => decide (c ≠ 47) :=
    List.dropWhile_append_of_pos fun c mem => decide_eq_true (p := c ≠ 47) fun slash =>
      repo (slash ▸ mem)
  simp only [subpathOf, back, named, List.tail_cons, name, List.mem_append, repo, false_or]
  by_cases slash : 47 ∈ q
  · rw [if_pos slash]
    rfl
  · rw [if_neg slash, cutQuery_slashless slash]
    exact iff_of_true (isPage_cut _) (.inl rfl)

/-! ## The page -/

section page
variable (host : GitHost) (b : GitBackend) (req : ModRequest)

/-- The request is answered with the page of a repository. -/
def Shows (data : GitHost.RepoPageData) : Prop :=
  handleRequest host b req = reply 200 "Content-Type: text/html"
    (host.repoPage data (requestUser req))

/-- There is a repository that the requester may read. -/
structure Readable (u r : Text) (repo : LocalRepo) (data : GitHost.RepoPageData) : Prop where
  loaded : getRepo b.toBackend ⟨[], u, r⟩ = .ok repo
  there : repo.valid = true
  allowed : canAccess b.toBackend repo .read req.user req.domain = .ok true
  shown : host.repoPageData b.toBackend repo = .ok data

variable {host b req}

/-- The address of a page. -/
def pageForm (escaped : Bool) (user : u ≠ []) (user_plain : Plain u) (repo : r ≠ [])
    (repo_plain : Plain r) (bare : ¬ lit ".git" <:+ r) (query : q = [] ∨ q.head? = some 63) :
    Form where
  slashes := 1
  escaped
  user := u
  inst := none
  repo := r
  git := false
  rest := q
  user_ne := user
  user_plain
  inst_plain := fun _ none => nomatch none
  repo_ne := repo
  repo_plain
  repo_bare := fun _ => bare
  rest_starts := query.imp_right .inr

/-- The segment of a user, with an at sign in front or without. -/
def segmentOf (escaped : Bool) (u : Text) : Text := if escaped then 64 :: u else u

theorem segmentOf_ne {escaped : Bool} (signup : usernameError u = none) :
    segmentOf escaped u ≠ [] := by
  cases escaped with
  | false =>
    rintro rfl
    exact absurd (name_sized signup).1 (by decide)
  | true => exact List.cons_ne_nil _ _

theorem segmentOf_bytes {escaped : Bool} (signup : usernameError u = none) :
    ∀ c ∈ segmentOf escaped u, c ≠ 47 ∧ c ≠ 63 ∧ c ≠ 35 := by
  intro c mem
  have letter : c = 64 ∨ c ∈ u := by
    cases escaped with
    | false => exact .inr mem
    | true => exact List.mem_cons.mp mem
  rcases letter with rfl | letter
  · decide
  · refine ⟨?_, ?_, ?_⟩
    · rintro rfl
      exact name_without signup (by decide) letter
    · rintro rfl
      exact name_without signup (by decide) letter
    · rintro rfl
      exact name_without signup (by decide) letter

theorem escaped_other : segmentOf true u ∉ reservedSegments := by
  intro mem
  simp only [segmentOf, if_true, reservedSegments, List.mem_cons, List.not_mem_nil,
    or_false] at mem
  rcases mem with same | same | same | same
  all_goals exact absurd (List.cons.inj same).1 (by decide)

theorem unclaimed_escaped : Unclaimed (segmentOf true u) :=
  ⟨fun start => absurd (List.cons_prefix_cons.mp start).1 (by decide),
    fun start => absurd (List.cons_prefix_cons.mp start).1 (by decide)⟩

theorem fromPath_page {domain : Text} (escaped : Bool) (signup : usernameError u = none)
    (repo : r ≠ []) (plain : Plain r) (bare : ¬ lit ".git" <:+ r)
    (query : q = [] ∨ q.head? = some 63) :
    fromPath domain (pagePath (segmentOf escaped u) r q) =
      .ok (if 64 ∈ q then (false, {}) else (true, ⟨[], u, r⟩)) := by
  have sized := (name_sized signup).1
  have user : u ≠ [] := fun empty => absurd (empty ▸ sized) (by decide)
  let f := pageForm escaped user (name_plain signup) repo plain bare query
  have owner : f.owner = u := List.append_nil u
  have named : f.named = r := List.append_nil r
  have text : f.text = pagePath (segmentOf escaped u) r q := by
    rw [Form.text, owner, named]
    cases escaped with
    | false => rfl
    | true => rfl
  have some_ : 1 ≤ r.length := List.length_pos_iff.mpr repo
  by_cases at_ : 64 ∈ q
  · have parts : cut 47 (address f.text) = some (u, r ++ q) := by
      rw [address_text, owner, named]
      exact cut_append (fun mem => (name_plain signup 47 mem).1 rfl) _
    have long : 3 ≤ (address f.text).length := by
      have sum := cut_length parts
      rw [List.length_append] at sum
      omega
    have letters : ¬ (3 ≤ f.text.length ∧ ∀ b ∈ f.text, b = 47) := by
      rintro ⟨-, all⟩
      have here : (64 : Byte) ∈ f.text := by
        rw [text, pagePath]
        simp [at_]
      exact absurd (all 64 here) (by decide)
    have unseen : ¬ (64 ∈ u ∨ 64 ∉ r ++ q) := by
      rintro (mem | absent)
      · exact (name_plain signup 64 mem).2.1 rfl
      · exact absent (List.mem_append_right _ at_)
    rw [← text, fromPath_eq, if_neg letters, parseOwner_cut long parts, if_neg unseen, if_pos at_]
  · rw [← text, fromPath_form domain f (by rw [owner, named]; omega) (.inr at_), if_neg at_]
    rfl

section there
variable {repo : LocalRepo} {data : GitHost.RepoPageData}

theorem repoRouter_page (escaped : Bool) (signup : usernameError u = none) (named : r ≠ [])
    (plain : Plain r) (bare : ¬ lit ".git" <:+ r) (query : q = [] ∨ q.head? = some 63)
    (loaded : getRepo b.toBackend ⟨[], u, r⟩ = .ok repo) (there : repo.valid = true)
    (free : ¬ lit "repo" <+: segmentOf escaped u) :
    repoRouter host b (pagePath (segmentOf escaped u) r q) req =
      if 64 ∈ q then .ok none
      else localRepo host b repo (subpathOf (pagePath (segmentOf escaped u) r q)) req := by
  have full : pagePath (segmentOf escaped u) r q ≠ [] := List.cons_ne_nil _ _
  have forms : ¬ lit "/repo" <+: pagePath (segmentOf escaped u) r q := fun start =>
    free ((prefix_segment_iff (by decide)).mp (List.cons_prefix_cons.mp start).2)
  rw [repoRouter, if_neg full, if_neg forms,
    fromPath_page escaped signup named plain bare query]
  by_cases at_ : 64 ∈ q
  · rw [if_pos at_, if_pos at_]
    rfl
  · rw [if_neg at_, if_neg at_]
    simp only [andThen, loaded, there]
    rfl

/-- One of the two paths of a repository that is there, for somebody who may read it. -/
theorem shows_iff (escaped : Bool) (signup : usernameError u = none) (named : r ≠ [])
    (plain : Plain r) (bare : ¬ lit ".git" <:+ r) (query : q = [] ∨ q.head? = some 63)
    (readable : Readable host b req u r repo data)
    (other : segmentOf escaped u ∉ reservedSegments) :
    Shows host b { req with path := pagePath (segmentOf escaped u) r q } data ↔
      r.head? ≠ some 35 ∧ Unclaimed (segmentOf escaped u) ∧ QueryHarmless q := by
  have slashless : (47 : Byte) ∉ segmentOf escaped u := fun mem =>
    (segmentOf_bytes signup 47 mem).1 rfl
  have full : segmentOf escaped u ≠ [] := segmentOf_ne signup
  have apart : ∀ {s : Text}, s ∈ reservedSegments → segmentOf escaped u ≠ s := fun mem same =>
    other (same ▸ mem)
  have files : staticAssetRouter host (pagePath (segmentOf escaped u) r q)
      { req with path := pagePath (segmentOf escaped u) r q } = .ok none := by
    refine asset_skip slashless full (fun first => ?_) (apart (by decide)) (apart (by decide))
    exact (segmentOf_bytes signup 63 (List.mem_of_mem_head? first)).2.1 rfl
  have first : (r ++ q).head? = r.head? := by
    obtain ⟨c, name, rfl⟩ := List.exists_cons_of_ne_nil named
    rfl
  have query' : r.head? ≠ some 63 := fun mem => (plain 63 (List.mem_of_mem_head? mem)).2.2 rfl
  have user : userOf (pagePath (segmentOf escaped u) r q) =
      if r.head? = some 35 then some (segmentOf escaped u) else none := by
    rw [pagePath, userOf_segment (segmentOf_bytes signup), first]
    simp only [List.append_eq_nil_iff, named, query', false_and, false_or]
  rw [Shows, GitRouter.handleRequest, files, orElse, userRouter, user]
  by_cases hash : r.head? = some 35
  · refine iff_of_false ?_ fun right => right.1 hash
    rw [if_pos hash]
    exact headers_ne (by decide) (by decide)
  rw [if_neg hash, orElse]
  by_cases api : lit "api" <+: segmentOf escaped u
  · refine iff_of_false ?_ fun right => right.2.1.1 api
    rw [pagePath, apiRouter_claimed slashless api (apart (by decide))]
    exact reply_ne (by decide)
  rw [pagePath, apiRouter_skip api, orElse, ← pagePath]
  by_cases forms : lit "repo" <+: segmentOf escaped u
  · refine iff_of_false ?_ fun right => right.2.1.2 forms
    exact notFound_ne (repoRouter_claimed slashless forms (apart (by decide)))
  rw [repoRouter_page escaped signup named plain bare query readable.loaded readable.there forms]
  have unclaimed : Unclaimed (segmentOf escaped u) := ⟨api, forms⟩
  by_cases at_ : 64 ∈ q
  · rw [if_pos at_]
    exact iff_of_false (notFound_ne skip_ne) fun right => right.2.2.1 at_
  rw [if_neg at_]
  by_cases page : IsPage (subpathOf (pagePath (segmentOf escaped u) r q))
  · refine iff_of_true ?_ ⟨hash, unclaimed, at_, (isPage_subpathOf slashless full plain).mp page⟩
    simp only [localRepo, if_pos page, repoPage, readable.allowed, andThen, if_true, readable.shown]
    rfl
  · refine iff_of_false (notFound_ne (localRepo_ne page)) fun right => page ?_
    exact (isPage_subpathOf slashless full plain).mpr right.2.2.2

/-- Both paths of a repository lead to its page, unless its name or its owner's is taken for
something else or the query has an address or a path in it. -/
theorem page_reached_iff (signup : usernameError u = none) (named : r ≠ []) (plain : Plain r)
    (bare : ¬ lit ".git" <:+ r) (query : q = [] ∨ q.head? = some 63)
    (readable : Readable host b req u r repo data) :
    Shows host b { req with path := pagePath (64 :: u) r q } data ∧
        (u ∉ reservedSegments → Shows host b { req with path := pagePath u r q } data) ↔
      r.head? ≠ some 35 ∧ QueryHarmless q ∧ (u ∉ reservedSegments → Unclaimed u) := by
  have escaped : Shows host b { req with path := pagePath (64 :: u) r q } data ↔ _ :=
    shows_iff true signup named plain bare query readable escaped_other
  have direct : u ∉ reservedSegments →
      (Shows host b { req with path := pagePath u r q } data ↔ _) := fun other =>
    shows_iff false signup named plain bare query readable other
  rw [escaped]
  constructor
  · rintro ⟨⟨hash, -, harmless⟩, bare⟩
    exact ⟨hash, harmless, fun other => ((direct other).mp (bare other)).2.1⟩
  · rintro ⟨hash, harmless, unclaimed⟩
    exact ⟨⟨hash, unclaimed_escaped, harmless⟩,
      fun other => (direct other).mpr ⟨hash, unclaimed other, harmless⟩⟩

end there

end page

/-! ## A repository of alice -/

/-- Everybody may read every repository. -/
def openBackend : GitBackend :=
  { demoBackend with selectRepo := fun _ _ => .ok (some ⟨[], 3, 0, 1⟩) }

/-- A request of nobody in particular. -/
def visit (path : Text) : ModRequest := ⟨.get, path, [], none, none, none⟩

def alicesRepo (u : Text) : LocalRepo :=
  { owner := u, name := "site", visibility := 3, createTs := 0, id := 1 }

def alicesPage (u : Text) : GitHost.RepoPageData :=
  { owner := u, name := "site", activeBranch := [], visibility := 3, branchesCount := 0,
    likesCount := 0, ticketsCount := 0, description := [] }

theorem page_reached_iff_alice :
    Shows demoHost openBackend (visit "/@alice/site?tab=files") (alicesPage "alice") ∧
        (lit "alice" ∉ reservedSegments →
          Shows demoHost openBackend (visit "/alice/site?tab=files") (alicesPage "alice")) ↔
      (lit "site").head? ≠ some 35 ∧ QueryHarmless "?tab=files" ∧
        (lit "alice" ∉ reservedSegments → Unclaimed "alice") :=
  @page_reached_iff "alice" "site" "?tab=files" demoHost openBackend (visit [])
    (alicesRepo "alice") (alicesPage "alice") (by decide) (by decide)
    (by decide +kernel) (by decide +kernel) (.inr rfl) ⟨rfl, rfl, rfl, rfl⟩

/-- The page of `apiary` is looked for in the API, and an address or a path in the query is
taken for one of the repository. -/
theorem page_not_reached :
    usernameError "apiary" = none ∧ lit "apiary" ∉ reservedSegments ∧
      Readable demoHost openBackend (visit []) "apiary" "site" (alicesRepo "apiary")
        (alicesPage "apiary") ∧
      Readable demoHost openBackend (visit []) "alice" "site" (alicesRepo "alice")
        (alicesPage "alice") ∧
      ¬ Shows demoHost openBackend (visit "/apiary/site?tab=files") (alicesPage "apiary") ∧
      ¬ Shows demoHost openBackend (visit "/@alice/site?to=bob@c.d") (alicesPage "alice") ∧
      ¬ Shows demoHost openBackend (visit "/@alice/site?next=/bob") (alicesPage "alice") := by
  refine ⟨by decide, by decide, ⟨rfl, rfl, rfl, rfl⟩, ⟨rfl, rfl, rfl, rfl⟩, ?_, ?_, ?_⟩
  · have missing : GitRouter.handleRequest demoHost openBackend (visit "/apiary/site?tab=files") =
        reply 404 [] "Not Found" := rfl
    rw [Shows, missing]
    exact reply_ne (by decide)
  · have missing : GitRouter.handleRequest demoHost openBackend
        (visit "/@alice/site?to=bob@c.d") = reply 404 [] "Not Found" := rfl
    rw [Shows, missing]
    exact reply_ne (by decide)
  · have failed : GitRouter.handleRequest demoHost openBackend
        (visit "/@alice/site?next=/bob") =
          gitRepoCgi demoHost openBackend (alicesRepo "alice") (visit "/@alice/site?next=/bob") :=
      rfl
    rw [Shows, failed]
    exact gitRepoCgi_ne

end routes

end PageRoutes
