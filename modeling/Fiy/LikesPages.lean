import Mathlib.Algebra.BigOperators.Group.List.Basic
import Mathlib.Algebra.GroupWithZero.Nat
import Fiy.PageRoutes
import Fiy.DecimalTexts
import Fiy.GitSearch

/-!
# Pages of liked repositories

The list of the repositories a user likes, page by page, and their number.
-/

namespace LikesPages

open ByteStrings ModConnectors ModLibrary LocalAccounts GitRepos GitPages GitSearch GitRouter
open DecimalTexts PageRoutes

/-! ## Requests -/

/-- What is behind `/api/user/`. -/
def userPath (user endpoint : Text) : Text := lit "/api/user/" ++ (user ++ 47 :: endpoint)

/-- The address of a page of a list. -/
def likesPath (user : Text) (limit page : Nat) : Text :=
  userPath user (lit "likes?limit=" ++ decimal limit ++ lit "&page=" ++ decimal page)

def countPath (user : Text) : Text := userPath user "likes_count"

section requests
variable (host : GitHost) (b : GitBackend) (req : ModRequest)

/-- The pages that are answered are the parts of this list, and their number is answered too. -/
structure Paged (user : Text) (limit : Nat) (liked : List Text) (pages : Nat → List Text) :
    Prop where
  answered : ∀ page, GitRouter.handleRequest host b { req with path := likesPath user limit page } =
    reply 200 jsonHeader (likesJson (pages page))
  disjoint : ∀ page page', page ≠ page' → (pages page).Disjoint (pages page')
  whole : ∀ path, path ∈ liked ↔ ∃ page, path ∈ pages page
  counted : ∃ last, (∀ page ≥ last, pages page = []) ∧
    GitRouter.handleRequest host b { req with path := countPath user } =
      reply 200 jsonHeader (decimal ((List.range last).map fun page => (pages page).length).sum)

variable {host b req}

theorem apiRouter_user (path : Text) :
    apiRouter host b (lit "/api/user/" ++ path) req =
      orElse (userApi host b path req) (reply 404 [] "Not Found") := by
  have api : lit "/api" <+: lit "/api/user/" ++ path := ⟨lit "/user/" ++ path, rfl⟩
  have version : ¬ lit "/v1" <+: (lit "/api/user/" ++ path).drop 4 := fun start =>
    absurd (List.cons_prefix_cons.mp (List.cons_prefix_cons.mp start).2).1 (by decide)
  have behind : apiPath (lit "/api/user/" ++ path) = lit "/user/" ++ path := if_neg version
  have repo : ¬ lit "/repo" <+: lit "/user/" ++ path := fun start =>
    absurd (List.cons_prefix_cons.mp (List.cons_prefix_cons.mp start).2).1 (by decide)
  have user : lit "/user/" <+: lit "/user/" ++ path := List.prefix_append _ _
  have handled : apiHandlers host b (lit "/user/" ++ path) req = userApi host b path req :=
    (if_neg repo).trans (if_pos user)
  have full : lit "/user/" ++ path ≠ [] := List.cons_ne_nil _ _
  rw [apiRouter, if_neg (not_not.mpr api), behind, if_neg full, handled]

/-- A request for the API of a user goes there. -/
theorem handleRequest_user {path : Text} (here : req.path = lit "/api/user/" ++ path) :
    GitRouter.handleRequest host b req =
      orElse (orElse (userApi host b path req) (reply 404 [] "Not Found"))
        (orElse (repoRouter host b req.path req) (reply 404 [] "Not Found")) := by
  have split : req.path = 47 :: (lit "api" ++ 47 :: (lit "user/" ++ path)) := here
  have files : staticAssetRouter host req.path req = .ok none := by
    rw [split]
    exact asset_skip (by decide) (by decide) (by decide) (by decide) (by decide)
  have user : userOf req.path = none := by
    rw [split, userOf_segment (by decide +kernel)]
    refine if_neg ?_
    rintro (none_ | question | hash)
    · exact absurd none_ (List.cons_ne_nil _ _)
    · exact absurd (Option.some.inj question) (by decide)
    · exact absurd (Option.some.inj hash) (by decide)
  rw [GitRouter.handleRequest, files, orElse, userRouter, user, orElse, here, apiRouter_user]

/-- The user of the API of a user that may sign up. -/
theorem userApi_local {user endpoint : Text} (signup : usernameError user = none) :
    userApi host b (user ++ 47 :: endpoint) req =
      if lit "/likes_count" <+: 47 :: endpoint then
        andThen b.countLikesUnbound fun count => reply 200 jsonHeader (decimalInt count)
      else if lit "/likes" <+: 47 :: endpoint then userLikes b user req
      else .ok none := by
  have named : (user ++ 47 :: endpoint).takeWhile (fun c => decide (c ≠ 47 ∧ c ≠ 63 ∧ c ≠ 35)) =
      user := by
    rw [List.takeWhile_append_of_pos fun c mem => ?_]
    · exact List.append_nil _
    · refine decide_eq_true (p := c ≠ 47 ∧ c ≠ 63 ∧ c ≠ 35) ⟨?_, ?_, ?_⟩
      · rintro rfl
        exact name_without signup (by decide) mem
      · rintro rfl
        exact name_without signup (by decide) mem
      · rintro rfl
        exact name_without signup (by decide) mem
  have more : user ≠ user ++ 47 :: endpoint := by
    intro same
    have length := congrArg List.length same
    rw [List.length_append, List.length_cons] at length
    omega
  have at_ : (64 : Byte) ∉ user := name_without signup (by decide)
  have first : user.head? ≠ some 64 := fun head => at_ (List.mem_of_mem_head? head)
  have local_ : apiUser user = (user, []) := by
    rw [apiUser, if_neg first, cut_eq_none_iff.mpr at_]
    rfl
  simp only [userApi, named, if_neg more, local_, List.drop_left]
  rfl

theorem reply_ne_error {status : Int} {headers body : Text} {crash : Crash} :
    (.error crash : Handled) ≠ reply status headers body := nofun

/-- A last parameter with an equals sign is read for ever. -/
theorem queryParams_endless {front params key value : Text} (path : 63 ∉ front)
    (name : 38 ∉ key) (plain : 38 ∉ value) :
    queryParams (front ++ 63 :: (params ++ 38 :: (key ++ 61 :: value))) = none := by
  have single : (38 : Byte) ∉ key ++ 61 :: value := by
    intro mem
    rcases List.mem_append.mp mem with mem | mem
    · exact name mem
    · rcases List.mem_cons.mp mem with mem | mem
      · exact absurd mem (by decide)
      · exact plain mem
  have last : (params ++ 38 :: (key ++ 61 :: value)).splitOn 38 =
      params.splitOn 38 ++ [key ++ 61 :: value] := by
    rw [List.splitOn_append_cons_self, List.splitOn_eq_singleton single]
  rw [queryParams, cut_append path]
  refine if_pos ?_
  rw [last, List.getLastD_concat]
  exact List.mem_append_right _ List.mem_cons_self

theorem notMem_decimal {n : Nat} {c : Byte} (other : isDigit c = false) : c ∉ decimal n := by
  intro mem
  rw [isDigit_of_mem_decimal mem] at other
  cases other

/-- What is behind the name of the user. -/
def likesQuery (limit page : Nat) : Text :=
  lit "limit=" ++ decimal limit ++ 38 :: (lit "page" ++ 61 :: decimal page)

theorem likesPath_eq (user : Text) (limit page : Nat) : likesPath user limit page =
    lit "/api/user/" ++ user ++ lit "/likes" ++ 63 :: likesQuery limit page := by
  simp only [likesPath, userPath, likesQuery, List.append_assoc]
  rfl

theorem likesPath_front {user : Text} (signup : usernameError user = none) :
    (63 : Byte) ∉ lit "/api/user/" ++ user ++ lit "/likes" := by
  simp only [List.mem_append, not_or]
  exact ⟨⟨by decide, name_without signup (by decide)⟩, by decide⟩

/-- A request for a list goes to the handler of lists. -/
theorem handleRequest_likes {user query : Text} (signup : usernameError user = none)
    (here : req.path = lit "/api/user/" ++ user ++ lit "/likes" ++ 63 :: query) :
    GitRouter.handleRequest host b req =
      orElse (orElse (userLikes b user req) (reply 404 [] "Not Found"))
        (orElse (repoRouter host b req.path req) (reply 404 [] "Not Found")) := by
  have split : req.path = lit "/api/user/" ++ (user ++ 47 :: (lit "likes" ++ 63 :: query)) := by
    rw [here, List.append_assoc, List.append_assoc]
    rfl
  have count : ¬ lit "/likes_count" <+: 47 :: (lit "likes" ++ 63 :: query) := by
    intro start
    have taken : (some 95 : Option Byte) = some 63 :=
      congrArg (fun t : Text => t[6]?) (List.prefix_iff_eq_take.mp start)
    exact absurd taken (by decide)
  have list : lit "/likes" <+: 47 :: (lit "likes" ++ 63 :: query) := ⟨63 :: query, rfl⟩
  rw [handleRequest_user split, userApi_local signup, if_neg count, if_pos list]

theorem likes_endless {user : Text} (signup : usernameError user = none) (limit page : Nat) :
    GitRouter.handleRequest host b { req with path := likesPath user limit page } =
      .error { fault := .endless } := by
  rw [handleRequest_likes signup (likesPath_eq user limit page), userLikes, likesPath_eq,
    likesQuery, queryParams_endless (likesPath_front signup) (by decide)
      (notMem_decimal (by decide))]
  rfl

theorem int32_decimal {n : Nat} (fits : n ≤ 2147483647) : int32 (decimal n) = some (n : Int) := by
  rw [int32, fromChars_of_digits (fun b mem => isDigit_of_mem_decimal mem) (decimal_ne_nil n)
    (by rw [ofDecimal_decimal]; omega), ofDecimal_decimal]
  exact Option.filter_some_pos (decide_eq_true ⟨by omega, by omega⟩)

/-- What is read of the two parameters and an empty one. -/
theorem queryParams_likes {front : Text} (path : 63 ∉ front) (limit page : Nat) :
    queryParams (front ++ 63 :: (likesQuery limit page ++ [38])) =
      some [(lit "limit", decimal limit), (lit "page", decimal page), ([], [])] := by
  have first : (38 : Byte) ∉ lit "limit=" ++ decimal limit := by
    rw [List.mem_append, not_or]
    exact ⟨by decide, notMem_decimal (by decide)⟩
  have second : (38 : Byte) ∉ lit "page" ++ 61 :: decimal page := by
    rw [List.mem_append, List.mem_cons, not_or, not_or]
    exact ⟨by decide, by decide, notMem_decimal (by decide)⟩
  have pieces : (likesQuery limit page ++ [38]).splitOn 38 =
      [lit "limit" ++ 61 :: decimal limit, lit "page" ++ 61 :: decimal page, []] := by
    have whole : likesQuery limit page ++ [38] = (lit "limit=" ++ decimal limit) ++
        38 :: ((lit "page" ++ 61 :: decimal page) ++ 38 :: []) := by
      simp only [likesQuery, List.append_assoc, List.cons_append]
    rw [whole, List.splitOn_append_cons_self_of_not_mem first,
      List.splitOn_append_cons_self_of_not_mem second]
    rfl
  have value : ∀ {key value : Text}, 61 ∉ key → keyValue (key ++ 61 :: value) = (key, value) := by
    intro key value plain
    rw [keyValue, cut_append plain]
    rfl
  have read : [lit "limit" ++ 61 :: decimal limit, lit "page" ++ 61 :: decimal page, []].map
      keyValue = [(lit "limit", decimal limit), (lit "page", decimal page), ([], [])] := by
    rw [List.map_cons, List.map_cons, List.map_singleton, value (by decide), value (by decide)]
    rfl
  rw [queryParams, cut_append path]
  simp only [pieces, read]
  rfl

/-- With a separator behind the last parameter the request ends, with the first page whatever
page is asked for. -/
theorem likes_first {user : Text} (signup : usernameError user = none) {limit page : Nat}
    (small : limit ≤ 10000) (fits : page ≤ 2147483647) :
    GitRouter.handleRequest host b { req with path := likesPath user limit page ++ [38] } =
      andThen (b.selectLikes user limit 0) fun repos =>
        reply 200 jsonHeader (likesJson repos) := by
  have path : likesPath user limit page ++ [38] =
      lit "/api/user/" ++ user ++ lit "/likes" ++ 63 :: (likesQuery limit page ++ [38]) := by
    rw [likesPath_eq]
    exact List.append_assoc _ _ _
  have params := queryParams_likes (likesPath_front signup) limit page
  have limited : likesLimit [(lit "limit", decimal limit), (lit "page", decimal page), ([], [])] =
      some limit := by
    have found : (param [(lit "limit", decimal limit), (lit "page", decimal page), ([], [])]
        "limit") = some (decimal limit) := rfl
    rw [likesLimit, found]
    simp only [Option.some_or, int32_decimal (show limit ≤ 2147483647 by omega)]
    have kept : (0 : Int) ≤ (limit : Int) ∧ (limit : Int) ≤ 10000 := by omega
    have filtered : (some (limit : Int)).filter (fun n => decide (0 ≤ n ∧ n ≤ 10000)) =
        some (limit : Int) := Option.filter_some_pos (decide_eq_true kept)
    rw [filtered]
    rfl
  have paged : likesPageValid
      [(lit "limit", decimal limit), (lit "page", decimal page), ([], [])] = true := by
    have found : (param [(lit "limit", decimal limit), (lit "page", decimal page), ([], [])]
        "page") = some (decimal page) := rfl
    rw [likesPageValid, found]
    simp only [int32_decimal fits, Option.any_some]
    exact decide_eq_true (Int.natCast_nonneg page)
  rw [handleRequest_likes signup path, path, userLikes]
  simp only [params, limited, paged, if_true]
  cases b.selectLikes user limit 0 with
  | error fault => rfl
  | ok repos => rfl

/-- No page is answered, whatever the tables are. -/
theorem not_paged (host : GitHost) (b : GitBackend) (req : ModRequest) {user : Text}
    (signup : usernameError user = none) (limit : Nat) (liked : List Text)
    (pages : Nat → List Text) : ¬ Paged host b req user limit liked pages := by
  intro paged
  have answered := paged.answered 0
  rw [likes_endless signup] at answered
  exact reply_ne_error answered

/-- A parameter of the count is never bound, so it counts the likes of nobody. -/
theorem count_unbound {user : Text} (signup : usernameError user = none) :
    GitRouter.handleRequest host b { req with path := countPath user } =
      andThen b.countLikesUnbound fun count => reply 200 jsonHeader (decimalInt count) := by
  have path : countPath user = lit "/api/user/" ++ (user ++ 47 :: lit "likes_count") := rfl
  have count : lit "/likes_count" <+: 47 :: lit "likes_count" := by decide
  rw [handleRequest_user path, userApi_local signup, if_pos count]
  cases b.countLikesUnbound with
  | error fault => rfl
  | ok count => rfl

end requests

theorem not_paged_alice : ¬ Paged demoHost demoBackend (visit []) "alice" 10 [] fun _ => [] :=
  not_paged demoHost demoBackend (visit []) (by decide) 10 [] fun _ => []

/-! ## Likes of alice -/

/-- A table with likes. The parameter of the count is NULL, which is no user. -/
def likesBackend (likes : List LikeRow) : GitBackend :=
  { demoBackend with
    selectLikes := fun user limit offset => .ok ((((likes.filter fun like =>
      like.user = user).map LikeRow.repoPath).drop offset).take limit)
    countLikesUnbound := .ok 0 }

def alicesLikes : List LikeRow := [⟨"alice", "bob/site"⟩, ⟨"alice", "bob/tools"⟩]

/-- The request for a page does not end. With a separator at its end the second page is the
first one, and the count is 0. -/
theorem likes_of_alice :
    (∀ pages, ¬ Paged demoHost (likesBackend alicesLikes) (visit []) "alice" 1
      ["bob/site", "bob/tools"] pages) ∧
    GitRouter.handleRequest demoHost (likesBackend alicesLikes)
      (visit "/api/user/alice/likes?limit=1&page=1&") =
        reply 200 jsonHeader "[\"bob/site\"]" ∧
    GitRouter.handleRequest demoHost (likesBackend alicesLikes)
      (visit "/api/user/alice/likes_count") = reply 200 jsonHeader "0" := by
  refine ⟨fun pages paged => ?_, rfl, rfl⟩
  have endless : GitRouter.handleRequest demoHost (likesBackend alicesLikes)
      { visit [] with path := likesPath "alice" 1 0 } = .error { fault := .endless } := rfl
  have answered := paged.answered 0
  rw [endless] at answered
  exact reply_ne_error answered

end LikesPages
